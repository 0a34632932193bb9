import SocialPayload.Json.Basic
import SocialPayload.Lookup

namespace SocialPayload

open Xml (Element)

structure Message where
  id : Option String := none
  title : Option String := none
  body : Option String := none
  recipients : List String := []
deriving DecidableEq, Repr

namespace Message

/-- The texts of the recipients, which may stand anywhere in the tree. -/
def recipientsOf (config : Config) (root : Element) : List String :=
  (root.elements.filter (config.isNamed .osapi "recipient")).map Element.text

/-- The message in a payload, whatever its root is called. A message without any field is none. -/
def ofRoot (config : Config) (root : Element) : Except ConversionError Message :=
  let message : Message := {
    id := config.text? "id" root
    title := config.text? "title" root
    body := config.text? "body" root
    recipients := recipientsOf config root }
  if message = {} then .error (.missingElement .messages) else .ok message

def toJson (message : Message) : Json :=
  .object (
    Json.textField "body" message.body ++
    Json.textField "id" message.id ++
    Json.listField "recipients" (message.recipients.map .string) ++
    Json.textField "title" message.title)

end Message

end SocialPayload
