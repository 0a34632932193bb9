import SocialPayload.Config
import SocialPayload.Error
import SocialPayload.Number.Decimal
import SocialPayload.Xml.Tree

namespace SocialPayload

open Xml (Element)
open Number (Binary64 Decimal)

namespace Config

/-- Whether an element has a name of a vocabulary. -/
def isNamed (config : Config) (vocabulary : Vocabulary) (name : String) (e : Element) : Bool :=
  e.name.localPart == name && config.admits vocabulary e.name.namespaceUri

/-- Whether an element has one of some OpenSocial names. -/
def isEntity (config : Config) (names : List String) (e : Element) : Bool :=
  names.any fun name => config.isNamed .openSocial name e

/-- The first element with one of some names, anywhere in the tree, the root included. -/
def entity? (config : Config) (names : List String) (root : Element) : Option Element :=
  root.elements.find? (config.isEntity names)

/-- The first child with an OpenSocial name. -/
def child? (config : Config) (name : String) (e : Element) : Option Element :=
  e.children.find? (config.isNamed .openSocial name)

/-- The text of a child. A child without text has the empty one. -/
def text? (config : Config) (name : String) (e : Element) : Option String :=
  (config.child? name e).map Element.text

/-- The text of a child that is more than white space. -/
def value? (config : Config) (name : String) (e : Element) : Option String :=
  (config.text? name e).filter (!Text.isBlank ·)

end Config

/-- The finite number that a text means, with white space around it allowed. -/
def finiteNumber? (text : String) : Option Binary64 :=
  ((Decimal.parse? (Text.trim text)).map Decimal.toBinary64).filter Binary64.isFinite

/-- The number that the child for a field holds. White space alone is no number and no mistake. -/
def Config.number? (config : Config) (field : Field) (e : Element) :
    Except ConversionError (Option Binary64) :=
  match config.value? field.name e with
  | none => .ok none
  | some text =>
    match finiteNumber? text with
    | some x => .ok (some x)
    | none => .error (.invalidValue field text)

end SocialPayload
