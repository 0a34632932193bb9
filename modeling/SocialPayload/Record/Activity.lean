import SocialPayload.Record.MediaItem

namespace SocialPayload

open Xml (Element)

structure Activity where
  id : Option String := none
  title : Option String := none
  /-- The summary. -/
  body : Option String := none
  streamId : Option String := none
  streamTitle : Option String := none
  /-- A time, kept as written. -/
  updated : Option String := none
  mediaItems : List MediaItem := []
deriving DecidableEq, Repr

namespace Activity

/-- A text field of an activity. An envelope around the activity may hold the field instead. -/
def envelopeText? (config : Config) (root activity : Element) (name : String) : Option String :=
  config.text? name activity <|> config.text? name root

/-- The items directly inside the first list of them. One that is no item spoils the activity. -/
def itemsOf (config : Config) (activity : Element) : Except ConversionError (List MediaItem) :=
  match config.child? "mediaItems" activity with
  | some list =>
    (list.children.filter (config.isEntity MediaItem.elementNames)).mapM
      (MediaItem.ofElement config)
  | none => .ok []

/-- The first activity in a payload. -/
def ofRoot (config : Config) (root : Element) : Except ConversionError Activity := do
  match config.entity? ["activity"] root with
  | some activity =>
    let field := envelopeText? config root activity
    let mediaItems ← itemsOf config activity
    return {
      id := field "id"
      title := field "title"
      body := field "summary"
      streamId := field "streamId"
      streamTitle := field "streamTitle"
      updated := field "updated"
      mediaItems }
  | none => .error (.missingElement .activities)

def toJson (activity : Activity) : Json :=
  .object (
    Json.textField "body" activity.body ++
    Json.textField "id" activity.id ++
    Json.listField "mediaItems" (activity.mediaItems.map MediaItem.toJson) ++
    Json.textField "streamId" activity.streamId ++
    Json.textField "streamTitle" activity.streamTitle ++
    Json.textField "title" activity.title ++
    Json.textField "updated" activity.updated)

end Activity

end SocialPayload
