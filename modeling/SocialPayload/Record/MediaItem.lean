import SocialPayload.Json.Basic
import SocialPayload.Lookup

namespace SocialPayload

open Xml (Element)

inductive MediaType where
  | image
  | audio
  | video
deriving DecidableEq, Repr

namespace MediaType

/-- The type that a text names, in any ASCII case and with white space around it allowed. -/
def parse? (text : String) : Option MediaType :=
  match String.ofList (Text.lowerAscii (Text.trim text)) with
  | "image" => some image
  | "audio" => some audio
  | "video" => some video
  | _ => none

def parse (text : String) : Except ConversionError MediaType :=
  match parse? text with
  | some t => .ok t
  | none => .error (.invalidValue .type text)

def name : MediaType → String
  | image => "image"
  | audio => "audio"
  | video => "video"

end MediaType

structure MediaItem where
  id : Option String := none
  mimeType : Option String := none
  mediaType : Option MediaType := none
  url : Option String := none
  thumbnailUrl : Option String := none
  albumId : Option String := none
deriving DecidableEq, Repr

namespace MediaItem

/-- Both spellings of the element are in use. -/
def elementNames : List String := ["mediaItem", "MediaItem"]

/-- The item that an element describes. Its type may be blank but not unknown. -/
def ofElement (config : Config) (e : Element) : Except ConversionError MediaItem := do
  let mediaType ← (config.value? "type" e).mapM MediaType.parse
  return {
    id := config.text? "id" e
    mimeType := config.text? "mimeType" e
    mediaType
    url := config.text? "url" e
    thumbnailUrl := config.text? "thumbnailUrl" e
    albumId := config.text? "albumId" e }

/-- The first media item in a payload. -/
def ofRoot (config : Config) (root : Element) : Except ConversionError MediaItem :=
  match config.entity? elementNames root with
  | some e => ofElement config e
  | none => .error (.missingElement .mediaItems)

def toJson (item : MediaItem) : Json :=
  .object (
    Json.textField "albumId" item.albumId ++
    Json.textField "id" item.id ++
    Json.textField "mimeType" item.mimeType ++
    Json.textField "thumbnailUrl" item.thumbnailUrl ++
    Json.textField "type" (item.mediaType.map MediaType.name) ++
    Json.textField "url" item.url)

end MediaItem

end SocialPayload
