import SocialPayload.Json.Basic
import SocialPayload.Lookup

namespace SocialPayload

open Xml (Element)
open Number (Binary64)

structure Location where
  latitude : Option Binary64 := none
  longitude : Option Binary64 := none
deriving DecidableEq, Repr

namespace Location

/-- The place that an element describes. The latitude is read first. -/
def ofElement (config : Config) (e : Element) : Except ConversionError Location := do
  let latitude ← config.number? .latitude e
  let longitude ← config.number? .longitude e
  return { latitude, longitude }

def toJson (location : Location) : Json :=
  .object (
    Json.field "latitude" (location.latitude.map Json.ofNumber) ++
    Json.field "longitude" (location.longitude.map Json.ofNumber))

end Location

structure Album where
  id : Option String := none
  thumbnailUrl : Option String := none
  /-- The caption. -/
  title : Option String := none
  description : Option String := none
  ownerId : Option String := none
  location : Option Location := none
deriving DecidableEq, Repr

namespace Album

def ofElement (config : Config) (e : Element) : Except ConversionError Album := do
  let location ← (config.child? "location" e).mapM (Location.ofElement config)
  return {
    id := config.text? "id" e
    thumbnailUrl := config.text? "thumbnailUrl" e
    title := config.text? "caption" e
    description := config.text? "description" e
    ownerId := config.text? "ownerId" e
    location }

/-- The first album in a payload. -/
def ofRoot (config : Config) (root : Element) : Except ConversionError Album :=
  match config.entity? ["album"] root with
  | some e => ofElement config e
  | none => .error (.missingElement .albums)

def toJson (album : Album) : Json :=
  .object (
    Json.textField "description" album.description ++
    Json.textField "id" album.id ++
    Json.field "location" (album.location.map Location.toJson) ++
    Json.textField "ownerId" album.ownerId ++
    Json.textField "thumbnailUrl" album.thumbnailUrl ++
    Json.textField "title" album.title)

end Album

end SocialPayload
