import SocialPayload.Json.Basic
import SocialPayload.Lookup

namespace SocialPayload

open Xml (Element)

structure PersonName where
  formatted : Option String := none
  givenName : Option String := none
  familyName : Option String := none
deriving DecidableEq, Repr

namespace PersonName

def ofElement (config : Config) (e : Element) : PersonName where
  formatted := config.text? "formatted" e
  givenName := config.text? "givenName" e
  familyName := config.text? "familyName" e

def toJson (name : PersonName) : Json :=
  .object (
    Json.textField "familyName" name.familyName ++
    Json.textField "formatted" name.formatted ++
    Json.textField "givenName" name.givenName)

end PersonName

structure Person where
  id : Option String := none
  displayName : Option String := none
  name : Option PersonName := none
  gender : Option String := none
  birthday : Option String := none
  thumbnailUrl : Option String := none
  profileUrl : Option String := none
  aboutMe : Option String := none
deriving DecidableEq, Repr

namespace Person

def ofElement (config : Config) (e : Element) : Person where
  id := config.text? "id" e
  displayName := config.text? "displayName" e
  name := (config.child? "name" e).map (PersonName.ofElement config)
  gender := config.text? "gender" e
  birthday := config.text? "birthday" e
  thumbnailUrl := config.text? "thumbnailUrl" e
  profileUrl := config.text? "profileUrl" e
  aboutMe := config.text? "aboutMe" e

/-- The first person in a payload. -/
def ofRoot (config : Config) (root : Element) : Except ConversionError Person :=
  match config.entity? ["person"] root with
  | some e => .ok (ofElement config e)
  | none => .error (.missingElement .people)

def toJson (person : Person) : Json :=
  .object (
    Json.textField "aboutMe" person.aboutMe ++
    Json.textField "birthday" person.birthday ++
    Json.textField "displayName" person.displayName ++
    Json.textField "gender" person.gender ++
    Json.textField "id" person.id ++
    Json.field "name" (person.name.map PersonName.toJson) ++
    Json.textField "profileUrl" person.profileUrl ++
    Json.textField "thumbnailUrl" person.thumbnailUrl)

end Person

end SocialPayload
