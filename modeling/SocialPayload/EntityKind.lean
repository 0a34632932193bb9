import SocialPayload.Text.Blank

namespace SocialPayload

/-- The kinds of entity that a payload is read as. -/
inductive EntityKind where
  | activities
  | appData
  | messages
  | people
  | albums
  | mediaItems
deriving DecidableEq, Repr

namespace EntityKind

/-- The kind that a name means. The plural and the singular are accepted, in any ASCII case. -/
def parse? (name : String) : Option EntityKind :=
  match String.ofList (Text.lowerAscii name.toList) with
  | "activities" | "activity" => some activities
  | "appdata" => some appData
  | "messages" | "message" => some messages
  | "people" | "person" => some people
  | "albums" | "album" => some albums
  | "mediaitems" | "mediaitem" => some mediaItems
  | _ => none

/-- The element that a payload of a kind has to hold. -/
def element : EntityKind → String
  | activities => "activity"
  | appData => "entry"
  | messages => "message"
  | people => "person"
  | albums => "album"
  | mediaItems => "mediaItem"

end EntityKind

end SocialPayload
