import SocialPayload.Json.Render
import SocialPayload.Record.Activity
import SocialPayload.Record.Album
import SocialPayload.Record.AppData
import SocialPayload.Record.Message
import SocialPayload.Record.Person
import SocialPayload.Xml.Document

namespace SocialPayload

/-- What a payload is converted into. -/
inductive Record where
  | activity (activity : Activity)
  | appData (data : AppData)
  | message (message : Message)
  | person (person : Person)
  | album (album : Album)
  | mediaItem (item : MediaItem)
deriving DecidableEq, Repr

namespace Record

def kind : Record → EntityKind
  | activity _ => .activities
  | appData _ => .appData
  | message _ => .messages
  | person _ => .people
  | album _ => .albums
  | mediaItem _ => .mediaItems

/-- The record of a kind that a document holds, given by its root. -/
def ofRoot (kind : EntityKind) (config : Config) (root : Xml.Element) :
    Except ConversionError Record :=
  match kind with
  | .activities => (Activity.ofRoot config root).map activity
  | .appData => (AppData.ofRoot config root).map appData
  | .messages => (Message.ofRoot config root).map message
  | .people => (Person.ofRoot config root).map person
  | .albums => (Album.ofRoot config root).map album
  | .mediaItems => (MediaItem.ofRoot config root).map mediaItem

/-- The record of a kind that a text holds. The whole text is read as a document before anything is
looked for in it. -/
def ofText (kind : EntityKind) (config : Config) (text : String) :
    Except ConversionError Record :=
  match Xml.Document.parse text with
  | .ok document => ofRoot kind config document.root
  | .error fault => .error (.invalidXml fault)

def toJson : Record → Json
  | activity a => a.toJson
  | appData d => d.toJson
  | message m => m.toJson
  | person p => p.toJson
  | album a => a.toJson
  | mediaItem i => i.toJson

end Record

/-- Converts the text of a payload of a kind into JSON. -/
def convert (kind : EntityKind) (config : Config) (text : String) :
    Except ConversionError Json :=
  (Record.ofText kind config text).map Record.toJson

end SocialPayload
