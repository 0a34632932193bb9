import SocialPayload.Convert
import SocialPayload.Proofs.Drafts

namespace SocialPayload

open Xml (Draft ExpandedName Scope)
open Number (Binary64)

/-- How the OpenSocial elements of a document come by their namespace: not at all, by a default
namespace, or by a qualifier. -/
inductive Spelling where
  | unqualified
  | byDefault
  | qualified (qualifier : String)
deriving DecidableEq, Repr

def osapiQualifier : String := "osapi"

namespace Spelling

def qualifier : Spelling → String
  | qualified q => q
  | unqualified | byDefault => ""

def namespaceUri? (config : Config) : Spelling → Option String
  | unqualified => none
  | byDefault | qualified _ => some config.namespaces.openSocial

/-- The namespaces that the root declares. Only messages need the other vocabulary. -/
def declared (config : Config) (kind : EntityKind) (spelling : Spelling) : Scope :=
  (spelling.namespaceUri? config).toList.map (spelling.qualifier, ·) ++
    if kind = .messages then [(osapiQualifier, config.namespaces.osapi)] else []

/-- A configuration and a kind of record for which documents can be spelled so. -/
structure IsUsable (config : Config) (kind : EntityKind) (spelling : Spelling) : Prop where
  accepted : spelling = unqualified → config.allowUnqualified = true
  declarable : spelling ≠ unqualified → Xml.IsDeclarableUri config.namespaces.openSocial
  qualifier : ∀ q, spelling = qualified q →
    Xml.isPlainName q = true ∧ q ≠ "xml" ∧ q ≠ "xmlns" ∧ q ≠ osapiQualifier
  osapi : kind = .messages → Xml.IsDeclarableUri config.namespaces.osapi

def text (config : Config) (spelling : Spelling) (name value : String) : Draft :=
  .text spelling.qualifier ⟨spelling.namespaceUri? config, name⟩ value

def group (config : Config) (spelling : Spelling) (name : String) (content : List Draft) : Draft :=
  .group spelling.qualifier ⟨spelling.namespaceUri? config, name⟩ content

def field (config : Config) (spelling : Spelling) (name : String) (value : Option String) :
    List Draft :=
  (value.map (spelling.text config name)).toList

end Spelling

structure LocationText where
  latitude : Option String := none
  longitude : Option String := none
deriving DecidableEq, Repr

/-- Whether each coordinate of a location, and no other, has a text, which means it. -/
def LocationText.Means (texts : LocationText) (location : Location) : Prop :=
  texts.latitude.map finiteNumber? = location.latitude.map some ∧
    texts.longitude.map finiteNumber? = location.longitude.map some

section

variable (config : Config) (spelling : Spelling)

def MediaItem.layout (item : MediaItem) : List Draft :=
  spelling.field config "id" item.id ++
  spelling.field config "mimeType" item.mimeType ++
  spelling.field config "type" (item.mediaType.map MediaType.name) ++
  spelling.field config "url" item.url ++
  spelling.field config "thumbnailUrl" item.thumbnailUrl ++
  spelling.field config "albumId" item.albumId

/-- The items are written in one list, unless there are none. -/
def Activity.layout (activity : Activity) : List Draft :=
  spelling.field config "id" activity.id ++
  spelling.field config "title" activity.title ++
  spelling.field config "summary" activity.body ++
  spelling.field config "streamId" activity.streamId ++
  spelling.field config "streamTitle" activity.streamTitle ++
  spelling.field config "updated" activity.updated ++
  (((some activity.mediaItems).filter (!·.isEmpty)).map fun items =>
    spelling.group config "mediaItems"
      (items.map fun item => spelling.group config "MediaItem" (item.layout config spelling))).toList

def LocationText.layout (texts : LocationText) : List Draft :=
  spelling.field config "latitude" texts.latitude ++
  spelling.field config "longitude" texts.longitude

def Album.layout (album : Album) (location : Option LocationText) : List Draft :=
  spelling.field config "id" album.id ++
  spelling.field config "thumbnailUrl" album.thumbnailUrl ++
  spelling.field config "caption" album.title ++
  spelling.field config "description" album.description ++
  spelling.field config "ownerId" album.ownerId ++
  (location.map fun texts => spelling.group config "location" (texts.layout config spelling)).toList

def PersonName.layout (name : PersonName) : List Draft :=
  spelling.field config "formatted" name.formatted ++
  spelling.field config "givenName" name.givenName ++
  spelling.field config "familyName" name.familyName

def Person.layout (person : Person) : List Draft :=
  spelling.field config "id" person.id ++
  spelling.field config "displayName" person.displayName ++
  (person.name.map fun name => spelling.group config "name" (name.layout config spelling)).toList ++
  spelling.field config "gender" person.gender ++
  spelling.field config "birthday" person.birthday ++
  spelling.field config "thumbnailUrl" person.thumbnailUrl ++
  spelling.field config "profileUrl" person.profileUrl ++
  spelling.field config "aboutMe" person.aboutMe

/-- A recipient keeps its own vocabulary, however the other elements are spelled. -/
def Message.layoutRecipient (recipient : String) : Draft :=
  .text osapiQualifier ⟨some config.namespaces.osapi, "recipient"⟩ recipient

def Message.layout (message : Message) : List Draft :=
  spelling.field config "id" message.id ++
  spelling.field config "title" message.title ++
  spelling.field config "body" message.body ++
  message.recipients.map (Message.layoutRecipient config)

def AppData.layoutEntry (entry : String × String) : Draft :=
  spelling.group config "entry" [spelling.text config "key" entry.1,
    spelling.text config "value" entry.2]

end

namespace Record

/-- The layouts of a record. What is left open is the texts of an album's numbers and the order in
which entries are written. -/
inductive HasLayout (config : Config) (spelling : Spelling) : Record → Draft → Prop where
  | activity (a : Activity) : HasLayout config spelling (.activity a)
      (spelling.group config "activity" (a.layout config spelling))
  | appData (d : AppData) (entries : List (String × String)) (order : entries.Perm d.entries) :
      HasLayout config spelling (.appData d)
        (spelling.group config "response" (entries.map (AppData.layoutEntry config spelling)))
  | message (m : Message) : HasLayout config spelling (.message m)
      (spelling.group config "response" (m.layout config spelling))
  | person (p : Person) : HasLayout config spelling (.person p)
      (spelling.group config "person" (p.layout config spelling))
  | album (a : Album) (texts : Option LocationText)
      (means : Option.Rel LocationText.Means texts a.location) : HasLayout config spelling (.album a)
        (spelling.group config "album" (a.layout config spelling texts))
  | mediaItem (i : MediaItem) : HasLayout config spelling (.mediaItem i)
      (spelling.group config "mediaItem" (i.layout config spelling))

/-- What reading a layout of a record gives. A message without fields and data without entries leave
nothing that could be told from other elements. -/
def readBack : Record → Except ConversionError Record
  | message m => if m = {} then .error (.missingElement .messages) else .ok (.message m)
  | appData d => if d.entries = [] then .error (.missingElement .appData) else .ok (.appData d)
  | record => .ok record

end Record

end SocialPayload
