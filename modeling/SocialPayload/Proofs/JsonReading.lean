import SocialPayload.Proofs.AppDataEntries
import SocialPayload.Proofs.JsonShapes

namespace SocialPayload

open Number (Binary64)

namespace Json

def fields : Json → List (String × Json)
  | .object fields => fields
  | _ => []

def items : Json → List Json
  | .array items => items
  | _ => []

def string? : Json → Option String
  | .string s => some s
  | _ => none

def number? : Json → Option Binary64
  | .number x => some x
  | _ => none

def get? (key : String) (v : Json) : Option Json :=
  v.fields.lookup key

def getText? (key : String) (v : Json) : Option String :=
  (v.get? key).bind string?

def getNumber? (key : String) (v : Json) : Option Binary64 :=
  (v.get? key).bind number?

/-- The members of a list under a key. A list that is left out has none. -/
def getItems (key : String) (v : Json) : List Json :=
  ((v.get? key).map items).getD []

@[simp] theorem get?_object (key : String) (fields : List (String × Json)) :
    (Json.object fields).get? key = fields.lookup key := rfl

@[simp] theorem lookup_field (key name : String) (value : Option Json) :
    (Json.field name value).lookup key = if key = name then value else none := by
  cases value with
  | none => simp [Json.field]
  | some v =>
    rw [Json.field, List.lookup_cons, List.lookup_nil]
    by_cases h : key = name
    · rw [if_pos h, beq_iff_eq.mpr h]
    · rw [if_neg h, beq_false_of_ne h]

@[simp] theorem lookup_textField (key name : String) (text : Option String) :
    (Json.textField name text).lookup key = if key = name then text.map .string else none :=
  lookup_field key name _

/-- A list as the value of a field, if there is one. -/
def ofItems? (items : List Json) : Option Json :=
  if items.isEmpty then none else some (.array items)

@[simp] theorem lookup_listField (key name : String) (items : List Json) :
    (Json.listField name items).lookup key = if key = name then ofItems? items else none :=
  lookup_field key name _

@[simp] theorem getD_items (items : List Json) : ((ofItems? items).map Json.items).getD [] = items := by
  cases items <;> rfl

@[simp] theorem bind_string? (text : Option String) :
    (text.map Json.string).bind string? = text := by
  cases text <;> rfl

theorem bind_number? {number : Option Binary64} (h : ∀ x ∈ number, x.isFinite = true) :
    (number.map Json.ofNumber).bind number? = number := by
  cases number with
  | none => rfl
  | some x => simp [Json.ofNumber, h x rfl, number?]

end Json

def MediaType.ofName? (name : String) : Option MediaType :=
  [image, audio, video].find? (·.name == name)

def MediaItem.ofJson (v : Json) : MediaItem where
  id := v.getText? "id"
  mimeType := v.getText? "mimeType"
  mediaType := (v.getText? "type").bind MediaType.ofName?
  url := v.getText? "url"
  thumbnailUrl := v.getText? "thumbnailUrl"
  albumId := v.getText? "albumId"

def Activity.ofJson (v : Json) : Activity where
  id := v.getText? "id"
  title := v.getText? "title"
  body := v.getText? "body"
  streamId := v.getText? "streamId"
  streamTitle := v.getText? "streamTitle"
  updated := v.getText? "updated"
  mediaItems := (v.getItems "mediaItems").map MediaItem.ofJson

def AppData.ofJson (v : Json) : AppData :=
  insertAll default (v.fields.filterMap fun field => field.2.string?.map (field.1, ·))

def Message.ofJson (v : Json) : Message where
  id := v.getText? "id"
  title := v.getText? "title"
  body := v.getText? "body"
  recipients := (v.getItems "recipients").filterMap Json.string?

def PersonName.ofJson (v : Json) : PersonName where
  formatted := v.getText? "formatted"
  givenName := v.getText? "givenName"
  familyName := v.getText? "familyName"

def Person.ofJson (v : Json) : Person where
  id := v.getText? "id"
  displayName := v.getText? "displayName"
  name := (v.get? "name").map PersonName.ofJson
  gender := v.getText? "gender"
  birthday := v.getText? "birthday"
  thumbnailUrl := v.getText? "thumbnailUrl"
  profileUrl := v.getText? "profileUrl"
  aboutMe := v.getText? "aboutMe"

def Location.ofJson (v : Json) : Location where
  latitude := v.getNumber? "latitude"
  longitude := v.getNumber? "longitude"

def Album.ofJson (v : Json) : Album where
  id := v.getText? "id"
  thumbnailUrl := v.getText? "thumbnailUrl"
  title := v.getText? "title"
  description := v.getText? "description"
  ownerId := v.getText? "ownerId"
  location := (v.get? "location").map Location.ofJson

/-- The record of a kind that a value stands for. -/
def Record.ofJson (kind : EntityKind) (v : Json) : Record :=
  match kind with
  | .activities => .activity (Activity.ofJson v)
  | .appData => .appData (AppData.ofJson v)
  | .messages => .message (Message.ofJson v)
  | .people => .person (Person.ofJson v)
  | .albums => .album (Album.ofJson v)
  | .mediaItems => .mediaItem (MediaItem.ofJson v)

open Json

theorem MediaType.ofName?_name (t : MediaType) : ofName? t.name = some t := by
  cases t <;> decide

theorem MediaItem.ofJson_toJson (item : MediaItem) : ofJson item.toJson = item := by
  have htype : ((item.mediaType.map fun t => Json.string t.name).bind string?).bind
      MediaType.ofName? = item.mediaType := by
    cases item.mediaType with
    | none => rfl
    | some t => exact t.ofName?_name
  simp [ofJson, toJson, getText?, List.lookup_append, Function.comp_def, htype]

theorem Activity.ofJson_toJson (activity : Activity) : ofJson activity.toJson = activity := by
  simp [ofJson, toJson, getText?, getItems, List.lookup_append, Function.comp_def,
    MediaItem.ofJson_toJson]

theorem AppData.ofJson_toJson (data : AppData) : ofJson data.toJson = data := by
  have hentries : data.toJson.fields.filterMap (fun field => field.2.string?.map (field.1, ·)) =
      data.entries := by
    simp [toJson, Json.fields, Json.string?, List.filterMap_map]
  rw [ofJson, hentries]
  exact insertAll_of_perm (.refl _)

theorem Message.ofJson_toJson (message : Message) : ofJson message.toJson = message := by
  simp [ofJson, toJson, getText?, getItems, List.lookup_append, List.filterMap_map,
    Function.comp_def, Json.string?]

theorem PersonName.ofJson_toJson (name : PersonName) : ofJson name.toJson = name := by
  simp [ofJson, toJson, getText?, List.lookup_append]

theorem Person.ofJson_toJson (person : Person) : ofJson person.toJson = person := by
  simp [ofJson, toJson, getText?, List.lookup_append, Function.comp_def, PersonName.ofJson_toJson]

theorem Location.IsFinite.ofJson_toJson {location : Location} (h : location.IsFinite) :
    Location.ofJson location.toJson = location := by
  simp [Location.ofJson, Location.toJson, getNumber?, List.lookup_append, bind_number? h.1,
    bind_number? h.2]

theorem Album.ofJson_toJson {album : Album} (h : ∀ location ∈ album.location, location.IsFinite) :
    ofJson album.toJson = album := by
  have hlocation : (album.location.map Location.toJson).map Location.ofJson = album.location := by
    cases hlocation : album.location with
    | none => rfl
    | some location => simp [(h location hlocation).ofJson_toJson]
  rw [Option.map_map] at hlocation
  simp [ofJson, toJson, getText?, List.lookup_append, hlocation]

theorem Record.IsFinite.ofJson_toJson {record : Record} (h : record.IsFinite) :
    Record.ofJson record.kind record.toJson = record := by
  cases record with
  | activity a => exact congrArg Record.activity a.ofJson_toJson
  | appData d => exact congrArg Record.appData d.ofJson_toJson
  | message m => exact congrArg Record.message m.ofJson_toJson
  | person p => exact congrArg Record.person p.ofJson_toJson
  | album a => exact congrArg Record.album (Album.ofJson_toJson h)
  | mediaItem i => exact congrArg Record.mediaItem i.ofJson_toJson

/-- A record can be read back from its JSON, so no two records of a kind have the same. What is absent
is told from what is empty. -/
theorem Record.toJson_lossless :
    (∀ record : Record, record.IsFinite → Record.ofJson record.kind record.toJson = record) ∧
    ∀ record record' : Record, record.IsFinite → record'.IsFinite → record.kind = record'.kind →
      record.toJson = record'.toJson → record = record' := by
  constructor
  · intro record h
    exact h.ofJson_toJson
  · intro record record' h h' hkind hjson
    calc
      record = Record.ofJson record.kind record.toJson := h.ofJson_toJson.symm
      _ = Record.ofJson record'.kind record'.toJson := by rw [hkind, hjson]
      _ = record' := h'.ofJson_toJson

theorem Record.toJson_lossless_zero :
    let zero : Record := .album { location := some { latitude := some ⟨0x0000000000000000⟩ } }
    let negativeZero : Record := .album { location := some { latitude := some ⟨0x8000000000000000⟩ } }
    zero.IsFinite ∧ negativeZero.IsFinite ∧ zero.toJson ≠ negativeZero.toJson := by
  intro zero negativeZero
  have hzero : zero.IsFinite := by
    simp [zero, Record.IsFinite, Location.IsFinite, show Binary64.isFinite ⟨0⟩ = true by decide]
  have hnegative : negativeZero.IsFinite := by
    simp [negativeZero, Record.IsFinite, Location.IsFinite,
      show Binary64.isFinite ⟨0x8000000000000000⟩ = true by decide]
  refine ⟨hzero, hnegative, fun hjson => ?_⟩
  have hsame := Record.toJson_lossless.2 zero negativeZero hzero hnegative rfl hjson
  exact absurd hsame (by decide)

end SocialPayload
