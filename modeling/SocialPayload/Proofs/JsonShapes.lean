import SocialPayload.Convert

namespace SocialPayload

open Number (Binary64)
open Xml (Element bind_eq_ok map_eq_ok pure_eq_ok)

namespace Json

mutual

/-- Whether `null` occurs in a value, at any depth. -/
def holdsNull : Json → Bool
  | .null => true
  | .number _ | .string _ => false
  | .array items => itemsHoldNull items
  | .object fields => fieldsHoldNull fields

def itemsHoldNull : List Json → Bool
  | [] => false
  | v :: rest => v.holdsNull || itemsHoldNull rest

def fieldsHoldNull : List (String × Json) → Bool
  | [] => false
  | (_, v) :: rest => v.holdsNull || fieldsHoldNull rest

end

/-- What a value may be. A list is not empty, a number is finite, and a record has some of its keys,
in their order and no others. -/
inductive Shape where
  | text
  | choice (texts : List String)
  | number
  | list (member : Shape)
  | record (fields : List (String × Shape))
  | map (value : Shape)

mutual

inductive Fits : Shape → Json → Prop
  | text (s : String) : Fits .text (.string s)
  | choice {texts : List String} {s : String} (known : s ∈ texts) : Fits (.choice texts) (.string s)
  | number {x : Binary64} (finite : x.isFinite = true) : Fits .number (.number x)
  | list {member : Shape} {items : List Json} (nonempty : items ≠ [])
      (fits : ∀ v ∈ items, Fits member v) : Fits (.list member) (.array items)
  | record {shapes : List (String × Shape)} {fields : List (String × Json)}
      (fits : FieldsFit shapes fields) : Fits (.record shapes) (.object fields)
  | map {value : Shape} {fields : List (String × Json)}
      (fits : ∀ field ∈ fields, Fits value field.2) : Fits (.map value) (.object fields)

inductive FieldsFit : List (String × Shape) → List (String × Json) → Prop
  | nil : FieldsFit [] []
  | absent {key : String} {shape : Shape} {shapes : List (String × Shape)}
      {fields : List (String × Json)} (rest : FieldsFit shapes fields) :
      FieldsFit ((key, shape) :: shapes) fields
  | present {key : String} {shape : Shape} {v : Json} {shapes : List (String × Shape)}
      {fields : List (String × Json)} (fits : Fits shape v) (rest : FieldsFit shapes fields) :
      FieldsFit ((key, shape) :: shapes) ((key, v) :: fields)

end

theorem itemsHoldNull_eq_false {items : List Json} (h : ∀ v ∈ items, v.holdsNull = false) :
    itemsHoldNull items = false := by
  induction items with
  | nil => rfl
  | cons v rest ih =>
    have hrest := ih fun w hw => h w (List.mem_cons_of_mem v hw)
    rw [itemsHoldNull, h v List.mem_cons_self, hrest]
    rfl

theorem fieldsHoldNull_eq_false {fields : List (String × Json)}
    (h : ∀ field ∈ fields, field.2.holdsNull = false) : fieldsHoldNull fields = false := by
  induction fields with
  | nil => rfl
  | cons field rest ih =>
    have hrest := ih fun f hf => h f (List.mem_cons_of_mem field hf)
    rw [fieldsHoldNull, h field List.mem_cons_self, hrest]
    rfl

mutual

theorem Fits.holdsNull {shape : Shape} {v : Json} : Fits shape v → v.holdsNull = false
  | .text _ | .choice _ | .number _ => rfl
  | .list _ fits => itemsHoldNull_eq_false fun w hw => (fits w hw).holdsNull
  | .record fits => fits.holdsNull
  | .map fits => fieldsHoldNull_eq_false fun field hfield => (fits field hfield).holdsNull

theorem FieldsFit.holdsNull {shapes : List (String × Shape)} {fields : List (String × Json)} :
    FieldsFit shapes fields → fieldsHoldNull fields = false
  | .nil => rfl
  | .absent rest => rest.holdsNull
  | .present fits rest => by rw [fieldsHoldNull, fits.holdsNull, rest.holdsNull]; rfl

end

variable {key : String} {shapes : List (String × Shape)} {fields : List (String × Json)}

theorem FieldsFit.field {shape : Shape} {value : Option Json} (fits : ∀ v ∈ value, Fits shape v)
    (rest : FieldsFit shapes fields) :
    FieldsFit ((key, shape) :: shapes) (Json.field key value ++ fields) := by
  cases value with
  | none => exact .absent rest
  | some v => exact .present (fits v rfl) rest

theorem FieldsFit.textField (text : Option String) (rest : FieldsFit shapes fields) :
    FieldsFit ((key, .text) :: shapes) (Json.textField key text ++ fields) := by
  apply FieldsFit.field ?_ rest
  intro v hv
  obtain ⟨s, -, rfl⟩ := Option.map_eq_some_iff.mp hv
  exact .text s

theorem FieldsFit.choiceField {texts : List String} {text : Option String}
    (known : ∀ s ∈ text, s ∈ texts) (rest : FieldsFit shapes fields) :
    FieldsFit ((key, .choice texts) :: shapes) (Json.textField key text ++ fields) := by
  apply FieldsFit.field ?_ rest
  intro v hv
  obtain ⟨s, hs, rfl⟩ := Option.map_eq_some_iff.mp hv
  exact .choice (known s hs)

theorem FieldsFit.numberField {number : Option Binary64} (finite : ∀ x ∈ number, x.isFinite = true)
    (rest : FieldsFit shapes fields) :
    FieldsFit ((key, .number) :: shapes) (Json.field key (number.map Json.ofNumber) ++ fields) := by
  apply FieldsFit.field ?_ rest
  intro v hv
  obtain ⟨x, hx, rfl⟩ := Option.map_eq_some_iff.mp hv
  rw [Json.ofNumber, if_pos (finite x hx)]
  exact .number (finite x hx)

theorem FieldsFit.listField {member : Shape} {items : List Json}
    (fits : ∀ v ∈ items, Fits member v) (rest : FieldsFit shapes fields) :
    FieldsFit ((key, .list member) :: shapes) (Json.listField key items ++ fields) := by
  apply FieldsFit.field ?_ rest
  intro v hv
  cases items with
  | nil => cases hv
  | cons w items =>
    cases hv
    exact .list (List.cons_ne_nil w items) fits

/-- The fields of an object one after the other, with nothing after the last. -/
theorem Fits.object (h : FieldsFit shapes (fields ++ [])) : Fits (.record shapes) (.object fields) :=
  .record (by rwa [List.append_nil] at h)

end Json

open Json (Shape)

def MediaItem.shape : Shape :=
  .record [("albumId", .text), ("id", .text), ("mimeType", .text), ("thumbnailUrl", .text),
    ("type", .choice ["image", "audio", "video"]), ("url", .text)]

def Activity.shape : Shape :=
  .record [("body", .text), ("id", .text), ("mediaItems", .list MediaItem.shape),
    ("streamId", .text), ("streamTitle", .text), ("title", .text), ("updated", .text)]

def Message.shape : Shape :=
  .record [("body", .text), ("id", .text), ("recipients", .list .text), ("title", .text)]

def PersonName.shape : Shape :=
  .record [("familyName", .text), ("formatted", .text), ("givenName", .text)]

def Person.shape : Shape :=
  .record [("aboutMe", .text), ("birthday", .text), ("displayName", .text), ("gender", .text),
    ("id", .text), ("name", PersonName.shape), ("profileUrl", .text), ("thumbnailUrl", .text)]

def Location.shape : Shape :=
  .record [("latitude", .number), ("longitude", .number)]

def Album.shape : Shape :=
  .record [("description", .text), ("id", .text), ("location", Location.shape), ("ownerId", .text),
    ("thumbnailUrl", .text), ("title", .text)]

def EntityKind.shape : EntityKind → Shape
  | activities => Activity.shape
  | appData => .map .text
  | messages => Message.shape
  | people => Person.shape
  | albums => Album.shape
  | mediaItems => MediaItem.shape

def Location.IsFinite (location : Location) : Prop :=
  (∀ x ∈ location.latitude, x.isFinite = true) ∧ ∀ x ∈ location.longitude, x.isFinite = true

/-- Whether every number in a record is finite. -/
def Record.IsFinite : Record → Prop
  | album a => ∀ location ∈ a.location, location.IsFinite
  | activity _ | appData _ | message _ | person _ | mediaItem _ => True

theorem MediaType.name_mem (t : MediaType) : t.name ∈ ["image", "audio", "video"] := by
  cases t <;> decide

theorem MediaItem.toJson_fits (item : MediaItem) : Json.Fits shape item.toJson := by
  have htype : ∀ s ∈ item.mediaType.map MediaType.name, s ∈ ["image", "audio", "video"] := by
    intro s hs
    obtain ⟨t, -, rfl⟩ := Option.map_eq_some_iff.mp hs
    exact t.name_mem
  apply Json.Fits.object
  simp only [List.append_assoc]
  exact .textField _ (.textField _ (.textField _ (.textField _ (.choiceField htype
    (.textField _ .nil)))))

theorem Activity.toJson_fits (activity : Activity) : Json.Fits shape activity.toJson := by
  have hitems : ∀ v ∈ activity.mediaItems.map MediaItem.toJson, Json.Fits MediaItem.shape v := by
    intro v hv
    obtain ⟨item, -, rfl⟩ := List.mem_map.mp hv
    exact item.toJson_fits
  apply Json.Fits.object
  simp only [List.append_assoc]
  exact .textField _ (.textField _ (.listField hitems (.textField _ (.textField _ (.textField _
    (.textField _ .nil))))))

theorem AppData.toJson_fits (data : AppData) : Json.Fits (.map .text) data.toJson := by
  apply Json.Fits.map
  intro field hfield
  obtain ⟨⟨key, value⟩, -, rfl⟩ := List.mem_map.mp hfield
  exact .text value

theorem Message.toJson_fits (message : Message) : Json.Fits shape message.toJson := by
  have hrecipients : ∀ v ∈ message.recipients.map Json.string, Json.Fits .text v := by
    intro v hv
    obtain ⟨s, -, rfl⟩ := List.mem_map.mp hv
    exact .text s
  apply Json.Fits.object
  simp only [List.append_assoc]
  exact .textField _ (.textField _ (.listField hrecipients (.textField _ .nil)))

theorem PersonName.toJson_fits (name : PersonName) : Json.Fits shape name.toJson := by
  apply Json.Fits.object
  simp only [List.append_assoc]
  exact .textField _ (.textField _ (.textField _ .nil))

theorem Person.toJson_fits (person : Person) : Json.Fits shape person.toJson := by
  have hname : ∀ v ∈ person.name.map PersonName.toJson, Json.Fits PersonName.shape v := by
    intro v hv
    obtain ⟨name, -, rfl⟩ := Option.map_eq_some_iff.mp hv
    exact name.toJson_fits
  apply Json.Fits.object
  simp only [List.append_assoc]
  exact .textField _ (.textField _ (.textField _ (.textField _ (.textField _ (.field hname
    (.textField _ (.textField _ .nil)))))))

theorem Location.IsFinite.toJson_fits {location : Location} (h : location.IsFinite) :
    Json.Fits shape location.toJson := by
  apply Json.Fits.object
  simp only [List.append_assoc]
  exact .numberField h.1 (.numberField h.2 .nil)

theorem Album.toJson_fits {album : Album} (h : ∀ location ∈ album.location, location.IsFinite) :
    Json.Fits shape album.toJson := by
  have hlocation : ∀ v ∈ album.location.map Location.toJson, Json.Fits Location.shape v := by
    intro v hv
    obtain ⟨location, hmem, rfl⟩ := Option.map_eq_some_iff.mp hv
    exact (h location hmem).toJson_fits
  apply Json.Fits.object
  simp only [List.append_assoc]
  exact .textField _ (.textField _ (.field hlocation (.textField _ (.textField _
    (.textField _ .nil)))))

section

variable {config : Config} {kind : EntityKind}

theorem isFinite_of_finiteNumber? {text : String} {x : Binary64} (h : finiteNumber? text = some x) :
    x.isFinite = true :=
  (Option.filter_eq_some_iff.mp h).2

theorem Config.number?_finite {field : Field} {e : Element} {number : Option Binary64}
    (h : config.number? field e = .ok number) : ∀ x ∈ number, x.isFinite = true := by
  unfold number? at h
  split at h
  · cases h
    simp
  · split at h
    · rename_i y hy
      cases h
      intro x hx
      cases hx
      exact isFinite_of_finiteNumber? hy
    · cases h

theorem Location.ofElement_finite {e : Element} {location : Location}
    (h : ofElement config e = .ok location) : location.IsFinite := by
  simp only [ofElement, bind_eq_ok, pure_eq_ok] at h
  obtain ⟨latitude, hlatitude, longitude, hlongitude, rfl⟩ := h
  exact ⟨Config.number?_finite hlatitude, Config.number?_finite hlongitude⟩

theorem Album.ofElement_finite {e : Element} {album : Album} (h : ofElement config e = .ok album) :
    ∀ location ∈ album.location, location.IsFinite := by
  simp only [ofElement, bind_eq_ok, pure_eq_ok] at h
  obtain ⟨read, hread, rfl⟩ := h
  intro location hlocation
  cases hchild : config.child? "location" e with
  | none =>
    rw [hchild] at hread
    cases hread
    cases hlocation
  | some c =>
    rw [hchild, Option.mapM_some] at hread
    obtain ⟨found, hfound, rfl⟩ := map_eq_ok.mp hread
    cases hlocation
    exact Location.ofElement_finite hfound

/-- The JSON of what is read as a kind of record has the shape of that kind. -/
theorem Record.ofRoot_fits {root : Element} {record : Record}
    (h : Record.ofRoot kind config root = .ok record) :
    record.IsFinite ∧ Json.Fits kind.shape record.toJson := by
  cases kind with
  | activities =>
    obtain ⟨a, -, rfl⟩ := map_eq_ok.mp h
    exact ⟨trivial, a.toJson_fits⟩
  | appData =>
    obtain ⟨d, -, rfl⟩ := map_eq_ok.mp h
    exact ⟨trivial, d.toJson_fits⟩
  | messages =>
    obtain ⟨m, -, rfl⟩ := map_eq_ok.mp h
    exact ⟨trivial, m.toJson_fits⟩
  | people =>
    obtain ⟨p, -, rfl⟩ := map_eq_ok.mp h
    exact ⟨trivial, p.toJson_fits⟩
  | albums =>
    obtain ⟨a, ha, rfl⟩ := map_eq_ok.mp h
    have hfinite : ∀ location ∈ a.location, location.IsFinite := by
      unfold Album.ofRoot at ha
      split at ha
      · exact Album.ofElement_finite ha
      · cases ha
    exact ⟨hfinite, Album.toJson_fits hfinite⟩
  | mediaItems =>
    obtain ⟨i, -, rfl⟩ := map_eq_ok.mp h
    exact ⟨trivial, i.toJson_fits⟩

end

theorem EntityKind.fits_object {kind : EntityKind} {v : Json} (h : Json.Fits kind.shape v) :
    ∃ fields, v = .object fields := by
  cases kind <;> cases h <;> exact ⟨_, rfl⟩

/-- What a payload is converted into is an object of the shape of its kind, and without `null`. A
number that is not finite would become `null`, but none gets into a record. -/
theorem convert_fits {kind : EntityKind} {config : Config} {text : String} {json : Json}
    (h : convert kind config text = .ok json) :
    (∃ fields, json = .object fields) ∧ json.holdsNull = false ∧ Json.Fits kind.shape json ∧
      ∃ record : Record, Record.ofText kind config text = .ok record ∧ record.IsFinite ∧
        record.toJson = json := by
  obtain ⟨record, hrecord, hjson⟩ := map_eq_ok.mp h
  have hread : record.IsFinite ∧ Json.Fits kind.shape record.toJson := by
    unfold Record.ofText at hrecord
    split at hrecord
    · exact Record.ofRoot_fits hrecord
    · cases hrecord
  obtain ⟨hfinite, hfits⟩ := hread
  rw [hjson] at hfits
  exact ⟨EntityKind.fits_object hfits, hfits.holdsNull, hfits, record, hrecord, hfinite, hjson⟩

theorem convert_fits_album :
    convert .albums {} "<album><id/><location><latitude> 1e308 </latitude></location></album>" =
        .ok (.object [("id", .string ""),
          ("location", .object [("latitude", .number ⟨9214871658872686752⟩)])]) ∧
      Json.Fits Album.shape (.object [("id", .string ""),
        ("location", .object [("latitude", .number ⟨9214871658872686752⟩)])]) := by
  let text := "<album><id/><location><latitude> 1e308 </latitude></location></album>"
  let location : Location := { latitude := some ⟨9214871658872686752⟩ }
  let album : Album := { id := some "", location := some location }
  have hread : (Record.ofText .albums {} text).toOption = some (.album album) := by decide +kernel
  have hconvert : convert .albums {} text = .ok album.toJson := by
    rw [convert]
    cases h : Record.ofText .albums {} text with
    | error error =>
      rw [h] at hread
      cases hread
    | ok record =>
      rw [h] at hread
      cases hread
      rfl
  exact ⟨hconvert, (convert_fits hconvert).2.2.1⟩

end SocialPayload
