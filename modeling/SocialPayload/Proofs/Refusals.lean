import SocialPayload.Proofs.FieldTexts
import SocialPayload.Proofs.Searches

namespace SocialPayload

open Xml (Element)

/-- An element whose first child for a field has a text that the field may not have. -/
def Config.Spoils (config : Config) (field : Field) (text : String) (e : Element) : Prop :=
  (∃ child, config.FirstChild field.name e child ∧ child.text = text) ∧ field.Excludes text

/-- Why a document has no record of a kind, by its root. -/
inductive Refusal (config : Config) (root : Element) : EntityKind → ConversionError → Prop
  | noEntity {kind : EntityKind} (searched : kind ≠ .appData ∧ kind ≠ .messages)
      (none : ∀ e ∈ root.elements, ¬ config.isEntity kind.names e = true) :
      Refusal config root kind (.missingElement kind)
  | noEntry (other : ¬ config.isNamed .openSocial "entry" root = true)
      (none : ∀ e ∈ root.children, ¬ config.isNamed .openSocial "entry" e = true) :
      Refusal config root .appData (.missingElement .appData)
  | noField
      (none : ∀ e ∈ root.children, ∀ name ∈ ["id", "title", "body"],
        ¬ config.isNamed .openSocial name e = true)
      (noRecipient : ∀ e ∈ root.elements, ¬ config.isNamed .osapi "recipient" e = true) :
      Refusal config root .messages (.missingElement .messages)
  | latitude {album location : Element} {text : String}
      (first : config.FirstEntity EntityKind.albums.names root album)
      (place : config.FirstChild "location" album location)
      (spoils : config.Spoils .latitude text location) :
      Refusal config root .albums (.invalidValue .latitude text)
  | longitude {album location : Element} {text : String}
      (first : config.FirstEntity EntityKind.albums.names root album)
      (place : config.FirstChild "location" album location)
      (latitude : ∀ text, ¬ config.Spoils .latitude text location)
      (spoils : config.Spoils .longitude text location) :
      Refusal config root .albums (.invalidValue .longitude text)
  | type {item : Element} {text : String}
      (first : config.FirstEntity EntityKind.mediaItems.names root item)
      (spoils : config.Spoils .type text item) :
      Refusal config root .mediaItems (.invalidValue .type text)
  | item {activity list item : Element} {text : String}
      (first : config.FirstEntity EntityKind.activities.names root activity)
      (items : config.FirstChild "mediaItems" activity list)
      (firstSpoilt : IsFirst (fun e => config.isEntity MediaItem.elementNames e = true ∧
        ∃ text, config.Spoils .type text e) list.children item)
      (spoils : config.Spoils .type text item) :
      Refusal config root .activities (.invalidValue .type text)

variable {config : Config}

theorem Config.number?_eq_error {field : Field} (hfield : field ≠ .type) {e : Element}
    {error : ConversionError} : config.number? field e = .error error ↔
      ∃ text, config.Spoils field text e ∧ error = .invalidValue field text := by
  have hexcludes : ∀ text, field.Excludes text ↔
      Text.isBlank text = false ∧ finiteNumber? text = none := by
    intro text
    rw [finiteNumber?_eq_none]
    cases field with
    | latitude | longitude => rfl
    | type => exact absurd rfl hfield
  have hspoils : ∀ text, config.Spoils field text e ↔
      config.value? field.name e = some text ∧ finiteNumber? text = none := by
    intro text
    rw [Config.Spoils, hexcludes, Config.value?_eq_some, and_assoc]
  simp only [hspoils, Config.number?, and_assoc]
  cases config.value? field.name e with
  | none => simp
  | some text =>
    simp only [Option.some.injEq, exists_eq_left']
    cases finiteNumber? text <;> simp [eq_comm]

theorem Location.ofElement_eq_error {e : Element} {error : ConversionError} :
    Location.ofElement config e = .error error ↔
      (∃ text, config.Spoils .latitude text e ∧ error = .invalidValue .latitude text) ∨
      (∀ text, ¬ config.Spoils .latitude text e) ∧
        ∃ text, config.Spoils .longitude text e ∧ error = .invalidValue .longitude text := by
  have hlatitude := @Config.number?_eq_error config .latitude (by decide) e
  have hlongitude := @Config.number?_eq_error config .longitude (by decide) e
  rw [← hlatitude, ← hlongitude, Location.ofElement]
  cases hfirst : config.number? .latitude e with
  | error error' =>
    obtain ⟨text, hspoils, -⟩ := hlatitude.mp hfirst
    have hsome : ¬ ∀ text, ¬ config.Spoils .latitude text e := fun h => h text hspoils
    simp [bind, Except.bind, hsome]
  | ok latitude =>
    have hnone : ∀ text, ¬ config.Spoils .latitude text e := by
      intro text hspoils
      have herror := hlatitude.mpr ⟨text, hspoils, rfl⟩
      rw [hfirst] at herror
      cases herror
    cases config.number? .longitude e <;> simp [bind, Except.bind, pure, Except.pure, hnone]

theorem Album.ofElement_eq_error {e : Element} {error : ConversionError} :
    Album.ofElement config e = .error error ↔
      ∃ location, config.FirstChild "location" e location ∧
        Location.ofElement config location = .error error := by
  simp only [← Config.child?_eq_some, Album.ofElement]
  cases config.child? "location" e with
  | none => simp [bind, Except.bind, pure, Except.pure]
  | some location =>
    cases hlocation : Location.ofElement config location <;>
      simp [bind, Except.bind, pure, Except.pure, hlocation, Functor.map, Except.map]

theorem MediaItem.ofElement_eq_error {e : Element} {error : ConversionError} :
    MediaItem.ofElement config e = .error error ↔
      ∃ text, config.Spoils .type text e ∧ error = .invalidValue .type text := by
  have hspoils : ∀ text, config.Spoils .type text e ↔
      config.value? "type" e = some text ∧ ∀ t : MediaType, ¬ t.IsNamedBy text := by
    intro text
    rw [Config.value?_eq_some, and_assoc]
    rfl
  simp only [hspoils, MediaItem.ofElement, and_assoc]
  cases config.value? "type" e with
  | none => simp [bind, Except.bind, pure, Except.pure]
  | some text =>
    simp only [Option.some.injEq, exists_eq_left', ← MediaType.parse_eq_error_iff]
    cases ht : MediaType.parse text <;>
      simp [bind, Except.bind, pure, Except.pure, ht, Functor.map, Except.map]

theorem Activity.itemsOf_eq_error {e : Element} {error : ConversionError} :
    Activity.itemsOf config e = .error error ↔
      ∃ list, config.FirstChild "mediaItems" e list ∧
        ∃ item, IsFirst (fun e => config.isEntity MediaItem.elementNames e = true ∧
          ∃ text, config.Spoils .type text e) list.children item ∧
        ∃ text, config.Spoils .type text item ∧ error = .invalidValue .type text := by
  have hfails : ∀ item, (∃ error, MediaItem.ofElement config item = .error error) ↔
      ∃ text, config.Spoils .type text item := by
    intro item
    simp only [MediaItem.ofElement_eq_error]
    constructor
    · intro h
      obtain ⟨error, text, hspoils, -⟩ := h
      exact ⟨text, hspoils⟩
    · intro h
      obtain ⟨text, hspoils⟩ := h
      exact ⟨_, text, hspoils, rfl⟩
  simp only [← Config.child?_eq_some, Activity.itemsOf]
  cases config.child? "mediaItems" e with
  | none => simp
  | some list =>
    simp only [IsFirst.mapM_eq_error, IsFirst.filter_iff, hfails, Option.some.injEq, exists_eq_left']
    simp only [MediaItem.ofElement_eq_error]

variable {root : Element} {error : ConversionError}

theorem map_eq_error {α β : Type} {result : Except ConversionError α} {f : α → β} :
    result.map f = .error error ↔ result = .error error := by
  cases result <;> simp [Except.map]

theorem Activity.ofRoot_eq_error :
    Activity.ofRoot config root = .error error ↔ Refusal config root .activities error := by
  rw [Activity.ofRoot_eq, Config.readEntity_eq_error]
  simp only [Activity.ofElement, map_eq_error, Activity.itemsOf_eq_error]
  constructor
  · intro h
    rcases h with ⟨hnone, rfl⟩ | ⟨activity, hfirst, list, hlist, item, hitem, text, hspoils, rfl⟩
    · exact .noEntity (by decide) hnone
    · exact .item hfirst hlist hitem hspoils
  · intro h
    cases h with
    | noEntity searched none => exact .inl ⟨none, rfl⟩
    | item first items firstSpoilt spoils =>
      exact .inr ⟨_, first, _, items, _, firstSpoilt, _, spoils, rfl⟩

theorem Person.ofRoot_eq_error :
    Person.ofRoot config root = .error error ↔ Refusal config root .people error := by
  rw [Person.ofRoot_eq, Config.readEntity_eq_error]
  constructor
  · intro h
    rcases h with ⟨hnone, rfl⟩ | ⟨e, -, he⟩
    · exact .noEntity (by decide) hnone
    · cases he
  · intro h
    cases h with
    | noEntity searched none => exact .inl ⟨none, rfl⟩

theorem Album.ofRoot_eq_error :
    Album.ofRoot config root = .error error ↔ Refusal config root .albums error := by
  rw [Album.ofRoot_eq, Config.readEntity_eq_error]
  simp only [Album.ofElement_eq_error, Location.ofElement_eq_error]
  constructor
  · intro h
    rcases h with ⟨hnone, rfl⟩ | ⟨e, hfirst, location, hlocation, hspoils⟩
    · exact .noEntity (by decide) hnone
    · rcases hspoils with ⟨text, hspoils, rfl⟩ | ⟨hlatitude, text, hspoils, rfl⟩
      · exact .latitude hfirst hlocation hspoils
      · exact .longitude hfirst hlocation hlatitude hspoils
  · intro h
    cases h with
    | noEntity searched none => exact .inl ⟨none, rfl⟩
    | latitude first place spoils =>
      exact .inr ⟨_, first, _, place, .inl ⟨_, spoils, rfl⟩⟩
    | longitude first place latitude spoils =>
      exact .inr ⟨_, first, _, place, .inr ⟨latitude, _, spoils, rfl⟩⟩

theorem MediaItem.ofRoot_eq_error :
    MediaItem.ofRoot config root = .error error ↔ Refusal config root .mediaItems error := by
  rw [MediaItem.ofRoot_eq, Config.readEntity_eq_error]
  simp only [MediaItem.ofElement_eq_error]
  constructor
  · intro h
    rcases h with ⟨hnone, rfl⟩ | ⟨item, hfirst, text, hspoils, rfl⟩
    · exact .noEntity (by decide) hnone
    · exact .type hfirst hspoils
  · intro h
    cases h with
    | noEntity searched none => exact .inl ⟨none, rfl⟩
    | type first spoils => exact .inr ⟨_, first, _, spoils, rfl⟩

theorem AppData.entryElements_eq_nil : AppData.entryElements config root = [] ↔
    ¬ config.isNamed .openSocial "entry" root = true ∧
      ∀ e ∈ root.children, ¬ config.isNamed .openSocial "entry" e = true := by
  rw [AppData.entryElements]
  cases config.isNamed .openSocial "entry" root <;> simp

theorem AppData.ofRoot_eq_error :
    AppData.ofRoot config root = .error error ↔ Refusal config root .appData error := by
  have hofRoot : AppData.ofRoot config root = .error error ↔
      AppData.entryElements config root = [] ∧ error = .missingElement .appData := by
    rw [AppData.ofRoot]
    cases AppData.entryElements config root <;> simp [eq_comm]
  rw [hofRoot, AppData.entryElements_eq_nil]
  constructor
  · intro h
    obtain ⟨⟨hroot, hnone⟩, rfl⟩ := h
    exact .noEntry hroot hnone
  · intro h
    cases h with
    | noEntity searched none => exact absurd rfl searched.1
    | noEntry other none => exact ⟨⟨other, none⟩, rfl⟩

theorem Message.recipientsOf_eq_nil : Message.recipientsOf config root = [] ↔
    ∀ e ∈ root.elements, ¬ config.isNamed .osapi "recipient" e = true := by
  simp [Message.recipientsOf]

theorem Message.ofRoot_eq_error :
    Message.ofRoot config root = .error error ↔ Refusal config root .messages error := by
  have hfields : (∀ e ∈ root.children, ∀ name ∈ ["id", "title", "body"],
      ¬ config.isNamed .openSocial name e = true) ↔
      config.text? "id" root = none ∧ config.text? "title" root = none ∧
        config.text? "body" root = none := by
    simp [Config.text?_eq_none, forall_and]
  have hofRoot : Message.ofRoot config root = .error error ↔
      ((config.text? "id" root = none ∧ config.text? "title" root = none ∧
        config.text? "body" root = none) ∧ Message.recipientsOf config root = []) ∧
        error = .missingElement .messages := by
    simp only [Message.ofRoot, Message.mk.injEq, and_assoc]
    split
    · rename_i hnone
      simp [hnone, eq_comm]
    · rename_i hsome
      simp only [reduceCtorEq, false_iff]
      intro h
      exact hsome ⟨h.1, h.2.1, h.2.2.1, h.2.2.2.1⟩
  rw [hofRoot, ← hfields, Message.recipientsOf_eq_nil]
  constructor
  · intro h
    obtain ⟨⟨hnone, hrecipient⟩, rfl⟩ := h
    exact .noField hnone hrecipient
  · intro h
    cases h with
    | noEntity searched none => exact absurd rfl searched.2
    | noField none noRecipient => exact ⟨⟨none, noRecipient⟩, rfl⟩

theorem Record.ofRoot_eq_error {kind : EntityKind} :
    Record.ofRoot kind config root = .error error ↔ Refusal config root kind error := by
  cases kind with
  | activities => exact map_eq_error.trans Activity.ofRoot_eq_error
  | appData => exact map_eq_error.trans AppData.ofRoot_eq_error
  | messages => exact map_eq_error.trans Message.ofRoot_eq_error
  | people => exact map_eq_error.trans Person.ofRoot_eq_error
  | albums => exact map_eq_error.trans Album.ofRoot_eq_error
  | mediaItems => exact map_eq_error.trans MediaItem.ofRoot_eq_error

/-- A text that is no document is refused for that alone, whatever is looked for in it. A document
gives a record unless there is a reason that it has none, and is refused for that reason. -/
theorem Record.ofText_outcome (text : String) :
    match Xml.Document.parse text with
    | .error fault => ∀ kind config, Record.ofText kind config text = .error (.invalidXml fault)
    | .ok document => ∀ kind config,
      (∀ fault, Record.ofText kind config text ≠ .error (.invalidXml fault)) ∧
      (∀ error, Record.ofText kind config text = .error error ↔
        Refusal config document.root kind error) ∧
      ((∃ record, Record.ofText kind config text = .ok record) ↔
        ∀ error, ¬ Refusal config document.root kind error) := by
  cases hparse : Xml.Document.parse text with
  | error fault =>
    intro kind config
    rw [Record.ofText, hparse]
  | ok document =>
    intro kind config
    have hroot : Record.ofText kind config text = Record.ofRoot kind config document.root := by
      rw [Record.ofText, hparse]
    rw [hroot]
    refine ⟨?_, fun error => Record.ofRoot_eq_error, ?_⟩
    · intro fault h
      cases Record.ofRoot_eq_error.mp h
    · simp only [← Record.ofRoot_eq_error]
      cases Record.ofRoot kind config document.root <;> simp

end SocialPayload
