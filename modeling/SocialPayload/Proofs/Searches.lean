import SocialPayload.Convert
import SocialPayload.Proofs.ElementTree

namespace SocialPayload

open Xml (Element bind_eq_ok pure_eq_ok)

/-- A member of a list that has a property which none before it has. -/
def IsFirst {α : Type} (p : α → Prop) (l : List α) (a : α) : Prop :=
  ∃ before after, l = before ++ a :: after ∧ p a ∧ ∀ b ∈ before, ¬ p b

namespace IsFirst

variable {α β ε : Type} {p q : α → Prop} {l : List α} {a : α}

theorem mem (h : IsFirst p l a) : a ∈ l := by
  obtain ⟨before, after, rfl, -⟩ := h
  simp

theorem nil_iff : IsFirst p [] a ↔ False := by
  constructor
  · intro h
    obtain ⟨before, after, hl, -⟩ := h
    cases before <;> cases hl
  · exact False.elim

theorem cons_iff {b : α} : IsFirst p (b :: l) a ↔ (a = b ∧ p b) ∨ (¬ p b ∧ IsFirst p l a) := by
  constructor
  · intro h
    obtain ⟨before, after, hl, ha, hbefore⟩ := h
    cases before with
    | nil =>
      obtain ⟨rfl, -⟩ := List.cons.inj hl
      exact .inl ⟨rfl, ha⟩
    | cons c before =>
      obtain ⟨rfl, hrest⟩ := List.cons.inj hl
      exact .inr ⟨hbefore b List.mem_cons_self, before, after, hrest, ha,
        fun c hc => hbefore c (List.mem_cons_of_mem _ hc)⟩
  · intro h
    rcases h with ⟨rfl, ha⟩ | ⟨hb, before, after, rfl, ha, hbefore⟩
    · exact ⟨[], l, rfl, ha, by simp⟩
    · refine ⟨b :: before, after, rfl, ha, ?_⟩
      intro c hc
      rcases List.mem_cons.mp hc with rfl | hc
      · exact hb
      · exact hbefore c hc

theorem find?_iff {p : α → Bool} : l.find? p = some a ↔ IsFirst (p · = true) l a := by
  rw [List.find?_eq_some_iff_append]
  constructor
  · intro h
    obtain ⟨ha, before, after, hl, hbefore⟩ := h
    exact ⟨before, after, hl, ha, fun b hb => by simpa using hbefore b hb⟩
  · intro h
    obtain ⟨before, after, hl, ha, hbefore⟩ := h
    exact ⟨ha, before, after, hl, fun b hb => by simpa using hbefore b hb⟩

theorem filter_iff {test : α → Bool} :
    IsFirst p (l.filter test) a ↔ IsFirst (fun b => test b = true ∧ p b) l a := by
  induction l with
  | nil => simp only [List.filter_nil, nil_iff]
  | cons b l ih =>
    rw [cons_iff, List.filter_cons]
    cases htest : test b with
    | false => simpa using ih
    | true => simp [cons_iff, ih]

/-- A list is mapped up to the first member that fails. -/
theorem mapM_eq_error {f : α → Except ε β} {e : ε} :
    l.mapM f = .error e ↔ ∃ a, IsFirst (fun b => ∃ e, f b = .error e) l a ∧ f a = .error e := by
  induction l with
  | nil => simp [nil_iff, pure, Except.pure]
  | cons b l ih =>
    rw [List.mapM_cons]
    cases hb : f b with
    | error e' =>
      simp only [bind, Except.bind, cons_iff, hb]
      simp [hb]
    | ok y =>
      simp only [bind, Except.bind, cons_iff, hb]
      cases hl : l.mapM f with
      | error e' => simp [← ih, hl]
      | ok ys => simp [← ih, hl, pure, Except.pure]

end IsFirst

/-- A list is mapped when each member is, and then each result stands in the place of its member. -/
theorem mapM_eq_ok {α β ε : Type} {f : α → Except ε β} {as : List α} {bs : List β} :
    as.mapM f = .ok bs ↔ as.map f = bs.map .ok := by
  induction as generalizing bs with
  | nil => cases bs <;> simp [pure_eq_ok]
  | cons a as ih =>
    have hcons : (a :: as).mapM f = .ok bs ↔
        ∃ b, f a = .ok b ∧ ∃ rest, as.map f = rest.map .ok ∧ b :: rest = bs := by
      simp only [List.mapM_cons, bind_eq_ok, pure_eq_ok, ih]
    rw [hcons]
    cases bs <;> simp

theorem exists_mapM_eq_ok {α β ε : Type} {f : α → Except ε β} {as : List α} :
    (∃ bs, as.mapM f = .ok bs) ↔ ∀ a ∈ as, ∃ b, f a = .ok b := by
  constructor
  · intro h a ha
    obtain ⟨bs, hbs⟩ := h
    have hmem : f a ∈ bs.map .ok := mapM_eq_ok.mp hbs ▸ List.mem_map_of_mem ha
    obtain ⟨b, -, hb⟩ := List.mem_map.mp hmem
    exact ⟨b, hb.symm⟩
  · intro h
    cases hmap : as.mapM f with
    | ok bs => exact ⟨bs, rfl⟩
    | error e =>
      obtain ⟨a, hfirst, ha⟩ := IsFirst.mapM_eq_error.mp hmap
      obtain ⟨b, hb⟩ := h a hfirst.mem
      rw [ha] at hb
      cases hb

theorem exists_mapM_eq_error {α β ε : Type} {f : α → Except ε β} {as : List α} :
    (∃ error, as.mapM f = .error error) ↔ ∃ a ∈ as, ∃ error, f a = .error error := by
  constructor
  · intro h
    obtain ⟨error, hmap⟩ := h
    obtain ⟨a, hfirst, ha⟩ := IsFirst.mapM_eq_error.mp hmap
    exact ⟨a, hfirst.mem, error, ha⟩
  · intro h
    obtain ⟨a, ha, error, herror⟩ := h
    cases hmap : as.mapM f with
    | error error => exact ⟨error, rfl⟩
    | ok bs =>
      obtain ⟨b, hb⟩ := exists_mapM_eq_ok.mp ⟨bs, hmap⟩ a ha
      rw [herror] at hb
      cases hb

namespace Config

variable {config : Config}

theorem isNamed_congr {e e' : Element} (h : e'.name = e.name) (vocabulary : Vocabulary)
    (name : String) : config.isNamed vocabulary name e' = config.isNamed vocabulary name e := by
  rw [isNamed, isNamed, h]

/-- The first child with an OpenSocial name. -/
def FirstChild (config : Config) (name : String) (parent child : Element) : Prop :=
  IsFirst (config.isNamed .openSocial name · = true) parent.children child

/-- The first element, in the order of start tags and with the root among them, that has one of some
OpenSocial names. -/
def FirstEntity (config : Config) (names : List String) (root e : Element) : Prop :=
  IsFirst (config.isEntity names · = true) root.elements e

theorem child?_eq_some {name : String} {e c : Element} :
    config.child? name e = some c ↔ config.FirstChild name e c :=
  IsFirst.find?_iff

theorem entity?_eq_some {names : List String} {root e : Element} :
    config.entity? names root = some e ↔ config.FirstEntity names root e :=
  IsFirst.find?_iff

theorem entity?_root {names : List String} {e : Element} (h : config.isEntity names e = true) :
    config.entity? names e = some e := by
  rw [entity?, Element.elements_eq, List.find?_cons, h]

/-- An entity that is not the element itself is the first one that is found in a child. -/
theorem entity?_children {names : List String} {e : Element} (h : config.isEntity names e = false) :
    config.entity? names e = e.children.findSome? (config.entity? names) := by
  rw [entity?, Element.elements_eq, List.find?_cons, h, List.find?_flatMap]
  rfl

theorem text?_eq_some {name text : String} {e : Element} :
    config.text? name e = some text ↔ ∃ c, config.FirstChild name e c ∧ c.text = text := by
  simp only [text?, Option.map_eq_some_iff, child?_eq_some]

theorem text?_eq_none {name : String} {e : Element} :
    config.text? name e = none ↔ ∀ c ∈ e.children, ¬ config.isNamed .openSocial name c = true := by
  rw [text?, Option.map_eq_none_iff, child?, List.find?_eq_none]

theorem value?_eq_some {name text : String} {e : Element} :
    config.value? name e = some text ↔
      (∃ c, config.FirstChild name e c ∧ c.text = text) ∧ Text.isBlank text = false := by
  rw [value?, Option.filter_eq_some_iff, text?_eq_some]
  simp

/-- What is made of a text where white space alone is as good as no text. -/
def readValue {β : Type} (read : String → Except ConversionError β) (text : String) :
    Except ConversionError (Option β) :=
  if Text.isBlank text then .ok none else (read text).map some

section Values

variable {β : Type} {read : String → Except ConversionError β} {text : String}

theorem readValue_outcome (hread : ∀ b, read text = .ok b → Text.isBlank text = false) :
    (readValue read text = .ok none ↔ Text.isBlank text = true) ∧
    (∀ b, readValue read text = .ok (some b) ↔ read text = .ok b) ∧
    ∀ error, readValue read text = .error error ↔
      Text.isBlank text = false ∧ read text = .error error := by
  rw [readValue]
  cases hblank : Text.isBlank text with
  | true =>
    have hfails : ∀ b, read text ≠ .ok b := by
      intro b hb
      rw [hread b hb] at hblank
      cases hblank
    simp [hfails]
  | false => cases read text <;> simp [Except.map]

theorem readValue_congr {text' : String} (hblank : Text.isBlank text' = Text.isBlank text)
    (hread : Text.isBlank text = false → read text' = read text) :
    readValue read text' = readValue read text := by
  rw [readValue, readValue, hblank]
  cases h : Text.isBlank text with
  | true => rfl
  | false => rw [hread h]

end Values

theorem mapM_value? {β : Type} (read : String → Except ConversionError β) (name : String)
    (e : Element) : (config.value? name e).mapM read =
      ((config.child? name e).map fun c => readValue read c.text).getD (.ok none) := by
  rw [value?, text?]
  cases config.child? name e with
  | none => rfl
  | some c =>
    simp only [Option.map_some, Option.getD_some, readValue, Option.filter_some]
    cases Text.isBlank c.text <;> rfl

theorem mapM_value?_of_first {β : Type} {read : String → Except ConversionError β} {name : String}
    {e c : Element} (h : config.FirstChild name e c) :
    (config.value? name e).mapM read = readValue read c.text := by
  rw [mapM_value?, child?_eq_some.mpr h]
  rfl

end Config

/-- The names of the element that a kind of record is read from, wherever it is. Application data
and messages are read from the root. -/
def EntityKind.names : EntityKind → List String
  | activities => ["activity"]
  | people => ["person"]
  | albums => ["album"]
  | mediaItems => MediaItem.elementNames
  | appData | messages => []

def Config.readEntity {α : Type} (config : Config) (kind : EntityKind) (root : Element)
    (read : Element → Except ConversionError α) : Except ConversionError α :=
  match config.entity? kind.names root with
  | some e => read e
  | none => .error (.missingElement kind)

variable {config : Config} {root : Element}

theorem Config.readEntity_root {α : Type} {kind : EntityKind}
    (h : config.isEntity kind.names root = true) (read : Element → Except ConversionError α) :
    config.readEntity kind root read = read root := by
  rw [readEntity, entity?_root h]

theorem Config.readEntity_first {α : Type} {kind : EntityKind} {e : Element}
    (h : config.FirstEntity kind.names root e) (read : Element → Except ConversionError α) :
    config.readEntity kind root read = read e := by
  rw [readEntity, entity?_eq_some.mpr h]

theorem Config.readEntity_congr {α : Type} {kind : EntityKind} {root' : Element}
    (h : config.entity? kind.names root = config.entity? kind.names root')
    (read : Element → Except ConversionError α) :
    config.readEntity kind root read = config.readEntity kind root' read := by
  rw [readEntity, readEntity, h]

theorem Config.readEntity_eq_error {α : Type} {kind : EntityKind}
    {read : Element → Except ConversionError α} {error : ConversionError} :
    config.readEntity kind root read = .error error ↔
      ((∀ e ∈ root.elements, ¬ config.isEntity kind.names e = true) ∧
        error = .missingElement kind) ∨
      ∃ e, config.FirstEntity kind.names root e ∧ read e = .error error := by
  simp only [← entity?_eq_some, readEntity]
  cases hfind : config.entity? kind.names root with
  | none =>
    have hnone := List.find?_eq_none.mp hfind
    constructor
    · intro h
      exact .inl ⟨hnone, (Except.error.inj h).symm⟩
    · intro h
      rcases h with ⟨-, rfl⟩ | ⟨e, he, -⟩
      · rfl
      · cases he
  | some e =>
    have hmem := List.mem_of_find?_eq_some hfind
    have hentity := List.find?_some hfind
    constructor
    · intro h
      exact .inr ⟨e, rfl, h⟩
    · intro h
      rcases h with ⟨hnone, -⟩ | ⟨e', he', h⟩
      · exact absurd hentity (hnone e hmem)
      · cases he'
        exact h

theorem Config.readEntity_eq_ok {α : Type} {kind : EntityKind}
    {read : Element → Except ConversionError α} {a : α}
    (h : config.readEntity kind root read = .ok a) : ∃ e ∈ root.elements, read e = .ok a := by
  unfold readEntity at h
  split at h
  · rename_i e he
    exact ⟨e, (entity?_eq_some.mp he).mem, h⟩
  · cases h

/-- An activity, given the element that it is read from and the envelope around it. -/
def Activity.ofElement (config : Config) (root activity : Element) :
    Except ConversionError Activity :=
  let field := envelopeText? config root activity
  (itemsOf config activity).map fun mediaItems => {
    id := field "id"
    title := field "title"
    body := field "summary"
    streamId := field "streamId"
    streamTitle := field "streamTitle"
    updated := field "updated"
    mediaItems }

theorem Activity.ofRoot_eq : Activity.ofRoot config root =
    config.readEntity .activities root (Activity.ofElement config root) := by
  rw [Activity.ofRoot, Config.readEntity, EntityKind.names]
  cases config.entity? ["activity"] root with
  | none => rfl
  | some activity =>
    simp only [Activity.ofElement]
    cases Activity.itemsOf config activity <;> rfl

theorem Person.ofRoot_eq : Person.ofRoot config root =
    config.readEntity .people root fun e => .ok (Person.ofElement config e) := by
  rfl

theorem Album.ofRoot_eq : Album.ofRoot config root =
    config.readEntity .albums root (Album.ofElement config) := by
  rfl

theorem MediaItem.ofRoot_eq : MediaItem.ofRoot config root =
    config.readEntity .mediaItems root (MediaItem.ofElement config) := by
  rfl

theorem Message.eq_of_ofRoot {message : Message}
    (h : Message.ofRoot config root = .ok message) :
    message = ⟨config.text? "id" root, config.text? "title" root, config.text? "body" root,
      recipientsOf config root⟩ := by
  simp only [ofRoot] at h
  split at h
  · cases h
  · exact (Except.ok.inj h).symm

end SocialPayload
