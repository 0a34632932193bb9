import SocialPayload.Proofs.ItemLists
import SocialPayload.Proofs.Locality

namespace SocialPayload

open Xml (Element Node)

/-- A list made up of two others, each in its own order. -/
inductive Interleaved {α : Type} : List α → List α → List α → Prop
  | nil : Interleaved [] [] []
  | left (a : α) {as bs cs : List α} : Interleaved as bs cs → Interleaved (a :: as) bs (a :: cs)
  | right (b : α) {as bs cs : List α} : Interleaved as bs cs → Interleaved as (b :: bs) (b :: cs)

namespace Interleaved

variable {α β : Type} {as bs cs : List α}

theorem swap (h : Interleaved as bs cs) : Interleaved bs as cs := by
  induction h with
  | nil => exact .nil
  | left a _ ih => exact .right a ih
  | right b _ ih => exact .left b ih

theorem findSome?_left (h : Interleaved as bs cs) {f : α → Option β} (hf : ∀ b ∈ bs, f b = none) :
    cs.findSome? f = as.findSome? f := by
  induction h with
  | nil => rfl
  | left a _ ih => rw [List.findSome?_cons, List.findSome?_cons, ih hf]
  | right b _ ih =>
    obtain ⟨hb, hbs⟩ := List.forall_mem_cons.mp hf
    rw [List.findSome?_cons, hb]
    exact ih hbs

theorem find?_left (h : Interleaved as bs cs) {p : α → Bool} (hp : ∀ b ∈ bs, ¬ p b = true) :
    cs.find? p = as.find? p := by
  rw [List.find?_eq_findSome?_guard, List.find?_eq_findSome?_guard]
  apply h.findSome?_left
  intro b hb
  simpa using hp b hb

theorem find?_right (h : Interleaved as bs cs) {p : α → Bool} (hp : ∀ a ∈ as, ¬ p a = true) :
    cs.find? p = bs.find? p :=
  h.swap.find?_left hp

end Interleaved

/-- What is looked for is found in any order where only one member is it. -/
theorem find?_perm {α : Type} {p : α → Bool} {l l' : List α} (h : l.Perm l')
    (hone : l'.countP p = 1) : l.find? p = l'.find? p := by
  rw [List.countP_eq_length_filter] at hone
  obtain ⟨a, ha⟩ := List.length_eq_one_iff.mp hone
  have hl := h.filter p
  rw [ha, List.perm_singleton] at hl
  rw [← List.head?_filter, ← List.head?_filter, hl, ha]

variable {config : Config}

namespace Config

theorem isEntity_congr {names : List String} {e e' : Element} (h : e'.name = e.name) :
    config.isEntity names e' = config.isEntity names e := by
  simp only [isEntity, isNamed_congr h]

theorem isEntity_of_isNamed {names : List String} {name : String} (hname : name ∈ names)
    {e : Element} (h : config.isNamed .openSocial name e = true) :
    config.isEntity names e = true :=
  List.any_eq_true.mpr ⟨name, hname, h⟩

/-- Whether an element directly inside has a name. -/
def Has (config : Config) (name : String) (e : Element) : Prop :=
  ∃ c ∈ e.children, config.isNamed .openSocial name c = true

theorem text?_eq_none_iff {name : String} {e : Element} :
    config.text? name e = none ↔ ¬ config.Has name e := by
  simp [text?_eq_none, Has]

theorem entity?_eq_none {names : List String} {e : Element}
    (h : ∀ d ∈ e.elements, config.isEntity names d = false) : config.entity? names e = none := by
  apply List.find?_eq_none.mpr
  intro d hd
  simp [h d hd]

end Config

namespace Activity

variable {root activity : Element}

/-- The text fields, each with its name in a document. -/
def fields (record : Activity) : List (String × Option String) :=
  [("id", record.id), ("title", record.title), ("summary", record.body),
    ("streamId", record.streamId), ("streamTitle", record.streamTitle), ("updated", record.updated)]

/-- The text that an activity has for a field. The activity comes before the root, even when it has
an empty text. -/
inductive FieldText (config : Config) (root activity : Element) (name : String) :
    Option String → Prop
  | own {c : Element} (first : config.FirstChild name activity c) :
      FieldText config root activity name (some c.text)
  | envelope {c : Element} (lacking : ¬ config.Has name activity)
      (first : config.FirstChild name root c) : FieldText config root activity name (some c.text)
  | absent (lacking : ¬ config.Has name activity) (lackingRoot : ¬ config.Has name root) :
      FieldText config root activity name none

theorem envelopeText?_eq_iff {name : String} {value : Option String} :
    envelopeText? config root activity name = value ↔
      FieldText config root activity name value := by
  constructor
  · rintro rfl
    rw [envelopeText?]
    cases hown : config.text? name activity with
    | some text =>
      obtain ⟨c, hfirst, rfl⟩ := Config.text?_eq_some.mp hown
      exact .own hfirst
    | none =>
      have hlacking := Config.text?_eq_none_iff.mp hown
      cases hroot : config.text? name root with
      | some text =>
        obtain ⟨c, hfirst, rfl⟩ := Config.text?_eq_some.mp hroot
        exact .envelope hlacking hfirst
      | none => exact .absent hlacking (Config.text?_eq_none_iff.mp hroot)
  · intro h
    rw [envelopeText?]
    cases h with
    | own first =>
      rw [Config.text?_eq_some.mpr ⟨_, first, rfl⟩]
      rfl
    | envelope lacking first =>
      rw [Config.text?_eq_none_iff.mpr lacking, Config.text?_eq_some.mpr ⟨_, first, rfl⟩]
      rfl
    | absent lacking lackingRoot =>
      rw [Config.text?_eq_none_iff.mpr lacking, Config.text?_eq_none_iff.mpr lackingRoot]
      rfl

theorem ofRoot_eq_ok_iff (h : config.FirstEntity EntityKind.activities.names root activity)
    {record : Activity} : ofRoot config root = .ok record ↔
      itemsOf config activity = .ok record.mediaItems ∧
        ∀ field ∈ record.fields, FieldText config root activity field.1 field.2 := by
  simp only [← envelopeText?_eq_iff]
  rw [ofRoot_eq, Config.readEntity_first h, ofElement]
  cases itemsOf config activity with
  | error error => simp [Except.map]
  | ok items =>
    obtain ⟨⟩ := record
    simp [Except.map, fields]
    tauto

theorem ofRoot_congr_fields {root' activity' : Element}
    (h : config.FirstEntity EntityKind.activities.names root activity)
    (h' : config.FirstEntity EntityKind.activities.names root' activity')
    (hitems : itemsOf config activity' = itemsOf config activity)
    (htexts : ∀ name ∈ fieldNames,
      envelopeText? config root' activity' name = envelopeText? config root activity name) :
    ofRoot config root' = ofRoot config root := by
  rw [ofRoot_eq, ofRoot_eq, Config.readEntity_first h, Config.readEntity_first h']
  simp (disch := decide) only [ofElement, hitems, htexts]

/-- The root counts only for the fields that the activity lacks. -/
theorem envelopeText?_congr {root' : Element} {name : String}
    (h : config.Has name activity ∨ config.text? name root' = config.text? name root) :
    envelopeText? config root' activity name = envelopeText? config root activity name := by
  rcases h with hown | hroot
  · cases htext : config.text? name activity with
    | none => exact absurd hown (Config.text?_eq_none_iff.mp htext)
    | some text =>
      rw [envelopeText?, envelopeText?, htext]
      rfl
  · rw [envelopeText?, envelopeText?, hroot]

/-- An element with the name of a field that an activity has, and without an activity in it. -/
structure IsSpare (config : Config) (activity e : Element) : Prop where
  field : e.name.localPart ∈ fieldNames
  owned : config.Has e.name.localPart activity
  noActivity : ∀ d ∈ e.elements, config.isEntity EntityKind.activities.names d = false

/-- Spare elements directly inside the root may come and go. -/
theorem ofRoot_edited (h : config.FirstEntity EntityKind.activities.names root activity)
    (hroot : config.isEntity EntityKind.activities.names root = false) {root' : Element}
    {kept old new : List Element} (hname : root'.name = root.name)
    (hold : Interleaved kept old root.children) (hnew : Interleaved kept new root'.children)
    (hspare : ∀ e ∈ old ++ new, IsSpare config activity e) :
    ofRoot config root' = ofRoot config root := by
  obtain ⟨holdSpare, hnewSpare⟩ := List.forall_mem_append.mp hspare
  have hroot' : config.isEntity EntityKind.activities.names root' = false := by
    rw [Config.isEntity_congr hname, hroot]
  have hentity : config.entity? EntityKind.activities.names root' =
      config.entity? EntityKind.activities.names root := by
    rw [Config.entity?_children hroot, Config.entity?_children hroot',
      hold.findSome?_left fun e he => Config.entity?_eq_none (holdSpare e he).noActivity,
      hnew.findSome?_left fun e he => Config.entity?_eq_none (hnewSpare e he).noActivity]
  have h' := h
  rw [← Config.entity?_eq_some, ← hentity, Config.entity?_eq_some] at h'
  apply ofRoot_congr_fields h h' rfl
  intro name hfield
  apply envelopeText?_congr
  by_cases hown : config.Has name activity
  · exact .inl hown
  · right
    have hother : ∀ e, IsSpare config activity e → ¬ config.isNamed .openSocial name e = true := by
      intro e he hnamed
      rw [Config.isNamed, Bool.and_eq_true, beq_iff_eq] at hnamed
      exact hown (hnamed.1 ▸ he.owned)
    rw [Config.text?, Config.text?, Config.child?, Config.child?,
      hold.find?_left fun e he => hother e (holdSpare e he),
      hnew.find?_left fun e he => hother e (hnewSpare e he)]

/-- An activity with some of its fields taken out of it. It had one element for each of them. -/
structure Taken (config : Config) (names : List String) (activity activity' : Element)
    (taken : List Element) : Prop where
  fields : ∀ name ∈ names, name ∈ fieldNames
  once : ∀ name ∈ names, activity.children.countP (config.isNamed .openSocial name) = 1
  noActivity : ∀ e ∈ taken, ∀ d ∈ e.elements,
    config.isEntity EntityKind.activities.names d = false
  taken : taken.Perm (activity.children.filter (config.isEntity names))
  name : activity'.name = activity.name
  rest : activity'.children = activity.children.filter (!config.isEntity names ·)

namespace Taken

variable {names : List String} {activity' : Element} {taken : List Element} {name : String}

theorem child?_rest (h : Taken config names activity activity' taken) (hname : name ∉ names) :
    config.child? name activity' = config.child? name activity := by
  rw [Config.child?, h.rest, List.find?_filter, Config.child?]
  apply congrArg (List.find? · activity.children)
  funext c
  cases hc : config.isNamed .openSocial name c with
  | false => simp
  | true => simp [Config.not_isEntity_of_isNamed hname hc]

theorem not_has (h : Taken config names activity activity' taken) (hname : name ∈ names) :
    ¬ config.Has name activity' := by
  rintro ⟨c, hc, hnamed⟩
  rw [h.rest, List.mem_filter] at hc
  simp [Config.isEntity_of_isNamed hname hnamed] at hc

theorem find?_taken (h : Taken config names activity activity' taken) (hname : name ∈ names) :
    taken.find? (config.isNamed .openSocial name) = config.child? name activity := by
  have hone : (activity.children.filter (config.isEntity names)).countP
      (config.isNamed .openSocial name) = 1 := by
    rw [List.countP_filter, ← h.once name hname]
    apply List.countP_congr
    intro c _
    simpa using fun hc => Config.isEntity_of_isNamed hname hc
  rw [find?_perm h.taken hone, List.find?_filter, Config.child?]
  apply congrArg (List.find? · activity.children)
  funext c
  cases hc : config.isNamed .openSocial name c with
  | false => simp
  | true => simp [Config.isEntity_of_isNamed hname hc]

end Taken

/-- What is in an activity is no text of the root. -/
theorem text?_wrap (outer : Envelope) (inner : List Envelope) {activity' : Element} {name : String}
    (hactivity : config.isEntity EntityKind.activities.names activity = true)
    (hrest : activity'.name = activity.name) (hname : name ∈ fieldNames) :
    config.text? name (Envelope.wrap (outer :: inner) activity') =
      config.text? name (Envelope.wrap (outer :: inner) activity) := by
  cases inner with
  | nil =>
    apply Envelope.text?_around outer hrest
    intro hnamed
    have hother : ∀ name ∈ fieldNames, name ∉ EntityKind.activities.names := by decide
    rw [Config.not_isEntity_of_isNamed (hother name hname) hnamed] at hactivity
    cases hactivity
  | cons next inner =>
    exact Envelope.text?_around outer rfl fun _ => Envelope.text_around next _ _

section Rearranged

variable {outer : Envelope} {inner : List Envelope} {names : List String}
  {activity' root' : Element} {taken : List Element}

/-- The activity is found where it was, though some of its fields are in the root now. -/
theorem Taken.entity?_eq (h : Taken config names activity activity' taken)
    (hclear : ∀ v ∈ outer :: inner, v.IsClear config EntityKind.activities.names)
    (hactivity : config.isEntity EntityKind.activities.names activity = true)
    (hname : root'.name = outer.name)
    (hmixed : Interleaved (Envelope.wrap (outer :: inner) activity').children taken
      root'.children) :
    config.entity? EntityKind.activities.names root' = some activity' := by
  have hclearOuter := hclear outer List.mem_cons_self
  have hwrapped : config.isEntity EntityKind.activities.names
      (Envelope.wrap (outer :: inner) activity') = false := hclearOuter.itself _
  have hroot' : config.isEntity EntityKind.activities.names root' = false := by
    rw [← hwrapped]
    exact Config.isEntity_congr hname
  have hself : config.entity? EntityKind.activities.names activity' = some activity' := by
    apply Config.entity?_root
    rw [Config.isEntity_congr h.name, hactivity]
  rw [Config.entity?_children hroot',
    hmixed.findSome?_left fun e he => Config.entity?_eq_none (h.noActivity e he),
    ← Config.entity?_children hwrapped]
  exact Envelope.entity?_wrap hclear hself

/-- A field that was taken out has its text from the root; any other has it from where it was. -/
theorem Taken.envelopeText?_eq (h : Taken config names activity activity' taken)
    (hactivity : config.isEntity EntityKind.activities.names activity = true)
    (hlacking : ∀ name ∈ names, ¬ config.Has name (Envelope.wrap (outer :: inner) activity))
    (hmixed : Interleaved (Envelope.wrap (outer :: inner) activity').children taken
      root'.children) {name : String} (hfield : name ∈ fieldNames) :
    envelopeText? config root' activity' name =
      envelopeText? config (Envelope.wrap (outer :: inner) activity) activity name := by
  have hwrapped := text?_wrap outer inner hactivity h.name hfield
  by_cases hmem : name ∈ names
  · have hroot := Config.text?_eq_none_iff.mpr (hlacking name hmem)
    rw [hroot, Config.text?_eq_none] at hwrapped
    have htaken : config.text? name root' = config.text? name activity := by
      rw [Config.text?, Config.child?, hmixed.find?_right hwrapped, h.find?_taken hmem,
        Config.text?]
    rw [envelopeText?, envelopeText?, Config.text?_eq_none_iff.mpr (h.not_has hmem), htaken, hroot]
    cases config.text? name activity <;> rfl
  · have hother : ∀ e ∈ taken, ¬ config.isNamed .openSocial name e = true := by
      intro e he hnamed
      have hentity := (List.mem_filter.mp (h.taken.mem_iff.mp he)).2
      rw [Config.not_isEntity_of_isNamed hmem hnamed] at hentity
      cases hentity
    have hown : config.text? name activity' = config.text? name activity := by
      rw [Config.text?, h.child?_rest hmem, Config.text?]
    have hroot : config.text? name root' =
        config.text? name (Envelope.wrap (outer :: inner) activity) := by
      rw [← hwrapped, Config.text?, Config.child?, hmixed.find?_left hother, Config.text?,
        Config.child?]
    rw [envelopeText?, envelopeText?, hown, hroot]

/-- Fields of an activity may be anywhere among the children of the root instead. -/
theorem ofRoot_taken (h : Taken config names activity activity' taken)
    (hclear : ∀ v ∈ outer :: inner, v.IsClear config EntityKind.activities.names)
    (hactivity : config.isEntity EntityKind.activities.names activity = true)
    (hlacking : ∀ name ∈ names, ¬ config.Has name (Envelope.wrap (outer :: inner) activity))
    (hname : root'.name = outer.name)
    (hmixed : Interleaved (Envelope.wrap (outer :: inner) activity').children taken
      root'.children) :
    ofRoot config root' = ofRoot config (Envelope.wrap (outer :: inner) activity) := by
  have hfound := Envelope.entity?_wrap hclear (Config.entity?_root hactivity)
  have hfound' := h.entity?_eq hclear hactivity hname hmixed
  apply ofRoot_congr_fields (Config.entity?_eq_some.mp hfound) (Config.entity?_eq_some.mp hfound')
  · have hitems : "mediaItems" ∉ names := fun hmem => absurd (h.fields _ hmem) (by decide)
    rw [itemsOf, itemsOf, h.child?_rest hitems]
  · intro name hfield
    exact h.envelopeText?_eq hactivity hlacking hmixed hfield

end Rearranged

/-- Each text field of an activity inside another element is that of the activity, or else that of
the root; what is between them has no part in it, and the items are those of the activity. So in the
root the elements for a field that the activity has may change. And where the root has none, a field
may stand there instead, in any place. -/
theorem ofRoot_envelope (h : config.FirstEntity EntityKind.activities.names root activity)
    (hroot : config.isEntity EntityKind.activities.names root = false) :
    (∀ record, ofRoot config root = .ok record ↔
      itemsOf config activity = .ok record.mediaItems ∧
        ∀ field ∈ record.fields, FieldText config root activity field.1 field.2) ∧
    (∀ error, ofRoot config root = .error error ↔ itemsOf config activity = .error error) ∧
    (∀ root', config.FirstEntity EntityKind.activities.names root' activity →
      (∀ name ∈ fieldNames,
        config.Has name activity ∨ config.text? name root' = config.text? name root) →
      ofRoot config root' = ofRoot config root) ∧
    (∀ kept old new root', root'.name = root.name →
      Interleaved kept old root.children → Interleaved kept new root'.children →
      (∀ e ∈ old ++ new, IsSpare config activity e) →
      ofRoot config root' = ofRoot config root) ∧
    (∃ outer inner, root = Envelope.wrap (outer :: inner) activity ∧
      ∀ v ∈ outer :: inner, v.IsClear config EntityKind.activities.names) ∧
    ∀ outer inner, root = Envelope.wrap (outer :: inner) activity →
      (∀ v ∈ outer :: inner, v.IsClear config EntityKind.activities.names) →
      ∀ names activity' taken root', Taken config names activity activity' taken →
        (∀ name ∈ names, ¬ config.Has name root) → root'.name = root.name →
        Interleaved (Envelope.wrap (outer :: inner) activity').children taken root'.children →
        ofRoot config root' = ofRoot config root := by
  have hactivity : config.isEntity EntityKind.activities.names activity = true :=
    Config.isEntity_of_entity? (Config.entity?_eq_some.mpr h)
  refine ⟨fun record => ofRoot_eq_ok_iff h, fun error => ofRoot_eq_error_of_first h, ?_, ?_, ?_, ?_⟩
  · intro root' h' htexts
    apply ofRoot_congr_fields h h' rfl
    intro name hname
    exact envelopeText?_congr (htexts name hname)
  · intro kept old new root' hname hold hnew hspare
    exact ofRoot_edited h hroot hname hold hnew hspare
  · obtain ⟨envelopes, hwrap, hclear⟩ := Envelope.exists_wrap (Config.entity?_eq_some.mpr h)
    cases envelopes with
    | nil =>
      have heq : root = activity := hwrap
      rw [heq, hactivity] at hroot
      cases hroot
    | cons outer inner => exact ⟨outer, inner, hwrap, hclear⟩
  · rintro outer inner rfl hclear names activity' taken root' htaken hlacking hname hmixed
    exact ofRoot_taken htaken hclear hactivity hlacking hname hmixed

theorem ofRoot_envelope_title :
    let title : Element := ⟨⟨none, "title"⟩, [.text "t"]⟩
    let activity : Element := ⟨⟨none, "activity"⟩, [.element ⟨none, "id"⟩ [], title.toNode]⟩
    let bare : Element := ⟨⟨none, "activity"⟩, [.element ⟨none, "id"⟩ []]⟩
    let root : Element := ⟨⟨none, "response"⟩, [.element ⟨none, "entry"⟩ [activity.toNode]]⟩
    let edited : Element := ⟨⟨none, "response"⟩,
      [.element ⟨none, "id"⟩ [.text "1"], .element ⟨none, "entry"⟩ [activity.toNode]]⟩
    let rearranged : Element := ⟨⟨none, "response"⟩,
      [.element ⟨none, "entry"⟩ [bare.toNode], title.toNode]⟩
    ofRoot {} root = .ok { id := some "", title := some "t" } ∧
      ofRoot {} edited = ofRoot {} root ∧ ofRoot {} rearranged = ofRoot {} root := by
  intro title activity bare root edited rearranged
  have hfirst : Config.FirstEntity {} EntityKind.activities.names root activity :=
    Config.entity?_eq_some.mp rfl
  have hroot : Config.isEntity {} EntityKind.activities.names root = false := rfl
  obtain ⟨-, -, -, hedited, -, htaken⟩ := ofRoot_envelope hfirst hroot
  refine ⟨rfl, ?_, ?_⟩
  · apply hedited root.children [] [⟨⟨none, "id"⟩, [.text "1"]⟩] edited rfl (.left _ .nil)
      (.right _ (.left _ .nil))
    intro e he
    cases List.mem_singleton.mp he
    refine ⟨by decide, ⟨⟨⟨none, "id"⟩, []⟩, List.mem_cons_self, rfl⟩, ?_⟩
    intro d hd
    cases List.mem_singleton.mp hd
    rfl
  · have hclear : ∀ v ∈ [⟨⟨none, "response"⟩, [], []⟩, ⟨⟨none, "entry"⟩, [], []⟩],
        Envelope.IsClear {} EntityKind.activities.names v := by
      intro v hv
      rcases List.mem_pair.mp hv with rfl | rfl
      · exact ⟨fun _ => rfl, nofun⟩
      · exact ⟨fun _ => rfl, nofun⟩
    apply htaken ⟨⟨none, "response"⟩, [], []⟩ [⟨⟨none, "entry"⟩, [], []⟩] rfl hclear ["title"]
      bare [title] rearranged ?_ ?_ rfl (.left _ (.right _ .nil))
    · refine ⟨by decide, by simp; rfl, ?_, .refl _, rfl, rfl⟩
      intro e he d hd
      cases List.mem_singleton.mp he
      cases List.mem_singleton.mp hd
      rfl
    · rintro name hname ⟨c, hc, hnamed⟩
      cases List.mem_singleton.mp hname
      cases List.mem_singleton.mp hc
      cases hnamed

end Activity

end SocialPayload
