import SocialPayload.Proofs.ElementTree
import SocialPayload.Proofs.Searches

namespace SocialPayload

open Xml (Element ExpandedName Node)

/-- An element around another one, with what stands there before that one and after it. -/
structure Envelope where
  name : ExpandedName
  before : List Node
  after : List Node

namespace Envelope

def around (envelope : Envelope) (e : Element) : Element :=
  ⟨envelope.name, envelope.before ++ e.toNode :: envelope.after⟩

/-- The first of the envelopes is the outermost. -/
def wrap (envelopes : List Envelope) (e : Element) : Element :=
  envelopes.foldr around e

/-- Whether no element with one of some names begins in an envelope before what it is around. -/
structure IsClear (config : Config) (names : List String) (envelope : Envelope) : Prop where
  itself : ∀ content, config.isEntity names ⟨envelope.name, content⟩ = false
  before : ∀ e ∈ Node.elementsOf envelope.before, config.isEntity names e = false

theorem elements_around (envelope : Envelope) (e : Element) :
    (envelope.around e).elements = envelope.around e ::
      (Node.elementsOf envelope.before ++ (e.elements ++ Node.elementsOf envelope.after)) := by
  rw [around, Element.elements, Element.toNode, Node.elements, Node.elementsOf_around]

theorem children_around (envelope : Envelope) (e : Element) :
    (envelope.around e).children = envelope.before.filterMap Node.element? ++
      e :: envelope.after.filterMap Node.element? := by
  simp [around, Element.children]

theorem text_around (envelope : Envelope) (e e' : Element) :
    (envelope.around e).text = (envelope.around e').text := by
  simp [around, Element.text]

variable {config : Config} {names : List String}

/-- What is read from a child is the same when another of its name, from which the same is read,
stands in its place. -/
theorem map_child?_around {β : Type} (envelope : Envelope) {e e' : Element} {name : String}
    {read : Element → β} (hname : e'.name = e.name)
    (hread : config.isNamed .openSocial name e = true → read e' = read e) :
    (config.child? name (envelope.around e')).map read =
      (config.child? name (envelope.around e)).map read := by
  have hnamed : config.isNamed .openSocial name e' = config.isNamed .openSocial name e :=
    Config.isNamed_congr hname .openSocial name
  simp only [Config.child?, children_around, List.find?_append, List.find?_cons, hnamed]
  cases h : config.isNamed .openSocial name e with
  | false => rfl
  | true =>
    cases (envelope.before.filterMap Node.element?).find? (config.isNamed .openSocial name) with
    | none => simp [hread h]
    | some c => rfl

/-- The element that an envelope is around counts for a text only when it is what is looked for. -/
theorem text?_around (envelope : Envelope) {e e' : Element} {name : String}
    (hname : e'.name = e.name)
    (htext : config.isNamed .openSocial name e = true → e'.text = e.text) :
    config.text? name (envelope.around e') = config.text? name (envelope.around e) :=
  envelope.map_child?_around hname htext

/-- A search goes through what is inside an envelope before it comes to what is after it. -/
theorem entity?_around {envelope : Envelope} (h : envelope.IsClear config names) (e : Element) :
    config.entity? names (envelope.around e) = (config.entity? names e).or
      ((Node.elementsOf envelope.after).find? (config.isEntity names)) := by
  have hself : config.isEntity names (envelope.around e) = false := h.itself _
  have hbefore : (Node.elementsOf envelope.before).find? (config.isEntity names) = none := by
    rw [List.find?_eq_none]
    intro d hd
    simpa using h.before d hd
  rw [Config.entity?, elements_around, List.find?_cons, hself, List.find?_append, hbefore,
    List.find?_append]
  rfl

theorem entity?_wrap {envelopes : List Envelope} (h : ∀ v ∈ envelopes, v.IsClear config names)
    {root e : Element} (he : config.entity? names root = some e) :
    config.entity? names (wrap envelopes root) = some e := by
  induction envelopes with
  | nil => exact he
  | cons envelope envelopes ih =>
    have hinner := ih fun v hv => h v (List.mem_cons_of_mem envelope hv)
    have houter := entity?_around (h envelope List.mem_cons_self) (wrap envelopes root)
    rw [hinner] at houter
    exact houter

theorem entity?_wrap_none {envelopes : List Envelope} (h : ∀ v ∈ envelopes, v.IsClear config names)
    (hafter : ∀ v ∈ envelopes, ∀ d ∈ Node.elementsOf v.after, config.isEntity names d = false)
    {root : Element} (he : config.entity? names root = none) :
    config.entity? names (wrap envelopes root) = none := by
  induction envelopes with
  | nil => exact he
  | cons envelope envelopes ih =>
    have hinner := ih (fun v hv => h v (List.mem_cons_of_mem envelope hv))
      fun v hv => hafter v (List.mem_cons_of_mem envelope hv)
    have houter := entity?_around (h envelope List.mem_cons_self) (wrap envelopes root)
    rw [hinner, Option.none_or] at houter
    apply houter.trans
    apply List.find?_eq_none.mpr
    intro d hd
    simpa using hafter envelope List.mem_cons_self d hd

/-- The first element found stands in envelopes that are clear. -/
theorem exists_wrap {root e : Element} (h : config.entity? names root = some e) :
    ∃ envelopes, root = wrap envelopes e ∧ ∀ v ∈ envelopes, v.IsClear config names := by
  induction root using Element.induction with
  | step root ih =>
    cases hroot : config.isEntity names root with
    | true =>
      rw [Config.entity?_root hroot] at h
      cases h
      exact ⟨[], rfl, by simp⟩
    | false =>
      rw [Config.entity?_children hroot] at h
      obtain ⟨earlier, c, later, hchildren, hc, hearlier⟩ := List.findSome?_eq_some_iff.mp h
      obtain ⟨envelopes, hwrap, hclear⟩ := ih c (by simp [hchildren]) hc
      obtain ⟨before, after, hcontent, hbefore⟩ := Element.exists_content hchildren
      refine ⟨⟨root.name, before, after⟩ :: envelopes, ?_, ?_⟩
      · rw [wrap, List.foldr_cons, ← wrap, ← hwrap, around, ← hcontent]
      · intro v hv
        rcases List.mem_cons.mp hv with rfl | hv
        · constructor
          · intro content
            exact hroot
          · intro d hd
            rw [Node.elementsOf_eq, hbefore] at hd
            obtain ⟨sibling, hsibling, hd⟩ := List.mem_flatMap.mp hd
            simpa using List.find?_eq_none.mp (hearlier sibling hsibling) d hd
        · exact hclear v hv

end Envelope

/-- The kinds of record that are read from the first entity alone. -/
def EntityKind.isLocal : EntityKind → Bool
  | people | albums | mediaItems => true
  | activities | appData | messages => false

variable {config : Config} {kind : EntityKind} {root e : Element}

theorem Record.ofRoot_congr (hkind : kind.isLocal = true) {root' : Element}
    (h : config.entity? kind.names root = config.entity? kind.names root') :
    Record.ofRoot kind config root = Record.ofRoot kind config root' := by
  cases kind with
  | people => simp only [Record.ofRoot, Person.ofRoot_eq, Config.readEntity_congr h]
  | albums => simp only [Record.ofRoot, Album.ofRoot_eq, Config.readEntity_congr h]
  | mediaItems => simp only [Record.ofRoot, MediaItem.ofRoot_eq, Config.readEntity_congr h]
  | activities | appData | messages => cases hkind

theorem Config.isEntity_of_entity? {names : List String}
    (h : config.entity? names root = some e) : config.isEntity names e = true :=
  List.find?_some h

/-- The fields of an activity that an envelope may hold instead. -/
def Activity.fieldNames : List String :=
  ["id", "title", "summary", "streamId", "streamTitle", "updated"]

/-- Where no field is to be found in the root, an activity is read from its element alone. -/
theorem Activity.ofRoot_of_entity? (h : config.entity? EntityKind.activities.names root = some e)
    (hfields : ∀ name ∈ fieldNames, config.text? name root = none) :
    Activity.ofRoot config root = Activity.ofRoot config e := by
  have hentity := Config.isEntity_of_entity? h
  have henvelope : ∀ name ∈ fieldNames,
      envelopeText? config root e name = envelopeText? config e e name := by
    intro name hname
    rw [envelopeText?, envelopeText?, hfields name hname]
    cases config.text? name e <;> rfl
  have hread : Activity.ofElement config root e = Activity.ofElement config e e := by
    simp (disch := decide) only [Activity.ofElement, henvelope]
  rw [ofRoot_eq, ofRoot_eq, Config.readEntity_root hentity, ← hread, Config.readEntity, h]

/-- A search finds the first element with one of its names in the order of start tags, and what is
read from the first entity of a document is read from it alone. The envelopes that it stands in are
clear; what comes after it, and further envelopes around the document, make no difference. An
activity is read so when the root has no field for it. -/
theorem Record.ofRoot_local (config : Config) :
    (∀ (names : List String) (root e : Element),
      config.entity? names root = some e ↔ config.FirstEntity names root e) ∧
    (∀ kind : EntityKind, kind.isLocal = true → ∀ root e : Element,
      config.FirstEntity kind.names root e →
        (∃ envelopes, root = Envelope.wrap envelopes e ∧
          ∀ v ∈ envelopes, v.IsClear config kind.names) ∧
        Record.ofRoot kind config root = Record.ofRoot kind config e ∧
        (∀ root', config.FirstEntity kind.names root' e →
          Record.ofRoot kind config root' = Record.ofRoot kind config root) ∧
        ∀ envelopes, (∀ v ∈ envelopes, v.IsClear config kind.names) →
          Record.ofRoot kind config (Envelope.wrap envelopes e) = Record.ofRoot kind config root ∧
          Record.ofRoot kind config (Envelope.wrap envelopes root) =
            Record.ofRoot kind config root) ∧
    (∀ kind : EntityKind, kind.isLocal = true → ∀ (root : Element) (envelopes : List Envelope),
      (∀ v ∈ envelopes, v.IsClear config kind.names) →
      (∀ v ∈ envelopes, ∀ d ∈ Node.elementsOf v.after, config.isEntity kind.names d = false) →
        Record.ofRoot kind config (Envelope.wrap envelopes root) =
          Record.ofRoot kind config root) ∧
    ∀ root e : Element, config.FirstEntity EntityKind.activities.names root e →
      (∀ name ∈ Activity.fieldNames, ∀ c ∈ root.children,
        ¬ config.isNamed .openSocial name c = true) →
      Record.ofRoot .activities config root = Record.ofRoot .activities config e := by
  refine ⟨fun names root e => Config.entity?_eq_some, ?_, ?_, ?_⟩
  · intro kind hkind root e hfirst
    have h := Config.entity?_eq_some.mpr hfirst
    have hself : config.entity? kind.names e = some e :=
      Config.entity?_root (Config.isEntity_of_entity? h)
    refine ⟨Envelope.exists_wrap h, ?_, ?_, ?_⟩
    · apply Record.ofRoot_congr hkind
      rw [h, hself]
    · intro root' hfirst'
      apply Record.ofRoot_congr hkind
      rw [Config.entity?_eq_some.mpr hfirst', h]
    · intro envelopes hclear
      constructor
      · apply Record.ofRoot_congr hkind
        rw [Envelope.entity?_wrap hclear hself, h]
      · apply Record.ofRoot_congr hkind
        rw [Envelope.entity?_wrap hclear h, h]
  · intro kind hkind root envelopes hclear hafter
    apply Record.ofRoot_congr hkind
    cases hentity : config.entity? kind.names root with
    | none => exact Envelope.entity?_wrap_none hclear hafter hentity
    | some e => exact Envelope.entity?_wrap hclear hentity
  · intro root e hfirst hfields
    have h := Config.entity?_eq_some.mpr hfirst
    have htexts : ∀ name ∈ Activity.fieldNames, config.text? name root = none := by
      intro name hname
      apply Config.text?_eq_none.mpr
      exact hfields name hname
    rw [Record.ofRoot, Activity.ofRoot_of_entity? h htexts, Record.ofRoot]

theorem Record.ofRoot_local_mediaItem :
    Record.ofRoot .mediaItems {} ⟨⟨none, "feed"⟩, [
        .element ⟨none, "entry"⟩ [.element ⟨none, "MediaItem"⟩ [.element ⟨none, "id"⟩ [.text "1"]]],
        .element ⟨none, "mediaItem"⟩ []]⟩ =
      Record.ofRoot .mediaItems {} ⟨⟨none, "MediaItem"⟩, [.element ⟨none, "id"⟩ [.text "1"]]⟩ :=
  ((Record.ofRoot_local {}).2.1 .mediaItems rfl _ _ (Config.entity?_eq_some.mp rfl)).2.1

end SocialPayload
