import Mathlib.Logic.Relation
import SocialPayload.Proofs.Recipients
import SocialPayload.Proofs.Replacements

namespace SocialPayload

open Xml (Element ExpandedName Node)

/-- The children with a local name, in any namespace or none. -/
def Xml.Element.childrenNamed (localPart : String) (e : Element) : List Element :=
  e.children.filter (·.name.localPart == localPart)

/-- The elements inside an entity of a kind that have fields of their own, but for items. -/
def EntityKind.groups : EntityKind → List String
  | people => ["name"]
  | albums => ["location"]
  | activities | mediaItems | appData | messages => []

namespace Config

/-- A change to what is directly inside an element. The order is another one, though not among the
children with the same local name; or there is one more child, which comes after one with its name
that may be read. -/
inductive Shuffled (config : Config) : Element → Element → Prop
  | reordered (name : ExpandedName) {content content' : List Node} (perm : content.Perm content')
      (stable : ∀ localPart, Element.childrenNamed localPart ⟨name, content'⟩ =
        Element.childrenNamed localPart ⟨name, content⟩) :
      Shuffled config ⟨name, content⟩ ⟨name, content'⟩
  | repeated (name : ExpandedName) {content before after : List Node} {first again : Element}
      (parted : Parted content before after) (earlier : first ∈ before.filterMap Node.element?)
      (matching : config.isNamed .openSocial first.name.localPart first = true)
      (same : again.name.localPart = first.name.localPart)
      (other : again.name.localPart ≠ "mediaItems") :
      Shuffled config ⟨name, content⟩ ⟨name, before ++ again.toNode :: after⟩

/-- Such a change in an entity of a kind: to the entity itself, to a group of its fields, or to an
item in its list. -/
inductive Rearranged (config : Config) : EntityKind → Element → Element → Prop
  | entity {kind : EntityKind} {e e' : Element} (shuffled : config.Shuffled e e') :
      Rearranged config kind e e'
  | group {kind : EntityKind} (envelope : Envelope) {name : String} {c c' : Element}
      (inside : name ∈ kind.groups) (named : config.isNamed .openSocial name c = true)
      (shuffled : config.Shuffled c c') :
      Rearranged config kind (envelope.around c) (envelope.around c')
  | item (envelope list : Envelope) {c c' : Element}
      (named : config.isNamed .openSocial "mediaItems" (list.around c) = true)
      (isItem : config.isEntity MediaItem.elementNames c = true)
      (shuffled : config.Shuffled c c') :
      Rearranged config .activities (envelope.around (list.around c))
        (envelope.around (list.around c'))

variable {config : Config} {kind : EntityKind} {e e' : Element}

theorem child?_childrenNamed (name : String) (e : Element) :
    config.child? name e =
      (e.childrenNamed name).find? fun c => config.admits .openSocial c.name.namespaceUri := by
  rw [child?, Element.childrenNamed, List.find?_filter]
  apply congrArg (List.find? · e.children)
  funext c
  rw [isNamed]
  cases c.name.localPart == name <;> simp

namespace Shuffled

theorem name_eq (h : config.Shuffled e e') : e'.name = e.name := by
  cases h <;> rfl

/-- Two neighbours with different names may change places. -/
theorem swap (name : ExpandedName) (before after : List Node) {c d : Element}
    (h : c.name.localPart ≠ d.name.localPart) :
    config.Shuffled ⟨name, before ++ c.toNode :: d.toNode :: after⟩
      ⟨name, before ++ d.toNode :: c.toNode :: after⟩ := by
  refine .reordered name (.append_left before (.swap _ _ after)) ?_
  intro localPart
  by_cases hc : c.name.localPart = localPart
  · have hd : ¬ d.name.localPart = localPart := fun hd => h (hc.trans hd.symm)
    simp [Element.childrenNamed, Element.children, List.filter_cons, hd]
  · simp [Element.childrenNamed, Element.children, List.filter_cons, hc]

theorem child?_eq (h : config.Shuffled e e') (name : String) :
    config.child? name e' = config.child? name e := by
  cases h with
  | reordered _ _ stable => rw [child?_childrenNamed, child?_childrenNamed, stable]
  | @repeated n content before after first again parted earlier matching same other =>
    simp only [child?, Element.children, parted.children, List.filterMap_append,
      List.filterMap_cons, Node.element?_toNode, List.find?_append, List.find?_cons]
    cases hagain : config.isNamed .openSocial name again with
    | false => rfl
    | true =>
      have hname : first.name.localPart = name := by
        rw [isNamed, Bool.and_eq_true, beq_iff_eq] at hagain
        rw [← same, hagain.1]
      obtain ⟨c, hc⟩ : ∃ c, (before.filterMap Node.element?).find?
          (config.isNamed .openSocial name) = some c := by
        apply Option.isSome_iff_exists.mp
        rw [List.find?_isSome]
        exact ⟨first, earlier, hname ▸ matching⟩
      rw [hc]
      rfl

theorem text?_eq (h : config.Shuffled e e') (name : String) :
    config.text? name e' = config.text? name e := by
  rw [text?, h.child?_eq, text?]

theorem value?_eq (h : config.Shuffled e e') (name : String) :
    config.value? name e' = config.value? name e := by
  rw [value?, h.text?_eq, value?]

theorem number?_eq (h : config.Shuffled e e') (field : Field) :
    config.number? field e' = config.number? field e := by
  rw [number?, h.value?_eq, number?]

theorem personName (h : config.Shuffled e e') :
    PersonName.ofElement config e' = PersonName.ofElement config e := by
  simp only [PersonName.ofElement, h.text?_eq]

theorem person (h : config.Shuffled e e') :
    Person.ofElement config e' = Person.ofElement config e := by
  simp only [Person.ofElement, h.text?_eq, h.child?_eq]

theorem location (h : config.Shuffled e e') :
    Location.ofElement config e' = Location.ofElement config e := by
  simp only [Location.ofElement, h.number?_eq]

theorem album (h : config.Shuffled e e') :
    Album.ofElement config e' = Album.ofElement config e := by
  simp only [Album.ofElement, h.text?_eq, h.child?_eq]

theorem mediaItem (h : config.Shuffled e e') :
    MediaItem.ofElement config e' = MediaItem.ofElement config e := by
  simp only [MediaItem.ofElement, h.text?_eq, h.value?_eq]

theorem itemsOf (h : config.Shuffled e e') :
    Activity.itemsOf config e' = Activity.itemsOf config e := by
  rw [Activity.itemsOf, h.child?_eq, Activity.itemsOf]

theorem readsAlike (h : config.Shuffled e e') (hentity : config.isEntity kind.names e = true) :
    ReadsAlike config kind e e' := by
  cases kind with
  | activities => exact .activity hentity h.name_eq h.itemsOf fun name _ => h.text?_eq name
  | people => exact .person hentity h.name_eq h.person
  | albums => exact .album hentity h.name_eq h.album
  | mediaItems => exact .mediaItem hentity h.name_eq h.mediaItem
  | appData | messages => cases hentity

end Shuffled

theorem Rearranged.readsAlike (h : config.Rearranged kind e e')
    (hentity : config.isEntity kind.names e = true) : ReadsAlike config kind e e' := by
  cases h with
  | entity shuffled => exact shuffled.readsAlike hentity
  | group envelope inside named shuffled =>
    cases kind with
    | people =>
      cases List.mem_singleton.mp inside
      exact .personName hentity named shuffled.name_eq shuffled.personName
    | albums =>
      cases List.mem_singleton.mp inside
      exact .location hentity named shuffled.name_eq shuffled.location
    | activities | mediaItems | appData | messages => cases inside
  | item envelope list named isItem shuffled =>
    exact .item hentity named shuffled.name_eq shuffled.mediaItem

theorem Rearranged.name_eq (h : config.Rearranged kind e e') : e'.name = e.name := by
  cases h with
  | entity shuffled => exact shuffled.name_eq
  | group | item => rfl

/-- Any number of changes, made or undone. -/
theorem readsAlike_of_rearranged (h : Relation.EqvGen (config.Rearranged kind) e e') :
    e'.name = e.name ∧ (config.isEntity kind.names e = true → ReadsAlike config kind e e') := by
  induction h with
  | rel e e' step => exact ⟨step.name_eq, step.readsAlike⟩
  | refl e => exact ⟨rfl, fun _ => .refl e⟩
  | symm e e' _ ih =>
    refine ⟨ih.1.symm, fun hentity => (ih.2 ?_).symm⟩
    rwa [isEntity_congr ih.1] at hentity
  | trans e e' e'' _ _ ih ih' =>
    refine ⟨ih'.1.trans ih.1, fun hentity => (ih.2 hentity).trans (ih'.2 ?_)⟩
    rwa [isEntity_congr ih.1]

end Config

variable {config : Config} {kind : EntityKind} {root e : Element}

/-- What is read from a document does not depend on the order in which the fields of its entity
stand, nor on further children after the first with a name, and the entity stays the one that is
found. Of two mistakes in a location that of the latitude is reported, wherever it stands. -/
theorem Record.ofRoot_rearranged (h : config.FirstEntity kind.names root e) :
    (∃ envelopes, root = Envelope.wrap envelopes e ∧
      ∀ v ∈ envelopes, v.IsClear config kind.names) ∧
    (∀ envelopes, root = Envelope.wrap envelopes e →
      (∀ v ∈ envelopes, v.IsClear config kind.names) →
      ∀ e', Relation.EqvGen (config.Rearranged kind) e e' →
        config.FirstEntity kind.names (Envelope.wrap envelopes e') e' ∧
        Record.ofRoot kind config (Envelope.wrap envelopes e') =
          Record.ofRoot kind config root) ∧
    (kind = .albums → ∀ location text, config.FirstChild "location" e location →
      config.Spoils .latitude text location →
      Record.ofRoot kind config root = .error (.invalidValue .latitude text)) := by
  have hfound := Config.entity?_eq_some.mpr h
  have hentity := Config.isEntity_of_entity? hfound
  refine ⟨Envelope.exists_wrap hfound, ?_, ?_⟩
  · rintro envelopes rfl hclear e' hrearranged
    have halike := (Config.readsAlike_of_rearranged hrearranged).2 hentity
    have hentity' : config.isEntity kind.names e' = true := by
      rw [halike.isEntity, hentity]
    have hfound' := Envelope.entity?_wrap hclear (Config.entity?_root hentity')
    exact ⟨Config.entity?_eq_some.mp hfound', halike.read envelopes hclear⟩
  · rintro rfl location text hlocation hspoils
    exact Record.ofRoot_eq_error.mpr (.latitude h hlocation hspoils)

theorem Record.ofRoot_rearranged_album :
    let uri := "http://ns.opensocial.org/2008/opensocial"
    let latitude : Node := .element ⟨none, "latitude"⟩ [.text "north"]
    let longitude : Node := .element ⟨some uri, "longitude"⟩ [.text "east"]
    let id (uri : Option String) (text : String) : Element := ⟨⟨uri, "id"⟩, [.text text]⟩
    let location (content : List Node) : Element := ⟨⟨none, "location"⟩, content⟩
    let album (content : List Node) : Element := ⟨⟨none, "album"⟩, content⟩
    let root (e : Element) : Element := ⟨⟨none, "response"⟩, [.text "?", e.toNode]⟩
    Record.ofRoot .albums {} (root (album [(location [longitude, latitude]).toNode,
        (id none "1").toNode, (id (some uri) "2").toNode, (id (some "urn:x") "3").toNode])) =
      .error (.invalidValue .latitude "north") := by
  intro uri latitude longitude id location album root
  let before := album [(id none "1").toNode, (location [latitude, longitude]).toNode,
    (id (some uri) "2").toNode]
  have hfirst : Config.FirstEntity {} EntityKind.albums.names (root before) before :=
    Config.entity?_eq_some.mp rfl
  have hlocation : Config.FirstChild {} "location" before (location [latitude, longitude]) :=
    Config.child?_eq_some.mp rfl
  obtain ⟨-, hrearranged, hlatitude⟩ := Record.ofRoot_rearranged hfirst
  have hnorth : ¬ WritesFinite "north" := finiteNumber?_eq_none.mp rfl
  have hbefore : Record.ofRoot .albums {} (root before) =
      .error (.invalidValue .latitude "north") :=
    hlatitude rfl _ _ hlocation
      ⟨⟨⟨⟨none, "latitude"⟩, [.text "north"]⟩, Config.child?_eq_some.mp rfl, rfl⟩, rfl, hnorth⟩
  have hinside : Config.Rearranged {} .albums before
      (album [(id none "1").toNode, (location [longitude, latitude]).toNode,
        (id (some uri) "2").toNode]) :=
    .group ⟨⟨none, "album"⟩, [(id none "1").toNode], [(id (some uri) "2").toNode]⟩
      List.mem_cons_self rfl
      (.swap ⟨none, "location"⟩ [] [] (c := ⟨⟨none, "latitude"⟩, [.text "north"]⟩)
        (d := ⟨⟨some uri, "longitude"⟩, [.text "east"]⟩) (by decide))
  have hswapped : Config.Rearranged {} .albums
      (album [(id none "1").toNode, (location [longitude, latitude]).toNode,
        (id (some uri) "2").toNode])
      (album [(location [longitude, latitude]).toNode, (id none "1").toNode,
        (id (some uri) "2").toNode]) :=
    .entity (.swap ⟨none, "album"⟩ [] [(id (some uri) "2").toNode] (by decide))
  have hrepeated : Config.Rearranged {} .albums
      (album [(location [longitude, latitude]).toNode, (id none "1").toNode,
        (id (some uri) "2").toNode])
      (album [(location [longitude, latitude]).toNode, (id none "1").toNode,
        (id (some uri) "2").toNode, (id (some "urn:x") "3").toNode]) :=
    .entity (@Config.Shuffled.repeated {} ⟨none, "album"⟩ _ _ _ (id none "1")
      (id (some "urn:x") "3") (.between [(location [longitude, latitude]).toNode,
        (id none "1").toNode, (id (some uri) "2").toNode] []) (by simp) rfl rfl (by decide))
  have hclear : Envelope.IsClear {} EntityKind.albums.names ⟨⟨none, "response"⟩, [.text "?"], []⟩ :=
    ⟨fun _ => rfl, nofun⟩
  have hall := (hrearranged [⟨⟨none, "response"⟩, [.text "?"], []⟩] rfl
    (fun v hv => List.mem_singleton.mp hv ▸ hclear) _
    (.trans _ _ _ (.rel _ _ hinside) (.trans _ _ _ (.rel _ _ hswapped) (.rel _ _ hrepeated)))).2
  exact hall.trans hbefore

end SocialPayload
