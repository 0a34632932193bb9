import SocialPayload.Proofs.Pointwise
import SocialPayload.Proofs.Refusals

namespace SocialPayload

open Xml (Element ExpandedName map_eq_ok)

variable {config : Config} {root activity e e' : Element}

theorem Config.not_isEntity_of_isNamed {name : String} {names : List String} (hname : name ∉ names)
    (h : config.isNamed .openSocial name e = true) : config.isEntity names e = false := by
  rw [isEntity, List.any_eq_false]
  intro other hother hnamed
  rw [isNamed, Bool.and_eq_true, beq_iff_eq] at h hnamed
  exact hname (h.1 ▸ hnamed.1 ▸ hother)

namespace MediaItem

/-- An item is found at once in the document that it is the root of, whatever is inside it. -/
theorem ofRoot_item (h : config.isEntity elementNames e = true) :
    ofRoot config e = ofElement config e := by
  rw [ofRoot_eq]
  exact Config.readEntity_root h (ofElement config)

/-- What an item can be read from: the names and the texts of its children, items left out. -/
def shownFields (config : Config) (e : Element) : List (ExpandedName × String) :=
  (e.children.filter (!config.isEntity elementNames ·)).map fun c => (c.name, c.text)

theorem text?_shownFields {name : String} (hname : name ∉ elementNames) :
    config.text? name e = ((shownFields config e).find? fun (childName, _) =>
      childName.localPart == name && config.admits .openSocial childName.namespaceUri).map
        Prod.snd := by
  have hkept :
      (fun c => config.isNamed .openSocial name c && !config.isEntity elementNames c) =
      config.isNamed .openSocial name := by
    funext c
    cases hc : config.isNamed .openSocial name c with
    | false => rfl
    | true => simp [Config.not_isEntity_of_isNamed hname hc]
  rw [Config.text?, Config.child?, ← List.head?_filter, ← List.head?_filter, shownFields,
    List.filter_map, List.filter_filter, List.head?_map, Option.map_map, ← hkept]
  rfl

theorem ofElement_congr (h : shownFields config e = shownFields config e') :
    ofElement config e = ofElement config e' := by
  have htext : ∀ name, name ∉ elementNames → config.text? name e = config.text? name e' := by
    intro name hname
    rw [text?_shownFields hname, text?_shownFields hname, h]
  simp (disch := decide) only [ofElement, Config.value?, htext]

end MediaItem

namespace Activity

/-- The elements directly inside a list that describe items. -/
def itemElements (config : Config) (list : Element) : List Element :=
  list.children.filter (config.isEntity MediaItem.elementNames)

/-- What the items of an activity can be read from. -/
def shownItems (config : Config) (activity : Element) : List (List (ExpandedName × String)) :=
  match config.child? "mediaItems" activity with
  | some list => (itemElements config list).map (MediaItem.shownFields config)
  | none => []

/-- Each item of an activity is what its element is read as when it is a document. -/
theorem itemsOf_list {list : Element} (h : config.FirstChild "mediaItems" activity list) :
    itemsOf config activity = (itemElements config list).mapM (MediaItem.ofRoot config) := by
  have halone : List.Forall₂
      (fun e e' => MediaItem.ofElement config e = MediaItem.ofRoot config e')
      (itemElements config list) (itemElements config list) := by
    apply List.forall₂_same.mpr
    intro e he
    exact (MediaItem.ofRoot_item (List.mem_filter.mp he).2).symm
  rw [itemsOf, Config.child?_eq_some.mpr h]
  exact Pointwise.mapM_eq halone fun _ _ he => he

theorem itemsOf_eq (activity : Element) : itemsOf config activity =
    ((config.child? "mediaItems" activity).map fun list =>
      (itemElements config list).mapM (MediaItem.ofElement config)).getD (.ok []) := by
  rw [itemsOf]
  cases config.child? "mediaItems" activity <;> rfl

theorem itemsOf_congr {activity' : Element}
    (h : shownItems config activity = shownItems config activity') :
    itemsOf config activity = itemsOf config activity' := by
  have hitems : ∀ a, itemsOf config a =
      (((config.child? "mediaItems" a).map (itemElements config)).getD []).mapM
        (MediaItem.ofElement config) := by
    intro a
    rw [itemsOf]
    cases config.child? "mediaItems" a <;> rfl
  have hshown : ∀ a, shownItems config a =
      (((config.child? "mediaItems" a).map (itemElements config)).getD []).map
        (MediaItem.shownFields config) := by
    intro a
    rw [shownItems]
    cases config.child? "mediaItems" a <;> rfl
  rw [hshown, hshown, ← List.forall₂_eq_eq_eq, List.forall₂_map_left_iff,
    List.forall₂_map_right_iff] at h
  rw [hitems, hitems]
  exact Pointwise.mapM_eq h fun _ _ => MediaItem.ofElement_congr

/-- The items of an activity are those of its element, and nothing else of it can be amiss. -/
theorem map_mediaItems (h : config.FirstEntity EntityKind.activities.names root activity) :
    (ofRoot config root).map mediaItems = itemsOf config activity := by
  rw [ofRoot_eq, Config.readEntity_first h, ofElement]
  cases itemsOf config activity <;> rfl

theorem ofRoot_eq_error_of_first (h : config.FirstEntity EntityKind.activities.names root activity)
    {error : ConversionError} :
    ofRoot config root = .error error ↔ itemsOf config activity = .error error := by
  rw [← map_mediaItems h, map_eq_error]

theorem exists_ofRoot_eq_ok (h : config.FirstEntity EntityKind.activities.names root activity)
    {items : List MediaItem} : (∃ a, ofRoot config root = .ok a ∧ a.mediaItems = items) ↔
      itemsOf config activity = .ok items := by
  rw [← map_mediaItems h, map_eq_ok]

/-- An activity is read from its element when each item in the first list there is, taken as a
document of its own, and its items are then those records. Otherwise the first item that cannot be
read is what is wrong. Without a list there are no items. Nothing else in the document has a part in
them: neither what else the list holds, nor items inside items, nor lists elsewhere. -/
theorem ofRoot_items (h : config.FirstEntity EntityKind.activities.names root activity) :
    (∀ list, config.FirstChild "mediaItems" activity list →
      ((∃ a, ofRoot config root = .ok a) ↔
        ∀ e ∈ itemElements config list, ∃ item, MediaItem.ofRoot config e = .ok item) ∧
      (∀ a, ofRoot config root = .ok a →
        (itemElements config list).map (MediaItem.ofRoot config) = a.mediaItems.map .ok) ∧
      ∀ error, ofRoot config root = .error error ↔
        ∃ e, IsFirst (fun e => ∃ error, MediaItem.ofRoot config e = .error error)
          (itemElements config list) e ∧ MediaItem.ofRoot config e = .error error) ∧
    ((∀ c ∈ activity.children, ¬ config.isNamed .openSocial "mediaItems" c = true) →
      ∃ a, ofRoot config root = .ok a ∧ a.mediaItems = []) ∧
    ∀ root' activity', config.FirstEntity EntityKind.activities.names root' activity' →
      shownItems config activity = shownItems config activity' →
      (ofRoot config root).map mediaItems = (ofRoot config root').map mediaItems := by
  refine ⟨?_, ?_, ?_⟩
  · intro list hlist
    have hitems := itemsOf_list hlist
    refine ⟨?_, ?_, ?_⟩
    · rw [← exists_mapM_eq_ok, ← hitems]
      simp only [← exists_ofRoot_eq_ok h, exists_comm, exists_eq_right']
    · intro a ha
      have hok := (exists_ofRoot_eq_ok h).mp ⟨a, ha, rfl⟩
      exact mapM_eq_ok.mp (hitems ▸ hok)
    · intro error
      rw [ofRoot_eq_error_of_first h, hitems, IsFirst.mapM_eq_error]
  · intro hnone
    apply (exists_ofRoot_eq_ok h).mpr
    rw [itemsOf, Config.child?, List.find?_eq_none.mpr hnone]
  · intro root' activity' h' hshown
    rw [map_mediaItems h, map_mediaItems h', itemsOf_congr hshown]

theorem ofRoot_items_film :
    let film : Element := ⟨⟨none, "mediaItem"⟩, [.element ⟨none, "type"⟩ [.text "film"]]⟩
    let outer : Element := ⟨⟨none, "MediaItem"⟩, [film.toNode, .element ⟨none, "url"⟩ [.text "u"]]⟩
    let list : Element := ⟨⟨none, "mediaItems"⟩,
      [outer.toNode, .element ⟨none, "entry"⟩ [film.toNode], film.toNode]⟩
    let root : Element := ⟨⟨none, "activity"⟩, [list.toNode]⟩
    Config.FirstEntity {} EntityKind.activities.names root root ∧
      Config.FirstChild {} "mediaItems" root list ∧
      itemElements {} list = [outer, film] ∧
      MediaItem.ofRoot {} outer = .ok { url := some "u" } ∧
      ofRoot {} root = .error (.invalidValue .type "film") := by
  intro film outer list root
  have hroot : Config.FirstEntity {} EntityKind.activities.names root root :=
    Config.entity?_eq_some.mp rfl
  have hlist : Config.FirstChild {} "mediaItems" root list := Config.child?_eq_some.mp rfl
  have hitems : itemElements {} list = [outer, film] := rfl
  have houter : MediaItem.ofRoot {} outer = .ok { url := some "u" } := rfl
  have hfilm : MediaItem.ofRoot {} film = .error (.invalidValue .type "film") := rfl
  refine ⟨hroot, hlist, hitems, houter, ?_⟩
  apply (((ofRoot_items hroot).1 list hlist).2.2 _).mpr
  refine ⟨film, ⟨[outer], [], hitems, ⟨_, hfilm⟩, ?_⟩, hfilm⟩
  intro e he hfails
  rw [List.mem_singleton.mp he, houter] at hfails
  obtain ⟨error, herror⟩ := hfails
  cases herror

end Activity

end SocialPayload
