import SocialPayload.Proofs.ItemLists
import SocialPayload.Proofs.TagExtents

namespace SocialPayload.Activity

open Xml (Document Element)

variable {config : Config} {root activity : Element}

/-- The lists of items directly inside an activity. -/
def lists (config : Config) (activity : Element) : List Element :=
  activity.children.filter (config.isNamed .openSocial "mediaItems")

/-- The elements in the lists of an activity that describe items, list by list. -/
def listedItems (config : Config) (activity : Element) : List Element :=
  (lists config activity).flatMap (itemElements config)

def firstListItems (config : Config) (activity : Element) : List Element :=
  ((lists config activity).take 1).flatMap (itemElements config)

def laterListItems (config : Config) (activity : Element) : List Element :=
  ((lists config activity).drop 1).flatMap (itemElements config)

/-- No listed item is lost: each gives a member of the record, or there is no record. -/
structure KeepsItems (config : Config) (root activity : Element) : Prop where
  items : ∀ a, ofRoot config root = .ok a →
    (listedItems config activity).map (MediaItem.ofElement config) = a.mediaItems.map .ok
  refusals : (∃ e ∈ listedItems config activity, ∃ error,
    MediaItem.ofElement config e = .error error) → ∃ error, ofRoot config root = .error error

theorem listedItems_eq (config : Config) (activity : Element) :
    listedItems config activity =
      firstListItems config activity ++ laterListItems config activity := by
  rw [listedItems, firstListItems, laterListItems, ← List.flatMap_append, List.take_append_drop]

theorem itemsOf_firstListItems (config : Config) (activity : Element) :
    itemsOf config activity =
      (firstListItems config activity).mapM (MediaItem.ofElement config) := by
  have hfirst : config.child? "mediaItems" activity = (lists config activity).head? := by
    rw [Config.child?, lists, List.head?_filter]
  rw [itemsOf_eq, hfirst, firstListItems]
  cases lists config activity with
  | nil => rfl
  | cons list rest => simp

theorem map_firstListItems (h : config.FirstEntity EntityKind.activities.names root activity)
    {a : Activity} (ha : ofRoot config root = .ok a) :
    (firstListItems config activity).map (MediaItem.ofElement config) =
      a.mediaItems.map .ok := by
  have hitems := (exists_ofRoot_eq_ok h).mp ⟨a, ha, rfl⟩
  rw [itemsOf_firstListItems] at hitems
  exact mapM_eq_ok.mp hitems

theorem exists_ofRoot_eq_error (h : config.FirstEntity EntityKind.activities.names root activity) :
    (∃ error, ofRoot config root = .error error) ↔
      ∃ e ∈ firstListItems config activity, ∃ error,
        MediaItem.ofElement config e = .error error := by
  simp only [ofRoot_eq_error_of_first h, itemsOf_firstListItems, exists_mapM_eq_error]

/-- The items of an activity are those in its first list, and only they can make it be refused.
Unless it is, no item is lost exactly when no list after the first one holds any. -/
theorem keepsItems_iff (h : config.FirstEntity EntityKind.activities.names root activity) :
    (∀ a, ofRoot config root = .ok a →
      (firstListItems config activity).map (MediaItem.ofElement config) =
        a.mediaItems.map .ok) ∧
    ((∃ error, ofRoot config root = .error error) ↔
      ∃ e ∈ firstListItems config activity, ∃ error,
        MediaItem.ofElement config e = .error error) ∧
    (KeepsItems config root activity ↔
      (∃ error, ofRoot config root = .error error) ∨ laterListItems config activity = []) := by
  refine ⟨fun a ha => map_firstListItems h ha, exists_ofRoot_eq_error h, ?_⟩
  constructor
  · intro hkeeps
    cases hread : ofRoot config root with
    | error error => exact .inl ⟨error, rfl⟩
    | ok a =>
      have hitems := hkeeps.items a hread
      rw [← map_firstListItems h hread, listedItems_eq, List.map_append] at hitems
      exact .inr (by simpa using hitems)
  · intro hcases
    rcases hcases with herror | hlater
    · refine ⟨?_, fun _ => herror⟩
      intro a ha
      obtain ⟨error, herror⟩ := herror
      rw [ha] at herror
      cases herror
    · have hlisted : listedItems config activity = firstListItems config activity := by
        rw [listedItems_eq, hlater, List.append_nil]
      constructor
      · intro a ha
        rw [hlisted, map_firstListItems h ha]
      · rw [hlisted]
        exact (exists_ofRoot_eq_error h).mpr

/-- A second list without items does no harm. -/
theorem keepsItems_iff_emptyList :
    let item : Element := ⟨⟨none, "MediaItem"⟩, [.element ⟨none, "url"⟩ [.text "u"]]⟩
    let list : Element := ⟨⟨none, "mediaItems"⟩, [item.toNode]⟩
    let root : Element := ⟨⟨none, "activity"⟩,
      [list.toNode, .element ⟨none, "id"⟩ [], .element ⟨none, "mediaItems"⟩ []]⟩
    Config.FirstEntity {} EntityKind.activities.names root root ∧
      (lists {} root).length = 2 ∧ KeepsItems {} root root := by
  intro item list root
  have hroot : Config.FirstEntity {} EntityKind.activities.names root root :=
    Config.entity?_eq_some.mp rfl
  exact ⟨hroot, rfl, (keepsItems_iff hroot).2.2.mpr (.inr rfl)⟩

/-- The item in a second list is lost without an error. -/
theorem not_keepsItems_secondList :
    ∃ document, Document.parse
        ("<activity><mediaItems><MediaItem><url>1</url></MediaItem></mediaItems>" ++
          "<mediaItems><MediaItem><url>2</url></MediaItem></mediaItems></activity>") =
        .ok document ∧
      Config.FirstEntity {} EntityKind.activities.names document.root document.root ∧
      ofRoot {} document.root = .ok { mediaItems := [{ url := some "1" }] } ∧
      ¬ KeepsItems {} document.root document.root := by
  have hread : (Document.parse
      ("<activity><mediaItems><MediaItem><url>1</url></MediaItem></mediaItems>" ++
        "<mediaItems><MediaItem><url>2</url></MediaItem></mediaItems></activity>")).toOption.map
      (fun document => (Config.isEntity {} EntityKind.activities.names document.root,
        (ofRoot {} document.root).toOption, (listedItems {} document.root).length)) =
      some (true, some { mediaItems := [{ url := some "1" }] }, 2) := by
    decide +kernel
  obtain ⟨document, hparse, hdocument⟩ := Option.map_eq_some_iff.mp hread
  simp only [Prod.mk.injEq, Xml.toOption_eq_some] at hdocument
  obtain ⟨hroot, hrecord, hlisted⟩ := hdocument
  refine ⟨document, Xml.toOption_eq_some.mp hparse,
    Config.entity?_eq_some.mp (Config.entity?_root hroot), hrecord, ?_⟩
  intro hkeeps
  have hlength := congrArg List.length (hkeeps.items _ hrecord)
  rw [List.length_map, hlisted] at hlength
  cases hlength

end SocialPayload.Activity
