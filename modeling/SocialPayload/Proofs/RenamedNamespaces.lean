import Mathlib.Data.Fintype.EquivFin
import Mathlib.Logic.Equiv.Basic
import SocialPayload.Proofs.MappedNames

namespace SocialPayload

open Xml (Element ExpandedName)

def Xml.ExpandedName.mapUri (f : String → String) (n : ExpandedName) : ExpandedName :=
  { n with namespaceUri := n.namespaceUri.map f }

/-- The same element with other namespaces. What has no namespace in it stays without one. -/
def Xml.Element.mapUris (f : String → String) (e : Element) : Element :=
  e.mapNames (·.mapUri f)

/-- A map that keeps some names apart can be changed on all other names, so that it keeps the former
apart from these as well. -/
theorem exists_apart {f : String → String} {uris : List String}
    (hf : Set.InjOn f {u | u ∈ uris}) : ∃ g : String → String,
      (∀ u ∈ uris, f u = g u) ∧ ∀ u ∈ uris, ∀ v, g v = g u ↔ v = u := by
  obtain ⟨other, hother⟩ := Infinite.exists_notMem_finset (uris.map f).toFinset
  rw [List.mem_toFinset] at hother
  let g (u : String) : String := if u ∈ uris then f u else other
  have hg : ∀ u ∈ uris, g u = f u := fun u hu => if_pos hu
  refine ⟨g, fun u hu => (hg u hu).symm, ?_⟩
  intro u hu v
  constructor
  · intro h
    by_cases hv : v ∈ uris
    · rw [hg v hv, hg u hu] at h
      exact hf hv hu h
    · have hfresh : g v = other := if_neg hv
      rw [hfresh, hg u hu] at h
      exact absurd (h ▸ List.mem_map_of_mem hu) hother
  · intro h
    rw [h]

/-- Two names can be mapped to any other two, and all names be kept apart. -/
theorem exists_injective_map {a b a' b' : String} (h : a ≠ b) (h' : a' ≠ b') :
    ∃ f : String → String, Function.Injective f ∧ f a = a' ∧ f b = b' := by
  let first := Equiv.swap a a'
  let second := Equiv.swap (first b) b'
  have ha : first a = a' := Equiv.swap_apply_left a a'
  have hne : a' ≠ first b := by
    intro he
    exact h (first.injective (ha.trans he))
  refine ⟨second ∘ first, second.injective.comp first.injective, ?_, ?_⟩
  · rw [Function.comp_apply, ha]
    exact Equiv.swap_apply_of_ne_of_ne hne h'
  · exact Equiv.swap_apply_left (first b) b'

namespace Config

def mapUris (f : String → String) (config : Config) : Config where
  namespaces := ⟨f config.namespaces.openSocial, f config.namespaces.osapi⟩
  allowUnqualified := config.allowUnqualified

/-- The namespaces that there are in a configuration and in a document. -/
def urisWith (config : Config) (root : Element) : List String :=
  config.namespaces.openSocial :: config.namespaces.osapi ::
    root.elements.filterMap (·.name.namespaceUri)

/-- Whether a map keeps the namespaces of a configuration apart from all others. -/
def IsApart (config : Config) (f : String → String) : Prop :=
  ∀ uri ∈ [config.namespaces.openSocial, config.namespaces.osapi], ∀ v, f v = f uri ↔ v = uri

variable {config : Config} {f : String → String}

theorem isApart_of_injective (h : Function.Injective f) : config.IsApart f :=
  fun _ _ _ => h.eq_iff

theorem admits_mapUris (h : config.IsApart f) (vocabulary : Vocabulary) (n : ExpandedName) :
    (config.mapUris f).admits vocabulary (n.mapUri f).namespaceUri =
      config.admits vocabulary n.namespaceUri := by
  obtain ⟨uri, localPart⟩ := n
  cases uri with
  | none => cases vocabulary <;> rfl
  | some uri =>
    rw [Bool.eq_iff_iff]
    cases vocabulary with
    | openSocial => simpa [admits, ExpandedName.mapUri, mapUris] using h _ (by simp) uri
    | osapi => simpa [admits, ExpandedName.mapUri, mapUris] using h _ (by simp) uri

theorem isNamed_mapUris (h : config.IsApart f) (vocabulary : Vocabulary) (name : String)
    (e : Element) : (config.mapUris f).isNamed vocabulary name (e.mapUris f) =
      config.isNamed vocabulary name e := by
  rw [isNamed, Element.mapUris, Element.mapNames, admits_mapUris h, isNamed]
  rfl

theorem ofRoot_mapUris_of_isApart (h : config.IsApart f) (kind : EntityKind) (root : Element) :
    Record.ofRoot kind (config.mapUris f) (root.mapUris f) = Record.ofRoot kind config root :=
  Record.ofRoot_mapNames (isNamed_mapUris h) kind root

theorem mapUris_congr {root : Element} {g : String → String}
    (h : ∀ uri ∈ config.urisWith root, f uri = g uri) :
    config.mapUris f = config.mapUris g ∧ root.mapUris f = root.mapUris g := by
  constructor
  · rw [mapUris, mapUris, h _ (by simp [urisWith]), h _ (by simp [urisWith])]
  · apply Element.mapNames_congr
    intro e he
    cases huri : e.name.namespaceUri with
    | none => simp [ExpandedName.mapUri, huri]
    | some uri =>
      have hmem : uri ∈ config.urisWith root :=
        .tail _ (.tail _ (List.mem_filterMap.mpr ⟨e, he, huri⟩))
      simp [ExpandedName.mapUri, huri, h uri hmem]

end Config

/-- What is read from a document does not depend on what the namespaces are called in it and in the
configuration, as long as different ones stay different. Any two namespaces will therefore do what
the usual two do. -/
theorem Record.ofRoot_mapUris :
    (∀ (config : Config) (root : Element) (f : String → String),
      Set.InjOn f {uri | uri ∈ config.urisWith root} → ∀ kind,
        Record.ofRoot kind (config.mapUris f) (root.mapUris f) =
          Record.ofRoot kind config root) ∧
    ∀ config : Config, config.namespaces.openSocial ≠ config.namespaces.osapi →
      ∃ f : String → String, Function.Injective f ∧
        config.mapUris f = { allowUnqualified := config.allowUnqualified } ∧
        ∀ kind root, Record.ofRoot kind { allowUnqualified := config.allowUnqualified }
          (root.mapUris f) = Record.ofRoot kind config root := by
  constructor
  · intro config root f hf kind
    obtain ⟨g, hfg, hg⟩ := exists_apart hf
    obtain ⟨hconfig, hroot⟩ := Config.mapUris_congr hfg
    have hapart : config.IsApart g := by
      intro uri huri
      apply hg uri
      rcases List.mem_cons.mp huri with rfl | huri
      · exact List.mem_cons_self
      · rw [List.mem_singleton.mp huri]
        exact .tail _ List.mem_cons_self
    rw [hconfig, hroot]
    exact Config.ofRoot_mapUris_of_isApart hapart kind root
  · intro config hdiffer
    have husual : ({} : Namespaces).openSocial ≠ ({} : Namespaces).osapi := by decide
    obtain ⟨f, hinjective, hopenSocial, hosapi⟩ := exists_injective_map hdiffer husual
    have hconfig : config.mapUris f = { allowUnqualified := config.allowUnqualified } := by
      rw [Config.mapUris, hopenSocial, hosapi]
    refine ⟨f, hinjective, hconfig, ?_⟩
    intro kind root
    rw [← hconfig]
    exact Config.ofRoot_mapUris_of_isApart (Config.isApart_of_injective hinjective) kind root

theorem Record.ofRoot_mapUris_message :
    Record.ofRoot .messages ⟨⟨"urn:a", "urn:b"⟩, true⟩ ⟨⟨none, "response"⟩, [
        .element ⟨some "http://ns.opensocial.org/2008/opensocial", "title"⟩ [.text "?"],
        .element ⟨some "urn:a", "title"⟩ [.text "Hi"],
        .element ⟨some "urn:b", "recipient"⟩ [.text "1"]]⟩ =
      Record.ofRoot .messages {} ⟨⟨none, "response"⟩, [
        .element ⟨some "urn:x", "title"⟩ [.text "?"],
        .element ⟨some "http://ns.opensocial.org/2008/opensocial", "title"⟩ [.text "Hi"],
        .element ⟨some "http://opensocial.org/2008/opensocialapi", "recipient"⟩ [.text "1"]]⟩ := by
  let root : Element := ⟨⟨none, "response"⟩, [
    .element ⟨some "urn:x", "title"⟩ [.text "?"],
    .element ⟨some "http://ns.opensocial.org/2008/opensocial", "title"⟩ [.text "Hi"],
    .element ⟨some "http://opensocial.org/2008/opensocialapi", "recipient"⟩ [.text "1"]]⟩
  let f : String → String := fun uri =>
    if uri = ({} : Namespaces).openSocial then "urn:a"
    else if uri = "urn:x" then ({} : Namespaces).openSocial
    else "urn:b"
  have hf : ∀ u ∈ Config.urisWith {} root, ∀ v ∈ Config.urisWith {} root, f u = f v → u = v := by
    decide
  exact Record.ofRoot_mapUris.1 {} root f (fun u hu v hv => hf u hu v hv) .messages

end SocialPayload
