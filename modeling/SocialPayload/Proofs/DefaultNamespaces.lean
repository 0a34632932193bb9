import Mathlib.Data.List.Forall2
import SocialPayload.Proofs.MarkupExtents
import SocialPayload.Proofs.Namespaces

namespace SocialPayload.Xml

variable {uri : String} {s rest : List Char}

/-- A scope like another one, but with a default namespace where that has none. -/
structure Scope.Defaults (uri : String) (scope scope' : Scope) : Prop where
  default : scope'.lookup "" = some ((scope.lookup "").getD uri)
  others : ∀ qualifier, qualifier ≠ "" → scope'.lookup qualifier = scope.lookup qualifier

namespace Scope.Defaults

variable {scope scope' : Scope}

theorem declare (h : Defaults uri scope scope') (declared : Scope) :
    Defaults uri (declared ++ scope) (declared ++ scope') := by
  constructor
  · rw [List.lookup_append, List.lookup_append, h.default]
    cases declared.lookup "" <;> rfl
  · intro qualifier hne
    rw [List.lookup_append, List.lookup_append, h.others qualifier hne]

theorem resolve (h : Defaults uri scope scope') {qualifier : String} {place : Nat}
    {found : Option String} (hfound : scope.resolve qualifier place = .ok found) (place' : Nat) :
    scope'.resolve qualifier place' = .ok (some (found.getD uri)) := by
  unfold Scope.resolve at hfound ⊢
  by_cases hempty : qualifier = ""
  · subst hempty
    rw [h.default]
    cases hlookup : scope.lookup "" <;> simp_all
  · rw [h.others qualifier hempty]
    cases hlookup : scope.lookup qualifier with
    | none => simp [hlookup, hempty] at hfound
    | some present =>
      rw [hlookup] at hfound
      cases hfound
      rfl

theorem resolveAttribute (h : Defaults uri scope scope') (a : Attribute) :
    scope'.resolveAttribute a = scope.resolveAttribute a := by
  unfold Scope.resolveAttribute
  by_cases hempty : a.name.qualifier = ""
  · simp [hempty]
  · rw [Scope.resolve, Scope.resolve, h.others _ hempty]

theorem checkAttributes (h : Defaults uri scope scope') (seen : List ExpandedName)
    (as : List Attribute) : scope'.checkAttributes seen as = scope.checkAttributes seen as := by
  induction as generalizing seen with
  | nil => rfl
  | cons a as ih => simp only [Scope.checkAttributes, h.resolveAttribute, ih]

end Scope.Defaults

/-- A start tag read in such a scope. -/
structure StartTag.Defaults (uri : String) (tag tag' : StartTag) : Prop where
  written : tag'.written = tag.written
  name : tag'.name = tag.name.qualify uri
  isEmpty : tag'.isEmpty = tag.isEmpty
  scope : tag.scope.Defaults uri tag'.scope

theorem StartTag.resolve_defaults {outer outer' : Scope} {written : QName}
    {found found' : Attributes} {isEmpty : Bool} {place : Nat} {tag : StartTag}
    (hscope : Scope.Defaults uri (found.declared ++ outer) (found'.declared ++ outer'))
    (hothers : found'.others.map Attribute.unplaced = found.others.map Attribute.unplaced)
    (h : resolve outer written found isEmpty place = .ok tag) (place' : Nat) :
    ∃ tag', resolve outer' written found' isEmpty place' = .ok tag' ∧ tag.Defaults uri tag' := by
  simp only [resolve, bind_eq_ok, pure_eq_ok] at h
  obtain ⟨⟨⟩, hcheck, present, hresolve, rfl⟩ := h
  have hcheck' : (found'.declared ++ outer' : Scope).checkAttributes [] found'.others = .ok () := by
    rw [← toOption_eq_some, ← Scope.checkAttributes_unplaced, hothers,
      Scope.checkAttributes_unplaced, hscope.checkAttributes, hcheck]
    rfl
  refine ⟨⟨written, ⟨some (present.getD uri), written.localPart⟩, found'.declared ++ outer', isEmpty⟩,
    ?_, ⟨rfl, rfl, rfl, hscope⟩⟩
  simp only [resolve, bind, Except.bind, hcheck', hscope.resolve hresolve, pure, Except.pure]

/-- Which attributes a tag has does not depend on the scope that it is read in. -/
theorem readStartTag_defaults {outer outer' : Scope} (hscope : outer.Defaults uri outer')
    {tag : StartTag} (h : readStartTag outer s = .ok (some (tag, rest))) :
    ∃ tag', readStartTag outer' s = .ok (some (tag', rest)) ∧ tag.Defaults uri tag' := by
  obtain ⟨written, after, found, isEmpty, hname, hxmlns, hread, htag⟩ := readStartTag_eq_ok.mp h
  obtain ⟨tag', htag', hdefaults⟩ :=
    StartTag.resolve_defaults (hscope.declare found.declared) rfl htag s.length
  exact ⟨tag', readStartTag_eq_ok.mpr
    ⟨written, after, found, isEmpty, hname, hxmlns, hread, htag'⟩, hdefaults⟩

inductive Item.Defaults (uri : String) : Item → Item → Prop
  | leaf {n : Node} (h : n.element? = none) : Item.Defaults uri (.leaf n) (.leaf n)
  | opening {tag tag' : StartTag} (h : tag.Defaults uri tag') :
      Item.Defaults uri (.opening tag) (.opening tag')
  | closing (n : QName) (place : Nat) : Item.Defaults uri (.closing n place) (.closing n place)

theorem readComment_element? {n : Node} (h : readComment s = .ok (n, rest)) :
    n.element? = none := by
  simp only [readComment, bind_eq_ok, Prod.exists] at h
  obtain ⟨body, tail, -, h⟩ := h
  split at h <;> cases h
  rfl

theorem readInstruction_element? {n : Node} (h : readInstruction s = .ok (n, rest)) :
    n.element? = none := by
  unfold readInstruction at h
  split at h
  · cases h
  · simp only [bind_eq_ok, pure_eq_ok, Prod.exists, Prod.mk.injEq] at h
    obtain ⟨target, tail, -, body, rest, -, rfl, -⟩ := h
    rfl

theorem readCdata_element? {n : Node} (h : readCdata s = .ok (n, rest)) : n.element? = none := by
  simp only [readCdata, bind_eq_ok, pure_eq_ok, Prod.exists, Prod.mk.injEq] at h
  obtain ⟨run, tail, -, rfl, -⟩ := h
  rfl

theorem readCharacters_element? {n : Node} (h : readCharacters s = .ok (n, rest)) :
    n.element? = none := by
  simp only [readCharacters, bind_eq_ok, Prod.exists] at h
  obtain ⟨run, tail, -, h⟩ := h
  split at h
  · cases h
  · simp only [bind_eq_ok, pure_eq_ok, Prod.mk.injEq] at h
    obtain ⟨pieces, -, rfl, -⟩ := h
    rfl

/-- What is not an element has no names, and is the same in every scope. -/
theorem leafOf_defaults {read : Except Fault (Node × List Char)} {i : Item}
    (hread : ∀ n rest, read = .ok (n, rest) → n.element? = none)
    (h : read.map (some <| leafOf ·) = .ok (some (i, rest))) :
    ∃ i', read.map (some <| leafOf ·) = .ok (some (i', rest)) ∧ i.Defaults uri i' := by
  obtain ⟨⟨n, tail⟩, hn, hitem⟩ := map_eq_ok.mp h
  cases hitem
  exact ⟨_, h, .leaf (hread n _ hn)⟩

theorem readMarkup_defaults {scope scope' : Scope} (hscope : scope.Defaults uri scope') {i : Item}
    (h : readMarkup scope s = .ok (some (i, rest))) :
    ∃ i', readMarkup scope' s = .ok (some (i', rest)) ∧ i.Defaults uri i' := by
  unfold readMarkup at h ⊢
  split_ifs at h ⊢
  · exact leafOf_defaults (fun _ _ => readComment_element?) h
  · exact leafOf_defaults (fun _ _ => readCdata_element?) h
  · exact leafOf_defaults (fun _ _ => readInstruction_element?) h
  · obtain ⟨⟨n, tail⟩, -, hitem⟩ := map_eq_ok.mp h
    cases hitem
    exact ⟨_, h, .closing _ _⟩
  · obtain ⟨tag, htag, hitem⟩ := map_eq_ok.mp h
    obtain ⟨⟨tag, tail⟩, rfl, hitem⟩ := Option.map_eq_some_iff.mp hitem
    cases hitem
    obtain ⟨tag', htag', hdefaults⟩ := readStartTag_defaults hscope htag
    exact ⟨_, by rw [htag']; rfl, .opening hdefaults⟩

theorem readItem_defaults {scope scope' : Scope} (hscope : scope.Defaults uri scope') {i : Item}
    (h : readItem scope s = .ok (some (i, rest))) :
    ∃ i', readItem scope' s = .ok (some (i', rest)) ∧ i.Defaults uri i' := by
  cases s with
  | nil => cases h
  | cons c tail =>
    unfold readItem at h ⊢
    dsimp only at h ⊢
    split_ifs at h ⊢
    · exact readMarkup_defaults hscope h
    · exact leafOf_defaults (fun _ _ => readCharacters_element?) h

/-- An open element with what has been read of it in such a scope. -/
structure OpenElement.Defaults (uri : String) (e e' : OpenElement) : Prop where
  tag : e.tag.Defaults uri e'.tag
  content : e'.content = e.content.map (Node.mapNames (·.qualify uri))

namespace OpenElement.Defaults

variable {e e' : OpenElement}

theorem push (h : Defaults uri e e') (n : Node) :
    Defaults uri (e.push n) (e'.push (n.mapNames (·.qualify uri))) where
  tag := h.tag
  content := by rw [OpenElement.push, h.content]; rfl

theorem close (h : Defaults uri e e') : e'.close = e.close.mapNames (·.qualify uri) := by
  rw [OpenElement.close, h.tag.name, h.content, ← List.map_reverse, ← Node.mapNamesOf_eq]
  rfl

end OpenElement.Defaults

/-- Goes on reading after an element that stands in some open ones, if any. -/
def readAfter (e : Element) (s : List Char) : List OpenElement → Except Fault (Element × List Char)
  | [] => .ok (e, s)
  | parent :: outer => readContent (parent.push e.toNode) outer s

/-- Content is read in the same way below other open elements and in a scope with a default
namespace, but for the names that get their namespace from it. -/
theorem readContent_defaults {inner inner' : OpenElement} {outer outer' : List OpenElement}
    {root : Element} (h : readContent inner outer s = .ok (root, rest))
    (hinner : inner.Defaults uri inner')
    (houter : List.Forall₂ (OpenElement.Defaults uri) outer outer') (below : List OpenElement) :
    readContent inner' (outer' ++ below) s =
      readAfter (root.mapNames (·.qualify uri)) rest below := by
  fun_induction readContent inner outer s generalizing inner' outer' with
  | case1 => cases h
  | case2 => cases h
  | case3 inner outer s n tail hitem ih =>
    obtain ⟨i', hitem', hi⟩ := readItem_defaults hinner.tag.scope hitem
    cases hi with
    | leaf hn =>
      have hpush := hinner.push n
      rw [Node.mapNames_of_element? hn] at hpush
      rw [readContent_leaf hitem', ih h hpush houter]
  | case4 inner outer s tag tail hitem hempty ih =>
    obtain ⟨i', hitem', hi⟩ := readItem_defaults hinner.tag.scope hitem
    cases hi with
    | @opening _ tag' htag =>
      have hpush := hinner.push (.element tag.name [])
      rw [readContent_empty hitem' (htag.isEmpty.trans hempty), htag.name]
      exact ih h hpush houter
  | case5 inner outer s tag tail hitem hempty ih =>
    obtain ⟨i', hitem', hi⟩ := readItem_defaults hinner.tag.scope hitem
    cases hi with
    | @opening _ tag' htag =>
      have hempty' : tag'.isEmpty = false := by simpa [htag.isEmpty] using hempty
      rw [readContent_opening hitem' hempty']
      exact ih h ⟨htag, rfl⟩ (.cons hinner houter)
  | case6 => cases h
  | case7 inner s n place tail hitem hname =>
    cases h
    cases houter
    obtain rfl : n = inner.tag.written := by simpa using hname
    obtain ⟨i', hitem', hi⟩ := readItem_defaults hinner.tag.scope hitem
    cases hi
    rw [← hinner.tag.written] at hitem'
    rw [← hinner.close]
    cases below with
    | nil => exact readContent_end hitem'
    | cons parent below => exact readContent_closing hitem'
  | case8 inner s n place tail hitem hname parent outer ih =>
    obtain rfl : n = inner.tag.written := by simpa using hname
    obtain ⟨i', hitem', hi⟩ := readItem_defaults hinner.tag.scope hitem
    cases hi
    rw [← hinner.tag.written] at hitem'
    cases houter with
    | cons hparent houter =>
      have hpush := hparent.push inner.close.toNode
      rw [Node.mapNames_toNode, ← hinner.close] at hpush
      rw [List.cons_append, readContent_closing hitem']
      exact ih h hpush houter

end SocialPayload.Xml
