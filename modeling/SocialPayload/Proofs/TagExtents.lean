import Mathlib.Tactic.SplitIfs
import SocialPayload.Proofs.WrittenMarkup

namespace SocialPayload.Xml

variable {s next rest : List Char} {z : Char}

/-- Whether a mark begins a text is known by the first character that at most ends the mark. -/
theorem isPrefixOf_ahead {mark : List Char} (hz : z ∉ mark.dropLast) (next rest rest' : List Char) :
    mark.isPrefixOf (next ++ z :: rest) = mark.isPrefixOf (next ++ z :: rest') := by
  have hmark : ∀ rest rest', mark <+: next ++ z :: rest → mark <+: next ++ z :: rest' := by
    intro rest rest' h
    have hnext : ∀ rest, next ++ [z] <+: next ++ z :: rest := fun rest => ⟨rest, by simp⟩
    rcases List.prefix_or_prefix_of_prefix h (hnext rest) with hshort | ⟨after, rfl⟩
    · exact hshort.trans (hnext rest')
    · cases after with
      | nil => simp
      | cons c after => simp at hz
  rw [Bool.eq_iff_iff, List.isPrefixOf_iff_prefix, List.isPrefixOf_iff_prefix]
  exact ⟨hmark rest rest', hmark rest' rest⟩

/-- A run is taken in the same way when something else follows the character after it. -/
theorem dropWhile_ahead {p : Char → Bool} (h : s.dropWhile p = next ++ z :: rest)
    (rest' : List Char) :
    (s.takeWhile p ++ (next ++ z :: rest')).takeWhile p = s.takeWhile p ∧
      (s.takeWhile p ++ (next ++ z :: rest')).dropWhile p = next ++ z :: rest' := by
  have hrun : ∀ c ∈ s.takeWhile p, p c = true := List.all_eq_true.mp List.all_takeWhile
  have hhead := List.head?_dropWhile_not p s
  rw [h] at hhead
  rw [List.takeWhile_append_of_pos hrun, List.dropWhile_append_of_pos hrun]
  cases next with
  | nil => simp_all
  | cons c next => simp_all

theorem expectChar_eq_ok {c : Char} : expectChar c s = .ok rest ↔ s = c :: rest := by
  cases s with
  | nil => simp [expectChar]
  | cons d s => by_cases hd : d = c <;> simp [expectChar, hd]

theorem skipSpaces_ahead (next : List Char) (h : skipSpaces s = next ++ z :: rest) :
    ∃ spaces, s = spaces ++ (next ++ z :: rest) ∧ (∀ c ∈ spaces, isSpace c = true) ∧
      ∀ rest', skipSpaces (spaces ++ (next ++ z :: rest')) = next ++ z :: rest' := by
  refine ⟨s.takeWhile isSpace, ?_, List.all_eq_true.mp List.all_takeWhile, ?_⟩
  · rw [← h, skipSpaces, List.takeWhile_append_dropWhile]
  · intro rest'
    exact (dropWhile_ahead h rest').2

theorem readName_ahead {n : String} (next : List Char)
    (h : readName s = .ok (n, next ++ z :: rest)) :
    ∃ name, s = name ++ (next ++ z :: rest) ∧
      ∀ rest', readName (name ++ (next ++ z :: rest')) = .ok (n, next ++ z :: rest') := by
  unfold readName at h
  split at h
  · rename_i hbegins
    simp only [Except.ok.injEq, Prod.mk.injEq] at h
    obtain ⟨rfl, hdrop⟩ := h
    have hbegins' : beginsName (s.takeWhile isNameChar) = true := by
      cases s with
      | nil => cases hbegins
      | cons c s =>
        rw [List.takeWhile_cons_of_pos (isNameChar_of_isNameStart hbegins)]
        exact hbegins
    refine ⟨s.takeWhile isNameChar, ?_, ?_⟩
    · rw [← hdrop, List.takeWhile_append_dropWhile]
    · intro rest'
      obtain ⟨htake, hrest⟩ := dropWhile_ahead hdrop rest'
      rw [readName, if_pos (beginsName_append hbegins'), htake, hrest]
  · cases h

/-- A qualified name begins with a character that begins no other markup. -/
theorem readQualifiedName_ahead {n : QName} (next : List Char)
    (h : readQualifiedName s = .ok (n, next ++ z :: rest)) :
    ∃ c name, s = c :: name ++ (next ++ z :: rest) ∧ isNameChar c = true ∧
      ∀ rest', readQualifiedName (c :: name ++ (next ++ z :: rest')) =
        .ok (n, next ++ z :: rest') := by
  unfold readQualifiedName at h
  split at h
  · rename_i n' hrun
    simp only [Except.ok.injEq, Prod.mk.injEq] at h
    obtain ⟨rfl, hdrop⟩ := h
    cases htake : s.takeWhile isNameChar with
    | nil =>
      rw [htake] at hrun
      cases hrun
    | cons c name =>
      have hchars : ∀ d ∈ s.takeWhile isNameChar, isNameChar d = true :=
        List.all_eq_true.mp List.all_takeWhile
      refine ⟨c, name, ?_, hchars c (htake ▸ List.mem_cons_self), ?_⟩
      · rw [← htake, ← hdrop, List.takeWhile_append_dropWhile]
      · intro rest'
        obtain ⟨htake', hrest⟩ := dropWhile_ahead hdrop rest'
        rw [← htake, readQualifiedName, htake', hrun, hrest]
  · cases h

theorem readWhile_ahead {p : Char → Bool} {run : List Char} (next : List Char)
    (h : readWhile p s = .ok (run, next ++ z :: rest)) :
    s = run ++ (next ++ z :: rest) ∧
      ∀ rest', readWhile p (run ++ (next ++ z :: rest')) = .ok (run, next ++ z :: rest') := by
  obtain ⟨hchars, rfl, hdrop⟩ := readWhile_eq_ok.mp h
  constructor
  · rw [hdrop, List.takeWhile_append_dropWhile]
  · intro rest'
    obtain ⟨htake, hrest⟩ := dropWhile_ahead hdrop.symm rest'
    rw [readWhile_eq_ok, htake, hrest]
    exact ⟨hchars, rfl, rfl⟩

/-- What is read up to a mark does not hold it. -/
theorem not_infix_breakAt {mark : List Char} (hmark : mark ≠ []) (s : List Char) :
    ¬ mark <:+: (breakAt mark s).1 := by
  induction s with
  | nil => simpa [breakAt] using hmark
  | cons c s ih =>
    unfold breakAt
    split
    · simpa using hmark
    · rename_i hbegins
      rw [List.isPrefixOf_iff_prefix] at hbegins
      simp only [Prod.map_fst, List.infix_cons_iff, not_or]
      refine ⟨?_, ih⟩
      intro hmark
      apply hbegins
      apply hmark.trans
      rw [List.prefix_cons_inj]
      exact ⟨_, breakAt_append mark s⟩

/-- What is read up to a mark and with it is read so whatever follows the mark. -/
theorem readThrough_ahead (init : List Char) {run : List Char} (hz : z ∉ init)
    (h : readThrough (init ++ [z]) s = .ok (run, rest)) :
    s = run ++ (init ++ z :: rest) ∧
      ∀ rest', readThrough (init ++ [z]) (run ++ (init ++ z :: rest')) = .ok (run, rest') := by
  obtain ⟨happend, hchars⟩ := readThrough_eq_ok h
  have hrun : ¬ init ++ [z] <:+: run := by
    simp only [readThrough, bind_eq_ok, pure_eq_ok, Prod.exists, Prod.mk.injEq] at h
    obtain ⟨run', tail, hcheck, rest', -, rfl, -⟩ := h
    rw [(checkRun_eq_ok.mp hcheck).2.1]
    exact not_infix_breakAt (by simp) s
  constructor
  · simp [← happend]
  · intro rest'
    have hread := readThrough_mark hz hrun hchars rest'
    simpa using hread

/-- Whether pieces can be told from a run does not depend on what follows the run. -/
theorem readPieces_after {after : Nat} {run : List Char} {pieces : List Piece}
    (h : readPieces after run = .ok pieces) (after' : Nat) :
    readPieces after' run = .ok pieces := by
  fun_induction readPieces after run generalizing pieces with
  | case1 =>
    rw [readPieces]
    exact h
  | case2 c s hamp d rest href ih =>
    obtain ⟨read, hread, rfl⟩ := map_eq_ok.mp h
    rw [readPieces, if_pos hamp]
    split
    · rename_i d' rest' href'
      rw [href] at href'
      cases href'
      rw [ih hread]
      rfl
    · simp_all
    · simp_all
  | case3 => cases h
  | case4 => cases h
  | case5 c s hamp ih =>
    obtain ⟨read, hread, rfl⟩ := map_eq_ok.mp h
    rw [readPieces, if_neg hamp, ih hread]
    rfl

theorem openingQuote_eq_ok {quote : Char} (h : openingQuote s = .ok (quote, rest)) :
    s = quote :: rest ∧ ∀ rest', openingQuote (quote :: rest') = .ok (quote, rest') := by
  unfold openingQuote at h
  split at h
  · cases h
  · split at h
    · rename_i hquote
      cases h
      exact ⟨rfl, fun rest' => by rw [openingQuote, if_pos hquote]⟩
    · cases h

/-- An attribute is read up to the quote that ends its value. -/
theorem readAttribute_ahead {a : QName × List Char} (h : readAttribute s = .ok (a, rest)) :
    ∃ c front quote, isNameChar c = true ∧ s = c :: front ++ quote :: rest ∧
      ∀ rest', readAttribute (c :: front ++ quote :: rest') = .ok (a, rest') := by
  simp only [readAttribute, bind_eq_ok, pure_eq_ok, Prod.exists, Prod.mk.injEq] at h
  obtain ⟨n, s₁, hname, s₂, heq, quote, s₃, hquote, value, s₄, hvalue, s₅, hend, rfl, rfl⟩ := h
  obtain rfl := expectChar_eq_ok.mp hend
  obtain ⟨rfl, hvalue'⟩ := readWhile_ahead [] hvalue
  obtain ⟨hskip₂, hquote'⟩ := openingQuote_eq_ok hquote
  obtain ⟨spaces₂, rfl, -, hspaces₂⟩ := skipSpaces_ahead (quote :: value) hskip₂
  obtain ⟨spaces₁, rfl, -, hspaces₁⟩ :=
    skipSpaces_ahead ('=' :: spaces₂ ++ quote :: value) (by simpa using expectChar_eq_ok.mp heq)
  obtain ⟨c, name, rfl, hc, hname'⟩ :=
    readQualifiedName_ahead (spaces₁ ++ '=' :: spaces₂ ++ quote :: value)
      (by simpa using hname)
  refine ⟨c, name ++ spaces₁ ++ '=' :: spaces₂ ++ quote :: value, quote, hc, by simp, ?_⟩
  intro rest'
  have hname := hname' rest'
  have hskip₁ := hspaces₁ rest'
  have hskip₂ := hspaces₂ rest'
  have hvalue := hvalue' rest'
  simp only [List.append_assoc, List.cons_append, List.nil_append] at hname hskip₁ hskip₂ hvalue ⊢
  simp only [readAttribute, bind, Except.bind, hname, hskip₁, expectChar_eq_ok.mpr rfl, hskip₂,
    hquote', hvalue, pure, Except.pure]

/-- An attribute without its place, which only faults are told by. -/
def Attribute.unplaced (a : Attribute) : Attribute :=
  { a with place := 0 }

def Attributes.unplaced (found : Attributes) : Attributes :=
  { found with others := found.others.map Attribute.unplaced }

def TagItem.unplaced : TagItem → TagItem
  | .next a => .next a.unplaced
  | .finish isEmpty => .finish isEmpty

theorem readDecodedAttribute_ahead {a : Attribute} (h : readDecodedAttribute s = .ok (a, rest)) :
    ∃ c front quote, isNameChar c = true ∧ s = c :: front ++ quote :: rest ∧
      ∀ rest', ∃ a', readDecodedAttribute (c :: front ++ quote :: rest') = .ok (a', rest') ∧
        a'.unplaced = a.unplaced := by
  simp only [readDecodedAttribute, bind_eq_ok, pure_eq_ok, Prod.exists, Prod.mk.injEq] at h
  obtain ⟨n, written, rest, hread, run, hrun, rfl, rfl⟩ := h
  obtain ⟨c, front, quote, hc, rfl, hread'⟩ := readAttribute_ahead hread
  refine ⟨c, front, quote, hc, rfl, ?_⟩
  intro rest'
  refine ⟨⟨n, attributeText run, (c :: front ++ quote :: rest').length⟩, ?_, rfl⟩
  simp only [readDecodedAttribute, bind, Except.bind, hread', readPieces_after hrun, pure,
    Except.pure]

theorem readTagItem_attribute {c : Char} {tail : List Char} (hskip : skipSpaces s = c :: tail)
    (hgt : c ≠ '>') (hslash : c ≠ '/') (hspace : s.head?.any isSpace = true) :
    readTagItem s = (readDecodedAttribute (c :: tail)).map fun (a, rest) => (.next a, rest) := by
  unfold readTagItem
  rw [hskip]
  split
  · simp_all
  · simp_all
  · simp_all
  · rename_i heq
    rw [← heq, if_pos hspace]

theorem readTagItem_ahead {i : TagItem} (h : readTagItem s = .ok (i, rest)) :
    ∃ front last, s = front ++ last :: rest ∧
      (∀ isEmpty, i = .finish isEmpty → last = '>') ∧
      ∀ rest', ∃ i', readTagItem (front ++ last :: rest') = .ok (i', rest') ∧
        i'.unplaced = i.unplaced := by
  unfold readTagItem at h
  split at h
  · cases h
  · rename_i tail hskip
    cases h
    obtain ⟨spaces, rfl, -, hspaces⟩ := skipSpaces_ahead [] hskip
    refine ⟨spaces, '>', rfl, fun _ _ => rfl, ?_⟩
    intro rest'
    refine ⟨.finish false, ?_, rfl⟩
    rw [readTagItem, show skipSpaces (spaces ++ '>' :: rest') = _ from hspaces rest']
    rfl
  · rename_i tail hskip
    obtain ⟨rest, hend, hitem⟩ := map_eq_ok.mp h
    cases hitem
    obtain rfl := expectChar_eq_ok.mp hend
    obtain ⟨spaces, rfl, -, hspaces⟩ := skipSpaces_ahead ['/'] hskip
    refine ⟨spaces ++ ['/'], '>', by simp, fun _ _ => rfl, ?_⟩
    intro rest'
    have hskip' : skipSpaces (spaces ++ ['/'] ++ '>' :: rest') = '/' :: '>' :: rest' := by
      simpa using hspaces rest'
    refine ⟨.finish true, ?_, rfl⟩
    rw [readTagItem, hskip']
    rfl
  · rename_i c tail hgt hslash hskip
    split at h
    · rename_i hspace
      obtain ⟨⟨a, rest⟩, hread, hitem⟩ := map_eq_ok.mp h
      cases hitem
      obtain ⟨d, front, quote, hd, hs, hread'⟩ := readDecodedAttribute_ahead hread
      obtain ⟨rfl, rfl⟩ := List.cons.inj hs
      obtain ⟨spaces, rfl, -, hspaces⟩ := skipSpaces_ahead (c :: front) hskip
      refine ⟨spaces ++ c :: front, quote, by simp, by simp, ?_⟩
      intro rest'
      obtain ⟨a', ha', hplace⟩ := hread' rest'
      refine ⟨.next a', ?_, congrArg TagItem.next hplace⟩
      have hskip' : skipSpaces (spaces ++ c :: front ++ quote :: rest') =
          c :: (front ++ quote :: rest') := by
        simpa using hspaces rest'
      have hspace' : (spaces ++ c :: front ++ quote :: rest').head?.any isSpace = true := by
        cases spaces <;> simpa using hspace
      rw [readTagItem_attribute hskip' hgt hslash hspace']
      rw [List.cons_append] at ha'
      rw [ha']
      rfl
    · cases h

theorem toOption_bind {ε α β : Type} (x : Except ε α) (f : α → Except ε β) :
    (x >>= f).toOption = x.toOption.bind fun a => (f a).toOption := by
  cases x <;> rfl

theorem toOption_eq_some {ε α : Type} {x : Except ε α} {a : α} :
    x.toOption = some a ↔ x = .ok a := by
  cases x <;> simp [Except.toOption]

theorem Attributes.declareQualifier_unplaced (found : Attributes) (a : Attribute) :
    (found.declareQualifier a).toOption.map unplaced =
      (found.unplaced.declareQualifier a.unplaced).toOption := by
  dsimp only [declareQualifier, unplaced, Attribute.unplaced]
  split_ifs <;> rfl

theorem Attributes.declareDefault_unplaced (found : Attributes) (a : Attribute) :
    (found.declareDefault a).toOption.map unplaced =
      (found.unplaced.declareDefault a.unplaced).toOption := by
  dsimp only [declareDefault, Attribute.unplaced]
  split_ifs <;> rfl

/-- Attributes are told apart by their names and values, wherever they stand. -/
theorem Attributes.add_unplaced (found : Attributes) (a : Attribute) :
    (found.add a).toOption.map unplaced = (found.unplaced.add a.unplaced).toOption := by
  have hname : a.unplaced.name = a.name := rfl
  rw [add, add, hname]
  split_ifs
  · exact declareQualifier_unplaced found a
  · exact declareDefault_unplaced found a
  · simp [unplaced, Except.toOption]

theorem Attributes.add_ahead {found other added : Attributes} {a b : Attribute}
    (hfound : other.unplaced = found.unplaced) (ha : b.unplaced = a.unplaced)
    (h : found.add a = .ok added) :
    ∃ added', other.add b = .ok added' ∧ added'.unplaced = added.unplaced := by
  have hadd : (other.add b).toOption.map unplaced = some added.unplaced := by
    rw [add_unplaced, hfound, ha, ← add_unplaced, h]
    rfl
  cases hother : other.add b with
  | error fault => simp [hother, Except.toOption] at hadd
  | ok added' => exact ⟨added', rfl, by simpa [hother, Except.toOption] using hadd⟩

theorem Scope.resolve_unplaced (scope : Scope) (qualifier : String) (place place' : Nat) :
    (scope.resolve qualifier place).toOption = (scope.resolve qualifier place').toOption := by
  unfold resolve
  split
  · rfl
  · split <;> rfl

theorem Scope.resolveAttribute_unplaced (scope : Scope) (a : Attribute) :
    (scope.resolveAttribute a.unplaced).toOption = (scope.resolveAttribute a).toOption := by
  obtain ⟨n, value, place⟩ := a
  change (scope.resolveAttribute ⟨n, value, 0⟩).toOption = _
  unfold resolveAttribute
  split
  · rfl
  · split
    · rfl
    · exact resolve_unplaced scope _ _ _

theorem Scope.checkAttributes_unplaced (scope : Scope) (seen : List ExpandedName)
    (as : List Attribute) : (scope.checkAttributes seen (as.map Attribute.unplaced)).toOption =
      (scope.checkAttributes seen as).toOption := by
  induction as generalizing seen with
  | nil => rfl
  | cons a as ih =>
    have hname : a.unplaced.name = a.name := rfl
    rw [List.map_cons, checkAttributes, checkAttributes, toOption_bind, toOption_bind,
      resolveAttribute_unplaced, hname]
    apply congrArg
    funext uri
    by_cases hseen : seen.contains ⟨uri, a.name.localPart⟩ = true
    · rw [if_pos hseen, if_pos hseen]
      rfl
    · rw [if_neg hseen, if_neg hseen]
      exact ih _

theorem StartTag.resolve_unplaced (outer : Scope) (written : QName) (found : Attributes)
    (isEmpty : Bool) (place : Nat) :
    (resolve outer written found.unplaced isEmpty 0).toOption =
      (resolve outer written found isEmpty place).toOption := by
  simp only [resolve, toOption_bind, Attributes.unplaced, Scope.checkAttributes_unplaced,
    Scope.resolve_unplaced _ _ 0 place]

theorem StartTag.resolve_ahead {outer : Scope} {written : QName} {found other : Attributes}
    {isEmpty : Bool} {place : Nat} {tag : StartTag} (hother : other.unplaced = found.unplaced)
    (h : resolve outer written found isEmpty place = .ok tag) (place' : Nat) :
    resolve outer written other isEmpty place' = .ok tag := by
  rw [← toOption_eq_some, ← resolve_unplaced, hother, resolve_unplaced _ _ _ _ place, h]
  rfl

theorem isEmpty_of_readTagItem {i : TagItem} (h : readTagItem s = .ok (i, rest)) :
    s.isEmpty = false := by
  cases s with
  | nil => cases h
  | cons c s => rfl

theorem readAttributes_finish {found : Attributes} {isEmpty : Bool}
    (h : readTagItem s = .ok (.finish isEmpty, rest)) :
    readAttributes found s = .ok (some ((found, isEmpty), rest)) := by
  rw [readAttributes, isEmpty_of_readTagItem h, if_neg Bool.false_ne_true]
  split <;> simp_all

theorem readAttributes_item {found added : Attributes} {a : Attribute}
    (h : readTagItem s = .ok (.next a, rest)) (hadd : found.add a = .ok added) :
    readAttributes found s = readAttributes added rest := by
  rw [readAttributes, isEmpty_of_readTagItem h, if_neg Bool.false_ne_true]
  split <;> simp_all

/-- The attributes of a start tag are read up to the end of the tag. -/
theorem readAttributes_ahead {found read : Attributes} {isEmpty : Bool}
    (h : readAttributes found s = .ok (some ((read, isEmpty), rest))) :
    ∃ front, s = front ++ '>' :: rest ∧
      ∀ rest' other, other.unplaced = found.unplaced → ∃ read',
        readAttributes other (front ++ '>' :: rest') = .ok (some ((read', isEmpty), rest')) ∧
          read'.unplaced = read.unplaced := by
  fun_induction readAttributes found s with
  | case1 => cases h
  | case2 => cases h
  | case3 found s hs isEmpty' tail hitem =>
    simp only [Except.ok.injEq, Option.some.injEq, Prod.mk.injEq] at h
    obtain ⟨⟨rfl, rfl⟩, rfl⟩ := h
    obtain ⟨front, last, rfl, hlast, hitem'⟩ := readTagItem_ahead hitem
    obtain rfl := hlast _ rfl
    refine ⟨front, rfl, ?_⟩
    intro rest' other hother
    obtain ⟨i', hread, hi'⟩ := hitem' rest'
    refine ⟨other, ?_, hother⟩
    cases i' with
    | next a => cases hi'
    | finish isEmpty'' =>
      cases hi'
      exact readAttributes_finish hread
  | case4 => cases h
  | case5 found s hs a tail hitem added hadd ih =>
    obtain ⟨front', rfl, hrest⟩ := ih h
    obtain ⟨front, last, rfl, -, hitem'⟩ := readTagItem_ahead hitem
    refine ⟨front ++ last :: front', by simp, ?_⟩
    intro rest' other hother
    obtain ⟨i', hread, hi'⟩ := hitem' (front' ++ '>' :: rest')
    cases i' with
    | finish isEmpty'' => cases hi'
    | next a' =>
      obtain ⟨added', hadd', hadded⟩ := Attributes.add_ahead hother (TagItem.next.inj hi') hadd
      obtain ⟨read', hread', hunplaced⟩ := hrest rest' added' hadded
      refine ⟨read', ?_, hunplaced⟩
      rw [List.append_assoc, List.cons_append, readAttributes_item hread hadd', hread']

theorem readStartTag_eq_ok {outer : Scope} {tag : StartTag} :
    readStartTag outer s = .ok (some (tag, rest)) ↔ ∃ written after found isEmpty,
      readQualifiedName s = .ok (written, after) ∧ written.qualifier ≠ "xmlns" ∧
        readAttributes {} after = .ok (some ((found, isEmpty), rest)) ∧
        StartTag.resolve outer written found isEmpty s.length = .ok tag := by
  constructor
  · intro h
    simp only [readStartTag, bind_eq_ok, Prod.exists] at h
    obtain ⟨written, after, hname, h⟩ := h
    split at h
    · cases h
    · rename_i hxmlns
      obtain ⟨read, hread, h⟩ := bind_eq_ok.mp h
      split at h
      · cases h
      · obtain ⟨tag, htag, h⟩ := bind_eq_ok.mp h
        cases h
        exact ⟨written, after, _, _, hname, by simpa using hxmlns, hread, htag⟩
  · intro h
    obtain ⟨written, after, found, isEmpty, hname, hxmlns, hread, htag⟩ := h
    simp only [readStartTag, bind, Except.bind, hname, beq_iff_eq, hxmlns, hread, htag, pure,
      Except.pure, if_false]

theorem readStartTag_ahead {outer : Scope} {tag : StartTag}
    (h : readStartTag outer s = .ok (some (tag, rest))) :
    ∃ c front, isNameChar c = true ∧ s = c :: front ++ '>' :: rest ∧
      ∀ rest', readStartTag outer (c :: front ++ '>' :: rest') = .ok (some (tag, rest')) := by
  obtain ⟨written, after, found, isEmpty, hname, hxmlns, hfound, htag⟩ := readStartTag_eq_ok.mp h
  obtain ⟨front, rfl, hread⟩ := readAttributes_ahead hfound
  obtain ⟨c, name, rfl, hc, hname'⟩ := readQualifiedName_ahead _ hname
  refine ⟨c, name ++ front, hc, by simp, ?_⟩
  intro rest'
  obtain ⟨found', hfound', hunplaced⟩ := hread rest' {} rfl
  have hname := hname' rest'
  simp only [List.append_assoc, List.cons_append] at hname ⊢
  exact readStartTag_eq_ok.mpr ⟨written, _, found', isEmpty, hname, hxmlns, hfound',
    StartTag.resolve_ahead hunplaced htag _⟩

theorem readEndTag_ahead {n : QName} (h : readEndTag s = .ok (n, rest)) :
    ∃ front, s = front ++ '>' :: rest ∧
      ∀ rest', readEndTag (front ++ '>' :: rest') = .ok (n, rest') := by
  simp only [readEndTag, bind_eq_ok, pure_eq_ok, Prod.exists, Prod.mk.injEq] at h
  obtain ⟨n, s₁, hname, s₂, hend, rfl, rfl⟩ := h
  obtain ⟨spaces, rfl, -, hspaces⟩ := skipSpaces_ahead [] (expectChar_eq_ok.mp hend)
  obtain ⟨c, name, rfl, -, hname'⟩ := readQualifiedName_ahead spaces hname
  refine ⟨c :: name ++ spaces, by simp, ?_⟩
  intro rest'
  have hname := hname' rest'
  have hskip := hspaces rest'
  simp only [List.append_assoc, List.cons_append, List.nil_append] at hname hskip ⊢
  simp only [readEndTag, bind, Except.bind, hname, hskip, expectChar_eq_ok.mpr rfl, pure,
    Except.pure]

end SocialPayload.Xml
