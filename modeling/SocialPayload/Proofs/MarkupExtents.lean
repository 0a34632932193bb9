import SocialPayload.Proofs.TagExtents
import SocialPayload.Proofs.WrittenElements

namespace SocialPayload.Xml

variable {s next rest : List Char} {z : Char}

theorem readComment_ahead {n : Node} (h : readComment s = .ok (n, rest)) :
    ∃ front, s = front ++ '>' :: rest ∧
      ∀ rest', readComment (front ++ '>' :: rest') = .ok (n, rest') := by
  simp only [readComment, bind_eq_ok, Prod.exists] at h
  obtain ⟨body, tail, hread, h⟩ := h
  split at h
  · cases h
  · rename_i hhyphens
    cases h
    obtain ⟨rfl, hread'⟩ := readThrough_ahead ['-', '-'] (by decide) hread
    refine ⟨body ++ ['-', '-'], by simp, ?_⟩
    intro rest'
    have hbody : readThrough commentClose (body ++ ['-', '-'] ++ '>' :: rest') =
        .ok (body, rest') := by
      simpa [commentClose] using hread' rest'
    simp only [readComment, bind, Except.bind, hbody, if_neg hhyphens, pure, Except.pure]

theorem readInstruction_ahead {n : Node} (h : readInstruction s = .ok (n, rest)) :
    ∃ front, s = front ++ '>' :: rest ∧
      ∀ rest', readInstruction (front ++ '>' :: rest') = .ok (n, rest') := by
  unfold readInstruction at h
  split at h
  · cases h
  · rename_i hdeclaration
    simp only [bind_eq_ok, pure_eq_ok, Prod.exists, Prod.mk.injEq] at h
    obtain ⟨target, s₁, hname, body, s₂, hbody, rfl, rfl⟩ := h
    obtain ⟨hskip, hbody'⟩ := readThrough_ahead ['?'] (by decide) hbody
    obtain ⟨spaces, rfl, -, hspaces⟩ := skipSpaces_ahead (body ++ ['?']) (by simpa using hskip)
    obtain ⟨name, rfl, hname'⟩ :=
      readName_ahead (spaces ++ body ++ ['?']) (by simpa using hname)
    refine ⟨name ++ spaces ++ body ++ ['?'], by simp, ?_⟩
    intro rest'
    have hname : readName (name ++ spaces ++ body ++ ['?'] ++ '>' :: rest') =
        .ok (target, spaces ++ (body ++ ['?'] ++ '>' :: rest')) := by
      simpa using hname' rest'
    have hbody : readThrough instructionClose (body ++ ['?'] ++ '>' :: rest') =
        .ok (body, rest') := by
      simpa [instructionClose] using hbody' rest'
    have hdeclaration' : ¬ ['x', 'm', 'l', ' '].isPrefixOf
        (name ++ spaces ++ body ++ ['?'] ++ '>' :: rest') = true := by
      have hassoc : name ++ (spaces ++ body ++ ['?'] ++ '>' :: s₂) =
          name ++ spaces ++ body ++ ['?'] ++ '>' :: s₂ := by simp
      rwa [hassoc, isPrefixOf_ahead (by decide) _ _ rest'] at hdeclaration
    rw [readInstruction, if_neg hdeclaration']
    simp only [bind, Except.bind, hname, hspaces rest', hbody, pure, Except.pure]

theorem readCdata_ahead {n : Node} (h : readCdata s = .ok (n, rest)) :
    ∃ front, s = front ++ '>' :: rest ∧
      ∀ rest', readCdata (front ++ '>' :: rest') = .ok (n, rest') := by
  simp only [readCdata, bind_eq_ok, pure_eq_ok, Prod.exists, Prod.mk.injEq] at h
  obtain ⟨run, tail, hread, rfl, rfl⟩ := h
  obtain ⟨rfl, hread'⟩ := readThrough_ahead [']', ']'] (by decide) hread
  refine ⟨run ++ [']', ']'], by simp, ?_⟩
  intro rest'
  have hrun : readThrough cdataClose (run ++ [']', ']'] ++ '>' :: rest') = .ok (run, rest') := by
    simpa [cdataClose] using hread' rest'
  simp only [readCdata, bind, Except.bind, hrun, pure, Except.pure]

theorem readCharacters_ahead {n : Node} (h : readCharacters s = .ok (n, next ++ z :: rest)) :
    ∃ run, s = run ++ (next ++ z :: rest) ∧
      ∀ rest', readCharacters (run ++ (next ++ z :: rest')) = .ok (n, next ++ z :: rest') := by
  simp only [readCharacters, bind_eq_ok, Prod.exists] at h
  obtain ⟨run, tail, hread, h⟩ := h
  split at h
  · cases h
  · rename_i hclose
    simp only [bind_eq_ok, pure_eq_ok, Prod.mk.injEq] at h
    obtain ⟨pieces, hpieces, rfl, rfl⟩ := h
    obtain ⟨rfl, hread'⟩ := readWhile_ahead _ hread
    refine ⟨run, rfl, ?_⟩
    intro rest'
    simp only [readCharacters, bind, Except.bind, hread' rest', if_neg hclose,
      readPieces_after hpieces, pure, Except.pure]

def Item.unplaced : Item → Item
  | .leaf n => .leaf n
  | .opening tag => .opening tag
  | .closing name _ => .closing name 0

theorem ne_of_isNameChar {c d : Char} (hc : isNameChar c = true) (hd : isNameChar d = false) :
    d ≠ c := by
  rintro rfl
  rw [hd] at hc
  cases hc

theorem readMarkup_comment (scope : Scope) (s : List Char) :
    readMarkup scope (commentOpen ++ s) = (readComment s).map (some <| leafOf ·) := rfl

theorem readMarkup_cdata (scope : Scope) (s : List Char) :
    readMarkup scope (cdataOpen ++ s) = (readCdata s).map (some <| leafOf ·) := rfl

theorem readMarkup_instruction (scope : Scope) (s : List Char) :
    readMarkup scope (instructionOpen ++ s) = (readInstruction s).map (some <| leafOf ·) := rfl

theorem readMarkup_endTag (scope : Scope) (s : List Char) :
    readMarkup scope ('<' :: '/' :: s) = (readEndTag s).map fun (name, rest) =>
      some (.closing name (s.length + 2), rest) := rfl

theorem readMarkup_startTag (scope : Scope) {c : Char} (hc : isNameChar c = true) (s : List Char) :
    readMarkup scope ('<' :: c :: s) =
      (readStartTag scope (c :: s)).map (·.map fun (tag, rest) => (.opening tag, rest)) := by
  have hbang : '!' ≠ c := ne_of_isNameChar hc (by decide)
  have hquery : '?' ≠ c := ne_of_isNameChar hc (by decide)
  have hslash : '/' ≠ c := ne_of_isNameChar hc (by decide)
  simp [readMarkup, commentOpen, cdataOpen, instructionOpen, List.isPrefixOf, hbang, hquery, hslash]

theorem eq_append_of_isPrefixOf {mark s : List Char} (h : mark.isPrefixOf s = true) :
    s = mark ++ s.drop mark.length :=
  (List.prefix_iff_eq_append.mp (List.isPrefixOf_iff_prefix.mp h)).symm

/-- Markup that is a node of its own is read up to its `>` when what follows its mark is. -/
theorem leafMarkup_ahead {scope : Scope} {mark tail : List Char} (hmark : mark = '<' :: tail)
    (hbegins : mark.isPrefixOf ('<' :: s) = true)
    {read : List Char → Except Fault (Node × List Char)}
    (hdispatch : ∀ s, readMarkup scope (mark ++ s) = (read s).map (some <| leafOf ·))
    (hread : ∀ {s rest n}, read s = .ok (n, rest) → ∃ front, s = front ++ '>' :: rest ∧
      ∀ rest', read (front ++ '>' :: rest') = .ok (n, rest'))
    {i : Item} (h : readMarkup scope ('<' :: s) = .ok (some (i, rest))) :
    ∃ front, s = front ++ '>' :: rest ∧ ∀ rest', ∃ i',
      readMarkup scope ('<' :: front ++ '>' :: rest') = .ok (some (i', rest')) ∧
        i'.unplaced = i.unplaced := by
  have hs := eq_append_of_isPrefixOf hbegins
  rw [hs, hdispatch] at h
  obtain ⟨⟨n, tail'⟩, hn, hitem⟩ := map_eq_ok.mp h
  cases hitem
  obtain ⟨front, hfront, hread'⟩ := hread hn
  rw [hfront, hmark] at hs
  refine ⟨tail ++ front, by simpa using hs, ?_⟩
  intro rest'
  refine ⟨.leaf n, ?_, rfl⟩
  have hagain := hdispatch (front ++ '>' :: rest')
  rw [hread', hmark] at hagain
  rw [List.cons_append, List.append_assoc]
  exact hagain

/-- Markup is read up to the `>` that ends it. -/
theorem readMarkup_ahead {scope : Scope} {i : Item}
    (h : readMarkup scope ('<' :: s) = .ok (some (i, rest))) :
    ∃ front, s = front ++ '>' :: rest ∧ ∀ rest', ∃ i',
      readMarkup scope ('<' :: front ++ '>' :: rest') = .ok (some (i', rest')) ∧
        i'.unplaced = i.unplaced := by
  have hmarkup := h
  unfold readMarkup at h
  split at h
  · rename_i hmark
    exact leafMarkup_ahead rfl hmark (readMarkup_comment scope) readComment_ahead hmarkup
  split at h
  · rename_i hmark
    exact leafMarkup_ahead rfl hmark (readMarkup_cdata scope) readCdata_ahead hmarkup
  split at h
  · cases h
  split at h
  · rename_i hmark
    exact leafMarkup_ahead rfl hmark (readMarkup_instruction scope) readInstruction_ahead hmarkup
  split at h
  · rename_i hmark
    obtain ⟨⟨n, tail⟩, hread, hitem⟩ := map_eq_ok.mp h
    cases hitem
    obtain ⟨front, hfront, hread'⟩ := readEndTag_ahead hread
    have hs := eq_append_of_isPrefixOf hmark
    rw [show List.drop ['<', '/'].length ('<' :: s) = _ from hfront] at hs
    refine ⟨['/'] ++ front, (List.cons.inj hs).2, ?_⟩
    intro rest'
    refine ⟨.closing n ((front ++ '>' :: rest').length + 2), ?_, rfl⟩
    change readMarkup scope ('<' :: '/' :: (front ++ '>' :: rest')) = _
    rw [readMarkup_endTag, hread']
    rfl
  split at h
  · cases h
  · obtain ⟨tag, htag, hitem⟩ := map_eq_ok.mp h
    obtain ⟨⟨tag, tail⟩, rfl, hitem⟩ := Option.map_eq_some_iff.mp hitem
    cases hitem
    obtain ⟨c, front, hc, hs, hread⟩ := readStartTag_ahead htag
    refine ⟨c :: front, hs, ?_⟩
    intro rest'
    refine ⟨.opening tag, ?_, rfl⟩
    have htag' : readStartTag scope (c :: (front ++ '>' :: rest')) = .ok (some (tag, rest')) :=
      hread rest'
    change readMarkup scope ('<' :: c :: (front ++ '>' :: rest')) = _
    rw [readMarkup_startTag scope hc, htag']
    rfl

theorem Item.eq_of_unplaced {i i' : Item} (h : i'.unplaced = i.unplaced)
    (hi : ∀ n place, i ≠ .closing n place) : i' = i := by
  cases i with
  | closing n place => exact absurd rfl (hi n place)
  | leaf | opening =>
    cases i' <;> cases h
    rfl

/-- What stands before markup in content is read in the same way whatever follows that markup. -/
theorem readItem_ahead {scope : Scope} {i : Item} (hi : ∀ n place, i ≠ .closing n place)
    (h : readItem scope s = .ok (some (i, next ++ '>' :: rest))) :
    ∃ front, s = front ++ (next ++ '>' :: rest) ∧ ∀ rest',
      readItem scope (front ++ (next ++ '>' :: rest')) =
        .ok (some (i, next ++ '>' :: rest')) := by
  unfold readItem at h
  split at h
  · cases h
  · rename_i c tail
    split at h
    · rename_i hc
      obtain rfl := beq_iff_eq.mp hc
      obtain ⟨front, rfl, hread⟩ := readMarkup_ahead h
      refine ⟨'<' :: front ++ ['>'], by simp, ?_⟩
      intro rest'
      obtain ⟨i', hi', hplace⟩ := hread (next ++ '>' :: rest')
      rw [← Item.eq_of_unplaced hplace hi, ← hi']
      simp [readItem]
    · rename_i hc
      obtain ⟨⟨n, rest''⟩, hread, hitem⟩ := map_eq_ok.mp h
      cases hitem
      obtain ⟨run, hs, hread'⟩ := readCharacters_ahead hread
      refine ⟨run, hs, ?_⟩
      intro rest'
      obtain ⟨d, tail', htail', hd⟩ : ∃ d tail', run ++ (next ++ '>' :: rest') = d :: tail' ∧
          ¬ (d == '<') = true := by
        cases run with
        | nil =>
          cases next with
          | nil => exact ⟨'>', rest', rfl, by decide⟩
          | cons d next => exact ⟨d, _, rfl, by cases hs; exact hc⟩
        | cons d run => exact ⟨d, _, rfl, by cases hs; exact hc⟩
      rw [htail', readItem, if_neg hd, ← htail', hread']
      rfl

theorem readItem_closing_ahead {scope : Scope} {n : QName} {place : Nat}
    (h : readItem scope s = .ok (some (.closing n place, rest))) :
    ∃ front, s = front ++ '>' :: rest ∧ ∀ rest', ∃ place',
      readItem scope (front ++ '>' :: rest') = .ok (some (.closing n place', rest')) := by
  unfold readItem at h
  split at h
  · cases h
  · rename_i c tail
    split at h
    · rename_i hc
      obtain rfl := beq_iff_eq.mp hc
      obtain ⟨front, rfl, hread⟩ := readMarkup_ahead h
      refine ⟨'<' :: front, rfl, ?_⟩
      intro rest'
      obtain ⟨i', hi', hplace⟩ := hread rest'
      cases i' with
      | leaf n => cases hplace
      | opening tag => cases hplace
      | closing n' place' =>
        cases hplace
        exact ⟨place', hi'⟩
    · obtain ⟨⟨n, rest''⟩, hread, hitem⟩ := map_eq_ok.mp h
      cases hitem

theorem readContent_empty {inner : OpenElement} {outer : List OpenElement} {s rest : List Char}
    {tag : StartTag} (h : readItem inner.tag.scope s = .ok (some (.opening tag, rest)))
    (ht : tag.isEmpty = true) :
    readContent inner outer s = readContent (inner.push (.element tag.name [])) outer rest := by
  rw [readContent]
  split <;> simp_all

/-- Content is read up to the end of the end tag of the outermost open element. -/
theorem readContent_ahead {inner : OpenElement} {outer : List OpenElement} {root : Element}
    (h : readContent inner outer s = .ok (root, rest)) :
    ∃ front, s = front ++ '>' :: rest ∧
      ∀ rest', readContent inner outer (front ++ '>' :: rest') = .ok (root, rest') := by
  fun_induction readContent inner outer s with
  | case1 => cases h
  | case2 => cases h
  | case3 inner outer s n tail hitem ih =>
    obtain ⟨front', rfl, hrest⟩ := ih h
    obtain ⟨front, rfl, hread⟩ := readItem_ahead (by simp) hitem
    refine ⟨front ++ front', by simp, ?_⟩
    intro rest'
    rw [List.append_assoc, readContent_leaf (hread rest'), hrest]
  | case4 inner outer s tag tail hitem hempty ih =>
    obtain ⟨front', rfl, hrest⟩ := ih h
    obtain ⟨front, rfl, hread⟩ := readItem_ahead (by simp) hitem
    refine ⟨front ++ front', by simp, ?_⟩
    intro rest'
    rw [List.append_assoc, readContent_empty (hread rest') hempty, hrest]
  | case5 inner outer s tag tail hitem hempty ih =>
    obtain ⟨front', rfl, hrest⟩ := ih h
    obtain ⟨front, rfl, hread⟩ := readItem_ahead (by simp) hitem
    refine ⟨front ++ front', by simp, ?_⟩
    intro rest'
    rw [List.append_assoc, readContent_opening (hread rest') (by simpa using hempty), hrest]
  | case6 => cases h
  | case7 inner s n place tail hitem hname =>
    cases h
    obtain rfl : n = inner.tag.written := by simpa using hname
    obtain ⟨front, rfl, hread⟩ := readItem_closing_ahead hitem
    refine ⟨front, rfl, ?_⟩
    intro rest'
    obtain ⟨place', hclose⟩ := hread rest'
    exact readContent_end hclose
  | case8 inner s n place tail hitem hname parent outer ih =>
    obtain rfl : n = inner.tag.written := by simpa using hname
    obtain ⟨front', rfl, hrest⟩ := ih h
    obtain ⟨front, rfl, hread⟩ := readItem_closing_ahead hitem
    refine ⟨front ++ '>' :: front', by simp, ?_⟩
    intro rest'
    obtain ⟨place', hclose⟩ := hread (front' ++ '>' :: rest')
    rw [List.append_assoc, List.cons_append, readContent_closing hclose, hrest]

theorem readRoot_startTag {tag : StartTag} (h : readStartTag [] s = .ok (some (tag, rest))) :
    readRoot ('<' :: s) = if tag.isEmpty then .ok (some ⟨tag.name, []⟩, rest)
      else (readContent { tag } [] rest).map fun (root, rest) => (some root, rest) := by
  rw [readRoot, if_pos (by rfl), List.drop_one, List.tail_cons, h]
  simp only [bind, Except.bind]
  split
  · rfl
  · cases readContent { tag } [] rest <;> rfl

theorem exists_startTag_of_readRoot {root : Element} (h : readRoot s = .ok (some root, rest)) :
    ∃ s' tag tail, s = '<' :: s' ∧ readStartTag [] s' = .ok (some (tag, tail)) := by
  unfold readRoot at h
  split at h
  · rename_i hmark
    obtain ⟨opened, htag, h⟩ := bind_eq_ok.mp h
    cases opened with
    | none => cases h
    | some opened => exact ⟨_, _, _, eq_append_of_isPrefixOf hmark, htag⟩
  · cases h

/-- The root is read up to the end of its last tag. -/
theorem readRoot_ahead {root : Element} (h : readRoot s = .ok (some root, rest)) :
    ∃ front, s = front ++ '>' :: rest ∧
      ∀ rest', readRoot (front ++ '>' :: rest') = .ok (some root, rest') := by
  obtain ⟨s, tag, tail, rfl, htag⟩ := exists_startTag_of_readRoot h
  rw [readRoot_startTag htag] at h
  obtain ⟨c, front, -, rfl, hread⟩ := readStartTag_ahead htag
  split at h
  · rename_i hempty
    cases h
    refine ⟨'<' :: c :: front, rfl, ?_⟩
    intro rest'
    exact (readRoot_startTag (hread rest')).trans (if_pos hempty)
  · rename_i hempty
    obtain ⟨⟨root, rest⟩, hcontent, h⟩ := map_eq_ok.mp h
    cases h
    obtain ⟨front', rfl, hcontent'⟩ := readContent_ahead hcontent
    refine ⟨'<' :: c :: front ++ '>' :: front', by simp, ?_⟩
    intro rest'
    have hroot := readRoot_startTag (hread (front' ++ '>' :: rest'))
    rw [if_neg hempty, hcontent'] at hroot
    simpa [Except.map] using hroot

end SocialPayload.Xml
