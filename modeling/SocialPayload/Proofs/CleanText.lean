import SocialPayload.Proofs.ElementTree
import SocialPayload.Proofs.Escapes
import SocialPayload.Xml.Document

namespace SocialPayload.Xml

theorem isXmlChar_iff {c : Char} : isXmlChar c = true ↔
    (c.toNat < 0x20 → c = '\t' ∨ c = '\n' ∨ c = '\r') ∧ c.toNat ≠ 0xFFFE ∧ c.toNat ≠ 0xFFFF := by
  unfold isXmlChar
  split
  · rename_i hlow
    have hhigh : c.toNat ≠ 0xFFFE ∧ c.toNat ≠ 0xFFFF := by omega
    simp [hlow, hhigh, or_assoc]
  · rename_i hlow
    simp [hlow]

/-- Whether a document may hold each of some characters. -/
def IsClean (run : List Char) : Prop :=
  ∀ c ∈ run, isXmlChar c = true

theorem IsClean.of_suffix {run rest : List Char} (h : IsClean run) (hrest : rest <:+ run) :
    IsClean rest :=
  fun c hc => h c (hrest.mem hc)

theorem charOfDigits?_clean {base : Nat} {digits : List Char} {c : Char}
    (h : charOfDigits? base digits = some c) : isXmlChar c = true := by
  simp only [charOfDigits?, Option.ite_none_left_eq_some, Option.some.injEq, Bool.or_eq_true,
    not_or, Bool.not_eq_true', Bool.not_eq_false] at h
  exact h.2 ▸ h.1.2

theorem charOfName?_clean {name : String} {c : Char} (h : charOfName? name = some c) :
    isXmlChar c = true := by
  unfold charOfName? at h
  split at h
  all_goals
    cases h
    try decide

theorem endReference_eq_ok {c d : Char} {s rest : List Char}
    (h : endReference c s = .ok (d, rest)) : d = c ∧ s = ';' :: rest := by
  unfold endReference at h
  split at h
  · cases h
    exact ⟨rfl, rfl⟩
  · cases h

theorem endReference_reads {c d : Char} {s rest : List Char} (hc : isXmlChar c = true)
    (h : endReference c s = .ok (d, rest)) : isXmlChar d = true ∧ rest <:+ s := by
  obtain ⟨rfl, rfl⟩ := endReference_eq_ok h
  exact ⟨hc, List.suffix_cons ';' rest⟩

theorem readNumeric_reads {base : Nat} {p : Char → Bool} {s rest : List Char} {c : Char}
    (h : readNumeric base p s = .ok (c, rest)) : isXmlChar c = true ∧ rest <:+ s := by
  unfold readNumeric at h
  split at h
  · rename_i d hd
    obtain ⟨hc, hrest⟩ := endReference_reads (charOfDigits?_clean hd) h
    exact ⟨hc, hrest.trans (List.dropWhile_suffix p)⟩
  · cases h

theorem readNamed_reads {s rest : List Char} {c : Char} (h : readNamed s = .ok (c, rest)) :
    isXmlChar c = true ∧ rest <:+ s := by
  unfold readNamed at h
  split at h
  · cases h
  · rename_i name tail hname
    have htail : tail <:+ s := by
      unfold readName at hname
      split at hname
      · cases hname
        exact List.dropWhile_suffix isNameChar
      · cases hname
    split at h
    · rename_i d hd
      obtain ⟨hc, hrest⟩ := endReference_reads (charOfName?_clean hd) h
      exact ⟨hc, hrest.trans htail⟩
    · split at h <;> cases h

/-- A reference stands for a character that may as well be written out, and reads on in the run. -/
theorem readReference_reads {s rest : List Char} {c : Char}
    (h : readReference s = .ok (c, rest)) : isXmlChar c = true ∧ rest <:+ s := by
  unfold readReference at h
  split at h
  · obtain ⟨hc, hrest⟩ := readNumeric_reads h
    exact ⟨hc, (hrest.trans (List.suffix_cons 'x' _)).trans (List.suffix_cons '#' _)⟩
  · obtain ⟨hc, hrest⟩ := readNumeric_reads h
    exact ⟨hc, hrest.trans (List.suffix_cons '#' _)⟩
  · exact readNamed_reads h

theorem readPieces_clean {after : Nat} {run : List Char} {pieces : List Piece} (hrun : IsClean run)
    (h : readPieces after run = .ok pieces) : IsClean (pieces.map Piece.char) := by
  fun_induction readPieces after run generalizing pieces with
  | case1 =>
    cases h
    exact hrun
  | case2 c s hamp d rest href ih =>
    obtain ⟨hd, hrest⟩ := readReference_reads href
    obtain ⟨read, hread, rfl⟩ := map_eq_ok.mp h
    have hclean := ih (hrun.of_suffix (hrest.trans (List.suffix_cons c s))) hread
    exact List.forall_mem_cons.mpr ⟨hd, hclean⟩
  | case3 => cases h
  | case4 => cases h
  | case5 c s hamp ih =>
    obtain ⟨hc, hs⟩ := List.forall_mem_cons.mp hrun
    obtain ⟨read, hread, rfl⟩ := map_eq_ok.mp h
    exact List.forall_mem_cons.mpr ⟨hc, ih hs hread⟩

theorem mem_heldBack {held : Bool} {c : Char} (h : c ∈ heldBack held) : c = '\r' := by
  cases held with
  | true => exact List.mem_singleton.mp h
  | false => cases h

/-- Line ends are all that a text has besides the characters of its pieces. -/
theorem mem_joinLines {raw held : Bool} {run : List Piece} {c : Char}
    (h : c ∈ joinLines raw held run) : c = '\r' ∨ c = '\n' ∨ c ∈ run.map Piece.char := by
  induction run generalizing raw held with
  | nil => exact .inl (mem_heldBack h)
  | cons p run ih =>
    have htail : ∀ {raw held}, c ∈ joinLines raw held run →
        c = '\r' ∨ c = '\n' ∨ c ∈ (p :: run).map Piece.char := by
      intro raw held h
      exact (ih h).imp_right (Or.imp_right (List.mem_cons_of_mem _))
    have hcons : ∀ {raw held}, c ∈ p.char :: joinLines raw held run →
        c = '\r' ∨ c = '\n' ∨ c ∈ (p :: run).map Piece.char := by
      intro raw held h
      rcases List.mem_cons.mp h with rfl | h
      · exact .inr (.inr List.mem_cons_self)
      · exact htail h
    cases p with
    | reference d =>
      rcases List.mem_append.mp h with h | h
      · exact .inl (mem_heldBack h)
      · split at h
        · exact htail h
        · exact hcons h
    | literal d =>
      have hended : c ∈ (if held = true then ['\n'] else []) →
          c = '\r' ∨ c = '\n' ∨ c ∈ (Piece.literal d :: run).map Piece.char := by
        intro h
        cases held with
        | true => exact .inr (.inl (List.mem_singleton.mp h))
        | false => cases h
      simp only [joinLines] at h
      generalize (if held = true then ['\n'] else []) = ended at h hended
      split at h
      · rcases List.mem_append.mp h with h | h
        · exact .inl (mem_heldBack h)
        · split at h
          · exact htail h
          · exact hcons h
      · split at h
        · rcases List.mem_append.mp h with h | h
          · exact hended h
          · exact .inr (.inl (List.mem_singleton.mp h))
        · split at h
          · exact (List.mem_append.mp h).elim hended htail
          · split at h
            · exact (List.mem_append.mp h).elim hended htail
            · exact (List.mem_append.mp h).elim hended hcons

theorem runText_clean {run : List Piece} (h : IsClean (run.map Piece.char)) :
    IsClean (runText run).toList := by
  rw [runText, String.toList_ofList]
  intro c hc
  rcases mem_joinLines hc with rfl | rfl | hc
  · decide
  · decide
  · exact h c hc

/-- Whether a document may hold each character of the texts in a node, at any depth. -/
inductive Node.IsClean : Node → Prop
  | element (name : ExpandedName) {content : List Node} (inside : ∀ n ∈ content, n.IsClean) :
      IsClean (.element name content)
  | text {characters : String} (clean : Xml.IsClean characters.toList) :
      IsClean (.text characters)
  | comment (body : String) : IsClean (.comment body)
  | instruction (target body : String) : IsClean (.instruction target body)

theorem Node.IsClean.characters {n : Node} (h : n.IsClean) : Xml.IsClean n.characters := by
  cases h with
  | text clean => exact clean
  | element | comment | instruction =>
    intro c hc
    cases hc

theorem Node.IsClean.content {e : Element} (h : e.toNode.IsClean) : ∀ n ∈ e.content, n.IsClean := by
  cases h with
  | element _ inside => exact inside

/-- In a clean tree each element has a clean text. -/
theorem Node.IsClean.text_elements {root : Element} (h : root.toNode.IsClean) :
    ∀ e ∈ root.elements, Xml.IsClean e.text.toList := by
  induction root using Element.induction with
  | step root ih =>
    intro e he
    rcases Element.mem_elements.mp he with rfl | ⟨c, hc, he⟩
    · intro d hd
      rw [Element.text, String.toList_ofList] at hd
      obtain ⟨n, hn, hd⟩ := List.mem_flatMap.mp hd
      exact (h.content n hn).characters d hd
    · obtain ⟨n, hn, hchild⟩ := List.mem_filterMap.mp hc
      have hclean : c.toNode.IsClean := Node.eq_toNode hchild ▸ h.content n hn
      exact ih c hc hclean e he

theorem readComment_clean {s rest : List Char} {n : Node} (h : readComment s = .ok (n, rest)) :
    n.IsClean := by
  simp only [readComment, bind_eq_ok, Prod.exists] at h
  obtain ⟨body, tail, -, h⟩ := h
  split at h
  · cases h
  · cases h
    exact .comment _

theorem readInstruction_clean {s rest : List Char} {n : Node}
    (h : readInstruction s = .ok (n, rest)) : n.IsClean := by
  unfold readInstruction at h
  split at h
  · cases h
  · simp only [bind_eq_ok, pure_eq_ok, Prod.exists, Prod.mk.injEq] at h
    obtain ⟨target, s₁, -, body, s₂, -, rfl, -⟩ := h
    exact .instruction _ _

theorem readCdata_clean {s rest : List Char} {n : Node} (h : readCdata s = .ok (n, rest)) :
    n.IsClean := by
  simp only [readCdata, bind_eq_ok, pure_eq_ok, Prod.exists, Prod.mk.injEq] at h
  obtain ⟨run, tail, hrun, rfl, -⟩ := h
  have hclean : IsClean run := (readThrough_eq_ok hrun).2
  have hchars : (run.map Piece.literal).map Piece.char = run := by
    rw [List.map_map]
    exact List.map_id run
  exact .text (runText_clean (hchars.symm ▸ hclean))

theorem readCharacters_clean {s rest : List Char} {n : Node}
    (h : readCharacters s = .ok (n, rest)) : n.IsClean := by
  simp only [readCharacters, bind_eq_ok, Prod.exists] at h
  obtain ⟨run, tail, hrun, h⟩ := h
  split at h
  · cases h
  · simp only [bind_eq_ok, pure_eq_ok, Prod.mk.injEq] at h
    obtain ⟨pieces, hpieces, rfl, -⟩ := h
    obtain ⟨hclean, rfl, -⟩ := readWhile_eq_ok.mp hrun
    exact .text (runText_clean (readPieces_clean hclean hpieces))

theorem map_leafOf_eq_ok {read : Except Fault (Node × List Char)} {n : Node} {rest : List Char}
    (h : read.map (some <| leafOf ·) = .ok (some (.leaf n, rest))) : read = .ok (n, rest) := by
  obtain ⟨⟨n', rest'⟩, hread, hleaf⟩ := map_eq_ok.mp h
  cases hleaf
  exact hread

theorem readMarkup_clean {scope : Scope} {s rest : List Char} {n : Node}
    (h : readMarkup scope s = .ok (some (.leaf n, rest))) : n.IsClean := by
  unfold readMarkup at h
  split at h
  · exact readComment_clean (map_leafOf_eq_ok h)
  split at h
  · exact readCdata_clean (map_leafOf_eq_ok h)
  split at h
  · cases h
  split at h
  · exact readInstruction_clean (map_leafOf_eq_ok h)
  split at h
  · obtain ⟨closing, -, hitem⟩ := map_eq_ok.mp h
    cases hitem
  split at h
  · cases h
  · obtain ⟨opening, -, hitem⟩ := map_eq_ok.mp h
    obtain ⟨tag, -, hitem⟩ := Option.map_eq_some_iff.mp hitem
    cases hitem

theorem readItem_clean {scope : Scope} {s rest : List Char} {n : Node}
    (h : readItem scope s = .ok (some (.leaf n, rest))) : n.IsClean := by
  unfold readItem at h
  split at h
  · cases h
  · split at h
    · exact readMarkup_clean h
    · exact readCharacters_clean (map_leafOf_eq_ok h)

namespace OpenElement

/-- Whether what has been read of the content of an element is clean. -/
def IsClean (e : OpenElement) : Prop :=
  ∀ n ∈ e.content, n.IsClean

theorem IsClean.push {e : OpenElement} {n : Node} (he : e.IsClean) (hn : n.IsClean) :
    (e.push n).IsClean :=
  List.forall_mem_cons.mpr ⟨hn, he⟩

theorem IsClean.close {e : OpenElement} (he : e.IsClean) : e.close.toNode.IsClean := by
  apply Node.IsClean.element
  intro n hn
  exact he n (List.mem_reverse.mp hn)

theorem isClean_new (tag : StartTag) : IsClean { tag } := by
  intro n hn
  cases hn

end OpenElement

/-- What is read stays clean from item to item, in all elements whose end is still to come. -/
theorem readContent_clean {inner : OpenElement} {outer : List OpenElement} {s rest : List Char}
    {root : Element} (hinner : inner.IsClean) (houter : ∀ e ∈ outer, e.IsClean)
    (h : readContent inner outer s = .ok (root, rest)) : root.toNode.IsClean := by
  fun_induction readContent inner outer s with
  | case1 => cases h
  | case2 => cases h
  | case3 inner outer s n tail hitem ih =>
    exact ih (hinner.push (readItem_clean hitem)) houter h
  | case4 inner outer s tag tail hitem hempty ih =>
    exact ih (hinner.push (.element _ (by simp))) houter h
  | case5 inner outer s tag tail hitem hempty ih =>
    exact ih (OpenElement.isClean_new tag) (List.forall_mem_cons.mpr ⟨hinner, houter⟩) h
  | case6 => cases h
  | case7 inner s name place tail hitem hname =>
    cases h
    exact hinner.close
  | case8 inner s name place tail hitem hname parent outer ih =>
    obtain ⟨hparent, houter⟩ := List.forall_mem_cons.mp houter
    exact ih (hparent.push hinner.close) houter h

theorem readRoot_clean {s rest : List Char} {root : Element}
    (h : readRoot s = .ok (some root, rest)) : root.toNode.IsClean := by
  unfold readRoot at h
  split at h
  · obtain ⟨opened, -, h⟩ := bind_eq_ok.mp h
    split at h
    · cases h
    · rename_i tag tail
      split at h
      · cases h
        exact .element _ (by simp)
      · obtain ⟨⟨read, rest'⟩, hread, h⟩ := bind_eq_ok.mp h
        cases h
        exact readContent_clean (OpenElement.isClean_new tag) (by simp) hread
  · cases h

/-- In a document that has been read, each element has a clean text. -/
theorem Document.parse_clean {text : String} {document : Document}
    (h : Document.parse text = .ok document) :
    ∀ e ∈ document.root.elements, IsClean e.text.toList := by
  rw [Document.parse_eq_ok, readDocument_eq_ok] at h
  obtain ⟨start, rest, -, hroot, -⟩ := h
  exact (readRoot_clean hroot).text_elements

end SocialPayload.Xml
