import SocialPayload.Proofs.Escapes
import SocialPayload.Proofs.WrittenNames

namespace SocialPayload.Xml

theorem holdsMark_eq_false {mark run : List Char} (h : ¬ mark <:+: run) :
    holdsMark mark run = false := by
  have hbreak : (breakAt mark run).2 = [] := by
    induction run with
    | nil => rfl
    | cons c run ih =>
      have hbegins : mark.isPrefixOf (c :: run) = false := by
        rw [Bool.eq_false_iff, ne_eq, List.isPrefixOf_iff_prefix]
        exact fun hmark => h hmark.isInfix
      have hrest := ih fun hmark => h (List.infix_cons hmark)
      simp [breakAt, hbegins, hrest]
  simp [holdsMark, hbreak]

/-- A mark whose last character is nowhere else in it does not begin in a run to end after it. -/
theorem prefix_of_prefix_append {init run rest : List Char} {z : Char} (hz : z ∉ init)
    (hne : run ≠ []) (h : init ++ [z] <+: run ++ (init ++ [z] ++ rest)) : init ++ [z] <+: run := by
  by_cases hlength : init.length < run.length
  · apply List.prefix_of_prefix_length_le h (List.prefix_append run _)
    rw [List.length_append, List.length_singleton]
    omega
  · have hpositive := List.length_pos_iff.mpr hne
    obtain ⟨tail, htail⟩ := h
    have hlast : (init ++ [z] ++ rest)[init.length - run.length]? = some z := by
      rw [← List.getElem?_append_right (by omega), ← htail]
      simp
    rw [List.append_assoc, List.getElem?_append_left (by omega)] at hlast
    exact absurd (List.mem_of_getElem? hlast) hz

theorem breakAt_mark {init run : List Char} {z : Char} (hz : z ∉ init)
    (hrun : ¬ init ++ [z] <:+: run) (rest : List Char) :
    breakAt (init ++ [z]) (run ++ (init ++ [z] ++ rest)) = (run, init ++ [z] ++ rest) := by
  induction run with
  | nil =>
    obtain ⟨c, s, hcs⟩ := List.exists_cons_of_ne_nil (List.append_ne_nil_of_right_ne_nil init
      (List.cons_ne_nil z []))
    rw [List.nil_append, hcs, List.cons_append, breakAt, if_pos (by simp)]
  | cons c run ih =>
    have hrest := ih fun hmark => hrun (List.infix_cons hmark)
    have hbegins : (init ++ [z]).isPrefixOf (c :: (run ++ (init ++ [z] ++ rest))) = false := by
      rw [Bool.eq_false_iff, ne_eq, List.isPrefixOf_iff_prefix]
      intro hmark
      exact hrun (prefix_of_prefix_append hz (List.cons_ne_nil c run) hmark).isInfix
    rw [List.cons_append, breakAt, if_neg (by rw [hbegins]; decide), hrest]
    rfl

/-- A run that does not hold the mark is read up to the mark. -/
theorem readThrough_mark {init run : List Char} {z : Char} (hz : z ∉ init)
    (hrun : ¬ init ++ [z] <:+: run) (hchars : ∀ c ∈ run, isXmlChar c = true) (rest : List Char) :
    readThrough (init ++ [z]) (run ++ (init ++ [z] ++ rest)) = .ok (run, rest) := by
  have hcheck : checkRun run (init ++ [z] ++ rest) = .ok (run, init ++ [z] ++ rest) :=
    checkRun_eq_ok.mpr ⟨hchars, rfl, rfl⟩
  have hmark : expectMark (init ++ [z]) (init ++ [z] ++ rest) = .ok rest := expectMark_eq_ok.mpr rfl
  rw [readThrough, breakAt_mark hz hrun]
  simp only [hcheck, bind, Except.bind, hmark, pure, Except.pure]

theorem readCdata_written {run : List Char} (hchars : ∀ c ∈ run, isXmlChar c = true)
    (hplain : '\r' ∉ run) (hclose : ¬ cdataClose <:+: run) (rest : List Char) :
    readCdata (run ++ (cdataClose ++ rest)) = .ok (.text (String.ofList run), rest) := by
  have hread : readThrough cdataClose (run ++ (cdataClose ++ rest)) = .ok (run, rest) :=
    @readThrough_mark [']', ']'] run '>' (by decide) hclose hchars rest
  have htext := runText_plain (isPlain_literals hplain)
  simp [readCdata, hread, bind, Except.bind, pure, Except.pure, htext, Function.comp_def, Piece.char]

theorem readComment_written {body : List Char} (hchars : ∀ c ∈ body, isXmlChar c = true)
    (hhyphens : ¬ ['-', '-'] <:+: body) (hends : body.getLast? ≠ some '-') (rest : List Char) :
    readComment (body ++ (commentClose ++ rest)) = .ok (.comment (String.ofList body), rest) := by
  have hclose : ¬ commentClose <:+: body := fun hmark =>
    hhyphens ((List.prefix_append ['-', '-'] ['>']).isInfix.trans hmark)
  have hread : readThrough commentClose (body ++ (commentClose ++ rest)) = .ok (body, rest) :=
    @readThrough_mark ['-', '-'] body '>' (by decide) hclose hchars rest
  simp [readComment, hread, bind, Except.bind, pure, Except.pure, holdsMark_eq_false hhyphens, hends]

/-- A name is read up to a character that belongs to no name. -/
theorem readName_written {target : List Char}
    (hname : beginsName target = true ∧ ∀ c ∈ target, isNameChar c = true) {c : Char}
    (hc : isNameChar c = false) (s : List Char) :
    readName (target ++ c :: s) = .ok (String.ofList target, c :: s) := by
  rw [readName, if_pos (beginsName_append hname.1), List.takeWhile_append_of_pos hname.2,
    List.dropWhile_append_of_pos hname.2]
  simp [hc]

theorem readInstruction_written {target body : List Char}
    (hname : beginsName target = true ∧ ∀ c ∈ target, isNameChar c = true)
    (hreserved : target ≠ ['x', 'm', 'l']) (hparted : ∀ c ∈ body.head?, isSpace c = true)
    (hchars : ∀ c ∈ body, isXmlChar c = true) (hclose : ¬ instructionClose <:+: body)
    (rest : List Char) :
    readInstruction (target ++ (body ++ (instructionClose ++ rest))) =
      .ok (.instruction (String.ofList target) (String.ofList (skipSpaces body)), rest) := by
  obtain ⟨c, s, hcs, hc⟩ : ∃ c s, body ++ (instructionClose ++ rest) = c :: s ∧
      isNameChar c = false := by
    cases body with
    | nil => exact ⟨_, _, rfl, by decide⟩
    | cons c body => exact ⟨_, _, rfl, isNameChar_of_isSpace (hparted c rfl)⟩
  have htarget := readName_written hname hc s
  have hunreserved : ['x', 'm', 'l', ' '].isPrefixOf (target ++ c :: s) = false := by
    rw [Bool.eq_false_iff, ne_eq, List.isPrefixOf_iff_prefix]
    rintro ⟨tail, htail⟩
    have hrun := congrArg (List.takeWhile isNameChar) htail
    have hxml : (['x', 'm', 'l', ' '] ++ tail).takeWhile isNameChar = ['x', 'm', 'l'] := rfl
    rw [hxml, List.takeWhile_append_of_pos hname.2, List.takeWhile_cons_of_neg (by simp [hc]),
      List.append_nil] at hrun
    exact hreserved hrun.symm
  have hskip : skipSpaces (c :: s) = skipSpaces body ++ (instructionClose ++ rest) := by
    rw [← hcs, skipSpaces, skipSpaces, List.dropWhile_append]
    split
    · simp_all [instructionClose, isSpace]
    · rfl
  have hsuffix : skipSpaces body <:+ body := List.dropWhile_suffix isSpace
  have hread : readThrough instructionClose (skipSpaces body ++ (instructionClose ++ rest)) =
      .ok (skipSpaces body, rest) :=
    @readThrough_mark ['?'] _ '>' (by decide) (fun hmark => hclose (hmark.trans hsuffix.isInfix))
      (fun d hd => hchars d (hsuffix.subset hd)) rest
  rw [hcs, readInstruction, hunreserved]
  simp [htarget, hskip, hread, bind, Except.bind, pure, Except.pure]

end SocialPayload.Xml
