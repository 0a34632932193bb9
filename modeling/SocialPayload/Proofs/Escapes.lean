import SocialPayload.Xml.Markup

namespace SocialPayload.Xml

/-- The characters that a writer does not write as they are, each with the reference it writes, less
the ampersand. -/
structure EscapeTable where
  entries : List (Char × List Char)
  /-- Each reference is read as its character. -/
  sound : ∀ e ∈ entries, ∀ rest, readReference (e.2 ++ rest) = .ok (e.1, rest)
  /-- No reference holds a character that would be escaped, or that no document may hold. -/
  clean : ∀ e ∈ entries, ∀ d ∈ e.2, entries.lookup d = none ∧ isXmlChar d = true
  ampersand : (entries.lookup '&').isSome = true

namespace EscapeTable

theorem clean_of_all {entries : List (Char × List Char)}
    (h : (entries.all fun e => e.2.all fun d => (entries.lookup d).isNone && isXmlChar d) = true) :
    ∀ e ∈ entries, ∀ d ∈ e.2, entries.lookup d = none ∧ isXmlChar d = true := by
  intro e he d hd
  have hentry := List.all_eq_true.mp h e he
  have hchar := List.all_eq_true.mp hentry d hd
  rw [Bool.and_eq_true, Option.isNone_iff_eq_none] at hchar
  exact hchar

def forText : EscapeTable where
  entries := [('&', ['a', 'm', 'p', ';']), ('<', ['l', 't', ';']), ('>', ['g', 't', ';']),
    ('\r', ['#', '1', '3', ';'])]
  sound := by
    intro e he rest
    simp only [List.mem_cons, List.not_mem_nil, or_false] at he
    rcases he with rfl | rfl | rfl | rfl <;> rfl
  clean := clean_of_all (by decide)
  ampersand := rfl

/-- The table for values between double quotes, in which a break would become a space. -/
def forValue : EscapeTable where
  entries := [('"', ['q', 'u', 'o', 't', ';']), ('\t', ['#', '9', ';']),
    ('\n', ['#', '1', '0', ';'])] ++ forText.entries
  sound := by
    intro e he rest
    rcases List.mem_append.mp he with he | he
    · simp only [List.mem_cons, List.not_mem_nil, or_false] at he
      rcases he with rfl | rfl | rfl <;> rfl
    · exact forText.sound e he rest
  clean := clean_of_all (by decide)
  ampersand := rfl

def escapeChar (table : EscapeTable) (c : Char) : List Char :=
  match table.entries.lookup c with
  | some reference => '&' :: reference
  | none => [c]

def escape (table : EscapeTable) (s : String) : List Char :=
  s.toList.flatMap table.escapeChar

end EscapeTable

namespace Piece

/-- The character that a piece stands for. -/
def char : Piece → Char
  | literal c => c
  | reference c => c

/-- Whether a piece stands for its character wherever it is. Literal characters that mean a line end
or a break do not. -/
def IsPlain (breaks : List Char) : Piece → Prop
  | literal c => c ∉ breaks
  | reference _ => True

end Piece

theorem mem_of_lookup {β : Type} {entries : List (Char × β)} {c : Char} {b : β}
    (h : entries.lookup c = some b) : (c, b) ∈ entries := by
  obtain ⟨before, after, rfl, -⟩ := List.lookup_eq_some_iff.mp h
  simp

theorem readPieces_literal (after : Nat) {c : Char} (hc : c ≠ '&') (s : List Char) :
    readPieces after (c :: s) = (readPieces after s).map (.literal c :: ·) := by
  rw [readPieces, if_neg (by simpa using hc)]

theorem readPieces_reference (after : Nat) {c : Char} {s rest : List Char}
    (h : readReference s = .ok (c, rest)) :
    readPieces after ('&' :: s) = (readPieces after rest).map (.reference c :: ·) := by
  rw [readPieces, if_pos (by rfl)]
  split <;> simp_all

/-- Content that is read as plain pieces for the characters of a value, whatever follows it. -/
def ReadsPlain (breaks content value : List Char) : Prop :=
  ∃ run : List Piece, run.map Piece.char = value ∧ (∀ p ∈ run, p.IsPlain breaks) ∧
    ∀ after rest, readPieces after (content ++ rest) = (readPieces after rest).map (run ++ ·)

namespace ReadsPlain

variable {breaks : List Char}

theorem nil : ReadsPlain breaks [] [] := by
  refine ⟨[], rfl, by simp, fun after rest => ?_⟩
  rw [List.nil_append]
  cases readPieces after rest <;> rfl

theorem append {content content' value value' : List Char} (h : ReadsPlain breaks content value)
    (h' : ReadsPlain breaks content' value') :
    ReadsPlain breaks (content ++ content') (value ++ value') := by
  obtain ⟨run, hchars, hplain, hread⟩ := h
  obtain ⟨run', hchars', hplain', hread'⟩ := h'
  refine ⟨run ++ run', by rw [List.map_append, hchars, hchars'],
    List.forall_mem_append.mpr ⟨hplain, hplain'⟩, fun after rest => ?_⟩
  rw [List.append_assoc, hread, hread']
  cases readPieces after rest with
  | error fault => rfl
  | ok rest => simp [Except.map]

theorem flatMap {α : Type} {write value : α → List Char} {items : List α}
    (h : ∀ a ∈ items, ReadsPlain breaks (write a) (value a)) :
    ReadsPlain breaks (items.flatMap write) (items.flatMap value) := by
  induction items with
  | nil => exact nil
  | cons a items ih =>
    obtain ⟨ha, hitems⟩ := List.forall_mem_cons.mp h
    exact ha.append (ih hitems)

theorem literal {c : Char} (hamp : c ≠ '&') (hc : c ∉ breaks) : ReadsPlain breaks [c] [c] :=
  ⟨[.literal c], rfl, by simpa [Piece.IsPlain] using hc,
    fun after rest => readPieces_literal after hamp rest⟩

theorem reference {c : Char} {s : List Char}
    (h : ∀ rest, readReference (s ++ rest) = .ok (c, rest)) : ReadsPlain breaks ('&' :: s) [c] :=
  ⟨[.reference c], rfl, by simp [Piece.IsPlain],
    fun after rest => readPieces_reference after (h rest)⟩

theorem readPieces {content value : List Char} (h : ReadsPlain breaks content value)
    (after : Nat) : ∃ run, Xml.readPieces after content = .ok run ∧ run.map Piece.char = value ∧
      ∀ p ∈ run, p.IsPlain breaks := by
  obtain ⟨run, hchars, hplain, hread⟩ := h
  have hrun := hread after []
  rw [List.append_nil, Xml.readPieces] at hrun
  exact ⟨run, by simpa [Except.map] using hrun, hchars, hplain⟩

end ReadsPlain

namespace EscapeTable

variable {table : EscapeTable}

theorem readsPlain_escapeChar (table : EscapeTable) {breaks : List Char}
    (hbreaks : ∀ c ∈ breaks, (table.entries.lookup c).isSome = true) (c : Char) :
    ReadsPlain breaks (table.escapeChar c) [c] := by
  unfold escapeChar
  cases hc : table.entries.lookup c with
  | some reference => exact .reference (table.sound _ (mem_of_lookup hc))
  | none =>
    have hkept : ∀ d, (table.entries.lookup d).isSome = true → c ≠ d := by
      rintro d hd rfl
      simp [hc] at hd
    exact .literal (hkept _ table.ampersand) fun hb => hkept c (hbreaks c hb) rfl

/-- A written text is read as plain pieces that stand for its characters. -/
theorem readsPlain_escape (table : EscapeTable) {breaks : List Char}
    (hbreaks : ∀ c ∈ breaks, (table.entries.lookup c).isSome = true) (s : String) :
    ReadsPlain breaks (table.escape s) s.toList := by
  have hread : ReadsPlain breaks (table.escape s) (s.toList.flatMap fun c => [c]) :=
    .flatMap fun c _ => table.readsPlain_escapeChar hbreaks c
  rwa [List.flatMap_singleton'] at hread

/-- A written text holds no escaped character but ampersands, and only what a document may hold. -/
theorem mem_escape {s : String} (hs : ∀ c ∈ s.toList, isXmlChar c = true) {d : Char}
    (hd : d ∈ table.escape s) :
    (d = '&' ∨ table.entries.lookup d = none) ∧ isXmlChar d = true := by
  obtain ⟨c, hc, hd⟩ := List.mem_flatMap.mp hd
  unfold escapeChar at hd
  split at hd
  · rename_i reference hr
    rcases List.mem_cons.mp hd with rfl | hd
    · exact ⟨.inl rfl, by decide⟩
    · obtain ⟨hnone, hxml⟩ := table.clean _ (mem_of_lookup hr) d hd
      exact ⟨.inr hnone, hxml⟩
  · rename_i hnone
    rw [List.mem_singleton.mp hd]
    exact ⟨.inr hnone, hs c hc⟩

end EscapeTable

/-- Without literal carriage returns nothing in a run is taken for a line end. A return that is held
back comes from a reference, so that the next character is kept as it is. -/
theorem joinLines_plain (raw held : Bool) (hraw : held = true → raw = true) {run : List Piece}
    (h : ∀ p ∈ run, p.IsPlain ['\r']) :
    joinLines raw held run = heldBack held ++ run.map Piece.char := by
  induction run generalizing raw held with
  | nil => simp [joinLines]
  | cons p run ih =>
    have hrun : ∀ q ∈ run, q.IsPlain ['\r'] := fun q hq => h q (List.mem_cons_of_mem _ hq)
    cases p with
    | reference c =>
      by_cases hc : c = '\r'
      · subst hc
        simp [joinLines, ih true true (by simp) hrun, heldBack, Piece.char]
      · simp [joinLines, hc, ih true false (by simp) hrun, heldBack, Piece.char]
    | literal c =>
      have hc : c ≠ '\r' := by simpa [Piece.IsPlain] using h (.literal c) List.mem_cons_self
      have hrest := ih false false (by simp) hrun
      cases raw with
      | true => simp [joinLines, hc, hrest, heldBack, Piece.char]
      | false =>
        have hheld : held = false := by
          cases held with
          | false => rfl
          | true => exact absurd (hraw rfl) (by simp)
        subst hheld
        simp [joinLines, hc, hrest, heldBack, Piece.char]

theorem runText_plain {run : List Piece} (h : ∀ p ∈ run, p.IsPlain ['\r']) :
    runText run = String.ofList (run.map Piece.char) := by
  simp [runText, joinLines_plain false false (by simp) h, heldBack]

theorem isPlain_literals {run : List Char} (h : '\r' ∉ run) :
    ∀ p ∈ run.map Piece.literal, p.IsPlain ['\r'] := by
  simp only [List.forall_mem_map, Piece.IsPlain, List.mem_singleton]
  rintro c hc rfl
  exact h hc

theorem ReadsPlain.runText {content value : List Char} (h : ReadsPlain ['\r'] content value)
    (after : Nat) :
    ∃ run, Xml.readPieces after content = .ok run ∧ Xml.runText run = String.ofList value := by
  obtain ⟨run, hread, hchars, hplain⟩ := h.readPieces after
  exact ⟨run, hread, by rw [runText_plain hplain, hchars]⟩

theorem flattenBreaks_plain {run : List Piece} (h : ∀ p ∈ run, p.IsPlain ['\t', '\n', '\r']) :
    flattenBreaks run = run.map Piece.char := by
  fun_induction flattenBreaks run with
  | case1 => rfl
  | case2 c run ih => simp [Piece.char, ih fun q hq => h q (List.mem_cons_of_mem _ hq)]
  | case3 run ih =>
    have hcr : '\r' ∉ ['\t', '\n', '\r'] := h (.literal '\r') List.mem_cons_self
    simp at hcr
  | case4 c run _ ih =>
    have hc : c ∉ ['\t', '\n', '\r'] := h (.literal c) List.mem_cons_self
    simp only [List.mem_cons, List.not_mem_nil, or_false, not_or] at hc
    obtain ⟨htab, hlf, hcr⟩ := hc
    have hspace : (if isSpace c then ' ' else c) = c := by
      by_cases hs : c = ' ' <;> simp [isSpace, hs, htab, hlf, hcr]
    simp [Piece.char, hspace, ih fun q hq => h q (List.mem_cons_of_mem _ hq)]

/-- Reading an attribute's value undoes its escapes. -/
theorem readPieces_forValue (after : Nat) (s : String) :
    ∃ run, readPieces after (EscapeTable.forValue.escape s) = .ok run ∧ attributeText run = s := by
  have hplain : ReadsPlain ['\t', '\n', '\r'] (EscapeTable.forValue.escape s) s.toList :=
    EscapeTable.forValue.readsPlain_escape (List.all_eq_true.mp (by decide)) s
  obtain ⟨run, hrun, hchars, hplain⟩ := hplain.readPieces after
  exact ⟨run, hrun, by rw [attributeText, flattenBreaks_plain hplain, hchars, String.ofList_toList]⟩

end SocialPayload.Xml
