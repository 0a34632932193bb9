import SocialPayload.Xml.Character
import SocialPayload.Xml.Error

namespace SocialPayload.Xml

/-- The first byte of a character in UTF-8, shown as the character of that number. -/
def leadByte (c : Char) : Char :=
  let n := c.toNat
  if n < 0x80 then c
  else if n < 0x800 then Char.ofNat (0xC0 + n / 0x40)
  else if n < 0x10000 then Char.ofNat (0xE0 + n / 0x1000)
  else Char.ofNat (0xF0 + n / 0x40000)

def skipSpaces (s : List Char) : List Char :=
  s.dropWhile isSpace

/-- Drops the one character that has to come next. -/
def expectChar (c : Char) : List Char → Except Fault (List Char)
  | [] => .error .unexpectedEnd
  | d :: s => if d == c then .ok s else .error (.expectedCharacter c (leadByte d) (s.length + 1))

/-- Drops the mark that has to come next. -/
def expectMark (mark s : List Char) : Except Fault (List Char) :=
  if mark.isPrefixOf s then .ok (s.drop mark.length)
  else .error (.expectedText (String.ofList mark) s.length)

/-- Passes on a run of characters if the document may hold each of them. -/
def checkRun (run rest : List Char) : Except Fault (List Char × List Char) :=
  match run.dropWhile isXmlChar with
  | [] => .ok (run, rest)
  | c :: after => .error (.invalidCharacter c (after.length + 1 + rest.length))

/-- Parts a text before the first place where `mark` begins, or at its end. -/
def breakAt (mark : List Char) : List Char → List Char × List Char
  | [] => ([], [])
  | c :: s =>
    if mark.isPrefixOf (c :: s) then ([], c :: s)
    else (breakAt mark s).map (c :: ·) id

/-- Reads the characters before `mark`, and the mark. -/
def readThrough (mark s : List Char) : Except Fault (List Char × List Char) := do
  let (run, rest) ← checkRun (breakAt mark s).1 (breakAt mark s).2
  let rest ← expectMark mark rest
  return (run, rest)

/-- Reads the characters for which `p` holds. -/
def readWhile (p : Char → Bool) (s : List Char) : Except Fault (List Char × List Char) :=
  checkRun (s.takeWhile p) (s.dropWhile p)

theorem bind_eq_ok {x : Except ε α} {f : α → Except ε β} {b : β} :
    (x >>= f) = .ok b ↔ ∃ a, x = .ok a ∧ f a = .ok b := by
  cases x <;> simp [bind, Except.bind]

theorem map_eq_ok {x : Except ε α} {f : α → β} {b : β} :
    x.map f = .ok b ↔ ∃ a, x = .ok a ∧ f a = b := by
  cases x <;> simp [Except.map]

theorem pure_eq_ok {a b : α} : (pure a : Except ε α) = .ok b ↔ a = b := by
  simp [pure, Except.pure]

theorem length_dropWhile_le (p : Char → Bool) (s : List Char) :
    (s.dropWhile p).length ≤ s.length :=
  (List.dropWhile_suffix p).length_le

theorem length_skipSpaces_le (s : List Char) : (skipSpaces s).length ≤ s.length :=
  length_dropWhile_le isSpace s

theorem expectChar_length {c : Char} {s rest : List Char} (h : expectChar c s = .ok rest) :
    rest.length < s.length := by
  unfold expectChar at h
  split at h
  · cases h
  · split at h
    · cases h
      simp
    · cases h

theorem expectMark_eq_ok {mark s rest : List Char} :
    expectMark mark s = .ok rest ↔ mark ++ rest = s := by
  unfold expectMark
  split
  · rename_i h
    have happend := List.prefix_iff_eq_append.mp (List.isPrefixOf_iff_prefix.mp h)
    constructor
    · rintro ⟨⟩
      exact happend
    · rintro rfl
      simp
  · rename_i h
    simp only [reduceCtorEq, false_iff]
    rintro rfl
    exact h (List.isPrefixOf_iff_prefix.mpr (List.prefix_append mark rest))

theorem dropWhile_eq_nil {p : Char → Bool} {s : List Char} :
    s.dropWhile p = [] ↔ ∀ c ∈ s, p c = true := by
  induction s with
  | nil => simp
  | cons c s ih => by_cases h : p c = true <;> simp [h, ih]

theorem checkRun_eq_ok {run rest run' rest' : List Char} :
    checkRun run rest = .ok (run', rest') ↔
      (∀ c ∈ run, isXmlChar c = true) ∧ run' = run ∧ rest' = rest := by
  unfold checkRun
  split
  · rename_i h
    simp only [Except.ok.injEq, Prod.mk.injEq]
    exact ⟨fun e => ⟨dropWhile_eq_nil.mp h, e.1.symm, e.2.symm⟩, fun e => ⟨e.2.1.symm, e.2.2.symm⟩⟩
  · rename_i c after h
    simp only [reduceCtorEq, false_iff]
    rintro ⟨hall, -⟩
    rw [dropWhile_eq_nil.mpr hall] at h
    cases h

theorem breakAt_append (mark s : List Char) : (breakAt mark s).1 ++ (breakAt mark s).2 = s := by
  induction s with
  | nil => rfl
  | cons c s ih =>
    unfold breakAt
    split
    · rfl
    · simpa using ih

theorem readThrough_eq_ok {mark s run rest : List Char} (h : readThrough mark s = .ok (run, rest)) :
    run ++ mark ++ rest = s ∧ ∀ c ∈ run, isXmlChar c = true := by
  simp only [readThrough, bind_eq_ok, pure_eq_ok, Prod.exists, Prod.mk.injEq] at h
  obtain ⟨run', tail, hrun, rest', hmark, rfl, rfl⟩ := h
  obtain ⟨hall, rfl, rfl⟩ := checkRun_eq_ok.mp hrun
  refine ⟨?_, hall⟩
  rw [List.append_assoc, expectMark_eq_ok.mp hmark, breakAt_append]

theorem readThrough_length_le {mark s run rest : List Char}
    (h : readThrough mark s = .ok (run, rest)) : rest.length ≤ s.length := by
  have := congrArg List.length (readThrough_eq_ok h).1
  simp only [List.length_append] at this
  omega

theorem readWhile_eq_ok {p : Char → Bool} {s run rest : List Char} :
    readWhile p s = .ok (run, rest) ↔
      (∀ c ∈ s.takeWhile p, isXmlChar c = true) ∧ run = s.takeWhile p ∧ rest = s.dropWhile p :=
  checkRun_eq_ok

end SocialPayload.Xml
