import SocialPayload.Xml.Name

namespace SocialPayload.Xml

/-- A character of a run and how it was written. -/
inductive Piece where
  | literal (c : Char)
  | reference (c : Char)
deriving DecidableEq, Repr

/-- Why the text after an ampersand is no reference. -/
inductive ReferenceFault where
  | malformed
  | unknown (name : String)
deriving DecidableEq, Repr

/-- Numbers of characters fit in 32 bits; a longer one is no reference. -/
def maxNumber : Nat := 4294967295

/-- The character of a number. Numbers that no character has give the replacement character. -/
def charOfNumber (n : Nat) : Char :=
  if n.isValidChar then Char.ofNat n else '\uFFFD'

def isHexDigit (c : Char) : Bool :=
  c.isDigit || ('a' ≤ c && c ≤ 'f') || ('A' ≤ c && c ≤ 'F')

def digitValue (c : Char) : Nat :=
  if c.isDigit then c.toNat - '0'.toNat
  else if 'a' ≤ c then c.toNat - 'a'.toNat + 10
  else c.toNat - 'A'.toNat + 10

/-- The number that digits write in a base. -/
def numberOfDigits (base : Nat) (digits : List Char) : Nat :=
  digits.foldl (fun n c => base * n + digitValue c) 0

def charOfDigits? (base : Nat) (digits : List Char) : Option Char :=
  let n := numberOfDigits base digits
  if digits.isEmpty || n > maxNumber || !isXmlChar (charOfNumber n) then none
  else some (charOfNumber n)

def charOfName? : String → Option Char
  | "quot" => some '"'
  | "amp" => some '&'
  | "apos" => some '\''
  | "lt" => some '<'
  | "gt" => some '>'
  | _ => none

/-- Takes the semicolon that ends a reference. -/
def endReference (c : Char) : List Char → Except ReferenceFault (Char × List Char)
  | ';' :: rest => .ok (c, rest)
  | _ => .error .malformed

/-- Reads digits of a base and the semicolon after them. -/
def readNumeric (base : Nat) (isBaseDigit : Char → Bool) (s : List Char) :
    Except ReferenceFault (Char × List Char) :=
  match charOfDigits? base (s.takeWhile isBaseDigit) with
  | some c => endReference c (s.dropWhile isBaseDigit)
  | none => .error .malformed

/-- Reads a name and the semicolon after it. -/
def readNamed (s : List Char) : Except ReferenceFault (Char × List Char) :=
  match readName s with
  | .error _ => .error .malformed
  | .ok (n, rest) =>
    match charOfName? n with
    | some c => endReference c rest
    | none =>
      match rest with
      | ';' :: _ => .error (.unknown n)
      | _ => .error .malformed

/-- Reads what stands between an ampersand and the semicolon after it. -/
def readReference : List Char → Except ReferenceFault (Char × List Char)
  | '#' :: 'x' :: s => readNumeric 16 isHexDigit s
  | '#' :: s => readNumeric 10 Char.isDigit s
  | s => readNamed s

theorem endReference_length {c d : Char} {s rest : List Char}
    (h : endReference c s = .ok (d, rest)) : rest.length < s.length := by
  unfold endReference at h
  split at h
  · cases h
    simp
  · cases h

theorem readNumeric_length {base : Nat} {p : Char → Bool} {s rest : List Char} {c : Char}
    (h : readNumeric base p s = .ok (c, rest)) : rest.length < s.length := by
  unfold readNumeric at h
  split at h
  · exact Nat.lt_of_lt_of_le (endReference_length h) (length_dropWhile_le p s)
  · cases h

theorem readNamed_length {s rest : List Char} {c : Char}
    (h : readNamed s = .ok (c, rest)) : rest.length < s.length := by
  unfold readNamed at h
  split at h
  · cases h
  · rename_i n tail hname
    split at h
    · exact Nat.lt_of_lt_of_le (endReference_length h) (readName_length_le hname)
    · split at h <;> cases h

theorem readReference_length {s rest : List Char} {c : Char}
    (h : readReference s = .ok (c, rest)) : rest.length < s.length := by
  unfold readReference at h
  split at h
  · exact Nat.lt_succ_of_lt (Nat.lt_succ_of_lt (readNumeric_length h))
  · exact Nat.lt_succ_of_lt (readNumeric_length h)
  · exact readNamed_length h

/-- The pieces of a run. `after` characters follow the run in the document. -/
def readPieces (after : Nat) (run : List Char) : Except Fault (List Piece) :=
  match run with
  | [] => .ok []
  | c :: s =>
    if c == '&' then
      match h : readReference s with
      | .ok (d, rest) => (readPieces after rest).map (.reference d :: ·)
      | .error .malformed => .error (.malformedReference (s.length + 1 + after))
      | .error (.unknown n) => .error (.unknownReference n (s.length + 1 + after))
    else (readPieces after s).map (.literal c :: ·)
termination_by run.length
decreasing_by
  · have := readReference_length h
    simp only [List.length_cons]
    omega
  · simp

end SocialPayload.Xml
