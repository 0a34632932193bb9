import Mathlib.Data.Nat.Digits.Defs
import SocialPayload.Xml.Reference

namespace SocialPayload.Xml

/-- The characters that have names. -/
def namedCharacters : List (List Char × Char) :=
  [(['a', 'm', 'p'], '&'), (['l', 't'], '<'), (['g', 't'], '>'), (['q', 'u', 'o', 't'], '"'),
    (['a', 'p', 'o', 's'], '\'')]

/-- The digits of every base, each at the place of its value. -/
def digitCharacters : List Char :=
  ['0', '1', '2', '3', '4', '5', '6', '7', '8', '9', 'a', 'b', 'c', 'd', 'e', 'f']

/-- The bases that the number of a character may be written in. -/
inductive Radix where
  | decimal
  | hexadecimal
deriving DecidableEq, Repr

namespace Radix

def base : Radix → Nat
  | decimal => 10
  | hexadecimal => 16

/-- What tells a number of the base from a name. -/
def opening : Radix → List Char
  | decimal => ['#']
  | hexadecimal => ['#', 'x']

/-- The digits of the base, in either case. -/
def digits (radix : Radix) : List Char :=
  digitCharacters.take radix.base ++ (digitCharacters.take radix.base).map Char.toUpper

/-- The number that digits write, the highest first. -/
def number (radix : Radix) (digits : List Char) : Nat :=
  Nat.ofDigits radix.base (digits.map fun d => digitCharacters.idxOf d.toLower).reverse

/-- Whether the reader takes a character for a digit. -/
def isDigit : Radix → Char → Bool
  | decimal => Char.isDigit
  | hexadecimal => isHexDigit

theorem digit_of_mem {radix : Radix} {d : Char} (h : d ∈ radix.digits) :
    radix.isDigit d = true ∧ digitValue d = digitCharacters.idxOf d.toLower := by
  have hall : (radix.digits.all fun d =>
      radix.isDigit d && digitValue d == digitCharacters.idxOf d.toLower) = true := by
    cases radix <;> decide
  simpa using List.all_eq_true.mp hall d h

theorem numberOfDigits_eq {radix : Radix} {digits : List Char} (h : ∀ d ∈ digits, d ∈ radix.digits) :
    numberOfDigits radix.base digits = radix.number digits := by
  have hvalues : digits.map digitValue =
      digits.map fun d => digitCharacters.idxOf d.toLower :=
    List.map_congr_left fun d hd => (digit_of_mem (h d hd)).2
  rw [number, ← hvalues, Nat.ofDigits_eq_foldr, List.foldr_reverse, List.foldl_map, numberOfDigits]
  simp [Nat.add_comm]

end Radix

theorem charOfNumber_toNat (c : Char) : charOfNumber c.toNat = c := by
  have hvalid : c.toNat.isValidChar := c.valid
  rw [charOfNumber, if_pos hvalid, Char.ofNat_toNat]

theorem Radix.charOfDigits? {radix : Radix} {digits : List Char} {c : Char}
    (hdigits : ∀ d ∈ digits, d ∈ radix.digits) (hnumber : radix.number digits = c.toNat)
    (hc : isXmlChar c = true) : charOfDigits? radix.base digits = some c := by
  have hne : digits ≠ [] := by
    rintro rfl
    rw [← charOfNumber_toNat c, ← hnumber] at hc
    exact absurd hc (by cases radix <;> decide)
  have hmax : ¬ c.toNat > maxNumber := by
    have hvalid : c.toNat.isValidChar := c.valid
    simp only [Nat.isValidChar, maxNumber] at hvalid ⊢
    omega
  simp [Xml.charOfDigits?, Radix.numberOfDigits_eq hdigits, hnumber, charOfNumber_toNat, hc, hne,
    hmax]

theorem readNumeric_digits {radix : Radix} {digits : List Char} {c : Char}
    (hdigits : ∀ d ∈ digits, d ∈ radix.digits) (hnumber : radix.number digits = c.toNat)
    (hc : isXmlChar c = true) (rest : List Char) :
    readNumeric radix.base radix.isDigit (digits ++ ';' :: rest) = .ok (c, rest) := by
  have hall : ∀ d ∈ digits, radix.isDigit d = true := fun d hd =>
    (Radix.digit_of_mem (hdigits d hd)).1
  have hend : radix.isDigit ';' = false := by cases radix <;> decide
  have htake : (digits ++ ';' :: rest).takeWhile radix.isDigit = digits := by
    simp [List.takeWhile_append_of_pos hall, hend]
  have hdrop : (digits ++ ';' :: rest).dropWhile radix.isDigit = ';' :: rest := by
    simp [List.dropWhile_append_of_pos hall, hend]
  rw [readNumeric, htake, hdrop, Radix.charOfDigits? hdigits hnumber hc]
  rfl

theorem readReference_numeric {radix : Radix} {digits : List Char} {c : Char}
    (hdigits : ∀ d ∈ digits, d ∈ radix.digits) (hnumber : radix.number digits = c.toNat)
    (hc : isXmlChar c = true) (rest : List Char) :
    readReference (radix.opening ++ digits ++ ';' :: rest) = .ok (c, rest) := by
  have hread := readNumeric_digits hdigits hnumber hc rest
  cases radix with
  | hexadecimal => exact hread
  | decimal =>
    cases digits with
    | nil => exact hread
    | cons d digits =>
      have hd : d ≠ 'x' := by
        rintro rfl
        exact absurd (hdigits 'x' List.mem_cons_self) (by decide)
      have hskip : readReference ('#' :: d :: (digits ++ ';' :: rest)) =
          readNumeric 10 Char.isDigit (d :: (digits ++ ';' :: rest)) := by
        simp [readReference, hd]
      exact hskip.trans hread

theorem readReference_named {name : List Char} {c : Char} (h : (name, c) ∈ namedCharacters)
    (rest : List Char) : readReference (name ++ ';' :: rest) = .ok (c, rest) := by
  simp only [namedCharacters, List.mem_cons, List.not_mem_nil, or_false, Prod.mk.injEq] at h
  rcases h with ⟨rfl, rfl⟩ | ⟨rfl, rfl⟩ | ⟨rfl, rfl⟩ | ⟨rfl, rfl⟩ | ⟨rfl, rfl⟩ <;> rfl

end SocialPayload.Xml
