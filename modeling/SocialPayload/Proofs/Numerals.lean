import Mathlib.Data.Nat.Digits.Defs
import Mathlib.Data.Rat.Defs
import Mathlib.Tactic.FieldSimp
import Mathlib.Tactic.Ring
import SocialPayload.Number.Decimal
import SocialPayload.Proofs.TrimmedText

namespace SocialPayload.Number

/-- What may stand before the digits of a number, and whether it makes the number negative. -/
inductive IsSign : List Char → Bool → Prop
  | none : IsSign [] false
  | plus : IsSign ['+'] false
  | minus : IsSign ['-'] true

/-- A number with the sign put to it. -/
def signed {α : Type} [Neg α] (negative : Bool) (x : α) : α :=
  if negative then -x else x

/-- The number that digits write, the last of them counting ones. -/
def digitsValue (digits : List Char) : Nat :=
  Nat.ofDigits 10 (digits.reverse.map fun d => d.toNat - '0'.toNat)

/-- Digits, with a point before, among or after them or without one. -/
inductive IsMantissa : List Char → ℚ → Prop
  | whole {ds : List Char} (nonempty : ds ≠ []) (digits : ∀ d ∈ ds, d.isDigit = true) :
      IsMantissa ds (digitsValue ds)
  | pointed {ds fs : List Char} (nonempty : ds ≠ [] ∨ fs ≠ [])
      (digits : ∀ d ∈ ds ++ fs, d.isDigit = true) :
      IsMantissa (ds ++ '.' :: fs) (digitsValue ds + digitsValue fs / 10 ^ fs.length)

/-- A power of ten by its exponent. It may be missing, but it has digits if it is there. -/
inductive IsExponent : List Char → ℤ → Prop
  | absent : IsExponent [] 0
  | present {e : Char} {sign ds : List Char} {negative : Bool} (mark : e = 'e' ∨ e = 'E')
      (sign_is : IsSign sign negative) (nonempty : ds ≠ [])
      (digits : ∀ d ∈ ds, d.isDigit = true) :
      IsExponent (e :: (sign ++ ds)) (signed negative (digitsValue ds))

/-- Whether a text is a decimal numeral, with the number it denotes. The sign is told apart since
zero has none of its own. -/
inductive IsNumeral : List Char → Bool → ℚ → Prop
  | mk {sign mantissa exponent : List Char} {negative : Bool} {m : ℚ} {k : ℤ}
      (sign_is : IsSign sign negative) (mantissa_is : IsMantissa mantissa m)
      (exponent_is : IsExponent exponent k) :
      IsNumeral (sign ++ (mantissa ++ exponent)) negative (signed negative (m * 10 ^ k))

theorem IsSign.chars {sign : List Char} {negative : Bool} (h : IsSign sign negative) :
    ∀ c ∈ sign, c ∈ ['+', '-'] := by
  cases h <;> simp

/-- Nothing but these characters stands in a numeral, and a digit does. -/
theorem IsNumeral.chars {s : List Char} {negative : Bool} {q : ℚ} (h : IsNumeral s negative q) :
    (∀ c ∈ s, c.isDigit = true ∨ c ∈ ['+', '-', '.', 'e', 'E']) ∧ ∃ c ∈ s, c.isDigit = true := by
  obtain @⟨sign, mantissa, exponent, negative, m, k, sign_is, mantissa_is, exponent_is⟩ := h
  have hsign := sign_is.chars
  have hmantissa : (∀ c ∈ mantissa, c.isDigit = true ∨ c = '.') ∧
      ∃ c ∈ mantissa, c.isDigit = true := by
    cases mantissa_is with
    | whole nonempty digits =>
      obtain ⟨d, hd⟩ := List.exists_mem_of_ne_nil _ nonempty
      exact ⟨fun c hc => .inl (digits c hc), d, hd, digits d hd⟩
    | @pointed ds fs nonempty digits =>
      have hsome : ds ++ fs ≠ [] := by simpa [Decidable.or_iff_not_imp_left] using nonempty
      obtain ⟨d, hd⟩ := List.exists_mem_of_ne_nil _ hsome
      grind
  have hexponent : ∀ c ∈ exponent, c.isDigit = true ∨ c ∈ ['+', '-', 'e', 'E'] := by
    cases exponent_is with
    | absent => simp
    | present mark sign_is nonempty digits =>
      have hsign := sign_is.chars
      grind
  grind

/-- The rational number that a decimal one is. -/
def Decimal.value (d : Decimal) : ℚ :=
  signed d.negative (d.coefficient * 10 ^ d.exponent)

theorem ofDigits_eq (digits : List Char) : ofDigits digits = digitsValue digits := by
  rw [digitsValue, List.map_reverse, Nat.ofDigits_eq_foldr, List.foldr_reverse, List.foldl_map,
    ofDigits]
  simp [Nat.add_comm]

theorem digitsValue_append (ds fs : List Char) :
    digitsValue (ds ++ fs) = digitsValue ds * 10 ^ fs.length + digitsValue fs := by
  simp only [digitsValue, List.reverse_append, List.map_append, Nat.ofDigits_append,
    List.length_map, List.length_reverse]
  ring

/-- Whether a run of digits that reaches up to a text ends there. -/
def EndsDigits (rest : List Char) : Prop :=
  ∀ c, rest.head? = some c → c.isDigit = false

theorem takeWhile_digits {ds rest : List Char} (hds : ∀ d ∈ ds, d.isDigit = true)
    (hrest : EndsDigits rest) :
    (ds ++ rest).takeWhile Char.isDigit = ds ∧ (ds ++ rest).dropWhile Char.isDigit = rest := by
  have hdrop : (ds ++ rest).dropWhile Char.isDigit = rest := by
    rw [List.dropWhile_append_of_pos hds, Text.dropWhile_eq_self hrest]
  refine ⟨?_, hdrop⟩
  have hboth := List.takeWhile_append_dropWhile (p := Char.isDigit) (l := ds ++ rest)
  rw [hdrop] at hboth
  exact List.append_cancel_right hboth

theorem isDigit_of_mem_takeWhile {s : List Char} :
    ∀ d ∈ s.takeWhile Char.isDigit, d.isDigit = true :=
  fun _ => List.mem_takeWhile_imp

/-- Whether a text does not begin with a sign. -/
def IsUnsigned (rest : List Char) : Prop :=
  ∀ c, rest.head? = some c → c ≠ '-' ∧ c ≠ '+'

theorem takeSign_append {sign rest : List Char} {negative : Bool} (h : IsSign sign negative)
    (hrest : IsUnsigned rest) : takeSign (sign ++ rest) = (negative, rest) := by
  cases h with
  | plus | minus => rfl
  | none =>
    cases rest with
    | nil => rfl
    | cons c rest =>
      obtain ⟨hminus, hplus⟩ := hrest c rfl
      rw [List.nil_append, takeSign]
      · rintro s ⟨⟩
        exact hminus rfl
      · rintro s ⟨⟩
        exact hplus rfl

theorem exists_sign (s : List Char) :
    ∃ sign, IsSign sign (takeSign s).1 ∧ s = sign ++ (takeSign s).2 := by
  rw [takeSign.eq_def]
  split
  · exact ⟨_, .minus, rfl⟩
  · exact ⟨_, .plus, rfl⟩
  · exact ⟨_, .none, rfl⟩

theorem isUnsigned_digits {ds rest : List Char} (hds : ∀ d ∈ ds, d.isDigit = true)
    (hrest : ds = [] → IsUnsigned rest) : IsUnsigned (ds ++ rest) := by
  cases ds with
  | nil => exact hrest rfl
  | cons d ds =>
    intro c hc
    cases hc
    have hd := hds _ List.mem_cons_self
    constructor <;> rintro rfl <;> exact absurd hd (by decide)

theorem parseExponent?_eq_some {s : List Char} {k : ℤ} :
    parseExponent? s = some k ↔ IsExponent s k := by
  constructor
  · intro h
    cases s with
    | nil =>
      cases h
      exact .absent
    | cons e s =>
      simp only [parseExponent?, Option.ite_none_right_eq_some, Bool.and_eq_true, Bool.or_eq_true,
        beq_iff_eq, Bool.not_eq_true', List.isEmpty_eq_false_iff, List.all_eq_true,
        Option.some.injEq] at h
      obtain ⟨⟨⟨hmark, hnonempty⟩, hdigits⟩, rfl⟩ := h
      obtain ⟨sign, hsign, hs⟩ := exists_sign s
      rw [ofDigits_eq]
      have hexponent := IsExponent.present hmark hsign hnonempty hdigits
      rwa [← hs] at hexponent
  · intro h
    cases h with
    | absent => rfl
    | @present e sign ds negative mark sign_is nonempty digits =>
      have hsign : takeSign (sign ++ ds) = (negative, ds) := by
        have hunsigned : IsUnsigned (ds ++ []) :=
          isUnsigned_digits digits fun hempty => absurd hempty nonempty
        rw [List.append_nil] at hunsigned
        exact takeSign_append sign_is hunsigned
      have hall : ds.all Char.isDigit = true := List.all_eq_true.mpr digits
      rw [parseExponent?, hsign]
      simp [mark, nonempty, hall, ofDigits_eq, signed]

/-- What stands after the digits of a numeral is no further digit and no point. -/
theorem IsExponent.head {s : List Char} {k : ℤ} (h : IsExponent s k) {c : Char}
    (hc : s.head? = some c) : c = 'e' ∨ c = 'E' := by
  cases h with
  | absent => cases hc
  | present mark =>
    cases hc
    exact mark

theorem IsExponent.endsDigits {s : List Char} {k : ℤ} (h : IsExponent s k) : EndsDigits s := by
  intro c hc
  rcases h.head hc with rfl | rfl <;> decide

theorem takeFraction_point (s : List Char) :
    takeFraction ('.' :: s) = (s.takeWhile Char.isDigit, s.dropWhile Char.isDigit) := rfl

theorem takeFraction_eq_self {s : List Char} (h : s.head? ≠ some '.') :
    takeFraction s = ([], s) := by
  rw [takeFraction.eq_def]
  split
  · exact absurd rfl h
  · rfl

namespace Decimal

theorem parse?_eq (s : List Char) : parse? s =
    if ((takeSign s).2.takeWhile Char.isDigit).isEmpty &&
        (takeFraction ((takeSign s).2.dropWhile Char.isDigit)).1.isEmpty then none
    else (parseExponent? (takeFraction ((takeSign s).2.dropWhile Char.isDigit)).2).map fun e =>
      { negative := (takeSign s).1
        coefficient := ofDigits ((takeSign s).2.takeWhile Char.isDigit ++
          (takeFraction ((takeSign s).2.dropWhile Char.isDigit)).1)
        exponent := e - (takeFraction ((takeSign s).2.dropWhile Char.isDigit)).1.length } := rfl

/-- The digits after the point count as whole ones under a smaller exponent. -/
theorem value_mk (negative : Bool) (ds fs : List Char) (k : ℤ) :
    value ⟨negative, ofDigits (ds ++ fs), k - fs.length⟩ =
      signed negative ((digitsValue ds + digitsValue fs / 10 ^ fs.length : ℚ) * 10 ^ k) := by
  have hpower : (10 : ℚ) ^ (k - fs.length) = 10 ^ k / 10 ^ fs.length := by
    rw [zpow_sub₀ (by norm_num), zpow_natCast]
  rw [value, ofDigits_eq, digitsValue_append, hpower]
  push_cast
  congr 1
  field_simp

theorem parse?_of_parts {negative : Bool} {sign ds point exponent fs : List Char} {k : ℤ}
    (hsign : IsSign sign negative) (hds : ∀ d ∈ ds, d.isDigit = true)
    (hnonempty : ds ≠ [] ∨ fs ≠ []) (hpoint : EndsDigits (point ++ exponent))
    (hunsigned : IsUnsigned (ds ++ (point ++ exponent)))
    (hfraction : takeFraction (point ++ exponent) = (fs, exponent))
    (hexponent : IsExponent exponent k) :
    parse? (sign ++ (ds ++ (point ++ exponent))) =
      some ⟨negative, ofDigits (ds ++ fs), k - fs.length⟩ := by
  obtain ⟨htake, hdrop⟩ := takeWhile_digits hds hpoint
  have hnone : (ds.isEmpty && fs.isEmpty) = false := by
    rcases hnonempty with h | h <;> simp [h]
  rw [parse?_eq, takeSign_append hsign hunsigned, htake, hdrop, hfraction, hnone,
    parseExponent?_eq_some.mpr hexponent]
  rfl

theorem parse?_of_isNumeral {s : List Char} {negative : Bool} {q : ℚ}
    (h : IsNumeral s negative q) :
    ∃ d, parse? s = some d ∧ d.negative = negative ∧ d.value = q := by
  obtain @⟨sign, mantissa, exponent, negative, m, k, sign_is, mantissa_is, exponent_is⟩ := h
  cases mantissa_is with
  | whole nonempty digits =>
    have hhead : exponent.head? ≠ some '.' := by
      intro hc
      rcases exponent_is.head hc with h | h <;> cases h
    have hunsigned : IsUnsigned (mantissa ++ ([] ++ exponent)) :=
      isUnsigned_digits digits fun hempty => absurd hempty nonempty
    have hparse : parse? (sign ++ (mantissa ++ ([] ++ exponent))) =
        some ⟨negative, ofDigits (mantissa ++ []), k - ([] : List Char).length⟩ :=
      parse?_of_parts sign_is digits (.inl nonempty) exponent_is.endsDigits hunsigned
        (takeFraction_eq_self hhead) exponent_is
    refine ⟨_, hparse, rfl, ?_⟩
    rw [value_mk]
    simp [digitsValue]
  | @pointed ds fs nonempty digits =>
    obtain ⟨hds, hfs⟩ := List.forall_mem_append.mp digits
    obtain ⟨htake, hdrop⟩ := takeWhile_digits hfs exponent_is.endsDigits
    have hfraction : takeFraction (('.' :: fs) ++ exponent) = (fs, exponent) := by
      rw [List.cons_append, takeFraction_point, htake, hdrop]
    have hpoint : EndsDigits (('.' :: fs) ++ exponent) := by
      rintro c ⟨⟩
      rfl
    have hunsigned : IsUnsigned (ds ++ (('.' :: fs) ++ exponent)) := by
      apply isUnsigned_digits hds
      rintro - c ⟨⟩
      decide
    refine ⟨_, ?_, rfl, value_mk negative ds fs k⟩
    rw [List.append_assoc]
    exact parse?_of_parts sign_is hds nonempty hpoint hunsigned hfraction exponent_is

theorem isNumeral_of_parse? {s : List Char} {d : Decimal} (h : parse? s = some d) :
    IsNumeral s d.negative d.value := by
  obtain ⟨sign, hsign, hs⟩ := exists_sign s
  rw [parse?_eq] at h
  generalize takeSign s = taken at *
  obtain ⟨negative, t⟩ := taken
  have htext := List.takeWhile_append_dropWhile (p := Char.isDigit) (l := t)
  have hds : ∀ d ∈ t.takeWhile Char.isDigit, d.isDigit = true := isDigit_of_mem_takeWhile
  generalize t.takeWhile Char.isDigit = ds at *
  generalize t.dropWhile Char.isDigit = rest at *
  obtain ⟨hnonempty, hexponent⟩ := Option.ite_none_left_eq_some.mp h
  obtain ⟨k, hk, rfl⟩ := Option.map_eq_some_iff.mp hexponent
  rw [parseExponent?_eq_some] at hk
  rw [value_mk, hs, ← htext]
  by_cases hpoint : rest.head? = some '.'
  · obtain ⟨rest, rfl⟩ : ∃ fraction, rest = '.' :: fraction := by
      cases rest with
      | nil => cases hpoint
      | cons c rest => exact ⟨rest, congrArg (· :: rest) (Option.some.inj hpoint)⟩
    rw [takeFraction_point] at hk hnonempty ⊢
    have hfs : ∀ d ∈ rest.takeWhile Char.isDigit, d.isDigit = true := isDigit_of_mem_takeWhile
    have hrest := List.takeWhile_append_dropWhile (p := Char.isDigit) (l := rest)
    have hdigits : ds ≠ [] ∨ rest.takeWhile Char.isDigit ≠ [] := by
      simpa [Decidable.or_iff_not_imp_left] using hnonempty
    have hmantissa := IsMantissa.pointed hdigits (List.forall_mem_append.mpr ⟨hds, hfs⟩)
    have hnumeral := IsNumeral.mk hsign hmantissa hk
    rwa [List.append_assoc, List.cons_append, hrest] at hnumeral
  · rw [takeFraction_eq_self hpoint] at hk hnonempty ⊢
    have hwhole : ds ≠ [] := by simpa using hnonempty
    have hnumeral := IsNumeral.mk hsign (IsMantissa.whole hwhole hds) hk
    simpa [digitsValue] using hnumeral

/-- The reader takes the numerals and nothing else, and gives the numbers that they denote. -/
theorem isNumeral_iff {s : List Char} {negative : Bool} {q : ℚ} :
    IsNumeral s negative q ↔ ∃ d, parse? s = some d ∧ d.negative = negative ∧ d.value = q := by
  constructor
  · exact parse?_of_isNumeral
  · rintro ⟨d, hparse, rfl, rfl⟩
    exact isNumeral_of_parse? hparse

end Decimal

end SocialPayload.Number
