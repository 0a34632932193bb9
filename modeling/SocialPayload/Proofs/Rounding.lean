import Mathlib.Algebra.Order.Field.Power
import SocialPayload.Proofs.Magnitudes
import SocialPayload.Proofs.Numerals

namespace SocialPayload.Number

namespace Decimal

theorem ten_zpow_eq (e : ℤ) : (10 : ℚ) ^ e = 10 ^ e.toNat / 10 ^ (-e).toNat := by
  rcases le_total 0 e with h | h
  · obtain ⟨n, rfl⟩ := Int.eq_ofNat_of_zero_le h
    simp
  · obtain ⟨n, hn⟩ := Int.eq_ofNat_of_zero_le (neg_nonneg.mpr h)
    obtain rfl : e = -n := by omega
    simp

theorem two_mul_lt_of_isNegligible {d : Decimal} (h : d.isNegligible = true) :
    2 * (d.coefficient * 10 ^ d.exponent.toNat * unitsPerOne) < 10 ^ (-d.exponent).toNat := by
  rw [isNegligible, Bool.and_eq_true, decide_eq_true_eq, decide_eq_true_eq] at h
  obtain ⟨hexponent, hsmall⟩ := h
  have hzero : d.exponent.toNat = 0 := Int.toNat_of_nonpos hexponent.le
  have hcoefficient := Nat.lt_log2_self (n := d.coefficient)
  obtain ⟨k, hk, hunits⟩ : ∃ k, k = 1074 ∧ unitsPerOne = 2 ^ k :=
    ⟨_, rfl, unitsPerOne_eq⟩
  obtain ⟨n, hn⟩ := Int.eq_ofNat_of_zero_le (neg_nonneg.mpr hexponent.le)
  rw [hn, hzero, hunits, Int.toNat_natCast]
  calc 2 * (d.coefficient * 10 ^ 0 * 2 ^ k) = d.coefficient * 2 ^ (k + 1) := by ring
    _ < 2 ^ (d.coefficient.log2 + 1) * 2 ^ (k + 1) :=
        Nat.mul_lt_mul_of_pos_right hcoefficient (Nat.two_pow_pos _)
    _ ≤ 2 ^ (3 * n) := by
        rw [← Nat.pow_add]
        exact Nat.pow_le_pow_right (by decide) (by omega)
    _ = 8 ^ n := Nat.pow_mul 2 3 n
    _ ≤ 10 ^ n := Nat.pow_le_pow_left (by decide) n

theorem roundedMagnitude_nearest (d : Decimal) :
    ∃ m, IsNearestMagnitude (d.coefficient * 10 ^ d.exponent * unitsPerOne) m ∧
      d.roundedMagnitude = min infiniteMagnitude m := by
  have hden : 0 < 10 ^ (-d.exponent).toNat := Nat.pow_pos (by decide)
  have hpos : (0 : ℚ) < (10 ^ (-d.exponent).toNat : ℕ) := by exact_mod_cast hden
  have hquotient : (d.coefficient * 10 ^ d.exponent * unitsPerOne : ℚ) =
      (d.coefficient * 10 ^ d.exponent.toNat * unitsPerOne : ℕ) /
        (10 ^ (-d.exponent).toNat : ℕ) := by
    push_cast
    rw [ten_zpow_eq]
    ring
  obtain ⟨m, hm, hround⟩ :=
    roundUnits_nearest (d.coefficient * 10 ^ d.exponent.toNat * unitsPerOne) hden
  rw [← hquotient] at hm
  rw [roundedMagnitude]
  split_ifs with hsmall hlarge
  · refine ⟨0, IsNearestMagnitude.zero_of_lt ?_ ?_, rfl⟩
    · rw [hquotient]
      exact div_nonneg (Nat.cast_nonneg _) hpos.le
    · rcases Bool.or_eq_true_iff.mp hsmall with hzero | hnegligible
      · rw [of_decide_eq_true hzero, Nat.cast_zero, zero_mul, zero_mul, mul_zero]
        exact zero_lt_one
      · rw [hquotient, ← mul_div_assoc, div_lt_one hpos]
        exact_mod_cast two_mul_lt_of_isNegligible hnegligible
  · refine ⟨m, hm, (min_eq_left ?_).symm⟩
    rw [← not_lt, hm.lt_infiniteMagnitude_iff, not_lt]
    apply mul_le_mul_of_nonneg_right _ (Nat.cast_nonneg _)
    have hcoefficient : (1 : ℚ) ≤ d.coefficient := by
      rw [Nat.one_le_cast, Nat.one_le_iff_ne_zero]
      rintro hzero
      simp [hzero] at hsmall
    calc (2 ^ 1024 - 2 ^ 970 : ℚ) ≤ 2 ^ 1024 := sub_le_self _ (by positivity)
      _ ≤ 2 ^ (3 * 400) := pow_le_pow_right₀ one_le_two (by decide)
      _ = (2 ^ 3) ^ 400 := pow_mul 2 3 400
      _ ≤ 10 ^ 400 := pow_le_pow_left₀ (by positivity) (by norm_num) 400
      _ = 10 ^ (400 : ℤ) := (zpow_natCast 10 400).symm
      _ ≤ 10 ^ d.exponent := zpow_le_zpow_right₀ (by norm_num) hlarge.le
      _ ≤ d.coefficient * 10 ^ d.exponent :=
          le_mul_of_one_le_left (zpow_nonneg (by norm_num) _) hcoefficient
  · exact ⟨m, hm, hround⟩

end Decimal

theorem abs_signed (negative : Bool) (a : ℚ) : |signed negative a| = |a| := by
  cases negative
  · rfl
  · exact abs_neg a

theorem signed_sub_signed (negative : Bool) (a b : ℚ) :
    signed negative a - signed negative b = signed negative (a - b) := by
  cases negative
  · rfl
  · simp only [signed, ↓reduceIte]
    ring

namespace Binary64

/-- The rational number that a finite floating-point number is. -/
def value (x : Binary64) : ℚ :=
  signed x.isNegative (x.units / unitsPerOne)

/-- The digits of a finite floating-point number, of which it has 53 unless it is close to zero. -/
def significand (x : Binary64) : Nat :=
  if x.magnitude / binadeSize = 0 then x.magnitude % binadeSize
  else binadeSize + x.magnitude % binadeSize

/-- Whether no other finite floating-point number is nearer to a number, and of two that are equally
near, the one whose last digit is even. -/
structure IsNearest (q : ℚ) (x : Binary64) : Prop where
  finite : x.isFinite = true
  closest : ∀ y : Binary64, y.isFinite = true → |q - x.value| ≤ |q - y.value|
  even : ∀ y : Binary64, y.isFinite = true → y.value ≠ x.value →
    |q - y.value| = |q - x.value| → Even x.significand

/-- A finite number, the magnitude of which is nearest to that of a number and the sign as given. -/
structure IsRounded (negative : Bool) (q : ℚ) (x : Binary64) : Prop where
  finite : x.isFinite = true
  sign : x.isNegative = negative
  signed_eq : signed negative |q| = q
  magnitude : IsNearestMagnitude (|q| * unitsPerOne) x.magnitude

variable {x y : Binary64}

theorem units_eq : x.units = magnitudeUnits x.magnitude := rfl

theorem even_significand_iff : Even x.significand ↔ Even x.magnitude := by
  have hsize : Even binadeSize := by decide
  have hfraction : Even (x.magnitude % binadeSize) ↔ Even x.magnitude := by
    rw [Nat.even_iff, Nat.even_iff, Nat.mod_mod_of_dvd _ hsize.two_dvd]
  rw [significand, ← hfraction]
  split_ifs
  · rfl
  · simp [Nat.even_add, hsize]

theorem toNat_ofMagnitude (negative : Bool) {m : Nat} (h : m < signWeight) :
    (ofMagnitude negative m).bits.toNat = (if negative then signWeight else 0) + m := by
  have hweight : signWeight = 2 ^ 63 := rfl
  rw [ofMagnitude, UInt64.toNat_ofNat']
  apply Nat.mod_eq_of_lt
  split_ifs <;> omega

theorem isNegative_ofMagnitude (negative : Bool) {m : Nat} (h : m < signWeight) :
    (ofMagnitude negative m).isNegative = negative := by
  rw [isNegative, toNat_ofMagnitude negative h]
  cases negative <;> simp [h]

theorem magnitude_ofMagnitude (negative : Bool) {m : Nat} (h : m < signWeight) :
    (ofMagnitude negative m).magnitude = m := by
  rw [magnitude, toNat_ofMagnitude negative h]
  cases negative <;> simp [Nat.mod_eq_of_lt h]

theorem ofMagnitude_eq (x : Binary64) : ofMagnitude x.isNegative x.magnitude = x := by
  have hweight : signWeight = 2 ^ 63 := rfl
  have hbits := x.bits.toNat_lt
  have hbelow : x.magnitude < signWeight := Nat.mod_lt _ (by decide)
  have htotal : (ofMagnitude x.isNegative x.magnitude).bits.toNat = x.bits.toNat := by
    rw [toNat_ofMagnitude _ hbelow, isNegative, magnitude, hweight]
    simp only [decide_eq_true_eq]
    split_ifs <;> omega
  obtain ⟨bits⟩ := x
  exact congrArg Binary64.mk (UInt64.toNat_inj.mp htotal)

theorem ext_of_magnitude (hsign : x.isNegative = y.isNegative)
    (hmagnitude : x.magnitude = y.magnitude) : x = y := by
  rw [← ofMagnitude_eq x, ← ofMagnitude_eq y, hsign, hmagnitude]

theorem abs_value (x : Binary64) : |x.value| = x.units / unitsPerOne := by
  rw [value, abs_signed, abs_of_nonneg (by positivity)]

theorem signed_abs_value (x : Binary64) : signed x.isNegative |x.value| = x.value := by
  rw [abs_value, value]

theorem abs_sub_abs_value (r : ℚ) (x : Binary64) :
    abs (r - |x.value|) * unitsPerOne = |r * unitsPerOne - magnitudeUnits x.magnitude| := by
  rw [abs_value, ← abs_of_pos unitsPerOne_pos, ← abs_mul, abs_of_pos unitsPerOne_pos, sub_mul,
    div_mul_cancel₀ _ unitsPerOne_pos.ne', units_eq]

theorem value_eq_zero_iff : x.value = 0 ↔ x.magnitude = 0 := by
  have hzero : magnitudeUnits 0 = 0 := magnitudeUnits_of_lt binadeSize_pos
  rw [← abs_eq_zero, abs_value, div_eq_zero_iff, or_iff_left unitsPerOne_pos.ne', Nat.cast_eq_zero,
    units_eq]
  nth_rewrite 1 [← hzero]
  exact magnitudeUnits_strictMono.injective.eq_iff

namespace IsRounded

variable {negative negative' : Bool} {q q' : ℚ} {x' : Binary64}

theorem unique (h : IsRounded negative q x) (h' : IsRounded negative q x') : x = x' :=
  ext_of_magnitude (h.sign.trans h'.sign.symm) (h.magnitude.unique h'.magnitude)

theorem abs_lt (h : IsRounded negative q x) : |q| < 2 ^ 1024 - 2 ^ 970 := by
  have hfinite := h.finite
  rwa [isFinite, decide_eq_true_eq, h.magnitude.lt_infiniteMagnitude_iff,
    mul_lt_mul_iff_left₀ unitsPerOne_pos] at hfinite

theorem abs_sub_value (h : IsRounded negative q x) : |q - x.value| = abs (|q| - |x.value|) := by
  rw [← abs_signed negative (|q| - _), ← signed_sub_signed, h.signed_eq, ← h.sign,
    signed_abs_value]

theorem abs_value_sub_le (h : IsRounded negative q x) (y : Binary64) :
    abs (|q| - |x.value|) ≤ abs (|q| - |y.value|) := by
  apply le_of_mul_le_mul_right _ unitsPerOne_pos
  rw [abs_sub_abs_value, abs_sub_abs_value]
  exact h.magnitude.closest _

theorem magnitude_of_zero (h : IsRounded negative 0 x) : x.magnitude = 0 := by
  have hzero := h.magnitude
  rw [abs_zero, zero_mul] at hzero
  exact hzero.unique (.zero_of_lt le_rfl (by norm_num))

theorem abs_value_sub_eq (h : IsRounded negative q x) (htie : |q - y.value| = |q - x.value|) :
    abs (|q| - |y.value|) = abs (|q| - |x.value|) := by
  apply le_antisymm _ (h.abs_value_sub_le y)
  rw [← h.abs_sub_value, ← htie]
  exact abs_abs_sub_abs_le q y.value

/-- Numbers that differ in the sign alone are as near to zero only, to which zero is nearer. -/
theorem magnitude_ne_of_tie (h : IsRounded negative q x) (hvalue : y.value ≠ x.value)
    (htie : |q - y.value| = |q - x.value|) : y.magnitude ≠ x.magnitude := by
  intro hsame
  have hopposite : y.value = -x.value := by
    have habs : |y.value| = |x.value| := by
      rw [abs_value, abs_value, units_eq, units_eq, hsame]
    exact (abs_eq_abs.mp habs).resolve_left hvalue
  have hzero : q * x.value = 0 := by
    rw [hopposite, ← sq_eq_sq_iff_abs_eq_abs] at htie
    linarith
  have hx : x.value = 0 := by
    rcases mul_eq_zero.mp hzero with rfl | hx
    · exact value_eq_zero_iff.mpr h.magnitude_of_zero
    · exact hx
  rw [hopposite, hx, neg_zero] at hvalue
  exact hvalue rfl

theorem isNearest (h : IsRounded negative q x) : IsNearest q x := by
  refine ⟨h.finite, ?_, ?_⟩
  · intro y _
    rw [h.abs_sub_value]
    exact (h.abs_value_sub_le y).trans (abs_abs_sub_abs_le q y.value)
  · intro y _ hvalue htie
    rw [even_significand_iff]
    apply h.magnitude.even _ (h.magnitude_ne_of_tie hvalue htie)
    rw [← abs_sub_abs_value, ← abs_sub_abs_value, h.abs_value_sub_eq htie]

/-- No number of another value is nearest as well. -/
theorem value_eq_of_isNearest (h : IsRounded negative q x) (hy : IsNearest q y) :
    y.value = x.value := by
  by_contra hvalue
  have htie : |q - y.value| = |q - x.value| :=
    le_antisymm (hy.closest x h.finite) (h.isNearest.closest y hy.finite)
  have heven : Even y.magnitude :=
    even_significand_iff.mp (hy.even x h.finite (Ne.symm hvalue) htie.symm)
  have hmagnitude : IsNearestMagnitude (|q| * unitsPerOne) y.magnitude := by
    refine ⟨fun n => ?_, fun _ _ _ => heven⟩
    rw [← abs_sub_abs_value, h.abs_value_sub_eq htie, abs_sub_abs_value]
    exact h.magnitude.closest n
  exact h.magnitude_ne_of_tie hvalue htie (hmagnitude.unique h.magnitude)

theorem abs_value_mono (h : IsRounded negative q x) (h' : IsRounded negative' q' x')
    (hq : |q| ≤ |q'|) : |x.value| ≤ |x'.value| := by
  have hmagnitude := h.magnitude.mono h'.magnitude
    (mul_le_mul_of_nonneg_right hq (Nat.cast_nonneg _))
  rw [abs_value, abs_value, units_eq, units_eq]
  apply div_le_div_of_nonneg_right _ (Nat.cast_nonneg _)
  exact_mod_cast magnitudeUnits_strictMono.monotone hmagnitude

/-- A greater number does not become a smaller one, whatever signs zeros have. -/
theorem mono (h : IsRounded negative q x) (h' : IsRounded negative' q' x') (hq : q ≤ q') :
    x.value ≤ x'.value := by
  have hvalue := signed_abs_value x
  have hvalue' := signed_abs_value x'
  have hnumber := h.signed_eq
  have hnumber' := h'.signed_eq
  rw [h.sign] at hvalue
  rw [h'.sign] at hvalue'
  have hx := abs_nonneg x.value
  have hx' := abs_nonneg x'.value
  cases negative <;> cases negative' <;>
    simp only [signed, ↓reduceIte, Bool.false_eq_true] at hvalue hvalue' hnumber hnumber'
  case false.false =>
    have hmono := h.abs_value_mono h' (by linarith)
    linarith
  case false.true =>
    have hzero : q = 0 := by linarith [abs_nonneg q, abs_nonneg q']
    have hzero' : q' = 0 := by linarith [abs_nonneg q, abs_nonneg q']
    subst hzero hzero'
    rw [value_eq_zero_iff.mpr h.magnitude_of_zero, value_eq_zero_iff.mpr h'.magnitude_of_zero]
  case true.false => linarith
  case true.true =>
    have hmono := h'.abs_value_mono h (by linarith)
    linarith

end IsRounded

end Binary64

namespace Decimal

variable {d : Decimal}

theorem abs_decimalValue (d : Decimal) : |d.value| = d.coefficient * 10 ^ d.exponent := by
  rw [value, abs_signed, abs_of_nonneg]
  exact mul_nonneg (Nat.cast_nonneg _) (zpow_nonneg (by norm_num) _)

theorem toBinary64_nearest (d : Decimal) : ∃ m, IsNearestMagnitude (|d.value| * unitsPerOne) m ∧
    d.toBinary64.isNegative = d.negative ∧ d.toBinary64.magnitude = min infiniteMagnitude m := by
  obtain ⟨m, hm, hround⟩ := d.roundedMagnitude_nearest
  have hweight : min infiniteMagnitude m < signWeight := (min_le_left _ _).trans_lt (by decide)
  rw [toBinary64, hround, abs_decimalValue]
  exact ⟨m, hm, Binary64.isNegative_ofMagnitude _ hweight,
    Binary64.magnitude_ofMagnitude _ hweight⟩

/-- Numbers are finite up to the middle of the greatest finite one and the next power of two. -/
theorem isFinite_toBinary64 : d.toBinary64.isFinite = true ↔ |d.value| < 2 ^ 1024 - 2 ^ 970 := by
  obtain ⟨m, hm, -, hmagnitude⟩ := d.toBinary64_nearest
  rw [Binary64.isFinite, decide_eq_true_eq, hmagnitude, min_lt_iff, or_iff_right (lt_irrefl _),
    hm.lt_infiniteMagnitude_iff, mul_lt_mul_iff_left₀ unitsPerOne_pos]

theorem isRounded_toBinary64 (h : d.toBinary64.isFinite = true) :
    d.toBinary64.IsRounded d.negative d.value := by
  obtain ⟨m, hm, hnegative, hmagnitude⟩ := d.toBinary64_nearest
  have hfinite := h
  rw [Binary64.isFinite, decide_eq_true_eq, hmagnitude, min_lt_iff,
    or_iff_right (lt_irrefl _)] at hfinite
  rw [min_eq_right hfinite.le] at hmagnitude
  refine ⟨h, hnegative, ?_, hmagnitude ▸ hm⟩
  rw [abs_decimalValue, value]

end Decimal

end SocialPayload.Number
