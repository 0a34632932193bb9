import Mathlib.Algebra.Order.Group.Unbundled.Abs
import Mathlib.Order.Monotone.Basic
import Mathlib.Tactic.Linarith
import Mathlib.Tactic.NormNum
import Mathlib.Tactic.Positivity
import Mathlib.Tactic.Ring
import SocialPayload.Number.Binary64

namespace SocialPayload.Number

/-- How far from zero a magnitude is, counted in units. There is no greatest magnitude here. -/
def magnitudeUnits (m : Nat) : Nat :=
  let scale := m / binadeSize
  let fraction := m % binadeSize
  if scale = 0 then fraction else (binadeSize + fraction) * Nat.pow 2 (scale - 1)

theorem binadeSize_pos : 0 < binadeSize := by
  decide

theorem unitsPerOne_eq : unitsPerOne = 2 ^ 1074 := by
  delta unitsPerOne
  generalize 1074 = k
  rfl

theorem unitsPerOne_pos : (0 : ℚ) < unitsPerOne := by
  rw [Nat.cast_pos]
  delta unitsPerOne
  generalize 1074 = k
  exact Nat.two_pow_pos k

theorem magnitudeUnits_of_lt {m : Nat} (h : m < binadeSize) : magnitudeUnits m = m := by
  rw [magnitudeUnits, Nat.div_eq_of_lt h, Nat.mod_eq_of_lt h]
  rfl

theorem magnitudeUnits_succ (s : Nat) {f : Nat} (h : f < binadeSize) :
    magnitudeUnits ((s + 1) * binadeSize + f) = (binadeSize + f) * 2 ^ s := by
  have hscale : ((s + 1) * binadeSize + f) / binadeSize = s + 1 := by
    rw [Nat.add_comm, Nat.add_mul_div_right _ _ binadeSize_pos, Nat.div_eq_of_lt h, Nat.zero_add]
  have hfraction : ((s + 1) * binadeSize + f) % binadeSize = f := by
    rw [Nat.mul_add_mod_self_right, Nat.mod_eq_of_lt h]
  rw [magnitudeUnits, hscale, hfraction]
  rfl

/-- A scale goes on to where the next one begins. -/
theorem magnitudeUnits_add {s k : Nat} (hlow : s = 0 ∨ binadeSize ≤ k)
    (hhigh : k ≤ 2 * binadeSize) : magnitudeUnits (s * binadeSize + k) = k * 2 ^ s := by
  rcases Nat.lt_or_ge k binadeSize with hk | hk
  · have hs : s = 0 := hlow.resolve_right (Nat.not_le.mpr hk)
    rw [hs, Nat.zero_mul, Nat.zero_add, magnitudeUnits_of_lt hk, Nat.pow_zero, Nat.mul_one]
  obtain ⟨f, rfl⟩ := Nat.exists_eq_add_of_le hk
  rcases Nat.lt_or_ge f binadeSize with hf | hf
  · have hsum : s * binadeSize + (binadeSize + f) = (s + 1) * binadeSize + f := by ring
    rw [hsum, magnitudeUnits_succ s hf]
  · have hf : f = binadeSize := by omega
    have hsum : s * binadeSize + (binadeSize + binadeSize) = (s + 1 + 1) * binadeSize + 0 := by ring
    rw [hf, hsum, magnitudeUnits_succ (s + 1) binadeSize_pos]
    ring

theorem exists_scale (m : Nat) : ∃ s k, m = s * binadeSize + k ∧ (s = 0 ∨ binadeSize ≤ k) ∧
    k < 2 * binadeSize := by
  have hfraction := Nat.mod_lt m binadeSize_pos
  have hm := Nat.div_add_mod' m binadeSize
  generalize m % binadeSize = f at *
  cases hscale : m / binadeSize with
  | zero =>
    rw [hscale] at hm
    exact ⟨0, f, by omega, .inl rfl, by omega⟩
  | succ s =>
    rw [hscale, Nat.succ_mul] at hm
    exact ⟨s, binadeSize + f, by omega, .inr (by omega), by omega⟩

theorem magnitudeUnits_strictMono : StrictMono magnitudeUnits := by
  apply strictMono_nat_of_lt_succ
  intro m
  obtain ⟨s, k, rfl, hlow, hhigh⟩ := exists_scale m
  have hnext : magnitudeUnits (s * binadeSize + (k + 1)) = (k + 1) * 2 ^ s :=
    magnitudeUnits_add (by omega) hhigh
  rw [Nat.add_assoc, magnitudeUnits_add hlow (by omega), hnext]
  exact Nat.mul_lt_mul_of_pos_right k.lt_succ_self (by positivity)

/-- From where a scale begins, all magnitudes are multiples of its step. -/
theorem magnitudeUnits_multiple (s m : Nat) :
    (0 < s ∧ magnitudeUnits m < binadeSize * 2 ^ s) ∨ ∃ j, magnitudeUnits m = j * 2 ^ s := by
  obtain ⟨t, k, rfl, hlow, hhigh⟩ := exists_scale m
  rw [magnitudeUnits_add hlow hhigh.le]
  rcases Nat.lt_or_ge t s with hts | hts
  · refine .inl ⟨by omega, ?_⟩
    calc k * 2 ^ t < 2 * binadeSize * 2 ^ t := Nat.mul_lt_mul_of_pos_right hhigh (by positivity)
      _ = binadeSize * 2 ^ (t + 1) := by ring
      _ ≤ binadeSize * 2 ^ s := Nat.mul_le_mul_left _ (Nat.pow_le_pow_right (by decide) hts)
  · obtain ⟨d, rfl⟩ := Nat.exists_eq_add_of_le hts
    exact .inr ⟨k * 2 ^ d, by ring⟩

theorem roundHalfEven_nearest (num : Nat) {den : Nat} (hden : 0 < den) :
    |(num / den : ℚ) - roundHalfEven num den| ≤ 1 / 2 ∧
      (|(num / den : ℚ) - roundHalfEven num den| = 1 / 2 → Even (roundHalfEven num den)) := by
  have hpos : (0 : ℚ) < den := by exact_mod_cast hden
  have hquotient : (num / den : ℚ) = (num / den : ℕ) + (num % den : ℕ) / den := by
    rw [eq_comm, add_div' _ _ _ hpos.ne']
    congr 1
    exact_mod_cast Nat.div_add_mod' num den
  have hremainder := Nat.mod_lt num hden
  rw [hquotient, roundHalfEven]
  generalize num / den = q at *
  generalize num % den = r at *
  obtain ⟨t, ht⟩ : ∃ t : ℚ, t = r / den := ⟨_, rfl⟩
  have ht0 : 0 ≤ t := by
    rw [ht]
    positivity
  have ht1 : t < 1 := by
    rw [ht, div_lt_one hpos]
    exact_mod_cast hremainder
  have hbelow : 2 * r < den ↔ t < 1 / 2 := by
    rw [ht, div_lt_div_iff₀ hpos two_pos]
    norm_cast
    omega
  have habove : den < 2 * r ↔ 1 / 2 < t := by
    rw [ht, div_lt_div_iff₀ two_pos hpos]
    norm_cast
    omega
  have hdown : |(q : ℚ) + t - q| = t := by
    rw [add_sub_cancel_left, abs_of_nonneg ht0]
  have hup : |(q : ℚ) + t - (q + 1 : ℕ)| = 1 - t := by
    push_cast
    rw [add_sub_add_left_eq_sub, abs_sub_comm, abs_of_pos (by linarith)]
  rw [← ht]
  simp only [hbelow, habove]
  split_ifs with hless hmore heven
  · rw [hdown]
    exact ⟨hless.le, fun h => absurd h hless.ne⟩
  · rw [hup]
    exact ⟨by linarith, fun h => absurd h (by linarith)⟩
  · rw [hdown]
    exact ⟨by linarith, fun _ => Nat.even_iff.mpr heven⟩
  · rw [hup]
    refine ⟨by linarith, fun _ => ?_⟩
    rw [Nat.even_add_one, Nat.even_iff]
    exact heven

/-- Whether a magnitude is nearest to a number of units, and even if another one is as near. -/
structure IsNearestMagnitude (r : ℚ) (m : Nat) : Prop where
  closest : ∀ n, |r - magnitudeUnits m| ≤ |r - magnitudeUnits n|
  even : ∀ n, n ≠ m → |r - magnitudeUnits n| = |r - magnitudeUnits m| → Even m

/-- Other whole numbers are at least as far as one that is no more than a half away. -/
theorem abs_sub_le_of_ne {x : ℚ} {k j : Nat} (hk : |x - k| ≤ 1 / 2) (hj : j ≠ k) :
    |x - k| ≤ |x - j| ∧ (|x - j| = |x - k| → |x - k| = 1 / 2) := by
  have hapart : (1 : ℚ) ≤ |(j : ℚ) - k| := by
    have hint : (1 : ℤ) ≤ |(j : ℤ) - k| := Int.one_le_abs (by omega)
    exact_mod_cast hint
  have htriangle := abs_sub_le (j : ℚ) x k
  rw [abs_sub_comm (j : ℚ) x] at htriangle
  exact ⟨by linarith, fun h => by linarith⟩

theorem isNearestMagnitude_of_scale {s k : Nat} {r : ℚ} (hlow : s = 0 ∨ binadeSize ≤ k)
    (hhigh : k ≤ 2 * binadeSize) (hr : s = 0 ∨ binadeSize * 2 ^ s ≤ r)
    (hk : |r / 2 ^ s - k| ≤ 1 / 2) (heven : |r / 2 ^ s - k| = 1 / 2 → Even k) :
    IsNearestMagnitude r (s * binadeSize + k) := by
  have hstep : (0 : ℚ) < 2 ^ s := by positivity
  have hscaled : ∀ j : Nat, |r - (j * 2 ^ s : ℕ)| = |r / 2 ^ s - j| * 2 ^ s := by
    intro j
    rw [← abs_of_pos hstep, ← abs_mul, abs_of_pos hstep, sub_mul, div_mul_cancel₀ _ hstep.ne']
    push_cast
    rfl
  have hmultiple : ∀ j, |r - (k * 2 ^ s : ℕ)| ≤ |r - (j * 2 ^ s : ℕ)| := by
    intro j
    rw [hscaled, hscaled]
    apply mul_le_mul_of_nonneg_right _ hstep.le
    rcases eq_or_ne j k with rfl | hj
    · exact le_rfl
    · exact (abs_sub_le_of_ne hk hj).1
  have hbelow : ∀ u : Nat, 0 < s → u < binadeSize * 2 ^ s → |r - (k * 2 ^ s : ℕ)| < |r - u| := by
    intro u hs hu
    have hbegin : (binadeSize * 2 ^ s : ℚ) ≤ r := hr.resolve_left (by omega)
    have hu' : (u : ℚ) < binadeSize * 2 ^ s := by exact_mod_cast hu
    have hmin := hmultiple binadeSize
    push_cast at hmin ⊢
    rw [abs_of_nonneg (sub_nonneg.mpr hbegin)] at hmin
    rw [abs_of_pos (a := r - u) (by linarith)]
    linarith
  constructor
  · intro n
    rw [magnitudeUnits_add hlow hhigh]
    rcases magnitudeUnits_multiple s n with ⟨hs, hn⟩ | ⟨j, hn⟩
    · exact (hbelow _ hs hn).le
    · rw [hn]
      exact hmultiple j
  · intro n hne htie
    rw [magnitudeUnits_add hlow hhigh] at htie
    rcases magnitudeUnits_multiple s n with ⟨hs, hn⟩ | ⟨j, hn⟩
    · exact absurd htie (hbelow _ hs hn).ne'
    · have hj : j ≠ k := by
        rintro rfl
        rw [← magnitudeUnits_add hlow hhigh] at hn
        exact hne (magnitudeUnits_strictMono.injective hn)
      rw [hn, hscaled, hscaled] at htie
      have hhalf := (abs_sub_le_of_ne hk hj).2 (mul_right_cancel₀ hstep.ne' htie)
      have hsize : Even binadeSize := by decide
      exact (hsize.mul_left s).add (heven hhalf)

/-- A number is rounded in the scale that it is in, or in the first if it is below all others. -/
theorem scale_bounds (num : Nat) {den : Nat} (hden : 0 < den) :
    (Nat.log2 (num / den) - 52 = 0 ∨
      (binadeSize * 2 ^ (Nat.log2 (num / den) - 52) : ℚ) ≤ num / den) ∧
    (num / den : ℚ) < 2 * binadeSize * 2 ^ (Nat.log2 (num / den) - 52) := by
  have hpos : (0 : ℚ) < den := by exact_mod_cast hden
  have hsize : binadeSize = 2 ^ 52 := rfl
  have habove := Nat.lt_log2_self (n := num / den)
  constructor
  · rw [Decidable.or_iff_not_imp_left]
    intro hs
    have hle : 2 ^ Nat.log2 (num / den) ≤ num / den := by
      apply Nat.log2_self_le
      intro hzero
      rw [hzero] at hs
      exact hs rfl
    have hbegin : binadeSize * 2 ^ (Nat.log2 (num / den) - 52) ≤ num / den := by
      have hscale : 52 + (Nat.log2 (num / den) - 52) = Nat.log2 (num / den) := by omega
      rwa [hsize, ← Nat.pow_add, hscale]
    rw [le_div_iff₀ hpos]
    exact_mod_cast (Nat.le_div_iff_mul_le hden).mp hbegin
  · have hend : num / den < 2 * binadeSize * 2 ^ (Nat.log2 (num / den) - 52) := by
      apply habove.trans_le
      rw [hsize, ← Nat.pow_succ', ← Nat.pow_add]
      exact Nat.pow_le_pow_right (by decide) (by omega)
    rw [div_lt_iff₀ hpos]
    exact_mod_cast (Nat.div_lt_iff_lt_mul hden).mp hend

theorem roundUnits_nearest (num : Nat) {den : Nat} (hden : 0 < den) :
    ∃ m, IsNearestMagnitude (num / den) m ∧ roundUnits num den = min infiniteMagnitude m := by
  obtain ⟨hbegin, hend⟩ := scale_bounds num hden
  refine ⟨_, ?_, rfl⟩
  generalize Nat.log2 (num / den) - 52 = s at *
  have hstep : (0 : ℚ) < 2 ^ s := by positivity
  have hscaled : 0 < den * 2 ^ s := by positivity
  obtain ⟨hk, heven⟩ := roundHalfEven_nearest num hscaled
  have hquotient : (num / (den * 2 ^ s : ℕ) : ℚ) = num / den / 2 ^ s := by
    push_cast
    rw [div_div]
  rw [hquotient] at hk heven
  obtain ⟨hbelow, habove⟩ := abs_le.mp hk
  apply isNearestMagnitude_of_scale _ _ hbegin hk heven
  · refine hbegin.imp_right fun hbegin => ?_
    rw [← le_div_iff₀ hstep] at hbegin
    have hlow : (binadeSize : ℚ) < roundHalfEven num (den * 2 ^ s) + 1 := by linarith
    exact Nat.lt_succ_iff.mp (by exact_mod_cast hlow)
  · rw [← div_lt_iff₀ hstep] at hend
    have hhigh : (roundHalfEven num (den * 2 ^ s) : ℚ) < 2 * binadeSize + 1 := by linarith
    exact Nat.lt_succ_iff.mp (by exact_mod_cast hhigh)

/-- What is nearer to the greater of two numbers is not below their middle. -/
theorem abs_sub_le_iff_middle_le {r a b : ℚ} (h : b < a) : |r - a| ≤ |r - b| ↔ a + b ≤ 2 * r := by
  rw [← sq_le_sq]
  constructor <;> intro h' <;> nlinarith

theorem abs_sub_le_iff_le_middle {r a b : ℚ} (h : b < a) : |r - b| ≤ |r - a| ↔ 2 * r ≤ a + b := by
  rw [← sq_le_sq]
  constructor <;> intro h' <;> nlinarith

theorem cast_magnitudeUnits_strictMono : StrictMono fun m => (magnitudeUnits m : ℚ) :=
  Nat.strictMono_cast.comp magnitudeUnits_strictMono

/-- The magnitude of the greatest finite numbers. -/
def greatestMagnitude : Nat :=
  2045 * binadeSize + (2 * binadeSize - 1)

theorem infiniteMagnitude_eq : infiniteMagnitude = greatestMagnitude + 1 := rfl

theorem not_even_greatestMagnitude : ¬ Even greatestMagnitude := by
  decide

theorem greatestMagnitude_middle :
    (magnitudeUnits (greatestMagnitude + 1) + magnitudeUnits greatestMagnitude : ℚ) =
      2 * ((2 ^ 1024 - 2 ^ 970) * unitsPerOne) := by
  have hgreatest : magnitudeUnits greatestMagnitude = (2 * binadeSize - 1) * 2 ^ 2045 :=
    magnitudeUnits_add (.inr (by decide)) (Nat.sub_le _ _)
  have hnext : magnitudeUnits (greatestMagnitude + 1) = 2 * binadeSize * 2 ^ 2045 := by
    rw [greatestMagnitude, Nat.add_assoc, Nat.sub_add_cancel (by decide)]
    exact magnitudeUnits_add (.inr (by decide)) le_rfl
  have hsize : 2 * binadeSize = 2 ^ 53 := rfl
  have hscale : (2 ^ 2045 : ℚ) = 2 * 2 ^ 970 * unitsPerOne := by
    rw [unitsPerOne_eq, Nat.cast_pow, Nat.cast_ofNat, ← pow_succ', ← pow_add]
  have hlimit : (2 ^ 1024 : ℚ) = 2 ^ 54 * 2 ^ 970 := by rw [← pow_add]
  rw [hgreatest, hnext, hsize, Nat.cast_mul, Nat.cast_mul, Nat.cast_pow 2 2045, Nat.cast_ofNat,
    hscale, hlimit]
  generalize (2 ^ 970 : ℚ) = p
  generalize (unitsPerOne : ℚ) = u
  norm_num
  ring

namespace IsNearestMagnitude

variable {r r' : ℚ} {m m' n : Nat}

theorem middle_le (h : IsNearestMagnitude r m) (hn : n < m) :
    (magnitudeUnits m + magnitudeUnits n : ℚ) ≤ 2 * r :=
  (abs_sub_le_iff_middle_le (cast_magnitudeUnits_strictMono hn)).mp (h.closest n)

theorem le_middle (h : IsNearestMagnitude r m) (hn : m < n) :
    2 * r ≤ (magnitudeUnits n + magnitudeUnits m : ℚ) :=
  (abs_sub_le_iff_le_middle (cast_magnitudeUnits_strictMono hn)).mp (h.closest n)

/-- Two even magnitudes have one between them, so no number has both of them nearest. -/
theorem mono (h : IsNearestMagnitude r m) (h' : IsNearestMagnitude r' m') (hr : r ≤ r') :
    m ≤ m' := by
  by_contra! hlt
  have hlow := h.middle_le hlt
  have hhigh := h'.le_middle hlt
  obtain rfl : r = r' := by linarith
  have htie : |r - magnitudeUnits m| = |r - magnitudeUnits m'| :=
    le_antisymm (h.closest m') (h'.closest m)
  have heven : Even m := h.even m' hlt.ne htie.symm
  have heven' : Even m' := h'.even m hlt.ne' htie
  have hbetween : m' + 1 < m := by
    rw [Nat.even_iff] at heven heven'
    omega
  have hnear := h.middle_le hbetween
  have hless : (magnitudeUnits m' : ℚ) < magnitudeUnits (m' + 1) :=
    cast_magnitudeUnits_strictMono m'.lt_succ_self
  linarith

theorem unique (h : IsNearestMagnitude r m) (h' : IsNearestMagnitude r m') : m = m' :=
  le_antisymm (h.mono h' le_rfl) (h'.mono h le_rfl)

theorem zero_of_lt (hr : 0 ≤ r) (h : 2 * r < 1) : IsNearestMagnitude r 0 := by
  have hhalf : |r / 2 ^ 0 - (0 : ℕ)| ≤ 1 / 2 := by
    rw [pow_zero, div_one, Nat.cast_zero, sub_zero, abs_of_nonneg hr]
    linarith
  have hzero := isNearestMagnitude_of_scale (.inl rfl) (Nat.zero_le _) (.inl rfl) hhalf
    fun _ => Even.zero
  rwa [Nat.zero_mul] at hzero

/-- The least number that overflows is in the middle of the greatest finite number and the next. It
is no nearer to the finite one, which is odd. -/
theorem lt_infiniteMagnitude_iff (h : IsNearestMagnitude r m) :
    m < infiniteMagnitude ↔ r < (2 ^ 1024 - 2 ^ 970) * unitsPerOne := by
  have hmiddle := greatestMagnitude_middle
  rw [infiniteMagnitude_eq, Nat.lt_succ_iff]
  generalize ((2 ^ 1024 - 2 ^ 970) * unitsPerOne : ℚ) = limit at *
  constructor
  · intro hm
    have hhigh := h.le_middle (Nat.lt_succ_of_le hm)
    have hunits : (magnitudeUnits m : ℚ) ≤ magnitudeUnits greatestMagnitude :=
      cast_magnitudeUnits_strictMono.monotone hm
    apply lt_of_le_of_ne (by linarith)
    intro hr
    have hgreatest : m = greatestMagnitude := by
      apply magnitudeUnits_strictMono.injective
      apply Nat.cast_injective (R := ℚ)
      linarith
    have htie : |r - magnitudeUnits (m + 1)| = |r - magnitudeUnits m| := by
      apply le_antisymm _ (h.closest _)
      rw [abs_sub_le_iff_middle_le (cast_magnitudeUnits_strictMono m.lt_succ_self), hgreatest]
      linarith
    have heven : Even m := h.even _ (Nat.succ_ne_self m) htie
    rw [hgreatest] at heven
    exact not_even_greatestMagnitude heven
  · intro hr
    by_contra! hm
    have hlow := h.middle_le hm
    have hunits : (magnitudeUnits (greatestMagnitude + 1) : ℚ) ≤ magnitudeUnits m :=
      cast_magnitudeUnits_strictMono.monotone hm
    linarith

end IsNearestMagnitude

end SocialPayload.Number
