import SocialPayload.Proofs.Rounding
import SocialPayload.Record.MediaItem

namespace SocialPayload

open Number (Binary64 Decimal IsNumeral)

/-- Whether a text is a numeral, white space around it left out, and the number it denotes. -/
def WritesNumber (text : String) (negative : Bool) (q : ℚ) : Prop :=
  ∃ core, Text.IsTrimmed text core ∧ IsNumeral core negative q

/-- Whether a text writes a number that does not overflow. -/
def WritesFinite (text : String) : Prop :=
  ∃ negative q, WritesNumber text negative q ∧ |q| < 2 ^ 1024 - 2 ^ 970

section Texts

variable {text : String} {negative : Bool} {q : ℚ} {x : Binary64}

theorem writesNumber_iff : WritesNumber text negative q ↔
    ∃ d, Decimal.parse? (Text.trim text) = some d ∧ d.negative = negative ∧ d.value = q := by
  rw [← Decimal.isNumeral_iff]
  constructor
  · rintro ⟨core, hcore, hnumeral⟩
    rwa [hcore.trim_eq]
  · intro hnumeral
    exact ⟨_, Text.isTrimmed_trim text, hnumeral⟩

theorem WritesNumber.unique {negative' : Bool} {q' : ℚ} (h : WritesNumber text negative q)
    (h' : WritesNumber text negative' q') : negative' = negative ∧ q' = q := by
  obtain ⟨d, hd, rfl, rfl⟩ := writesNumber_iff.mp h
  obtain ⟨d', hd', rfl, rfl⟩ := writesNumber_iff.mp h'
  cases hd.symm.trans hd'
  exact ⟨rfl, rfl⟩

theorem finiteNumber?_eq_some : finiteNumber? text = some x ↔
    ∃ negative q, WritesNumber text negative q ∧ x.IsRounded negative q := by
  simp only [finiteNumber?, Option.filter_eq_some_iff, Option.map_eq_some_iff, writesNumber_iff]
  constructor
  · rintro ⟨⟨d, hd, rfl⟩, hfinite⟩
    exact ⟨_, _, ⟨d, hd, rfl, rfl⟩, Decimal.isRounded_toBinary64 hfinite⟩
  · rintro ⟨_, _, ⟨d, hd, rfl, rfl⟩, hx⟩
    have hfinite : d.toBinary64.isFinite = true := Decimal.isFinite_toBinary64.mpr hx.abs_lt
    obtain rfl := (Decimal.isRounded_toBinary64 hfinite).unique hx
    exact ⟨⟨d, hd, rfl⟩, hfinite⟩

theorem exists_finiteNumber? : (∃ x, finiteNumber? text = some x) ↔ WritesFinite text := by
  constructor
  · rintro ⟨x, hx⟩
    obtain ⟨negative, q, hwrites, hrounded⟩ := finiteNumber?_eq_some.mp hx
    exact ⟨negative, q, hwrites, hrounded.abs_lt⟩
  · rintro ⟨negative, q, hwrites, hlt⟩
    obtain ⟨d, hd, rfl, rfl⟩ := writesNumber_iff.mp hwrites
    have hrounded := Decimal.isRounded_toBinary64 (Decimal.isFinite_toBinary64.mpr hlt)
    exact ⟨_, finiteNumber?_eq_some.mpr ⟨_, _, hwrites, hrounded⟩⟩

theorem finiteNumber?_eq_none : finiteNumber? text = none ↔ ¬ WritesFinite text := by
  rw [← exists_finiteNumber?, Option.eq_none_iff_forall_ne_some, not_exists]

theorem WritesNumber.not_isBlank (h : WritesNumber text negative q) :
    Text.isBlank text = false := by
  obtain ⟨core, hcore, hnumeral⟩ := h
  obtain ⟨-, c, hc, -⟩ := hnumeral.chars
  rw [← Bool.not_eq_true, Text.isBlank_iff, hcore.trim_eq]
  exact List.ne_nil_of_mem hc

theorem isBlank_of_finiteNumber? (h : finiteNumber? text = some x) : Text.isBlank text = false := by
  obtain ⟨negative, q, hwrites, -⟩ := finiteNumber?_eq_some.mp h
  exact hwrites.not_isBlank

end Texts

namespace MediaType

/-- Whether a text names a type: white space around it left out, it has the letters of the name, and
each of them may be small or capital. -/
def IsNamedBy (t : MediaType) (text : String) : Prop :=
  ∃ core, Text.IsTrimmed text core ∧
    List.Forall₂ (fun c d => c = d ∨ c = d.toUpper) core t.name.toList

/-- A text without the white space around it and without capitals. -/
def normalText (text : String) : String :=
  String.ofList (Text.lowerAscii (Text.trim text))

variable {t : MediaType} {text : String}

theorem isLower_of_mem_name : ∀ d ∈ t.name.toList, d.isLower = true := by
  have hall : t.name.toList.all Char.isLower = true := by
    cases t <;> decide
  exact List.all_eq_true.mp hall

theorem parse?_eq_some : parse? text = some t ↔ normalText text = t.name := by
  rw [parse?, ← normalText]
  split <;> cases t <;> simp_all [name]

theorem isNamedBy_iff : t.IsNamedBy text ↔ normalText text = t.name := by
  rw [normalText, ← String.toList_inj, String.toList_ofList,
    Text.lowerAscii_eq_iff isLower_of_mem_name, IsNamedBy]
  constructor
  · rintro ⟨core, htrim, hletters⟩
    rwa [htrim.trim_eq]
  · intro hletters
    exact ⟨_, Text.isTrimmed_trim text, hletters⟩

theorem parse_eq_ok : parse text = .ok t ↔ t.IsNamedBy text := by
  rw [isNamedBy_iff, ← parse?_eq_some, parse]
  cases parse? text <;> simp

theorem parse_eq_error_iff {error : ConversionError} : parse text = .error error ↔
    (∀ t : MediaType, ¬ t.IsNamedBy text) ∧ error = .invalidValue .type text := by
  have hnone : parse? text = none ↔ ∀ t : MediaType, ¬ t.IsNamedBy text := by
    simp only [Option.eq_none_iff_forall_ne_some, ne_eq, parse?_eq_some, isNamedBy_iff]
  rw [← hnone, parse]
  cases parse? text <;> simp [eq_comm]

theorem isBlank_iff_normalText : Text.isBlank text = true ↔ normalText text = "" := by
  rw [Text.isBlank_iff, normalText, String.ofList_eq_empty_iff, Text.lowerAscii,
    List.map_eq_nil_iff]

theorem not_isBlank (h : t.IsNamedBy text) : Text.isBlank text = false := by
  rw [← Bool.not_eq_true, isBlank_iff_normalText, isNamedBy_iff.mp h]
  cases t <;> decide

/-- Only ASCII letters become letters of a name. -/
theorem toNat_lt_of_isNamedBy (h : t.IsNamedBy text) {core : List Char}
    (hcore : Text.IsTrimmed text core) {c : Char} (hc : c ∈ core) : c.toNat < 128 := by
  rw [isNamedBy_iff, normalText, hcore.trim_eq] at h
  have hmem : c.toLower ∈ t.name.toList := by
    rw [← h, String.toList_ofList]
    exact List.mem_map_of_mem hc
  have hlower := Text.toNat_of_isLower (isLower_of_mem_name _ hmem)
  rw [Text.toNat_toLower] at hlower
  split at hlower <;> omega

theorem parse_normalText (h : t.IsNamedBy text) : parse (normalText text) = .ok t := by
  rw [isNamedBy_iff.mp h, parse_eq_ok, isNamedBy_iff]
  cases t <;> decide

end MediaType

/-- A text that a field may not have: it is more than white space, but it is not a finite number or
not a type of media. -/
def Field.Excludes : Field → String → Prop
  | .latitude, text | .longitude, text => Text.isBlank text = false ∧ ¬ WritesFinite text
  | .type, text => Text.isBlank text = false ∧ ∀ t : MediaType, ¬ t.IsNamedBy text

end SocialPayload
