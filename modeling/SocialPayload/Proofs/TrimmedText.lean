import Mathlib.Data.List.DropRight
import Mathlib.Data.List.Forall2
import SocialPayload.Text.Blank

namespace SocialPayload.Text

/-- Whether a text is made up of some characters and white space around them, none of it theirs. -/
def IsTrimmed (text : String) (core : List Char) : Prop :=
  ∃ front back, text.toList = front ++ core ++ back ∧
    (∀ c ∈ front ++ back, isBlankChar c = true) ∧
    ∀ c, core.head? = some c ∨ core.getLast? = some c → isBlankChar c = false

theorem dropEndWhile_eq (p : Char → Bool) (l : List Char) : dropEndWhile p l = l.rdropWhile p := by
  induction l with
  | nil => rfl
  | cons c l ih =>
    rw [dropEndWhile, ih, List.rdropWhile, List.rdropWhile, List.reverse_cons, List.dropWhile_append]
    cases l.reverse.dropWhile p with
    | nil => cases hc : p c <;> simp [hc]
    | cons d rest => simp

theorem dropWhile_eq_self {p : Char → Bool} {l : List Char}
    (h : ∀ c, l.head? = some c → p c = false) : l.dropWhile p = l := by
  cases l with
  | nil => rfl
  | cons c l => simp [h c rfl]

theorem isTrimmed_trim (text : String) : IsTrimmed text (trim text) := by
  rw [trim, dropEndWhile_eq]
  refine ⟨text.toList.takeWhile isBlankChar,
    (text.toList.dropWhile isBlankChar).rtakeWhile isBlankChar, ?_, ?_, ?_⟩
  · rw [List.append_assoc, List.rdropWhile_append_rtakeWhile, List.takeWhile_append_dropWhile]
  · intro c hc
    rcases List.mem_append.mp hc with hc | hc
    · exact List.mem_takeWhile_imp hc
    · exact List.mem_rtakeWhile_imp hc
  · rintro c (hfirst | hlast)
    · obtain ⟨back, hback⟩ := List.rdropWhile_prefix isBlankChar (text.toList.dropWhile isBlankChar)
      have hnot := List.head?_dropWhile_not isBlankChar text.toList
      rw [← hback, List.head?_append, hfirst] at hnot
      exact hnot
    · obtain ⟨hne, rfl⟩ := List.mem_getLast?_eq_getLast hlast
      simpa using List.rdropWhile_last_not isBlankChar _ hne

theorem IsTrimmed.trim_eq {text : String} {core : List Char} (h : IsTrimmed text core) :
    trim text = core := by
  obtain ⟨front, back, htext, hblank, hends⟩ := h
  obtain ⟨hfront, hback⟩ := List.forall_mem_append.mp hblank
  have hdrop : text.toList.dropWhile isBlankChar = core ++ (if core = [] then [] else back) := by
    rw [htext, List.append_assoc, List.dropWhile_append_of_pos hfront]
    cases core with
    | nil => simpa using hback
    | cons c rest => simp [hends c (.inl rfl)]
  have hcore : core.reverse.dropWhile isBlankChar = core.reverse := by
    apply dropWhile_eq_self
    intro c hc
    rw [List.head?_reverse] at hc
    exact hends c (.inr hc)
  rw [trim, dropEndWhile_eq, hdrop, List.rdropWhile, List.reverse_append]
  split
  · simp [hcore]
  · rw [List.dropWhile_append_of_pos (by simpa using hback), hcore, List.reverse_reverse]

/-- What is left of a text is what has white space around it and none at its ends. -/
theorem trim_eq_iff {text : String} {core : List Char} : trim text = core ↔ IsTrimmed text core :=
  ⟨fun h => h ▸ isTrimmed_trim text, IsTrimmed.trim_eq⟩

theorem isBlank_iff {text : String} : isBlank text = true ↔ trim text = [] := by
  constructor
  · intro h
    refine IsTrimmed.trim_eq ⟨text.toList, [], by simp, ?_, by simp⟩
    simpa [isBlank] using h
  · intro h
    obtain ⟨front, back, htext, hblank, -⟩ := trim_eq_iff.mp h
    rw [isBlank, List.all_eq_true, htext]
    simpa using hblank

/-- More white space around a text makes no difference to what is left of it. -/
theorem trim_padded {text padded : String} {front back : List Char}
    (h : padded.toList = front ++ text.toList ++ back)
    (hblank : ∀ c ∈ front ++ back, isBlankChar c = true) : trim padded = trim text := by
  obtain ⟨inner, outer, htext, hinner, hends⟩ := isTrimmed_trim text
  refine IsTrimmed.trim_eq ⟨front ++ inner, outer ++ back, by simp [h, htext], ?_, hends⟩
  simp only [List.mem_append] at hblank hinner ⊢
  grind

theorem toNat_toLower (c : Char) :
    c.toLower.toNat = if 65 ≤ c.toNat ∧ c.toNat ≤ 90 then c.toNat + 32 else c.toNat := by
  have hcapital : (c.val ≥ 'A'.val ∧ c.val ≤ 'Z'.val) ↔ 65 ≤ c.toNat ∧ c.toNat ≤ 90 := Iff.rfl
  delta Char.toLower
  split
  · rename_i h
    rw [if_pos (hcapital.mp h)]
    have hle : c.val.toNat ≤ 90 := h.2
    change (c.val + ('a'.val - 'A'.val)).toNat = c.val.toNat + 32
    rw [UInt32.toNat_add]
    exact Nat.mod_eq_of_lt (by change c.val.toNat + 32 < 2 ^ 32; omega)
  · rename_i h
    rw [if_neg (hcapital.not.mp h)]

theorem toNat_toUpper (c : Char) :
    c.toUpper.toNat = if 97 ≤ c.toNat ∧ c.toNat ≤ 122 then c.toNat - 32 else c.toNat := by
  have hsmall : ('a'.val ≤ c.val ∧ c.val ≤ 'z'.val) ↔ 97 ≤ c.toNat ∧ c.toNat ≤ 122 := Iff.rfl
  delta Char.toUpper
  split
  · rename_i h
    rw [if_pos (hsmall.mp h)]
    have hle : 97 ≤ c.val.toNat ∧ c.val.toNat ≤ 122 := h
    change (c.val + ('A'.val - 'a'.val)).toNat = c.val.toNat - 32
    have hshift : ('A'.val - 'a'.val).toNat = 2 ^ 32 - 32 := by decide
    rw [UInt32.toNat_add, hshift]
    omega
  · rename_i h
    rw [if_neg (hsmall.not.mp h)]

theorem toNat_of_isLower {c : Char} (h : c.isLower = true) : 97 ≤ c.toNat ∧ c.toNat ≤ 122 := by
  have hboth : (decide (c.val ≥ 'a'.val) && decide (c.val ≤ 'z'.val)) = true := h
  rwa [Bool.and_eq_true, decide_eq_true_eq, decide_eq_true_eq] at hboth

/-- Only a small letter and its capital become that letter. -/
theorem toLower_eq_iff {c d : Char} (hd : d.isLower = true) :
    c.toLower = d ↔ c = d ∨ c = d.toUpper := by
  have hsmall := toNat_of_isLower hd
  simp only [← Char.toNat_inj, toNat_toLower, toNat_toUpper]
  split <;> omega

/-- A text in small letters is what is left of the texts that spell it in any case. -/
theorem lowerAscii_eq_iff {text name : List Char} (hname : ∀ d ∈ name, d.isLower = true) :
    lowerAscii text = name ↔ List.Forall₂ (fun c d => c = d ∨ c = d.toUpper) text name := by
  rw [← List.forall₂_eq_eq_eq, lowerAscii, List.forall₂_map_left_iff]
  induction name generalizing text with
  | nil => simp
  | cons d name ih =>
    obtain ⟨hd, hname⟩ := List.forall_mem_cons.mp hname
    cases text with
    | nil => simp
    | cons c text => rw [List.forall₂_cons, List.forall₂_cons, toLower_eq_iff hd, ih hname]

end SocialPayload.Text
