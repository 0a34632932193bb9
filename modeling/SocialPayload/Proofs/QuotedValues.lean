import SocialPayload.Error
import SocialPayload.Proofs.WrittenReferences

namespace SocialPayload

theorem Field.name_injective {field field' : Field} (h : field.name = field'.name) :
    field = field' := by
  cases field <;> cases field' <;> simp_all [name]

namespace Text

/-- The control characters, those above ASCII among them. -/
def isControl (c : Char) : Bool :=
  c.toNat < 0x20 || (0x7F ≤ c.toNat && c.toNat < 0xA0)

/-- What stands in a text before the first double quote that no backslash escapes. -/
def beforeQuote : List Char → List Char
  | [] => []
  | '"' :: _ => []
  | '\\' :: c :: s => '\\' :: c :: beforeQuote s
  | c :: s => c :: beforeQuote s

/-- Reads what an escape stands for, after its backslash. -/
def readEscape : List Char → Option (Char × List Char)
  | '0' :: s => some ('\x00', s)
  | 't' :: s => some ('\t', s)
  | 'n' :: s => some ('\n', s)
  | 'r' :: s => some ('\r', s)
  | '"' :: s => some ('"', s)
  | '\\' :: s => some ('\\', s)
  | 'u' :: '\x7b' :: s =>
    let digits := s.takeWhile Xml.isHexDigit
    let n := Xml.numberOfDigits 16 digits
    match s.dropWhile Xml.isHexDigit with
    | '\x7d' :: rest =>
      if !digits.isEmpty && n.isValidChar then some (Char.ofNat n, rest) else none
    | _ => none
  | _ => none

theorem readEscape_length {s rest : List Char} {c : Char} (h : readEscape s = some (c, rest)) :
    rest.length < s.length := by
  unfold readEscape at h
  split at h
  case h_7 s =>
    have hdrop := Xml.length_dropWhile_le Xml.isHexDigit s
    dsimp only at h
    split at h
    · rename_i hrest
      split at h
      · cases h
        rw [hrest] at hdrop
        simp only [List.length_cons] at hdrop ⊢
        omega
      · cases h
    · cases h
  all_goals cases h
  all_goals simp

/-- The text that was written with escapes, if each of them is one. -/
def unescape (s : List Char) : Option (List Char) :=
  match s with
  | [] => some []
  | c :: s =>
    if c == '\\' then
      match _h : readEscape s with
      | some (d, rest) => (unescape rest).map (d :: ·)
      | none => none
    else (unescape s).map (c :: ·)
termination_by s.length
decreasing_by
  · have := readEscape_length _h
    simp only [List.length_cons]
    omega
  · simp

/-- The characters that quoted texts show as they are. No control is one of them. -/
structure Repertoire where
  shows : Char → Bool
  controls : ∀ c, isControl c = true → shows c = false

namespace Repertoire

/-- One character as it is written in a text that shows the characters of the repertoire. -/
def escape (repertoire : Repertoire) (c : Char) : List Char :=
  if c == '\x00' then ['\\', '0']
  else if c == '\t' then ['\\', 't']
  else if c == '\n' then ['\\', 'n']
  else if c == '\r' then ['\\', 'r']
  else if c == '"' then ['\\', '"']
  else if c == '\\' then ['\\', '\\']
  else if repertoire.shows c then [c]
  else numericEscape c

def quote (repertoire : Repertoire) (text : String) : String :=
  String.ofList ('"' :: text.toList.flatMap repertoire.escape ++ ['"'])

/-- The wording of the error about a value of a field. -/
def complaint (repertoire : Repertoire) (field : Field) (value : String) : String :=
  s!"invalid value {repertoire.quote value} for {field.name}"

end Repertoire

theorem isPrintable_of_isControl {c : Char} (h : isControl c = true) : isPrintable c = false := by
  have hranges : (0x0, 0x1F) ∈ hiddenRanges ∧ (0x7F, 0xA0) ∈ hiddenRanges := by decide
  rw [isPrintable, Bool.not_eq_false', List.any_eq_true]
  simp only [isControl, Bool.or_eq_true, Bool.and_eq_true, decide_eq_true_eq] at h
  rcases h with h | h
  · refine ⟨_, hranges.1, ?_⟩
    simp only [Bool.and_eq_true, decide_eq_true_eq]
    omega
  · refine ⟨_, hranges.2, ?_⟩
    simp only [Bool.and_eq_true, decide_eq_true_eq]
    omega

/-- The repertoire of the errors that are shown. -/
def Repertoire.printable : Repertoire where
  shows := isPrintable
  controls _ := isPrintable_of_isControl

theorem digitChar_hexadecimal {n : Nat} (h : n < 16) : Xml.isHexDigit n.digitChar = true ∧
    Xml.digitValue n.digitChar = n ∧ isControl n.digitChar = false ∧
    n.digitChar ≠ '"' ∧ n.digitChar ≠ '\\' := by
  have hall : ∀ n : Fin 16, Xml.isHexDigit (Nat.digitChar n) = true ∧
      Xml.digitValue (Nat.digitChar n) = n ∧ isControl (Nat.digitChar n) = false ∧
      Nat.digitChar n ≠ '"' ∧ Nat.digitChar n ≠ '\\' := by decide
  exact hall ⟨n, h⟩

/-- The digits of a number write that number. -/
theorem numberOfDigits_hexDigits (n : Nat) : Xml.numberOfDigits 16 (hexDigits n) = n := by
  induction n using Nat.strongRecOn with
  | ind n ih =>
    rw [hexDigits, Nat.toDigits_eq_if (by decide)]
    split
    · rename_i hn
      simp [Xml.numberOfDigits, (digitChar_hexadecimal hn).2.1]
    · have hquotient := ih (n / 16) (by omega)
      rw [hexDigits, Xml.numberOfDigits] at hquotient
      have hlast := (digitChar_hexadecimal (Nat.mod_lt n (by decide : 16 > 0))).2.1
      rw [Xml.numberOfDigits, List.foldl_append, hquotient, List.foldl_cons, hlast, List.foldl_nil]
      omega

theorem exists_digitChar {n : Nat} {d : Char} (h : d ∈ hexDigits n) :
    ∃ k < 16, d = Nat.digitChar k := by
  induction n using Nat.strongRecOn with
  | ind n ih =>
    rw [hexDigits, Nat.toDigits_eq_if (by decide)] at h
    split at h
    · rename_i hn
      exact ⟨n, hn, List.mem_singleton.mp h⟩
    · rcases List.mem_append.mp h with h | h
      · exact ih (n / 16) (by omega) h
      · exact ⟨n % 16, by omega, List.mem_singleton.mp h⟩

theorem readEscape_numeric (c : Char) (rest : List Char) :
    readEscape ('u' :: '\x7b' :: (hexDigits c.toNat ++ '\x7d' :: rest)) = some (c, rest) := by
  have hdigits : ∀ d ∈ hexDigits c.toNat, Xml.isHexDigit d = true := by
    intro d hd
    obtain ⟨k, hk, rfl⟩ := exists_digitChar hd
    exact (digitChar_hexadecimal hk).1
  have hend : Xml.isHexDigit '\x7d' = false := by decide
  have hne : hexDigits c.toNat ≠ [] := Nat.toDigits_ne_nil
  have hvalid : c.toNat.isValidChar := c.valid
  simp [readEscape, List.takeWhile_append_of_pos hdigits, List.dropWhile_append_of_pos hdigits, hend,
    numberOfDigits_hexDigits, hne, hvalid]

/-- What may be written for a character: the character, or an escape that is read back as it. In an
escape a quote or a backslash stands right after its first backslash or nowhere. -/
inductive Spelling (c : Char) : List Char → Prop
  | shown (visible : isControl c = false) (plain : c ≠ '"' ∧ c ≠ '\\') : Spelling c [c]
  | escaped {d : Char} {code : List Char} (visible : ∀ e ∈ d :: code, isControl e = false)
      (plain : ∀ e ∈ code, e ≠ '"' ∧ e ≠ '\\')
      (reads : ∀ rest, readEscape (d :: (code ++ rest)) = some (c, rest)) :
      Spelling c ('\\' :: d :: code)

namespace Spelling

variable {c : Char} {written : List Char}

theorem numeric (c : Char) : Spelling c (numericEscape c) := by
  have hdigits : ∀ e ∈ hexDigits c.toNat, isControl e = false ∧ e ≠ '"' ∧ e ≠ '\\' := by
    intro e he
    obtain ⟨k, hk, rfl⟩ := exists_digitChar he
    exact (digitChar_hexadecimal hk).2.2
  have hcode : ∀ e ∈ '\x7b' :: hexDigits c.toNat ++ ['\x7d'],
      isControl e = false ∧ e ≠ '"' ∧ e ≠ '\\' := by
    simp only [List.forall_mem_cons, List.forall_mem_append]
    exact ⟨⟨by decide, hdigits⟩, by decide, by simp⟩
  have hvisible : ∀ e ∈ 'u' :: ('\x7b' :: hexDigits c.toNat ++ ['\x7d']), isControl e = false :=
    List.forall_mem_cons.mpr ⟨by decide, fun e he => (hcode e he).1⟩
  refine .escaped hvisible (fun e he => (hcode e he).2) ?_
  intro rest
  simpa using readEscape_numeric c rest

theorem letter {d : Char} (visible : Text.isControl d = false)
    (reads : ∀ rest, readEscape (d :: rest) = some (c, rest)) : Spelling c ['\\', d] :=
  .escaped (by simpa using visible) (by simp) reads

theorem isControl (h : Spelling c written) : ∀ e ∈ written, Text.isControl e = false := by
  cases h with
  | shown visible => simpa using visible
  | escaped visible => exact List.forall_mem_cons.mpr ⟨by decide, visible⟩

theorem unescape_append (h : Spelling c written) (s : List Char) :
    unescape (written ++ s) = (unescape s).map (c :: ·) := by
  cases h with
  | shown visible plain =>
    rw [List.singleton_append, unescape, if_neg (by simpa using plain.2)]
  | @escaped d code visible plain reads =>
    rw [List.cons_append, unescape, if_pos (by rfl)]
    have hread : readEscape (d :: code ++ s) = some (c, s) := reads s
    split <;> simp_all

theorem beforeQuote_append (h : Spelling c written) (s : List Char) :
    beforeQuote (written ++ s) = written ++ beforeQuote s := by
  have hplain : ∀ code : List Char, (∀ e ∈ code, e ≠ '"' ∧ e ≠ '\\') →
      beforeQuote (code ++ s) = code ++ beforeQuote s := by
    intro code hcode
    induction code with
    | nil => rfl
    | cons e code ih =>
      obtain ⟨he, hcode⟩ := List.forall_mem_cons.mp hcode
      have hrest := ih hcode
      simp_all [beforeQuote]
  cases h with
  | shown visible plain => exact hplain [c] (by simpa using plain)
  | escaped visible plain =>
    simp only [List.cons_append, beforeQuote, hplain _ plain]

end Spelling

namespace Repertoire

variable (repertoire : Repertoire)

theorem escape_spelling (c : Char) : Spelling c (repertoire.escape c) := by
  simp only [escape, beq_iff_eq]
  split_ifs with hnull htab hfeed hreturn hquote hslash hshown
  · subst hnull
    exact .letter (by decide) fun _ => rfl
  · subst htab
    exact .letter (by decide) fun _ => rfl
  · subst hfeed
    exact .letter (by decide) fun _ => rfl
  · subst hreturn
    exact .letter (by decide) fun _ => rfl
  · subst hquote
    exact .letter (by decide) fun _ => rfl
  · subst hslash
    exact .letter (by decide) fun _ => rfl
  · refine .shown ?_ ⟨hquote, hslash⟩
    rw [Bool.eq_false_iff]
    intro hcontrol
    rw [repertoire.controls c hcontrol] at hshown
    cases hshown
  · exact .numeric c

theorem unescape_escaped (s : List Char) : unescape (s.flatMap repertoire.escape) = some s := by
  induction s with
  | nil => rw [List.flatMap_nil, unescape]
  | cons c s ih =>
    rw [List.flatMap_cons, (repertoire.escape_spelling c).unescape_append, ih, Option.map_some]

/-- The first quote after escaped characters that no backslash escapes is the one put there. -/
theorem beforeQuote_escaped (s rest : List Char) :
    beforeQuote (s.flatMap repertoire.escape ++ '"' :: rest) = s.flatMap repertoire.escape := by
  induction s with
  | nil => rfl
  | cons c s ih =>
    rw [List.flatMap_cons, List.append_assoc,
      (repertoire.escape_spelling c).beforeQuote_append, ih]

theorem toList_complaint (field : Field) (value : String) :
    (repertoire.complaint field value).toList = "invalid value \"".toList ++
      (value.toList.flatMap repertoire.escape ++ '"' :: (" for " ++ field.name).toList) := by
  simp [complaint, quote, toString]

theorem isControl_complaint (field : Field) (value : String) :
    ∀ c ∈ (repertoire.complaint field value).toList, isControl c = false := by
  have hbegin : ∀ c ∈ "invalid value \"".toList, (!isControl c) = true :=
    List.all_eq_true.mp (by decide)
  have hend : ∀ c ∈ '"' :: (" for " ++ field.name).toList, (!isControl c) = true :=
    List.all_eq_true.mp (by cases field <;> decide)
  simp only [Bool.not_eq_true'] at hbegin hend
  have hvalue : ∀ c ∈ value.toList.flatMap repertoire.escape, isControl c = false := by
    intro c hc
    obtain ⟨d, -, hd⟩ := List.mem_flatMap.mp hc
    exact (repertoire.escape_spelling d).isControl c hd
  rw [toList_complaint, List.forall_mem_append, List.forall_mem_append]
  exact ⟨hbegin, hvalue, hend⟩

/-- The value is what the part up to the next quote stands for, and the field comes after it. -/
theorem complaint_injective {field field' : Field} {value value' : String}
    (h : repertoire.complaint field value = repertoire.complaint field' value') :
    field = field' ∧ value = value' := by
  have hafter := congrArg String.toList h
  rw [toList_complaint, toList_complaint, List.append_cancel_left_eq] at hafter
  have hquoted := congrArg beforeQuote hafter
  rw [beforeQuote_escaped, beforeQuote_escaped] at hquoted
  have hvalue := congrArg unescape hquoted
  rw [unescape_escaped, unescape_escaped, Option.some.injEq, String.toList_inj] at hvalue
  rw [hquoted, List.append_cancel_left_eq, List.cons_inj_right, String.toList_inj,
    String.append_right_inj] at hafter
  exact ⟨Field.name_injective hafter, hvalue⟩

end Repertoire

end Text

open Text (Repertoire isControl beforeQuote unescape)

/-- The wording of an error about a value shows no controls. After its first quote comes the value
with escapes, up to the next quote that no backslash escapes; without its escapes that part is the
value, so that no two such errors are worded alike. For all this it makes no difference which
characters, controls apart, are shown as they are. -/
theorem ConversionError.message_invalidValue (repertoire : Repertoire) :
    (∀ field value, (invalidValue field value).message =
      Repertoire.printable.complaint field value) ∧
    (∀ field value, (∀ c ∈ (repertoire.complaint field value).toList, isControl c = false) ∧
      ∃ after, (repertoire.complaint field value).toList = "invalid value \"".toList ++ after ∧
        after = beforeQuote after ++ '"' :: (" for " ++ field.name).toList ∧
        unescape (beforeQuote after) = some value.toList) ∧
    ∀ field value field' value',
      repertoire.complaint field value = repertoire.complaint field' value' ↔
        field = field' ∧ value = value' := by
  refine ⟨fun _ _ => rfl, ?_, ?_⟩
  · intro field value
    refine ⟨repertoire.isControl_complaint field value, _,
      repertoire.toList_complaint field value, ?_, ?_⟩
    · rw [repertoire.beforeQuote_escaped]
    · rw [repertoire.beforeQuote_escaped, repertoire.unescape_escaped]
  · intro field value field' value'
    constructor
    · exact repertoire.complaint_injective
    · rintro ⟨rfl, rfl⟩
      rfl

end SocialPayload
