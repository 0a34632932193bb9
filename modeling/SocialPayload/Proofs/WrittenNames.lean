import SocialPayload.Xml.Name

namespace SocialPayload.Xml

/-- A name without a colon, as a qualifier or a local part is. -/
def isPlainName (s : String) : Bool :=
  beginsName s.toList && s.toList.all isNameChar && !s.toList.contains ':'

namespace QName

def IsWritable (n : QName) : Prop :=
  (n.qualifier = "" ∨ isPlainName n.qualifier = true) ∧ isPlainName n.localPart = true

def chars (n : QName) : List Char :=
  n.toString.toList

theorem chars_unqualified {n : QName} (h : n.qualifier = "") : n.chars = n.localPart.toList := by
  simp [chars, QName.toString, h]

theorem chars_qualified {n : QName} (h : n.qualifier ≠ "") :
    n.chars = n.qualifier.toList ++ ':' :: n.localPart.toList := by
  simp [chars, QName.toString, h]

end QName

theorem isPlainName_iff {s : String} : isPlainName s = true ↔
    beginsName s.toList = true ∧ (∀ c ∈ s.toList, isNameChar c = true) ∧ ':' ∉ s.toList := by
  simp [isPlainName, and_assoc]

theorem beginsName_append {s t : List Char} (h : beginsName s = true) :
    beginsName (s ++ t) = true := by
  cases s with
  | nil => simp [beginsName] at h
  | cons c s => exact h

theorem isNameChar_of_isSpace {c : Char} (h : isSpace c = true) : isNameChar c = false := by
  simp only [isSpace, Bool.or_eq_true, beq_iff_eq] at h
  rcases h with ((rfl | rfl) | rfl) | rfl <;> decide

theorem bne_colon {s : List Char} (h : ':' ∉ s) : ∀ c ∈ s, (c != ':') = true := by
  intro c hc
  rw [bne_iff_ne]
  intro heq
  exact h (heq ▸ hc)

/-- Only a name with a qualifier has a colon, so a colon parts the two. -/
theorem takeWhile_before_colon {s : List Char} (h : ':' ∉ s) (t : List Char) :
    (s ++ ':' :: t).takeWhile (· != ':') = s ∧ (s ++ ':' :: t).dropWhile (· != ':') = ':' :: t := by
  have hs := bne_colon h
  simp [List.takeWhile_append_of_pos hs, List.dropWhile_append_of_pos hs]

theorem QName.IsWritable.ofRun {n : QName} (h : n.IsWritable) : QName.ofRun? n.chars = some n := by
  obtain ⟨hq, hl⟩ := h
  obtain ⟨hlbegin, -, hlcolon⟩ := isPlainName_iff.mp hl
  by_cases hempty : n.qualifier = ""
  · have hdrop : n.localPart.toList.dropWhile (· != ':') = [] := by
      rw [dropWhile_eq_nil]
      exact bne_colon hlcolon
    rw [chars_unqualified hempty, QName.ofRun?, hdrop]
    simp [hlbegin, ← hempty]
  · obtain ⟨hqbegin, -, hqcolon⟩ := isPlainName_iff.mp (hq.resolve_left hempty)
    obtain ⟨htake, hdrop⟩ := takeWhile_before_colon hqcolon n.localPart.toList
    rw [chars_qualified hempty, QName.ofRun?, hdrop]
    simp [htake, hqbegin, hlbegin, hlcolon]

theorem QName.IsWritable.isNameChar {n : QName} (h : n.IsWritable) :
    ∀ c ∈ n.chars, isNameChar c = true := by
  obtain ⟨hq, hl⟩ := h
  obtain ⟨-, hlchars, -⟩ := isPlainName_iff.mp hl
  by_cases hempty : n.qualifier = ""
  · rwa [chars_unqualified hempty]
  · obtain ⟨-, hqchars, -⟩ := isPlainName_iff.mp (hq.resolve_left hempty)
    rw [chars_qualified hempty]
    intro c hc
    rcases List.mem_append.mp hc with hc | hc
    · exact hqchars c hc
    rcases List.mem_cons.mp hc with rfl | hc
    · decide
    · exact hlchars c hc

/-- A written name begins as a name does, and not with a mark of the markup. -/
theorem QName.IsWritable.begins {n : QName} (h : n.IsWritable) :
    ∃ c s, n.chars = c :: s ∧ isNameStart c = true := by
  obtain ⟨hq, hl⟩ := h
  have hbegin : beginsName n.chars = true := by
    by_cases hempty : n.qualifier = ""
    · rw [chars_unqualified hempty]
      exact (isPlainName_iff.mp hl).1
    · rw [chars_qualified hempty]
      exact beginsName_append (isPlainName_iff.mp (hq.resolve_left hempty)).1
  cases hs : n.chars with
  | nil => simp [hs, beginsName] at hbegin
  | cons c s => exact ⟨c, s, rfl, by simpa [hs, beginsName] using hbegin⟩

/-- A written name is read back up to the first character that belongs to no name. -/
theorem readQualifiedName_chars {n : QName} (h : n.IsWritable) {c : Char}
    (hc : isNameChar c = false) (rest : List Char) :
    readQualifiedName (n.chars ++ c :: rest) = .ok (n, c :: rest) := by
  have htake : (n.chars ++ c :: rest).takeWhile isNameChar = n.chars := by
    simp [List.takeWhile_append_of_pos h.isNameChar, hc]
  have hdrop : (n.chars ++ c :: rest).dropWhile isNameChar = c :: rest := by
    simp [List.dropWhile_append_of_pos h.isNameChar, hc]
  rw [readQualifiedName, htake, hdrop, h.ofRun]

end SocialPayload.Xml
