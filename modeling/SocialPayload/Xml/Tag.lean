import SocialPayload.Xml.LineEnd
import SocialPayload.Xml.Namespace

namespace SocialPayload.Xml

/-- Reads the quote that opens an attribute's value. -/
def openingQuote : List Char → Except Fault (Char × List Char)
  | [] => .error .unexpectedEnd
  | c :: s =>
    if c == '\'' || c == '"' then .ok (c, s)
    else .error (.expectedOneOf .quote (leadByte c) (s.length + 1))

/-- Reads an attribute: its name, and its value as written. -/
def readAttribute (s : List Char) : Except Fault ((QName × List Char) × List Char) := do
  let (name, s) ← readQualifiedName s
  let s ← expectChar '=' (skipSpaces s)
  let (quote, s) ← openingQuote (skipSpaces s)
  let (value, s) ← readWhile (fun c => c != quote && c != '<') s
  let s ← expectChar quote s
  return ((name, value), s)

/-- What comes next in a start tag after the name of its element. -/
inductive TagItem where
  | next (a : Attribute)
  | finish (isEmpty : Bool)
deriving DecidableEq, Repr

/-- Reads an attribute of a start tag and decodes its value. -/
def readDecodedAttribute (s : List Char) : Except Fault (Attribute × List Char) := do
  let ((name, value), rest) ← readAttribute s
  let value ← readPieces (rest.length + 1) value
  return (⟨name, attributeText value, s.length⟩, rest)

/-- Reads the next item of a start tag. White space parts attributes from what is before them. -/
def readTagItem (s : List Char) : Except Fault (TagItem × List Char) :=
  match skipSpaces s with
  | [] => .error .unexpectedEnd
  | '>' :: rest => .ok (.finish false, rest)
  | '/' :: rest => (expectChar '>' rest).map fun rest => (.finish true, rest)
  | c :: rest =>
    if s.head?.any isSpace then
      (readDecodedAttribute (c :: rest)).map fun (a, rest) => (.next a, rest)
    else .error (.expectedOneOf .whitespace (leadByte c) (rest.length + 1))

/-- A start tag: the name as written, the name it stands for, the namespaces in force inside, and
whether the tag is also the end of its element. -/
structure StartTag where
  written : QName
  name : ExpandedName
  scope : Scope
  isEmpty : Bool
deriving DecidableEq, Repr

/-- Finishes a start tag inside an outer scope. `place` is that of its name. -/
def StartTag.resolve (outer : Scope) (written : QName) (found : Attributes) (isEmpty : Bool)
    (place : Nat) : Except Fault StartTag := do
  let scope := found.declared ++ outer
  scope.checkAttributes [] found.others
  let uri ← scope.resolve written.qualifier place
  return { written, name := ⟨uri, written.localPart⟩, scope, isEmpty }

theorem openingQuote_length {s rest : List Char} {c : Char}
    (h : openingQuote s = .ok (c, rest)) : rest.length < s.length := by
  unfold openingQuote at h
  split at h
  · cases h
  · split at h
    · cases h
      simp
    · cases h

theorem readAttribute_length {s rest : List Char} {a : QName × List Char}
    (h : readAttribute s = .ok (a, rest)) : rest.length < s.length := by
  simp only [readAttribute, bind_eq_ok, pure_eq_ok, Prod.exists, Prod.mk.injEq] at h
  obtain ⟨name, s₁, h₁, s₂, h₂, quote, s₃, h₃, value, s₄, h₄, s₅, h₅, -, rfl⟩ := h
  have e₁ := readQualifiedName_length_le h₁
  have e₂ := Nat.lt_of_lt_of_le (expectChar_length h₂) (length_skipSpaces_le s₁)
  have e₃ := Nat.lt_of_lt_of_le (openingQuote_length h₃) (length_skipSpaces_le s₂)
  have e₄ := (readWhile_eq_ok.mp h₄).2.2 ▸ length_dropWhile_le _ s₃
  have e₅ := expectChar_length h₅
  omega

theorem readDecodedAttribute_length {s rest : List Char} {a : Attribute}
    (h : readDecodedAttribute s = .ok (a, rest)) : rest.length < s.length := by
  simp only [readDecodedAttribute, bind_eq_ok, pure_eq_ok, Prod.exists, Prod.mk.injEq] at h
  obtain ⟨name, value, rest', h₁, run, -, -, rfl⟩ := h
  exact readAttribute_length h₁

theorem readTagItem_length {s rest : List Char} {i : TagItem}
    (h : readTagItem s = .ok (i, rest)) : rest.length < s.length := by
  have e := length_skipSpaces_le s
  unfold readTagItem at h
  split at h <;> rename_i hs
  · cases h
  · cases h
    simp only [hs, List.length_cons] at e
    omega
  · simp only [map_eq_ok, Prod.mk.injEq] at h
    obtain ⟨tail, htail, -, rfl⟩ := h
    have := expectChar_length htail
    simp only [hs, List.length_cons] at e
    omega
  · split at h
    · simp only [map_eq_ok, Prod.exists, Prod.mk.injEq] at h
      obtain ⟨a, tail, htail, -, rfl⟩ := h
      have := readDecodedAttribute_length htail
      rw [hs] at e
      omega
    · cases h

/-- Reads the attributes of a start tag and its end. There is no result where the text ends after
the name of the element or after an attribute. -/
def readAttributes (found : Attributes) (s : List Char) :
    Except Fault (Option ((Attributes × Bool) × List Char)) :=
  if s.isEmpty then .ok none
  else
    match _h : readTagItem s with
    | .error fault => .error fault
    | .ok (.finish isEmpty, rest) => .ok (some ((found, isEmpty), rest))
    | .ok (.next a, rest) =>
      match found.add a with
      | .error fault => .error fault
      | .ok found => readAttributes found rest
termination_by s.length
decreasing_by exact readTagItem_length (by assumption)

/-- Reads a start tag after its `<`, inside an outer scope. There is no result where the text ends
after the name of the element or after an attribute. -/
def readStartTag (outer : Scope) (s : List Char) :
    Except Fault (Option (StartTag × List Char)) := do
  let (written, rest) ← readQualifiedName s
  if written.qualifier == "xmlns" then .error (.xmlnsElement s.length)
  else
    match ← readAttributes {} rest with
    | none => return none
    | some ((found, isEmpty), rest) =>
      let tag ← StartTag.resolve outer written found isEmpty s.length
      return some (tag, rest)

theorem readAttributes_length {found found' : Attributes} {isEmpty : Bool} {s rest : List Char}
    (h : readAttributes found s = .ok (some ((found', isEmpty), rest))) :
    rest.length < s.length := by
  fun_induction readAttributes found s with
  | case1 => simp at h
  | case2 => simp at h
  | case3 found s _ isEmpty' tail hitem =>
    simp only [Except.ok.injEq, Option.some.injEq, Prod.mk.injEq] at h
    exact h.2 ▸ readTagItem_length hitem
  | case4 => simp at h
  | case5 found s _ a tail hitem found'' hadd ih =>
    exact Nat.lt_trans (ih h) (readTagItem_length hitem)

theorem readStartTag_length {outer : Scope} {s rest : List Char} {tag : StartTag}
    (h : readStartTag outer s = .ok (some (tag, rest))) : rest.length < s.length := by
  simp only [readStartTag, bind_eq_ok, Prod.exists] at h
  obtain ⟨written, s₁, h₁, h₂⟩ := h
  split at h₂
  · cases h₂
  · obtain ⟨found, h₃, h₄⟩ := bind_eq_ok.mp h₂
    split at h₄
    · cases h₄
    · simp only [bind_eq_ok, pure_eq_ok, Option.some.injEq, Prod.mk.injEq] at h₄
      obtain ⟨-, -, -, rfl⟩ := h₄
      exact Nat.lt_of_lt_of_le (readAttributes_length h₃) (readQualifiedName_length_le h₁)

/-- Reads an end tag after its `</`. -/
def readEndTag (s : List Char) : Except Fault (QName × List Char) := do
  let (name, s) ← readQualifiedName s
  let s ← expectChar '>' (skipSpaces s)
  return (name, s)

theorem readEndTag_length {s rest : List Char} {n : QName}
    (h : readEndTag s = .ok (n, rest)) : rest.length < s.length := by
  simp only [readEndTag, bind_eq_ok, pure_eq_ok, Prod.exists, Prod.mk.injEq] at h
  obtain ⟨name, s₁, h₁, s₂, h₂, -, rfl⟩ := h
  have e₁ := readQualifiedName_length_le h₁
  have e₂ := Nat.lt_of_lt_of_le (expectChar_length h₂) (length_skipSpaces_le s₁)
  omega

end SocialPayload.Xml
