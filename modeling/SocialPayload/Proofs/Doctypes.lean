import SocialPayload.Proofs.SpelledText
import SocialPayload.Proofs.Truncation

namespace SocialPayload

namespace Xml

variable {s rest : List Char}

/-- Whether a chunk may stand outside the root element. -/
def Chunk.isMisc : Chunk → Bool
  | comment .. | instruction .. => true
  | raw .. | named .. | numeric .. | cdata .. => false

/-- A part of what stands before a root element. -/
inductive Misc where
  | space (c : Char) (known : isSpace c = true)
  | markup (chunk : Chunk) (known : chunk.isMisc = true)

def Misc.write : Misc → List Char
  | space c _ => [c]
  | markup chunk _ => chunk.write

/-- What a document may begin with. -/
structure Prolog where
  byteOrderMark : Bool
  declaration : Bool
  misc : List Misc

namespace Prolog

def mark (prolog : Prolog) : List Char :=
  if prolog.byteOrderMark then ['\uFEFF'] else []

def declarationText (prolog : Prolog) : List Char :=
  if prolog.declaration then "<?xml version=\"1.0\" encoding=\"UTF-8\"?>".toList else []

def write (prolog : Prolog) : List Char :=
  prolog.mark ++ prolog.declarationText ++ prolog.misc.flatMap Misc.write

end Prolog

theorem Chunk.readMiscItem_write {chunk : Chunk} (h : chunk.isMisc = true) (rest : List Char) :
    readMiscItem (chunk.write ++ rest) = .ok (some rest) := by
  cases chunk with
  | comment body chars hyphens ends =>
    have hread := readComment_written chars hyphens ends rest
    simp [write, readMiscItem, commentOpen, List.isPrefixOf, hread, Except.map]
  | instruction target body name unreserved parted chars unclosed =>
    have hread := readInstruction_written name unreserved parted chars unclosed rest
    simp [write, readMiscItem, commentOpen, instructionOpen, List.isPrefixOf, hread, Except.map]
  | raw | named | numeric | cdata => cases h

theorem readMisc_congr {s' : List Char} (h : skipSpaces s = skipSpaces s') :
    readMisc s = readMisc s' := by
  rw [readMisc, readMisc]
  split <;> split <;> simp_all

theorem Chunk.begins_of_isMisc {chunk : Chunk} (h : chunk.isMisc = true) :
    ∃ s, chunk.write = '<' :: s := by
  cases chunk with
  | comment | instruction => exact ⟨_, rfl⟩
  | raw | named | numeric | cdata => cases h

theorem Misc.readMisc_write (misc : Misc) (rest : List Char) :
    readMisc (misc.write ++ rest) = readMisc rest := by
  cases misc with
  | space c known =>
    apply readMisc_congr
    simp [write, skipSpaces, known]
  | markup chunk known =>
    apply readMisc_item
    obtain ⟨s, hs⟩ := Chunk.begins_of_isMisc known
    have hskip : skipSpaces (chunk.write ++ rest) = chunk.write ++ rest := by
      rw [hs, List.cons_append, skipSpaces_cons (by decide)]
    rw [write, hskip, Chunk.readMiscItem_write known]

theorem readMisc_doctype (misc : List Misc) (rest : List Char) :
    readMisc (misc.flatMap Misc.write ++ (doctypeOpen ++ rest)) = .ok (doctypeOpen ++ rest) := by
  induction misc with
  | nil =>
    have hskip : skipSpaces (doctypeOpen ++ rest) = doctypeOpen ++ rest :=
      skipSpaces_cons (by decide) _
    have hend : readMiscItem (skipSpaces (doctypeOpen ++ rest)) = .ok none :=
      readMiscItem_eq_none.mpr ⟨rfl, rfl⟩
    rw [List.flatMap_nil, List.nil_append, readMisc_end hend, hskip]
  | cons m misc ih => rw [List.flatMap_cons, List.append_assoc, m.readMisc_write, ih]

/-- What is read as an instruction does not look like the declaration of a document. -/
theorem isPrefixOf_of_readInstruction {n : Node} (h : readInstruction s = .ok (n, rest)) :
    ['x', 'm', 'l', ' '].isPrefixOf s = false := by
  rw [Bool.eq_false_iff]
  intro hdeclaration
  rw [readInstruction, if_pos hdeclaration] at h
  cases h

theorem Misc.isPrefixOf_declaration (misc : Misc) (rest : List Char) :
    (declarationOpen ++ [' ']).isPrefixOf (misc.write ++ rest) = false := by
  cases misc with
  | space c known =>
    have hc : '<' ≠ c := by
      rintro rfl
      cases known
    simp [write, declarationOpen, List.isPrefixOf, hc]
  | markup chunk known =>
    cases chunk with
    | comment => rfl
    | instruction target body name unreserved parted chars unclosed =>
      have hread := readInstruction_written name unreserved parted chars unclosed rest
      have hdeclaration := isPrefixOf_of_readInstruction hread
      simpa [write, Chunk.write, declarationOpen, instructionOpen, List.isPrefixOf] using hdeclaration
    | raw | named | numeric | cdata => cases known

theorem Misc.skipByteOrderMark_write (misc : Misc) (rest : List Char) :
    skipByteOrderMark (misc.write ++ rest) = misc.write ++ rest := by
  cases misc with
  | space c known =>
    have hc : c ≠ '\uFEFF' := by
      rintro rfl
      cases known
    rw [write, List.singleton_append, skipByteOrderMark_cons, if_neg hc]
  | markup chunk known =>
    obtain ⟨s, hs⟩ := Chunk.begins_of_isMisc known
    rw [write, hs, List.cons_append, skipByteOrderMark_cons, if_neg (by decide)]

theorem skipDeclaration_text (rest : List Char) :
    skipDeclaration ("<?xml version=\"1.0\" encoding=\"UTF-8\"?>".toList ++ rest) = .ok rest := rfl

theorem Prolog.skipByteOrderMark_write (prolog : Prolog) (rest : List Char) :
    skipByteOrderMark (prolog.write ++ (doctypeOpen ++ rest)) =
      prolog.declarationText ++ (prolog.misc.flatMap Misc.write ++ (doctypeOpen ++ rest)) := by
  obtain ⟨mark, declaration, misc⟩ := prolog
  have hnext : skipByteOrderMark (misc.flatMap Misc.write ++ (doctypeOpen ++ rest)) =
      misc.flatMap Misc.write ++ (doctypeOpen ++ rest) := by
    cases misc with
    | nil => rfl
    | cons m misc =>
      rw [List.flatMap_cons, List.append_assoc]
      exact m.skipByteOrderMark_write _
  cases mark with
  | true =>
    simp only [write, Prolog.mark, if_true, List.append_assoc]
    rfl
  | false =>
    cases declaration with
    | true =>
      simp only [write, Prolog.mark, Bool.false_eq_true, if_false, List.nil_append,
        List.append_assoc]
      rfl
    | false =>
      simp only [write, Prolog.mark, declarationText, Bool.false_eq_true, if_false,
        List.nil_append]
      exact hnext

theorem Prolog.skipDeclaration_write (prolog : Prolog) (rest : List Char) :
    skipDeclaration (prolog.declarationText ++
        (prolog.misc.flatMap Misc.write ++ (doctypeOpen ++ rest))) =
      .ok (prolog.misc.flatMap Misc.write ++ (doctypeOpen ++ rest)) := by
  obtain ⟨mark, declaration, misc⟩ := prolog
  cases declaration with
  | true => exact skipDeclaration_text _
  | false =>
    have hbegins : (declarationOpen ++ [' ']).isPrefixOf
        (misc.flatMap Misc.write ++ (doctypeOpen ++ rest)) = false := by
      cases misc with
      | nil => rfl
      | cons m misc =>
        rw [List.flatMap_cons, List.append_assoc]
        exact m.isPrefixOf_declaration _
    rw [declarationText, skipDeclaration]
    simp [hbegins, pure, Except.pure]

theorem readDocument_doctype (prolog : Prolog) (rest : List Char) :
    readDocument (prolog.write ++ (doctypeOpen ++ rest)) = .error .doctype := by
  have hprolog : readProlog (prolog.write ++ (doctypeOpen ++ rest)) = .error .doctype := by
    rw [readProlog_eq, prolog.skipByteOrderMark_write, pure_bind, prolog.skipDeclaration_write]
    simp only [bind, Except.bind, readMisc_doctype]
    rfl
  rw [readDocument, hprolog]
  rfl

end Xml

open Xml (Document Prolog doctypeOpen)

/-- A text in which a document type begins before any element is refused, whatever the document type
is and whatever comes after it. -/
theorem Record.ofText_doctype (prolog : Prolog) (rest : List Char) (kind : EntityKind)
    (config : Config) :
    Record.ofText kind config (String.ofList (prolog.write ++ (doctypeOpen ++ rest))) =
        .error (.invalidXml .doctype) ∧
      convert kind config (String.ofList (prolog.write ++ (doctypeOpen ++ rest))) =
        .error (.invalidXml .doctype) ∧
      (ConversionError.invalidXml .doctype).message = "invalid XML: XML with DTD detected" := by
  have hparse : Document.parse (String.ofList (prolog.write ++ (doctypeOpen ++ rest))) =
      .error .doctype := by
    rw [Document.parse, String.toList_ofList, Xml.readDocument_doctype]
    rfl
  have hrecord : Record.ofText kind config
      (String.ofList (prolog.write ++ (doctypeOpen ++ rest))) = .error (.invalidXml .doctype) := by
    rw [Record.ofText, hparse]
  refine ⟨hrecord, ?_, rfl⟩
  rw [convert, hrecord]
  rfl

end SocialPayload
