import SocialPayload.Xml.Content

namespace SocialPayload.Xml

/-- Spaces in the declaration. They may be missing before its end, or where the text ends. -/
def skipDeclarationSpaces (s : List Char) : Except Fault (List Char) :=
  match s with
  | [] => .ok []
  | c :: rest =>
    if isSpace c || instructionClose.isPrefixOf s then .ok (skipSpaces s)
    else .error (.expectedOneOf .whitespace (leadByte c) (rest.length + 1))

def versionMark : List Char := ['v', 'e', 'r', 's', 'i', 'o', 'n']

def encodingMark : List Char := ['e', 'n', 'c', 'o', 'd', 'i', 'n', 'g']

def standaloneMark : List Char := ['s', 't', 'a', 'n', 'd', 'a', 'l', 'o', 'n', 'e']

/-- Reads the declaration of a document after its `<?xml`. Its attributes are told by how their
names begin, and their values do not matter. -/
def readDeclaration (s : List Char) : Except Fault (List Char) := do
  let s ← skipDeclarationSpaces s
  let _ ← expectMark versionMark s
  let (_, s) ← readAttribute s
  let s ← skipDeclarationSpaces s
  let s ←
    if encodingMark.isPrefixOf s then do
      let (_, s) ← readAttribute s
      skipDeclarationSpaces s
    else pure s
  let s ←
    if standaloneMark.isPrefixOf s then do
      let (_, s) ← readAttribute s
      pure s
    else pure s
  expectMark instructionClose (skipSpaces s)

/-- Reads a comment or an instruction if one begins here. -/
def readMiscItem (s : List Char) : Except Fault (Option (List Char)) :=
  if commentOpen.isPrefixOf s then (readComment (s.drop commentOpen.length)).map (some ·.2)
  else if instructionOpen.isPrefixOf s then
    (readInstruction (s.drop instructionOpen.length)).map (some ·.2)
  else .ok none

theorem readMiscItem_length {s rest : List Char} (h : readMiscItem s = .ok (some rest)) :
    rest.length < s.length := by
  unfold readMiscItem at h
  split at h
  · rename_i hp
    simp only [map_eq_ok, Prod.exists, Option.some.injEq] at h
    obtain ⟨n, tail, h₁, rfl⟩ := h
    exact Nat.lt_of_le_of_lt (readComment_length_le h₁) (length_drop_lt (by decide) hp)
  split at h
  · rename_i hp
    simp only [map_eq_ok, Prod.exists, Option.some.injEq] at h
    obtain ⟨n, tail, h₁, rfl⟩ := h
    exact Nat.lt_of_le_of_lt (readInstruction_length_le h₁) (length_drop_lt (by decide) hp)
  · cases h

/-- Reads what may stand outside the root element: spaces, comments and instructions. -/
def readMisc (s : List Char) : Except Fault (List Char) :=
  match _h : readMiscItem (skipSpaces s) with
  | .error fault => .error fault
  | .ok none => .ok (skipSpaces s)
  | .ok (some rest) => readMisc rest
termination_by s.length
decreasing_by
  exact Nat.lt_of_lt_of_le (readMiscItem_length (by assumption)) (length_skipSpaces_le s)

/-- A byte order mark may begin a document. -/
def skipByteOrderMark : List Char → List Char
  | '\uFEFF' :: s => s
  | s => s

def declarationOpen : List Char := ['<', '?', 'x', 'm', 'l']

def doctypeOpen : List Char := ['<', '!', 'D', 'O', 'C', 'T', 'Y', 'P', 'E']

/-- Reads what stands before the root element. A declaration is told by the space in it. -/
def readProlog (s : List Char) : Except Fault (List Char) := do
  let s := skipByteOrderMark s
  let s ←
    if (declarationOpen ++ [' ']).isPrefixOf s then readDeclaration (s.drop declarationOpen.length)
    else pure s
  let s ← readMisc s
  if doctypeOpen.isPrefixOf s then .error .doctype else return s

/-- Reads what stands after the root element: nothing that matters. -/
def readEpilog (s : List Char) : Except Fault Unit := do
  let s ← readMisc s
  if s.isEmpty then return () else .error (.unknownToken s.length)

/-- Reads a whole document. Nothing of a document type definition is ever read; meeting one ends the
reading. -/
def readDocument (s : List Char) : Except Fault Document := do
  let s ← readProlog s
  let (root, s) ← readRoot s
  readEpilog s
  match root with
  | some root => return ⟨root⟩
  | none => .error .noRoot

/-- The document that a text is, or why it is none and where. -/
def Document.parse (text : String) : Except (SyntaxError Position) Document :=
  (readDocument text.toList).mapError (Fault.locate text.toList)

theorem readDocument_eq_ok {s : List Char} {document : Document} :
    readDocument s = .ok document ↔
      ∃ start rest, readProlog s = .ok start ∧ readRoot start = .ok (some document.root, rest) ∧
        readEpilog rest = .ok () := by
  simp only [readDocument, bind_eq_ok, Prod.exists]
  constructor
  · rintro ⟨start, hprolog, root, rest, hroot, ⟨⟩, hepilog, h⟩
    cases root with
    | none => cases h
    | some root =>
      cases h
      exact ⟨start, rest, hprolog, hroot, hepilog⟩
  · rintro ⟨start, rest, hprolog, hroot, hepilog⟩
    exact ⟨start, hprolog, some document.root, rest, hroot, (), hepilog, rfl⟩

theorem Document.parse_eq_ok {text : String} {document : Document} :
    Document.parse text = .ok document ↔ readDocument text.toList = .ok document := by
  unfold Document.parse
  cases readDocument text.toList with
  | error fault => exact ⟨nofun, nofun⟩
  | ok read =>
    constructor
    · intro h
      exact congrArg Except.ok (Except.ok.inj h)
    · intro h
      exact congrArg Except.ok (Except.ok.inj h)

end SocialPayload.Xml
