import SocialPayload.Xml.Tag

namespace SocialPayload.Xml

def commentOpen : List Char := ['<', '!', '-', '-']

def commentClose : List Char := ['-', '-', '>']

def instructionOpen : List Char := ['<', '?']

def instructionClose : List Char := ['?', '>']

def cdataOpen : List Char := ['<', '!', '[', 'C', 'D', 'A', 'T', 'A', '[']

def cdataClose : List Char := [']', ']', '>']

/-- Whether `mark` begins anywhere in a run. -/
def holdsMark (mark run : List Char) : Bool :=
  !(breakAt mark run).2.isEmpty

/-- Reads a comment. Two hyphens stand in none, and a hyphen does not end one. -/
def readComment (s : List Char) : Except Fault (Node × List Char) := do
  let (body, rest) ← readThrough commentClose s
  if holdsMark ['-', '-'] body || body.getLast? == some '-' then
    .error (.invalidComment (s.length + commentOpen.length))
  else return (.comment (String.ofList body), rest)

/-- Reads an instruction. What looks like the declaration of a document is none. -/
def readInstruction (s : List Char) : Except Fault (Node × List Char) :=
  if ['x', 'm', 'l', ' '].isPrefixOf s then
    .error (.misplacedDeclaration (s.length + instructionOpen.length))
  else do
    let (target, s) ← readName s
    let (body, s) ← readThrough instructionClose (skipSpaces s)
    return (.instruction target (String.ofList body), s)

/-- Reads a CDATA section, in which nothing but the line ends is decoded. -/
def readCdata (s : List Char) : Except Fault (Node × List Char) := do
  let (run, rest) ← readThrough cdataClose s
  return (.text (runText (run.map .literal)), rest)

/-- Reads text up to the next markup. The whole run is read before its references are. -/
def readCharacters (s : List Char) : Except Fault (Node × List Char) := do
  let (run, rest) ← readWhile (· != '<') s
  if holdsMark cdataClose run then .error (.cdataEndInText rest.length)
  else do
    let run ← readPieces rest.length run
    return (.text (runText run), rest)

theorem readComment_length_le {s rest : List Char} {n : Node}
    (h : readComment s = .ok (n, rest)) : rest.length ≤ s.length := by
  simp only [readComment, bind_eq_ok, Prod.exists] at h
  obtain ⟨body, tail, h₁, h₂⟩ := h
  split at h₂
  · cases h₂
  · cases h₂
    exact readThrough_length_le h₁

theorem readInstruction_length_le {s rest : List Char} {n : Node}
    (h : readInstruction s = .ok (n, rest)) : rest.length ≤ s.length := by
  unfold readInstruction at h
  split at h
  · cases h
  · simp only [bind_eq_ok, pure_eq_ok, Prod.exists, Prod.mk.injEq] at h
    obtain ⟨target, s₁, h₁, body, s₂, h₂, -, rfl⟩ := h
    have e₁ := readName_length_le h₁
    have e₂ := Nat.le_trans (readThrough_length_le h₂) (length_skipSpaces_le s₁)
    omega

theorem readCdata_length_le {s rest : List Char} {n : Node}
    (h : readCdata s = .ok (n, rest)) : rest.length ≤ s.length := by
  simp only [readCdata, bind_eq_ok, pure_eq_ok, Prod.exists, Prod.mk.injEq] at h
  obtain ⟨run, tail, h₁, -, rfl⟩ := h
  exact readThrough_length_le h₁

theorem readCharacters_rest {s rest : List Char} {n : Node}
    (h : readCharacters s = .ok (n, rest)) : rest = s.dropWhile (· != '<') := by
  simp only [readCharacters, bind_eq_ok, Prod.exists] at h
  obtain ⟨run, tail, h₁, h₂⟩ := h
  split at h₂
  · cases h₂
  · simp only [bind_eq_ok, pure_eq_ok, Prod.mk.injEq] at h₂
    obtain ⟨-, -, -, rfl⟩ := h₂
    exact (readWhile_eq_ok.mp h₁).2.2

/-- An item of content. An end tag comes with its place. -/
inductive Item where
  | leaf (n : Node)
  | opening (tag : StartTag)
  | closing (name : QName) (place : Nat)

def leafOf (read : Node × List Char) : Item × List Char :=
  (.leaf read.1, read.2)

/-- Reads an item that begins with `<`, which is still there. -/
def readMarkup (scope : Scope) (s : List Char) : Except Fault (Option (Item × List Char)) :=
  if commentOpen.isPrefixOf s then
    (readComment (s.drop commentOpen.length)).map (some <| leafOf ·)
  else if cdataOpen.isPrefixOf s then
    (readCdata (s.drop cdataOpen.length)).map (some <| leafOf ·)
  else if ['<', '!'].isPrefixOf s then .error (.unknownToken s.length)
  else if instructionOpen.isPrefixOf s then
    (readInstruction (s.drop instructionOpen.length)).map (some <| leafOf ·)
  else if ['<', '/'].isPrefixOf s then
    (readEndTag (s.drop 2)).map fun (name, rest) => some (.closing name s.length, rest)
  else if (s.drop 1).isEmpty then .error (.unknownToken s.length)
  else
    (readStartTag scope (s.drop 1)).map
      (·.map fun (tag, rest) => (.opening tag, rest))

theorem length_drop_lt {mark s : List Char} (hm : 0 < mark.length) (h : mark.isPrefixOf s = true) :
    (s.drop mark.length).length < s.length := by
  have := (List.isPrefixOf_iff_prefix.mp h).length_le
  simp only [List.length_drop]
  omega

theorem readMarkup_length {scope : Scope} {s rest : List Char} {i : Item}
    (h : readMarkup scope s = .ok (some (i, rest))) : rest.length < s.length := by
  unfold readMarkup at h
  split at h
  · rename_i hp
    simp only [map_eq_ok, leafOf, Prod.exists, Option.some.injEq, Prod.mk.injEq] at h
    obtain ⟨n, tail, h₁, -, rfl⟩ := h
    exact Nat.lt_of_le_of_lt (readComment_length_le h₁) (length_drop_lt (by decide) hp)
  split at h
  · rename_i hp
    simp only [map_eq_ok, leafOf, Prod.exists, Option.some.injEq, Prod.mk.injEq] at h
    obtain ⟨n, tail, h₁, -, rfl⟩ := h
    exact Nat.lt_of_le_of_lt (readCdata_length_le h₁) (length_drop_lt (by decide) hp)
  split at h
  · cases h
  split at h
  · rename_i hp
    simp only [map_eq_ok, leafOf, Prod.exists, Option.some.injEq, Prod.mk.injEq] at h
    obtain ⟨n, tail, h₁, -, rfl⟩ := h
    exact Nat.lt_of_le_of_lt (readInstruction_length_le h₁) (length_drop_lt (by decide) hp)
  split at h
  · simp only [map_eq_ok, Prod.exists, Option.some.injEq, Prod.mk.injEq] at h
    obtain ⟨n, tail, h₁, -, rfl⟩ := h
    exact Nat.lt_of_lt_of_le (readEndTag_length h₁) (List.drop_suffix 2 s).length_le
  split at h
  · cases h
  · simp only [map_eq_ok, Option.map_eq_some_iff, Prod.exists, Prod.mk.injEq] at h
    obtain ⟨_, h₁, tag, tail, rfl, -, rfl⟩ := h
    exact Nat.lt_of_lt_of_le (readStartTag_length h₁) (List.drop_suffix 1 s).length_le

/-- Reads the next item of content. There is no result where the text has ended, or ends in a start
tag. -/
def readItem (scope : Scope) (s : List Char) : Except Fault (Option (Item × List Char)) :=
  match s with
  | [] => .ok none
  | c :: _ =>
    if c == '<' then readMarkup scope s else (readCharacters s).map (some <| leafOf ·)

theorem readItem_length {scope : Scope} {s rest : List Char} {i : Item}
    (h : readItem scope s = .ok (some (i, rest))) : rest.length < s.length := by
  unfold readItem at h
  split at h
  · cases h
  · rename_i c tail
    split at h
    · exact readMarkup_length h
    · rename_i hc
      simp only [map_eq_ok, leafOf, Prod.exists, Option.some.injEq, Prod.mk.injEq] at h
      obtain ⟨n, rest', h₁, -, rfl⟩ := h
      rw [readCharacters_rest h₁, List.dropWhile_cons, if_pos (by simpa using hc)]
      exact Nat.lt_succ_of_le (length_dropWhile_le _ tail)

end SocialPayload.Xml
