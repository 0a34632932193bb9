import SocialPayload.Xml.Scan

namespace SocialPayload.Xml

/-- A name as it is written in a tag, with at most one colon. Without a qualifier that part is
empty. -/
structure QName where
  qualifier : String
  localPart : String
deriving DecidableEq, Repr

def QName.toString (n : QName) : String :=
  if n.qualifier.isEmpty then n.localPart else n.qualifier ++ ":" ++ n.localPart

def beginsName : List Char → Bool
  | [] => false
  | c :: _ => isNameStart c

/-- Reads a name in which a colon is a character like others. -/
def readName (s : List Char) : Except Fault (String × List Char) :=
  if beginsName s then .ok (String.ofList (s.takeWhile isNameChar), s.dropWhile isNameChar)
  else .error (.invalidName s.length)

/-- Parts a run of name characters at its colon. The qualifier may be empty beside a colon. -/
def QName.ofRun? (run : List Char) : Option QName :=
  match run.dropWhile (· != ':') with
  | [] => if beginsName run then some ⟨"", String.ofList run⟩ else none
  | _ :: localPart =>
    let qualifier := run.takeWhile (· != ':')
    if (qualifier.isEmpty || beginsName qualifier) && beginsName localPart
        && !localPart.contains ':' then
      some ⟨String.ofList qualifier, String.ofList localPart⟩
    else none

/-- Reads a qualified name. -/
def readQualifiedName (s : List Char) : Except Fault (QName × List Char) :=
  match QName.ofRun? (s.takeWhile isNameChar) with
  | some n => .ok (n, s.dropWhile isNameChar)
  | none => .error (.invalidName s.length)

theorem readQualifiedName_length_le {s rest : List Char} {n : QName}
    (h : readQualifiedName s = .ok (n, rest)) : rest.length ≤ s.length := by
  unfold readQualifiedName at h
  split at h
  · cases h
    exact length_dropWhile_le isNameChar s
  · cases h

theorem readName_length_le {s rest : List Char} {n : String}
    (h : readName s = .ok (n, rest)) : rest.length ≤ s.length := by
  unfold readName at h
  split at h
  · cases h
    exact length_dropWhile_le isNameChar s
  · cases h

end SocialPayload.Xml
