import SocialPayload.Xml.Markup

namespace SocialPayload.Xml

/-- An element whose end has not been read, with what has been read of its content, last first. -/
structure OpenElement where
  tag : StartTag
  content : List Node := []

namespace OpenElement

def push (e : OpenElement) (n : Node) : OpenElement :=
  { e with content := n :: e.content }

def close (e : OpenElement) : Element where
  name := e.tag.name
  content := e.content.reverse

end OpenElement

/-- Reads content item by item up to the end tag of the outermost open element. Each end tag has to
repeat the name that the innermost open element was given, as it was written there. -/
def readContent (inner : OpenElement) (outer : List OpenElement) (s : List Char) :
    Except Fault (Element × List Char) :=
  match _h : readItem inner.tag.scope s with
  | .error fault => .error fault
  | .ok none => .error .unclosedRoot
  | .ok (some (.leaf n, rest)) => readContent (inner.push n) outer rest
  | .ok (some (.opening tag, rest)) =>
    if tag.isEmpty then readContent (inner.push (.element tag.name [])) outer rest
    else readContent { tag } (inner :: outer) rest
  | .ok (some (.closing name place, rest)) =>
    if name != inner.tag.written then
      .error (.mismatchedEndTag inner.tag.written.toString name.toString place)
    else
      match outer with
      | [] => .ok (inner.close, rest)
      | parent :: outer => readContent (parent.push inner.close.toNode) outer rest
termination_by s.length
decreasing_by all_goals exact readItem_length (by assumption)

/-- Reads the root element if one begins here. There is none where the text ends in its start
tag. -/
def readRoot (s : List Char) : Except Fault (Option Element × List Char) :=
  if ['<'].isPrefixOf s then do
    match ← readStartTag [] (s.drop 1) with
    | none => return (none, [])
    | some (tag, rest) =>
      if tag.isEmpty then return (some ⟨tag.name, []⟩, rest)
      else
        let (root, rest) ← readContent { tag } [] rest
        return (some root, rest)
  else .ok (none, s)

end SocialPayload.Xml
