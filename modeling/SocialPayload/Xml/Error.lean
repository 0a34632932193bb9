import SocialPayload.Text.Quoted

namespace SocialPayload.Xml

/-- A place in a text: its row, and its column in characters, both from one. -/
structure Position where
  row : Nat
  column : Nat
deriving DecidableEq, Repr

/-- The place just after a text. Only a line feed ends a row. -/
def Position.after (read : List Char) : Position where
  row := read.count '\n' + 1
  column := (read.reverse.takeWhile (· != '\n')).length + 1

def Position.toString (p : Position) : String :=
  p.row.repr ++ ":" ++ p.column.repr

/-- What the reader looked for where several characters would have done. -/
inductive Expectation where
  | whitespace
  | quote
deriving DecidableEq, Repr

def Expectation.toString : Expectation → String
  | whitespace => "a whitespace"
  | quote => "a quote"

/-- Why a text is no document. Where the fault lies is a parameter, so that the reader can count
what is left to read and a caller sees rows and columns. -/
inductive SyntaxError (Place : Type) where
  /-- The prefix `xml` is bound to a namespace not its own. -/
  | xmlPrefixMisbound (place : Place)
  /-- The namespace of the prefix `xml` is bound to something else. -/
  | xmlNamespaceMisused (place : Place)
  /-- The namespace of declarations is itself declared. -/
  | xmlnsNamespaceDeclared (place : Place)
  /-- An element has the prefix `xmlns`. -/
  | xmlnsElement (place : Place)
  | duplicateNamespace (declared : String) (place : Place)
  | unknownNamespace (qualifier : String) (place : Place)
  | mismatchedEndTag (opened closed : String) (place : Place)
  | unknownReference (name : String) (place : Place)
  | malformedReference (place : Place)
  | duplicateAttribute (name : String) (place : Place)
  | noRoot
  | unclosedRoot
  | misplacedDeclaration (place : Place)
  | doctype
  | invalidName (place : Place)
  | invalidCharacter (found : Char) (place : Place)
  | expectedCharacter (expected found : Char) (place : Place)
  | expectedOneOf (expected : Expectation) (found : Char) (place : Place)
  | expectedText (expected : String) (place : Place)
  | invalidComment (place : Place)
  /-- Character data holds the mark that ends a CDATA section. -/
  | cdataEndInText (place : Place)
  | unknownToken (place : Place)
  | unexpectedEnd
deriving DecidableEq, Repr

namespace SyntaxError

def map (f : α → β) : SyntaxError α → SyntaxError β
  | xmlPrefixMisbound p => .xmlPrefixMisbound (f p)
  | xmlNamespaceMisused p => .xmlNamespaceMisused (f p)
  | xmlnsNamespaceDeclared p => .xmlnsNamespaceDeclared (f p)
  | xmlnsElement p => .xmlnsElement (f p)
  | duplicateNamespace n p => .duplicateNamespace n (f p)
  | unknownNamespace n p => .unknownNamespace n (f p)
  | mismatchedEndTag o c p => .mismatchedEndTag o c (f p)
  | unknownReference n p => .unknownReference n (f p)
  | malformedReference p => .malformedReference (f p)
  | duplicateAttribute n p => .duplicateAttribute n (f p)
  | noRoot => .noRoot
  | unclosedRoot => .unclosedRoot
  | misplacedDeclaration p => .misplacedDeclaration (f p)
  | doctype => .doctype
  | invalidName p => .invalidName (f p)
  | invalidCharacter c p => .invalidCharacter c (f p)
  | expectedCharacter e c p => .expectedCharacter e c (f p)
  | expectedOneOf e c p => .expectedOneOf e c (f p)
  | expectedText e p => .expectedText e (f p)
  | invalidComment p => .invalidComment (f p)
  | cdataEndInText p => .cdataEndInText (f p)
  | unknownToken p => .unknownToken (f p)
  | unexpectedEnd => .unexpectedEnd

/-- The wording of a fault. A character that may not occur is shown by its escape. -/
def message : SyntaxError Position → String
  | xmlPrefixMisbound p =>
    s!"'xml' namespace prefix mapped to wrong URI at {p.toString}"
  | xmlNamespaceMisused p =>
    s!"the 'xml' namespace URI is used for not 'xml' prefix at {p.toString}"
  | xmlnsNamespaceDeclared p =>
    s!"the 'xmlns' URI is used at {p.toString}, but it must not be declared"
  | xmlnsElement p =>
    s!"the 'xmlns' prefix is used at {p.toString}, but it must not be"
  | duplicateNamespace declared p =>
    s!"namespace '{declared}' at {p.toString} is already defined"
  | unknownNamespace qualifier p =>
    s!"an unknown namespace prefix '{qualifier}' at {p.toString}"
  | mismatchedEndTag opened closed p =>
    s!"expected '{opened}' tag, not '{closed}' at {p.toString}"
  | unknownReference name p =>
    s!"unknown entity reference '{name}' at {p.toString}"
  | malformedReference p =>
    s!"malformed entity reference at {p.toString}"
  | duplicateAttribute name p =>
    s!"attribute '{name}' at {p.toString} is already defined"
  | noRoot => "the document does not have a root node"
  | unclosedRoot => "the root node was opened but never closed"
  | misplacedDeclaration p => s!"unexpected XML declaration at {p.toString}"
  | doctype => "XML with DTD detected"
  | invalidName p => s!"invalid name token at {p.toString}"
  | invalidCharacter found p =>
    s!"a non-XML character '{String.ofList (Text.escape found)}' found at {p.toString}"
  | expectedCharacter expected found p =>
    s!"expected '{expected.toString}' not '{found.toString}' at {p.toString}"
  | expectedOneOf expected found p =>
    s!"expected {expected.toString} not '{found.toString}' at {p.toString}"
  | expectedText expected p => s!"expected '{expected}' at {p.toString}"
  | invalidComment p => s!"comment at {p.toString} contains '--'"
  | cdataEndInText p =>
    s!"']]>' at {p.toString} is not allowed inside a character data"
  | unknownToken p => s!"unknown token at {p.toString}"
  | unexpectedEnd => "unexpected end of stream"

end SyntaxError

/-- A fault as the reader meets it: its place is the number of characters left there. -/
abbrev Fault := SyntaxError Nat

/-- A fault of reading `text`, with its places as rows and columns. -/
def Fault.locate (text : List Char) (fault : Fault) : SyntaxError Position :=
  fault.map fun left => Position.after (text.take (text.length - left))

end SocialPayload.Xml
