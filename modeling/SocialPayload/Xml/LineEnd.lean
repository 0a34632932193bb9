import SocialPayload.Xml.Reference

namespace SocialPayload.Xml

/-- A carriage return that has been read and not yet written. -/
def heldBack (held : Bool) : List Char :=
  if held then ['\r'] else []

/-- The text of a run. A carriage return is held back until it is known what follows it: before a
literal character it becomes a line feed, which swallows a literal line feed. Characters of
references are kept, and so is the literal character right after one (`raw`). A carriage return
that ends the run is a line feed. -/
def joinLines (raw held : Bool) : List Piece → List Char
  | [] => heldBack held
  | .reference c :: rest =>
    heldBack held ++ if c == '\r' then joinLines true true rest else c :: joinLines true false rest
  | .literal c :: rest =>
    if raw then
      heldBack held ++
        if c == '\r' then joinLines false true rest else c :: joinLines false false rest
    else
      let ended := if held then ['\n'] else []
      if c == '\r' && rest.isEmpty then ended ++ ['\n']
      else if c == '\r' then ended ++ joinLines false true rest
      else if c == '\n' && held then ended ++ joinLines false false rest
      else ended ++ c :: joinLines false false rest

/-- The text of a run of character data. -/
def runText (run : List Piece) : String :=
  String.ofList (joinLines false false run)

/-- The value that an attribute's pieces stand for. A carriage return written before a line feed is
dropped; any other break written is a space. -/
def flattenBreaks : List Piece → List Char
  | [] => []
  | .reference c :: rest => c :: flattenBreaks rest
  | .literal '\r' :: .literal '\n' :: rest => flattenBreaks (.literal '\n' :: rest)
  | .literal c :: rest => (if isSpace c then ' ' else c) :: flattenBreaks rest

/-- The value of an attribute. -/
def attributeText (run : List Piece) : String :=
  String.ofList (flattenBreaks run)

end SocialPayload.Xml
