namespace SocialPayload.Text

/-- The code points with the Unicode property `White_Space`. The white space of the markup is
narrower. -/
def blankCodes : List Nat :=
  [0x9, 0xA, 0xB, 0xC, 0xD, 0x20, 0x85, 0xA0, 0x1680, 0x2000, 0x2001, 0x2002, 0x2003, 0x2004,
    0x2005, 0x2006, 0x2007, 0x2008, 0x2009, 0x200A, 0x2028, 0x2029, 0x202F, 0x205F, 0x3000]

def isBlankChar (c : Char) : Bool :=
  blankCodes.contains c.toNat

/-- Whether a text holds nothing but white space; the empty text does. -/
def isBlank (text : String) : Bool :=
  text.toList.all isBlankChar

/-- Drops the characters at the end for which `p` holds. -/
def dropEndWhile (p : Char → Bool) : List Char → List Char
  | [] => []
  | c :: rest =>
    match dropEndWhile p rest with
    | [] => if p c then [] else [c]
    | kept => c :: kept

/-- The text without the white space at its two ends. -/
def trim (text : String) : List Char :=
  dropEndWhile isBlankChar (text.toList.dropWhile isBlankChar)

/-- The ASCII capitals become small letters; every other character stays. -/
def lowerAscii (text : List Char) : List Char :=
  text.map Char.toLower

end SocialPayload.Text
