import SocialPayload.Number.Binary64

namespace SocialPayload.Number

/-- The number `± coefficient * 10 ^ exponent`. A zero keeps its sign. -/
structure Decimal where
  negative : Bool
  coefficient : Nat
  exponent : Int
deriving DecidableEq, Repr

/-- The number that decimal digits write. -/
def ofDigits (digits : List Char) : Nat :=
  digits.foldl (fun n c => 10 * n + (c.toNat - '0'.toNat)) 0

/-- Takes a sign from the front. Without one a numeral is positive. -/
def takeSign : List Char → Bool × List Char
  | '-' :: s => (true, s)
  | '+' :: s => (false, s)
  | s => (false, s)

/-- Reads the exponent of a numeral, which may be missing but not be without digits. -/
def parseExponent? : List Char → Option Int
  | [] => some 0
  | c :: s =>
    let (negative, digits) := takeSign s
    if (c == 'e' || c == 'E') && !digits.isEmpty && digits.all Char.isDigit then
      some (if negative then -(ofDigits digits : Int) else ofDigits digits)
    else none

/-- Takes the digits after a point. There are none without a point. -/
def takeFraction : List Char → List Char × List Char
  | '.' :: s => (s.takeWhile Char.isDigit, s.dropWhile Char.isDigit)
  | s => ([], s)

namespace Decimal

/-- Reads a numeral: a sign, digits with a point among them or at one end, and an exponent. Only
digits are required, and only the ten ASCII digits are digits. -/
def parse? (s : List Char) : Option Decimal :=
  let (negative, s) := takeSign s
  let whole := s.takeWhile Char.isDigit
  let (fraction, s) := takeFraction (s.dropWhile Char.isDigit)
  if whole.isEmpty && fraction.isEmpty then none
  else (parseExponent? s).map fun e =>
    { negative, coefficient := ofDigits (whole ++ fraction), exponent := e - fraction.length }

/-- Whether a number is so close to zero that it rounds to zero. It may be counted in binary digits,
since a power of ten has more than three for each decimal place. -/
def isNegligible (d : Decimal) : Bool :=
  d.exponent < 0 && (d.coefficient.log2 : Int) + 1 + 3 * d.exponent < -1075

/-- The magnitude nearest to a number. Where the exponent alone settles it, no power is formed. -/
def roundedMagnitude (d : Decimal) : Nat :=
  if d.coefficient = 0 || d.isNegligible then 0
  else if 400 < d.exponent then infiniteMagnitude
  else
    roundUnits (d.coefficient * Nat.pow 10 d.exponent.toNat * unitsPerOne)
      (Nat.pow 10 (-d.exponent).toNat)

/-- The floating-point number nearest to a decimal one. A numeral is read exactly, however long it
is, and rounded only here. -/
def toBinary64 (d : Decimal) : Binary64 :=
  .ofMagnitude d.negative d.roundedMagnitude

end Decimal

end SocialPayload.Number
