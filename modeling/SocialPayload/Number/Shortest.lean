import SocialPayload.Number.Decimal

namespace SocialPayload.Number

/-- The number of decimal digits of a natural number. -/
def digitCount (n : Nat) : Nat :=
  (Nat.toDigits 10 n).length

/-- Decimal places that show the first 17 digits of the smallest positive number. -/
def guardPlaces : Nat := 341

namespace Binary64

/-- The exponent of the first digit of a finite positive number. -/
def leadingExponent (x : Binary64) : Int :=
  (digitCount (x.units * Nat.pow 10 guardPlaces / unitsPerOne) : Int) - 1 - guardPlaces

/-- A finite number in units of `10 ^ exponent`, as a fraction. -/
def scaledFraction (x : Binary64) (exponent : Int) : Nat × Nat :=
  (x.units * Nat.pow 10 (-exponent).toNat, unitsPerOne * Nat.pow 10 exponent.toNat)

/-- Of the two multiples of `10 ^ exponent` around a number, the one that reads back as it. Of two
that do, the nearer; of two equally near, the even one. -/
def readBack? (x : Binary64) (exponent : Int) : Option Decimal :=
  let (num, den) := x.scaledFraction exponent
  let decimal (coefficient : Nat) : Decimal := ⟨x.isNegative, coefficient, exponent⟩
  let below := decimal (num / den)
  let above := decimal (num / den + 1)
  match below.toBinary64 == x, above.toBinary64 == x with
  | true, true => some (decimal (roundHalfEven num den))
  | true, false => some below
  | false, true => some above
  | false, false => none

/-- A shortest decimal number that reads back as a finite one. Seventeen digits always do. -/
def shortest (x : Binary64) : Decimal :=
  let lead := x.leadingExponent
  ((List.range 17).findSome? fun (n : Nat) => x.readBack? (lead - n)).getD ⟨x.isNegative, 0, 0⟩

end Binary64

end SocialPayload.Number
