namespace SocialPayload.Number

/-- A floating-point number by its 64 bits. Some are infinite and some are no numbers. -/
structure Binary64 where
  bits : UInt64
deriving DecidableEq, Repr

/-- The weight of the sign among the bits. -/
def signWeight : Nat := Nat.pow 2 63

/-- How many numbers there are from one power of two to the next. -/
def binadeSize : Nat := Nat.pow 2 52

/-- How many units make one. The unit is the smallest positive number, so that every finite number
is a whole number of units. -/
def unitsPerOne : Nat := Nat.pow 2 1074

/-- The bits of infinity but for the sign. Finite numbers have less, and order as these bits do. -/
def infiniteMagnitude : Nat := 2047 * binadeSize

namespace Binary64

def ofMagnitude (negative : Bool) (magnitude : Nat) : Binary64 where
  bits := UInt64.ofNat ((if negative then signWeight else 0) + magnitude)

def isNegative (x : Binary64) : Bool :=
  signWeight ≤ x.bits.toNat

/-- The bits but for the sign. -/
def magnitude (x : Binary64) : Nat :=
  x.bits.toNat % signWeight

def isFinite (x : Binary64) : Bool :=
  x.magnitude < infiniteMagnitude

/-- The distance of a finite number from zero, counted in units of `2 ^ -1074`. -/
def units (x : Binary64) : Nat :=
  let scale := x.magnitude / binadeSize
  let fraction := x.magnitude % binadeSize
  if scale = 0 then fraction else (binadeSize + fraction) * Nat.pow 2 (scale - 1)

end Binary64

/-- The natural number nearest to a quotient. Of two equally near, the even one. -/
def roundHalfEven (num den : Nat) : Nat :=
  let quotient := num / den
  let twice := 2 * (num % den)
  if twice < den then quotient
  else if den < twice then quotient + 1
  else if quotient % 2 = 0 then quotient
  else quotient + 1

/-- The magnitude nearest to `num / den` units. A number has 53 binary digits unless it is close to
zero, so the quotient is rounded to a multiple of the power of two that leaves so many. Rounding up
to the next power of two carries into the scale, which is then the right one. -/
def roundUnits (num den : Nat) : Nat :=
  let shift := Nat.log2 (num / den) - 52
  min infiniteMagnitude (shift * binadeSize + roundHalfEven num (den * Nat.pow 2 shift))

end SocialPayload.Number
