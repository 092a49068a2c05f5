/-!
# Binary floating-point numbers

Numbers of the 64-bit binary format as their bit patterns, with exact rounding of quotients of
natural numbers: to the nearest number, and to the even one of two equally near. All arithmetic is on
natural numbers, so nothing depends on the machine.
-/

namespace IsoLiteral

/-- A finite number of the 64-bit binary format: its sign, and its magnitude as the lower 63 bits. -/
structure Binary64 where
  negative : Bool
  magnitude : Nat
deriving DecidableEq, Repr, Inhabited

namespace Binary64

/-- Zero with a sign. -/
def zero (negative : Bool) : Binary64 := ⟨negative, 0⟩

/-- Whether the number is zero, of either sign. -/
def isZero (x : Binary64) : Bool := x.magnitude = 0

/-- The number with the given sign. -/
def withSign (x : Binary64) (negative : Bool) : Binary64 := { x with negative }

/-- Two to a power. -/
def twoTo (power : Nat) : Nat := Nat.pow 2 power

/-- Ten to a power. -/
def tenTo (power : Nat) : Nat := Nat.pow 10 power

/-- Magnitudes from here on are not finite. -/
def infinity : Nat := 2047 * twoTo 52

/-- The integer part of the significand: the number is this times two to the `exponent`. -/
def significand (x : Binary64) : Nat :=
  if x.magnitude < twoTo 52 then x.magnitude else x.magnitude % twoTo 52 + twoTo 52

/-- The power of two that the significand is scaled by. -/
def exponent (x : Binary64) : Int :=
  if x.magnitude < twoTo 52 then -1074 else (x.magnitude / twoTo 52 : Nat) - 1075

/-- Divides with the remainder rounded to the nearest, and to even when it is half. -/
def roundDiv (num den : Nat) : Nat :=
  let quotient := num / den
  let twice := 2 * (num % den)
  if twice < den then quotient
  else if den < twice then quotient + 1
  else if quotient % 2 = 0 then quotient
  else quotient + 1

/-- The power of two at which a positive quotient has a significand of 53 bits, but not below the
smallest one there is. -/
def scaleOf (num den : Nat) : Int :=
  let guess : Int := (num.log2 : Int) - den.log2 - 52
  let scaled :=
    if 0 ≤ guess then num / (den * twoTo guess.toNat) else num * twoTo (-guess).toNat / den
  max (-1074) (if scaled < twoTo 52 then guess - 1 else guess)

/-- The magnitude nearest to a quotient; it may be too large to be finite. -/
def roundedMagnitude (num den : Nat) : Nat :=
  if num = 0 then 0
  else
    let scale := scaleOf num den
    let rounded :=
      if 0 ≤ scale then roundDiv num (den * twoTo scale.toNat)
      else roundDiv (num * twoTo (-scale).toNat) den
    (scale + 1074).toNat * twoTo 52 + rounded

/-- The finite number nearest to a quotient with a sign, if there is one. -/
def ofQuotient? (negative : Bool) (num den : Nat) : Option Binary64 :=
  let magnitude := roundedMagnitude num den
  if magnitude < infinity then some ⟨negative, magnitude⟩ else none

/-- The finite number nearest to `digits` times ten to the `power`, if there is one. Powers far
outside the range of the format are not computed. -/
def ofDecimal? (negative : Bool) (digits : Nat) (power : Int) : Option Binary64 :=
  let size : Int := ((Nat.toDigits 10 digits).length : Nat)
  if digits = 0 then some (zero negative)
  else if 310 < size + power then none
  else if size + power < -330 then some (zero negative)
  else if 0 ≤ power then ofQuotient? negative (digits * tenTo power.toNat) 1
  else ofQuotient? negative digits (tenTo (-power).toNat)

/-- The absolute value of the number as a quotient of natural numbers. -/
def toQuotient (x : Binary64) : Nat × Nat :=
  if 0 ≤ x.exponent then (x.significand * twoTo x.exponent.toNat, 1)
  else (x.significand, twoTo (-x.exponent).toNat)

/-- The rounded product, if it is finite; its sign is the first number's. -/
def mul? (x y : Binary64) : Option Binary64 :=
  let (a, b) := x.toQuotient
  let (c, d) := y.toQuotient
  ofQuotient? x.negative (a * c) (b * d)

/-- The rounded quotient by a number that is not zero, if it is finite; its sign is the first
number's. -/
def div? (x y : Binary64) : Option Binary64 :=
  let (a, b) := x.toQuotient
  let (c, d) := y.toQuotient
  ofQuotient? x.negative (a * d) (b * c)

/-- The whole bit pattern. -/
def bits (x : Binary64) : Nat := (if x.negative then twoTo 63 else 0) + x.magnitude

/-- The bit pattern as sixteen lowercase hexadecimal digits. -/
def hex (x : Binary64) : String :=
  String.ofList ((List.range 16).map fun i => Nat.digitChar (x.bits / Nat.pow 16 (15 - i) % 16))

end Binary64

end IsoLiteral
