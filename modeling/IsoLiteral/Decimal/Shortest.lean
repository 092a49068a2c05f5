import IsoLiteral.Decimal.Binary64
import IsoLiteral.Text.Join

/-!
# The shortest decimal of a binary number

A number is written with the fewest decimal digits that still read back as the same number; of
several such decimals the nearest one is taken. The search goes through ever finer decimal grids and
tests the two neighbours of the number on each, in exact arithmetic.
-/

namespace IsoLiteral.Binary64

/-- A decimal: `digits` times ten to the `power`. -/
structure Decimal where
  digits : Nat
  power : Int
deriving DecidableEq, Repr

/-- The number, and the ends of the interval of reals that round to it, in quarters of the unit of its
last place. The lower neighbour is nearer when the significand is the smallest of its scale. -/
def quarters (x : Binary64) : Nat × Nat × Nat :=
  let m := x.significand
  let low := if m = twoTo 52 && twoTo 53 ≤ x.magnitude then 4 * m - 1 else 4 * m - 2
  (low, 4 * m, 4 * m + 2)

/-- A point of the grid of multiples of ten to the `power` that reads back as the number: the nearer
one of the number's two neighbours, or the even one. -/
def gridPoint? (x : Binary64) (power : Int) : Option Decimal :=
  let (low, mid, high) := x.quarters
  let two := x.exponent - 2
  -- a point `c` and a number of quarters `q` compare as `c * a` and `q * b`
  let a := tenTo power.toNat * twoTo (-two).toNat
  let b := tenTo (-power).toNat * twoTo two.toNat
  let even := x.significand % 2 = 0
  let inside (c : Nat) : Bool :=
    if even then low * b ≤ c * a && c * a ≤ high * b else low * b < c * a && c * a < high * b
  let below := mid * b / a
  let downDistance := mid * b - below * a
  let upDistance := (below + 1) * a - mid * b
  let up := upDistance < downDistance || (upDistance = downDistance && below % 2 = 1)
  if inside below && inside (below + 1) then some ⟨if up then below + 1 else below, power⟩
  else if inside below then some ⟨below, power⟩
  else if inside (below + 1) then some ⟨below + 1, power⟩
  else none

/-- The first grid from `power` downwards with a point that reads back, within `bound` grids. -/
def searchGrids (x : Binary64) : Nat → Int → Decimal
  | 0, power => ⟨0, power⟩
  | bound + 1, power => (x.gridPoint? power).getD (searchGrids x bound (power - 1))

/-- A power of ten above the number. -/
def coarsePower (x : Binary64) : Int :=
  let (num, den) := x.toQuotient
  ((num.log2 : Int) - den.log2 + 2) * 30103 / 100000 + 2

/-- The shortest decimal that reads back as the absolute value of a number. -/
def shortest (x : Binary64) : Decimal :=
  if x.isZero then ⟨0, 0⟩ else searchGrids x 30 x.coarsePower

/-- The given number of zeros. -/
def zeros (count : Nat) : String := String.ofList (List.replicate count '0')

/-- The decimal of a positive number with a point and at least one digit on either side of it, for
numbers from 1e-5 up to but not including 1e16; otherwise with an exponent, which always has a
sign. -/
def renderPositive (d : Decimal) : String :=
  let digits := Nat.toDigits 10 d.digits
  let leading : Int := (digits.length : Nat) - 1 + d.power
  if 0 ≤ d.power && leading < 16 then String.ofList digits ++ zeros d.power.toNat ++ ".0"
  else if 0 ≤ leading && leading < 16 then
    String.ofList (digits.take (leading.toNat + 1)) ++ "." ++
      String.ofList (digits.drop (leading.toNat + 1))
  else if -5 ≤ leading && leading < 0 then
    "0." ++ zeros ((-leading).toNat - 1) ++ String.ofList digits
  else
    String.ofList (digits.take 1) ++
      (if digits.length = 1 then "" else "." ++ String.ofList (digits.drop 1)) ++
      (if leading < 0 then "e-" else "e+") ++ toString leading.natAbs

/-- The number as it is written in a document. -/
def render (x : Binary64) : String :=
  (if x.negative then "-" else "") ++ (if x.isZero then "0.0" else renderPositive x.shortest)

end IsoLiteral.Binary64
