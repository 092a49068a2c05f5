import IsoLiteral.Json.Basic
import IsoLiteral.Json.Raw

/-!
# Making sense of JSON documents

Readers for the parts of a document. A record may be written as an object, whose unknown keys are
passed over and whose known keys come at most once, or as an array of its fields in order. Arrays and
objects that are read may nest to a fixed depth.
-/

namespace IsoLiteral.Json

/-! ## Numbers -/

/-- The number that decimal digits spell. -/
def natOf (digits : List Char) : Nat := digits.foldl (fun n c => n * 10 + (c.toNat - 48)) 0

/-- The largest number of 64 bits. -/
def maxWord : Nat := 18446744073709551615

/-- The significant part of a number's digits: as many leading ones as fit 64 bits, and how many were
left out. -/
def significant (start : Nat) : List Char → Nat × Nat
  | [] => (start, 0)
  | c :: rest =>
    let next := start * 10 + (c.toNat - 48)
    if maxWord < next then (start, rest.length + 1) else significant next rest

/-- Ten to a power that a floating-point number can hold. -/
def powerOfTen (power : Nat) : Binary64 := (Binary64.ofDecimal? false 1 power).getD (.zero false)

/-- A number times ten to a power, computed with one rounded step at a time: a power within the range
of the format multiplies or divides, and one below it divides by the largest power first. A result
that is not finite is none. -/
def scale? : Nat → Binary64 → Int → Option Binary64
  | 0, x, _ => some x
  | bound + 1, x, power =>
    if power.natAbs ≤ 308 then
      if 0 ≤ power then x.mul? (powerOfTen power.toNat) else x.div? (powerOfTen power.natAbs)
    else if x.isZero then some x
    else if 0 ≤ power then none
    else do scale? bound (← x.div? (powerOfTen 308)) (power + 308)

/-- The largest exponent that is told apart from larger ones. -/
def maxExponent : Nat := 2147483647

/-- The floating-point number that a significand and a power of ten make, with the exponent of the
text added to the power. An exponent beyond all bounds makes zero, or nothing when the number grows
with it. -/
def float? (negative : Bool) (significand : Nat) (power : Int) :
    Option (Bool × List Char) → Option Binary64
  | none => do
    let x ← Binary64.ofQuotient? negative significand 1
    scale? 8 x power
  | some (exponentNegative, ds) =>
    let exponent := natOf ds
    if maxExponent < exponent then
      if significand ≠ 0 && !exponentNegative then none else some (.zero negative)
    else do
      let x ← Binary64.ofQuotient? negative significand 1
      scale? 8 x (if exponentNegative then power - exponent else power + exponent)

/-- The significand and power of ten of a number's digits. Digits of the fraction count only while
all digits so far fit 64 bits. -/
def decimalOf (n : NumberText) : Nat × Int :=
  let (whole, dropped) := significant 0 n.whole
  let fraction := n.fraction.getD []
  let (all, left) := significant whole fraction
  (all, dropped - ((fraction.length - left : Nat) : Int))

/-- The value of a number: an integer when it has no fraction or exponent and fits 64 bits with or
without a sign, and otherwise the floating-point number. Minus zero is the latter. -/
def numberOf? (n : NumberText) : Option Json :=
  let magnitude := natOf n.whole
  if n.fraction.isNone && n.exponent.isNone &&
      (if n.negative then 0 < magnitude && magnitude ≤ 9223372036854775808 else magnitude ≤ maxWord) then
    some (.int (if n.negative then -(magnitude : Int) else magnitude))
  else do
    let (significand, power) := decimalOf n
    return .float (← float? n.negative significand power n.exponent)

/-! ## Values of any form -/

/-- How deeply the parts of a document that are read may nest. -/
def maxNesting : Nat := 127

/-- Puts a member into an object that is sorted by its keys; a later value replaces an earlier one. -/
def insertMember (key : String) (value : Json) : List (String × Json) → List (String × Json)
  | [] => [(key, value)]
  | (k, v) :: rest =>
    match compare key k with
    | .lt => (key, value) :: (k, v) :: rest
    | .eq => (key, value) :: rest
    | .gt => (k, v) :: insertMember key value rest

/-- The members sorted by their keys, the last one of each key. -/
def sortMembers (members : List (String × Json)) : List (String × Json) :=
  members.foldl (fun sorted (key, value) => insertMember key value sorted) []

mutual
/-- The value of a part of a document at some depth. -/
def ofRaw? (depth : Nat) : Raw → Option Json
  | .null => some .null
  | .bool b => some (.bool b)
  | .number n => numberOf? n
  | .string contents => contents.map .string
  | .array items =>
    if depth < maxNesting then (ofRawItems? (depth + 1) items).map .array else none
  | .object members =>
    if depth < maxNesting then
      (ofRawMembers? (depth + 1) members).map fun ms => .object (sortMembers ms)
    else none
termination_by structural raw => raw
/-- The values of the items of an array. -/
def ofRawItems? (depth : Nat) : List Raw → Option (List Json)
  | [] => some []
  | raw :: rest => do
    let item ← ofRaw? depth raw
    return item :: (← ofRawItems? depth rest)
termination_by structural raws => raws
/-- The values of the members of an object. -/
def ofRawMembers? (depth : Nat) : List (Option String × Raw) → Option (List (String × Json))
  | [] => some []
  | (key, raw) :: rest => do
    let key ← key
    let item ← ofRaw? depth raw
    return (key, item) :: (← ofRawMembers? depth rest)
termination_by structural raws => raws
end

/-! ## Parts of known form -/

/-- A reader for a part of a document at some depth. -/
abbrev Decoder (α : Type) := Nat → Raw → Option α

namespace Decoder

/-- Reads a text. -/
def text : Decoder String
  | _, .string contents => contents
  | _, _ => none

/-- Reads a truth value. -/
def bool : Decoder Bool
  | _, .bool b => some b
  | _, _ => none

/-- Reads a number of 32 bits without sign, written without fraction and exponent. -/
def word32 : Decoder Nat
  | _, .number n =>
    match numberOf? n with
    | some (.int i) => if 0 ≤ i && i < 4294967296 then some i.toNat else none
    | _ => none
  | _, _ => none

/-- Reads a value of any form. -/
def any : Decoder Json := ofRaw?

/-- Reads `null` as nothing. -/
def nullable {α : Type} (decode : Decoder α) : Decoder (Option α)
  | _, .null => some none
  | depth, raw => (decode depth raw).map some

/-- Reads every item of an array. -/
def list {α : Type} (decode : Decoder α) : Decoder (List α)
  | depth, .array items => if depth < maxNesting then items.mapM (decode (depth + 1)) else none
  | _, _ => none

/-- Reads one of some names, written as a text or as the key of an object with the value `null`. -/
def oneOf {α : Type} (names : List (String × α)) : Decoder α
  | _, .string contents => contents.bind (names.lookup ·)
  | depth, .object [(key, .null)] => if depth < maxNesting then key.bind (names.lookup ·) else none
  | _, _ => none

/-- The part under a key of an object, if there is one; none at all when the key comes twice. -/
def member? (members : List (String × Raw)) (key : String) : Option (Option Raw) :=
  match members.filter (·.1 == key) with
  | [] => some none
  | [(_, raw)] => some (some raw)
  | _ => none

/-- The parts of a record with the given keys, in their order. -/
def record (keys : List String) : Decoder (List (Option Raw))
  | depth, .object members =>
    if depth < maxNesting then do
      let members ← members.mapM fun (key, raw) => key.map (·, raw)
      keys.mapM (member? members)
    else none
  | depth, .array items =>
    if depth < maxNesting && items.length ≤ keys.length then
      some (items.map some ++ List.replicate (keys.length - items.length) none)
    else none
  | _, _ => none

/-- Reads a part that has to be there. -/
def required {α : Type} (decode : Decoder α) (depth : Nat) (part : Option Raw) : Option α :=
  part.bind (decode depth)

/-- Reads a part that stands for a fixed value when it is missing. -/
def orElse {α : Type} (decode : Decoder α) (missing : α) (depth : Nat) (part : Option Raw) :
    Option α :=
  match part with
  | some raw => decode depth raw
  | none => some missing

end Decoder

end IsoLiteral.Json
