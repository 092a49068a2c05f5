import IsoLiteral.Text.StringLiteral

/-!
# Reading JSON text

The structure of a JSON document before anything is made of its numbers and strings. A number keeps
its digits, and a string that escapes half of a surrogate pair has no contents: whether that matters
depends on what the document is read as, since parts that nobody asks for are only checked for their
form.
-/

namespace IsoLiteral.Json

/-- A number as it is written. -/
structure NumberText where
  negative : Bool
  whole : List Char
  fraction : Option (List Char)
  /-- Whether the exponent is negative, and its digits. -/
  exponent : Option (Bool × List Char)
deriving DecidableEq, Repr, Inhabited

/-- A JSON document as it is written. -/
inductive Raw where
  | null
  | bool (value : Bool)
  | number (text : NumberText)
  | string (contents : Option String)
  | array (items : List Raw)
  | object (members : List (Option String × Raw))
deriving Repr, Inhabited

namespace Raw

/-- The four characters that may stand between the parts of a document. -/
def isSpace (c : Char) : Bool := c = ' ' || c = '\n' || c = '\t' || c = '\r'

/-- The text after leading space. -/
def skipSpace (text : List Char) : List Char := text.dropWhile isSpace

/-- What follows an expected beginning. -/
def expect? : List Char → List Char → Option (List Char)
  | [], text => some text
  | c :: cs, d :: text => if c = d then expect? cs text else none
  | _ :: _, [] => none

/-! ## Numbers -/

/-- Splits off the leading digits. -/
def digits (text : List Char) : List Char × List Char :=
  (text.takeWhile Char.isDigit, text.dropWhile Char.isDigit)

/-- The digits before the point: a zero on its own, or a number that starts with another digit. -/
def whole? (text : List Char) : Option (List Char × List Char) :=
  match digits text with
  | ([], _) => none
  | (['0'], rest) => some (['0'], rest)
  | ('0' :: _, _) => none
  | (ds, rest) => some (ds, rest)

/-- The digits after a point, if a point comes. -/
def fraction? : List Char → Option (Option (List Char) × List Char)
  | '.' :: text =>
    match digits text with
    | ([], _) => none
    | (ds, rest) => some (some ds, rest)
  | text => some (none, text)

/-- The sign and digits of an exponent, if one comes. -/
def exponent? : List Char → Option (Option (Bool × List Char) × List Char)
  | c :: text =>
    if c = 'e' || c = 'E' then
      let (negative, text) := match text with
        | '-' :: text => (true, text)
        | '+' :: text => (false, text)
        | text => (false, text)
      match digits text with
      | ([], _) => none
      | (ds, rest) => some (some (negative, ds), rest)
    else some (none, c :: text)
  | [] => some (none, [])

/-- A number. -/
def number? (text : List Char) : Option (NumberText × List Char) := do
  let (negative, text) := match text with
    | '-' :: text => (true, text)
    | text => (false, text)
  let (whole, text) ← whole? text
  let (fraction, text) ← fraction? text
  let (exponent, text) ← exponent? text
  return (⟨negative, whole, fraction, exponent⟩, text)

/-! ## Strings -/

/-- The number that four hexadecimal digits spell. -/
def hex4? (a b c d : Char) : Option Nat := Text.hexNumber? [a, b, c, d]

/-- A character or an unpaired half of a surrogate pair. -/
abbrev Unit16 := Char ⊕ Nat

/-- What the character after a backslash stands for. -/
def simpleEscape? (c : Char) : Option Char :=
  match c with
  | '"' => some '"'
  | '\\' => some '\\'
  | '/' => some '/'
  | 'b' => some '\x08'
  | 'f' => some '\x0c'
  | 'n' => some '\n'
  | 'r' => some '\r'
  | 't' => some '\t'
  | _ => none

/-- What a number of sixteen bits stands for. -/
def unit16 (n : Nat) : Unit16 := if 0xD800 ≤ n && n < 0xE000 then .inr n else .inl (Char.ofNat n)

/-- The units of a string after its opening quote, up to the closing one. -/
def units? : List Char → Option (List Unit16 × List Char)
  | [] => none
  | '"' :: rest => some ([], rest)
  | '\\' :: 'u' :: a :: b :: c :: d :: rest => do
    let n ← hex4? a b c d
    let (us, rest) ← units? rest
    return (unit16 n :: us, rest)
  | '\\' :: c :: rest => do
    let e ← simpleEscape? c
    let (us, rest) ← units? rest
    return (.inl e :: us, rest)
  | c :: rest =>
    if c.toNat < 0x20 || c = '\\' then none
    else do
      let (us, rest) ← units? rest
      return (.inl c :: us, rest)

/-- The characters that units stand for: a high and a low surrogate make one character, and an
unpaired surrogate none. -/
def pairUp? : List Unit16 → Option (List Char)
  | [] => some []
  | .inl c :: rest => do return c :: (← pairUp? rest)
  | .inr high :: .inr low :: rest =>
    if high < 0xDC00 && 0xDC00 ≤ low then do
      return Char.ofNat (0x10000 + (high - 0xD800) * 0x400 + (low - 0xDC00)) :: (← pairUp? rest)
    else none
  | .inr _ :: _ => none

/-- A string after its opening quote. -/
def string? (text : List Char) : Option (Option String × List Char) := do
  let (us, rest) ← units? text
  return ((pairUp? us).map String.ofList, rest)

/-! ## Values -/

mutual
/-- A value, for at most `bound` steps into arrays and objects. -/
def value? : Nat → List Char → Option (Raw × List Char)
  | 0, _ => none
  | bound + 1, text =>
    match skipSpace text with
    | 'n' :: rest => do return (.null, ← expect? ['u', 'l', 'l'] rest)
    | 't' :: rest => do return (.bool true, ← expect? ['r', 'u', 'e'] rest)
    | 'f' :: rest => do return (.bool false, ← expect? ['a', 'l', 's', 'e'] rest)
    | '"' :: rest => do
      let (contents, rest) ← string? rest
      return (.string contents, rest)
    | '[' :: rest =>
      match skipSpace rest with
      | ']' :: rest => some (.array [], rest)
      | rest => do
        let (items, rest) ← items? bound rest
        return (.array items, rest)
    | '{' :: rest =>
      match skipSpace rest with
      | '}' :: rest => some (.object [], rest)
      | rest => do
        let (members, rest) ← members? bound rest
        return (.object members, rest)
    | rest => do
      let (n, rest) ← number? rest
      return (.number n, rest)
/-- The items of an array, through its closing bracket. -/
def items? : Nat → List Char → Option (List Raw × List Char)
  | 0, _ => none
  | bound + 1, text => do
    let (item, rest) ← value? bound text
    match skipSpace rest with
    | ',' :: rest =>
      let (items, rest) ← items? bound rest
      return (item :: items, rest)
    | ']' :: rest => return ([item], rest)
    | _ => none
/-- The members of an object, through its closing brace. -/
def members? : Nat → List Char → Option (List (Option String × Raw) × List Char)
  | 0, _ => none
  | bound + 1, text =>
    match skipSpace text with
    | '"' :: rest => do
      let (key, rest) ← string? rest
      match skipSpace rest with
      | ':' :: rest =>
        let (item, rest) ← value? bound rest
        match skipSpace rest with
        | ',' :: rest =>
          let (members, rest) ← members? bound rest
          return ((key, item) :: members, rest)
        | '}' :: rest => return ([(key, item)], rest)
        | _ => none
      | _ => none
    | _ => none
end

/-- The document that a whole text is. -/
def ofString? (text : String) : Option Raw := do
  let chars := text.toList
  let (raw, rest) ← value? (2 * chars.length + 2) chars
  if (skipSpace rest).isEmpty then some raw else none

end Raw

end IsoLiteral.Json
