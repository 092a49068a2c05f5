/-!
# Unicode white space

The `White_Space` property of the Unicode character database as a list of ranges, and the three
ways of trimming a text by it. Type annotations and block strings are trimmed with these, while the
lexer has its own, narrower notion of space between tokens.
-/

namespace IsoLiteral.Text

/-- The code points with the `White_Space` property, as closed ranges in increasing order. -/
def whiteSpaceRanges : List (Nat × Nat) :=
  [(0x9, 0xD), (0x20, 0x20), (0x85, 0x85), (0xA0, 0xA0), (0x1680, 0x1680), (0x2000, 0x200A),
   (0x2028, 0x2029), (0x202F, 0x202F), (0x205F, 0x205F), (0x3000, 0x3000)]

/-- Whether a code point lies in one of the given closed ranges. -/
def inRanges (ranges : List (Nat × Nat)) (code : Nat) : Bool :=
  ranges.any fun (low, high) => low ≤ code && code ≤ high

/-- Whether a character is white space. -/
def isBlank (c : Char) : Bool := inRanges whiteSpaceRanges c.toNat

/-- The text without its leading white space. -/
def trimStart (text : List Char) : List Char := text.dropWhile isBlank

/-- The text without its trailing white space. -/
def trimEnd (text : List Char) : List Char := (text.reverse.dropWhile isBlank).reverse

/-- The text without white space at either end. -/
def trim (text : List Char) : List Char := trimEnd (trimStart text)

end IsoLiteral.Text
