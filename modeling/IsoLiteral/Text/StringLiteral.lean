import IsoLiteral.Text.Join
import IsoLiteral.Text.Whitespace

/-!
# Contents of string tokens

A plain string is unescaped; a block string loses its common indentation and its blank first and
last lines.
-/

namespace IsoLiteral.Text

/-! ## Escapes -/

/-- The value of a hexadecimal digit. -/
def hexValue? (c : Char) : Option Nat :=
  if c.isDigit then some (c.toNat - '0'.toNat)
  else if 'a' ≤ c && c ≤ 'f' then some (c.toNat - 'a'.toNat + 10)
  else if 'A' ≤ c && c ≤ 'F' then some (c.toNat - 'A'.toNat + 10)
  else none

/-- The number that hexadecimal digits spell; there has to be at least one. -/
def hexNumber? : List Char → Option Nat
  | [] => none
  | digits => digits.foldl (fun n? c => do return (← n?) * 16 + (← hexValue? c)) (some 0)

/-- The character that a `\u` escape stands for. A plus sign may lead its digits. -/
def codePoint? (digits : List Char) : Option Char := do
  let n ← hexNumber? (match digits with
    | '+' :: rest => rest
    | _ => digits)
  if h : n.isValidChar then some (Char.ofNatAux n h) else none

/-- The text with its escapes resolved. A `\u` escape takes up to four characters and stays as it is
when they name no character; any other unknown escape stands for its own character. -/
def unescape : List Char → List Char
  | [] => []
  | ['\\'] => ['\\']
  | '\\' :: 'n' :: rest => '\n' :: unescape rest
  | '\\' :: 'r' :: rest => '\r' :: unescape rest
  | '\\' :: 't' :: rest => '\t' :: unescape rest
  | '\\' :: 'b' :: rest => '\x08' :: unescape rest
  | '\\' :: 'f' :: rest => '\x0c' :: unescape rest
  | '\\' :: 'u' :: a :: b :: c :: d :: rest =>
    (match codePoint? [a, b, c, d] with
      | some decoded => [decoded]
      | none => ['\\', 'u', a, b, c, d]) ++ unescape rest
  | '\\' :: 'u' :: rest =>
    match codePoint? rest with
    | some decoded => [decoded]
    | none => '\\' :: 'u' :: rest
  | '\\' :: c :: rest => c :: unescape rest
  | c :: rest => c :: unescape rest

/-! ## Block strings -/

/-- Splits a text after each line feed. The first part is the line under way. -/
def splitLines : List Char → List (List Char)
  | [] => [[]]
  | c :: rest =>
    if c = '\n' then [] :: splitLines rest
    else
      match splitLines rest with
      | [] => [[c]]
      | line :: lines => (c :: line) :: lines

/-- A line without the carriage return before its line feed. -/
def stripReturn (line : List Char) : List Char :=
  if line.getLast? = some '\r' then line.dropLast else line

/-- The lines of a text. A final line feed ends the last line and starts no other; only a line that
a line feed ends loses a carriage return. -/
def lines (text : List Char) : List (List Char) :=
  let parts := splitLines text
  let last := parts.getLastD []
  parts.dropLast.map stripReturn ++ (if last.isEmpty then [] else [last])

/-- Whether a line holds only white space. -/
def isBlankLine (line : List Char) : Bool := line.all isBlank

/-- The length of some characters in UTF-8 bytes. -/
def byteLength (text : List Char) : Nat := text.foldr (fun c n => c.utf8Size + n) 0

/-- The bytes of white space that a line starts with. -/
def indentOf (line : List Char) : Nat := byteLength (line.takeWhile isBlank)

/-- A line without its first `bytes` bytes; nothing when they do not end with a character. -/
def dropBytes : Nat → List Char → List Char
  | 0, line => line
  | _ + 1, [] => []
  | bytes + 1, c :: rest =>
    if c.utf8Size ≤ bytes + 1 then dropBytes (bytes + 1 - c.utf8Size) rest else []

/-- The smallest indentation of the lines that are not blank. -/
def commonIndent (lines : List (List Char)) : Nat :=
  ((lines.filter (!isBlankLine ·)).map indentOf).min?.getD 0

/-- The lines without blank ones at the start and at the end. -/
def dropBlankEnds (lines : List (List Char)) : List (List Char) :=
  ((lines.dropWhile isBlankLine).reverse.dropWhile isBlankLine).reverse

/-- Lines put together with line feeds between them. -/
def unlines : List (List Char) → List Char
  | [] => []
  | [line] => line
  | line :: next :: rest => line ++ '\n' :: unlines (next :: rest)

/-- A block string's text without common indentation and blank first and last lines. The first line
keeps its indentation and does not count for the others. -/
def dedent (text : List Char) : List Char :=
  match lines text with
  | [] => []
  | first :: rest =>
    unlines (dropBlankEnds (first :: rest.map (dropBytes (commonIndent rest))))

/-- What stands between the quotes that open and close a text, `count` of them on either side. -/
def betweenQuotes (count : Nat) (text : List Char) : List Char :=
  if text.length < 2 * count then text else (text.drop count).take (text.length - 2 * count)

/-- The contents of a string token. -/
def stringContents (text : String) : String :=
  String.ofList (unescape (betweenQuotes 1 text.toList))

/-- The contents of a block string token. -/
def blockContents (text : String) : String :=
  String.ofList (dedent (betweenQuotes 3 text.toList))

end IsoLiteral.Text
