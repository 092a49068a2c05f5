import IsoLiteral.Text.Combining
import IsoLiteral.Text.Invisible
import IsoLiteral.Text.Unassigned
import IsoLiteral.Text.Whitespace

/-!
# Quoted text for tree dumps

A token's text is shown between double quotes. Quotes, backslashes and the common control
characters have two-character escapes; every other character that could not be read on its own,
because it is invisible, unassigned or combines with its neighbour, is written as its code point in
braces.
-/

namespace IsoLiteral.Text

/-- Whether a character can be read on its own. In ASCII these are the characters from the space to
the tilde. Elsewhere they are the characters that exist, have a form of their own and do not attach
to their neighbour. -/
def isLegible (c : Char) : Bool :=
  if c.toNat < 0x7F then 0x20 ≤ c.toNat
  else !(inRanges invisibleRanges c.toNat || inRanges combiningRanges c.toNat ||
    inRanges unassignedRanges c.toNat)

/-- The lowercase hexadecimal digits of a number, without leading zeros. -/
def hexText (n : Nat) : String := String.ofList (Nat.toDigits 16 n)

/-- How one character appears between the quotes. -/
def quotedChar (c : Char) : String :=
  if c = '"' then "\\\""
  else if c = '\\' then "\\\\"
  else if c = '\n' then "\\n"
  else if c = '\r' then "\\r"
  else if c = '\t' then "\\t"
  else if c.toNat = 0 then "\\0"
  else if isLegible c then String.singleton c
  else "\\u\x7b" ++ hexText c.toNat ++ "\x7d"

/-- The text between double quotes, with every character visible. -/
def quoted (text : String) : String :=
  "\"" ++ text.toList.foldr (fun c rest => quotedChar c ++ rest) "" ++ "\""

end IsoLiteral.Text
