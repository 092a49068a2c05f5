/-!
# Joining texts

Lists of texts put together with a separator between neighbours, and indentation.
-/

namespace IsoLiteral.Text

/-- The texts in order, with `separator` between each two neighbours. -/
def joinWith (separator : String) : List String → String
  | [] => ""
  | [text] => text
  | text :: next :: rest => text ++ separator ++ joinWith separator (next :: rest)

/-- All the texts in order, with nothing between them. -/
def concat (texts : List String) : String := texts.foldr (· ++ ·) ""

/-- Two spaces for each level of indentation. -/
def indentation (depth : Nat) : String := concat (List.replicate depth "  ")

end IsoLiteral.Text
