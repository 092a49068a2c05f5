import IsoLiteral.Decimal.Binary64

/-!
# JSON values

Numbers keep their two forms apart: integers are exact, all others are binary floating-point numbers.
Objects list their members in order.
-/

namespace IsoLiteral

/-- A JSON value. -/
inductive Json where
  | null
  | bool (value : Bool)
  | int (value : Int)
  | float (value : Binary64)
  | string (value : String)
  | array (items : List Json)
  | object (members : List (String × Json))
deriving Repr, Inhabited

namespace Json

/-- A list of texts. -/
def strings (texts : List String) : Json := .array (texts.map .string)

/-- A value that may be missing, then written as `null`. -/
def orNull {α : Type} (encode : α → Json) : Option α → Json
  | some a => encode a
  | none => .null

/-- A member that is left out when its value is missing. -/
def optional {α : Type} (key : String) (encode : α → Json) : Option α → List (String × Json)
  | some a => [(key, encode a)]
  | none => []

/-- A member that is left out when its list is empty. -/
def optionalList {α : Type} (key : String) (encode : α → Json) (items : List α) :
    List (String × Json) :=
  if items.isEmpty then [] else [(key, .array (items.map encode))]

end Json

end IsoLiteral
