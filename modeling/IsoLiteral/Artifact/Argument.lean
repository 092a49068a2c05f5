import IsoLiteral.Declaration.Value
import IsoLiteral.Json.Decode

/-!
# Arguments in artifacts

Arguments as they are handed to whoever executes an artifact: variables stay symbolic, and literals
are JSON values.
-/

namespace IsoLiteral

/-- The value of an argument in an artifact. -/
inductive ArgumentValue where
  | variable (name : String)
  | literal (value : Json)
  | enum (value : String)
  | list (items : List ArgumentValue)
  | object (fields : List (String × ArgumentValue))
deriving Repr, Inhabited

/-- The floating-point number nearest to a number as it is written, if that is finite. -/
def Json.NumberText.nearest? (n : Json.NumberText) : Option Binary64 :=
  let fraction := n.fraction.getD []
  let exponent : Int :=
    match n.exponent with
    | none => 0
    | some (true, ds) => -(Json.natOf ds : Int)
    | some (false, ds) => Json.natOf ds
  Binary64.ofDecimal? n.negative (Json.natOf (n.whole ++ fraction)) (exponent - fraction.length)

/-- The JSON value of a float: the nearest number, or the text itself if that is not finite. -/
def floatJson (text : String) : Json :=
  match Json.Raw.number? text.toList with
  | some (n, []) => n.nearest?.elim (.string text) .float
  | _ => .string text

namespace Value

mutual
/-- The value as an argument of an artifact. -/
def toArgument : Value → ArgumentValue
  | .variable name => .variable name
  | .int i => .literal (.int i)
  | .float text => .literal (floatJson text)
  | .string s => .literal (.string s)
  | .boolean b => .literal (.bool b)
  | .null => .literal .null
  | .enum name => .enum name
  | .list items => .list (toArgumentItems items)
  | .object fields => .object (toArguments fields)
termination_by structural v => v
/-- The items as arguments of an artifact. -/
def toArgumentItems : List Value → List ArgumentValue
  | [] => []
  | v :: rest => v.toArgument :: toArgumentItems rest
termination_by structural vs => vs
/-- Named values as arguments of an artifact. -/
def toArguments : List (String × Value) → List (String × ArgumentValue)
  | [] => []
  | (name, v) :: rest => (name, v.toArgument) :: toArguments rest
termination_by structural fs => fs
end

end Value

namespace ArgumentValue

mutual
/-- The value as JSON. -/
def toJson : ArgumentValue → Json
  | .variable name => .object [("kind", .string "Variable"), ("name", .string name)]
  | .literal value => .object [("kind", .string "Literal"), ("value", value)]
  | .enum value => .object [("kind", .string "Enum"), ("value", .string value)]
  | .list items => .object [("kind", .string "List"), ("items", .array (itemsToJson items))]
  | .object fields => .object [("kind", .string "Object"), ("fields", .array (fieldsToJson fields))]
termination_by structural v => v
/-- Each item as JSON. -/
def itemsToJson : List ArgumentValue → List Json
  | [] => []
  | v :: rest => v.toJson :: itemsToJson rest
termination_by structural vs => vs
/-- Each named value as JSON. -/
def fieldsToJson : List (String × ArgumentValue) → List Json
  | [] => []
  | (name, v) :: rest =>
    .object [("name", .string name), ("value", v.toJson)] :: fieldsToJson rest
termination_by structural fs => fs
end

/-- Arguments as JSON. -/
def argumentsToJson (arguments : List (String × ArgumentValue)) : Json :=
  .array (fieldsToJson arguments)

end ArgumentValue

end IsoLiteral
