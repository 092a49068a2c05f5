import IsoLiteral.Text.Join

/-!
# Values

Argument and default values as a literal writes them. A float keeps its source text, so that it
prints exactly as written. Besides printing, a value can be asked for its variables, have them
replaced, and be spelled as a chunk of an alias.
-/

namespace IsoLiteral

/-- An argument or default value. Objects keep the order of their fields and repeated keys. -/
inductive Value where
  | variable (name : String)
  | int (value : Int)
  | float (text : String)
  | string (value : String)
  | boolean (value : Bool)
  | null
  | enum (name : String)
  | list (items : List Value)
  | object (fields : List (String × Value))
deriving Repr, Inhabited

namespace Value

/-! ## Variables -/

mutual
/-- Whether no variable occurs in the value. -/
def isConstant : Value → Bool
  | .variable _ => false
  | .list items => areConstant items
  | .object fields => areConstantFields fields
  | .int _ | .float _ | .string _ | .boolean _ | .null | .enum _ => true
termination_by structural v => v
/-- Whether no variable occurs in any of the items. -/
def areConstant : List Value → Bool
  | [] => true
  | v :: rest => v.isConstant && areConstant rest
termination_by structural vs => vs
/-- Whether no variable occurs in any of the fields. -/
def areConstantFields : List (String × Value) → Bool
  | [] => true
  | (_, v) :: rest => v.isConstant && areConstantFields rest
termination_by structural fs => fs
end

mutual
/-- The variables that occur in the value, in order and with repetitions. -/
def variableNames : Value → List String
  | .variable name => [name]
  | .list items => variableNamesOf items
  | .object fields => variableNamesOfFields fields
  | .int _ | .float _ | .string _ | .boolean _ | .null | .enum _ => []
termination_by structural v => v
/-- The variables that occur in the items. -/
def variableNamesOf : List Value → List String
  | [] => []
  | v :: rest => v.variableNames ++ variableNamesOf rest
termination_by structural vs => vs
/-- The variables that occur in the fields. -/
def variableNamesOfFields : List (String × Value) → List String
  | [] => []
  | (_, v) :: rest => v.variableNames ++ variableNamesOfFields rest
termination_by structural fs => fs
end

mutual
/-- The value with every variable replaced that `lookup` knows. Replacements are taken as they
are. -/
def substitute (lookup : String → Option Value) : Value → Value
  | .variable name => (lookup name).getD (.variable name)
  | .list items => .list (substituteAll lookup items)
  | .object fields => .object (substituteFields lookup fields)
  | .int i => .int i
  | .float text => .float text
  | .string s => .string s
  | .boolean b => .boolean b
  | .null => .null
  | .enum name => .enum name
termination_by structural v => v
/-- The items with their variables replaced. -/
def substituteAll (lookup : String → Option Value) : List Value → List Value
  | [] => []
  | v :: rest => v.substitute lookup :: substituteAll lookup rest
termination_by structural vs => vs
/-- The fields with the variables in them replaced. -/
def substituteFields (lookup : String → Option Value) :
    List (String × Value) → List (String × Value)
  | [] => []
  | (key, v) :: rest => (key, v.substitute lookup) :: substituteFields lookup rest
termination_by structural fs => fs
end

/-! ## Printing -/

/-- An uppercase hexadecimal digit. -/
def hexDigit (n : Nat) : Char := (Nat.digitChar n).toUpper

/-- How a character is written inside a string value. -/
def escapedChar (c : Char) : List Char :=
  if c = '"' then ['\\', '"']
  else if c = '\\' then ['\\', '\\']
  else if c = '\n' then ['\\', 'n']
  else if c = '\r' then ['\\', 'r']
  else if c = '\t' then ['\\', 't']
  else if c.toNat < 0x20 then
    ['\\', 'u', '0', '0', hexDigit (c.toNat / 16), hexDigit (c.toNat % 16)]
  else [c]

/-- A string value between quotes. -/
def quotedString (s : String) : String :=
  String.ofList (['"'] ++ s.toList.flatMap escapedChar ++ ['"'])

mutual
/-- The value as it is written in a query. -/
def render : Value → String
  | .variable name => "$" ++ name
  | .int i => toString i
  | .float text => text
  | .string s => quotedString s
  | .boolean b => if b then "true" else "false"
  | .null => "null"
  | .enum name => name
  | .list items => "[" ++ Text.joinWith ", " (renderAll items) ++ "]"
  | .object fields => "\x7b" ++ Text.joinWith ", " (renderFields fields) ++ "\x7d"
termination_by structural v => v
/-- Each item as it is written in a query. -/
def renderAll : List Value → List String
  | [] => []
  | v :: rest => v.render :: renderAll rest
termination_by structural vs => vs
/-- Each field as it is written in a query. -/
def renderFields : List (String × Value) → List String
  | [] => []
  | (key, v) :: rest => (key ++ ": " ++ v.render) :: renderFields rest
termination_by structural fs => fs
end

end Value

end IsoLiteral
