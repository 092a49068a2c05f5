import IsoLiteral.Operation.Merged
import IsoLiteral.Run.Config

/-!
# Query texts

An operation as the text that is sent to the server. A field with arguments is given the name of its
place in the store, so that selections of one field with different arguments never share a name.
-/

namespace IsoLiteral

/-- A variable of an operation, its type and default as they are written. -/
structure QueryVariable where
  name : String
  type : String
  defaultValue : Option String
deriving DecidableEq, Repr

namespace QueryVariable

/-- A variable of a field as one of an operation. -/
def ofResolved (v : ResolvedVariable) : QueryVariable :=
  ⟨v.name, v.type.render, v.defaultValue.map Value.render⟩

/-- The variable for the id of the record to request. -/
def nodeId : QueryVariable := ⟨refetchIdVariable, idType.render, none⟩

/-- `$name: Type = default` -/
def definition (v : QueryVariable) : String :=
  "$" ++ v.name ++ ": " ++ v.type ++ v.defaultValue.elim "" (" = " ++ ·)

/-- The variable as JSON. -/
def toJson (v : QueryVariable) : Json :=
  .object ([("name", .string v.name), ("type", .string v.type)] ++
    Json.optional "defaultValue" .string v.defaultValue)

end QueryVariable

/-- What stands before a selection or closing brace at a depth. -/
def QueryTextFormat.lineBreak (format : QueryTextFormat) (depth : Nat) : String :=
  match format with
  | .pretty => "\n" ++ Text.indentation depth
  | .compact => " "

/-- `name: value` -/
def argumentText (argument : String × Value) : String := argument.1 ++ ": " ++ argument.2.render

/-- A field with its arguments. -/
def fieldText (fieldName : String) (arguments : List (String × Value)) : String :=
  if arguments.isEmpty then fieldName
  else
    storeKey fieldName arguments ++ ": " ++ fieldName ++ "(" ++
      Text.joinWith ", " (arguments.map argumentText) ++ ")"

mutual
/-- A selection at a depth. -/
def MergedSelection.text (format : QueryTextFormat) (depth : Nat) : MergedSelection → String
  | .scalar fieldName arguments => fieldText fieldName arguments
  | .linked fieldName arguments _ selections =>
    fieldText fieldName arguments ++ " \x7b" ++ MergedSet.text format (depth + 1) selections ++
      format.lineBreak depth ++ "\x7d"
  | .inlineFragment typeName selections =>
    "... on " ++ typeName ++ " \x7b" ++ MergedSet.text format (depth + 1) selections ++
      format.lineBreak depth ++ "\x7d"
termination_by structural m => m
/-- Selections at a depth, each after a line break. -/
def MergedSet.text (format : QueryTextFormat) (depth : Nat) :
    List (SelectionKey × MergedSelection) → String
  | [] => ""
  | (_, m) :: rest =>
    format.lineBreak depth ++ m.text format depth ++ MergedSet.text format depth rest
termination_by structural ms => ms
end

/-- The variable definitions of an operation between parentheses, if there are any. -/
def definitionsText (definitions : List QueryVariable) : String :=
  if definitions.isEmpty then ""
  else "(" ++ Text.joinWith ", " (definitions.map QueryVariable.definition) ++ ")"

/-- The text of an operation. -/
def operationText (format : QueryTextFormat) (kind : OperationKind) (name : String)
    (definitions : List QueryVariable) (selections : MergedSet) : String :=
  kind.text ++ " " ++ name ++ definitionsText definitions ++ " \x7b" ++
    MergedSet.text format 1 selections ++ format.lineBreak 0 ++ "\x7d" ++
    (match format with
    | .pretty => "\n"
    | .compact => "")

end IsoLiteral
