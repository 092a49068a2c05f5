import IsoLiteral.Declaration.TypeExpr
import IsoLiteral.Declaration.Value
import IsoLiteral.Text.Range

/-!
# Declarations

What one literal declares, with the place of every name, value and type, so that later stages can
point at them.
-/

namespace IsoLiteral

/-- An identifier and its place. -/
structure Name where
  text : String
  range : TextRange
deriving DecidableEq, Repr, Inhabited

/-- A type annotation and its place. -/
structure TypeRef where
  annotation : TypeExpr
  range : TextRange
deriving DecidableEq, Repr, Inhabited

/-- A value and its place. -/
structure PlacedValue where
  value : Value
  range : TextRange
deriving Repr, Inhabited

/-- `$name: Type = default` -/
structure VariableDefinition where
  name : Name
  type : TypeRef
  defaultValue : Option PlacedValue
deriving Repr, Inhabited

/-- `name: value` -/
structure Argument where
  name : Name
  value : PlacedValue
deriving Repr, Inhabited

/-- `@name(arguments)` -/
structure Directive where
  name : Name
  arguments : List Argument
  range : TextRange
deriving Repr, Inhabited

/-- `label: name(arguments) @directives { selections }`. A selection without braces has no selection
set, one with empty braces an empty set. -/
structure Selection where
  label : Option Name
  name : Name
  arguments : List Argument
  directives : List Directive
  selectionSet : Option (List Selection)
  range : TextRange
deriving Repr, Inhabited

/-- The name under which the selection's result appears: its label, or else the field's name. -/
def Selection.responseName (s : Selection) : Name := s.label.getD s.name

/-- Whether a directive with the given name is applied to the selection. -/
def Selection.hasDirective (s : Selection) (name : String) : Bool :=
  s.directives.any (·.name.text = name)

/-- The three forms of a declaration. -/
inductive DeclarationKind where
  | field
  | pointer
  | entrypoint
deriving DecidableEq, Repr, Inhabited

/-- The keyword of a form. -/
def DeclarationKind.text : DeclarationKind → String
  | field => "field"
  | pointer => "pointer"
  | entrypoint => "entrypoint"

/-- What one literal declares. -/
structure Declaration where
  /-- Index of the literal. -/
  source : Nat
  kind : DeclarationKind
  parentType : Name
  fieldName : Name
  /-- The target type of a pointer. -/
  target : Option TypeRef
  variableDefinitions : List VariableDefinition
  directives : List Directive
  description : Option String
  selections : List Selection
  range : TextRange
deriving Repr, Inhabited

namespace Declaration

/-- `Type.field` -/
def qualifiedName (d : Declaration) : String := d.parentType.text ++ "." ++ d.fieldName.text

/-- A range of the declaration's literal as a span. -/
def spanOf (d : Declaration) (range : TextRange) : Span := ⟨d.source, range⟩

/-- Whether a directive with the given name is applied to the declaration. -/
def hasDirective (d : Declaration) (name : String) : Bool :=
  d.directives.any (·.name.text = name)

end Declaration

end IsoLiteral
