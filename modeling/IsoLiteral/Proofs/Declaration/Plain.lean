import IsoLiteral.Declaration.Basic
import Mathlib.Data.List.Nodup
import Mathlib.Tactic

/-!
# Declarations without places

Two declarations say the same when they differ only in where things stand. The plain form of a declaration
has every place set to the start of the first literal, so that equal plain forms mean the same declaration.
What the grammar alone does not rule out is ruled out by well-formedness: names that occur twice in one
list, and integers that do not fit 64 bits.
-/

namespace IsoLiteral

/-! ## Plain forms -/

/-- A name without its place. -/
def Name.plain (text : String) : Name := ⟨text, .empty 0⟩

/-- A type annotation without its place. -/
def TypeRef.plain (expr : TypeExpr) : TypeRef := ⟨expr, .empty 0⟩

/-- A value without its place. -/
def PlacedValue.plain (value : Value) : PlacedValue := ⟨value, .empty 0⟩

/-- The definition without the places in it. -/
def VariableDefinition.bare (d : VariableDefinition) : VariableDefinition :=
  ⟨.plain d.name.text, .plain d.type.annotation, d.defaultValue.map (.plain ·.value)⟩

/-- The argument without the places in it. -/
def Argument.bare (a : Argument) : Argument := ⟨.plain a.name.text, .plain a.value.value⟩

/-- The directive without the places in it. -/
def Directive.bare (d : Directive) : Directive :=
  ⟨.plain d.name.text, d.arguments.map Argument.bare, .empty 0⟩

namespace Selection

mutual
/-- The selection without the places in it. -/
def bare : Selection → Selection
  | ⟨label, name, arguments, directives, set, _⟩ =>
    ⟨label.map (.plain ·.text), .plain name.text, arguments.map Argument.bare,
      directives.map Directive.bare, bareSet set, .empty 0⟩
termination_by structural s => s
/-- The selection set without the places in it. -/
def bareSet : Option (List Selection) → Option (List Selection)
  | none => none
  | some selections => some (bareAll selections)
termination_by structural set => set
/-- The selections without the places in them. -/
def bareAll : List Selection → List Selection
  | [] => []
  | s :: rest => s.bare :: bareAll rest
termination_by structural ss => ss
end

end Selection

/-- The declaration without the places in it. -/
def Declaration.bare (d : Declaration) : Declaration where
  source := 0
  kind := d.kind
  parentType := .plain d.parentType.text
  fieldName := .plain d.fieldName.text
  target := d.target.map fun ref => .plain ref.annotation
  variableDefinitions := d.variableDefinitions.map VariableDefinition.bare
  directives := d.directives.map Directive.bare
  description := d.description
  selections := Selection.bareAll d.selections
  range := .empty 0

/-! ## Well-formedness -/

namespace Value

mutual
/-- Every integer in the value fits 64 bits. -/
def Fits : Value → Prop
  | .int i => -2 ^ 63 ≤ i ∧ i < 2 ^ 63
  | .list items => AllFit items
  | .object fields => FieldsFit fields
  | .variable _ | .float _ | .string _ | .boolean _ | .null | .enum _ => True
termination_by structural v => v
/-- Every integer in the items fits 64 bits. -/
def AllFit : List Value → Prop
  | [] => True
  | v :: rest => v.Fits ∧ AllFit rest
termination_by structural vs => vs
/-- Every integer in the fields fits 64 bits. -/
def FieldsFit : List (String × Value) → Prop
  | [] => True
  | (_, v) :: rest => v.Fits ∧ FieldsFit rest
termination_by structural fs => fs
end

end Value

/-- The arguments have different names, and every integer in them fits 64 bits. -/
def Argument.WellFormed (arguments : List Argument) : Prop :=
  (arguments.map (·.name.text)).Nodup ∧ ∀ a ∈ arguments, a.value.value.Fits

/-- The arguments of every directive are well-formed. -/
def Directive.WellFormed (directives : List Directive) : Prop :=
  ∀ d ∈ directives, Argument.WellFormed d.arguments

namespace Selection

mutual
/-- The arguments, directives and selection set of a selection are well-formed. -/
def WellFormed : Selection → Prop
  | ⟨_, _, arguments, directives, set, _⟩ =>
    Argument.WellFormed arguments ∧ Directive.WellFormed directives ∧ SetWellFormed set
termination_by structural s => s
/-- The selections of a selection set have different response names and are well-formed. -/
def SetWellFormed : Option (List Selection) → Prop
  | none => True
  | some selections => (selections.map (·.responseName.text)).Nodup ∧ AllWellFormed selections
termination_by structural set => set
/-- Each of the selections is well-formed. -/
def AllWellFormed : List Selection → Prop
  | [] => True
  | s :: rest => s.WellFormed ∧ AllWellFormed rest
termination_by structural ss => ss
end

end Selection

/-- The variables have different names, and every integer in their defaults fits 64 bits. -/
def VariableDefinition.WellFormed (definitions : List VariableDefinition) : Prop :=
  (definitions.map (·.name.text)).Nodup ∧ ∀ d ∈ definitions, ∀ v ∈ d.defaultValue, v.value.Fits

/-- Names are distinct wherever a declaration lists them, and every integer fits 64 bits. -/
structure Declaration.WellFormed (d : Declaration) : Prop where
  directives : Directive.WellFormed d.directives
  definitions : VariableDefinition.WellFormed d.variableDefinitions
  selections : Selection.SetWellFormed (some d.selections)

end IsoLiteral
