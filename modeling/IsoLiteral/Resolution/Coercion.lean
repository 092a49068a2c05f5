import IsoLiteral.Schema.Basic

/-!
# Coercion of values to input types

Whether a value may be given where a type is expected. Variables are judged by a function of their
name and the type expected at their place, which may have an effect on a state. The check stops at the
first error.
-/

namespace IsoLiteral

/-- Why a value may not be given. -/
inductive ValueError where
  | undeclaredVariable (name : String)
  | mismatch (detail : String)
deriving DecidableEq, Repr

/-- The judgement on a variable where a type is expected, with an effect on a state: why it may not stand
there. -/
abbrev Judge (σ : Type) := String → TypeExpr → StateM σ (Option ValueError)

/-- One check after another; the second is made only if the first finds no error. -/
def orElseCheck {σ : Type} (first second : StateM σ (Option ValueError)) : StateM σ (Option ValueError) := do
  match ← first with
  | some e => return some e
  | none => second

/-- The outcome of checking a value with a judgement that has no effect. -/
structure ValueCheck where
  /-- The variables that were judged, in order. -/
  visited : List String
  error : Option ValueError
deriving DecidableEq, Repr

namespace ValueCheck

/-- Nothing is wrong. -/
def accept : ValueCheck := ⟨[], none⟩

/-- The value may not be given. -/
def reject (e : ValueError) : ValueCheck := ⟨[], some e⟩

/-- One check after another; the second is made only if the first accepts. -/
def andThen (a b : ValueCheck) : ValueCheck :=
  match a.error with
  | some _ => a
  | none => ⟨a.visited ++ b.visited, b.error⟩

end ValueCheck

/-- The annotation without any outermost `!`. -/
def TypeExpr.stripNonNull : TypeExpr → TypeExpr
  | .nonNull inner => inner.stripNonNull
  | t => t

/-- The value is not of the expected type. -/
def ValueError.notOfType (expected : TypeExpr) (v : Value) : ValueError :=
  .mismatch ("expected `" ++ expected.render ++ "`, found `" ++ v.render ++ "`")

/-- Whether a scalar accepts a literal. How a scalar that is not built in writes its values is
unknown, so it accepts every one. -/
def acceptsLiteral (scalar : String) (v : Value) : Bool :=
  match scalar, v with
  | "Int", .int _ => true
  | "Int", _ => false
  | "Float", .int _ => true
  | "Float", .float _ => true
  | "Float", _ => false
  | "String", .string _ => true
  | "String", _ => false
  | "Boolean", .boolean _ => true
  | "Boolean", _ => false
  | "ID", .string _ => true
  | "ID", .int _ => true
  | "ID", _ => false
  | _, _ => true

namespace SchemaGraph

/-- Whether a type accepts a literal that has no parts. -/
def acceptsLeaf (t : TypeDefinition) (v : Value) : Bool :=
  match t.kind, v with
  | .scalar, v => acceptsLiteral t.name v
  | .enum, .enum name => name ∈ t.enumValues
  | _, _ => false

/-- Checks a literal without parts against a type. It may also stand for a list of one item. -/
def checkLeaf (g : SchemaGraph) (expected : TypeExpr) (v : Value) : ValueCheck :=
  match g.typeByName? expected.innerName with
  | none => .accept
  | some id =>
    if acceptsLeaf (g.type id) v then .accept
    else .reject (.notOfType (.named expected.innerName) v)

/-- The first field of an input object that has to be given and is not. -/
def missingField? (t : TypeDefinition) (fields : List (String × Value)) :
    Option ArgumentDefinition :=
  t.inputFields.find? fun f => f.isRequired && !fields.any (·.1 = f.name)

/-- Checks that every field of an input object is given that has to be. -/
def checkMissing (t : TypeDefinition) (fields : List (String × Value)) : ValueCheck :=
  match missingField? t fields with
  | some f => .reject (.mismatch ("missing field `" ++ f.name ++ "` of `" ++ t.name ++ "`"))
  | none => .accept

mutual
/-- Checks a value against a type. -/
def checkWith {σ : Type} (g : SchemaGraph) (judge : Judge σ) (expected : TypeExpr) :
    Value → StateM σ (Option ValueError)
  | .variable name => judge name expected
  | .null => return if expected.isNonNull then some (.notOfType expected .null) else none
  | .list items =>
    match expected.stripNonNull with
    | .list item => g.checkItemsWith judge item items
    | t => return some (.notOfType t (.list items))
  | .object fields =>
    match g.typeByName? expected.innerName with
    | none => return none
    | some id =>
      if (g.type id).kind = .inputObject then
        orElseCheck (g.checkFieldsWith judge (g.type id) fields)
          (return (checkMissing (g.type id) fields).error)
      else if acceptsLeaf (g.type id) (.object fields) then return none
      else return some (.notOfType (.named expected.innerName) (.object fields))
  | .int i => return (g.checkLeaf expected (.int i)).error
  | .float text => return (g.checkLeaf expected (.float text)).error
  | .string s => return (g.checkLeaf expected (.string s)).error
  | .boolean b => return (g.checkLeaf expected (.boolean b)).error
  | .enum name => return (g.checkLeaf expected (.enum name)).error
termination_by structural v => v
/-- Checks each item against a type. -/
def checkItemsWith {σ : Type} (g : SchemaGraph) (judge : Judge σ) (expected : TypeExpr) :
    List Value → StateM σ (Option ValueError)
  | [] => return none
  | v :: rest => orElseCheck (g.checkWith judge expected v) (g.checkItemsWith judge expected rest)
termination_by structural vs => vs
/-- Checks each given field against the fields of an input object. -/
def checkFieldsWith {σ : Type} (g : SchemaGraph) (judge : Judge σ) (t : TypeDefinition) :
    List (String × Value) → StateM σ (Option ValueError)
  | [] => return none
  | (key, v) :: rest =>
    match t.inputFields.find? (·.name = key) with
    | none => return some (.mismatch ("`" ++ t.name ++ "` has no field `" ++ key ++ "`"))
    | some f => orElseCheck (g.checkWith judge f.type v) (g.checkFieldsWith judge t rest)
termination_by structural fs => fs
end

end SchemaGraph

/-! ## Judgements without an effect -/

/-- A judgement whose only effect is that the names of the variables are kept, in order. -/
def Judge.recording (judge : String → TypeExpr → Option ValueError) : Judge (List String) :=
  fun name expected => do
    modify (· ++ [name])
    return judge name expected

/-- The outcome of a check whose state is a list of names. -/
def ValueCheck.ofRecording (check : StateM (List String) (Option ValueError)) : ValueCheck :=
  let (error, visited) := check.run []
  ⟨visited, error⟩

namespace SchemaGraph

/-- Checks a value against a type, where variables are judged without an effect. -/
def checkValue (g : SchemaGraph) (judge : String → TypeExpr → Option ValueError) (expected : TypeExpr)
    (v : Value) : ValueCheck :=
  .ofRecording (g.checkWith (.recording judge) expected v)

/-- Checks each item against a type, where variables are judged without an effect. -/
def checkItems (g : SchemaGraph) (judge : String → TypeExpr → Option ValueError) (expected : TypeExpr)
    (items : List Value) : ValueCheck :=
  .ofRecording (g.checkItemsWith (.recording judge) expected items)

/-- Checks each given field against the fields of an input object, where variables are judged without an
effect. -/
def checkFields (g : SchemaGraph) (judge : String → TypeExpr → Option ValueError) (t : TypeDefinition)
    (fields : List (String × Value)) : ValueCheck :=
  .ofRecording (g.checkFieldsWith (.recording judge) t fields)

end SchemaGraph

/-- Whether a variable may stand where a type is expected. A nullable variable with a default may
stand for a non-null value. -/
def VariableDefinition.satisfies (v : VariableDefinition) (expected : TypeExpr) : Bool :=
  v.type.annotation.satisfies expected ||
    (expected.isNonNull && v.defaultValue.isSome && v.type.annotation.satisfies expected.nullable)

end IsoLiteral
