import IsoLiteral.Resolution.Basic

/-!
# Values of variables

While the selections of one field stand in for a selection of it in another, its variables have the
values that the selection gives them. The variables of the field that is fetched stand for themselves
and become variables of the operation.
-/

namespace IsoLiteral

/-- What the variables of a field stand for. -/
structure VariableContext where
  bindings : List (String × Value)
deriving Repr

namespace VariableContext

/-- Every variable stands for itself. -/
def symbolic (definitions : List ResolvedVariable) : VariableContext :=
  ⟨definitions.map fun v => (v.name, .variable v.name)⟩

/-- What a variable stands for. -/
def get? (c : VariableContext) (name : String) : Option Value := c.bindings.lookup name

mutual
/-- A value inside another, with its variables replaced; one that stands for nothing is null. -/
def bindNested (c : VariableContext) : Value → Value
  | .variable name => (c.get? name).getD .null
  | .list items => .list (c.bindNestedAll items)
  | .object fields => .object (c.bindNestedFields fields)
  | .int i => .int i
  | .float text => .float text
  | .string s => .string s
  | .boolean b => .boolean b
  | .null => .null
  | .enum name => .enum name
termination_by structural v => v
/-- The items of a list, with their variables replaced. -/
def bindNestedAll (c : VariableContext) : List Value → List Value
  | [] => []
  | v :: rest => c.bindNested v :: c.bindNestedAll rest
termination_by structural vs => vs
/-- The fields of an object, with the variables in them replaced. -/
def bindNestedFields (c : VariableContext) : List (String × Value) → List (String × Value)
  | [] => []
  | (key, v) :: rest => (key, c.bindNested v) :: c.bindNestedFields rest
termination_by structural fs => fs
end

/-- A value with its variables replaced. There is none if it is itself a variable that stands for
nothing. -/
def bind? (c : VariableContext) : Value → Option Value
  | .variable name => c.get? name
  | v => some (c.bindNested v)

/-- Arguments with their variables replaced. One whose value stands for nothing is left out. -/
def bindArguments (c : VariableContext) (arguments : List (String × Value)) :
    List (String × Value) :=
  arguments.filterMap fun (name, v) => (c.bind? v).map fun bound => (name, bound)

/-- What a variable of a selected field stands for: the argument if it is given, or else the
variable's default. -/
def bindVariable? (c : VariableContext) (arguments : List (String × Value))
    (v : ResolvedVariable) : Option Value :=
  ((arguments.lookup v.name).bind c.bind?).or v.defaultValue

/-- What the variables of a selected field stand for. -/
def child (c : VariableContext) (definitions : List ResolvedVariable)
    (arguments : List (String × Value)) : VariableContext :=
  ⟨definitions.filterMap fun v => (c.bindVariable? arguments v).map fun bound => (v.name, bound)⟩

/-! ## Binding as substitution -/

/-- What stands in for a variable inside a value: null, if it stands for nothing. -/
def standIn (c : VariableContext) (name : String) : Option Value := some ((c.get? name).getD .null)

mutual
/-- Binding a nested value is substituting what stands in for its variables. -/
theorem bindNested_eq_substitute (c : VariableContext) (v : Value) :
    c.bindNested v = v.substitute c.standIn := by
  cases v with
  | list items => rw [bindNested, Value.substitute, bindNestedAll_eq_substituteAll]
  | object fields => rw [bindNested, Value.substitute, bindNestedFields_eq_substituteFields]
  | _ => rfl
theorem bindNestedAll_eq_substituteAll (c : VariableContext) (items : List Value) :
    c.bindNestedAll items = Value.substituteAll c.standIn items := by
  cases items with
  | nil => rfl
  | cons v rest =>
    rw [bindNestedAll, Value.substituteAll, bindNested_eq_substitute, bindNestedAll_eq_substituteAll]
theorem bindNestedFields_eq_substituteFields (c : VariableContext) (fields : List (String × Value)) :
    c.bindNestedFields fields = Value.substituteFields c.standIn fields := by
  cases fields with
  | nil => rfl
  | cons field rest =>
    obtain ⟨key, v⟩ := field
    rw [bindNestedFields, Value.substituteFields, bindNested_eq_substitute,
      bindNestedFields_eq_substituteFields]
end

end VariableContext

end IsoLiteral
