import IsoLiteral.Operation.Context
import IsoLiteral.Proofs.Resolution.Substitution

/-!
# Laws of substitution

The variables of a value after a substitution are those of the replacements, in the order of the variables
that they replace, and one substitution after another is a single one (`followedBy`). Values of arguments are
bound one field inside another, and binding is substituting, so that the bindings of several levels may be
put together first.
-/

namespace IsoLiteral

namespace Value

variable {s t : String → Option Value}

/-! ## Variables -/

theorem variableNamesOf_eq_flatMap (items : List Value) :
    variableNamesOf items = items.flatMap variableNames := by
  induction items with
  | nil => rfl
  | cons v rest ih => rw [variableNamesOf, ih, List.flatMap_cons]

theorem variableNamesOfFields_eq_flatMap (fields : List (String × Value)) :
    variableNamesOfFields fields = fields.flatMap fun f => f.2.variableNames := by
  induction fields with
  | nil => rfl
  | cons f rest ih => rw [variableNamesOfFields, ih, List.flatMap_cons]

/-- A value has no variables exactly if it is a constant. -/
theorem variableNames_eq_nil_iff (v : Value) : v.variableNames = [] ↔ v.isConstant = true := by
  rw [isConstant_iff, List.eq_nil_iff_forall_not_mem]

/-- The variables that stand in a variable's place after a substitution: those of its replacement, or the
variable itself if there is none. -/
def namesAfter (s : String → Option Value) (x : String) : List String :=
  match s x with
  | some u => u.variableNames
  | none => [x]

/-- **Substituting** replaces the list of variables one by one. -/
theorem variableNames_substitute (s : String → Option Value) (v : Value) :
    (v.substitute s).variableNames = v.variableNames.flatMap (namesAfter s) := by
  induction v using memberInduction with
  | var x =>
    rw [substitute, variableNames, List.flatMap_singleton, namesAfter]
    cases s x with
    | none => rfl
    | some u => rfl
  | list items ih =>
    calc (substitute s (.list items)).variableNames
        = items.flatMap fun v => (v.substitute s).variableNames := by
          rw [substitute, variableNames, variableNamesOf_eq_flatMap, substituteAll_eq_map, List.flatMap_map]
      _ = items.flatMap fun v => v.variableNames.flatMap (namesAfter s) := List.flatMap_congr ih
      _ = (items.flatMap variableNames).flatMap (namesAfter s) := List.flatMap_assoc.symm
      _ = (variableNames (.list items)).flatMap (namesAfter s) := by
          rw [variableNames, variableNamesOf_eq_flatMap]
  | object fields ih =>
    calc (substitute s (.object fields)).variableNames
        = fields.flatMap fun f => (f.2.substitute s).variableNames := by
          rw [substitute, variableNames, variableNamesOfFields_eq_flatMap, substituteFields_eq_map,
            List.flatMap_map]
      _ = fields.flatMap fun f => f.2.variableNames.flatMap (namesAfter s) := List.flatMap_congr ih
      _ = (fields.flatMap fun f => f.2.variableNames).flatMap (namesAfter s) := List.flatMap_assoc.symm
      _ = (variableNames (.object fields)).flatMap (namesAfter s) := by
          rw [variableNames, variableNamesOfFields_eq_flatMap]
  | _ => rfl

/-! ## One substitution after another -/

/-- The lookup that puts two substitutions together: the second one is applied to what the first one
replaces, and replaces what the first one keeps. -/
def followedBy (s t : String → Option Value) (x : String) : Option Value :=
  match s x with
  | some u => some (u.substitute t)
  | none => t x

/-- **Two substitutions** are one. -/
theorem substitute_substitute (s t : String → Option Value) (v : Value) :
    (v.substitute s).substitute t = v.substitute (followedBy s t) := by
  induction v using memberInduction with
  | var x =>
    rw [substitute, substitute, followedBy]
    cases s x with
    | none => rw [Option.getD_none, substitute]
    | some u => rfl
  | list items ih =>
    rw [substitute, substitute, substitute, substituteAll_eq_map, substituteAll_eq_map, substituteAll_eq_map,
      List.map_map]
    exact congrArg Value.list (List.map_congr_left ih)
  | object fields ih =>
    rw [substitute, substitute, substitute, substituteFields_eq_map, substituteFields_eq_map,
      substituteFields_eq_map, List.map_map]
    refine congrArg Value.object (List.map_congr_left fun f member => ?_)
    exact congrArg (Prod.mk f.1) (ih f member)
  | _ => rfl

end Value

/-! ## Binding -/

namespace VariableContext

/-- Whether a value is itself a variable, and one that stands for nothing. -/
def isUnbound (c : VariableContext) : Value → Bool
  | .variable x => (c.get? x).isNone
  | _ => false

/-- Binding a value is binding it as one inside another, unless it is a variable that stands for nothing. -/
theorem bind?_eq (c : VariableContext) (v : Value) :
    c.bind? v = if c.isUnbound v then none else some (c.bindNested v) := by
  cases v with
  | «variable» x =>
    rw [bind?, isUnbound, bindNested]
    cases c.get? x with
    | none => rfl
    | some u => rfl
  | _ => rfl

end VariableContext

/-- **Substitution obeys its laws**: it replaces the variables in order, two substitutions are one, and
binding values in a context is substituting what stands in for their variables. -/
theorem Value.substitution_laws (v : Value) (s t : String → Option Value) (c : VariableContext) :
    (v.variableNames = [] ↔ v.isConstant = true) ∧
      (v.substitute s).variableNames = v.variableNames.flatMap (namesAfter s) ∧
      (v.substitute s).substitute t = v.substitute (followedBy s t) ∧
      c.bindNested v = v.substitute c.standIn ∧
      c.bind? v = if c.isUnbound v then none else some (c.bindNested v) :=
  ⟨v.variableNames_eq_nil_iff, variableNames_substitute s v, substitute_substitute s t v,
    c.bindNested_eq_substitute v, c.bind?_eq v⟩

end IsoLiteral
