import IsoLiteral.Proofs.Operation.Inlining
import IsoLiteral.Proofs.Resolution.Substitution

/-!
# Variables that always have a value

An argument is left out of a request if its value is a variable that stands for nothing. This never
happens where a non-null value is expected: along every chain of references, the variables that are
non-null or have a default stand for something (`Bound`), since a field that is referred to is given all
that it requires.
-/

namespace IsoLiteral

theorem VariableDefinition.isNonNull_or_default {v : VariableDefinition} {expected : TypeExpr}
    (satisfies : v.satisfies expected = true) (nonNull : expected.isNonNull = true) :
    v.type.annotation.isNonNull = true ∨ v.defaultValue.isSome := by
  rw [VariableDefinition.satisfies, Bool.or_eq_true, Bool.and_eq_true, Bool.and_eq_true] at satisfies
  rcases satisfies with strictly | ⟨⟨-, default⟩, -⟩
  · exact .inl (TypeExpr.isNonNull_of_satisfies strictly nonNull)
  · exact .inr default

/-! ## Contexts -/

namespace VariableContext

variable {c : VariableContext} {definitions : List ResolvedVariable} {arguments : List (String × Value)}

theorem mem_bindArguments {name : String} {bound : Value} :
    (name, bound) ∈ c.bindArguments arguments ↔ ∃ v, (name, v) ∈ arguments ∧ c.bind? v = some bound := by
  rw [bindArguments, List.mem_filterMap]
  constructor
  · rintro ⟨⟨name', v⟩, member, same⟩
    obtain ⟨u, value, pair⟩ := Option.map_eq_some_iff.1 same
    cases pair
    exact ⟨v, member, value⟩
  · rintro ⟨v, member, value⟩
    exact ⟨(name, v), member, Option.map_eq_some_iff.2 ⟨bound, value, rfl⟩⟩

/-- What is not a variable always gives a value. -/
theorem isSome_bind? {v : Value} (bound : ∀ x, v = .variable x → (c.get? x).isSome) :
    (c.bind? v).isSome := by
  unfold bind?
  split
  · exact bound _ rfl
  · rfl

theorem get?_symbolic {v : ResolvedVariable} (member : v ∈ definitions) :
    (symbolic definitions).get? v.name = some (.variable v.name) := by
  induction definitions with
  | nil => cases member
  | cons first rest ih =>
    rw [get?, symbolic, List.map_cons, List.lookup_cons]
    split
    · rename_i same
      rw [beq_iff_eq.1 same]
    · rename_i apart
      rcases List.mem_cons.1 member with rfl | later
      · rw [beq_self_eq_true] at apart
        cases apart
      · exact ih later

/-- What a variable of a selected field stands for, if the field has no other of its name. -/
theorem get?_child (distinct : (definitions.map (·.name)).Nodup) {v : ResolvedVariable}
    (member : v ∈ definitions) :
    (c.child definitions arguments).get? v.name = c.bindVariable? arguments v := by
  induction definitions with
  | nil => cases member
  | cons first rest ih =>
    rw [List.map_cons, List.nodup_cons] at distinct
    rw [get?, child, List.filterMap_cons]
    rcases List.mem_cons.1 member with rfl | later
    · cases value : c.bindVariable? arguments v with
      | some u => simp
      | none =>
        -- no later variable has the name
        rw [List.lookup_eq_none_iff.2]
        intro entry inside
        obtain ⟨w, listed, made⟩ := List.mem_filterMap.1 inside
        obtain ⟨u, -, rfl⟩ := Option.map_eq_some_iff.1 made
        have apart : v.name ≠ w.name := fun same => distinct.1 (List.mem_map.2 ⟨w, listed, same.symm⟩)
        simpa using apart
    · have apart : (v.name == first.name) = false := by
        have other : v.name ≠ first.name := fun same => distinct.1 (List.mem_map.2 ⟨v, later, same⟩)
        simpa using other
      have rest := ih distinct.2 later
      cases c.bindVariable? arguments first with
      | none => exact rest
      | some u =>
        rw [Option.map_some, List.lookup_cons, apart]
        exact rest

end VariableContext

/-! ## Grounded fields -/

namespace Grounded

variable {g : SchemaGraph} {d : Declaration} {f : ResolvedField}

/-- A variable of the field is its argument of that name. -/
theorem argument? (h : Grounded g d f) {v : VariableDefinition} (member : v ∈ d.variableDefinitions) :
    (g.field f.field).argument? v.name.text = some (SchemaBuilder.argumentOfVariable v) := by
  rw [FieldDefinition.argument?, h.arguments]
  have distinct := h.distinct
  generalize d.variableDefinitions = definitions at member distinct
  induction definitions with
  | nil => cases member
  | cons first rest ih =>
    rw [List.map_cons, List.nodup_cons] at distinct
    rw [List.map_cons, List.find?_cons]
    rcases List.mem_cons.1 member with rfl | later
    · simp [SchemaBuilder.argumentOfVariable]
    · have apart : first.name.text ≠ v.name.text := fun same =>
        distinct.1 (List.mem_map.2 ⟨v, later, same.symm⟩)
      simp only [SchemaBuilder.argumentOfVariable, apart, decide_false]
      exact ih later distinct.2

/-- What a variable of the field stands for where the field is selected. -/
theorem get?_child (h : Grounded g d f) {v : VariableDefinition} (member : v ∈ d.variableDefinitions)
    (c : VariableContext) (arguments : List (String × Value)) :
    (c.child f.variableDefinitions arguments).get? v.name.text =
      ((arguments.lookup v.name.text).bind c.bind?).or (v.defaultValue.map PlacedValue.value) := by
  have distinct : (f.variableDefinitions.map (·.name)).Nodup := by
    rw [h.resolved.definitions, List.map_map]
    exact h.distinct
  have listed : ResolvedVariable.ofDefinition v ∈ f.variableDefinitions := by
    rw [h.resolved.definitions]
    exact List.mem_map_of_mem member
  exact VariableContext.get?_child distinct listed

theorem get?_symbolic (h : Grounded g d f) {v : VariableDefinition} (member : v ∈ d.variableDefinitions) :
    (VariableContext.symbolic f.variableDefinitions).get? v.name.text = some (.variable v.name.text) := by
  have listed : ResolvedVariable.ofDefinition v ∈ f.variableDefinitions := by
    rw [h.resolved.definitions]
    exact List.mem_map_of_mem member
  exact VariableContext.get?_symbolic listed

end Grounded

/-! ## References -/

/-- A selection in one declaration refers to a field with another declaration. -/
structure RefersTo (g : SchemaGraph) (d : Declaration) (s : ResolvedSelection) (e : Declaration)
    (f : ResolvedField) : Prop where
  grounded : Grounded g e f
  field : s.head.field = f.field
  takes : (d.scope g).TakesArguments (g.field f.field) s.head.arguments false

theorem Mirrored.refersTo {g : SchemaGraph} {d : Declaration} {type : TypeId} {s : ResolvedSelection}
    {r : Resolution} {f : ResolvedField} {e : Declaration} (h : Mirrored (d.scope g) type s)
    (refers : s.isReference = true) (resolved : r.field? s.head.field = some f)
    (grounded : Grounded g e f) : RefersTo g d s e f := by
  have own : f.field = s.head.field := by simpa using List.find?_some resolved
  have eager : s.isLoadable = false := by
    cases s with
    | resolver head kind loadable =>
      cases loadable with
      | none => rfl
      | some options => cases refers
    | _ => rfl
  refine ⟨grounded, own.symm, ?_⟩
  rw [own, ← eager]
  exact h.takes

namespace RefersTo

variable {g : SchemaGraph} {d e : Declaration} {s : ResolvedSelection} {f : ResolvedField}
  {v : VariableDefinition}

/-- An argument for a variable of the field is one that the variable's type accepts. -/
theorem accepted (h : RefersTo g d s e f) (member : v ∈ e.variableDefinitions) {value : Value}
    (given : s.head.arguments.lookup v.name.text = some value) :
    ((d.scope g).checkArgument value v.type.annotation).error = none := by
  have listed : (v.name.text, value) ∈ s.head.arguments := by
    obtain ⟨before, after, eq, -⟩ := List.lookup_eq_some_iff.1 given
    simp [eq]
  obtain ⟨a, known, fine⟩ := h.takes.accepted _ listed
  rw [h.grounded.argument? member] at known
  obtain rfl := Option.some.inj known
  exact fine

/-- A variable that is non-null and has no default is given a value. -/
theorem exists_given (h : RefersTo g d s e f) (member : v ∈ e.variableDefinitions)
    (nonNull : v.type.annotation.isNonNull = true) (none : v.defaultValue = none) :
    ∃ value, s.head.arguments.lookup v.name.text = some value := by
  have listed : SchemaBuilder.argumentOfVariable v ∈ (g.field f.field).arguments := by
    rw [h.grounded.arguments]
    exact List.mem_map_of_mem member
  have required : (SchemaBuilder.argumentOfVariable v).isRequired = true := by
    simp [ArgumentDefinition.isRequired, SchemaBuilder.argumentOfVariable, nonNull, none]
  obtain ⟨⟨name, value⟩, given, same⟩ := h.takes.required rfl _ listed required
  refine Option.ne_none_iff_exists'.1 fun absent => ?_
  have apart := List.lookup_eq_none_iff.1 absent _ given
  rw [same] at apart
  simp [SchemaBuilder.argumentOfVariable] at apart

end RefersTo

/-! ## Bound variables -/

/-- Every variable of a declaration stands for something that is non-null or has a default. -/
def Declaration.Bound (d : Declaration) (c : VariableContext) : Prop :=
  ∀ v ∈ d.variableDefinitions, v.type.annotation.isNonNull = true ∨ v.defaultValue.isSome →
    (c.get? v.name.text).isSome

section Bound

variable {g : SchemaGraph} {d e : Declaration} {c : VariableContext} {s : ResolvedSelection}
  {f : ResolvedField}

theorem Grounded.bound_symbolic (h : Grounded g d f) : d.Bound (.symbolic f.variableDefinitions) := by
  intro v member _
  rw [h.get?_symbolic member]
  rfl

/-- A value that is accepted for a non-null type is not left out. -/
theorem Declaration.Bound.isSome_bind? (bound : d.Bound c) {value : Value} {expected : TypeExpr}
    (accepted : ((d.scope g).checkArgument value expected).error = none)
    (nonNull : expected.isNonNull = true) : (c.bind? value).isSome := by
  refine VariableContext.isSome_bind? fun x same => ?_
  subst same
  have judged : (d.scope g).judgeVariable x expected = none := by
    simpa [SelectionScope.checkArgument] using accepted
  obtain ⟨v, found, satisfies⟩ := SelectionScope.judgeVariable_eq_none_iff.1 judged
  obtain ⟨member, rfl⟩ := SelectionScope.mem_of_definition? found
  exact bound v member (v.isNonNull_or_default satisfies nonNull)

/-- A field that is referred to has its variables bound again. -/
theorem Declaration.Bound.child (bound : d.Bound c) (h : RefersTo g d s e f) :
    e.Bound (c.child f.variableDefinitions s.head.arguments) := by
  intro v member needed
  rw [h.grounded.get?_child member]
  cases default : v.defaultValue with
  | some value => simp
  | none =>
    have nonNull : v.type.annotation.isNonNull = true := by simpa [default] using needed
    obtain ⟨value, given⟩ := h.exists_given member nonNull default
    obtain ⟨u, value⟩ := Option.isSome_iff_exists.1 (bound.isSome_bind? (h.accepted member given) nonNull)
    rw [given, Option.bind_some, value]
    rfl

end Bound

end IsoLiteral
