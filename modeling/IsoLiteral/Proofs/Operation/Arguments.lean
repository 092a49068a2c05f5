import IsoLiteral.Proofs.Declaration.Plain
import IsoLiteral.Proofs.Operation.Binding
import IsoLiteral.Proofs.Resolution.Substitution
import IsoLiteral.Proofs.Value.Substitution

/-!
# Types of inlined arguments

The arguments of a field are checked against the types of its own variables. Once the field is inlined,
its variables are replaced by what was given for them, by their defaults or by null, again and again along
a chain of references. All values stay accepted on the way, except that null, or a variable that may be
null, may come to stand where a non-null value is expected: a nullable variable with a default may stand
there, and what is given for it is only checked against its own nullable type. Where references give for
such variables only what is not null, nothing is lost.
-/

namespace IsoLiteral

open SchemaGraph

/-! ## Judging variables -/

namespace VariableDefinition

variable {v : VariableDefinition} {t e : TypeExpr}

theorem satisfies_cases (satisfies : v.satisfies e = true) :
    v.type.annotation.satisfies e = true ∨
      v.defaultValue.isSome ∧ ∃ inner, e = .nonNull inner ∧ v.type.annotation.satisfies inner = true := by
  rw [VariableDefinition.satisfies, Bool.or_eq_true, Bool.and_eq_true, Bool.and_eq_true] at satisfies
  rcases satisfies with strictly | ⟨⟨nonNull, default⟩, inside⟩
  · exact .inl strictly
  · cases e with
    | nonNull inner => exact .inr ⟨default, inner, rfl, inside⟩
    | named _ => cases nonNull
    | list _ => cases nonNull

/-- A variable that satisfies a type has that type, null apart. -/
theorem satisfies_stripNonNull (satisfies : v.satisfies e = true) :
    v.type.annotation.satisfies e.stripNonNull = true := by
  rcases satisfies_cases satisfies with strictly | ⟨-, inner, rfl, inside⟩
  · exact TypeExpr.satisfies_stripNonNull strictly
  · rw [TypeExpr.stripNonNull]
    exact TypeExpr.satisfies_stripNonNull inside

theorem satisfies_of_type (satisfies : v.type.annotation.satisfies e = true) : v.satisfies e = true := by
  rw [VariableDefinition.satisfies, satisfies, Bool.true_or]

/-- A variable that satisfies a type satisfies whatever that type satisfies. -/
theorem satisfies_mono (first : v.satisfies t = true) (second : t.satisfies e = true) :
    v.satisfies e = true := by
  rcases satisfies_cases first with strictly | ⟨default, inner, rfl, inside⟩
  · exact satisfies_of_type (TypeExpr.satisfies_trans strictly second)
  · cases e with
    | nonNull other =>
      have deeper : v.type.annotation.satisfies other = true := TypeExpr.satisfies_trans inside second
      simp [VariableDefinition.satisfies, TypeExpr.isNonNull, TypeExpr.nullable, default, deeper]
    | named name => exact satisfies_of_type (TypeExpr.satisfies_trans inside second)
    | list item => exact satisfies_of_type (TypeExpr.satisfies_trans inside second)

end VariableDefinition

namespace SelectionScope

variable {c : SelectionScope} {t e : TypeExpr} {v w : Value}

/-- What is certain of variables and nulls: a variable is declared, with the expected type apart from
null. -/
def lax (c : SelectionScope) (expected : TypeExpr) : Value → Prop
  | .variable x => ∃ v, c.definition? x = some v ∧
      v.type.annotation.satisfies expected.stripNonNull = true
  | _ => True

theorem lax_of_judged {x : String} (judged : c.judgeVariable x e = none) : c.lax e (.variable x) := by
  obtain ⟨v, found, satisfies⟩ := judgeVariable_eq_none_iff.1 judged
  exact ⟨v, found, v.satisfies_stripNonNull satisfies⟩

theorem lax_cast (satisfies : t.satisfies e.stripNonNull = true) (lax : c.lax t w) : c.lax e w := by
  match w with
  | .variable x =>
    obtain ⟨v, found, declared⟩ := lax
    rw [TypeExpr.satisfies_iff_of_nullable e.isNonNull_stripNonNull] at satisfies
    exact ⟨v, found, TypeExpr.satisfies_trans declared satisfies⟩
  | .int _ | .float _ | .string _ | .boolean _ | .null | .enum _ | .list _ | .object _ => trivial

theorem lax_mono (t e : TypeExpr) (w : Value) (satisfies : t.satisfies e = true) (lax : c.lax t w) :
    c.lax e w :=
  lax_cast (TypeExpr.satisfies_stripNonNull satisfies) lax

theorem judged_mono (t e : TypeExpr) (w : Value) (satisfies : t.satisfies e = true)
    (judged : SchemaGraph.judged c.judgeVariable t w) : SchemaGraph.judged c.judgeVariable e w := by
  match w with
  | .variable x =>
    obtain ⟨v, found, first⟩ := judgeVariable_eq_none_iff.1 judged
    exact judgeVariable_eq_none_iff.2 ⟨v, found, v.satisfies_mono first satisfies⟩
  | .int _ | .float _ | .string _ | .boolean _ | .null | .enum _ | .list _ | .object _ =>
    exact TypeExpr.nullable_of_satisfies satisfies judged

/-- Neither null nor a variable that may be null stands where a non-null value is expected. -/
def KeepsNonNull (c : SelectionScope) (expected : TypeExpr) (v : Value) : Prop :=
  ∀ type w, c.schema.CheckedAt expected v type w → type.isNonNull = true →
    w ≠ .null ∧ ∀ x, w = .variable x → c.judgeVariable x type = none

/-- Where all else is certain, a value is accepted if it keeps to what is non-null. -/
theorem checkArgument_eq_none_iff (accepts : Accepts c.schema c.lax e v) :
    (c.checkArgument v e).error = none ↔ c.KeepsNonNull e v := by
  rw [checkArgument, checkValue_eq_none_iff]
  constructor
  · intro strict type w inside nonNull
    refine ⟨?_, ?_⟩
    · rintro rfl
      have nullable : type.isNonNull = false := strict type _ inside
      rw [nonNull] at nullable
      cases nullable
    · rintro x rfl
      exact strict type _ inside
  · intro keeps
    refine accepts.mono fun type w inside hole lax => ?_
    cases nonNull : type.isNonNull with
    | true =>
      rcases hole.cases with rfl | ⟨x, rfl⟩
      · exact absurd rfl (keeps type _ inside nonNull).1
      · exact (keeps type _ inside nonNull).2 x rfl
    | false =>
      rcases hole.cases with rfl | ⟨x, rfl⟩
      · exact nonNull
      · obtain ⟨v, found, satisfies⟩ := lax
        rw [TypeExpr.stripNonNull_of_nullable nonNull] at satisfies
        exact judgeVariable_eq_none_iff.2 ⟨v, found, v.satisfies_of_type satisfies⟩

end SelectionScope

/-! ## Values of variables -/

/-- Wherever a variable of a declaration may stand, what it stands for is accepted. -/
def Declaration.Serves (g : SchemaGraph) (hole : TypeExpr → Value → Prop) (d : Declaration)
    (c : VariableContext) : Prop :=
  ∀ x type, (d.scope g).judgeVariable x type = none → Accepts g hole type ((c.get? x).getD .null)

theorem VariableContext.eq_bindNested_of_bind? {c : VariableContext} {v u : Value}
    (bound : c.bind? v = some u) : u = c.bindNested v := by
  rw [bind?_eq] at bound
  split at bound
  · cases bound
  · exact (Option.some.inj bound).symm

section Serves

variable {g : SchemaGraph} {hole : TypeExpr → Value → Prop} {d e : Declaration} {c : VariableContext}
  {f : ResolvedField} {s : ResolvedSelection} {expected : TypeExpr}

theorem accepts_null (allowed : hole expected .null) : Accepts g hole expected .null := by
  intro type w inside
  cases inside
  exact allowed

theorem accepts_variable {x : String} (allowed : hole expected (.variable x)) :
    Accepts g hole expected (.variable x) := by
  intro type w inside
  cases inside
  exact allowed

/-- What is given for an argument is accepted after its variables are replaced. -/
theorem Declaration.Serves.accepts (serves : d.Serves g hole c)
    (nulls : ∀ type : TypeExpr, type.isNonNull = false → hole type .null) {value u : Value}
    (accepted : ((d.scope g).checkArgument value expected).error = none) (bound : c.bind? value = some u) :
    Accepts g hole expected u := by
  rw [c.eq_bindNested_of_bind? bound, c.bindNested_eq_substitute]
  have own : Accepts g (judged (d.scope g).judgeVariable) expected value := checkValue_eq_none_iff.1 accepted
  exact own.substitute value nulls fun type x inside => serves x type (own type _ inside)

/-- Where a field is fetched by itself, its variables stand for themselves. -/
theorem Grounded.serves_symbolic (h : Grounded g d f)
    (own : ∀ x type, (d.scope g).judgeVariable x type = none → hole type (.variable x)) :
    d.Serves g hole (.symbolic f.variableDefinitions) := by
  intro x type judged
  obtain ⟨v, found, -⟩ := SelectionScope.judgeVariable_eq_none_iff.1 judged
  obtain ⟨member, rfl⟩ := SelectionScope.mem_of_definition? found
  rw [h.get?_symbolic member]
  exact accepts_variable (own _ type judged)

/-- A default has no variables, so it is accepted for its variable's type whatever these stand for. -/
theorem ResolvedFrom.accepts_default (h : ResolvedFrom g d f)
    (nulls : ∀ type : TypeExpr, type.isNonNull = false → hole type .null) {v : VariableDefinition}
    (member : v ∈ d.variableDefinitions) {value : PlacedValue} (given : v.defaultValue = some value) :
    Accepts g hole v.type.annotation value.value := by
  have own := checkValue_eq_none_iff.1 (SelectionScope.accepted_default (h.fine v member) given)
  refine own.mono fun type w _ isHole allowed => ?_
  rcases isHole.cases with rfl | ⟨x, rfl⟩
  · exact nulls type allowed
  · cases allowed

theorem ResolvedFrom.not_variable_of_default (h : ResolvedFrom g d f) {v : VariableDefinition}
    (member : v ∈ d.variableDefinitions) {value : PlacedValue} (given : v.defaultValue = some value)
    (x : String) : value.value ≠ .variable x := by
  intro same
  have own := checkValue_eq_none_iff.1 (SelectionScope.accepted_default (h.fine v member) given)
  rw [same] at own
  cases own _ _ .here

/-- What the variables of a field stand for that is referred to: what the reference gives, or their
defaults, or null where nothing else is asked for. -/
theorem RefersTo.serves_child (h : RefersTo g d s e f) (bound : d.Bound c)
    (nulls : ∀ type : TypeExpr, type.isNonNull = false → hole type .null)
    (given : ∀ v ∈ e.variableDefinitions, ∀ type, v.satisfies type = true → ∀ value u,
      s.head.arguments.lookup v.name.text = some value → c.bind? value = some u → Accepts g hole type u)
    (default : ∀ v ∈ e.variableDefinitions, ∀ type, v.satisfies type = true → ∀ value,
      v.defaultValue = some value → Accepts g hole type value.value) :
    e.Serves g hole (c.child f.variableDefinitions s.head.arguments) := by
  intro x type judged
  obtain ⟨v, found, satisfies⟩ := SelectionScope.judgeVariable_eq_none_iff.1 judged
  obtain ⟨member, rfl⟩ := SelectionScope.mem_of_definition? found
  rw [h.grounded.get?_child member]
  cases stands : (s.head.arguments.lookup v.name.text).bind c.bind? with
  | some u =>
    obtain ⟨value, listed, value'⟩ := Option.bind_eq_some_iff.1 stands
    exact given v member type satisfies value u listed value'
  | none =>
    cases set : v.defaultValue with
    | some value => exact default v member type satisfies value set
    | none =>
      refine accepts_null (nulls type ?_)
      by_contra nonNull
      rw [Bool.not_eq_false] at nonNull
      have required : v.type.annotation.isNonNull = true := by
        simpa [set] using v.isNonNull_or_default satisfies nonNull
      obtain ⟨value, listed⟩ := h.exists_given member required set
      have bound := bound.isSome_bind? (h.accepted member listed) required
      rw [listed, Option.bind_some] at stands
      rw [stands] at bound
      cases bound

/-- Null apart, everything stays accepted. -/
theorem RefersTo.serves_child_lax (h : RefersTo g d s e f) (bound : d.Bound c) {scope : SelectionScope}
    (serves : d.Serves g scope.lax c) :
    e.Serves g scope.lax (c.child f.variableDefinitions s.head.arguments) := by
  have nulls (type : TypeExpr) (_ : type.isNonNull = false) : scope.lax type .null := trivial
  have cast {v : VariableDefinition} {type : TypeExpr} (satisfies : v.satisfies type = true) {u : Value}
      (accepts : Accepts g scope.lax v.type.annotation u) : Accepts g scope.lax type u :=
    accepts.cast SelectionScope.lax_mono (v.satisfies_stripNonNull satisfies) fun _ =>
      SelectionScope.lax_cast (v.satisfies_stripNonNull satisfies)
  refine h.serves_child bound nulls ?_ ?_
  · intro v member type satisfies value u listed stands
    exact cast satisfies (serves.accepts nulls (h.accepted member listed) stands)
  · intro v member type satisfies value set
    exact cast satisfies (h.grounded.resolved.accepts_default nulls member set)

/-- Everything stays accepted if what is given for variables with a default is not null. -/
theorem RefersTo.serves_child_judged (h : RefersTo g d s e f) (bound : d.Bound c) {scope : SelectionScope}
    (serves : d.Serves g (judged scope.judgeVariable) c)
    (careful : ∀ v ∈ e.variableDefinitions, ∀ default ∈ v.defaultValue, default.value ≠ .null ∧
      ∀ value, s.head.arguments.lookup v.name.text = some value →
        ((d.scope g).checkArgument value (.nonNull v.type.annotation)).error = none) :
    e.Serves g (judged scope.judgeVariable) (c.child f.variableDefinitions s.head.arguments) := by
  have nulls (type : TypeExpr) (nullable : type.isNonNull = false) :
      judged scope.judgeVariable type .null := nullable
  refine h.serves_child bound nulls ?_ ?_
  · intro v member type satisfies value u listed stands
    rcases v.satisfies_cases satisfies with strictly | ⟨default, inner, rfl, inside⟩
    · exact (serves.accepts nulls (h.accepted member listed) stands).of_satisfies
        SelectionScope.judged_mono strictly
    · -- the variable is nullable, but what is given for it is not
      obtain ⟨value', set⟩ := Option.isSome_iff_exists.1 default
      have accepted := (careful v member value' set).2 value listed
      exact (serves.accepts nulls accepted stands).of_satisfies SelectionScope.judged_mono inside
  · intro v member type satisfies value set
    have accepts := h.grounded.resolved.accepts_default nulls member set
    rcases v.satisfies_cases satisfies with strictly | ⟨-, inner, rfl, inside⟩
    · exact accepts.of_satisfies SelectionScope.judged_mono strictly
    · refine accepts.cast SelectionScope.judged_mono (v.satisfies_stripNonNull satisfies) fun hole => ?_
      rcases hole.cases with same | ⟨x, same⟩
      · exact absurd same (careful v member value set).1
      · exact absurd same (h.grounded.resolved.not_variable_of_default member set x)

end Serves

/-! ## Rules for arguments -/

/-- Every argument of a field of the server is accepted for its type. -/
def argumentRules (g : SchemaGraph) (hole : TypeExpr → Value → Prop) : EntryRules :=
  let accepted (type : TypeId) (fieldName : String) (arguments : List (String × Value)) : Prop :=
    ∀ id, g.lookupField? type fieldName = some id → ∀ a ∈ arguments,
      ∀ d, (g.field id).argument? a.1 = some d → Accepts g hole d.type a.2
  { identified := fun _ => True
    scalar := accepted
    linked := fun type fieldName arguments target =>
      g.linkTarget? type fieldName = some target ∧ accepted type fieldName arguments
    fragment := fun _ target => target.index < g.types.length }

section Rules

variable {options : SchemaOptions} {document : SchemaDocument} {declarations : List Declaration}
  {g : SchemaGraph} {r : Resolution} {hole : TypeExpr → Value → Prop}

theorem scalar_argumentRules_nil (type : TypeId) (fieldName : String) :
    (argumentRules g hole).scalar type fieldName [] :=
  fun _ _ _ member => nomatch member

theorem lawful_argumentRules (built : SchemaGraph.ofDocument options document declarations = .ok g) :
    (argumentRules g hole).Lawful g where
  target := by
    rintro type fieldName arguments s t ⟨first, -⟩ ⟨second, -⟩
    rw [first] at second
    exact Option.some.inj second
  names first second same := g.typeName_injective built first second same
  identified _ := trivial
  linkedTypename _ _ := scalar_argumentRules_nil _ _
  fragmentTypename _ := scalar_argumentRules_nil _ _

/-- What is known of a declaration's variables when its arguments are passed on. -/
structure Declaration.Settled (g : SchemaGraph) (hole : TypeExpr → Value → Prop) (d : Declaration)
    (c : VariableContext) : Prop where
  bound : d.Bound c
  serves : d.Serves g hole c

theorem accepts_of_mem_bindArguments {d : Declaration} {c : VariableContext} {type : TypeId}
    {s : ResolvedSelection} (nulls : ∀ type : TypeExpr, type.isNonNull = false → hole type .null)
    (serves : d.Serves g hole c) (mirrored : Mirrored (d.scope g) type s) :
    (argumentRules g hole).scalar type s.head.fieldName (c.bindArguments s.head.arguments) := by
  rintro id found ⟨name, u⟩ member argument known
  obtain rfl : id = s.head.field := Option.some.inj (found.symm.trans mirrored.found)
  obtain ⟨value, given, bound⟩ := VariableContext.mem_bindArguments.1 member
  obtain ⟨argument', known', accepted⟩ := mirrored.takes.accepted _ given
  obtain rfl : argument = argument' := Option.some.inj (known.symm.trans known')
  exact serves.accepts nulls accepted bound

theorem discipline_arguments (built : SchemaGraph.ofDocument options document declarations = .ok g)
    (nulls : ∀ type : TypeExpr, type.isNonNull = false → hole type .null)
    (step : ∀ {d c type s f e}, d.Bound c → d.Serves g hole c → Selected g r d type s →
      s.isReference = true → r.field? s.head.field = some f → RefersTo g d s e f →
      e.Serves g hole (c.child f.variableDefinitions s.head.arguments)) :
    Discipline g r (argumentRules g hole) (Declaration.Settled g hole) where
  scalar settled selected := accepts_of_mem_bindArguments nulls settled.serves selected.mirrored
  linked := by
    intro d c type head target updatable nested settled selected
    refine ⟨?_, accepts_of_mem_bindArguments nulls settled.serves selected.mirrored⟩
    obtain ⟨_, mirrors⟩ := selected.mirrored
    cases mirrors with
    | linked stands kind _ _ _ _ _ =>
      have found : g.lookupField? type head.fieldName = some head.field := stands.found
      rw [linkTarget?, found, Option.map_some, show (g.field head.field).kind = _ from kind]
  fragment := by
    intro d c type head target updatable nested _ selected
    obtain ⟨_, mirrors⟩ := selected.mirrored
    cases mirrors with
    | linked stands kind _ _ _ _ _ => exact g.target_lt built kind
  reference := by
    intro d c type s f e settled selected refers resolved grounded
    have refersTo := selected.mirrored.refersTo refers resolved grounded
    exact ⟨settled.bound.child refersTo,
      step settled.bound settled.serves selected refers resolved refersTo⟩

end Rules

/-! ## Variables of operations -/

/-- A variable of an operation as it is declared. -/
def ResolvedVariable.definition (v : ResolvedVariable) : VariableDefinition :=
  ⟨.plain v.name, .plain v.type, v.defaultValue.map .plain⟩

/-- What the arguments of an operation are checked against: its own variables. -/
def operationScope (g : SchemaGraph) (definitions : List ResolvedVariable) : SelectionScope :=
  ⟨g, 0, definitions.map ResolvedVariable.definition⟩

section Scopes

variable {g : SchemaGraph} {d : Declaration} {f : ResolvedField}

theorem definition?_operationScope (g : SchemaGraph) (definitions : List ResolvedVariable) (x : String) :
    (operationScope g definitions).definition? x =
      (definitions.find? (·.name = x)).map ResolvedVariable.definition := by
  rw [SelectionScope.definition?, operationScope, List.find?_map]
  rfl

/-- The operation of a field judges variables as the field's declaration does. -/
theorem Grounded.judgeVariable_iff (h : Grounded g d f) {x : String} {type : TypeExpr} :
    (operationScope g f.variableDefinitions).judgeVariable x type = none ↔
      (d.scope g).judgeVariable x type = none := by
  have same : (operationScope g f.variableDefinitions).definition? x =
      ((d.scope g).definition? x).map fun v => (ResolvedVariable.ofDefinition v).definition := by
    rw [definition?_operationScope, h.resolved.definitions, List.find?_map, Option.map_map]
    rfl
  have satisfies (v : VariableDefinition) :
      (ResolvedVariable.ofDefinition v).definition.satisfies type = v.satisfies type := by
    simp [VariableDefinition.satisfies, ResolvedVariable.definition, ResolvedVariable.ofDefinition,
      TypeRef.plain]
  rw [SelectionScope.judgeVariable_eq_none_iff, SelectionScope.judgeVariable_eq_none_iff, same]
  constructor
  · rintro ⟨w, mapped, fine⟩
    obtain ⟨v, found, rfl⟩ := Option.map_eq_some_iff.1 mapped
    exact ⟨v, found, satisfies v ▸ fine⟩
  · rintro ⟨v, found, fine⟩
    exact ⟨_, by rw [found]; rfl, (satisfies v).trans fine⟩

/-- A check of a value depends on how its own variables are judged. -/
theorem SelectionScope.checkArgument_of_judged {c c' : SelectionScope} {value : Value}
    {expected : TypeExpr} (accepted : (c.checkArgument value expected).error = none)
    (judge : ∀ x ∈ value.variableNames, ∀ type, c.judgeVariable x type = none →
      c'.judgeVariable x type = none) (schema : c'.schema = c.schema) :
    (c'.checkArgument value expected).error = none := by
  rw [checkArgument, checkValue_eq_none_iff] at accepted ⊢
  rw [schema]
  refine accepted.mono fun type w inside hole allowed => ?_
  rcases hole.cases with rfl | ⟨x, rfl⟩
  · exact allowed
  · exact judge x inside.mem_variableNames type allowed

/-- For a variable with a default, references give only what is also accepted if the variable is
non-null, and no such default is null. -/
def CarefulReferences (g : SchemaGraph) (r : Resolution) : Prop :=
  ∀ f ∈ r.fields, ∀ s, Occurs s f.selections → s.isReference = true →
    ∀ e, r.field? s.head.field = some e → ∀ v ∈ e.variableDefinitions, ∀ default ∈ v.defaultValue,
      default ≠ .null ∧ ∀ value, s.head.arguments.lookup v.name = some value →
        ((operationScope g f.variableDefinitions).checkArgument value (.nonNull v.type)).error = none

/-- Where no field has a default, all references are careful. -/
theorem carefulReferences_of_no_defaults {r : Resolution}
    (none : ∀ e ∈ r.fields, ∀ v ∈ e.variableDefinitions, v.defaultValue = none) :
    CarefulReferences g r := by
  intro f _ s _ _ e resolved v member default set
  rw [none e (List.mem_of_find?_eq_some resolved) v member] at set
  cases set

end Scopes

/-! ## Merged selections -/

section Merged

variable {options : SchemaOptions} {document : SchemaDocument} {declarations : List Declaration}
  {g : SchemaGraph} {r : Resolution} {d : Declaration} {f : ResolvedField} {scope : SelectionScope}
  {type : TypeId} {selections : List ResolvedSelection}

/-- **Inlining keeps argument types, null apart.** -/
theorem Grounded.obeysAll_lax (h : Grounded g d f)
    (built : SchemaGraph.ofDocument options document declarations = .ok g)
    (grounded : ∀ f ∈ r.fields, ∃ d, Grounded g d f)
    (own : ∀ x type, (d.scope g).judgeVariable x type = none → scope.judgeVariable x type = none)
    (selected : ∀ s ∈ selections, Selected g r d type s) :
    ObeysAll g (argumentRules g scope.lax) type
      (mergeSelections g r type (.symbolic f.variableDefinitions) selections) := by
  have discipline : Discipline g r (argumentRules g scope.lax) (Declaration.Settled g scope.lax) :=
    discipline_arguments built (fun _ _ => trivial)
      fun bound serves _ _ _ refersTo => refersTo.serves_child_lax bound serves
  have settled : d.Settled g scope.lax (.symbolic f.variableDefinitions) :=
    ⟨h.bound_symbolic, h.serves_symbolic fun x type judged => SelectionScope.lax_of_judged (own x type judged)⟩
  exact obeysAll_mergeSelections built (lawful_argumentRules built) discipline grounded settled selected

/-- **Inlining keeps argument types** where references are careful about null. -/
theorem Grounded.obeysAll_judged (h : Grounded g d f)
    (built : SchemaGraph.ofDocument options document declarations = .ok g)
    (grounded : ∀ f ∈ r.fields, ∃ d, Grounded g d f) (careful : CarefulReferences g r)
    (own : ∀ x type, (d.scope g).judgeVariable x type = none → scope.judgeVariable x type = none)
    (selected : ∀ s ∈ selections, Selected g r d type s) :
    ObeysAll g (argumentRules g (judged scope.judgeVariable)) type
      (mergeSelections g r type (.symbolic f.variableDefinitions) selections) := by
  have discipline : Discipline g r (argumentRules g (judged scope.judgeVariable))
      (Declaration.Settled g (judged scope.judgeVariable)) := by
    refine discipline_arguments built (fun _ nullable => nullable) ?_
    intro d c type s e declared bound serves selected refers resolved refersTo
    refine refersTo.serves_child_judged bound serves fun v member default set => ?_
    obtain ⟨f, listed, own, occurs⟩ := selected.occurs
    have listed' : ResolvedVariable.ofDefinition v ∈ e.variableDefinitions := by
      rw [refersTo.grounded.resolved.definitions]
      exact List.mem_map_of_mem member
    have set' : (ResolvedVariable.ofDefinition v).defaultValue = some default.value := by
      rw [ResolvedVariable.ofDefinition, set]
      rfl
    obtain ⟨notNull, given⟩ := careful f listed s occurs refers e resolved _ listed' _ set'
    refine ⟨notNull, fun value there => ?_⟩
    exact SelectionScope.checkArgument_of_judged (given value there)
      (fun x _ type => own.judgeVariable_iff.1) rfl
  have settled : d.Settled g (judged scope.judgeVariable) (.symbolic f.variableDefinitions) :=
    ⟨h.bound_symbolic, h.serves_symbolic own⟩
  exact obeysAll_mergeSelections built (lawful_argumentRules built) discipline grounded settled selected

end Merged

end IsoLiteral
