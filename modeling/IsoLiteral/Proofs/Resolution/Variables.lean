import IsoLiteral.Proofs.Resolution.Coercion
import IsoLiteral.Proofs.Resolution.Faithful

/-!
# Variables of resolved fields

Every variable in the arguments of a resolved field should be one that the field declares, and its defaults
should have none. The check of values makes sure of this wherever it looks, so that all depends on the
objects that it takes without looking into them.
-/

namespace IsoLiteral

namespace ResolvedField

/-- The field declares a variable of this name. -/
def Declares (f : ResolvedField) (x : String) : Prop := ∃ v ∈ f.variableDefinitions, v.name = x

/-- Every variable in the arguments of a selection is declared, and the defaults have none. -/
structure VariablesDeclared (f : ResolvedField) : Prop where
  arguments : ∀ s, Occurs s f.selections → ∀ a ∈ s.head.arguments, ∀ x ∈ a.2.variableNames, f.Declares x
  defaults : ∀ v ∈ f.variableDefinitions, ∀ value ∈ v.defaultValue, value.isConstant = true

/-- The same of the objects that are taken for a type without looking into them. -/
structure OpaqueDeclared (g : SchemaGraph) (f : ResolvedField) : Prop where
  arguments : ∀ s, Occurs s f.selections → ∀ a ∈ s.head.arguments,
    ∀ d ∈ (g.field s.head.field).argument? a.1, ∀ type fields,
      g.CheckedAt d.type a.2 type (.object fields) → g.IsOpaque type →
        ∀ x ∈ Value.variableNamesOfFields fields, f.Declares x
  defaults : ∀ v ∈ f.variableDefinitions, ∀ value ∈ v.defaultValue, ∀ type fields,
    g.CheckedAt v.type value type (.object fields) → g.IsOpaque type →
      Value.areConstantFields fields = true

end ResolvedField

/-- A variable that an argument's check comes to is declared. -/
theorem ResolvedFrom.declares {g : SchemaGraph} {d : Declaration} {f : ResolvedField}
    (h : ResolvedFrom g d f) {x : String} {expected : TypeExpr}
    (judged : (d.scope g).judgeVariable x expected = none) : f.Declares x := by
  obtain ⟨v, found, -⟩ := SelectionScope.judgeVariable_eq_none_iff.1 judged
  obtain ⟨member, name⟩ := SelectionScope.mem_of_definition? found
  refine ⟨.ofDefinition v, ?_, name⟩
  rw [h.definitions]
  exact List.mem_map_of_mem member

/-- **Which fields keep an undeclared variable.** For a built graph and parsed declarations, the variables
of a resolved field are all declared, and its defaults have none, exactly if this holds of the objects in
its arguments and defaults that are given for a scalar that is not built in, or for a type that is not
known. -/
theorem variablesDeclared_iff {options : SchemaOptions} {document : SchemaDocument}
    {declarations literals : List Declaration} {g : SchemaGraph}
    (built : SchemaGraph.ofDocument options document declarations = .ok g)
    (parsed : ∀ d ∈ literals, d.Parsed) {f : ResolvedField}
    (member : f ∈ (Resolution.ofDeclarations g literals).1.fields) :
    f.VariablesDeclared ↔ f.OpaqueDeclared g := by
  obtain ⟨d, here, comes⟩ := exists_resolvedFrom member
  have mirrors := comes.mirrorsSet built (parsed d (List.mem_of_getElem? here)).wellFormed
  constructor
  · intro declared
    refine ⟨?_, ?_⟩
    · intro s occurs a given _ _ type fields there _ x inside
      exact declared.arguments s occurs a given x (there.variableNames_subset x inside)
    · intro v listed value given type fields there _
      have constant := (Value.isConstant_iff value).1 (declared.defaults v listed value given)
      have none : (Value.object fields).isConstant = true :=
        (Value.isConstant_iff _).2 fun x inside => constant x (there.variableNames_subset x inside)
      rwa [Value.isConstant] at none
  · intro declared
    refine ⟨?_, ?_⟩
    · intro s occurs a given x inside
      obtain ⟨_, _, stands⟩ := occurs.mirrored mirrors.mirrored
      obtain ⟨argument, known, accepted⟩ := stands.stands.takes.accepted a given
      have accepts := SchemaGraph.checkValue_eq_none_iff.1 accepted
      rcases SchemaGraph.checkedAt_of_mem_variableNames a.2 accepts inside with
        ⟨type, there⟩ | ⟨type, fields, there, isOpaque, hidden⟩
      · exact comes.declares (accepts type _ there)
      · exact declared.arguments s occurs a given argument known type fields there isOpaque x hidden
    · intro v listed value given
      rw [comes.definitions] at listed
      obtain ⟨definition, declaredHere, rfl⟩ := List.mem_map.1 listed
      obtain ⟨placed, set, rfl⟩ := Option.map_eq_some_iff.1 given
      have accepts := SchemaGraph.checkValue_eq_none_iff.1
        (SelectionScope.accepted_default (comes.fine _ declaredHere) set)
      rw [Value.isConstant_iff]
      intro x inside
      rcases SchemaGraph.checkedAt_of_mem_variableNames _ accepts inside with
        ⟨type, there⟩ | ⟨type, fields, there, isOpaque, hidden⟩
      · cases accepts type _ there
      · have member : ResolvedVariable.ofDefinition definition ∈ f.variableDefinitions := by
          rw [comes.definitions]
          exact List.mem_map_of_mem declaredHere
        have constant := declared.defaults _ member placed.value given type fields there isOpaque
        have none : (Value.object fields).isConstant = true := by rwa [Value.isConstant]
        exact (Value.isConstant_iff _).1 none x hidden

/-- The name is given for a filter, whose form the server does not say. -/
def filterArgument : List ArgumentDocument := [⟨"filter", "JSON", none⟩]

/-- A filter by a variable that nobody declares, in an argument and in a default, and one by a variable
that is declared. -/
def filterTexts : List String :=
  ["field Query.first \x7b me \x7b name(filter: \x7bowner: $who\x7d) \x7d \x7d",
    "field Query.second($by: JSON = \x7bowner: $who\x7d) \x7b me \x7b name(filter: $by) \x7d \x7d",
    "field Query.third($who: ID) \x7b me \x7b name(filter: \x7bowner: $who\x7d) \x7d \x7d"]

/-- The fields that are resolved from the three. -/
def filterFields : List ResolvedField :=
  (Resolution.ofDeclarations (userGraph filterArgument ["JSON"] filterTexts)
    (declarationsOf filterTexts)).1.fields

theorem possible_filterGraph : (SchemaGraph.ofDocument ⟨true⟩ (userDocument filterArgument ["JSON"])
    (declarationsOf filterTexts)).isOk = true := by
  decide +kernel

/-- The arguments of all that a field selects, if it selects one thing of one record. -/
def argumentsInside? (f : ResolvedField) : Option (List (String × Value)) :=
  match f.selections with
  | [.linked outer _ _ _ [.scalar inner _]] => some (outer.arguments ++ inner.arguments)
  | _ => none

theorem exists_occurs_iff {f : ResolvedField} {arguments : List (String × Value)}
    (selects : argumentsInside? f = some arguments) (a : String × Value) :
    (∃ s, Occurs s f.selections ∧ a ∈ s.head.arguments) ↔ a ∈ arguments := by
  unfold argumentsInside? at selects
  split at selects
  · rename_i outer target inlineFragment updatable inner updatable' selected
    obtain rfl := Option.some.inj selects
    rw [selected, List.mem_append]
    constructor
    · rintro ⟨s, occurs, given⟩
      cases occurs with
      | here member =>
        cases List.mem_singleton.1 member
        exact .inl given
      | linked member inside =>
        cases List.mem_singleton.1 member
        cases inside with
        | here member =>
          cases List.mem_singleton.1 member
          exact .inr given
        | linked member _ => cases List.mem_singleton.1 member
        | pointer member _ => cases List.mem_singleton.1 member
      | pointer member _ => cases List.mem_singleton.1 member
    · rintro (given | given)
      · exact ⟨_, .here (.head _), given⟩
      · exact ⟨_, .linked (.head _) (.here (.head _)), given⟩
  · cases selects

/-- A variable that is not declared is kept in an argument, and another one in a default. -/
theorem undeclared_variable_kept :
    SchemaGraph.ofDocument ⟨true⟩ (userDocument filterArgument ["JSON"]) (declarationsOf filterTexts) =
      .ok (userGraph filterArgument ["JSON"] filterTexts) ∧
    (∀ d ∈ declarationsOf filterTexts, d.Parsed) ∧
    (∃ f ∈ filterFields, (∃ s, Occurs s f.selections ∧ ∃ a ∈ s.head.arguments,
      "who" ∈ a.2.variableNames) ∧ ¬ f.Declares "who") ∧
    ∃ f ∈ filterFields, ∃ v ∈ f.variableDefinitions, ∃ value ∈ v.defaultValue,
      value.isConstant = false := by
  refine ⟨built_userGraph possible_filterGraph, parsed_declarationsOf filterTexts, ?_, ?_⟩
  · have kept : filterFields.any (fun f => f.variableDefinitions.isEmpty &&
        (argumentsInside? f).any (·.any fun a => "who" ∈ a.2.variableNames)) = true := by
      decide +kernel
    obtain ⟨f, member, fact⟩ := List.any_eq_true.1 kept
    rw [Bool.and_eq_true, List.isEmpty_iff, Option.any_eq_true] at fact
    obtain ⟨none, arguments, selects, fact⟩ := fact
    obtain ⟨a, given, fact⟩ := List.any_eq_true.1 fact
    obtain ⟨s, occurs, given⟩ := (exists_occurs_iff selects a).2 given
    refine ⟨f, member, ⟨s, occurs, a, given, of_decide_eq_true fact⟩, ?_⟩
    rintro ⟨v, listed, -⟩
    rw [none] at listed
    cases listed
  · have kept : filterFields.any (fun f => f.variableDefinitions.any fun v =>
        v.defaultValue.any fun value => !value.isConstant) = true := by
      decide +kernel
    obtain ⟨f, member, fact⟩ := List.any_eq_true.1 kept
    obtain ⟨v, listed, fact⟩ := List.any_eq_true.1 fact
    obtain ⟨value, given, fact⟩ := (Option.any_eq_true _ _).1 fact
    exact ⟨f, member, v, listed, value, given, by simpa using fact⟩

theorem variablesDeclared_third :
    ∃ f ∈ filterFields, f.declaration = 2 ∧ f.VariablesDeclared := by
  have resolved : filterFields.any (fun f => f.declaration = 2 &&
      (argumentsInside? f).any (·.all fun a => a.2.variableNames.all (· = "who")) &&
      f.variableDefinitions.any (·.name = "who") &&
      f.variableDefinitions.all (·.defaultValue.isNone)) = true := by
    decide +kernel
  obtain ⟨f, member, fact⟩ := List.any_eq_true.1 resolved
  simp only [Bool.and_eq_true, decide_eq_true_eq, Option.any_eq_true, List.all_eq_true, List.any_eq_true,
    Option.isNone_iff_eq_none] at fact
  obtain ⟨⟨⟨third, arguments, selects, only⟩, v, listed, name⟩, plain⟩ := fact
  refine ⟨f, member, third, (variablesDeclared_iff (built_userGraph possible_filterGraph)
    (parsed_declarationsOf filterTexts) member).2 ⟨?_, ?_⟩⟩
  · intro s occurs a given _ _ type fields there _ x inside
    have who : x = "who" := only a ((exists_occurs_iff selects a).1 ⟨s, occurs, given⟩) x
      (there.variableNames_subset x inside)
    exact ⟨v, listed, name.trans who.symm⟩
  · intro v listed value given
    rw [plain v listed] at given
    cases given

end IsoLiteral
