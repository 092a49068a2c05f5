import IsoLiteral.Proofs.Operation.Binding

/-!
# Merged selections are valid on the schema

A server answers an operation only if it selects fields that its types have, in the form of their kinds,
with arguments that they take and all that they require, and narrows abstract types to types they stand
for. Everything that is merged for a resolved field, and for its refetch sites, is of this kind, although
arguments are left out on the way.
-/

namespace IsoLiteral

/-! ## Arguments of the server -/

/-- The arguments are those that a field takes, with all that it requires. One that the field lists again
under the name of a nullable one may be missing: only the first with a name counts. -/
structure GivesArguments (field : FieldDefinition) (arguments : List (String × Value)) : Prop where
  known : ∀ a ∈ arguments, ∃ d ∈ field.arguments, d.name = a.1
  required : ∀ d ∈ field.arguments, d.isRequired = true →
    (∀ first, field.argument? d.name = some first → first.type.isNonNull = true) →
    ∃ a ∈ arguments, a.1 = d.name

theorem givesArguments_nil {field : FieldDefinition} (none : field.arguments = []) :
    GivesArguments field [] where
  known a member := nomatch member
  required d listed := by
    rw [none] at listed
    cases listed

/-- Nothing that a field requires is left out, since whatever is accepted for it is bound. -/
theorem Declaration.Bound.givesArguments {g : SchemaGraph} {d : Declaration} {c : VariableContext}
    (bound : d.Bound c) {field : FieldDefinition} {arguments : List (String × Value)}
    (takes : (d.scope g).TakesArguments field arguments false) :
    GivesArguments field (c.bindArguments arguments) where
  known := by
    rintro ⟨name, u⟩ member
    obtain ⟨v, given, -⟩ := VariableContext.mem_bindArguments.1 member
    obtain ⟨argument, known, -⟩ := takes.accepted _ given
    exact ⟨argument, List.mem_of_find?_eq_some known, by simpa using List.find?_some known⟩
  required := by
    intro argument listed required first
    obtain ⟨⟨name, v⟩, given, same⟩ := takes.required rfl argument listed required
    obtain ⟨known, found, accepted⟩ := takes.accepted _ given
    rw [show name = argument.name from same] at found
    obtain ⟨u, value⟩ := Option.isSome_iff_exists.1 (bound.isSome_bind? accepted (first known found))
    exact ⟨(name, u), VariableContext.mem_bindArguments.2 ⟨v, given, value⟩, same⟩

/-! ## Valid selections -/

/-- What may be selected on a type of the server: a scalar or a link that is one of its fields, with
arguments that the field takes, or a fragment on an object type that it stands for. -/
def validRules (g : SchemaGraph) : EntryRules where
  identified type := (g.idField? type).isSome
  scalar type fieldName arguments := ∃ id, g.lookupField? type fieldName = some id ∧
    (g.field id).kind = .scalar ∧ ((g.field id).origin = .server ∨ fieldName = typenameField) ∧
    GivesArguments (g.field id) arguments
  linked type fieldName arguments target := ∃ id, g.lookupField? type fieldName = some id ∧
    (g.field id).kind = .linked target false ∧ (g.field id).origin = .server ∧
    GivesArguments (g.field id) arguments
  fragment type target := (g.type type).kind.isAbstract = true ∧
    target ∈ (g.type type).concreteTypes ∧ (g.type target).kind = .object

section Valid

variable {options : SchemaOptions} {document : SchemaDocument} {declarations : List Declaration}
  {g : SchemaGraph}

theorem lawful_validRules (built : SchemaGraph.ofDocument options document declarations = .ok g)
    (unreserved : ∀ f ∈ g.fields, f.origin = .server → f.name ≠ typenameField) :
    (validRules g).Lawful g := by
  have typename {type : TypeId} (valid : type.index < g.types.length)
      (composite : (g.type type).kind.isComposite = true) : (validRules g).scalar type typenameField [] := by
    obtain ⟨id, found, kind, none⟩ := g.lookupField?_typename built unreserved valid composite
    exact ⟨id, found, kind, .inr rfl, givesArguments_nil none⟩
  constructor
  · rintro type fieldName arguments s t ⟨id, found, kind, -⟩ ⟨id', found', kind', -⟩
    rw [found] at found'
    obtain rfl := Option.some.inj found'
    rw [kind] at kind'
    cases kind'
    rfl
  · rintro type s t ⟨-, first, -⟩ ⟨-, second, -⟩ same
    exact g.typeName_injective built (g.object_of_mem_concreteTypes built first).1
      (g.object_of_mem_concreteTypes built second).1 same
  · exact fun identified => identified
  · rintro type fieldName arguments target ⟨id, -, kind, -⟩ isAbstract
    refine typename (g.target_lt built kind) ?_
    cases kind : (g.type target).kind <;> simp_all [TypeKind.isAbstract, TypeKind.isComposite]
  · rintro type target ⟨-, listed, object⟩
    exact typename (g.object_of_mem_concreteTypes built listed).1 (by rw [object]; rfl)

/-- Bound variables make a declaration's selections valid, and those of the fields it refers to. -/
theorem discipline_valid (built : SchemaGraph.ofDocument options document declarations = .ok g)
    (r : Resolution) : Discipline g r (validRules g) Declaration.Bound where
  scalar := by
    intro d c type head updatable bound selected
    have takes := selected.mirrored.takes
    obtain ⟨_, mirrors⟩ := selected.mirrored
    cases mirrors with
    | scalar stands kind _ =>
      exact ⟨head.field, stands.found, kind, g.origin_of_scalar built stands.found kind,
        bound.givesArguments takes⟩
  linked := by
    intro d c type head target updatable nested bound selected
    have takes := selected.mirrored.takes
    obtain ⟨_, mirrors⟩ := selected.mirrored
    cases mirrors with
    | linked stands kind _ _ _ _ _ =>
      exact ⟨head.field, stands.found, kind, g.origin_eq_server built kind, bound.givesArguments takes⟩
  fragment := by
    intro d c type head target updatable nested _ selected
    obtain ⟨_, mirrors⟩ := selected.mirrored
    cases mirrors with
    | linked stands kind _ _ _ _ _ =>
      obtain ⟨isAbstract, listed⟩ := g.narrows_of_fragment built stands.found kind
      exact ⟨isAbstract, listed, (g.object_of_mem_concreteTypes built listed).2⟩
  reference := by
    intro d c type s f e bound selected refers resolved grounded
    exact bound.child (selected.mirrored.refersTo refers resolved grounded)

/-- **Merged selections are valid on the schema.** For a graph built from parsed declarations, without a
field `__typename` of the server's own, whatever is merged for a resolved field or for one of its refetch
sites agrees with its keys at every level, selects only what the enclosing types have, and gives every
argument that is required, unless the field lists an earlier argument of the same name that is nullable. -/
theorem obeysAll_validRules_mergeSelections
    (built : SchemaGraph.ofDocument options document declarations = .ok g)
    (parsed : ∀ d ∈ declarations, d.Parsed)
    (unreserved : ∀ f ∈ g.fields, f.origin = .server → f.name ≠ typenameField) {f : ResolvedField}
    (member : f ∈ (Resolution.ofDeclarations g declarations).1.fields) :
    ObeysAll g (validRules g) f.parent
      (mergeSelections g (Resolution.ofDeclarations g declarations).1 f.parent
        (.symbolic f.variableDefinitions) f.selections) ∧
    ∀ site ∈ refetchSites f.parent f.selections,
      ObeysAll g (validRules g) site.type
        (mergeSelections g (Resolution.ofDeclarations g declarations).1 site.type
          (.symbolic f.variableDefinitions) site.selections) := by
  have lawful := lawful_validRules built unreserved
  have discipline := discipline_valid built (Resolution.ofDeclarations g declarations).1
  have grounded := exists_grounded built parsed
  obtain ⟨d, own⟩ := grounded f member
  have bound := own.bound_symbolic
  refine ⟨obeysAll_mergeSelections built lawful discipline grounded bound (own.selected member), ?_⟩
  intro site listed
  exact obeysAll_mergeSelections built lawful discipline grounded bound
    (own.selected_of_mem_refetchSites member site listed).selected

end Valid

theorem obeysAll_validRules_mergeSelections_home :
    ∃ f ∈ (Resolution.ofDeclarations (userGraph sizeArgument [] homeTexts)
        (declarationsOf homeTexts)).1.fields,
      f.declaration = 2 ∧
      ObeysAll (userGraph sizeArgument [] homeTexts) (validRules (userGraph sizeArgument [] homeTexts))
        f.parent (mergeSelections (userGraph sizeArgument [] homeTexts)
          (Resolution.ofDeclarations (userGraph sizeArgument [] homeTexts) (declarationsOf homeTexts)).1
          f.parent (.symbolic f.variableDefinitions) f.selections) := by
  have facts : (∀ f ∈ (userGraph sizeArgument [] homeTexts).fields, f.origin = .server →
        f.name ≠ typenameField) ∧
      (Resolution.ofDeclarations (userGraph sizeArgument [] homeTexts)
        (declarationsOf homeTexts)).1.fields.any (·.declaration = 2) = true := by
    decide +kernel
  obtain ⟨unreserved, resolved⟩ := facts
  obtain ⟨f, member, own⟩ := List.any_eq_true.1 resolved
  have valid := obeysAll_validRules_mergeSelections (built_userGraph possible_homeGraph)
    (parsed_declarationsOf homeTexts) unreserved member
  exact ⟨f, member, of_decide_eq_true own, valid.1⟩

/-- The name is given for a size, which the server lists twice. -/
def repeatedArgument : List ArgumentDocument := [⟨"size", "Int", none⟩, ⟨"size", "Int!", none⟩]

/-- The home shows a card and leaves its size open. -/
def cardTexts : List String :=
  ["field User.card($n: Int) \x7b name(size: $n) \x7d", "field Query.home \x7b me \x7b card \x7d \x7d"]

/-- The graph of the server that lists an argument twice. -/
def repeatedGraph : SchemaGraph := userGraph repeatedArgument [] cardTexts

/-- What is resolved against that graph. -/
def repeatedResolution : Resolution :=
  (Resolution.ofDeclarations repeatedGraph (declarationsOf cardTexts)).1

/-- An argument that is required is left out where a nullable one of its name stands before it. -/
theorem required_argument_left_out :
    SchemaGraph.ofDocument ⟨true⟩ (userDocument repeatedArgument []) (declarationsOf cardTexts) =
      .ok repeatedGraph ∧
    (∀ d ∈ declarationsOf cardTexts, d.Parsed) ∧
    (∀ f ∈ repeatedGraph.fields, f.origin = .server → f.name ≠ typenameField) ∧
    (checkCycles repeatedGraph repeatedResolution).isOk = true ∧
    (∃ id, repeatedGraph.fieldByName? "User" "name" = some id ∧
      ∃ a ∈ (repeatedGraph.field id).arguments, a.name = "size" ∧ a.isRequired = true) ∧
    ∃ f ∈ repeatedResolution.fields,
      [.linked "me" [], .scalar "name" []] ∈ MergedSet.paths (mergeSelections repeatedGraph
        repeatedResolution f.parent (.symbolic f.variableDefinitions) f.selections) := by
  have facts : (SchemaGraph.ofDocument ⟨true⟩ (userDocument repeatedArgument [])
        (declarationsOf cardTexts)).isOk = true ∧
      (∀ f ∈ repeatedGraph.fields, f.origin = .server → f.name ≠ typenameField) ∧
      (checkCycles repeatedGraph repeatedResolution).isOk = true ∧
      (repeatedGraph.fieldByName? "User" "name").any (fun id =>
        (repeatedGraph.field id).arguments.any fun a => a.name = "size" && a.isRequired) = true ∧
      repeatedResolution.fields.any (fun f => [.linked "me" [], .scalar "name" []] ∈
        MergedSet.paths (mergeSelections repeatedGraph repeatedResolution f.parent
          (.symbolic f.variableDefinitions) f.selections)) = true := by
    decide +kernel
  obtain ⟨possible, unreserved, acyclic, required, missing⟩ := facts
  refine ⟨built_userGraph possible, parsed_declarationsOf cardTexts, unreserved, acyclic, ?_, ?_⟩
  · obtain ⟨id, found, required⟩ := (Option.any_eq_true _ _).1 required
    obtain ⟨a, listed, required⟩ := List.any_eq_true.1 required
    rw [Bool.and_eq_true, decide_eq_true_eq] at required
    exact ⟨id, found, a, listed, required⟩
  · obtain ⟨f, member, missing⟩ := List.any_eq_true.1 missing
    exact ⟨f, member, of_decide_eq_true missing⟩

end IsoLiteral
