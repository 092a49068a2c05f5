import IsoLiteral.Proofs.Operation.Arguments
import IsoLiteral.Proofs.Operation.Planned
import IsoLiteral.Run.Output

/-!
# Arguments of emitted operations

A run emits one operation for each planned field and one for each refetch site that is come to. Their
selections pass arguments to fields of the server, each on the type that the way to it leads to. These
arguments are of the types that the server declares, judged by the variables of the operation itself, except
where null, or a variable that may be null, is passed for something non-null.
-/

namespace IsoLiteral

open MergedSet SchemaGraph

/-! ## Arguments of merged selections -/

/-- The selections of a set on a type, which need not be known, pass an argument to a field of the
server. -/
inductive PassesArgument (g : SchemaGraph) : Option TypeId → MergedSet → FieldId → String × Value → Prop
    where
  | scalar {type set key name arguments id a} (entry : (key, .scalar name arguments) ∈ set)
      (found : g.lookupField? type name = some id) (server : (g.field id).origin = .server)
      (given : a ∈ arguments) : PassesArgument g (some type) set id a
  | linked {type set key name arguments concreteType selections id a}
      (entry : (key, .linked name arguments concreteType selections) ∈ set)
      (found : g.lookupField? type name = some id) (server : (g.field id).origin = .server)
      (given : a ∈ arguments) : PassesArgument g (some type) set id a
  | inside {type set key name arguments concreteType selections id a}
      (entry : (key, .linked name arguments concreteType selections) ∈ set)
      (deeper : PassesArgument g (type.bind (g.linkTarget? · name)) selections id a) :
      PassesArgument g type set id a
  | fragment {type set key name selections id a} (entry : (key, .inlineFragment name selections) ∈ set)
      (deeper : PassesArgument g (g.typeByName? name) selections id a) : PassesArgument g type set id a

section Passing

variable {options : SchemaOptions} {document : SchemaDocument} {declarations : List Declaration}
  {g : SchemaGraph} {type : Option TypeId} {set : MergedSet} {id : FieldId} {a : String × Value}

/-- Where a set obeys rules for arguments, all that it passes is accepted. -/
theorem ObeysAll.accepts_of_passes (built : SchemaGraph.ofDocument options document declarations = .ok g)
    {hole : TypeExpr → Value → Prop} (passes : PassesArgument g type set id a) :
    ∀ {known : TypeId}, type = some known → ObeysAll g (argumentRules g hole) known set →
      ∀ d, (g.field id).argument? a.1 = some d → Accepts g hole d.type a.2 := by
  induction passes with
  | scalar entry found _ given =>
    intro known same all d declared
    cases same
    cases all _ entry with
    | id _ => cases given
    | scalar allowed => exact allowed _ found _ given d declared
  | linked entry found _ given =>
    intro known same all d declared
    cases same
    cases all _ entry with
    | linked allowed _ => exact allowed.2 _ found _ given d declared
  | inside entry _ ih =>
    intro known same all
    cases same
    cases all _ entry with
    | linked allowed inside => exact ih (by rw [Option.bind_some, allowed.1]) inside
  | fragment entry _ ih =>
    intro known same all
    cases all _ entry with
    | fragment valid inside => exact ih (g.typeByName?_typeName built valid) inside

theorem mem_insertNew {key : SelectionKey} {fresh : MergedSelection} {entry : SelectionKey × MergedSelection}
    (member : entry ∈ insertNew key fresh set) : entry ∈ set ∨ entry.2 = fresh :=
  @forall_mem_update key fresh id (fun k m => (k, m) ∈ set ∨ m = fresh) set (fun _ old => .inl old)
    (.inr rfl) (fun _ old => .inl old) entry member

theorem mem_complete {target : TypeId} {withTypename : Bool} {entry : SelectionKey × MergedSelection}
    (member : entry ∈ complete g target withTypename set) :
    entry ∈ set ∨ ∃ name ∈ ["id", typenameField], entry.2 = .scalar name [] := by
  have withId (member : entry ∈ if (g.idField? target).isSome then insertNew .id (.plain "id") set
      else set) : entry ∈ set ∨ ∃ name ∈ ["id", typenameField], entry.2 = .scalar name [] := by
    split at member
    · exact (mem_insertNew member).imp_right fun same => ⟨_, List.mem_cons_self, same⟩
    · exact .inl member
  rw [complete] at member
  split at member
  · exact (mem_insertNew member).elim withId fun same => .inr ⟨_, by simp, same⟩
  · exact withId member

/-- What is added to tell records apart passes no arguments. -/
theorem PassesArgument.of_complete {target : TypeId} {withTypename : Bool}
    (passes : PassesArgument g type (complete g target withTypename set) id a) :
    PassesArgument g type set id a := by
  cases passes with
  | scalar entry found server given =>
    rcases mem_complete entry with old | ⟨name, -, same⟩
    · exact .scalar old found server given
    · cases same
      cases given
  | linked entry found server given =>
    rcases mem_complete entry with old | ⟨name, -, same⟩
    · exact .linked old found server given
    · cases same
  | inside entry deeper =>
    rcases mem_complete entry with old | ⟨name, -, same⟩
    · exact .inside old deeper
    · cases same
  | fragment entry deeper =>
    rcases mem_complete entry with old | ⟨name, -, same⟩
    · exact .fragment old deeper
    · cases same

/-- A query that requests a record passes the id, and what is passed inside. -/
theorem PassesArgument.of_nodeWrapper (built : SchemaGraph.ofDocument options document declarations = .ok g)
    {target : TypeId} (valid : target.index < g.types.length)
    (passes : PassesArgument g (some g.queryType) (nodeWrapper g target set) id a) :
    (g.lookupField? g.queryType "node" = some id ∧ (g.field id).origin = .server ∧
        a = (refetchIdVariable, .variable refetchIdVariable)) ∨ PassesArgument g (some target) set id a := by
  cases passes with
  | scalar entry _ _ _ => cases List.mem_singleton.1 entry
  | linked entry found server given =>
    cases List.mem_singleton.1 entry
    exact .inl ⟨found, server, List.mem_singleton.1 given⟩
  | fragment entry _ => cases List.mem_singleton.1 entry
  | inside entry deeper =>
    cases List.mem_singleton.1 entry
    have narrowed := deeper.of_complete
    generalize Option.bind _ _ = type at narrowed
    cases narrowed with
    | scalar entry _ _ _ => cases List.mem_singleton.1 entry
    | linked entry _ _ _ => cases List.mem_singleton.1 entry
    | inside entry _ => cases List.mem_singleton.1 entry
    | fragment entry deeper =>
      cases List.mem_singleton.1 entry
      rw [g.typeByName?_typeName built valid] at deeper
      exact .inr deeper.of_complete

theorem MergedSet.mem_variableNames {x : String} :
    x ∈ MergedSet.variableNames set ↔ ∃ entry ∈ set, x ∈ entry.2.variableNames := by
  induction set with
  | nil => simp [MergedSet.variableNames]
  | cons entry rest ih => simp [MergedSet.variableNames, ih]

/-- The variables of what is passed are variables of the set. -/
theorem PassesArgument.variableNames_subset (passes : PassesArgument g type set id a) :
    ∀ x ∈ a.2.variableNames, x ∈ MergedSet.variableNames set := by
  induction passes with
  | scalar entry _ _ given =>
    intro x inside
    refine MergedSet.mem_variableNames.2 ⟨_, entry, ?_⟩
    rw [MergedSelection.variableNames]
    exact Value.mem_variableNamesOfFields.2 ⟨_, given, inside⟩
  | linked entry _ _ given =>
    intro x inside
    refine MergedSet.mem_variableNames.2 ⟨_, entry, ?_⟩
    rw [MergedSelection.variableNames]
    exact List.mem_append_left _ (Value.mem_variableNamesOfFields.2 ⟨_, given, inside⟩)
  | inside entry _ ih =>
    intro x inside
    refine MergedSet.mem_variableNames.2 ⟨_, entry, ?_⟩
    rw [MergedSelection.variableNames]
    exact List.mem_append_right _ (ih x inside)
  | fragment entry _ ih =>
    intro x inside
    refine MergedSet.mem_variableNames.2 ⟨_, entry, ?_⟩
    rw [MergedSelection.variableNames]
    exact ih x inside

theorem exists_scalar_of_mem_paths {set : MergedSet} {name : String} {arguments : List (String × Value)}
    (member : [.scalar name arguments] ∈ MergedSet.paths set) : ∃ key, (key, .scalar name arguments) ∈ set := by
  induction set with
  | nil => simp [MergedSet.paths] at member
  | cons entry rest ih =>
    obtain ⟨key, m⟩ := entry
    rw [MergedSet.paths, List.mem_append] at member
    rcases member with own | later
    · cases m with
      | scalar name' arguments' =>
        rw [MergedSelection.paths, List.mem_singleton] at own
        cases own
        exact ⟨key, List.mem_cons_self⟩
      | linked name' arguments' concreteType selections => simp [MergedSelection.paths] at own
      | inlineFragment typeName selections => simp [MergedSelection.paths] at own
    · obtain ⟨key', there⟩ := ih later
      exact ⟨key', List.mem_cons_of_mem _ there⟩

theorem exists_linked_of_mem_paths {set : MergedSet} {name : String} {arguments : List (String × Value)}
    {step : Segment} {rest : List Segment}
    (member : .linked name arguments :: step :: rest ∈ MergedSet.paths set) :
    ∃ key concreteType selections, (key, .linked name arguments concreteType selections) ∈ set ∧
      step :: rest ∈ MergedSet.paths selections := by
  induction set with
  | nil => simp [MergedSet.paths] at member
  | cons entry others ih =>
    obtain ⟨key, m⟩ := entry
    rw [MergedSet.paths, List.mem_append] at member
    rcases member with own | later
    · cases m with
      | scalar name' arguments' => simp [MergedSelection.paths] at own
      | linked name' arguments' concreteType selections =>
        simp only [MergedSelection.paths, List.mem_cons, List.mem_map, List.cons.injEq, reduceCtorEq,
          and_false, false_or] at own
        obtain ⟨path, inside, same, rfl⟩ := own
        cases same
        exact ⟨key, concreteType, selections, List.mem_cons_self, inside⟩
      | inlineFragment typeName selections => simp [MergedSelection.paths] at own
    · obtain ⟨key', concreteType, selections, there, inside⟩ := ih later
      exact ⟨key', concreteType, selections, List.mem_cons_of_mem _ there, inside⟩

/-- A path to a scalar behind a link passes the scalar's arguments. -/
theorem PassesArgument.of_mem_paths {parent target : TypeId} {link field : String}
    {arguments : List (String × Value)}
    (path : [.linked link [], .scalar field arguments] ∈ MergedSet.paths set)
    (leads : g.linkTarget? parent link = some target) (found : g.lookupField? target field = some id)
    (server : (g.field id).origin = .server) (given : a ∈ arguments) :
    PassesArgument g (some parent) set id a := by
  obtain ⟨key, concreteType, selections, outer, inside⟩ := exists_linked_of_mem_paths path
  obtain ⟨key', inner⟩ := exists_scalar_of_mem_paths inside
  refine .inside outer ?_
  rw [Option.bind_some, leads]
  exact .scalar inner found server given

end Passing

/-! ## What is certain of arguments -/

/-- The variable for the id of the record to request. -/
def nodeIdVariable : ResolvedVariable := ⟨refetchIdVariable, idType, none⟩

/-- The field `node` of the server, if it has one, takes the id of a record. -/
def SchemaGraph.NodeTakesId (g : SchemaGraph) : Prop :=
  ∀ id d, g.lookupField? g.queryType "node" = some id → (g.field id).origin = .server →
    (g.field id).argument? refetchIdVariable = some d → idType.satisfies d.type = true

/-- Whatever selections pass to a field of the server is accepted for its type under some variables, null
apart, and altogether if references are careful. -/
structure Certain (g : SchemaGraph) (r : Resolution) (definitions : List ResolvedVariable)
    (type : Option TypeId) (set : MergedSet) : Prop where
  lax : ∀ {id a d}, PassesArgument g type set id a → (g.field id).argument? a.1 = some d →
    Accepts g (operationScope g definitions).lax d.type a.2
  accepted : CarefulReferences g r → ∀ {id a d}, PassesArgument g type set id a →
    (g.field id).argument? a.1 = some d →
    ((operationScope g definitions).checkArgument a.2 d.type).error = none

section Certain

variable {options : SchemaOptions} {document : SchemaDocument} {declarations : List Declaration}
  {g : SchemaGraph} {r : Resolution} {d : Declaration} {f : ResolvedField}
  {definitions : List ResolvedVariable}

theorem Grounded.certain_mergeSelections (h : Grounded g d f)
    (built : SchemaGraph.ofDocument options document declarations = .ok g)
    (grounded : ∀ f ∈ r.fields, ∃ d, Grounded g d f)
    (own : ∀ x type, (d.scope g).judgeVariable x type = none →
      (operationScope g definitions).judgeVariable x type = none)
    {type : TypeId} {selections : List ResolvedSelection}
    (selected : ∀ s ∈ selections, Selected g r d type s) :
    Certain g r definitions (some type)
      (mergeSelections g r type (.symbolic f.variableDefinitions) selections) where
  lax passes known :=
    (h.obeysAll_lax built grounded own selected).accepts_of_passes built passes rfl _ known
  accepted careful _ _ _ passes known :=
    checkValue_eq_none_iff.2
      ((h.obeysAll_judged built grounded careful own selected).accepts_of_passes built passes rfl _ known)

/-- A query that requests a record passes the id to a field that takes it. -/
theorem Certain.nodeWrapper {target : TypeId} {set : MergedSet}
    (certain : Certain g r (nodeIdVariable :: definitions) (some target) set)
    (built : SchemaGraph.ofDocument options document declarations = .ok g)
    (valid : target.index < g.types.length) (node : g.NodeTakesId) :
    Certain g r (nodeIdVariable :: definitions) (some g.queryType) (nodeWrapper g target set) := by
  have first : (operationScope g (nodeIdVariable :: definitions)).definition? refetchIdVariable =
      some nodeIdVariable.definition := by
    rw [definition?_operationScope, List.find?_cons_of_pos (by simp [nodeIdVariable]), Option.map_some]
  have judged {type : TypeExpr} (satisfies : idType.satisfies type = true) :
      (operationScope g (nodeIdVariable :: definitions)).judgeVariable refetchIdVariable type = none :=
    SelectionScope.judgeVariable_eq_none_iff.2
      ⟨_, first, VariableDefinition.satisfies_of_type satisfies⟩
  constructor
  · intro id a argument passes known
    rcases passes.of_nodeWrapper built valid with ⟨found, server, rfl⟩ | deeper
    · exact accepts_variable (SelectionScope.lax_of_judged (judged (node id argument found server known)))
    · exact certain.lax deeper known
  · intro careful id a argument passes known
    rcases passes.of_nodeWrapper built valid with ⟨found, server, rfl⟩ | deeper
    · exact checkValue_eq_none_iff.2 (accepts_variable (judged (node id argument found server known)))
    · exact certain.accepted careful deeper known

/-- Variables that do not occur need not be declared. -/
theorem Certain.filter {type : Option TypeId} {set : MergedSet}
    (certain : Certain g r (nodeIdVariable :: definitions) type set) :
    Certain g r (nodeIdVariable :: definitions.filter fun v => v.name ∈ MergedSet.variableNames set) type
      set := by
  have same {x : String} (used : x ∈ MergedSet.variableNames set) :
      (operationScope g (nodeIdVariable :: definitions.filter fun v =>
        v.name ∈ MergedSet.variableNames set)).definition? x =
        (operationScope g (nodeIdVariable :: definitions)).definition? x := by
    have kept : (definitions.filter fun v => v.name ∈ MergedSet.variableNames set).find? (·.name = x) =
        definitions.find? (·.name = x) := by
      rw [List.find?_filter]
      refine congrArg (List.find? · definitions) (funext fun v => ?_)
      by_cases name : v.name = x
      · simp [name, used]
      · simp [name]
    rw [definition?_operationScope, definition?_operationScope, List.find?_cons, List.find?_cons, kept]
  constructor
  · intro id a argument passes known
    refine (certain.lax passes known).mono fun type w inside hole lax => ?_
    rcases hole.cases with rfl | ⟨x, rfl⟩
    · trivial
    · obtain ⟨v, found, satisfies⟩ := lax
      refine ⟨v, ?_, satisfies⟩
      rwa [same (passes.variableNames_subset x inside.mem_variableNames)]
  · intro careful id a argument passes known
    refine SelectionScope.checkArgument_of_judged (certain.accepted careful passes known)
      (fun x inside type => ?_) rfl
    rw [SelectionScope.judgeVariable_eq_none_iff, SelectionScope.judgeVariable_eq_none_iff,
      same (passes.variableNames_subset x inside)]
    exact fun judged => judged

end Certain

/-! ## Operations of a run -/

/-- The type on which the selections of an operation stand. -/
def SchemaGraph.rootType? (g : SchemaGraph) : OperationKind → Option TypeId
  | .query => some g.queryType
  | .mutation => g.mutationType

/-- The operations of an entrypoint: the one that fetches it, and those that request records again. -/
def EntrypointArtifact.operations (e : EntrypointArtifact) : List Operation :=
  e.operation :: e.refetchQueries.map (·.operation)

/-- All operations that a run emits. -/
def CompilationOutput.operations (out : CompilationOutput) : List Operation :=
  out.entrypoints.flatMap (·.operations)

theorem SchemaGraph.rootType?_of_operationKind? {g : SchemaGraph} {type : TypeId} {kind : OperationKind}
    (root : g.operationKind? type = some kind) : g.rootType? kind = some type := by
  rw [operationKind?] at root
  split at root
  · rename_i same
    obtain rfl := Option.some.inj root
    rw [rootType?, same]
  · split at root
    · rename_i same
      obtain rfl := Option.some.inj root
      exact same.symm
    · cases root

section Operations

variable {options : SchemaOptions} {document : SchemaDocument} {declarations : List Declaration}
  {g : SchemaGraph} {r : Resolution} {d : Declaration} {f : ResolvedField}

/-- A field that may be requested through its record does not declare the variable for the id. -/
theorem ResolvedFrom.definition?_refetchIdVariable (h : ResolvedFrom g d f)
    (requested : g.isRootType f.parent = false ∨ refetchSites f.parent f.selections ≠ []) :
    (d.scope g).definition? refetchIdVariable = none := by
  by_contra declared
  obtain ⟨v, declared⟩ := Option.ne_none_iff_exists'.1 declared
  have unreserved := h.unreserved
  rw [SelectionScope.reservedProblem?, declared, Option.bind_eq_bind, Option.bind_some] at unreserved
  split at unreserved
  · rename_i root
    rw [Bool.and_eq_true, List.isEmpty_iff] at root
    rcases requested with other | some
    · have same : g.isRootType f.parent = true := root.1
      rw [other] at same
      cases same
    · exact some root.2
  · cases unreserved

/-- With the id added to its variables, a field's own ones are judged as before. -/
theorem Grounded.judgeVariable_cons (h : Grounded g d f)
    (undeclared : (d.scope g).definition? refetchIdVariable = none) (x : String) (type : TypeExpr)
    (judged : (d.scope g).judgeVariable x type = none) :
    (operationScope g (nodeIdVariable :: f.variableDefinitions)).judgeVariable x type = none := by
  obtain ⟨v, found, -⟩ := SelectionScope.judgeVariable_eq_none_iff.1 judged
  have apart : nodeIdVariable.name ≠ x := by
    rintro rfl
    rw [show (d.scope g).definition? nodeIdVariable.name = none from undeclared] at found
    cases found
  have same : (operationScope g (nodeIdVariable :: f.variableDefinitions)).definition? x =
      (operationScope g f.variableDefinitions).definition? x := by
    rw [definition?_operationScope, definition?_operationScope, List.find?_cons_of_neg (by simpa using apart)]
  rw [SelectionScope.judgeVariable_eq_none_iff, same, ← SelectionScope.judgeVariable_eq_none_iff]
  exact h.judgeVariable_iff.2 judged

/-- The operation takes variables under which what is certain of arguments holds of all that it passes. -/
def Operation.HasCertain (o : Operation) (g : SchemaGraph) (r : Resolution) : Prop :=
  ∃ definitions, o.variableDefinitions = definitions.map QueryVariable.ofResolved ∧
    Certain g r definitions (g.rootType? o.kind) o.selections

theorem Grounded.hasCertain_fetchOperation (h : Grounded g d f) (listed : f ∈ r.fields)
    (built : SchemaGraph.ofDocument options document declarations = .ok g)
    (grounded : ∀ f ∈ r.fields, ∃ d, Grounded g d f) (name : String)
    (node : QueryVariable.nodeId ∈ (fetchOperation g r name f).variableDefinitions → g.NodeTakesId) :
    (fetchOperation g r name f).HasCertain g r := by
  unfold fetchOperation at node ⊢
  have selected := h.selected listed
  cases root : g.operationKind? f.parent with
  | some kind =>
    refine ⟨f.variableDefinitions, rfl, ?_⟩
    rw [g.rootType?_of_operationKind? root]
    exact h.certain_mergeSelections built grounded (fun _ _ => h.judgeVariable_iff.2) selected
  | none =>
    rw [root] at node
    have undeclared := h.resolved.definition?_refetchIdVariable (.inl (by rw [isRootType, root]; rfl))
    have valid : f.parent.index < g.types.length := by
      obtain ⟨type, named, found⟩ := Option.bind_eq_some_iff.1 h.resolved.found
      rw [h.resolved.parent, (g.lookupField?_eq_some built found).1]
      exact g.lt_of_lookupField? found
    refine ⟨nodeIdVariable :: f.variableDefinitions, rfl, ?_⟩
    exact (h.certain_mergeSelections built grounded (h.judgeVariable_cons undeclared) selected).nodeWrapper
      built valid (node (by simp))

theorem Grounded.hasCertain_refetchOperation (h : Grounded g d f) (listed : f ∈ r.fields)
    (built : SchemaGraph.ofDocument options document declarations = .ok g)
    (grounded : ∀ f ∈ r.fields, ∃ d, Grounded g d f) {site : RefetchSite}
    (member : site ∈ refetchSites f.parent f.selections) (name : String) (node : g.NodeTakesId) :
    (refetchOperation g r name f site).HasCertain g r := by
  have selected := h.selected_of_mem_refetchSites listed site member
  have undeclared := h.resolved.definition?_refetchIdVariable (.inr (List.ne_nil_of_mem member))
  have certain := (h.certain_mergeSelections built grounded (h.judgeVariable_cons undeclared)
    selected.selected).nodeWrapper built selected.valid node
  exact ⟨_, rfl, certain.filter⟩

/-- Each refetch query of an entrypoint is that of a refetch site of a field which is read. -/
theorem exists_of_mem_refetchQueries {name : String} {field : FieldId} {q : RefetchQuery}
    (member : q ∈ refetchQueries g r name field) :
    ∃ owner ∈ r.readers field, ∃ site, (refetchSites owner.parent owner.selections)[q.index]? = some site ∧
      q.owner = owner.artifactId g ∧ ∃ queryName, q.operation = refetchOperation g r queryName owner site := by
  obtain ⟨k, inside, rfl⟩ := List.mem_mapIdx.1 member
  have listed := List.getElem_mem inside
  generalize (sitesFrom r field)[k] = pair at listed
  obtain ⟨owner, site⟩ := pair
  obtain ⟨f, read, sites⟩ := List.mem_flatMap.1 listed
  obtain ⟨site', within, same⟩ := List.mem_map.1 sites
  obtain ⟨rfl, rfl⟩ := Prod.mk.inj same
  exact ⟨f, read, site', getElem?_index_of_mem_refetchSites within, rfl, _, rfl⟩

theorem Resolution.field?_self {id : FieldId} (resolved : r.field? id = some f) :
    r.field? f.field = some f := by
  have own : f.field = id := by simpa using List.find?_some resolved
  rwa [own]

theorem field?_of_mem_readers {field : FieldId} (member : f ∈ r.readers field) :
    r.field? f.field = some f := by
  obtain ⟨id, -, resolved⟩ := List.mem_filterMap.1 member
  exact Resolution.field?_self resolved

theorem field?_of_mem_plans {plan : Plan} (member : plan ∈ r.plans g) :
    r.field? plan.field.field = some plan.field := by
  rw [Resolution.plans_eq] at member
  obtain ⟨f, found, rfl⟩ := List.mem_map.1 member
  obtain ⟨id, -, resolved⟩ := List.mem_filterMap.1 found
  exact Resolution.field?_self resolved

/-- The artifacts are those of the plans, and there are none where a field refers to itself. -/
theorem entrypointArtifacts_eq_ok_iff {artifacts : List EntrypointArtifact} :
    r.entrypointArtifacts g = .ok artifacts ↔
      checkCycles g r = .ok () ∧ (r.plans g).map (·.artifact g r) = artifacts := by
  rw [Resolution.entrypointArtifacts]
  cases checkCycles g r with
  | error e => simp [bind, Except.bind]
  | ok _ => simp [bind, Except.bind, pure, Except.pure]

theorem queryName_of_mem_plans {plan : Plan} (member : plan ∈ r.plans g) :
    plan.queryName = if (r.entrypoint? plan.field.field).isSome then g.fieldName plan.field.field
      else g.typeName plan.field.parent ++ "__" ++ g.fieldName plan.field.field := by
  rw [Resolution.plans_eq] at member
  obtain ⟨f, -, rfl⟩ := List.mem_map.1 member
  rfl

end Operations

/-! ## Runs -/

/-- What is resolved of the declarations of a run. -/
def ParsedLiterals.resolution (p : ParsedLiterals) (g : SchemaGraph) : Resolution :=
  (Resolution.ofDeclarations g p.declarations).1

section Runs

variable {config : CompilerConfig} {document : SchemaDocument} {literals : LiteralMap}
  {out : CompilationOutput} {p : ParsedLiterals}

theorem parseFrom_of_parseLiterals (parsed : parseLiterals config literals = .ok p) :
    parseFrom config.parseLimits 0 literals.entries = .ok p := by
  rw [parseLiterals] at parsed
  cases run : parseFrom config.parseLimits 0 literals.entries with
  | error e =>
    rw [run] at parsed
    cases parsed
  | ok q =>
    rw [run] at parsed
    cases parsed
    rfl

theorem parsed_of_mem_parseLiterals (parsed : parseLiterals config literals = .ok p) :
    ∀ d ∈ p.declarations, d.Parsed :=
  parsed_of_mem_parseFrom _ 0 (parseFrom_of_parseLiterals parsed)

theorem exists_parseLiterals (run : produce config document literals = .ok out) :
    ∃ p, parseLiterals config literals = .ok p := by
  cases parsed : parseLiterals config literals with
  | error e => simp [produce, parsed, bind, Except.bind] at run
  | ok p => exact ⟨p, rfl⟩

/-- The stages of a run. -/
theorem stages_of_produce (run : produce config document literals = .ok out)
    (parsed : parseLiterals config literals = .ok p) :
    SchemaGraph.ofDocument config.schemaOptions document p.declarations = .ok out.schema ∧
      out.entrypoints = ((p.resolution out.schema).plans out.schema).map
        (·.artifact out.schema (p.resolution out.schema)) ∧
      out.fields = (p.resolution out.schema).fieldArtifacts out.schema ∧
      out.diagnostics = p.diagnostics ++ (Resolution.ofDeclarations out.schema p.declarations).2 := by
  cases built : SchemaGraph.ofDocument config.schemaOptions document p.declarations with
  | error ds =>
    simp [produce, parsed, ParsedLiterals.analyze, built, bind, Except.bind, Except.mapError] at run
  | ok g =>
    cases cycles : checkCycles g (Resolution.ofDeclarations g p.declarations).1 with
    | error e =>
      simp [produce, parsed, ParsedLiterals.analyze, built, bind, Except.bind, Except.mapError, pure,
        Except.pure, Analysis.generate, Resolution.entrypointArtifacts, cycles] at run
    | ok _ =>
      simp only [produce, parsed, ParsedLiterals.analyze, built, bind, Except.bind, Except.mapError, pure,
        Except.pure, Analysis.generate, Resolution.entrypointArtifacts, cycles, Except.ok.injEq] at run
      subst run
      exact ⟨rfl, rfl, rfl, rfl⟩

/-- Every operation of a run fetches a resolved field, or requests one of its refetch sites. -/
theorem exists_of_mem_operations (run : produce config document literals = .ok out)
    (parsed : parseLiterals config literals = .ok p) {o : Operation} (member : o ∈ out.operations) :
    ∃ f ∈ (p.resolution out.schema).fields, ∃ name,
      o = fetchOperation out.schema (p.resolution out.schema) name f ∨
        ∃ site ∈ refetchSites f.parent f.selections,
          o = refetchOperation out.schema (p.resolution out.schema) name f site := by
  rw [CompilationOutput.operations, (stages_of_produce run parsed).2.1] at member
  obtain ⟨e, listed, member⟩ := List.mem_flatMap.1 member
  obtain ⟨plan, planned, rfl⟩ := List.mem_map.1 listed
  rcases List.mem_cons.1 member with rfl | later
  · exact ⟨plan.field, List.mem_of_find?_eq_some (field?_of_mem_plans planned), _, .inl rfl⟩
  · obtain ⟨q, queried, rfl⟩ := List.mem_map.1 later
    obtain ⟨owner, read, site, numbered, -, name, same⟩ := exists_of_mem_refetchQueries queried
    exact ⟨owner, List.mem_of_find?_eq_some (field?_of_mem_readers read), name,
      .inr ⟨site, List.mem_of_getElem? numbered, same⟩⟩

/-- **Arguments of emitted operations.** In every run, for every operation that it emits, fetching or
requesting again, an argument that the selections pass to a field of the server is accepted for the declared
type, judged by the operation's own variables, exactly if at no place inside it null or a variable that may
be null stands for something non-null. If references are careful about null, every argument is accepted.
The server's `node` has to take an id where the operation requests a record by its id. -/
theorem checkArgument_emitted_iff (run : produce config document literals = .ok out)
    (parsed : parseLiterals config literals = .ok p) {o : Operation} (member : o ∈ out.operations)
    (node : QueryVariable.nodeId ∈ o.variableDefinitions → out.schema.NodeTakesId) :
    ∃ definitions, o.variableDefinitions = definitions.map QueryVariable.ofResolved ∧
      ∀ id a d, PassesArgument out.schema (out.schema.rootType? o.kind) o.selections id a →
        (out.schema.field id).argument? a.1 = some d →
        (((operationScope out.schema definitions).checkArgument a.2 d.type).error = none ↔
          (operationScope out.schema definitions).KeepsNonNull d.type a.2) ∧
        (CarefulReferences out.schema (p.resolution out.schema) →
          ((operationScope out.schema definitions).checkArgument a.2 d.type).error = none) := by
  have built := (stages_of_produce run parsed).1
  have grounded := exists_grounded built (parsed_of_mem_parseLiterals parsed)
  have certain : o.HasCertain out.schema (p.resolution out.schema) := by
    obtain ⟨f, listed, name, fetch | ⟨site, requested, refetch⟩⟩ := exists_of_mem_operations run parsed member
    · obtain ⟨d, own⟩ := grounded f listed
      subst fetch
      exact own.hasCertain_fetchOperation listed built grounded name node
    · obtain ⟨d, own⟩ := grounded f listed
      subst refetch
      exact own.hasCertain_refetchOperation listed built grounded requested name (node List.mem_cons_self)
  obtain ⟨definitions, declared, certain⟩ := certain
  refine ⟨definitions, declared, fun id a d passes known => ⟨?_, fun careful => ?_⟩⟩
  · exact SelectionScope.checkArgument_eq_none_iff (certain.lax passes known)
  · exact certain.accepted careful passes known

end Runs

/-! ## A card with a size -/

theorem eq_ok_getD {ε α : Type} (outcome : Except ε α) (other : α) (possible : outcome.isOk = true) :
    outcome = .ok (outcome.toOption.getD other) := by
  cases outcome with
  | error e => cases possible
  | ok a => rfl

/-- The literals of a run, after parsing. -/
def parsedOf (texts : List String) : ParsedLiterals :=
  match parseLiterals .standard (.ofLiterals texts) with
  | .ok p => p
  | .error _ => ⟨[], []⟩

theorem parseLiterals_parsedOf (texts : List String)
    (possible : (parseLiterals .standard (.ofLiterals texts)).isOk = true) :
    parseLiterals .standard (.ofLiterals texts) = .ok (parsedOf texts) := by
  rw [parsedOf]
  split
  · assumption
  · rename_i failed
    rw [failed] at possible
    cases possible

/-- What a run gives for a server with users whose name is given for a size. -/
def outputOf (texts : List String) : CompilationOutput :=
  match produce .standard (userDocument sizeArgument []) (.ofLiterals texts) with
  | .ok out => out
  | .error _ => ⟨default, [], [], []⟩

theorem produce_outputOf (texts : List String)
    (possible : (produce .standard (userDocument sizeArgument []) (.ofLiterals texts)).isOk = true) :
    produce .standard (userDocument sizeArgument []) (.ofLiterals texts) = .ok (outputOf texts) := by
  rw [outputOf]
  split
  · assumption
  · rename_i failed
    rw [failed] at possible
    cases possible

/-- Whether an operation of a run passes a size to the name of a user, where it has to be non-null. -/
def passesSize (texts : List String) (size : Value) : Bool :=
  let g := (outputOf texts).schema
  ((outputOf texts).operations.any fun o => o.kind = .query && .nodeId ∉ o.variableDefinitions &&
    [.linked "me" [], .scalar "name" [("size", size)]] ∈ MergedSet.paths o.selections) &&
  (g.linkTarget? g.queryType "me").any fun user => (g.lookupField? user "name").any fun id =>
    (g.field id).origin = .server && ((g.field id).argument? "size").any (·.type.isNonNull)

theorem exists_of_passesSize {texts : List String} {size : Value} (passes : passesSize texts size = true) :
    ∃ o ∈ (outputOf texts).operations, QueryVariable.nodeId ∉ o.variableDefinitions ∧ ∃ id d,
      PassesArgument (outputOf texts).schema ((outputOf texts).schema.rootType? o.kind) o.selections id
        ("size", size) ∧
      ((outputOf texts).schema.field id).argument? "size" = some d ∧ d.type.isNonNull = true := by
  rw [passesSize, Bool.and_eq_true] at passes
  obtain ⟨o, member, fact⟩ := List.any_eq_true.1 passes.1
  simp only [Bool.and_eq_true, decide_eq_true_eq] at fact
  obtain ⟨user, leads, rest⟩ := (Option.any_eq_true _ _).1 passes.2
  obtain ⟨id, found, rest⟩ := (Option.any_eq_true _ _).1 rest
  rw [Bool.and_eq_true, decide_eq_true_eq] at rest
  obtain ⟨d, known, nonNull⟩ := (Option.any_eq_true _ _).1 rest.2
  refine ⟨o, member, fact.1.2, id, d, ?_, known, nonNull⟩
  rw [fact.1.1]
  exact .of_mem_paths fact.2 leads found rest.1 List.mem_cons_self

/-- A card is shown for a size. -/
def sizedTexts : List String :=
  ["field User.card($size: Int!) \x7b name(size: $size) \x7d",
    "field Query.home($n: Int!) \x7b me \x7b card(size: $n) \x7d \x7d", "entrypoint Query.home"]

theorem checkArgument_emitted_sized :
    ∃ out, produce .standard (userDocument sizeArgument []) (.ofLiterals sizedTexts) = .ok out ∧
      ∃ o ∈ out.operations, ∃ definitions, o.variableDefinitions = definitions.map QueryVariable.ofResolved ∧
        ∃ id d, PassesArgument out.schema (out.schema.rootType? o.kind) o.selections id
            ("size", .variable "n") ∧
          (out.schema.field id).argument? "size" = some d ∧ d.type.isNonNull = true ∧
          ((operationScope out.schema definitions).checkArgument (.variable "n") d.type).error = none := by
  have facts : (produce .standard (userDocument sizeArgument []) (.ofLiterals sizedTexts)).isOk = true ∧
      (parseLiterals .standard (.ofLiterals sizedTexts)).isOk = true ∧
      passesSize sizedTexts (.variable "n") = true ∧
      ∀ e ∈ ((parsedOf sizedTexts).resolution (outputOf sizedTexts).schema).fields,
        ∀ v ∈ e.variableDefinitions, v.defaultValue = none := by
    decide +kernel
  obtain ⟨possible, possible', passes, none⟩ := facts
  have run := produce_outputOf sizedTexts possible
  have parsed := parseLiterals_parsedOf sizedTexts possible'
  obtain ⟨o, member, noNode, id, d, passes, known, nonNull⟩ := exists_of_passesSize passes
  obtain ⟨definitions, declared, verdict⟩ := checkArgument_emitted_iff run parsed member
    fun node => absurd node noNode
  exact ⟨_, run, o, member, definitions, declared, id, d, passes, known, nonNull,
    (verdict id _ d passes known).2 (carefulReferences_of_no_defaults none)⟩

/-- A card is shown for no size, though it has one by default. -/
def nullTexts : List String :=
  ["field User.card($size: Int = 5) \x7b name(size: $size) \x7d",
    "field Query.home \x7b me \x7b card(size: null) \x7d \x7d", "entrypoint Query.home"]

/-- A run without errors passes null for an argument that is non-null. -/
theorem null_passed_for_nonNull :
    ∃ out, produce .standard (userDocument sizeArgument []) (.ofLiterals nullTexts) = .ok out ∧
      out.diagnostics.hasErrors = false ∧ ∃ o ∈ out.operations, ∃ id d,
        PassesArgument out.schema (out.schema.rootType? o.kind) o.selections id ("size", .null) ∧
        (out.schema.field id).argument? "size" = some d ∧
        ∀ definitions, ((operationScope out.schema definitions).checkArgument .null d.type).error ≠ none := by
  have facts : (produce .standard (userDocument sizeArgument []) (.ofLiterals nullTexts)).isOk = true ∧
      (outputOf nullTexts).diagnostics.hasErrors = false ∧ passesSize nullTexts .null = true := by
    decide +kernel
  obtain ⟨possible, clean, passes⟩ := facts
  have run := produce_outputOf nullTexts possible
  obtain ⟨o, member, -, id, d, passes, known, nonNull⟩ := exists_of_passesSize passes
  refine ⟨_, run, clean, o, member, id, d, passes, known, fun definitions accepted => ?_⟩
  have nullable : d.type.isNonNull = false := checkValue_eq_none_iff.1 accepted _ _ .here
  rw [nonNull] at nullable
  cases nullable

end IsoLiteral
