import IsoLiteral.Proofs.Operation.Emitted
import IsoLiteral.Proofs.Value.Substitution

/-!
# Closed operations

Every variable of an operation is declared by it. Along any chain of references the variables of the inner
fields are replaced by values, in which only variables of the fetched field are left: a context stays over
the fetched field's variables (`Over`) from one field to the next, since an argument is bound in the context
outside and a default holds no variable. What requests a record again brings one variable of its own.
-/

namespace IsoLiteral

open MergedSet

/-! ## Values -/

/-- A variable is mentioned in a value: the value is the variable, or has a part that mentions it. -/
inductive Value.Mentions (x : String) : Value → Prop where
  | here : Mentions x (.variable x)
  | item {items v} (member : v ∈ items) (inside : Mentions x v) : Mentions x (.list items)
  | field {fields key v} (member : (key, v) ∈ fields) (inside : Mentions x v) : Mentions x (.object fields)

/-- The variables that are collected from a value are those that it mentions. -/
theorem Value.mentions_iff {x : String} {v : Value} : v.Mentions x ↔ x ∈ v.variableNames := by
  constructor
  · intro mentions
    induction mentions with
    | here => exact List.mem_singleton_self x
    | item member _ ih => exact mem_variableNamesOf.2 ⟨_, member, ih⟩
    | field member _ ih => exact mem_variableNamesOfFields.2 ⟨_, member, ih⟩
  · intro inside
    induction v using memberInduction with
    | var name =>
      obtain rfl := List.mem_singleton.1 inside
      exact .here
    | list items ih =>
      obtain ⟨v, member, inside⟩ := mem_variableNamesOf.1 inside
      exact .item member (ih v member inside)
    | object fields ih =>
      obtain ⟨field, member, inside⟩ := mem_variableNamesOfFields.1 inside
      exact .field member (ih field member inside)
    | _ => cases inside

/-- Where every variable is replaced, only variables of the replacements are left. -/
theorem Value.allowed_of_mem_substitute {lookup : String → Option Value} {allowed : String → Prop}
    (replaced : ∀ name, ∃ u, lookup name = some u ∧ ∀ x ∈ u.variableNames, allowed x) (v : Value) :
    ∀ x ∈ (v.substitute lookup).variableNames, allowed x := by
  intro x inside
  rw [variableNames_substitute, List.mem_flatMap] at inside
  obtain ⟨name, -, inside⟩ := inside
  obtain ⟨u, known, fine⟩ := replaced name
  rw [namesAfter, known] at inside
  exact fine x inside

/-! ## Contexts -/

namespace VariableContext

variable {allowed : String → Prop} {c : VariableContext}

/-- Only some variables occur in what the variables of a field stand for. -/
def Over (allowed : String → Prop) (c : VariableContext) : Prop :=
  ∀ b ∈ c.bindings, ∀ x ∈ b.2.variableNames, allowed x

theorem over_symbolic (definitions : List ResolvedVariable) :
    Over (· ∈ definitions.map (·.name)) (symbolic definitions) := by
  rintro b member x inside
  obtain ⟨v, listed, rfl⟩ := List.mem_map.1 member
  obtain rfl := List.mem_singleton.1 inside
  exact List.mem_map_of_mem listed

theorem Over.get? (within : c.Over allowed) {name : String} {v : Value} (known : c.get? name = some v) :
    ∀ x ∈ v.variableNames, allowed x := by
  obtain ⟨before, after, split, -⟩ := List.lookup_eq_some_iff.1 known
  exact within (name, v) (by simp [split])

theorem Over.bindNested (within : c.Over allowed) (v : Value) :
    ∀ x ∈ (c.bindNested v).variableNames, allowed x := by
  rw [bindNested_eq_substitute]
  refine Value.allowed_of_mem_substitute (fun name => ⟨_, rfl, ?_⟩) v
  cases known : c.get? name with
  | none => simp [Value.variableNames]
  | some u => exact within.get? known

theorem Over.bind? (within : c.Over allowed) {v bound : Value} (value : c.bind? v = some bound) :
    ∀ x ∈ bound.variableNames, allowed x := by
  unfold VariableContext.bind? at value
  split at value
  · exact within.get? value
  · obtain rfl := Option.some.inj value
    exact within.bindNested _

theorem Over.bindArguments (within : c.Over allowed) (arguments : List (String × Value)) :
    ∀ x ∈ Value.variableNamesOfFields (c.bindArguments arguments), allowed x := by
  intro x inside
  obtain ⟨⟨name, bound⟩, member, inside⟩ := Value.mem_variableNamesOfFields.1 inside
  obtain ⟨v, -, value⟩ := mem_bindArguments.1 member
  exact within.bind? value x inside

/-- **One reference further in**, the values are still over the same variables. -/
theorem Over.child (within : c.Over allowed) {definitions : List ResolvedVariable}
    (constant : ∀ v ∈ definitions, ∀ u ∈ v.defaultValue, u.isConstant = true)
    (arguments : List (String × Value)) : (c.child definitions arguments).Over allowed := by
  intro b member
  obtain ⟨v, listed, made⟩ := List.mem_filterMap.1 member
  obtain ⟨bound, value, rfl⟩ := Option.map_eq_some_iff.1 made
  rcases Option.or_eq_some_iff.1 value with given | ⟨-, default⟩
  · obtain ⟨u, -, value⟩ := Option.bind_eq_some_iff.1 given
    exact within.bind? value
  · intro x inside
    exact absurd inside ((Value.isConstant_iff bound).1 (constant v listed bound default) x)

end VariableContext

/-! ## Requests -/

/-- Only some variables occur in the arguments of a request and inside it. -/
inductive Request.Over (allowed : String → Prop) : Request → Prop where
  | scalar {key fieldName arguments} (fine : ∀ x ∈ Value.variableNamesOfFields arguments, allowed x) :
      Request.Over allowed (.scalar key fieldName arguments)
  | linked {fieldName arguments target nested} (fine : ∀ x ∈ Value.variableNamesOfFields arguments, allowed x)
      (inside : ∀ r ∈ nested, Request.Over allowed r) :
      Request.Over allowed (.linked fieldName arguments target nested)
  | fragment {target nested} (inside : ∀ r ∈ nested, Request.Over allowed r) :
      Request.Over allowed (.fragment target nested)

section Requests

variable {g : SchemaGraph} {r : Resolution} {allowed : String → Prop} {expand : Expansion}

/-- What an expansion asks for is over the variables that its context is within. -/
def Expansion.Over (allowed : String → Prop) (expand : Expansion) : Prop :=
  ∀ type c head, c.Over allowed → ∀ request ∈ expand type c head, request.Over allowed

mutual
theorem over_requestsOf (closed : expand.Over allowed) (s : ResolvedSelection) {parent : TypeId}
    {c : VariableContext} (within : c.Over allowed) :
    ∀ request ∈ requestsOf g expand parent c s, request.Over allowed := by
  cases s with
  | scalar head updatable =>
    rw [requestsOf]
    exact List.forall_mem_singleton.2 (.scalar (within.bindArguments _))
  | link head => simp [requestsOf]
  | resolver head kind loadable =>
    cases loadable with
    | some options => simp [requestsOf]
    | none =>
      rw [requestsOf]
      exact closed _ _ _ within
  | pointer head target nested =>
    rw [requestsOf]
    exact closed _ _ _ within
  | linked head target inlineFragment updatable nested =>
    have inside : ∀ request ∈ requestsOfAll g expand target c nested, request.Over allowed :=
      over_requestsOfAll closed nested within
    rw [requestsOf]
    cases inlineFragment with
    | true => exact List.forall_mem_singleton.2 (.fragment inside)
    | false => exact List.forall_mem_singleton.2 (.linked (within.bindArguments _) inside)
theorem over_requestsOfAll (closed : expand.Over allowed) (selections : List ResolvedSelection)
    {parent : TypeId} {c : VariableContext} (within : c.Over allowed) :
    ∀ request ∈ requestsOfAll g expand parent c selections, request.Over allowed := by
  cases selections with
  | nil => simp [requestsOfAll]
  | cons s rest =>
    rw [requestsOfAll, List.forall_mem_append]
    exact ⟨over_requestsOf closed s within, over_requestsOfAll closed rest within⟩
end

theorem over_expandField
    (constant : ∀ f ∈ r.fields, ∀ v ∈ f.variableDefinitions, ∀ u ∈ v.defaultValue, u.isConstant = true)
    (depth : Nat) : (expandField g r depth).Over allowed := by
  induction depth with
  | zero => simp [Expansion.Over, expandField]
  | succ depth ih =>
    intro type c head within
    rw [expandField]
    split
    · simp
    · rename_i f resolved
      exact over_requestsOfAll ih f.selections
        (within.child (constant f (List.mem_of_find?_eq_some resolved)) head.arguments)

end Requests

/-! ## Merged selections -/

/-- Only some variables occur in a set. -/
def MergedSet.Over (allowed : String → Prop) (set : MergedSet) : Prop :=
  ∀ entry ∈ set, ∀ x ∈ entry.2.variableNames, allowed x

section Merging

variable {g : SchemaGraph} {r : Resolution} {allowed : String → Prop} {set : MergedSet}

theorem MergedSet.over_iff : Over allowed set ↔ ∀ x ∈ variableNames set, allowed x := by
  constructor
  · intro within x inside
    obtain ⟨entry, member, inside⟩ := MergedSet.mem_variableNames.1 inside
    exact within entry member x inside
  · intro fine entry member x inside
    exact fine x (MergedSet.mem_variableNames.2 ⟨entry, member, inside⟩)

theorem MergedSet.Over.complete (within : Over allowed set) (target : TypeId) (withTypename : Bool) :
    Over allowed (complete g target withTypename set) := by
  intro entry member
  rcases mem_complete member with old | ⟨name, -, same⟩
  · exact within entry old
  · rw [same]
    simp [MergedSelection.variableNames, Value.variableNamesOfFields]

theorem MergedSet.Over.update (within : Over allowed set) {key : SelectionKey} {fresh : MergedSelection}
    {change : MergedSelection → MergedSelection} (new : ∀ x ∈ fresh.variableNames, allowed x)
    (keeps : ∀ m, (∀ x ∈ m.variableNames, allowed x) → ∀ x ∈ (change m).variableNames, allowed x) :
    Over allowed (update key fresh change set) :=
  @forall_mem_update key fresh change (fun _ m => ∀ x ∈ m.variableNames, allowed x) set within
    (keeps _ new) fun m member => keeps m (within _ member)

/-- What grows inside a selection stays over the variables, and so does the selection. -/
theorem MergedSelection.over_mapSelections {change : MergedSet → MergedSet}
    (keeps : ∀ selections, MergedSet.Over allowed selections → MergedSet.Over allowed (change selections))
    {m : MergedSelection} (within : ∀ x ∈ m.variableNames, allowed x) :
    ∀ x ∈ (m.mapSelections change).variableNames, allowed x := by
  cases m with
  | scalar fieldName arguments => exact within
  | linked fieldName arguments concreteType selections =>
    rw [variableNames, List.forall_mem_append] at within
    rw [mapSelections, variableNames, List.forall_mem_append]
    exact ⟨within.1, MergedSet.over_iff.1 (keeps _ (MergedSet.over_iff.2 within.2))⟩
  | inlineFragment typeName selections =>
    rw [variableNames] at within
    rw [mapSelections, variableNames]
    exact MergedSet.over_iff.1 (keeps _ (MergedSet.over_iff.2 within))

mutual
/-- **Merging a request** brings no other variables. -/
theorem over_mergeInto (request : Request) (fine : request.Over allowed) {set : MergedSet}
    (within : Over allowed set) : Over allowed (request.mergeInto g set) := by
  cases request with
  | scalar key fieldName arguments =>
    cases fine with
    | scalar fine =>
      rw [Request.mergeInto]
      refine within.update ?_ fun m old => old
      rw [MergedSelection.variableNames]
      exact fine
  | linked fieldName arguments target nested =>
    cases fine with
    | linked fine inside =>
      have keeps (selections : MergedSet) (old : MergedSet.Over allowed selections) :=
        (over_mergeRequestsInto nested inside old).complete (g := g) target (g.type target).kind.isAbstract
      rw [Request.mergeInto]
      refine within.update ?_ fun m => MergedSelection.over_mapSelections keeps
      simpa [MergedSelection.variableNames, MergedSet.variableNames] using fine
  | fragment target nested =>
    cases fine with
    | fragment inside =>
      have keeps (selections : MergedSet) (old : MergedSet.Over allowed selections) :=
        (over_mergeRequestsInto nested inside old).complete (g := g) target true
      rw [Request.mergeInto]
      refine within.update ?_ fun m => MergedSelection.over_mapSelections keeps
      simp [MergedSelection.variableNames, MergedSet.variableNames]
theorem over_mergeRequestsInto (requests : List Request) (fine : ∀ request ∈ requests, request.Over allowed)
    {set : MergedSet} (within : Over allowed set) : Over allowed (mergeRequestsInto g requests set) := by
  cases requests with
  | nil =>
    rw [mergeRequestsInto]
    exact within
  | cons request rest =>
    rw [List.forall_mem_cons] at fine
    rw [mergeRequestsInto]
    exact over_mergeRequestsInto rest fine.2 (over_mergeInto request fine.1 within)
end

theorem over_nodeWrapper (within : Over allowed set) (target : TypeId) (known : allowed refetchIdVariable) :
    Over allowed (nodeWrapper g target set) := by
  have inner := within.complete (g := g) target true
  have fragment : Over allowed [(.inlineFragment (g.typeName target),
      .inlineFragment (g.typeName target) (MergedSet.complete g target true set))] := by
    refine List.forall_mem_singleton.2 ?_
    rw [MergedSelection.variableNames]
    exact MergedSet.over_iff.1 inner
  refine List.forall_mem_singleton.2 ?_
  rw [MergedSelection.variableNames, List.forall_mem_append]
  refine ⟨?_, MergedSet.over_iff.1 (fragment.complete _ _)⟩
  simpa [nodeIdArgument, Value.variableNamesOfFields, Value.variableNames] using known

theorem over_mergeSelections
    (constant : ∀ f ∈ r.fields, ∀ v ∈ f.variableDefinitions, ∀ u ∈ v.defaultValue, u.isConstant = true)
    (definitions : List ResolvedVariable) (type : TypeId) (selections : List ResolvedSelection) :
    Over (· ∈ definitions.map (·.name)) (mergeSelections g r type (.symbolic definitions) selections) :=
  over_mergeRequestsInto _
    (over_requestsOfAll (over_expandField constant _) selections (VariableContext.over_symbolic definitions)) nofun

end Merging

/-! ## Operations -/

/-- What has to hold of the variables of a field so that operations may take them. -/
structure ResolvedField.ClearVariables (g : SchemaGraph) (f : ResolvedField) : Prop where
  distinct : (f.variableDefinitions.map (·.name)).Nodup
  constant : ∀ v ∈ f.variableDefinitions, ∀ u ∈ v.defaultValue, u.isConstant = true
  /-- A field that may be requested through its record leaves the variable for the id alone. -/
  unreserved : g.isRootType f.parent = false ∨ refetchSites f.parent f.selections ≠ [] →
    refetchIdVariable ∉ f.variableDefinitions.map (·.name)

/-- A variable is mentioned in merged selections: in an argument of one of them, or in what is selected inside
of one. -/
inductive MergedSet.Mentions (x : String) : MergedSet → Prop where
  | scalar {set key fieldName arguments name v} (entry : (key, .scalar fieldName arguments) ∈ set)
      (given : (name, v) ∈ arguments) (mentions : v.Mentions x) : Mentions x set
  | linked {set key fieldName arguments concreteType selections name v}
      (entry : (key, .linked fieldName arguments concreteType selections) ∈ set)
      (given : (name, v) ∈ arguments) (mentions : v.Mentions x) : Mentions x set
  | inside {set key fieldName arguments concreteType selections}
      (entry : (key, .linked fieldName arguments concreteType selections) ∈ set)
      (deeper : Mentions x selections) : Mentions x set
  | fragment {set key typeName selections} (entry : (key, .inlineFragment typeName selections) ∈ set)
      (deeper : Mentions x selections) : Mentions x set

section Mentions

variable {x : String} {set : MergedSet}

theorem Value.mem_variableNamesOfFields_of_mentions {arguments : List (String × Value)} {name : String} {v : Value}
    (given : (name, v) ∈ arguments) (mentions : v.Mentions x) : x ∈ Value.variableNamesOfFields arguments :=
  mem_variableNamesOfFields.2 ⟨_, given, mentions_iff.1 mentions⟩

theorem MergedSet.Mentions.mem_variableNames (mentions : Mentions x set) : x ∈ variableNames set := by
  induction mentions with
  | scalar entry given mentions =>
    refine MergedSet.mem_variableNames.2 ⟨_, entry, ?_⟩
    rw [MergedSelection.variableNames]
    exact Value.mem_variableNamesOfFields_of_mentions given mentions
  | linked entry given mentions =>
    refine MergedSet.mem_variableNames.2 ⟨_, entry, ?_⟩
    rw [MergedSelection.variableNames]
    exact List.mem_append_left _ (Value.mem_variableNamesOfFields_of_mentions given mentions)
  | inside entry _ ih =>
    refine MergedSet.mem_variableNames.2 ⟨_, entry, ?_⟩
    rw [MergedSelection.variableNames]
    exact List.mem_append_right _ ih
  | fragment entry _ ih =>
    refine MergedSet.mem_variableNames.2 ⟨_, entry, ?_⟩
    rwa [MergedSelection.variableNames]

mutual
theorem MergedSelection.mentions_of_mem_variableNames (m : MergedSelection) {whole : MergedSet}
    {key : SelectionKey} (entry : (key, m) ∈ whole) (inside : x ∈ m.variableNames) : MergedSet.Mentions x whole := by
  cases m with
  | scalar fieldName arguments =>
    rw [MergedSelection.variableNames] at inside
    obtain ⟨⟨name, v⟩, given, inside⟩ := Value.mem_variableNamesOfFields.1 inside
    exact .scalar entry given (Value.mentions_iff.2 inside)
  | linked fieldName arguments concreteType selections =>
    rw [MergedSelection.variableNames, List.mem_append] at inside
    rcases inside with own | deeper
    · obtain ⟨⟨name, v⟩, given, inside⟩ := Value.mem_variableNamesOfFields.1 own
      exact .linked entry given (Value.mentions_iff.2 inside)
    · exact .inside entry (MergedSet.mentions_of_mem_variableNames selections (fun _ member => member) deeper)
  | inlineFragment typeName selections =>
    rw [MergedSelection.variableNames] at inside
    exact .fragment entry (MergedSet.mentions_of_mem_variableNames selections (fun _ member => member) inside)
termination_by structural m
theorem MergedSet.mentions_of_mem_variableNames (entries : List (SelectionKey × MergedSelection))
    {whole : MergedSet} (within : entries ⊆ whole) (inside : x ∈ variableNames entries) :
    MergedSet.Mentions x whole := by
  match entries with
  | [] => cases inside
  | (key, m) :: rest =>
    rw [variableNames, List.mem_append] at inside
    rcases inside with first | later
    · exact m.mentions_of_mem_variableNames (within List.mem_cons_self) first
    · exact MergedSet.mentions_of_mem_variableNames rest (List.subset_of_cons_subset within) later
termination_by structural entries
end

/-- **The variables that are collected from selections are those that are mentioned there.** -/
theorem MergedSet.mentions_iff : Mentions x set ↔ x ∈ variableNames set :=
  ⟨Mentions.mem_variableNames, mentions_of_mem_variableNames set fun _ member => member⟩

instance : Decidable (MergedSet.Mentions x set) := decidable_of_iff _ MergedSet.mentions_iff.symm

end Mentions

/-- The variables of an operation are declared, and each once. -/
structure Operation.Closed (o : Operation) : Prop where
  distinct : (o.variableDefinitions.map (·.name)).Nodup
  declared : ∀ x, MergedSet.Mentions x o.selections → x ∈ o.variableDefinitions.map (·.name)

section Operations

variable {g : SchemaGraph} {r : Resolution} {f : ResolvedField}

theorem names_map_ofResolved (definitions : List ResolvedVariable) :
    (definitions.map QueryVariable.ofResolved).map (·.name) = definitions.map (·.name) := by
  rw [List.map_map]
  rfl

/-- A query that requests a record takes its id besides variables of the field. -/
theorem closed_of_nodeWrapper {definitions : List ResolvedVariable} {o : Operation}
    (distinct : (definitions.map (·.name)).Nodup)
    (unreserved : refetchIdVariable ∉ definitions.map (·.name))
    (taken : o.variableDefinitions = .nodeId :: definitions.map QueryVariable.ofResolved)
    (declared : ∀ x ∈ MergedSet.variableNames o.selections,
      x = refetchIdVariable ∨ x ∈ definitions.map (·.name)) : o.Closed := by
  have names : o.variableDefinitions.map (·.name) = refetchIdVariable :: definitions.map (·.name) := by
    rw [taken, List.map_cons, names_map_ofResolved]
    rfl
  refine ⟨?_, ?_⟩
  · rw [names]
    exact List.nodup_cons.2 ⟨unreserved, distinct⟩
  · intro x mentions
    rw [names]
    exact List.mem_cons.2 (declared x mentions.mem_variableNames)

theorem mem_variableNames_nodeWrapper (clear : ∀ f ∈ r.fields, f.ClearVariables g)
    (definitions : List ResolvedVariable) (type : TypeId) (selections : List ResolvedSelection) :
    ∀ x ∈ MergedSet.variableNames
      (nodeWrapper g type (mergeSelections g r type (.symbolic definitions) selections)),
      x = refetchIdVariable ∨ x ∈ definitions.map (·.name) := by
  have inner := over_mergeSelections (g := g) (fun f member => (clear f member).constant) definitions type
    selections
  have wider : Over (fun x => x = refetchIdVariable ∨ x ∈ definitions.map (·.name))
      (mergeSelections g r type (.symbolic definitions) selections) :=
    fun entry member x inside => .inr (inner entry member x inside)
  exact MergedSet.over_iff.1 (over_nodeWrapper wider type (.inl rfl))

theorem closed_fetchOperation (clear : ∀ f ∈ r.fields, f.ClearVariables g) (member : f ∈ r.fields)
    (name : String) : (fetchOperation g r name f).Closed := by
  have own := clear f member
  rw [fetchOperation]
  cases root : g.operationKind? f.parent with
  | some kind =>
    have inner := over_mergeSelections (g := g) (fun f member => (clear f member).constant)
      f.variableDefinitions f.parent f.selections
    constructor
    · rw [names_map_ofResolved]
      exact own.distinct
    · rw [names_map_ofResolved]
      exact fun x mentions => MergedSet.over_iff.1 inner x mentions.mem_variableNames
  | none =>
    have unreserved := own.unreserved (.inl (by rw [SchemaGraph.isRootType, root]; rfl))
    exact closed_of_nodeWrapper own.distinct unreserved rfl (mem_variableNames_nodeWrapper clear _ _ _)

theorem closed_refetchOperation (clear : ∀ f ∈ r.fields, f.ClearVariables g) (member : f ∈ r.fields)
    {site : RefetchSite} (listed : site ∈ refetchSites f.parent f.selections) (name : String) :
    (refetchOperation g r name f site).Closed := by
  have own := clear f member
  have unreserved := own.unreserved (.inr (List.ne_nil_of_mem listed))
  have kept := (List.filter_sublist (p := fun v => decide (v.name ∈ MergedSet.variableNames
    (refetchOperation g r name f site).selections)) (l := f.variableDefinitions)).map (·.name)
  refine closed_of_nodeWrapper (own.distinct.sublist kept) (fun inside => unreserved (kept.subset inside)) rfl
    fun x inside => ?_
  -- a variable that occurs is the id or one of the owner's, and those that occur are kept
  refine (mem_variableNames_nodeWrapper clear _ _ _ x inside).imp_right fun declared => ?_
  obtain ⟨v, listed, rfl⟩ := List.mem_map.1 declared
  exact List.mem_map_of_mem (List.mem_filter.2 ⟨listed, decide_eq_true inside⟩)

/-- **Operations are closed.** Where the variables of each field are distinct, their defaults hold no
variables, and no field that may be requested through its record declares the variable for the id, every
operation of every entrypoint declares its variables once each and uses no others. A refetch query of a
field takes the id, then those of the field's variables that occur in it, in the order of their
declaration. -/
theorem closed_of_checkCycles (acyclic : checkCycles g r = .ok ())
    (clear : ∀ f ∈ r.fields, f.ClearVariables g) :
    ∃ artifacts, r.entrypointArtifacts g = .ok artifacts ∧ ∀ e ∈ artifacts,
      (∀ o ∈ e.operations, o.Closed) ∧
      ∀ q ∈ e.refetchQueries, ∃ owner ∈ r.fields, ∃ site,
        q.owner = owner.artifactId g ∧
        (refetchSites owner.parent owner.selections)[q.index]? = some site ∧
        q.operation.selections = nodeWrapper g site.type
          (mergeSelections g r site.type (.symbolic owner.variableDefinitions) site.selections) ∧
        q.operation.variableDefinitions = ⟨"id", "ID!", none⟩ ::
          (owner.variableDefinitions.filter fun v =>
            MergedSet.Mentions v.name q.operation.selections).map QueryVariable.ofResolved := by
  refine ⟨(r.plans g).map (·.artifact g r), by rw [Resolution.entrypointArtifacts, acyclic]; rfl, ?_⟩
  intro e listed
  obtain ⟨plan, planned, rfl⟩ := List.mem_map.1 listed
  refine ⟨?_, ?_⟩
  · intro o member
    rcases List.mem_cons.1 member with rfl | later
    · exact closed_fetchOperation clear (List.mem_of_find?_eq_some (field?_of_mem_plans planned)) _
    · obtain ⟨q, queried, rfl⟩ := List.mem_map.1 later
      obtain ⟨owner, read, site, numbered, -, queryName, same⟩ := exists_of_mem_refetchQueries queried
      rw [same]
      exact closed_refetchOperation clear (List.mem_of_find?_eq_some (field?_of_mem_readers read))
        (List.mem_of_getElem? numbered) _
  · intro q queried
    obtain ⟨owner, read, site, numbered, own, queryName, same⟩ := exists_of_mem_refetchQueries queried
    refine ⟨owner, List.mem_of_find?_eq_some (field?_of_mem_readers read), site, own, numbered, ?_, ?_⟩
    · rw [same]
      rfl
    · simp only [MergedSet.mentions_iff]
      rw [same]
      rfl

end Operations

/-! ## A card that is requested again -/

/-- A card is shown for a size and can be requested again. -/
def requestedTexts : List String :=
  ["field User.card($size: Int!, $other: Int = 5) \x7b name(size: $size) __refetch \x7d",
    "field Query.home($n: Int!) \x7b me \x7b card(size: $n) \x7d \x7d", "entrypoint Query.home"]

/-- What is resolved of these literals. -/
def requestedResolution : Resolution :=
  (Resolution.ofDeclarations (userGraph sizeArgument [] requestedTexts) (declarationsOf requestedTexts)).1

theorem acyclic_requestedResolution :
    checkCycles (userGraph sizeArgument [] requestedTexts) requestedResolution = .ok () :=
  checkCycles_of_isOk (by decide +kernel)

theorem clearVariables_requestedResolution :
    ∀ f ∈ requestedResolution.fields, f.ClearVariables (userGraph sizeArgument [] requestedTexts) := by
  have facts : ∀ f ∈ requestedResolution.fields, (f.variableDefinitions.map (·.name)).Nodup ∧
      (∀ v ∈ f.variableDefinitions, ∀ u ∈ v.defaultValue, u.isConstant = true) ∧
      refetchIdVariable ∉ f.variableDefinitions.map (·.name) := by
    decide +kernel
  exact fun f member => ⟨(facts f member).1, (facts f member).2.1, fun _ => (facts f member).2.2⟩

theorem closed_of_checkCycles_card :
    ∃ artifacts,
      requestedResolution.entrypointArtifacts (userGraph sizeArgument [] requestedTexts) = .ok artifacts ∧
      ∃ e ∈ artifacts, (∀ o ∈ e.operations, o.Closed) ∧
        ∃ q ∈ e.refetchQueries, q.operation.variableDefinitions.map (·.name) = ["id", "size"] := by
  obtain ⟨artifacts, run, closed⟩ :=
    closed_of_checkCycles acyclic_requestedResolution clearVariables_requestedResolution
  have requested : (requestedResolution.entrypointArtifacts
      (userGraph sizeArgument [] requestedTexts)).toOption.any (fun artifacts => artifacts.any fun e =>
        e.refetchQueries.any fun q => q.operation.variableDefinitions.map (·.name) = ["id", "size"]) := by
    decide +kernel
  rw [run] at requested
  obtain ⟨e, member, some⟩ := List.any_eq_true.1 requested
  obtain ⟨q, queried, names⟩ := List.any_eq_true.1 some
  exact ⟨artifacts, run, e, member, (closed e member).1, q, queried, of_decide_eq_true names⟩

end IsoLiteral
