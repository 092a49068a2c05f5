import IsoLiteral.Proofs.Artifact.Renaming
import IsoLiteral.Proofs.Operation.Planned
import IsoLiteral.Proofs.Resolution.Reordered

/-!
# Operations with other numbers

What is requested for a field, what is read and loaded on the way and which queries request records again is
found by following the numbers of fields, and names them in the end. Where one resolution is part of another,
in graphs one of which is part of the other, the numbers that are followed correspond step by step. The other
resolution may go deeper, for it may have more fields; if that makes no difference (`Resolution.Exhausted`),
the artifacts of entrypoints are equal. Only the order of the planned fields may differ: they are the same as a
set, and no field is planned twice. They come in the same order if the declared entrypoints do.
-/

namespace IsoLiteral

open ResolvedSelection Relation

variable {g g' : SchemaGraph} {σ : FieldId → FieldId} {r r' : Resolution}

/-! ## Requests -/

theorem SchemaGraph.Embeds.scalarKey (h : g.Embeds g' σ) (parent : TypeId) (head : SelectionHead)
    (arguments : List (String × Value)) :
    g'.scalarKey parent (head.rename σ) arguments = g.scalarKey parent head arguments := by
  have identifies : g'.idField? parent = some (head.rename σ).field ↔ g.idField? parent = some head.field := by
    rw [h.idField?]
    exact (Option.map_injective h.injective).eq_iff (b := some head.field)
  simp only [SchemaGraph.scalarKey, identifies]
  rfl

mutual
theorem requestsOf_rename (h : g.Embeds g' σ) {expand expand' : Expansion}
    (alike : ∀ parent c head, expand' parent c (head.rename σ) = expand parent c head) (parent : TypeId)
    (c : VariableContext) (s : ResolvedSelection) :
    requestsOf g' expand' parent c (s.rename σ) = requestsOf g expand parent c s := by
  cases s with
  | link head => rfl
  | scalar head updatable =>
    rw [rename, requestsOf, requestsOf, h.scalarKey]
    rfl
  | linked head target inlineFragment updatable nested =>
    rw [rename, requestsOf, requestsOf, requestsOfAll_rename h alike target c nested]
    rfl
  | pointer head target nested => exact alike parent c head
  | resolver head kind loadable =>
    cases loadable with
    | none => exact alike parent c head
    | some options => rfl
termination_by structural s
theorem requestsOfAll_rename (h : g.Embeds g' σ) {expand expand' : Expansion}
    (alike : ∀ parent c head, expand' parent c (head.rename σ) = expand parent c head) (parent : TypeId)
    (c : VariableContext) (ss : List ResolvedSelection) :
    requestsOfAll g' expand' parent c (renameAll σ ss) = requestsOfAll g expand parent c ss := by
  cases ss with
  | nil => rfl
  | cons s rest =>
    rw [renameAll, requestsOfAll, requestsOfAll, requestsOf_rename h alike parent c s,
      requestsOfAll_rename h alike parent c rest]
termination_by structural ss
end

/-- Selections that are the same but for numbers and places ask for the same, where the fields they lead to
do. -/
theorem requestsOfAll_eq_of_rename (h : g.Embeds g' σ) {depth : Nat} {expand : Expansion}
    (alike : ∀ parent c head, expandField g' r' depth parent c (head.rename σ) = expand parent c head)
    (parent : TypeId) (c : VariableContext) {ss ss' : List ResolvedSelection}
    (same : renameAll id ss' = renameAll σ ss) :
    requestsOfAll g' (expandField g' r' depth) parent c ss' = requestsOfAll g expand parent c ss := by
  have placeless (parent : TypeId) (c : VariableContext) (head : SelectionHead) :
      expandField g' r' depth parent c (head.rename id) = expandField g' r' depth parent c head := by
    cases depth <;> rfl
  exact eq_of_renameAll (requestsOfAll_rename (.refl g') placeless parent c)
    (requestsOfAll_rename h alike parent c) same

/-- Reading a field takes the same under its other number. -/
theorem expandField_rename (h : g.Embeds g' σ) (hr : r.Embeds σ r') (depth : Nat) :
    ∀ parent c head, expandField g' r' depth parent c (head.rename σ) = expandField g r depth parent c head := by
  induction depth with
  | zero => exact fun _ _ _ => rfl
  | succ depth ih =>
    intro parent c head
    have field : (head.rename σ).field = σ head.field := rfl
    rw [expandField, expandField, field]
    rcases hr.field?_cases head.field with ⟨none, none'⟩ | ⟨f, f', found, found', same⟩
    · rw [none, none']
    · rw [found, found']
      dsimp only
      rw [ResolvedField.variableDefinitions_of_rename same]
      exact requestsOfAll_eq_of_rename h ih parent _ (ResolvedField.selections_of_rename same)

/-! ## Depth -/

/-- Following the fields of a resolution as far as a bound is following them to their end, where as many rounds as
there are fields have come to it. -/
structure Resolution.Exhausted (r : Resolution) (bound : Nat) : Prop where
  requests : ∀ g parent c ss, requestsOfAll g (expandField g r bound) parent c ss = requests g r parent c ss
  readers : ∀ x, (Traversal.preorder r.references.successors bound x).filterMap r.field? = r.readers x
  plan : extendPlan r bound 0 (addPlanned [] (r.declaredPlan.map (·.field))) = r.plannedFields

theorem Resolution.exhausted_length (r : Resolution) : r.Exhausted r.fields.length where
  requests _ _ _ _ := rfl
  readers x := by rw [Resolution.readers, readerClosure_references]
  plan := rfl

/-- One resolution is part of another, and whatever follows its fields does so in the other. -/
structure Resolution.SimulatedBy (σ : FieldId → FieldId) (r r' : Resolution) : Prop extends r.Embeds σ r' where
  exhausted : r.Exhausted r'.fields.length

theorem Resolution.Renames.simulated (h : r.Renames σ r') : r.SimulatedBy σ r' where
  toEmbeds := h.toEmbeds
  exhausted := h.length ▸ r.exhausted_length

theorem requests_eq_of_rename (h : g.Embeds g' σ) (hr : r.SimulatedBy σ r') (parent : TypeId) (c : VariableContext)
    {ss ss' : List ResolvedSelection} (same : renameAll id ss' = renameAll σ ss) :
    requests g' r' parent c ss' = requests g r parent c ss := by
  rw [requests, ← hr.exhausted.requests]
  exact requestsOfAll_eq_of_rename h (expandField_rename h hr.toEmbeds r'.fields.length) parent c same

/-! ## Merged selections -/

namespace SchemaGraph.Embeds

theorem complete (h : g.Embeds g' σ) (type : TypeId) (withTypename : Bool) (set : MergedSet) :
    MergedSet.complete g' type withTypename set = MergedSet.complete g type withTypename set := by
  rw [MergedSet.complete, MergedSet.complete, h.isSome_idField?]

mutual
theorem mergeInto (h : g.Embeds g' σ) (q : Request) (set : MergedSet) : q.mergeInto g' set = q.mergeInto g set := by
  cases q with
  | scalar key fieldName arguments => rfl
  | linked fieldName arguments target nested =>
    rw [Request.mergeInto, Request.mergeInto, h.concreteType?]
    simp only [h.complete, h.kind, h.mergeRequestsInto nested]
  | fragment target nested =>
    rw [Request.mergeInto, Request.mergeInto, h.typeName]
    simp only [h.complete, h.mergeRequestsInto nested]
termination_by structural q
theorem mergeRequestsInto (h : g.Embeds g' σ) (qs : List Request) (set : MergedSet) :
    IsoLiteral.mergeRequestsInto g' qs set = IsoLiteral.mergeRequestsInto g qs set := by
  cases qs with
  | nil => rfl
  | cons q rest =>
    rw [IsoLiteral.mergeRequestsInto, IsoLiteral.mergeRequestsInto, h.mergeInto q, h.mergeRequestsInto rest]
termination_by structural qs
end

theorem nodeType? (h : g.Embeds g' σ) : g'.nodeType? = g.nodeType? := by
  rw [SchemaGraph.nodeType?, SchemaGraph.nodeType?, h.queryType]
  cases own : g.lookupField? g.queryType "node" with
  | some field => rw [h.found own, Option.map_some, Option.map_some, h.fieldKind]
  | none =>
    cases other : g'.lookupField? g.queryType "node" with
    | none => rfl
    | some field =>
      have apart := h.fresh own other
      cases kind : (g'.field field).kind with
      | linked target inlineFragment => exact absurd (.inr ⟨target, inlineFragment, kind⟩) apart
      | _ => simp [kind]

theorem nodeWrapper (h : g.Embeds g' σ) (target : TypeId) (inner : MergedSet) :
    IsoLiteral.nodeWrapper g' target inner = IsoLiteral.nodeWrapper g target inner := by
  have concrete : g'.concreteType? = g.concreteType? := funext h.concreteType?
  simp only [IsoLiteral.nodeWrapper, h.typeName, h.complete, h.nodeType?, concrete]

end SchemaGraph.Embeds

theorem mergeSelections_eq_of_rename (h : g.Embeds g' σ) (hr : r.SimulatedBy σ r') (parent : TypeId)
    (c : VariableContext) {ss ss' : List ResolvedSelection} (same : renameAll id ss' = renameAll σ ss) :
    mergeSelections g' r' parent c ss' = mergeSelections g r parent c ss := by
  rw [mergeSelections, mergeSelections, requests_eq_of_rename h hr parent c same, h.mergeRequestsInto]

/-- A field is fetched by the same operation. -/
theorem fetchOperation_eq_of_rename (h : g.Embeds g' σ) (hr : r.SimulatedBy σ r') (name : String)
    {f f' : ResolvedField} (same : f'.rename id = f.rename σ) :
    fetchOperation g' r' name f' = fetchOperation g r name f := by
  simp only [fetchOperation, ResolvedField.parent_of_rename same, ResolvedField.variableDefinitions_of_rename same,
    mergeSelections_eq_of_rename h hr _ _ (ResolvedField.selections_of_rename same), h.operationKind?, h.nodeWrapper]

/-- A site is requested again by the same query. -/
theorem refetchOperation_eq_of_rename (h : g.Embeds g' σ) (hr : r.SimulatedBy σ r') (name : String)
    {f f' : ResolvedField} (same : f'.rename id = f.rename σ) {site site' : RefetchSite}
    (sites : site'.rename id = site.rename σ) :
    refetchOperation g' r' name f' site' = refetchOperation g r name f site := by
  have type : site'.type = site.type := (congrArg RefetchSite.type sites :)
  have selections : renameAll id site'.selections = renameAll σ site.selections :=
    congrArg RefetchSite.selections sites
  simp only [refetchOperation, type, ResolvedField.variableDefinitions_of_rename same,
    mergeSelections_eq_of_rename h hr _ _ selections, h.nodeWrapper]

/-! ## References and readers -/

mutual
theorem referencesOf_rename (σ : FieldId → FieldId) (s : ResolvedSelection) :
    (referencesOf (s.rename σ)).map Prod.fst = ((referencesOf s).map Prod.fst).map σ := by
  cases s with
  | scalar head updatable => rfl
  | link head => rfl
  | resolver head kind loadable => cases loadable <;> rfl
  | linked head target inlineFragment updatable nested =>
    rw [rename, referencesOf, referencesOf]
    exact referencesOfAll_rename σ nested
  | pointer head target nested =>
    rw [rename, referencesOf, referencesOf, List.map_cons, referencesOfAll_rename σ nested]
    rfl
termination_by structural s
theorem referencesOfAll_rename (σ : FieldId → FieldId) (ss : List ResolvedSelection) :
    (referencesOfAll (renameAll σ ss)).map Prod.fst = ((referencesOfAll ss).map Prod.fst).map σ := by
  cases ss with
  | nil => rfl
  | cons s rest =>
    rw [renameAll, referencesOfAll, referencesOfAll, List.map_append, List.map_append, List.map_append,
      referencesOf_rename σ s, referencesOfAll_rename σ rest]
termination_by structural ss
end

mutual
theorem loadablesOf_rename (σ : FieldId → FieldId) (s : ResolvedSelection) :
    loadablesOf (s.rename σ) = (loadablesOf s).map (Prod.map σ id) := by
  cases s with
  | scalar head updatable => rfl
  | link head => rfl
  | resolver head kind loadable => cases loadable <;> rfl
  | linked head target inlineFragment updatable nested =>
    rw [rename, loadablesOf, loadablesOf]
    exact loadablesOfAll_rename σ nested
  | pointer head target nested =>
    rw [rename, loadablesOf, loadablesOf]
    exact loadablesOfAll_rename σ nested
termination_by structural s
theorem loadablesOfAll_rename (σ : FieldId → FieldId) (ss : List ResolvedSelection) :
    loadablesOfAll (renameAll σ ss) = (loadablesOfAll ss).map (Prod.map σ id) := by
  cases ss with
  | nil => rfl
  | cons s rest =>
    rw [renameAll, loadablesOfAll, loadablesOfAll, List.map_append, loadablesOf_rename σ s,
      loadablesOfAll_rename σ rest]
termination_by structural ss
end

theorem flatMap_eq_of_forall₂ {α β γ : Type} {related : α → β → Prop} {each : α → List γ} {each' : β → List γ}
    {xs : List α} {ys : List β} (all : List.Forall₂ related xs ys)
    (alike : ∀ a b, related a b → each a = each' b) : xs.flatMap each = ys.flatMap each' := by
  induction all with
  | nil => rfl
  | cons first _ ih => rw [List.flatMap_cons, List.flatMap_cons, alike _ _ first, ih]

/-- What a field refers to, from its selections. -/
theorem successors_references (r : Resolution) (x : FieldId) :
    r.references.successors x = ((r.field? x).map fun f =>
      ((referencesOfAll f.selections).map Prod.fst).filter fun y => (r.field? y).isSome).getD [] := by
  rw [ReferenceGraph.successors, ReferenceGraph.referencesFrom, lookup_references]
  cases r.field? x with
  | none => rfl
  | some f =>
    rw [Option.map_some, Option.map_some, Option.getD_some, Option.getD_some, List.filter_map]
    rfl

/-- The artifacts of all plans, from the planned fields. -/
theorem map_artifact_plans (g : SchemaGraph) (r : Resolution) : (r.plans g).map (·.artifact g r) =
    r.plannedFields.filterMap fun x => (r.field? x).map fun f => (r.planFor g r.plannedFields f).artifact g r := by
  rw [Resolution.plans_eq, List.map_map, List.map_filterMap]
  rfl

namespace Resolution.Embeds

theorem successors (h : r.Embeds σ r') (x : FieldId) :
    r'.references.successors (σ x) = (r.references.successors x).map σ := by
  rw [successors_references, successors_references]
  rcases h.field?_cases x with ⟨none, none'⟩ | ⟨f, f', found, found', same⟩
  · rw [none, none']
    rfl
  · have references : (referencesOfAll f'.selections).map Prod.fst =
        ((referencesOfAll f.selections).map Prod.fst).map σ := by
      have renamed := referencesOfAll_rename id f'.selections
      rw [ResolvedField.selections_of_rename same, referencesOfAll_rename, List.map_id] at renamed
      exact renamed.symm
    rw [found, found', Option.map_some, Option.map_some, Option.getD_some, Option.getD_some, references,
      List.filter_map]
    simp only [Function.comp_def, h.isSome_field?]

/-- Following references in the one resolution is following them in the other. -/
theorem transGen_refers (h : r.Embeds σ r') {x y' : FieldId} (leads : TransGen (Refers r') (σ x) y') :
    ∃ y, y' = σ y ∧ TransGen (Refers r) x y := by
  have step {a b' : FieldId} (refers : Refers r' (σ a) b') : ∃ b, b' = σ b ∧ Refers r a b := by
    rw [← edge_references, Edge, h.successors] at refers
    obtain ⟨b, listed, rfl⟩ := List.mem_map.1 refers
    refine ⟨b, rfl, ?_⟩
    rwa [← edge_references]
  induction leads with
  | single refers =>
    obtain ⟨y, rfl, first⟩ := step refers
    exact ⟨y, rfl, .single first⟩
  | tail _ refers ih =>
    obtain ⟨y, rfl, before⟩ := ih
    obtain ⟨z, rfl, last⟩ := step refers
    exact ⟨z, rfl, before.tail last⟩

end Resolution.Embeds

namespace Resolution.Renames

/-- Every resolved field has its number from the other resolution. -/
theorem exists_of_isSome (h : r.Renames σ r') {x' : FieldId} (resolved : (r'.field? x').isSome = true) :
    ∃ x, x' = σ x ∧ (r.field? x).isSome = true := by
  obtain ⟨f', found'⟩ := Option.isSome_iff_exists.1 resolved
  obtain ⟨listed, rfl⟩ := Resolution.field_of_field? found'
  obtain ⟨f, -, same⟩ := List.mem_map.1 (h.fields.mem_iff.1 (List.mem_map_of_mem listed))
  have number : f'.field = σ f.field := ResolvedField.field_of_rename same.symm
  rw [number, h.isSome_field?] at resolved
  exact ⟨f.field, number, resolved⟩

/-- If no field refers to itself in the one resolution, none does in the other. -/
theorem checkCycles (h : r.Renames σ r') (passed : checkCycles g r = .ok ()) : checkCycles g' r' = .ok () := by
  rw [checkCycles_eq_ok_iff] at passed ⊢
  intro x' around
  obtain ⟨_, first, -⟩ := TransGen.head'_iff.1 around
  obtain ⟨x, rfl, -⟩ := h.exists_of_isSome (mem_fields_iff.1 first.mem_fields)
  obtain ⟨y, same, leads⟩ := h.transGen_refers around
  obtain rfl := h.injective same
  exact passed x leads

end Resolution.Renames

namespace Resolution.SimulatedBy

/-- The fields that are read with a field are come to in the same order. -/
theorem readers (h : r.SimulatedBy σ r') (x : FieldId) :
    List.Forall₂ (fun f' f => f'.rename id = f.rename σ) (r'.readers (σ x)) (r.readers x) := by
  have closure : r'.references.readerClosure (σ x) =
      (Traversal.preorder r.references.successors r'.fields.length x).map σ := by
    rw [readerClosure_references]
    exact Traversal.preorder_map h.injective h.successors _ x
  rw [Resolution.readers, closure, ← h.exhausted.readers, List.filterMap_map]
  induction Traversal.preorder r.references.successors r'.fields.length x with
  | nil => exact .nil
  | cons y rest ih =>
    rw [List.filterMap_cons, List.filterMap_cons, Function.comp_apply]
    rcases h.field?_cases y with ⟨none, none'⟩ | ⟨f, f', found, found', same⟩
    · rw [none, none']
      exact ih
    · rw [found, found']
      exact .cons same ih

theorem loadables (h : r.SimulatedBy σ r') (x : FieldId) :
    r'.loadables (σ x) = (r.loadables x).map (Prod.map σ id) := by
  have listed : (r'.readers (σ x)).flatMap (fun f => loadablesOfAll f.selections) =
      ((r.readers x).flatMap fun f => loadablesOfAll f.selections).map (Prod.map σ id) := by
    rw [List.map_flatMap]
    refine flatMap_eq_of_forall₂ (h.readers x) fun f' f same => ?_
    have renamed := loadablesOfAll_rename id f'.selections
    rw [ResolvedField.selections_of_rename same, loadablesOfAll_rename, Prod.map_id, List.map_id] at renamed
    exact renamed.symm
  rw [Resolution.loadables, Resolution.loadables, listed, List.filter_map]
  refine congrArg (List.map (Prod.map σ id)) (List.filter_congr fun loadable _ => ?_)
  exact h.isSome_field? loadable.1

/-! ## Refetch queries -/

/-- The sites that are come to are the same, in the same order. -/
theorem sitesFrom (h : r.SimulatedBy σ r') (x : FieldId) :
    (IsoLiteral.sitesFrom r' (σ x)).map (fun t => (t.1.rename id, t.2.rename id)) =
      (IsoLiteral.sitesFrom r x).map (fun t => (t.1.rename σ, t.2.rename σ)) := by
  rw [IsoLiteral.sitesFrom, IsoLiteral.sitesFrom, List.map_flatMap, List.map_flatMap]
  refine flatMap_eq_of_forall₂ (h.readers x) fun f' f same => ?_
  have owned (σ : FieldId → FieldId) (f : ResolvedField) :
      ((refetchSites f.parent f.selections).map fun site => (f, site)).map (fun t => (t.1.rename σ, t.2.rename σ)) =
        (refetchSites f.parent (renameAll σ f.selections)).map fun site => (f.rename σ, site) := by
    rw [refetchSites_rename, List.map_map, List.map_map]
    rfl
  rw [owned, owned, same, ResolvedField.selections_of_rename same, ResolvedField.parent_of_rename same]

/-- A record is requested again by the same queries. -/
theorem refetchQueries (h : g.Embeds g' σ) (hr : r.SimulatedBy σ r') (name : String) (x : FieldId) :
    IsoLiteral.refetchQueries g' r' name (σ x) = IsoLiteral.refetchQueries g r name x := by
  refine List.ext_getElem? fun k => ?_
  have here := congrArg (·[k]?) (hr.sitesFrom x)
  simp only [List.getElem?_map] at here
  rw [IsoLiteral.refetchQueries, IsoLiteral.refetchQueries, List.getElem?_mapIdx, List.getElem?_mapIdx]
  cases found : (IsoLiteral.sitesFrom r x)[k]? with
  | none =>
    rw [found, Option.map_none, Option.map_eq_none_iff] at here
    rw [here]
    rfl
  | some pair =>
    rw [found, Option.map_some, Option.map_eq_some_iff] at here
    obtain ⟨pair', found', same⟩ := here
    obtain ⟨owner, site⟩ := pair
    obtain ⟨owner', site'⟩ := pair'
    obtain ⟨owners, sites⟩ := Prod.mk.inj same
    have index : site'.index = site.index := (congrArg RefetchSite.index sites :)
    rw [found', Option.map_some, Option.map_some]
    simp only [index, ResolvedField.artifactId_eq_of_rename h owners, refetchOperation_eq_of_rename h hr _ owners sites]

/-! ## Plans -/

theorem declaredPlan (h : r.SimulatedBy σ r') :
    (r'.declaredPlan.map (ResolvedEntrypoint.rename id)).Perm (r.declaredPlan.map (ResolvedEntrypoint.rename σ)) := by
  have kept (σ : FieldId → FieldId) (r' : Resolution) (es : List ResolvedEntrypoint) :
      (es.map (ResolvedEntrypoint.rename σ)).filter (fun e => (r'.field? e.field).isSome) =
        (es.filter fun e => (r'.field? (σ e.field)).isSome).map (ResolvedEntrypoint.rename σ) := by
    rw [List.filter_map]
    rfl
  have perm := h.entrypoints.filter fun e => (r'.field? e.field).isSome
  rw [kept, kept] at perm
  simp only [h.isSome_field?] at perm
  exact perm

theorem entrypoint? (h : r.SimulatedBy σ r') (x : FieldId) :
    (r'.entrypoint? (σ x)).map (ResolvedEntrypoint.rename id) =
      (r.entrypoint? x).map (ResolvedEntrypoint.rename σ) := by
  have distinct : (r.declaredPlan.map (·.field)).Nodup :=
    h.unique.sublist (List.filter_sublist.map _)
  have perm := ((List.reverse_perm _).map _).trans (h.declaredPlan.trans ((List.reverse_perm _).map _).symm)
  have backwards : (r.declaredPlan.reverse.map (·.field)).Nodup := by
    rw [List.map_reverse]
    exact List.nodup_reverse.2 distinct
  exact find?_of_perm_rename h.injective perm backwards (fun _ => rfl) (fun _ => rfl) x

/-- The same fields are planned. -/
theorem plannedFields (h : r.SimulatedBy σ r') : r'.plannedFields.Perm (r.plannedFields.map σ) := by
  refine (List.perm_ext_iff_of_nodup r'.nodup_plannedFields
    (r.nodup_plannedFields.map h.injective)).2 fun x' => ?_
  rw [List.mem_map, mem_plannedFields_iff]
  simp only [mem_plannedFields_iff]
  constructor
  · intro planned
    induction planned with
    | @declared e' member resolved =>
      obtain ⟨e, listed, same⟩ := List.mem_map.1 (h.entrypoints.mem_iff.1 (List.mem_map_of_mem member))
      have number : e'.field = σ e.field := (congrArg ResolvedEntrypoint.field same.symm :)
      rw [number, h.isSome_field?] at resolved
      exact ⟨e.field, .declared listed resolved, number.symm⟩
    | loaded _ loads ih =>
      obtain ⟨x, planned, rfl⟩ := ih
      rw [h.loadables] at loads
      obtain ⟨loadable, listed, rfl⟩ := List.mem_map.1 loads
      exact ⟨loadable.1, .loaded planned listed, rfl⟩
  · rintro ⟨x, planned, rfl⟩
    induction planned with
    | @declared e member resolved =>
      obtain ⟨e', listed, same⟩ := List.mem_map.1 (h.entrypoints.mem_iff.2 (List.mem_map_of_mem member))
      have number : e'.field = σ e.field := (congrArg ResolvedEntrypoint.field same :)
      rw [← h.isSome_field?, ← number] at resolved
      exact number ▸ .declared listed resolved
    | @loaded y loadable _ loads ih =>
      have renamed : Prod.map σ id loadable ∈ r'.loadables (σ y) := by
        rw [h.loadables]
        exact List.mem_map_of_mem loads
      exact .loaded ih renamed

theorem loadsReaderLazily (h : r.SimulatedBy σ r') (x : FieldId) :
    r'.loadsReaderLazily r'.plannedFields (σ x) = r.loadsReaderLazily r.plannedFields x := by
  simp only [Resolution.loadsReaderLazily, asksLazily, List.any_flatMap]
  rw [h.plannedFields.any_eq, List.any_map]
  simp only [Function.comp_def, h.loadables, List.any_map, Prod.map, h.injective.eq_iff]
  rfl

/-- The artifact of a planned field is the same. -/
theorem artifact_planFor (h : g.Embeds g' σ) (hr : r.SimulatedBy σ r') {f f' : ResolvedField}
    (same : f'.rename id = f.rename σ) :
    (r'.planFor g' r'.plannedFields f').artifact g' r' = (r.planFor g r.plannedFields f).artifact g r := by
  have entrypoint := hr.entrypoint? f.field
  have isSome : (r'.entrypoint? (σ f.field)).isSome = (r.entrypoint? f.field).isSome := by
    simpa using congrArg Option.isSome entrypoint
  have lazyLoad : (r'.entrypoint? (σ f.field)).map (·.lazyLoad) = (r.entrypoint? f.field).map (·.lazyLoad) := by
    simpa [Option.map_map, Function.comp_def, ResolvedEntrypoint.rename] using
      congrArg (Option.map ResolvedEntrypoint.lazyLoad) entrypoint
  simp only [Plan.artifact, Resolution.planFor_eq, ResolvedField.field_of_rename same,
    ResolvedField.parent_of_rename same, isSome, lazyLoad, hr.loadsReaderLazily, h.fieldName, h.typeName,
    fetchOperation_eq_of_rename h hr _ same, refetchQueries h hr, ResolvedField.artifactId_eq_of_rename h same]

/-- A number has the same artifact in both resolutions, or in neither. -/
theorem artifact_field? (h : g.Embeds g' σ) (hr : r.SimulatedBy σ r') (x : FieldId) :
    (r'.field? (σ x)).map (fun f => (r'.planFor g' r'.plannedFields f).artifact g' r') =
      (r.field? x).map fun f => (r.planFor g r.plannedFields f).artifact g r := by
  rcases hr.field?_cases x with ⟨none, none'⟩ | ⟨f, f', found, found', same⟩
  · rw [none, none', Option.map_none, Option.map_none]
  · rw [found, found', Option.map_some, Option.map_some, artifact_planFor h hr same]

/-! ### Entrypoints in the same order -/

theorem addPlanned_map (injective : Function.Injective σ) (more planned : List FieldId) :
    addPlanned (planned.map σ) (more.map σ) = (addPlanned planned more).map σ := by
  rw [addPlanned, addPlanned, List.foldl_map]
  refine List.foldl_hom (List.map σ) fun planned id => ?_
  simp only [List.mem_map_of_injective injective]
  split
  · rfl
  · rw [List.map_append, List.map_singleton]

theorem extendPlan_map (h : r.SimulatedBy σ r') (rounds : Nat) :
    ∀ next planned, extendPlan r' rounds next (planned.map σ) = (extendPlan r rounds next planned).map σ := by
  induction rounds with
  | zero => exact fun _ _ => rfl
  | succ rounds ih =>
    intro next planned
    rw [extendPlan, extendPlan, List.getElem?_map]
    cases planned[next]? with
    | none => rfl
    | some x =>
      have loaded : (r'.loadables (σ x)).map Prod.fst = ((r.loadables x).map Prod.fst).map σ := by
        rw [h.loadables, List.map_map, List.map_map]
        rfl
      rw [Option.map_some]
      dsimp only
      rw [loaded, addPlanned_map h.injective, ih]

/-- Where entrypoints are declared in the same order, the same fields are planned in the same order. -/
theorem plannedFields_eq_map (h : r.SimulatedBy σ r')
    (ordered : r'.entrypoints.map (·.field) = (r.entrypoints.map (·.field)).map σ) :
    r'.plannedFields = r.plannedFields.map σ := by
  have kept (r : Resolution) : r.declaredPlan.map (·.field) =
      (r.entrypoints.map (·.field)).filter fun x => (r.field? x).isSome := by
    rw [List.filter_map]
    rfl
  have declared : r'.declaredPlan.map (·.field) = (r.declaredPlan.map (·.field)).map σ := by
    rw [kept, kept, ordered, List.filter_map]
    simp only [Function.comp_def, h.isSome_field?]
  rw [Resolution.plannedFields, declared, ← h.exhausted.plan, ← h.extendPlan_map]
  exact congrArg (extendPlan r' r'.fields.length 0) (addPlanned_map h.injective _ [])

/-- Where entrypoints are declared in the same order, they have the same artifacts in the same order. -/
theorem artifacts_plans_eq (h : g.Embeds g' σ) (hr : r.SimulatedBy σ r')
    (ordered : r'.entrypoints.map (·.field) = (r.entrypoints.map (·.field)).map σ) :
    (r'.plans g').map (·.artifact g' r') = (r.plans g).map (·.artifact g r) := by
  rw [map_artifact_plans, map_artifact_plans, ← List.filterMap_congr fun x _ => artifact_field? h hr x]
  nth_rewrite 2 [hr.plannedFields_eq_map ordered]
  rw [List.filterMap_map]
  rfl

end Resolution.SimulatedBy

namespace Resolution.Renames

/-- **Entrypoints up to numbers.** The entrypoints of both resolutions have the same artifacts, in some
order. -/
theorem artifacts_plans (h : g.Renames g' σ) (hr : r.Renames σ r') :
    ((r'.plans g').map (·.artifact g' r')).Perm ((r.plans g).map (·.artifact g r)) := by
  rw [map_artifact_plans, map_artifact_plans]
  refine (hr.simulated.plannedFields.filterMap _).trans ?_
  rw [List.filterMap_map]
  exact List.Perm.of_eq (List.filterMap_congr fun x _ => hr.simulated.artifact_field? h.toEmbeds x)

/-- **Fields up to numbers.** The fields of both resolutions have the same artifacts apart from their numbers,
in some order. -/
theorem fieldArtifacts (h : g.Renames g' σ) (hr : r.Renames σ r') :
    ((r'.fieldArtifacts g').map FieldArtifacts.toJson).Perm ((r.fieldArtifacts g).map FieldArtifacts.toJson) := by
  let json (f : ResolvedField) : Json := (f.artifacts g').toJson
  have through (r : Resolution) {g : SchemaGraph} {σ : FieldId → FieldId} (h : g.Embeds g' σ) :
      (r.fieldArtifacts g).map FieldArtifacts.toJson = (r.fields.map (ResolvedField.rename σ)).map json := by
    rw [Resolution.fieldArtifacts, List.map_map, List.map_map]
    refine List.map_congr_left fun f _ => ?_
    have same := ResolvedField.artifacts_eq_of_rename h (f.rename_id_rename σ)
    rw [Function.comp_apply, Function.comp_apply]
    exact (congrArg FieldArtifacts.toJson same).symm
  rw [through r' (.refl g'), through r h.toEmbeds]
  exact hr.fields.map json

end Resolution.Renames

end IsoLiteral
