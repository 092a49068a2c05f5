import IsoLiteral.Operation.Entrypoint
import IsoLiteral.Proofs.Graph.Reference
import IsoLiteral.Proofs.Schema.Coherent

/-!
# Planned fields

The fields of the plans start with those of the declared entrypoints and are extended by what they load. No
field is lost and none is planned twice, so every resolved entrypoint is fetched by exactly one artifact. There
are enough rounds to look at every planned field, so the planned fields are closed under loading: they are exactly
the fields that an entrypoint comes to by loading (`Planned`).

Names and flags are carried along while plans are added. At any time a plan is what the entrypoints and the
loadable selections make of it that have been looked at until then (`PlansAt`), so in the end it is what all of
them make of it (`Resolution.plans_eq`).
-/

namespace IsoLiteral

/-! ## The planned fields and what becomes of each -/

/-- Adds fields to those that are planned, unless they are. -/
def addPlanned (planned : List FieldId) (more : List FieldId) : List FieldId :=
  more.foldl (fun planned id => if id ∈ planned then planned else planned ++ [id]) planned

/-- Adds what planned fields select as loadable, from the field at `next` on. -/
def extendPlan (r : Resolution) : Nat → Nat → List FieldId → List FieldId
  | 0, _, planned => planned
  | rounds + 1, next, planned =>
    match planned[next]? with
    | none => planned
    | some id =>
      extendPlan r rounds (next + 1) (addPlanned planned ((r.loadables id).map Prod.fst))

/-- The entrypoints whose fields are resolved. -/
def Resolution.declaredPlan (r : Resolution) : List ResolvedEntrypoint :=
  r.entrypoints.filter fun e => (r.field? e.field).isSome

/-- The fields to fetch: those of the declared entrypoints, then those reached as loadable. -/
def Resolution.plannedFields (r : Resolution) : List FieldId :=
  extendPlan r r.fields.length 0 (addPlanned [] (r.declaredPlan.map (·.field)))

/-- The entrypoint of a field; the last, if there are several. -/
def entrypointOf? (es : List ResolvedEntrypoint) (id : FieldId) : Option ResolvedEntrypoint :=
  es.reverse.find? (·.field = id)

/-- The declared entrypoint of a field. -/
def Resolution.entrypoint? (r : Resolution) (id : FieldId) : Option ResolvedEntrypoint :=
  entrypointOf? r.declaredPlan id

/-- Whether one of the loadable selections is of a field and asks for its reader to be shipped apart. -/
def asksLazily (loadables : List (FieldId × LoadableOptions)) (id : FieldId) : Bool :=
  loadables.any fun (field, options) => field = id && options.lazyLoadArtifact

/-- Whether some selection of a field asks for its reader to be shipped apart, among the selections
that are come to when the planned fields are read. -/
def Resolution.loadsReaderLazily (r : Resolution) (planned : List FieldId) (id : FieldId) : Bool :=
  asksLazily (planned.flatMap r.loadables) id

/-- The plan that entrypoints and loadable selections make for a field. A declared entrypoint is named for its
field, any other field also for its type. -/
def planWith (g : SchemaGraph) (es : List ResolvedEntrypoint) (loadables : List (FieldId × LoadableOptions))
    (f : ResolvedField) : Plan :=
  let base := ((entrypointOf? es f.field).map (·.lazyLoad)).getD .none
  { field := f
    queryName :=
      if (entrypointOf? es f.field).isSome then g.fieldName f.field
      else g.typeName f.parent ++ "__" ++ g.fieldName f.field
    lazyLoad := { base with reader := base.reader || asksLazily loadables f.field } }

/-- The plan for a field among those planned. -/
def Resolution.planFor (r : Resolution) (g : SchemaGraph) (planned : List FieldId) : ResolvedField → Plan :=
  planWith g r.declaredPlan (planned.flatMap r.loadables)

theorem Resolution.planFor_eq (r : Resolution) (g : SchemaGraph) (planned : List FieldId) (f : ResolvedField) :
    r.planFor g planned f =
      let base := ((r.entrypoint? f.field).map (·.lazyLoad)).getD .none
      { field := f
        queryName :=
          if (r.entrypoint? f.field).isSome then g.fieldName f.field
          else g.typeName f.parent ++ "__" ++ g.fieldName f.field
        lazyLoad := { base with reader := base.reader || r.loadsReaderLazily planned f.field } } := rfl

/-! ## Extending a plan -/

theorem mem_addPlanned {more planned : List FieldId} {id : FieldId} :
    id ∈ addPlanned planned more ↔ id ∈ planned ∨ id ∈ more := by
  unfold addPlanned
  induction more generalizing planned with
  | nil => simp
  | cons first rest ih =>
    rw [List.foldl_cons, ih]
    split
    · rename_i known
      constructor
      · exact Or.imp_right (List.mem_cons_of_mem first)
      · rintro (old | new)
        · exact .inl old
        · rcases List.mem_cons.1 new with rfl | later
          · exact .inl known
          · exact .inr later
    · simp [or_assoc]

theorem forall_mem_addPlanned {more planned : List FieldId} {P : FieldId → Prop} (old : ∀ id ∈ planned, P id)
    (new : ∀ id ∈ more, P id) : ∀ id ∈ addPlanned planned more, P id :=
  fun id member => (mem_addPlanned.1 member).elim (old id) (new id)

theorem nodup_addPlanned {more planned : List FieldId} (distinct : planned.Nodup) :
    (addPlanned planned more).Nodup := by
  unfold addPlanned
  induction more generalizing planned with
  | nil => exact distinct
  | cons first rest ih =>
    rw [List.foldl_cons]
    refine ih ?_
    split
    · exact distinct
    · rename_i new
      exact List.nodup_append.2 ⟨distinct, List.nodup_singleton first, by grind⟩

theorem extendPlan_spec (r : Resolution) (rounds : Nat) :
    ∀ next planned, planned.Nodup →
      (extendPlan r rounds next planned).Nodup ∧ planned ⊆ extendPlan r rounds next planned := by
  induction rounds with
  | zero => exact fun _ planned distinct => ⟨distinct, List.Subset.refl planned⟩
  | succ rounds ih =>
    intro next planned distinct
    unfold extendPlan
    split
    · exact ⟨distinct, List.Subset.refl planned⟩
    · obtain ⟨still, kept⟩ := ih (next + 1) _ (nodup_addPlanned distinct)
      exact ⟨still, fun id old => kept (mem_addPlanned.2 (.inl old))⟩

namespace Resolution

variable {r : Resolution}

/-- No field is planned twice. -/
theorem nodup_plannedFields (r : Resolution) : r.plannedFields.Nodup :=
  (extendPlan_spec r _ _ _ (nodup_addPlanned List.nodup_nil)).1

/-- The field of an entrypoint is planned if it is resolved. -/
theorem mem_plannedFields {e : ResolvedEntrypoint} (member : e ∈ r.entrypoints)
    (resolved : (r.field? e.field).isSome = true) : e.field ∈ r.plannedFields := by
  refine (extendPlan_spec r _ _ _ (nodup_addPlanned List.nodup_nil)).2 (mem_addPlanned.2 (.inr ?_))
  exact List.mem_map.2 ⟨e, List.mem_filter.2 ⟨member, resolved⟩, rfl⟩

theorem field_of_field? {id : FieldId} {f : ResolvedField} (found : r.field? id = some f) :
    f ∈ r.fields ∧ f.field = id :=
  ⟨List.mem_of_find?_eq_some found, by simpa using List.find?_some found⟩

end Resolution

/-! ## The plan as a closure -/

section Closure

open Relation

variable {r : Resolution}

/-- The fields that entrypoints come to by loading one field after another. -/
inductive Planned (r : Resolution) : FieldId → Prop where
  | declared {e} (member : e ∈ r.entrypoints) (resolved : (r.field? e.field).isSome = true) :
      Planned r e.field
  | loaded {id loadable} (planned : Planned r id) (loads : loadable ∈ r.loadables id) :
      Planned r loadable.1

theorem resolved_of_mem_loadables {id : FieldId} {loadable : FieldId × LoadableOptions}
    (member : loadable ∈ r.loadables id) : (r.field? loadable.1).isSome = true :=
  (List.mem_filter.1 member).2

theorem Planned.resolved {id : FieldId} (planned : Planned r id) : (r.field? id).isSome = true := by
  cases planned with
  | declared _ resolved => exact resolved
  | loaded _ loads => exact resolved_of_mem_loadables loads

theorem isPrefix_addPlanned (planned more : List FieldId) : planned <+: addPlanned planned more := by
  unfold addPlanned
  induction more generalizing planned with
  | nil => exact List.prefix_refl planned
  | cons first rest ih =>
    rw [List.foldl_cons]
    split
    · exact ih planned
    · exact (List.prefix_append planned [first]).trans (ih _)

theorem planned_of_mem_extendPlan {rounds next : Nat} {planned : List FieldId}
    (all : ∀ id ∈ planned, Planned r id) : ∀ id ∈ extendPlan r rounds next planned, Planned r id := by
  induction rounds generalizing next planned with
  | zero => exact all
  | succ rounds ih =>
    unfold extendPlan
    split
    · exact all
    · rename_i id here
      refine ih (forall_mem_addPlanned all fun x new => ?_)
      obtain ⟨loadable, loads, rfl⟩ := List.mem_map.1 new
      exact .loaded (all id (List.mem_of_getElem? here)) loads

/-- What the fields looked at so far load is in the plan. As every round looks at one more field, and no more
fields than the resolved ones can be planned, in the end all of them have been looked at. -/
theorem mem_extendPlan_of_loaded {rounds next : Nat} {planned : List FieldId} (distinct : planned.Nodup)
    (resolved : ∀ id ∈ planned, (r.field? id).isSome = true) (enough : r.fields.length ≤ next + rounds)
    (seen : ∀ id ∈ planned.take next, ∀ loadable ∈ r.loadables id, loadable.1 ∈ planned) :
    ∀ id ∈ extendPlan r rounds next planned, ∀ loadable ∈ r.loadables id,
      loadable.1 ∈ extendPlan r rounds next planned := by
  induction rounds generalizing next planned with
  | zero =>
    have few := length_le_of_resolved distinct resolved
    rw [List.take_of_length_le (by omega)] at seen
    exact seen
  | succ rounds ih =>
    unfold extendPlan
    split
    · rename_i ended
      rw [List.take_of_length_le (List.getElem?_eq_none_iff.1 ended)] at seen
      exact seen
    · rename_i id here
      obtain ⟨inside, rfl⟩ := List.getElem?_eq_some_iff.1 here
      refine ih (nodup_addPlanned distinct) (forall_mem_addPlanned resolved fun x new => ?_) (by omega)
        fun x looked loadable loads => ?_
      · obtain ⟨loadable, loads, rfl⟩ := List.mem_map.1 new
        exact resolved_of_mem_loadables loads
      · obtain ⟨more, eq⟩ := isPrefix_addPlanned planned ((r.loadables planned[next]).map Prod.fst)
        rw [← eq, List.take_append_of_le_length (by omega), List.take_succ_eq_append_getElem inside] at looked
        rcases List.mem_append.1 looked with before | last
        · exact mem_addPlanned.2 (.inl (seen x before loadable loads))
        · rw [List.mem_singleton.1 last] at loads
          exact mem_addPlanned.2 (.inr (List.mem_map_of_mem loads))

/-- **The plan is closed under loading**, and holds nothing else than that takes. -/
theorem mem_plannedFields_iff {id : FieldId} : id ∈ r.plannedFields ↔ Planned r id := by
  have start {x : FieldId} : x ∈ addPlanned [] (r.declaredPlan.map (·.field)) ↔
      ∃ e ∈ r.entrypoints, (r.field? e.field).isSome = true ∧ e.field = x := by
    simp [mem_addPlanned, Resolution.declaredPlan, and_assoc]
  constructor
  · refine planned_of_mem_extendPlan (fun x member => ?_) id
    obtain ⟨e, listed, resolved, rfl⟩ := start.1 member
    exact .declared listed resolved
  · intro planned
    induction planned with
    | declared member resolved => exact Resolution.mem_plannedFields member resolved
    | loaded _ loads ih =>
      refine mem_extendPlan_of_loaded (nodup_addPlanned List.nodup_nil) (fun x member => ?_) (by omega)
        (by simp) _ ih _ loads
      obtain ⟨e, -, resolved, rfl⟩ := start.1 member
      exact resolved

/-- The fields whose readers run when a field is read are those it leads to. -/
theorem mem_readerClosure_iff {id : FieldId} (resolved : (r.field? id).isSome = true) {x : FieldId} :
    x ∈ r.references.readerClosure id ↔ ReflTransGen (Refers r) id x := by
  have inside : ∀ v ∈ [id], v ∈ r.references.fields :=
    List.forall_mem_singleton.2 (mem_fields_iff.2 resolved)
  have visited := Traversal.mem_visitAll_iff (closed_references r) inside (a := x)
  rw [length_fields_references, edge_references] at visited
  simpa [readerClosure_references, Traversal.preorder] using visited

/-- A field loads what is selected as loadable in the fields it leads to. -/
theorem mem_loadables_iff {id : FieldId} (resolved : (r.field? id).isSome = true)
    {loadable : FieldId × LoadableOptions} :
    loadable ∈ r.loadables id ↔ (r.field? loadable.1).isSome = true ∧
      ∃ x, ReflTransGen (Refers r) id x ∧ ∃ f, r.field? x = some f ∧ loadable ∈ loadablesOfAll f.selections := by
  simp only [Resolution.loadables, Resolution.readers, List.mem_filter, List.mem_flatMap, List.mem_filterMap,
    mem_readerClosure_iff resolved]
  constructor
  · rintro ⟨⟨f, ⟨x, leads, found⟩, loads⟩, target⟩
    exact ⟨target, x, leads, f, found, loads⟩
  · rintro ⟨target, x, leads, f, found, loads⟩
    exact ⟨⟨f, ⟨x, leads, found⟩, loads⟩, target⟩

end Closure

/-! ## Plans as they are made -/

section Plans

variable {g : SchemaGraph} {r : Resolution} {ids : List FieldId} {es : List ResolvedEntrypoint}
  {loadables : List (FieldId × LoadableOptions)} {plans : List Plan}

/-- The plans of resolved fields. -/
def plansOf (r : Resolution) (plan : ResolvedField → Plan) (ids : List FieldId) : List Plan :=
  (ids.filterMap r.field?).map plan

theorem plansOf_cons {plan : ResolvedField → Plan} {id : FieldId} {f : ResolvedField}
    (found : r.field? id = some f) : plansOf r plan (id :: ids) = plan f :: plansOf r plan ids := by
  rw [plansOf, List.filterMap_cons_some found, List.map_cons, plansOf]

theorem plansOf_congr {plan plan' : ResolvedField → Plan}
    (same : ∀ id ∈ ids, ∀ f, r.field? id = some f → plan' f = plan f) : plansOf r plan' ids = plansOf r plan ids := by
  refine List.map_congr_left fun f listed => ?_
  obtain ⟨id, member, found⟩ := List.mem_filterMap.1 listed
  exact same id member f found

/-- Changing the plan of one field changes what its plan is and leaves the others as they are. -/
theorem alterPlan_plansOf {plan plan' : ResolvedField → Plan} {id : FieldId} {f : ResolvedField} {fresh : Plan}
    {change : Plan → Plan} (found : r.field? id = some f) (own : ∀ f, (plan f).field = f)
    (distinct : ids.Nodup) (resolved : ∀ x ∈ ids, (r.field? x).isSome = true)
    (others : ∀ x f, r.field? x = some f → x ≠ id → plan' f = plan f)
    (old : id ∈ ids → plan' f = change (plan f)) (new : id ∉ ids → plan' f = change fresh) :
    alterPlan id fresh change (plansOf r plan ids) = plansOf r plan' (addPlanned ids [id]) := by
  have added (ids : List FieldId) : addPlanned ids [id] = if id ∈ ids then ids else ids ++ [id] := rfl
  induction ids with
  | nil =>
    rw [added, if_neg List.not_mem_nil, List.nil_append, plansOf_cons found, new List.not_mem_nil]
    rfl
  | cons x rest ih =>
    obtain ⟨fx, here⟩ := Option.isSome_iff_exists.1 (resolved x List.mem_cons_self)
    obtain ⟨fresh, distinct⟩ := List.nodup_cons.1 distinct
    have key : (plan fx).field.field = x := by rw [own, (Resolution.field_of_field? here).2]
    rw [plansOf_cons here, alterPlan, key, added]
    by_cases same : x = id
    · subst same
      rw [if_pos rfl, if_pos List.mem_cons_self, plansOf_cons here, ← Option.some.inj (found.symm.trans here),
        old List.mem_cons_self]
      exact congrArg _ (plansOf_congr fun y member fy there =>
        others y fy there fun same => fresh (same ▸ member)).symm
    · have apart : id ∈ x :: rest ↔ id ∈ rest := by simp [Ne.symm same]
      rw [if_neg same, ih distinct (fun y member => resolved y (List.mem_cons_of_mem x member))
        (fun member => old (apart.2 member)) (fun absent => new fun member => absent (apart.1 member)), added]
      simp only [apart]
      split
      · rw [plansOf_cons here, others x fx here same]
      · rw [List.cons_append, plansOf_cons here, others x fx here same]

theorem map_field_plansOf {plan : ResolvedField → Plan} (own : ∀ f, (plan f).field = f)
    (resolved : ∀ x ∈ ids, (r.field? x).isSome = true) : (plansOf r plan ids).map (·.field.field) = ids := by
  induction ids with
  | nil => rfl
  | cons x rest ih =>
    obtain ⟨f, found⟩ := Option.isSome_iff_exists.1 (resolved x List.mem_cons_self)
    rw [plansOf_cons found, List.map_cons, own, (Resolution.field_of_field? found).2,
      ih fun y member => resolved y (List.mem_cons_of_mem x member)]

/-- Plans that are what entrypoints and loadable selections make of the planned fields. -/
structure PlansAt (g : SchemaGraph) (r : Resolution) (es : List ResolvedEntrypoint)
    (loadables : List (FieldId × LoadableOptions)) (ids : List FieldId) (plans : List Plan) : Prop where
  eq : plans = plansOf r (planWith g es loadables) ids
  distinct : ids.Nodup
  resolved : ∀ id ∈ ids, (r.field? id).isSome = true
  declared : ∀ e ∈ es, e.field ∈ ids
  loaded : ∀ loadable ∈ loadables, loadable.1 ∈ ids

theorem entrypointOf?_append (es : List ResolvedEntrypoint) (e : ResolvedEntrypoint) (id : FieldId) :
    entrypointOf? (es ++ [e]) id = if e.field = id then some e else entrypointOf? es id := by
  rw [entrypointOf?, List.reverse_append, List.reverse_singleton, List.singleton_append, List.find?_cons]
  by_cases same : e.field = id <;> simp [same, entrypointOf?]

theorem entrypointOf?_eq_none {id : FieldId} (other : ∀ e ∈ es, e.field ≠ id) : entrypointOf? es id = none := by
  refine List.find?_eq_none.2 fun e member same => ?_
  exact other e (List.mem_reverse.1 member) (of_decide_eq_true same)

theorem asksLazily_eq_false {id : FieldId} (other : ∀ loadable ∈ loadables, loadable.1 ≠ id) :
    asksLazily loadables id = false := by
  refine List.any_eq_false.2 fun loadable member asks => ?_
  rw [Bool.and_eq_true, decide_eq_true_eq] at asks
  exact other loadable member asks.1

/-- A declared entrypoint is planned while nothing has been loaded. -/
theorem PlansAt.planDeclared (h : PlansAt g r es [] ids plans) {e : ResolvedEntrypoint} {f : ResolvedField}
    (found : r.field? e.field = some f) :
    PlansAt g r (es ++ [e]) [] (addPlanned ids [e.field]) (planDeclared g r plans e) := by
  obtain ⟨-, own⟩ := Resolution.field_of_field? found
  have last : planWith g (es ++ [e]) [] f = ⟨f, g.fieldName e.field, e.lazyLoad⟩ := by
    simp [planWith, own, entrypointOf?_append, asksLazily]
  refine ⟨?_, nodup_addPlanned h.distinct, forall_mem_addPlanned h.resolved ?_, fun e' listed => ?_, nofun⟩
  · rw [IsoLiteral.planDeclared, found, h.eq]
    refine alterPlan_plansOf found (fun _ => rfl) h.distinct h.resolved (fun x fx here apart => ?_)
      (fun _ => last) (fun _ => last)
    rw [← (Resolution.field_of_field? here).2] at apart
    rw [planWith, planWith, entrypointOf?_append, if_neg (Ne.symm apart)]
  · rw [List.forall_mem_singleton, found]
    rfl
  · refine mem_addPlanned.2 ?_
    rcases List.mem_append.1 listed with old | new
    · exact .inl (h.declared e' old)
    · exact .inr (List.mem_singleton.2 (congrArg _ (List.mem_singleton.1 new)))

/-- A loadable selection is planned. -/
theorem PlansAt.planLoadable (h : PlansAt g r es loadables ids plans) {loadable : FieldId × LoadableOptions}
    (resolved : (r.field? loadable.1).isSome = true) :
    PlansAt g r es (loadables ++ [loadable]) (addPlanned ids [loadable.1]) (planLoadable g r plans loadable) := by
  obtain ⟨f, found⟩ := Option.isSome_iff_exists.1 resolved
  obtain ⟨-, own⟩ := Resolution.field_of_field? found
  have asks (id : FieldId) : asksLazily (loadables ++ [loadable]) id =
      (asksLazily loadables id || (decide (loadable.1 = id) && loadable.2.lazyLoadArtifact)) := by
    simp [asksLazily]
  refine ⟨?_, nodup_addPlanned h.distinct,
    forall_mem_addPlanned h.resolved (List.forall_mem_singleton.2 resolved), fun e listed => ?_, fun l listed => ?_⟩
  · rw [IsoLiteral.planLoadable, found, h.eq]
    refine alterPlan_plansOf found (fun _ => rfl) h.distinct h.resolved (fun x fx here apart => ?_)
      (fun _ => ?_) (fun absent => ?_)
    · rw [← (Resolution.field_of_field? here).2] at apart
      simp [planWith, asks, Ne.symm apart]
    · simp [planWith, asks, own, Bool.or_assoc]
    · have undeclared : entrypointOf? es loadable.1 = none :=
        entrypointOf?_eq_none fun e listed same => absent (same ▸ h.declared e listed)
      have unasked : asksLazily loadables loadable.1 = false :=
        asksLazily_eq_false fun l listed same => absent (same ▸ h.loaded l listed)
      simp [planWith, asks, undeclared, unasked, own, LazyLoad.none]
  · exact mem_addPlanned.2 (.inl (h.declared e listed))
  · refine mem_addPlanned.2 ?_
    rcases List.mem_append.1 listed with old | new
    · exact .inl (h.loaded l old)
    · exact .inr (List.mem_singleton.2 (congrArg _ (List.mem_singleton.1 new)))

/-- The declared entrypoints are planned one by one. -/
theorem PlansAt.foldl_planDeclared (more : List ResolvedEntrypoint) :
    ∀ {es ids plans}, PlansAt g r es [] ids plans →
      PlansAt g r (es ++ more.filter fun e => (r.field? e.field).isSome) []
        (addPlanned ids ((more.filter fun e => (r.field? e.field).isSome).map (·.field)))
        (more.foldl (IsoLiteral.planDeclared g r) plans) := by
  induction more with
  | nil =>
    intro es ids plans h
    rw [List.filter_nil, List.append_nil]
    exact h
  | cons e rest ih =>
    intro es ids plans h
    rw [List.foldl_cons, List.filter_cons]
    cases found : r.field? e.field with
    | none =>
      have skipped : IsoLiteral.planDeclared g r plans e = plans := by rw [IsoLiteral.planDeclared, found]
      rw [skipped]
      exact ih h
    | some f => simpa [addPlanned] using ih (h.planDeclared found)

/-- Loadable selections are planned one by one. -/
theorem PlansAt.foldl_planLoadable (more : List (FieldId × LoadableOptions)) :
    ∀ {loadables ids plans}, PlansAt g r es loadables ids plans →
      (∀ loadable ∈ more, (r.field? loadable.1).isSome = true) →
        PlansAt g r es (loadables ++ more) (addPlanned ids (more.map Prod.fst))
          (more.foldl (IsoLiteral.planLoadable g r) plans) := by
  induction more with
  | nil =>
    intro loadables ids plans h _
    rw [List.append_nil]
    exact h
  | cons loadable rest ih =>
    intro loadables ids plans h resolved
    have first := h.planLoadable (resolved loadable List.mem_cons_self)
    have others := ih first fun l listed => resolved l (List.mem_cons_of_mem _ listed)
    rwa [List.append_assoc] at others

/-- Every round looks at one more plan. When all have been looked at, each is what all loadable selections make of
it that the planned fields come to. -/
theorem PlansAt.planFrom {rounds : Nat} :
    ∀ {next ids plans}, PlansAt g r es ((ids.take next).flatMap r.loadables) ids plans →
      r.fields.length ≤ next + rounds →
        PlansAt g r es ((extendPlan r rounds next ids).flatMap r.loadables) (extendPlan r rounds next ids)
          (planFrom g r rounds next plans) := by
  induction rounds with
  | zero =>
    intro next ids plans h enough
    have few := length_le_of_resolved h.distinct h.resolved
    rw [List.take_of_length_le (by omega)] at h
    exact h
  | succ rounds ih =>
    intro next ids plans h enough
    have keys : plans.map (·.field.field) = ids := by
      rw [h.eq]
      exact map_field_plansOf (fun _ => rfl) h.resolved
    have here : plans[next]?.map (·.field.field) = ids[next]? := by rw [← keys, List.getElem?_map]
    rw [IsoLiteral.planFrom, extendPlan]
    cases now : plans[next]? with
    | none =>
      rw [now, Option.map_none] at here
      rw [← here]
      rw [List.take_of_length_le (List.getElem?_eq_none_iff.1 here.symm)] at h
      exact h
    | some plan =>
      rw [now, Option.map_some] at here
      rw [← here]
      obtain ⟨inside, last⟩ := List.getElem?_eq_some_iff.1 here.symm
      obtain ⟨more, eq⟩ := isPrefix_addPlanned ids ((r.loadables plan.field.field).map Prod.fst)
      have loaded := h.foldl_planLoadable (r.loadables plan.field.field) fun _ => resolved_of_mem_loadables
      have looked : (addPlanned ids ((r.loadables plan.field.field).map Prod.fst)).take (next + 1) =
          ids.take next ++ [plan.field.field] := by
        rw [← eq, List.take_append_of_le_length (by omega), List.take_succ_eq_append_getElem inside, last]
      refine ih ?_ (by omega)
      rwa [looked, List.flatMap_append, List.flatMap_singleton]

/-- **Plans.** The plan of a planned field is what the declared entrypoints make of it, and the loadable selections
that all planned fields come to. -/
theorem Resolution.plans_eq (r : Resolution) (g : SchemaGraph) :
    r.plans g = (r.plannedFields.filterMap r.field?).map (r.planFor g r.plannedFields) := by
  have start : PlansAt g r [] [] [] [] := ⟨rfl, .nil, nofun, nofun, nofun⟩
  have declared : PlansAt g r r.declaredPlan [] (addPlanned [] (r.declaredPlan.map (·.field)))
      (r.entrypoints.foldl (planDeclared g r) []) :=
    start.foldl_planDeclared r.entrypoints
  exact (declared.planFrom (by omega)).eq

/-- The names of the artifacts of all plans. -/
theorem Resolution.map_id_plans (r : Resolution) (g : SchemaGraph)
    (listed : ∀ id f, r.field? id = some f → f.parent = (g.field id).parent) :
    (r.plans g).map (fun p => (p.artifact g r).id) =
      r.plannedFields.filterMap fun id => (r.field? id).map fun _ => g.entrypointId id := by
  rw [Resolution.plans_eq, List.map_map, List.map_filterMap]
  refine List.filterMap_congr fun id _ => ?_
  cases found : r.field? id with
  | none => rfl
  | some f =>
    have parent := listed id f found
    obtain ⟨-, rfl⟩ := field_of_field? found
    simp [Plan.artifact, planFor_eq, SchemaGraph.entrypointId, parent]

end Plans

variable {options : SchemaOptions} {document : SchemaDocument} {declarations literals : List Declaration}
  {g : SchemaGraph}

/-- In a built graph, entrypoints of different fields have different names. -/
theorem SchemaGraph.entrypointId_injective
    (built : SchemaGraph.ofDocument options document declarations = .ok g) {id id' : FieldId}
    (valid : id.index < g.fields.length) (valid' : id'.index < g.fields.length)
    (same : g.entrypointId id = g.entrypointId id') : id = id' := by
  rw [entrypointId, entrypointId, ArtifactId.mk.injEq] at same
  have found := (fieldByName?_iff built).2 ⟨valid, rfl, rfl⟩
  have found' := (fieldByName?_iff built).2 ⟨valid', rfl, rfl⟩
  rw [← same.1, ← same.2.1, found] at found'
  exact Option.some.inj found'

/-- A resolved field is a field of the graph. -/
theorem valid_of_field? (built : SchemaGraph.ofDocument options document declarations = .ok g)
    {r : Resolution} (resolution : r = (Resolution.ofDeclarations g literals).1) {id : FieldId}
    {f : ResolvedField} (found : r.field? id = some f) :
    id.index < g.fields.length ∧ f.parent = (g.field id).parent := by
  obtain ⟨listed, rfl⟩ := Resolution.field_of_field? found
  rw [resolution] at listed
  obtain ⟨d, -, comes⟩ := exists_resolvedFrom listed
  exact ⟨((SchemaGraph.fieldByName?_iff built).1 comes.found).1, comes.parent⟩

/-- **Artifacts of entrypoints.** No two have the same name, and every resolved entrypoint of a resolved
field has one. -/
theorem count_entrypointId_plans (built : SchemaGraph.ofDocument options document declarations = .ok g)
    {r : Resolution} (resolution : r = (Resolution.ofDeclarations g literals).1) {e : ResolvedEntrypoint}
    (member : e ∈ r.entrypoints) (resolved : (r.field? e.field).isSome = true) :
    ((r.plans g).map fun p => (p.artifact g r).id).count (g.entrypointId e.field) = 1 := by
  rw [Resolution.map_id_plans r g fun id f found => (valid_of_field? built resolution found).2]
  obtain ⟨f, found⟩ := Option.isSome_iff_exists.1 resolved
  refine List.count_eq_one_of_mem ?_ ?_
  · refine List.Nodup.filterMap (fun id id' name here there => ?_) r.nodup_plannedFields
    obtain ⟨f, found, rfl⟩ := Option.map_eq_some_iff.1 here
    obtain ⟨f', found', same⟩ := Option.map_eq_some_iff.1 there
    exact SchemaGraph.entrypointId_injective built (valid_of_field? built resolution found).1
      (valid_of_field? built resolution found').1 same.symm
  · refine List.mem_filterMap.2 ⟨e.field, Resolution.mem_plannedFields member resolved, ?_⟩
    rw [found, Option.map_some]

end IsoLiteral
