import IsoLiteral.Proofs.Operation.Planned
import Mathlib.Order.Bounds.Defs

/-!
# Exactly what has to be fetched

Planning goes over a list that grows while it is gone over. What it ends with is the least set of fields that
has those of the resolved entrypoints and, with a field, everything that is selected as loadable where that
field leads. The entrypoints come first, in their own order, and whether the reader of a field is shipped apart
is decided by its entrypoint and all loadable selections of it together, whichever was come to first.
-/

namespace IsoLiteral

open Relation

variable {r : Resolution} {g : SchemaGraph} {id : FieldId}

/-! ## Loadable selections -/

mutual
theorem occurs_of_mem_loadablesOf (s : ResolvedSelection) {x : FieldId} {options : LoadableOptions}
    (member : (x, options) ∈ loadablesOf s) :
    ∃ head kind, Occurs (.resolver head kind (some options)) [s] ∧ head.field = x := by
  cases s with
  | scalar head updatable => simp [loadablesOf] at member
  | link head => simp [loadablesOf] at member
  | resolver head kind loadable =>
    cases loadable with
    | none => simp [loadablesOf] at member
    | some own =>
      obtain ⟨rfl, rfl⟩ : x = head.field ∧ options = own := by simpa [loadablesOf] using member
      exact ⟨head, kind, .here (List.mem_singleton_self _), rfl⟩
  | linked head target inlineFragment updatable nested =>
    rw [loadablesOf] at member
    obtain ⟨inner, kind, inside, same⟩ := occurs_of_mem_loadablesOfAll nested member
    exact ⟨inner, kind, .linked (List.mem_singleton_self _) inside, same⟩
  | pointer head target nested =>
    rw [loadablesOf] at member
    obtain ⟨inner, kind, inside, same⟩ := occurs_of_mem_loadablesOfAll nested member
    exact ⟨inner, kind, .pointer (List.mem_singleton_self _) inside, same⟩
theorem occurs_of_mem_loadablesOfAll (selections : List ResolvedSelection) {x : FieldId}
    {options : LoadableOptions} (member : (x, options) ∈ loadablesOfAll selections) :
    ∃ head kind, Occurs (.resolver head kind (some options)) selections ∧ head.field = x := by
  cases selections with
  | nil => simp [loadablesOfAll] at member
  | cons s rest =>
    rw [loadablesOfAll] at member
    rcases List.mem_append.1 member with first | later
    · obtain ⟨head, kind, occurs, same⟩ := occurs_of_mem_loadablesOf s first
      exact ⟨head, kind, occurs.mono (by simp), same⟩
    · obtain ⟨head, kind, occurs, same⟩ := occurs_of_mem_loadablesOfAll rest later
      exact ⟨head, kind, occurs.mono (by simp +contextual), same⟩
end

theorem loadablesOfAll_eq_flatMap (selections : List ResolvedSelection) :
    loadablesOfAll selections = selections.flatMap loadablesOf := by
  induction selections with
  | nil => rw [loadablesOfAll, List.flatMap_nil]
  | cons s rest ih => rw [loadablesOfAll, List.flatMap_cons, ih]

/-- The loadables of selections are the loadable selections among and inside them. -/
theorem mem_loadablesOfAll_iff {selections : List ResolvedSelection} {x : FieldId} {options : LoadableOptions} :
    (x, options) ∈ loadablesOfAll selections ↔
      ∃ head kind, Occurs (.resolver head kind (some options)) selections ∧ head.field = x := by
  refine ⟨occurs_of_mem_loadablesOfAll selections, ?_⟩
  rintro ⟨head, kind, occurs, rfl⟩
  induction occurs with
  | here member =>
    rw [loadablesOfAll_eq_flatMap]
    exact List.mem_flatMap.2 ⟨_, member, by rw [loadablesOf]; exact List.mem_singleton_self _⟩
  | linked member _ ih =>
    rw [loadablesOfAll_eq_flatMap]
    exact List.mem_flatMap.2 ⟨_, member, by rwa [loadablesOf]⟩
  | pointer member _ ih =>
    rw [loadablesOfAll_eq_flatMap]
    exact List.mem_flatMap.2 ⟨_, member, by rwa [loadablesOf]⟩

/-- One resolved field selects another as loadable, at any depth and with some options. -/
def Loads (r : Resolution) (f x : FieldId) (options : LoadableOptions) : Prop :=
  (r.field? x).isSome = true ∧ ∃ field head kind, r.field? f = some field ∧
    Occurs (.resolver head kind (some options)) field.selections ∧ head.field = x

/-- What is loaded while a resolved field is read is what the fields it leads to select as loadable. -/
theorem mem_loadables_iff_loads (resolved : (r.field? id).isSome = true) {x : FieldId}
    {options : LoadableOptions} :
    (x, options) ∈ r.loadables id ↔ ∃ y, ReflTransGen (Refers r) id y ∧ Loads r y x options := by
  rw [mem_loadables_iff resolved]
  simp only [mem_loadablesOfAll_iff, Loads]
  constructor
  · rintro ⟨target, y, leads, field, found, head, kind, occurs, same⟩
    exact ⟨y, leads, target, field, head, kind, found, occurs, same⟩
  · rintro ⟨y, leads, target, field, head, kind, found, occurs, same⟩
    exact ⟨target, y, leads, field, found, head, kind, occurs, same⟩

/-! ## The least closed set -/

/-- A set of fields that has the field of every resolved entrypoint and everything that is loaded where one of
its fields leads. -/
structure ClosedPlan (r : Resolution) (fetched : Set FieldId) : Prop where
  declared : ∀ e ∈ r.entrypoints, (r.field? e.field).isSome = true → e.field ∈ fetched
  loaded : ∀ f ∈ fetched, ∀ y, ReflTransGen (Refers r) f y →
    ∀ x options, Loads r y x options → x ∈ fetched

theorem resolved_of_mem_plannedFields (planned : id ∈ r.plannedFields) : (r.field? id).isSome = true :=
  (mem_plannedFields_iff.1 planned).resolved

/-- The planned fields are the least such set. -/
theorem isLeast_plannedFields (r : Resolution) :
    IsLeast {fetched | ClosedPlan r fetched} {id | id ∈ r.plannedFields} := by
  constructor
  · refine ⟨fun e member resolved => Resolution.mem_plannedFields member resolved, ?_⟩
    intro f planned y leads x options loads
    have listed := (mem_loadables_iff_loads (resolved_of_mem_plannedFields planned)).2 ⟨y, leads, loads⟩
    exact mem_plannedFields_iff.2 (.loaded (mem_plannedFields_iff.1 planned) listed)
  · intro fetched closed id planned
    have reached := mem_plannedFields_iff.1 planned
    clear planned
    -- everything that entrypoints come to by loading is in every closed set
    induction reached with
    | declared member resolved => exact closed.declared _ member resolved
    | @loaded f loadable before loads ih =>
      obtain ⟨y, leads, given⟩ := (mem_loadables_iff_loads before.resolved).1 loads
      exact closed.loaded f ih y leads loadable.1 loadable.2 given

/-! ## Entrypoints first -/

/-- Nothing is left out of a list without repetitions, and nothing is moved. -/
theorem addPlanned_of_nodup {planned more : List FieldId} (distinct : (planned ++ more).Nodup) :
    addPlanned planned more = planned ++ more := by
  induction more generalizing planned with
  | nil => rw [List.append_nil, addPlanned, List.foldl_nil]
  | cons first rest ih =>
    have fresh : first ∉ planned := fun old =>
      (List.nodup_append.1 distinct).2.2 first old first List.mem_cons_self rfl
    have shifted : planned ++ first :: rest = planned ++ [first] ++ rest := by
      rw [List.append_assoc, List.singleton_append]
    rw [shifted] at distinct ⊢
    rw [← ih distinct, addPlanned, List.foldl_cons, if_neg fresh]
    rfl

theorem isPrefix_extendPlan (r : Resolution) (rounds : Nat) :
    ∀ next planned, planned <+: extendPlan r rounds next planned := by
  induction rounds with
  | zero => exact fun _ planned => List.prefix_refl planned
  | succ rounds ih =>
    intro next planned
    unfold extendPlan
    split
    · exact List.prefix_refl planned
    · exact (isPrefix_addPlanned planned _).trans (ih _ _)

namespace Resolution

/-- The fields of the declared entrypoints come first, in their order. -/
theorem isPrefix_plannedFields (unique : (r.entrypoints.map (·.field)).Nodup) :
    r.declaredPlan.map (·.field) <+: r.plannedFields := by
  have distinct : (r.declaredPlan.map (·.field)).Nodup := unique.sublist (List.filter_sublist.map _)
  have start : addPlanned [] (r.declaredPlan.map (·.field)) = r.declaredPlan.map (·.field) :=
    addPlanned_of_nodup distinct
  rw [plannedFields, start]
  exact isPrefix_extendPlan r _ 0 _

/-- There is one plan for each planned field. -/
theorem map_field_plans (r : Resolution) (g : SchemaGraph) :
    (r.plans g).map (·.field.field) = r.plannedFields := by
  rw [plans_eq]
  exact map_field_plansOf (fun _ => rfl) fun _ => resolved_of_mem_plannedFields

/-- Resolving gives no field two entrypoints, and none to a field that has one. -/
theorem nodup_entrypoints_resolveFrom (g : SchemaGraph) (declarations : List Declaration) :
    ∀ index taken, ((resolveFrom g index taken declarations).1.entrypoints.map (·.field)).Nodup ∧
      ∀ e ∈ (resolveFrom g index taken declarations).1.entrypoints, e.field ∉ taken := by
  induction declarations with
  | nil => simp [resolveFrom]
  | cons d rest ih =>
    intro index taken
    rw [resolveFrom]
    split
    · rcases withoutErrors (resolveEntrypoint g index d) with ⟨_ | e, problems⟩
      · exact ih (index + 1) taken
      · dsimp only
        split
        · exact ih (index + 1) taken
        · rename_i fresh
          obtain ⟨distinct, apart⟩ := ih (index + 1) (e.field :: taken)
          refine ⟨List.nodup_cons.2 ⟨fun old => ?_, distinct⟩, fun e' member => ?_⟩
          · obtain ⟨e', member, same⟩ := List.mem_map.1 old
            exact apart e' member (same ▸ List.mem_cons_self)
          · rcases List.mem_cons.1 member with rfl | later
            · exact fresh
            · exact fun old => apart e' later (List.mem_cons_of_mem _ old)
    · exact ih (index + 1) taken

/-- **No field has two entrypoints**, whatever is resolved. -/
theorem nodup_entrypoints_ofDeclarations (g : SchemaGraph) (declarations : List Declaration) :
    ((ofDeclarations g declarations).1.entrypoints.map (·.field)).Nodup :=
  (nodup_entrypoints_resolveFrom g declarations 0 []).1

end Resolution

/-! ## Names and flags -/

/-- Some loadable selection of a field that is come to from the fetched fields wants its reader shipped
apart. -/
def LoadedLazily (r : Resolution) (fetched : Set FieldId) (x : FieldId) : Prop :=
  ∃ f ∈ fetched, ∃ y options, ReflTransGen (Refers r) f y ∧ Loads r y x options ∧
    options.lazyLoadArtifact = true

theorem loadsReaderLazily_iff :
    r.loadsReaderLazily r.plannedFields id = true ↔ LoadedLazily r {x | x ∈ r.plannedFields} id := by
  simp only [Resolution.loadsReaderLazily, asksLazily, List.any_flatMap, List.any_eq_true, Bool.and_eq_true,
    decide_eq_true_eq]
  constructor
  · rintro ⟨f, planned, ⟨x, options⟩, loads, rfl, apart⟩
    obtain ⟨y, leads, given⟩ := (mem_loadables_iff_loads (resolved_of_mem_plannedFields planned)).1 loads
    exact ⟨f, planned, y, options, leads, given, apart⟩
  · rintro ⟨f, planned, y, options, leads, given, apart⟩
    refine ⟨f, planned, (id, options), ?_, rfl, apart⟩
    exact (mem_loadables_iff_loads (resolved_of_mem_plannedFields planned)).2 ⟨y, leads, given⟩

/-- A plan for a declared entrypoint: it is named for its field and shipped as the entrypoint says, its reader
apart also if a loadable selection asks for that. -/
structure PlannedAs (r : Resolution) (g : SchemaGraph) (fetched : Set FieldId) (e : ResolvedEntrypoint)
    (p : Plan) : Prop where
  field : p.field.field = e.field
  queryName : p.queryName = g.fieldName e.field
  normalization : p.lazyLoad.normalization = e.lazyLoad.normalization
  reader : p.lazyLoad.reader = true ↔ e.lazyLoad.reader = true ∨ LoadedLazily r fetched e.field

/-- A plan for a field that is only loaded: it is named for its type and field, and only its reader may be
shipped apart. -/
structure PlannedLater (r : Resolution) (g : SchemaGraph) (fetched : Set FieldId) (p : Plan) : Prop where
  undeclared : ∀ e ∈ r.entrypoints, e.field ≠ p.field.field
  queryName : p.queryName = g.typeName p.field.parent ++ "__" ++ g.fieldName p.field.field
  normalization : p.lazyLoad.normalization = false
  reader : p.lazyLoad.reader = true ↔ LoadedLazily r fetched p.field.field

/-- Plans for exactly what has to be fetched. -/
structure PlansExactly (r : Resolution) (g : SchemaGraph) (plans : List Plan) : Prop where
  resolved : ∀ p ∈ plans, r.field? p.field.field = some p.field
  distinct : (plans.map (·.field.field)).Nodup
  least : IsLeast {fetched | ClosedPlan r fetched} {id | id ∈ plans.map (·.field.field)}
  /-- The plans of the declared entrypoints, in their order, and then the others. -/
  ordered : ∃ declared others, plans = declared ++ others ∧
    List.Forall₂ (PlannedAs r g {id | id ∈ plans.map (·.field.field)}) r.declaredPlan declared ∧
    ∀ p ∈ others, PlannedLater r g {id | id ∈ plans.map (·.field.field)} p

namespace Resolution

theorem entrypoint?_of_mem_declaredPlan (unique : (r.entrypoints.map (·.field)).Nodup) {e : ResolvedEntrypoint}
    (declared : e ∈ r.declaredPlan) : r.entrypoint? e.field = some e := by
  have distinct : (r.declaredPlan.map (·.field)).Nodup := unique.sublist (List.filter_sublist.map _)
  cases found : r.entrypoint? e.field with
  | none =>
    have other := List.find?_eq_none.1 found e (List.mem_reverse.2 declared)
    simp at other
  | some e' =>
    have listed := List.mem_reverse.1 (List.mem_of_find?_eq_some found)
    have same : e'.field = e.field := by simpa using List.find?_some found
    rw [List.inj_on_of_nodup_map distinct listed declared same]

theorem plannedAs_planFor (unique : (r.entrypoints.map (·.field)).Nodup) {e : ResolvedEntrypoint}
    (declared : e ∈ r.declaredPlan) {f : ResolvedField} (own : f.field = e.field) :
    PlannedAs r g {id | id ∈ r.plannedFields} e (r.planFor g r.plannedFields f) := by
  have found := entrypoint?_of_mem_declaredPlan unique declared
  refine ⟨own, ?_, ?_, ?_⟩
  · simp [planFor_eq, own, found]
  · simp [planFor_eq, own, found]
  · simp [planFor_eq, own, found, loadsReaderLazily_iff]

theorem plannedLater_planFor {f : ResolvedField} (found : r.field? f.field = some f)
    (other : f.field ∉ r.declaredPlan.map (·.field)) :
    PlannedLater r g {id | id ∈ r.plannedFields} (r.planFor g r.plannedFields f) := by
  have undeclared : r.entrypoint? f.field = none := by
    exact entrypointOf?_eq_none fun e member same => other (List.mem_map.2 ⟨e, member, same⟩)
  refine ⟨fun e member same => other ?_, ?_, ?_, ?_⟩
  · refine List.mem_map.2 ⟨e, List.mem_filter.2 ⟨member, ?_⟩, same⟩
    rw [same]
    exact Option.isSome_iff_exists.2 ⟨f, found⟩
  · simp [planFor_eq, undeclared]
  · simp [planFor_eq, undeclared, LazyLoad.none]
  · simp [planFor_eq, undeclared, LazyLoad.none, loadsReaderLazily_iff]

/-- **Exactly what has to be fetched is planned.** Where no field has two entrypoints, every planned field is
resolved and planned once, and the planned fields are the least set that has the fields of the resolved
entrypoints and whatever is loaded where one of its fields leads. The plans of the entrypoints come first, in
their order; every plan has the name and the flags that are due to it. -/
theorem plansExactly_plans (g : SchemaGraph) (unique : (r.entrypoints.map (·.field)).Nodup) :
    PlansExactly r g (r.plans g) := by
  have fields := r.map_field_plans g
  refine ⟨fun p member => ?_, ?_, ?_, ?_⟩
  · rw [plans_eq] at member
    obtain ⟨f, listed, rfl⟩ := List.mem_map.1 member
    obtain ⟨id, -, found⟩ := List.mem_filterMap.1 listed
    exact (field_of_field? found).2 ▸ found
  · rw [fields]
    exact r.nodup_plannedFields
  · rw [fields]
    exact isLeast_plannedFields r
  · rw [fields]
    obtain ⟨later, eq⟩ := isPrefix_plannedFields unique
    have plans : r.plans g = (r.declaredPlan.map (·.field)).filterMap
          (fun id => (r.field? id).map (r.planFor g r.plannedFields)) ++
        later.filterMap fun id => (r.field? id).map (r.planFor g r.plannedFields) := by
      rw [← List.filterMap_append, eq, plans_eq, List.map_filterMap]
    have apart : ∀ id ∈ later, id ∉ r.declaredPlan.map (·.field) := by
      have distinct := r.nodup_plannedFields
      rw [← eq] at distinct
      exact fun id after before => (List.nodup_append.1 distinct).2.2 id before id after rfl
    refine ⟨_, _, plans, ?_, fun p member => ?_⟩
    · have resolved : ∀ e ∈ r.declaredPlan, ∃ f, r.field? e.field = some f := fun e member =>
        Option.isSome_iff_exists.1 (List.mem_filter.1 member).2
      have each : ∀ es : List ResolvedEntrypoint, (∀ e ∈ es, e ∈ r.declaredPlan) →
          List.Forall₂ (PlannedAs r g {id | id ∈ r.plannedFields}) es ((es.map (·.field)).filterMap
            fun id => (r.field? id).map (r.planFor g r.plannedFields)) := by
        intro es all
        induction es with
        | nil => exact .nil
        | cons e rest ih =>
          obtain ⟨f, found⟩ := resolved e (all e List.mem_cons_self)
          have here := plannedAs_planFor (g := g) unique (all e List.mem_cons_self) (field_of_field? found).2
          rw [List.map_cons, List.filterMap_cons, found]
          exact .cons here (ih fun e' member => all e' (List.mem_cons_of_mem e member))
      exact each r.declaredPlan fun _ member => member
    · obtain ⟨id, after, planned⟩ := List.mem_filterMap.1 member
      obtain ⟨f, found, rfl⟩ := Option.map_eq_some_iff.1 planned
      obtain ⟨-, rfl⟩ := field_of_field? found
      exact plannedLater_planFor found (apart _ after)

end Resolution

/-- Field 0 has an entrypoint and selects field 1, which loads field 2 inside a link and wants its reader
shipped apart. Field 2 loads field 0 and itself. Nothing comes to field 3, which loads field 1. -/
def deferredRing : Resolution :=
  let place (id : Nat) : SelectionHead := ⟨"", "", ⟨id⟩, [], "", ⟨0, ⟨id, id⟩⟩⟩
  let field (id : Nat) (selections : List ResolvedSelection) : ResolvedField :=
    ⟨⟨id⟩, id, 0, ⟨0⟩, .eager, none, [], selections⟩
  ⟨[field 0 [.resolver (place 1) .eager none],
    field 1 [.linked (place 7) ⟨0⟩ false false [.resolver (place 2) .eager (some ⟨true⟩)]],
    field 2 [.resolver (place 0) .eager (some ⟨false⟩), .resolver (place 2) .eager (some ⟨false⟩)],
    field 3 [.resolver (place 1) .eager (some ⟨true⟩)]],
    [⟨4, ⟨0⟩, ⟨0⟩, ⟨false, true⟩, ⟨0, ⟨0, 0⟩⟩⟩]⟩

theorem Resolution.plansExactly_deferredRing :
    PlansExactly deferredRing default (deferredRing.plans default) ∧
      (deferredRing.plans default).map (fun p => (p.field.field, p.lazyLoad)) =
        [(⟨0⟩, ⟨false, true⟩), (⟨2⟩, ⟨true, false⟩)] :=
  ⟨plansExactly_plans default (by decide), by decide⟩

end IsoLiteral
