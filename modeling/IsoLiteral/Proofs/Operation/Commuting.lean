import IsoLiteral.Proofs.Operation.Path
import IsoLiteral.Proofs.Value.Order

/-!
# Merging in any order

A merged set does not depend on the order in which requests are added to it. Requests with different keys
change different entries, and the order of the keys keeps the entries in their places. Requests with one key
have the same form, because the key determines it, so they only differ in what they add inside the entry, and
there the same argument applies. Completing a record is adding requests, too, and commutes like them.
-/

namespace IsoLiteral

open MergedSet

/-! ## Updates -/

namespace MergedSet

variable {key key' : SelectionKey} {fresh fresh' : MergedSelection}
  {change change' : MergedSelection → MergedSelection} {set : MergedSet}

/-- Two updates under one key are one. -/
theorem update_update :
    update key fresh' change' (update key fresh change set) = update key fresh (change' ∘ change) set := by
  have same : key.compare key = .eq := (SelectionKey.compare_eq_iff key key).2 rfl
  induction set with
  | nil => simp [update, same]
  | cons entry rest ih =>
    obtain ⟨k, m⟩ := entry
    simp only [update]
    cases order : key.compare k with
    | lt => simp [update, same]
    | eq => simp [update, order]
    | gt => simp [update, order, ih]

/-- Updates under different keys commute. -/
theorem update_comm (apart : key ≠ key') :
    update key fresh change (update key' fresh' change' set) =
      update key' fresh' change' (update key fresh change set) := by
  -- by symmetry, the first key may be taken to be the smaller one
  have ordered {a b : SelectionKey} {fresh fresh' : MergedSelection}
      {change change' : MergedSelection → MergedSelection} (less : a.compare b = .lt) :
      update a fresh change (update b fresh' change' set) =
        update b fresh' change' (update a fresh change set) := by
    have more : b.compare a = .gt := Std.OrientedCmp.gt_of_lt less
    induction set with
    | nil => simp [update, less, more]
    | cons entry rest ih =>
      obtain ⟨k, m⟩ := entry
      cases second : b.compare k with
      | lt =>
        have first : a.compare k = .lt := Std.TransCmp.lt_trans less second
        simp [update, first, second, less, more]
      | eq =>
        obtain rfl := (SelectionKey.compare_eq_iff b k).1 second
        simp [update, less, second, more]
      | gt => cases first : a.compare k <;> simp [update, first, second, more, ih]
  cases order : key.compare key' with
  | lt => exact ordered order
  | eq => exact absurd ((SelectionKey.compare_eq_iff key key').1 order) apart
  | gt => exact (ordered (Std.OrientedCmp.lt_of_gt order)).symm

/-- An update is what it makes of the entry under its key. -/
theorem update_congr (new : change fresh = change' fresh')
    (old : ∀ m, (key, m) ∈ set → change m = change' m) :
    update key fresh change set = update key fresh' change' set := by
  induction set with
  | nil => simp [update, new]
  | cons entry rest ih =>
    obtain ⟨k, m⟩ := entry
    have later := ih fun m member => old m (List.mem_cons_of_mem _ member)
    simp only [update]
    split
    · rw [new]
    · rename_i same
      obtain rfl := (SelectionKey.compare_eq_iff key k).1 same
      rw [old m List.mem_cons_self]
    · rw [later]

end MergedSet

namespace MergedSelection

theorem mapSelections_mapSelections (change change' : MergedSet → MergedSet) (m : MergedSelection) :
    (m.mapSelections change).mapSelections change' = m.mapSelections (change' ∘ change) := by
  cases m <;> rfl

theorem mapSelections_congr {change change' : MergedSet → MergedSet} {m : MergedSelection}
    (same : change m.selections = change' m.selections) :
    m.mapSelections change = m.mapSelections change' := by
  cases m with
  | scalar fieldName arguments => rfl
  | linked fieldName arguments concreteType selections => exact congrArg _ same
  | inlineFragment typeName selections => exact congrArg _ same

end MergedSelection

/-! ## Requests as updates -/

theorem mergeRequestsInto_append (g : SchemaGraph) (xs ys : List Request) (set : MergedSet) :
    mergeRequestsInto g (xs ++ ys) set = mergeRequestsInto g ys (mergeRequestsInto g xs set) := by
  induction xs generalizing set with
  | nil => rw [List.nil_append, mergeRequestsInto]
  | cons r rest ih => rw [List.cons_append, mergeRequestsInto, ih, mergeRequestsInto]

/-- The requests for what tells records of a type apart. -/
def completionRequests (g : SchemaGraph) (type : TypeId) (withTypename : Bool) : List Request :=
  (if (g.idField? type).isSome then [.scalar .id "id" []] else []) ++
    (if withTypename then [.scalar (.serverField typenameField []) typenameField []] else [])

theorem complete_eq_mergeRequestsInto (g : SchemaGraph) (type : TypeId) (withTypename : Bool)
    (set : MergedSet) :
    complete g type withTypename set = mergeRequestsInto g (completionRequests g type withTypename) set := by
  rw [complete, completionRequests, mergeRequestsInto_append]
  cases withTypename <;> cases (g.idField? type).isSome <;>
    simp [mergeRequestsInto, Request.mergeInto, MergedSelection.plain]

theorem fits_completionRequests {g : SchemaGraph} (unambiguous : g.Unambiguous) (type : TypeId)
    (withTypename : Bool) : ∀ r ∈ completionRequests g type withTypename, r.Fits g type := by
  intro r member
  rcases List.mem_append.1 member with first | second
  · split at first
    · rw [List.mem_singleton.1 first]
      exact .id
    · cases first
  · split at second
    · rw [List.mem_singleton.1 second]
      exact .scalar (unambiguous.typename type)
    · cases second

namespace Request

/-- The key under which a request is added. -/
def key (g : SchemaGraph) : Request → SelectionKey
  | .scalar key _ _ => key
  | .linked fieldName arguments _ _ => .serverField fieldName arguments
  | .fragment target _ => .inlineFragment (g.typeName target)

/-- The entry that a request makes, with nothing inside. -/
def entry (g : SchemaGraph) : Request → MergedSelection
  | .scalar _ fieldName arguments => .scalar fieldName arguments
  | .linked fieldName arguments target _ => .linked fieldName arguments (g.concreteType? target) []
  | .fragment target _ => .inlineFragment (g.typeName target) []

/-- What a request adds inside its entry. -/
def inner (g : SchemaGraph) : Request → List Request
  | .scalar _ _ _ => []
  | .linked _ _ target nested => nested ++ completionRequests g target (g.type target).kind.isAbstract
  | .fragment target nested => nested ++ completionRequests g target true

/-- Adding a request is an update inside of which requests are added. -/
theorem mergeInto_eq_update (g : SchemaGraph) (r : Request) (set : MergedSet) :
    r.mergeInto g set =
      update (r.key g) (r.entry g) (MergedSelection.mapSelections (mergeRequestsInto g (r.inner g))) set := by
  cases r with
  | scalar key fieldName arguments =>
    rw [mergeInto, insertNew]
    refine update_congr rfl fun m _ => ?_
    cases m <;> simp [MergedSelection.mapSelections, inner, mergeRequestsInto]
  | linked fieldName arguments target nested =>
    rw [mergeInto]
    simp only [complete_eq_mergeRequestsInto, ← mergeRequestsInto_append]
    rfl
  | fragment target nested =>
    rw [mergeInto]
    simp only [complete_eq_mergeRequestsInto, ← mergeRequestsInto_append]
    rfl

/-- The type on which a request adds something inside its entry. -/
def innerType (type : TypeId) : Request → TypeId
  | .scalar _ _ _ => type
  | .linked _ _ target _ => target
  | .fragment target _ => target

variable {g : SchemaGraph} {type : TypeId} {r r' : Request}

theorem Fits.inner (unambiguous : g.Unambiguous) (fits : r.Fits g type) :
    ∀ q ∈ r.inner g, q.Fits g (r.innerType type) := by
  cases fits with
  | id => simp [Request.inner]
  | scalar plain => simp [Request.inner]
  | linked leads inside =>
    exact List.forall_mem_append.2 ⟨inside, fits_completionRequests unambiguous _ _⟩
  | fragment valid inside =>
    exact List.forall_mem_append.2 ⟨inside, fits_completionRequests unambiguous _ _⟩

/-- What stands under the key of a request has selections of the type on which the request adds some. -/
theorem Fits.selections (unambiguous : g.Unambiguous) (fits : r.Fits g type) {m : MergedSelection}
    (stands : IsoLiteral.Fits g type (r.key g) m) : FitsAll g (r.innerType type) m.selections := by
  cases fits with
  | id =>
    rw [eq_plain_of_fits_id stands]
    simp [MergedSelection.plain, MergedSelection.selections, FitsAll]
  | scalar plain =>
    rw [eq_scalar_of_fits plain stands]
    simp [MergedSelection.selections, FitsAll]
  | linked leads inside =>
    cases stands with
    | scalar plain => rw [leads] at plain; cases plain
    | linked leads' inside =>
      obtain rfl := Option.some.inj (leads.symm.trans leads')
      exact inside
  | fragment valid inside =>
    rename_i target nested
    rw [key] at stands
    generalize name : g.typeName target = typeName at stands
    cases stands with
    | fragment valid' inside =>
      obtain rfl := unambiguous.names _ _ valid valid' name
      exact inside

/-- The key of a request determines its form. -/
theorem Fits.eq_of_key_eq (unambiguous : g.Unambiguous) (fits : r.Fits g type) (fits' : r'.Fits g type)
    (same : r.key g = r'.key g) : r.entry g = r'.entry g ∧ r.innerType type = r'.innerType type := by
  cases fits with
  | id =>
    cases fits' <;> cases same
    exact ⟨rfl, rfl⟩
  | scalar plain =>
    cases fits' with
    | linked leads _ =>
      cases same
      rw [plain] at leads
      cases leads
    | scalar _ =>
      cases same
      exact ⟨rfl, rfl⟩
    | _ => cases same
  | linked leads _ =>
    cases fits' with
    | scalar plain =>
      cases same
      rw [plain] at leads
      cases leads
    | linked leads' _ =>
      cases same
      obtain rfl := Option.some.inj (leads.symm.trans leads')
      exact ⟨rfl, rfl⟩
    | _ => cases same
  | fragment valid _ =>
    cases fits' with
    | fragment valid' _ =>
      obtain rfl := unambiguous.names _ _ valid valid' (SelectionKey.inlineFragment.inj same)
      exact ⟨rfl, rfl⟩
    | _ => cases same

end Request

/-! ## Requests in any order -/

section Commuting

variable {g : SchemaGraph}

/-- A request for a type can be added before or after any other one. -/
def Request.Commutes (g : SchemaGraph) (r : Request) : Prop :=
  ∀ {type : TypeId} {r' : Request} {set : MergedSet}, r.Fits g type → r'.Fits g type → FitsAll g type set →
    r.mergeInto g (r'.mergeInto g set) = r'.mergeInto g (r.mergeInto g set)

theorem mergeInto_mergeRequestsInto (unambiguous : g.Unambiguous) {r : Request} (commutes : r.Commutes g)
    {type : TypeId} (fits : r.Fits g type) {rs : List Request} (each : ∀ q ∈ rs, q.Fits g type)
    {set : MergedSet} (all : FitsAll g type set) :
    r.mergeInto g (mergeRequestsInto g rs set) = mergeRequestsInto g rs (r.mergeInto g set) := by
  induction rs generalizing set with
  | nil => rw [mergeRequestsInto, mergeRequestsInto]
  | cons q rest ih =>
    obtain ⟨first, others⟩ := List.forall_mem_cons.1 each
    have added := (gains_mergeInto unambiguous q first all).fits
    rw [mergeRequestsInto, mergeRequestsInto, ih others added, commutes fits first all]

theorem mergeRequestsInto_comm (unambiguous : g.Unambiguous) {rs rs' : List Request}
    (commute : ∀ q ∈ rs, q.Commutes g) {type : TypeId} (fits : ∀ q ∈ rs, q.Fits g type)
    (fits' : ∀ q ∈ rs', q.Fits g type) {set : MergedSet} (all : FitsAll g type set) :
    mergeRequestsInto g rs (mergeRequestsInto g rs' set) =
      mergeRequestsInto g rs' (mergeRequestsInto g rs set) := by
  induction rs generalizing set with
  | nil => rw [mergeRequestsInto, mergeRequestsInto]
  | cons q rest ih =>
    obtain ⟨first, others⟩ := List.forall_mem_cons.1 fits
    obtain ⟨here, there⟩ := List.forall_mem_cons.1 commute
    have added := (gains_mergeInto unambiguous q first all).fits
    rw [mergeRequestsInto, mergeInto_mergeRequestsInto unambiguous here first fits' all, ih there others added,
      mergeRequestsInto]

/-- Requests commute if those inside them do: with one key they add to the same entry. -/
theorem Request.commutes_of_inner (unambiguous : g.Unambiguous) {r : Request}
    (inside : ∀ q ∈ r.inner g, q.Commutes g) : r.Commutes g := by
  intro type r' set fits fits' all
  simp only [mergeInto_eq_update]
  by_cases same : r.key g = r'.key g
  · obtain ⟨entry, target⟩ := fits.eq_of_key_eq unambiguous fits' same
    have within : ∀ q ∈ r'.inner g, q.Fits g (r.innerType type) := target ▸ fits'.inner unambiguous
    have swap {m : MergedSelection} (stands : FitsAll g (r.innerType type) m.selections) :
        m.mapSelections (mergeRequestsInto g (r.inner g) ∘ mergeRequestsInto g (r'.inner g)) =
          m.mapSelections (mergeRequestsInto g (r'.inner g) ∘ mergeRequestsInto g (r.inner g)) :=
      MergedSelection.mapSelections_congr
        (mergeRequestsInto_comm unambiguous inside (fits.inner unambiguous) within stands)
    rw [← same, update_update, update_update, ← entry]
    refine update_congr ?_ fun m member => ?_
    · simp only [Function.comp_apply, MergedSelection.mapSelections_mapSelections]
      refine swap ?_
      cases r <;> simp [Request.entry, MergedSelection.selections, FitsAll]
    · simp only [Function.comp_apply, MergedSelection.mapSelections_mapSelections]
      exact swap (fits.selections unambiguous (all _ member))
  · exact update_comm same

theorem commutes_of_mem_completionRequests (unambiguous : g.Unambiguous) {type : TypeId}
    {withTypename : Bool} {r : Request} (member : r ∈ completionRequests g type withTypename) :
    r.Commutes g := by
  refine Request.commutes_of_inner unambiguous ?_
  rcases List.mem_append.1 member with first | second
  · split at first
    · simp [List.mem_singleton.1 first, Request.inner]
    · cases first
  · split at second
    · simp [List.mem_singleton.1 second, Request.inner]
    · cases second

mutual
/-- **Requests can be added in any order.** -/
theorem Request.commutes (unambiguous : g.Unambiguous) (r : Request) : r.Commutes g := by
  refine Request.commutes_of_inner unambiguous ?_
  cases r with
  | scalar key fieldName arguments => simp [Request.inner]
  | linked fieldName arguments target nested =>
    exact List.forall_mem_append.2 ⟨commutes_of_mem unambiguous nested,
      fun q => commutes_of_mem_completionRequests unambiguous⟩
  | fragment target nested =>
    exact List.forall_mem_append.2 ⟨commutes_of_mem unambiguous nested,
      fun q => commutes_of_mem_completionRequests unambiguous⟩
theorem commutes_of_mem (unambiguous : g.Unambiguous) (rs : List Request) : ∀ r ∈ rs, r.Commutes g := by
  cases rs with
  | nil => simp
  | cons r rest =>
    exact List.forall_mem_cons.2 ⟨Request.commutes unambiguous r, commutes_of_mem unambiguous rest⟩
end

end Commuting

/-! ## Shuffled requests -/

/-- Requests in another order, here or inside any of them. -/
inductive Shuffled : List Request → List Request → Prop where
  | nil : Shuffled [] []
  | cons (r : Request) {rest rest'} (later : Shuffled rest rest') : Shuffled (r :: rest) (r :: rest')
  | linked (fieldName : String) (arguments : List (String × Value)) (target : TypeId)
      {nested nested' rest rest'} (inside : Shuffled nested nested') (later : Shuffled rest rest') :
      Shuffled (.linked fieldName arguments target nested :: rest)
        (.linked fieldName arguments target nested' :: rest')
  | fragment (target : TypeId) {nested nested' rest rest'} (inside : Shuffled nested nested')
      (later : Shuffled rest rest') :
      Shuffled (.fragment target nested :: rest) (.fragment target nested' :: rest')
  | swap (r r' : Request) (rest : List Request) : Shuffled (r :: r' :: rest) (r' :: r :: rest)
  | trans {first second third} (h : Shuffled first second) (h' : Shuffled second third) :
      Shuffled first third

namespace Shuffled

theorem refl (rs : List Request) : Shuffled rs rs := by
  induction rs with
  | nil => exact .nil
  | cons r rest ih => exact .cons r ih

theorem of_perm {rs rs' : List Request} (perm : rs.Perm rs') : Shuffled rs rs' := by
  induction perm with
  | nil => exact .nil
  | cons r _ ih => exact .cons r ih
  | swap r r' rest => exact .swap r' r rest
  | trans _ _ ih ih' => exact ih.trans ih'

theorem append_right {rs rs' : List Request} (h : Shuffled rs rs') (others : List Request) :
    Shuffled (rs ++ others) (rs' ++ others) := by
  induction h with
  | nil => exact .refl others
  | cons r _ ih => exact .cons r ih
  | linked fieldName arguments target inside _ _ ih => exact .linked fieldName arguments target inside ih
  | fragment target inside _ _ ih => exact .fragment target inside ih
  | swap r r' rest => exact .swap r r' (rest ++ others)
  | trans _ _ ih ih' => exact ih.trans ih'

theorem append_left (rs : List Request) {others others' : List Request} (h : Shuffled others others') :
    Shuffled (rs ++ others) (rs ++ others') := by
  induction rs with
  | nil => exact h
  | cons r rest ih => exact .cons r ih

theorem append {rs rs' others others' : List Request} (h : Shuffled rs rs') (h' : Shuffled others others') :
    Shuffled (rs ++ others) (rs' ++ others') :=
  (h.append_right others).trans (.append_left rs' h')

variable {g : SchemaGraph} {type : TypeId} {rs rs' : List Request}

theorem fits (h : Shuffled rs rs') (each : ∀ r ∈ rs, r.Fits g type) : ∀ r ∈ rs', r.Fits g type := by
  induction h generalizing type with
  | nil => exact each
  | cons r _ ih =>
    obtain ⟨first, others⟩ := List.forall_mem_cons.1 each
    exact List.forall_mem_cons.2 ⟨first, ih others⟩
  | linked fieldName arguments target _ _ ih ih' =>
    obtain ⟨first, others⟩ := List.forall_mem_cons.1 each
    cases first with
    | linked leads inside => exact List.forall_mem_cons.2 ⟨.linked leads (ih inside), ih' others⟩
  | fragment target _ _ ih ih' =>
    obtain ⟨first, others⟩ := List.forall_mem_cons.1 each
    cases first with
    | fragment valid inside => exact List.forall_mem_cons.2 ⟨.fragment valid (ih inside), ih' others⟩
  | swap r r' rest => exact fun q member => each q ((List.Perm.swap r r' rest).mem_iff.1 member)
  | trans _ _ ih ih' => exact ih' (ih each)

/-- Requests that only differ inside, where they add up to the same, add up to the same. -/
theorem mergeInto_congr (unambiguous : g.Unambiguous) {r r' : Request} (fits : r.Fits g type)
    (form : r.key g = r'.key g ∧ r.entry g = r'.entry g)
    (inside : ∀ {set}, FitsAll g (r.innerType type) set →
      mergeRequestsInto g (r.inner g) set = mergeRequestsInto g (r'.inner g) set)
    {set : MergedSet} (all : FitsAll g type set) : r.mergeInto g set = r'.mergeInto g set := by
  rw [Request.mergeInto_eq_update, Request.mergeInto_eq_update, ← form.1, ← form.2]
  refine update_congr (MergedSelection.mapSelections_congr (inside ?_)) fun m member =>
    MergedSelection.mapSelections_congr (inside (fits.selections unambiguous (all _ member)))
  cases r <;> simp [Request.entry, MergedSelection.selections, FitsAll]

/-- **Shuffled requests add up to the same set.** -/
theorem mergeRequestsInto_eq (unambiguous : g.Unambiguous) (h : Shuffled rs rs')
    (each : ∀ r ∈ rs, r.Fits g type) {set : MergedSet} (all : FitsAll g type set) :
    mergeRequestsInto g rs set = mergeRequestsInto g rs' set := by
  induction h generalizing type set with
  | nil => rfl
  | cons r _ ih =>
    obtain ⟨first, others⟩ := List.forall_mem_cons.1 each
    rw [mergeRequestsInto, mergeRequestsInto]
    exact ih others (gains_mergeInto unambiguous r first all).fits
  | linked fieldName arguments target _ _ ih ih' =>
    obtain ⟨first, others⟩ := List.forall_mem_cons.1 each
    rw [mergeRequestsInto, mergeRequestsInto, ih' others (gains_mergeInto unambiguous _ first all).fits]
    apply congrArg
    refine mergeInto_congr unambiguous first ?_ (fun stands => ?_) all
    · exact ⟨rfl, rfl⟩
    · cases first with
      | linked leads inside =>
        rw [Request.inner, Request.inner, mergeRequestsInto_append, mergeRequestsInto_append,
          ih inside stands]
  | fragment target _ _ ih ih' =>
    obtain ⟨first, others⟩ := List.forall_mem_cons.1 each
    rw [mergeRequestsInto, mergeRequestsInto, ih' others (gains_mergeInto unambiguous _ first all).fits]
    apply congrArg
    refine mergeInto_congr unambiguous first ?_ (fun stands => ?_) all
    · exact ⟨rfl, rfl⟩
    · cases first with
      | fragment valid inside =>
        rw [Request.inner, Request.inner, mergeRequestsInto_append, mergeRequestsInto_append,
          ih inside stands]
  | swap r r' rest =>
    obtain ⟨first, later⟩ := List.forall_mem_cons.1 each
    obtain ⟨second, -⟩ := List.forall_mem_cons.1 later
    simp only [mergeRequestsInto]
    rw [Request.commutes unambiguous r first second all]
  | trans h _ ih ih' => exact (ih each all).trans (ih' (h.fits each) all)

end Shuffled

end IsoLiteral
