import IsoLiteral.Proofs.Operation.Renaming
import IsoLiteral.Proofs.Operation.Termination

/-!
# Operations with more fields

What is followed from field to field is bounded by the number of fields: how deep fields are inlined, how many
fields are read with one, how many rounds a plan takes. Without cycles none of these needs a larger bound. So a
resolution that is part of another, which has more fields and looks further, has the same operations there.
-/

namespace IsoLiteral

open Relation

variable {r r' : Resolution} {σ : FieldId → FieldId} {bound : Nat}

/-- A field that is not resolved leads nowhere. -/
theorem successors_eq_nil {x : FieldId} (unresolved : r.field? x = none) : r.references.successors x = [] := by
  rw [successors_references, unresolved]
  rfl

/-- More depth than there are fields finds no more fields to read. -/
theorem readers_depth (enough : r.fields.length ≤ bound) (x : FieldId) :
    (Traversal.preorder r.references.successors bound x).filterMap r.field? = r.readers x := by
  rw [← length_fields_references] at enough
  rw [Resolution.readers, readerClosure_references, ← length_fields_references]
  cases found : r.field? x with
  | some f =>
    have member : x ∈ r.references.fields := mem_fields_iff.2 (by rw [found]; rfl)
    rw [Traversal.preorder_depth (closed_references r) member enough]
  | none =>
    -- the field is entered or not, but it is not resolved
    have alone (depth : Nat) : (Traversal.preorder r.references.successors depth x).filterMap r.field? = [] := by
      cases depth with
      | zero => rfl
      | succ depth =>
        simp [Traversal.preorder, Traversal.visitAll, Traversal.visit, Traversal.start, successors_eq_nil found, found]
    rw [alone, alone]

/-- More rounds than there are fields left to plan add nothing to a plan. -/
theorem extendPlan_rounds (rounds : Nat) :
    ∀ {rounds' next : Nat} {planned : List FieldId}, planned.Nodup →
      (∀ id ∈ planned, (r.field? id).isSome = true) → r.fields.length ≤ next + rounds →
      r.fields.length ≤ next + rounds' → extendPlan r rounds next planned = extendPlan r rounds' next planned := by
  -- a plan all of whose fields have been looked at stays as it is
  have ended (rounds : Nat) {next : Nat} {planned : List FieldId} (distinct : planned.Nodup)
      (resolved : ∀ id ∈ planned, (r.field? id).isSome = true) (enough : r.fields.length ≤ next) :
      extendPlan r rounds next planned = planned := by
    have few := length_le_of_resolved distinct resolved
    cases rounds with
    | zero => rfl
    | succ rounds => rw [extendPlan, List.getElem?_eq_none (few.trans enough)]
  induction rounds with
  | zero =>
    intro rounds' next planned distinct resolved enough _
    rw [Nat.add_zero] at enough
    rw [ended 0 distinct resolved enough, ended rounds' distinct resolved enough]
  | succ rounds ih =>
    intro rounds' next planned distinct resolved enough enough'
    cases rounds' with
    | zero =>
      rw [Nat.add_zero] at enough'
      rw [ended _ distinct resolved enough', ended 0 distinct resolved enough']
    | succ rounds' =>
      rw [extendPlan, extendPlan]
      split
      · rfl
      · refine ih (nodup_addPlanned distinct) (fun x member => ?_) (by omega) (by omega)
        rcases mem_addPlanned.1 member with old | new
        · exact resolved x old
        · obtain ⟨loadable, loads, rfl⟩ := List.mem_map.1 new
          exact resolved_of_mem_loadables loads

theorem plannedFields_rounds (enough : r.fields.length ≤ bound) :
    extendPlan r bound 0 (addPlanned [] (r.declaredPlan.map (·.field))) = r.plannedFields := by
  refine extendPlan_rounds bound (nodup_addPlanned .nil) (fun x member => ?_) (by omega) (by omega)
  rcases mem_addPlanned.1 member with old | new
  · cases old
  · obtain ⟨e, listed, rfl⟩ := List.mem_map.1 new
    exact (List.mem_filter.1 listed).2

/-- **No bound needs to be larger** than the number of fields, if no field refers to itself. -/
theorem Resolution.exhausted_of_acyclic (acyclic : ∀ f, ¬ TransGen (Refers r) f f)
    (enough : r.fields.length ≤ bound) : r.Exhausted bound where
  requests _ parent c ss := requestsOfAll_depth acyclic bound (.start r ss) enough (Nat.le_refl _) parent c
  readers := readers_depth enough
  plan := plannedFields_rounds enough

/-- Fields that keep their numbers and are the same but for places have the same artifacts in a graph that the one
graph is part of. -/
theorem map_artifacts_of_rename {g g' : SchemaGraph} (h : g.Embeds g' σ) {fs fs' : List ResolvedField}
    (same : fs'.map (ResolvedField.rename id) = fs.map (ResolvedField.rename σ))
    (kept : ∀ f ∈ fs, σ f.field = f.field) : fs'.map (·.artifacts g') = fs.map (·.artifacts g) := by
  have own : fs'.map (·.artifacts g') = (fs'.map (ResolvedField.rename id)).map (·.artifacts g') := by
    rw [List.map_map]
    exact List.map_congr_left fun f _ =>
      (ResolvedField.artifacts_eq_of_rename (.refl g') (f.rename_id_rename id)).symm
  rw [own, same, List.map_map]
  refine List.map_congr_left fun f member => ?_
  rw [Function.comp_apply, ResolvedField.artifacts_eq_of_rename h (f.rename_id_rename σ), kept f member]
  rfl

/-- A resolution without cycles is followed alike wherever it is part of a larger one. -/
theorem Resolution.Embeds.simulatedBy (h : r.Embeds σ r') (acyclic : ∀ f, ¬ TransGen (Refers r) f f)
    (fewer : r.fields.length ≤ r'.fields.length) : r.SimulatedBy σ r' where
  toEmbeds := h
  exhausted := exhausted_of_acyclic acyclic fewer

end IsoLiteral
