import IsoLiteral.Proofs.Operation.Renaming
import IsoLiteral.Proofs.Resolution.Layout
import IsoLiteral.Proofs.Schema.Layout

/-!
# Operations of literals that are laid out otherwise

Resolutions that differ in places only have the same references, each in the same literal. So a cycle is found in
both or in neither, and where there is none, the same fields are planned in the same order, with the same
artifacts.
-/

namespace IsoLiteral

open Diagnostics ResolvedSelection

/-! ## Cycles -/

/-- The cycles without the ranges that the diagnostics are about. -/
def CycleError.unplaced (e : CycleError) : CycleError := { e with diagnostics := e.diagnostics.unplaced }

/-- A reference with the literal that it is in. -/
def referenceSource (reference : FieldId × Span) : FieldId × Nat := (reference.1, reference.2.source)

theorem ResolvedField.Relaid.references {f f' : ResolvedField} (h : f.Relaid f') :
    (referencesOfAll f'.selections).map referenceSource = (referencesOfAll f.selections).map referenceSource := by
  obtain ⟨source, here, here'⟩ := h.literal
  have placed {ss : List ResolvedSelection} (here : ReferIn source ss) : (referencesOfAll ss).map referenceSource =
      ((referencesOfAll (renameAll id ss)).map Prod.fst).map fun x => (x, source) := by
    rw [referencesOfAll_rename, List.map_id, List.map_map]
    exact List.map_congr_left fun reference member => congrArg _ (here reference member)
  rw [placed here, placed here', ResolvedField.selections_of_rename h.renamed]

theorem map_eq_of_forall₂ {α β γ : Type} {related : α → β → Prop} {each : α → γ} {each' : β → γ} {xs : List α}
    {ys : List β} (all : List.Forall₂ related xs ys) (alike : ∀ a b, related a b → each' b = each a) :
    ys.map each' = xs.map each := by
  induction all with
  | nil => rfl
  | cons first _ ih => rw [List.map_cons, List.map_cons, alike _ _ first, ih]

variable {g : SchemaGraph} {r r' : Resolution}

namespace Resolution.Relaid

theorem isSome_field? (h : r.Relaid r') (x : FieldId) : (r'.field? x).isSome = (r.field? x).isSome := by
  have numbers : r'.fields.map (·.field) = r.fields.map (·.field) :=
    map_eq_of_forall₂ h.fields fun _ _ same => ResolvedField.field_of_rename same.renamed
  have listed (r : Resolution) : r.references.fields = r.fields.map (·.field) := by
    simp only [ReferenceGraph.fields, Resolution.references, List.map_map, Function.comp_def]
  rw [Bool.eq_iff_iff, ← mem_fields_iff, ← mem_fields_iff, listed, listed, numbers]

/-- The same fields refer to each other, in the same literals. -/
theorem references (h : r.Relaid r') :
    r'.references.edges.map (fun p => (p.1, p.2.map referenceSource)) =
      r.references.edges.map fun p => (p.1, p.2.map referenceSource) := by
  have kept (ss : List (FieldId × Span)) :
      (ss.filter fun p => (r.field? p.1).isSome).map referenceSource =
        (ss.map referenceSource).filter fun p => (r.field? p.1).isSome := by
    rw [List.filter_map]
    rfl
  simp only [Resolution.references, List.map_map, h.isSome_field?]
  refine map_eq_of_forall₂ h.fields fun f f' same => ?_
  simp only [Function.comp_apply, kept, same.references, ResolvedField.field_of_rename same.renamed, id_eq]

theorem referencesFrom (h : r.Relaid r') (x : FieldId) :
    (r'.references.referencesFrom x).map referenceSource = (r.references.referencesFrom x).map referenceSource := by
  have found (r : Resolution) : (r.references.referencesFrom x).map referenceSource =
      ((r.references.edges.map fun p => (p.1, p.2.map referenceSource)).lookup x).getD [] := by
    rw [lookup_map_snd, ReferenceGraph.referencesFrom]
    cases r.references.edges.lookup x <;> rfl
  rw [found, found, h.references]

theorem cycles (h : r.Relaid r') : r'.references.cycles = r.references.cycles := by
  have fields : r'.references.fields = r.references.fields := by
    simpa [ReferenceGraph.fields, List.map_map, Function.comp_def] using congrArg (List.map Prod.fst) h.references
  have successors : r'.references.successors = r.references.successors := by
    funext x
    simpa [ReferenceGraph.successors, List.map_map, Function.comp_def, referenceSource] using
      congrArg (List.map Prod.fst) (h.referencesFrom x)
  rw [ReferenceGraph.cycles, ReferenceGraph.cycles, fields, successors]

theorem firstStep? (h : r.Relaid r') (cycle : List FieldId) :
    (r'.references.firstStep? cycle).map Span.source = (r.references.firstStep? cycle).map Span.source := by
  have found (first second : FieldId) :
      ((r'.references.referencesFrom first).lookup second).map Span.source =
        ((r.references.referencesFrom first).lookup second).map Span.source := by
    rw [← lookup_map_snd, ← lookup_map_snd]
    exact congrArg (List.lookup second) (h.referencesFrom first)
  cases cycle with
  | nil => rfl
  | cons first others =>
    cases others with
    | nil => exact found first first
    | cons second _ => exact found first second

/-- The same cycles are reported, in the same literals. -/
theorem checkCycles (h : r.Relaid r') (g : SchemaGraph) :
    (checkCycles g r').mapError CycleError.unplaced = (checkCycles g r).mapError CycleError.unplaced := by
  have reported (cycle : List FieldId) : (cycleDiagnostic g r'.references cycle).unplaced =
      (cycleDiagnostic g r.references cycle).unplaced := by
    have placed := congrArg (Option.map fun source => (⟨source, default⟩ : Span)) (h.firstStep? cycle)
    rw [Option.map_map, Option.map_map] at placed
    exact congrArg (fun span => ((Diagnostic.ofKind .cyclicSelection span).withDetail
      (Text.joinWith " -> " (cyclePath g cycle)))) placed
  rw [IsoLiteral.checkCycles, IsoLiteral.checkCycles, h.cycles]
  cases r.references.cycles with
  | nil => rfl
  | cons first rest =>
    simp only [Except.mapError, CycleError.unplaced, Diagnostics.unplaced, List.map_map, Function.comp_def, reported]

/-! ## Plans -/

theorem renames (h : r.Relaid r') (distinct : (r.fields.map (·.field)).Nodup)
    (unique : (r.entrypoints.map (·.field)).Nodup) : r.Renames id r' where
  injective := Function.injective_id
  fields := .of_eq (map_eq_of_forall₂ h.fields fun _ _ same => same.renamed)
  entrypoints := .of_eq (map_eq_of_forall₂ h.entrypoints fun _ _ same => same)
  distinct := distinct
  unique := unique

end Resolution.Relaid

/-! ## Artifacts -/

/-- Resolutions that differ in places only give the same artifacts of fields. -/
theorem Resolution.Relaid.fieldArtifacts (h : r.Relaid r') (g : SchemaGraph) :
    r'.fieldArtifacts g = r.fieldArtifacts g :=
  map_eq_of_forall₂ h.fields fun _ _ same => ResolvedField.artifacts_eq_of_rename (.refl g) same.renamed

/-- Resolutions that differ in places only give the same artifacts of entrypoints, or have the same cycles. -/
theorem Resolution.Relaid.entrypointArtifacts (h : r.Relaid r') (distinct : (r.fields.map (·.field)).Nodup)
    (unique : (r.entrypoints.map (·.field)).Nodup) (g : SchemaGraph) :
    (r'.entrypointArtifacts g).mapError CycleError.unplaced =
      (r.entrypointArtifacts g).mapError CycleError.unplaced := by
  have simulated := (h.renames distinct unique).simulated
  have ordered : r'.entrypoints.map (·.field) = (r.entrypoints.map (·.field)).map id := by
    rw [List.map_id]
    exact map_eq_of_forall₂ h.entrypoints fun _ _ same => (congrArg ResolvedEntrypoint.field same :)
  have artifacts : (r'.plans g).map (·.artifact g r') = (r.plans g).map (·.artifact g r) :=
    Resolution.SimulatedBy.artifacts_plans_eq (.refl g) simulated ordered
  rw [Resolution.entrypointArtifacts, Resolution.entrypointArtifacts]
  rcases outcomes_of_mapError (h.checkCycles g) with ⟨e, e', run, run', same⟩ | ⟨_, run, run'⟩
  · rw [run, run']
    exact congrArg Except.error same
  · rw [run, run', artifacts]

end IsoLiteral
