import IsoLiteral.Proofs.Resolution.Reordered
import IsoLiteral.Proofs.Schema.Extension

/-!
# Resolving with more declarations

Declarations that are resolved without errors are resolved to the same in a graph that has more declared fields: no
field that they select is unknown, and what is known stays. So the fields that more declarations are resolved to come
after theirs, and if none of these is an entrypoint, the entrypoints are theirs alone.
-/

namespace IsoLiteral

open Diagnostics

variable {g g' : SchemaGraph} {σ : FieldId → FieldId} {declarations more : List Declaration}

theorem fields_ofDeclarations_append (g : SchemaGraph) (declarations more : List Declaration) :
    (Resolution.ofDeclarations g (declarations ++ more)).1.fields =
      (Resolution.ofDeclarations g declarations).1.fields ++
        (more.zipIdx declarations.length).filterMap fun p => p.1.resolved? g p.2 := by
  rw [Resolution.ofDeclarations, Resolution.ofDeclarations, fields_resolveFrom, fields_resolveFrom,
    List.zipIdx_append, List.filterMap_append, Nat.zero_add]

theorem entrypoints_resolveFrom_eq_nil (plain : ∀ d ∈ more, d.kind ≠ .entrypoint) :
    ∀ index taken, (resolveFrom g index taken more).1.entrypoints = [] := by
  induction more with
  | nil => exact fun _ _ => rfl
  | cons d rest ih =>
    intro index taken
    obtain ⟨form, others⟩ := List.forall_mem_cons.1 plain
    rw [resolveFrom, if_neg form]
    exact ih others (index + 1) taken

theorem ResolvedEntrypoint.map_field_of_rename {es es' : List ResolvedEntrypoint}
    (same : es'.map (ResolvedEntrypoint.rename id) = es.map (ResolvedEntrypoint.rename σ)) :
    es'.map (·.field) = (es.map (·.field)).map σ := by
  have renamed (σ : FieldId → FieldId) (es : List ResolvedEntrypoint) :
      (es.map (ResolvedEntrypoint.rename σ)).map (·.field) = (es.map (·.field)).map σ := by
    rw [List.map_map, List.map_map]
    rfl
  rw [← renamed, ← same, renamed, List.map_id]

/-- A field that is declared after others is one that only the larger graph has. -/
theorem SchemaGraph.Coherent.new_of_resolved? (coherent : g.Coherent declarations)
    (coherent' : g'.Coherent (declarations ++ more)) (h : g.Extends g') {index : Nat} {d : Declaration}
    {f : ResolvedField} (later : declarations.length ≤ index) (resolved : d.resolved? g' index = some f) :
    f.field.index < g'.fields.length ∧ g.fields.length ≤ f.field.index := by
  rw [Declaration.resolved?] at resolved
  split at resolved
  · cases resolved
  · rename_i form
    obtain ⟨comes, own⟩ := resolvedFrom_resolveField form resolved
    refine ⟨((coherent'.fields _ _ _).1 comes.found).1, Nat.le_of_not_lt fun valid => ?_⟩
    have declared := comes.origin
    rw [h.field_eq valid, own, FieldDefinition.declaration?_eq_some] at declared
    obtain ⟨d, known, -⟩ := coherent.owners _ (List.mem_of_getElem? (SchemaGraph.getElem?_fields valid)) _ declared
    exact Nat.not_lt.2 later (List.getElem?_eq_some_iff.1 known).1

namespace SchemaGraph.Coherent

variable (coherent : g.Coherent declarations) (coherent' : g'.Coherent (declarations ++ more))

include coherent in
/-- What a declaration without errors comes to does not change in a larger graph. -/
theorem summary_eq (h : g.Embeds g' σ) {index : Nat} {d : Declaration} (known : declarations[index]? = some d)
    (clean : (d.problems g index).hasErrors = false) : d.summary g' id = d.summary g σ := by
  have described := coherent.describes_summary known σ
  have named (form : d.kind ≠ .entrypoint) : g'.fieldByName? d.parentType.text d.fieldName.text =
      (g.fieldByName? d.parentType.text d.fieldName.text).map σ := by
    obtain ⟨f, -, found, -⟩ := coherent.exists_resolveField known form
    rw [found, Option.map_some]
    exact h.foundByName found
  have enough : g.Suffices g' σ (d.summary g σ).reports := by
    rw [described.reports, Suffices.plain_iff]
    exact .inr clean
  rw [← d.summary_bare (.refl g')]
  exact d.summary_bare_of_suffices h named enough

include coherent coherent' in
/-- A declaration without errors has none in the larger graph, and is resolved to the same. -/
theorem resolved_eq (h : g.Embeds g' σ) {index : Nat} {d : Declaration} (known : declarations[index]? = some d)
    (clean : (d.problems g index).hasErrors = false) :
    (d.problems g' index).hasErrors = false ∧
      (d.entrypoint? g' index).map (ResolvedEntrypoint.rename id) =
        (d.entrypoint? g index).map (ResolvedEntrypoint.rename σ) ∧
      (d.resolved? g' index).map (ResolvedField.rename id) = (d.resolved? g index).map (ResolvedField.rename σ) := by
  have known' : (declarations ++ more)[index]? = some d := by
    rw [List.getElem?_append_left (List.getElem?_eq_some_iff.1 known).1, known]
  have described := coherent.describes_summary known σ
  have described' := coherent'.describes_summary known' id
  rw [coherent.summary_eq h known clean] at described'
  have clean' : (d.problems g' index).hasErrors = false := by
    rw [← hasErrors_plain, ← described'.reports, described.reports, hasErrors_plain, clean]
  exact ⟨clean', described'.entrypoint.symm.trans described.entrypoint,
    (described'.field clean').symm.trans (described.field clean)⟩

section Clean

variable (clean : (Resolution.ofDeclarations g declarations).2.hasErrors = false)
include coherent coherent' clean

theorem map_rename_fields_of_embeds (h : g.Embeds g' σ) :
    (Resolution.ofDeclarations g' declarations).1.fields.map (ResolvedField.rename id) =
      (Resolution.ofDeclarations g declarations).1.fields.map (ResolvedField.rename σ) := by
  obtain ⟨errors, -⟩ := (hasErrors_resolveFrom g declarations 0 [] .nil).1 clean
  rw [Resolution.ofDeclarations, Resolution.ofDeclarations, fields_resolveFrom, fields_resolveFrom,
    List.map_filterMap, List.map_filterMap]
  refine List.filterMap_congr fun p member => ?_
  exact (coherent.resolved_eq coherent' h (List.mem_zipIdx_iff_getElem?.1 member) (errors p member)).2.2

theorem map_rename_entrypointsFrom_of_embeds (h : g.Embeds g' σ) :
    (entrypointsFrom g' 0 declarations).map (ResolvedEntrypoint.rename id) =
      (entrypointsFrom g 0 declarations).map (ResolvedEntrypoint.rename σ) := by
  obtain ⟨errors, -⟩ := (hasErrors_resolveFrom g declarations 0 [] .nil).1 clean
  rw [entrypointsFrom, entrypointsFrom, List.map_filterMap, List.map_filterMap]
  refine List.filterMap_congr fun p member => ?_
  exact (coherent.resolved_eq coherent' h (List.mem_zipIdx_iff_getElem?.1 member) (errors p member)).2.1

/-- The declarations are resolved without errors in the larger graph too. -/
theorem hasErrors_of_embeds (h : g.Embeds g' σ) :
    (Resolution.ofDeclarations g' declarations).2.hasErrors = false := by
  obtain ⟨errors, distinct⟩ := (hasErrors_resolveFrom g declarations 0 [] .nil).1 clean
  refine (hasErrors_resolveFrom g' declarations 0 [] .nil).2 ⟨fun p member => ?_, ?_⟩
  · exact (coherent.resolved_eq coherent' h (List.mem_zipIdx_iff_getElem?.1 member) (errors p member)).1
  · have same := coherent.map_rename_entrypointsFrom_of_embeds coherent' clean h
    rw [List.append_nil] at distinct ⊢
    rw [ResolvedEntrypoint.map_field_of_rename same]
    exact distinct.map h.injective

/-- The entrypoints are those of the declarations without errors, if those that follow are none. -/
theorem map_rename_entrypoints_append (h : g.Embeds g' σ) (plain : ∀ d ∈ more, d.kind ≠ .entrypoint) :
    (Resolution.ofDeclarations g' (declarations ++ more)).1.entrypoints.map (ResolvedEntrypoint.rename id) =
      (Resolution.ofDeclarations g declarations).1.entrypoints.map (ResolvedEntrypoint.rename σ) := by
  have clean' := coherent.hasErrors_of_embeds coherent' clean h
  obtain ⟨taken, entrypoints⟩ := entrypoints_resolveFrom_append g' declarations more 0 [] clean'
  rw [entrypoints_resolveFrom_eq_nil plain, List.append_nil] at entrypoints
  rw [Resolution.ofDeclarations, Resolution.ofDeclarations, entrypoints, entrypoints_resolveFrom _ _ _ _ clean]
  exact coherent.map_rename_entrypointsFrom_of_embeds coherent' clean h

/-- **More declarations extend a resolution.** Declarations that are resolved without errors are part of the
resolution of all declarations, if those that follow are no entrypoints. -/
theorem embeds_ofDeclarations (extended : g.Extends g') (h : g.Embeds g' (g.numberBeyond g'))
    (plain : ∀ d ∈ more, d.kind ≠ .entrypoint) :
    (Resolution.ofDeclarations g declarations).1.Embeds (g.numberBeyond g')
      (Resolution.ofDeclarations g' (declarations ++ more)).1 where
  injective := h.injective
  field? x := by
    have same := coherent.map_rename_fields_of_embeds coherent' clean h
    have known := find?_of_perm_rename h.injective (.of_eq same) (nodup_fields_ofDeclarations g declarations)
      (fun _ => rfl) (fun _ => rfl) x
    rw [Resolution.field?, Resolution.field?, ← known, fields_ofDeclarations_append, List.find?_append]
    -- no number of the smaller graph becomes that of a field that is declared later
    refine congrArg _ (Option.or_eq_left_of_none (List.find?_eq_none.2 fun f member => ?_))
    obtain ⟨p, listed, resolved⟩ := List.mem_filterMap.1 member
    have later := (List.mem_zipIdx listed).1
    obtain ⟨valid, new⟩ := coherent.new_of_resolved? coherent' extended later resolved
    simpa using (numberBeyond_ne valid new x).symm
  entrypoints := .of_eq (coherent.map_rename_entrypoints_append coherent' clean h plain)
  unique := by
    obtain ⟨-, distinct⟩ := (hasErrors_resolveFrom g declarations 0 [] .nil).1 clean
    rw [List.append_nil] at distinct
    rwa [Resolution.ofDeclarations, entrypoints_resolveFrom _ _ _ _ clean]

end Clean

end SchemaGraph.Coherent

end IsoLiteral
