import IsoLiteral.Proofs.Resolution.Faithful
import IsoLiteral.Proofs.Resolution.Renaming
import Mathlib.Data.List.Find
import Mathlib.Data.List.Sigma

/-!
# Resolving in another order

What a resolution without errors consists of is decided declaration by declaration, up to numbers and places.
Only that no two entrypoints have one field is a matter of all declarations together, and it is one that does
not depend on their order. So declarations in another order, in a graph that has other numbers, are resolved
without errors too, to the same fields and entrypoints in some order.
-/

namespace IsoLiteral

open Diagnostics

variable {g g' : SchemaGraph} {σ : FieldId → FieldId} {index : Nat} {d : Declaration}
  {declarations declarations' : List Declaration}

/-! ## Resolutions without errors -/

namespace Declaration

/-- What is wrong with a declaration by itself. -/
def problems (d : Declaration) (g : SchemaGraph) (index : Nat) : Diagnostics :=
  if d.kind = .entrypoint then (resolveEntrypoint g index d).2 else (resolveField g index d).2

/-- The entrypoint that a declaration is resolved to by itself. -/
def entrypoint? (d : Declaration) (g : SchemaGraph) (index : Nat) : Option ResolvedEntrypoint :=
  if d.kind = .entrypoint then (resolveEntrypoint g index d).1 else none

/-- An entrypoint takes its field. -/
def takenAfter (d : Declaration) (g : SchemaGraph) (index : Nat) (taken : List FieldId) : List FieldId :=
  (d.entrypoint? g index).toList.map (·.field) ++ taken

end Declaration

/-- Resolving goes on without errors where the declaration has none and its entrypoint is not taken. -/
theorem hasErrors_resolveFrom_cons (g : SchemaGraph) (index : Nat) (taken : List FieldId) (d : Declaration)
    (rest : List Declaration) :
    (resolveFrom g index taken (d :: rest)).2.hasErrors = false ↔
      (d.problems g index).hasErrors = false ∧ (∀ e ∈ d.entrypoint? g index, e.field ∉ taken) ∧
        (resolveFrom g (index + 1) (d.takenAfter g index taken) rest).2.hasErrors = false := by
  rw [resolveFrom, Declaration.takenAfter, Declaration.problems, Declaration.entrypoint?]
  by_cases kind : d.kind = .entrypoint
  · simp only [kind, if_true]
    cases errors : (resolveEntrypoint g index d).2.hasErrors with
    | true => simp [withoutErrors, errors, hasErrors_append]
    | false =>
      obtain ⟨e, resolved, -⟩ := exists_resolveEntrypoint errors
      by_cases known : e.field ∈ taken
      · have reported : (duplicateEntrypoint g d e.field).isError = true := rfl
        simp only [withoutErrors, errors, resolved, known, if_true, Bool.false_eq_true, if_false]
        rw [hasErrors_append, hasErrors_concat reported]
        simp [known]
      · simp [withoutErrors, errors, resolved, known, hasErrors_append]
  · simp [kind, withoutErrors, hasErrors_append]

/-- A declaration without errors whose entrypoint is not taken adds its own entrypoint. -/
theorem entrypoints_resolveFrom_cons {taken : List FieldId} (errors : (d.problems g index).hasErrors = false)
    (fresh : ∀ e ∈ d.entrypoint? g index, e.field ∉ taken) (rest : List Declaration) :
    (resolveFrom g index taken (d :: rest)).1.entrypoints = (d.entrypoint? g index).toList ++
      (resolveFrom g (index + 1) (d.takenAfter g index taken) rest).1.entrypoints := by
  rw [resolveFrom, Declaration.takenAfter]
  rw [Declaration.problems] at errors
  rw [Declaration.entrypoint?] at fresh ⊢
  by_cases kind : d.kind = .entrypoint
  · simp only [kind, if_true] at errors fresh ⊢
    obtain ⟨e, resolved, -⟩ := exists_resolveEntrypoint errors
    rw [resolved] at fresh
    simp [withoutErrors, errors, resolved, fresh e rfl]
  · simp [kind]

/-- The entrypoints that declarations are resolved to, each by itself. -/
def entrypointsFrom (g : SchemaGraph) (index : Nat) (declarations : List Declaration) : List ResolvedEntrypoint :=
  (declarations.zipIdx index).filterMap fun p => p.1.entrypoint? g p.2

theorem entrypointsFrom_cons (g : SchemaGraph) (index : Nat) (d : Declaration) (rest : List Declaration) :
    entrypointsFrom g index (d :: rest) =
      (d.entrypoint? g index).toList ++ entrypointsFrom g (index + 1) rest := by
  rw [entrypointsFrom, List.zipIdx_cons, List.filterMap_cons]
  cases d.entrypoint? g index <;> rfl

/-- Nothing is wrong with declarations exactly if nothing is wrong with any by itself and no field gets a
second entrypoint. -/
theorem hasErrors_resolveFrom (g : SchemaGraph) (declarations : List Declaration) :
    ∀ index taken, taken.Nodup →
      ((resolveFrom g index taken declarations).2.hasErrors = false ↔
        (∀ p ∈ declarations.zipIdx index, (p.1.problems g p.2).hasErrors = false) ∧
          ((entrypointsFrom g index declarations).map (·.field) ++ taken).Nodup) := by
  induction declarations with
  | nil =>
    intro index taken distinct
    simpa [resolveFrom, entrypointsFrom, hasErrors] using distinct
  | cons d rest ih =>
    intro index taken distinct
    rw [hasErrors_resolveFrom_cons, entrypointsFrom_cons, Declaration.takenAfter, List.zipIdx_cons,
      List.forall_mem_cons, List.map_append, List.append_assoc]
    cases d.entrypoint? g index with
    | none => simp [ih (index + 1) taken distinct, and_assoc]
    | some e =>
      by_cases known : e.field ∈ taken
      · simp [known]
      · have fresh : (e.field :: taken).Nodup := List.nodup_cons.2 ⟨known, distinct⟩
        have moved : ((entrypointsFrom g (index + 1) rest).map (·.field) ++ e.field :: taken).Perm
            (e.field :: ((entrypointsFrom g (index + 1) rest).map (·.field) ++ taken)) := List.perm_middle
        have later := ih (index + 1) (e.field :: taken) fresh
        simp only [Option.toList_some, List.map_cons, List.map_nil, List.singleton_append] at *
        rw [later, moved.nodup_iff]
        simp [known, and_assoc]

/-- Declarations without errors add their own entrypoints to those that follow. -/
theorem entrypoints_resolveFrom_append (g : SchemaGraph) (declarations more : List Declaration) :
    ∀ index taken, (resolveFrom g index taken declarations).2.hasErrors = false →
      ∃ taken', (resolveFrom g index taken (declarations ++ more)).1.entrypoints =
        entrypointsFrom g index declarations ++
          (resolveFrom g (index + declarations.length) taken' more).1.entrypoints := by
  induction declarations with
  | nil => exact fun _ taken _ => ⟨taken, rfl⟩
  | cons d rest ih =>
    intro index taken clean
    obtain ⟨errors, fresh, later⟩ := (hasErrors_resolveFrom_cons g index taken d rest).1 clean
    obtain ⟨taken', others⟩ := ih _ _ later
    refine ⟨taken', ?_⟩
    rw [List.cons_append, entrypoints_resolveFrom_cons errors fresh, others, entrypointsFrom_cons, List.append_assoc,
      List.length_cons, Nat.add_right_comm, Nat.add_assoc]

theorem entrypoints_resolveFrom (g : SchemaGraph) (declarations : List Declaration) (index : Nat)
    (taken : List FieldId) (clean : (resolveFrom g index taken declarations).2.hasErrors = false) :
    (resolveFrom g index taken declarations).1.entrypoints = entrypointsFrom g index declarations := by
  obtain ⟨taken', entrypoints⟩ := entrypoints_resolveFrom_append g declarations [] index taken clean
  rw [List.append_nil] at entrypoints
  exact entrypoints.trans (List.append_nil _)

/-! ## Summaries -/

/-- The summary of a declaration that is part of the graph is what it comes to with its index. -/
structure Declaration.Summary.Describes (s : Declaration.Summary) (σ : FieldId → FieldId) (g : SchemaGraph)
    (index : Nat) (d : Declaration) : Prop where
  reports : s.reports = (d.problems g index).plain
  entrypoint : s.entrypoint = (d.entrypoint? g index).map (.rename σ)
  field : (d.problems g index).hasErrors = false → s.field = (d.resolved? g index).map (.rename σ)

theorem SchemaGraph.Coherent.describes_summary (coherent : g.Coherent declarations)
    (known : declarations[index]? = some d) (σ : FieldId → FieldId) :
    (d.summary g σ).Describes σ g index d := by
  by_cases kind : d.kind = .entrypoint
  · have same : (resolveEntrypoint g (d.indexIn g) d).1.map (ResolvedEntrypoint.rename σ) =
          (resolveEntrypoint g index d).1.map (ResolvedEntrypoint.rename σ) ∧
        (resolveEntrypoint g (d.indexIn g) d).2 = (resolveEntrypoint g index d).2 := by
      rw [resolveEntrypoint, resolveEntrypoint]
      split
      · exact ⟨rfl, rfl⟩
      · dsimp only
        split <;> exact ⟨rfl, rfl⟩
    constructor <;> simp [Declaration.summary, Declaration.problems, Declaration.entrypoint?, Declaration.resolved?,
      kind, same]
  · have own : d.indexIn g = index := by
      obtain ⟨f, -, found, owned, -⟩ := coherent.exists_resolveField known kind
      rw [Declaration.indexIn, found, Option.bind_some, owned, Option.getD_some]
    have kept (clean : (resolveField g index d).2.hasErrors = false) :
        (withoutErrors (resolveField g index d)).1 = (resolveField g index d).1 := by
      simp [withoutErrors, clean]
    constructor <;> simp +contextual [Declaration.summary, Declaration.problems, Declaration.entrypoint?,
      Declaration.resolved?, kind, own, kept]

/-- Whether no report is an error. -/
def Declaration.Summary.isClean (s : Declaration.Summary) : Bool := !s.reports.hasErrors

theorem Declaration.Summary.Describes.isClean {s : Declaration.Summary} (h : s.Describes σ g index d) :
    s.isClean = !(d.problems g index).hasErrors := by
  rw [Declaration.Summary.isClean, h.reports, Diagnostics.hasErrors_plain]

/-- Going through declarations with their indices without looking at these is going through declarations. -/
theorem filterMap_zipIdx {β : Type} {f : Declaration × Nat → Option β} {h : Declaration → Option β}
    (same : ∀ i d, declarations[i]? = some d → f (d, i) = h d) :
    declarations.zipIdx.filterMap f = declarations.filterMap h := by
  have plain : declarations.filterMap h = declarations.zipIdx.filterMap fun p => h p.1 := by
    conv_lhs => rw [← List.zipIdx_map_fst 0 declarations, List.filterMap_map]
    rfl
  rw [plain]
  refine List.filterMap_congr fun p member => ?_
  exact same p.2 p.1 (List.mem_zipIdx_iff_getElem?.1 member)

namespace SchemaGraph.Coherent

variable (coherent : g.Coherent declarations)
include coherent

theorem map_rename_entrypointsFrom (σ : FieldId → FieldId) :
    (entrypointsFrom g 0 declarations).map (.rename σ) =
      (declarations.map (·.summary g σ)).filterMap (·.entrypoint) := by
  rw [entrypointsFrom, List.map_filterMap, List.filterMap_map]
  exact filterMap_zipIdx fun i d known => (coherent.describes_summary known σ).entrypoint.symm

/-- Whether anything is wrong with the declarations can be told from their summaries. -/
theorem hasErrors_ofDeclarations (injective : Function.Injective σ) :
    (Resolution.ofDeclarations g declarations).2.hasErrors = false ↔
      (∀ s ∈ declarations.map (·.summary g σ), s.isClean = true) ∧
        (((declarations.map (·.summary g σ)).filterMap (·.entrypoint)).map (·.field)).Nodup := by
  rw [Resolution.ofDeclarations, hasErrors_resolveFrom g declarations 0 [] .nil, List.append_nil]
  refine and_congr ?_ ?_
  · rw [List.forall_mem_map]
    constructor
    · intro clean d member
      obtain ⟨i, known⟩ := List.mem_iff_getElem?.1 member
      rw [(coherent.describes_summary known σ).isClean, clean (d, i) (List.mem_zipIdx_iff_getElem?.2 known)]
      rfl
    · intro clean p member
      have known := List.mem_zipIdx_iff_getElem?.1 member
      have described := (coherent.describes_summary known σ).isClean
      rw [clean p.1 (List.mem_of_getElem? known)] at described
      simpa using described.symm
  · have fields : (((declarations.map (·.summary g σ)).filterMap (·.entrypoint)).map (·.field)) =
        ((entrypointsFrom g 0 declarations).map (·.field)).map σ := by
      rw [← coherent.map_rename_entrypointsFrom, List.map_map, List.map_map]
      rfl
    rw [fields, List.nodup_map_iff injective]

theorem map_rename_fields (σ : FieldId → FieldId)
    (clean : (Resolution.ofDeclarations g declarations).2.hasErrors = false) :
    (Resolution.ofDeclarations g declarations).1.fields.map (.rename σ) =
      (declarations.map (·.summary g σ)).filterMap (·.field) := by
  obtain ⟨errors, -⟩ := (hasErrors_resolveFrom g declarations 0 [] .nil).1 clean
  rw [Resolution.ofDeclarations, fields_resolveFrom, List.map_filterMap, List.filterMap_map]
  exact filterMap_zipIdx fun i d known =>
    ((coherent.describes_summary known σ).field (errors (d, i) (List.mem_zipIdx_iff_getElem?.2 known))).symm

theorem map_rename_entrypoints (σ : FieldId → FieldId)
    (clean : (Resolution.ofDeclarations g declarations).2.hasErrors = false) :
    (Resolution.ofDeclarations g declarations).1.entrypoints.map (.rename σ) =
      (declarations.map (·.summary g σ)).filterMap (·.entrypoint) := by
  rw [← coherent.map_rename_entrypointsFrom, Resolution.ofDeclarations,
    entrypoints_resolveFrom g declarations 0 [] clean]

end SchemaGraph.Coherent

/-! ## Renamed resolutions -/

/-- In lists that are the same up to order and numbers, what has a number is found under the other number. -/
theorem find?_of_perm_rename {α : Type} {key : α → FieldId} {change change' : α → α} {xs xs' : List α}
    (injective : Function.Injective σ) (perm : (xs'.map change').Perm (xs.map change))
    (distinct : (xs.map key).Nodup) (keys : ∀ a, key (change a) = σ (key a))
    (keys' : ∀ a, key (change' a) = key a) (x : FieldId) :
    (xs'.find? (key · = σ x)).map change' = (xs.find? (key · = x)).map change := by
  have found : (xs.find? (key · = x)).map change = (xs.map change).find? (key · = σ x) := by
    rw [List.find?_map]
    simp only [Function.comp_def, keys, injective.eq_iff]
  have found' : (xs'.find? (key · = σ x)).map change' = (xs'.map change').find? (key · = σ x) := by
    rw [List.find?_map]
    simp only [Function.comp_def, keys']
  have renamed : ((xs.map change).map key).Nodup := by
    have numbers : (xs.map change).map key = (xs.map key).map σ := by
      simp only [List.map_map, Function.comp_def, keys]
    rw [numbers]
    exact distinct.map injective
  rw [found, found']
  refine (List.find?_eq_find?_of_perm perm.symm fun a here b there => ?_).symm
  rw [Set.mem_ofPred_eq, decide_eq_true_eq] at here there
  exact List.inj_on_of_nodup_map renamed here.1 there.1 (here.2.trans there.2.symm)

/-- One resolution is part of another, where its fields have other numbers and places. The other resolution may
have more fields, as long as these have numbers of their own. -/
structure Resolution.Embeds (σ : FieldId → FieldId) (r r' : Resolution) : Prop where
  injective : Function.Injective σ
  field? : ∀ x, (r'.field? (σ x)).map (ResolvedField.rename id) = (r.field? x).map (ResolvedField.rename σ)
  entrypoints : (r'.entrypoints.map (ResolvedEntrypoint.rename id)).Perm
    (r.entrypoints.map (ResolvedEntrypoint.rename σ))
  unique : (r.entrypoints.map (·.field)).Nodup

/-- One resolution is the other with the numbers of fields changed, in some order and without places; no
field is in it twice, as a field or as that of an entrypoint. -/
structure Resolution.Renames (σ : FieldId → FieldId) (r r' : Resolution) : Prop extends r.Embeds σ r' where
  fields : (r'.fields.map (ResolvedField.rename id)).Perm (r.fields.map (ResolvedField.rename σ))
  distinct : (r.fields.map (·.field)).Nodup
  field? := find?_of_perm_rename injective fields distinct (fun _ => rfl) (fun _ => rfl)

section Embedded

variable {r r' : Resolution}

theorem Resolution.Renames.length (h : r.Renames σ r') : r'.fields.length = r.fields.length := by
  simpa using h.fields.length_eq

namespace Resolution.Embeds

theorem isSome_field? (h : r.Embeds σ r') (x : FieldId) : (r'.field? (σ x)).isSome = (r.field? x).isSome := by
  simpa using congrArg Option.isSome (h.field? x)

/-- A number is that of no field in either resolution, or of fields that are the same in both. -/
theorem field?_cases (h : r.Embeds σ r') (x : FieldId) :
    (r.field? x = none ∧ r'.field? (σ x) = none) ∨
      ∃ f f', r.field? x = some f ∧ r'.field? (σ x) = some f' ∧ f'.rename id = f.rename σ := by
  have same := h.field? x
  cases found : r.field? x with
  | none =>
    rw [found, Option.map_none, Option.map_eq_none_iff] at same
    exact .inl ⟨rfl, same⟩
  | some f =>
    rw [found, Option.map_some, Option.map_eq_some_iff] at same
    obtain ⟨f', found', same⟩ := same
    exact .inr ⟨f, f', rfl, found', same⟩

end Resolution.Embeds

end Embedded

/-- No field is resolved twice. -/
theorem nodup_fields_ofDeclarations (g : SchemaGraph) (declarations : List Declaration) :
    ((Resolution.ofDeclarations g declarations).1.fields.map (·.field)).Nodup := by
  have indices : declarations.zipIdx.Pairwise fun p q => p.2 ≠ q.2 :=
    List.pairwise_map.1 (List.nodup_zipIdx_map_snd declarations)
  rw [Resolution.ofDeclarations, fields_resolveFrom, List.Nodup, List.pairwise_map]
  refine List.Pairwise.filterMap _ (fun p q other f first f' second same => other ?_) indices
  have resolved {p : Declaration × Nat} {f : ResolvedField} (run : p.1.resolved? g p.2 = some f) :
      (g.field f.field).declaration? = some p.2 := by
    rw [Declaration.resolved?] at run
    split at run
    · cases run
    · rename_i kind
      obtain ⟨comes, own⟩ := resolvedFrom_resolveField kind run
      rw [comes.origin, own]
  have origins := resolved first
  rw [same, resolved second] at origins
  exact (Option.some.inj origins).symm

/-- Declarations that are the same but for places and their order resolve to the same fields and
entrypoints where the fields have other numbers. -/
theorem SchemaGraph.Coherent.renames_ofDeclarations (coherent : g.Coherent declarations)
    (coherent' : g'.Coherent declarations') (h : g.Renames g' σ)
    (same : (declarations.map Declaration.bare).Perm (declarations'.map Declaration.bare))
    (clean : (Resolution.ofDeclarations g declarations).2.hasErrors = false) :
    (Resolution.ofDeclarations g' declarations').2.hasErrors = false ∧
      (Resolution.ofDeclarations g declarations).1.Renames σ (Resolution.ofDeclarations g' declarations').1 := by
  have summaries : (declarations'.map (·.summary g' id)).Perm (declarations.map (·.summary g σ)) := by
    have other : declarations'.map (·.summary g' id) =
        (declarations'.map Declaration.bare).map (·.summary g' id) := by
      rw [List.map_map]
      exact List.map_congr_left fun d _ => (d.summary_bare (.refl g')).symm
    have this : declarations.map (·.summary g σ) =
        (declarations.map Declaration.bare).map (·.summary g' id) := by
      rw [List.map_map]
      exact List.map_congr_left fun d _ => (d.summary_bare h).symm
    rw [other, this]
    exact same.symm.map _
  obtain ⟨each, unique⟩ := (coherent.hasErrors_ofDeclarations h.injective).1 clean
  have clean' : (Resolution.ofDeclarations g' declarations').2.hasErrors = false := by
    refine (coherent'.hasErrors_ofDeclarations Function.injective_id).2 ⟨fun s member => ?_, ?_⟩
    · exact each s (summaries.mem_iff.1 member)
    · exact (((summaries.filterMap _).map _).nodup_iff).2 unique
  have fields : ((Resolution.ofDeclarations g' declarations').1.fields.map (ResolvedField.rename id)).Perm
      ((Resolution.ofDeclarations g declarations).1.fields.map (ResolvedField.rename σ)) := by
    rw [coherent.map_rename_fields σ clean, coherent'.map_rename_fields id clean']
    exact summaries.filterMap _
  have entrypoints : ((Resolution.ofDeclarations g' declarations').1.entrypoints.map
      (ResolvedEntrypoint.rename id)).Perm
      ((Resolution.ofDeclarations g declarations).1.entrypoints.map (ResolvedEntrypoint.rename σ)) := by
    rw [coherent.map_rename_entrypoints σ clean, coherent'.map_rename_entrypoints id clean']
    exact summaries.filterMap _
  rw [← coherent.map_rename_entrypoints σ clean, List.map_map] at unique
  have distinct := nodup_fields_ofDeclarations g declarations
  have unique : ((Resolution.ofDeclarations g declarations).1.entrypoints.map (·.field)).Nodup :=
    .of_map σ (by rwa [List.map_map])
  exact ⟨clean', { injective := h.injective, fields, entrypoints, distinct, unique }⟩

end IsoLiteral
