import IsoLiteral.Proofs.Resolution.Findings
import IsoLiteral.Proofs.Schema.Coherent

/-!
# What becomes of a declaration

Whatever is found wrong with a declaration while it is resolved is a diagnostic about the literal that
declares it. As no two declarations come from one literal, a declaration has errors of its own exactly if
some error among all that were found is about its literal. Without such an error, the field that it
declares is resolved, and so is the entrypoint.
-/

namespace IsoLiteral

namespace Diagnostics

/-- All diagnostics are about one literal. -/
def AreIn (source : Nat) (ds : Diagnostics) : Prop := ∀ d ∈ ds, d.isIn source = true

variable {source : Nat} {ds es : Diagnostics}

theorem areIn_nil : AreIn source [] := fun _ none => absurd none List.not_mem_nil

theorem AreIn.cons {d : Diagnostic} (here : d.isIn source = true) (h : AreIn source ds) :
    AreIn source (d :: ds) :=
  List.forall_mem_cons.2 ⟨here, h⟩

theorem AreIn.append (h : AreIn source ds) (h' : AreIn source es) : AreIn source (ds ++ es) :=
  List.forall_mem_append.2 ⟨h, h'⟩

theorem areIn_map {α : Type} {report : α → Diagnostic} {xs : List α}
    (here : ∀ a, (report a).isIn source = true) : AreIn source (xs.map report) := by
  intro d member
  obtain ⟨a, -, rfl⟩ := List.mem_map.1 member
  exact here a

theorem areIn_filterMap {α : Type} {report? : α → Option Diagnostic} {xs : List α}
    (here : ∀ a d, report? a = some d → d.isIn source = true) : AreIn source (xs.filterMap report?) := by
  intro d member
  obtain ⟨a, -, reported⟩ := List.mem_filterMap.1 member
  exact here a d reported

theorem areIn_toList {d? : Option Diagnostic} (here : ∀ d, d? = some d → d.isIn source = true) :
    AreIn source d?.toList :=
  fun d member => here d (Option.mem_toList.1 member)

theorem hasErrorsIn_append (ds es : Diagnostics) (source : Nat) :
    hasErrorsIn (ds ++ es) source = (ds.hasErrorsIn source || es.hasErrorsIn source) := List.any_append

theorem hasErrors_concat {d : Diagnostic} (error : d.isError = true) : hasErrors (ds ++ [d]) = true := by
  rw [hasErrors_append, hasErrors, hasErrors, List.any_cons, error, Bool.true_or, Bool.or_true]

/-- Among diagnostics about a literal, all errors are errors in it. -/
theorem AreIn.hasErrorsIn (h : AreIn source ds) : ds.hasErrorsIn source = ds.hasErrors := by
  induction ds with
  | nil => rfl
  | cons d rest ih =>
    obtain ⟨here, others⟩ := List.forall_mem_cons.1 h
    have later := ih others
    simp only [Diagnostics.hasErrorsIn, hasErrors, List.any_cons, here, Bool.and_true] at later ⊢
    rw [later]

/-- A diagnostic is about one literal only. -/
theorem eq_of_isIn {d : Diagnostic} {i j : Nat} (here : d.isIn i = true) (there : d.isIn j = true) : i = j := by
  simp only [Diagnostic.isIn, Option.any_eq_true, decide_eq_true_eq] at here there
  obtain ⟨span, placed, rfl⟩ := here
  obtain ⟨span', placed', rfl⟩ := there
  rw [placed] at placed'
  cases placed'
  rfl

/-- Diagnostics about other literals are no errors in this one. -/
theorem hasErrorsIn_of_elsewhere (elsewhere : ∀ d ∈ ds, ∃ i ≠ source, d.isIn i = true) :
    ds.hasErrorsIn source = false := by
  refine List.any_eq_false.2 fun d member error => ?_
  obtain ⟨i, other, there⟩ := elsewhere d member
  rw [Bool.and_eq_true] at error
  exact other (eq_of_isIn there error.2)

end Diagnostics

open Diagnostics

/-! ## Directives and arguments -/

theorem isIn_of_flagProblem? {source : Nat} {known : KnownDirective} {a : Argument} {d : Diagnostic}
    (reported : flagProblem? source known a = some d) : d.isIn source = true := by
  unfold flagProblem? at reported
  split at reported
  · split at reported
    · cases reported
    · split at reported <;> (obtain rfl := Option.some.inj reported; simp)
  · obtain rfl := Option.some.inj reported
    simp

theorem isIn_of_placementProblem? {source : Nat} {position : DirectivePosition} {known : KnownDirective}
    {directive : Directive} {d : Diagnostic}
    (reported : placementProblem? source position known directive = some d) : d.isIn source = true := by
  unfold placementProblem? at reported
  split at reported
  · cases reported
  · obtain rfl := Option.some.inj reported
    simp

theorem areIn_directiveProblems (source : Nat) (position : DirectivePosition) (directives : List Directive) :
    ∀ seen, AreIn source (directiveProblems source position seen directives) := by
  induction directives with
  | nil => exact fun _ => areIn_nil
  | cons d rest ih =>
    intro seen
    rw [directiveProblems]
    split
    · exact (ih seen).cons (by simp)
    · split
      · exact (ih seen).cons (by simp)
      · exact ((areIn_toList fun _ => isIn_of_placementProblem?).append
          (areIn_filterMap fun _ _ => isIn_of_flagProblem?)).append (ih _)

theorem areIn_conflicts (source : Nat) (present : List (KnownDirective × Directive)) :
    AreIn source (conflicts source present) := by
  induction present with
  | nil => exact areIn_nil
  | cons first rest ih =>
    refine AreIn.append (areIn_filterMap fun second d reported => ?_) ih
    unfold conflict? at reported
    split at reported
    · obtain rfl := Option.some.inj reported
      simp
    · cases reported

theorem areIn_checkDirectives (source : Nat) (position : DirectivePosition) (directives : List Directive) :
    AreIn source (checkDirectives source position directives) := by
  unfold checkDirectives
  split
  · exact areIn_map fun _ => by simp
  · exact (areIn_directiveProblems source position directives []).append (areIn_conflicts source _)

namespace SelectionScope

theorem isIn_of_argumentProblem? {c : SelectionScope} {field : FieldDefinition} {a : Argument}
    {d : Diagnostic} (reported : c.argumentProblem? field a = some d) : d.isIn c.source = true := by
  unfold argumentProblem? at reported
  split at reported
  · obtain rfl := Option.some.inj reported
    simp [unknownArgument]
  · obtain ⟨error, -, rfl⟩ := Option.map_eq_some_iff.1 reported
    cases error <;> simp [valueProblem]

theorem areIn_argumentProblems (c : SelectionScope) (field : FieldDefinition) (name : Name)
    (arguments : List Argument) (loadable : Bool) :
    AreIn c.source (c.argumentProblems field name arguments loadable) := by
  refine AreIn.append (areIn_filterMap fun _ _ => isIn_of_argumentProblem?) ?_
  unfold missingArguments
  split
  · exact areIn_nil
  · exact areIn_map fun _ => by simp [missingArgument]

/-! ## Selections -/

theorem areIn_bracesProblem (c : SelectionScope) (field : FieldId) (name : Name) (hasBraces : Bool) :
    AreIn c.source (c.bracesProblem field name hasBraces) := by
  unfold bracesProblem
  split
  · exact areIn_nil.cons (by simp [unexpectedBraces])
  · exact areIn_nil

theorem areIn_loadableProblems (c : SelectionScope) (field : FieldId) (kind : ArtifactKind) (name : Name)
    (loadable : Bool) : AreIn c.source (c.loadableProblems field kind name loadable) := by
  refine AreIn.append ?_ ?_
  · split
    · exact areIn_nil.cons (by simp [loadableRequired])
    · exact areIn_nil
  · split
    · exact areIn_nil.cons (by simp [loadableRequiresId])
    · exact areIn_nil

theorem areIn_pointerProblem (c : SelectionScope) (field : FieldId) (target : TypeId) (name : Name) :
    AreIn c.source (c.pointerProblem field target name) := by
  unfold pointerProblem
  split
  · exact areIn_nil.cons (by simp [pointerRequiresId])
  · exact areIn_nil

theorem areIn_nestedFindings (c : SelectionScope) (field : FieldId) (name : Name) (hasBraces : Bool)
    (form : List ResolvedSelection → ResolvedSelection) {findings : Option Findings}
    (inside : ∀ found, findings = some found → AreIn c.source found.diagnostics) :
    AreIn c.source (c.nestedFindings field name hasBraces form findings).diagnostics := by
  cases findings with
  | none => exact areIn_nil.cons (by simp [emptyProblem])
  | some found => exact inside found rfl

mutual
theorem areIn_resolveSelection (c : SelectionScope) (parent : TypeId) (selection : Selection) :
    AreIn c.source (c.resolveSelection parent selection).diagnostics := by
  obtain ⟨label, name, arguments, directives, selectionSet, range⟩ := selection
  rw [resolveSelection]
  split
  · exact areIn_nil.cons (by simp [unknownField])
  · rename_i id found
    have checked := (areIn_checkDirectives c.source (positionOf (c.schema.field id).kind) directives).append
      (c.areIn_argumentProblems (c.schema.field id) name arguments
        (appliedDirectives (positionOf (c.schema.field id).kind) directives).loadable.isSome)
    refine checked.append ?_
    split
    · exact c.areIn_bracesProblem id name _
    · exact c.areIn_bracesProblem id name _
    · exact (c.areIn_bracesProblem id name _).append (c.areIn_loadableProblems id _ name _)
    · exact c.areIn_nestedFindings id name _ _ (c.areIn_resolveSelectionSet? _ selectionSet)
    · exact (c.areIn_pointerProblem id _ name).append
        (c.areIn_nestedFindings id name _ _ (c.areIn_resolveSelectionSet? _ selectionSet))
theorem areIn_resolveSelectionSet? (c : SelectionScope) (parent : TypeId)
    (set : Option (List Selection)) (findings : Findings)
    (found : c.resolveSelectionSet? parent set = some findings) : AreIn c.source findings.diagnostics := by
  cases set with
  | none => simp [resolveSelectionSet?] at found
  | some selections =>
    rw [resolveSelectionSet?] at found
    have inside := c.areIn_resolveSelections parent selections
    split at found
    · cases found
    · obtain rfl := Option.some.inj found
      exact inside
theorem areIn_resolveSelections (c : SelectionScope) (parent : TypeId) (selections : List Selection) :
    AreIn c.source (c.resolveSelections parent selections).diagnostics := by
  cases selections with
  | nil => exact areIn_nil
  | cons selection rest =>
    have first := c.areIn_resolveSelection parent selection
    have others := c.areIn_resolveSelections parent rest
    exact first.append others
end

/-! ## Declarations -/

theorem areIn_bodyProblems (c : SelectionScope) (parent : TypeId) {findings : Findings}
    (inside : AreIn c.source findings.diagnostics) : AreIn c.source (c.bodyProblems parent findings) := by
  refine (((areIn_filterMap fun v d reported => ?_).append inside).append
    (areIn_toList fun d reported => ?_)).append (areIn_map fun _ => by simp)
  · unfold variableProblem? at reported
    dsimp only at reported
    split at reported
    · obtain ⟨value, -, rest⟩ := Option.bind_eq_some_iff.1 reported
      obtain ⟨error, -, same⟩ := Option.bind_eq_some_iff.1 rest
      obtain rfl := Option.some.inj same
      simp
    · obtain rfl := Option.some.inj reported
      simp
  · obtain ⟨v, -, rest⟩ := Option.bind_eq_some_iff.1 reported
    split at rest
    · cases rest
    · obtain rfl := Option.some.inj rest
      simp

end SelectionScope

variable {g : SchemaGraph} {index : Nat} {d : Declaration}

theorem areIn_resolveField (g : SchemaGraph) (index : Nat) (d : Declaration) :
    AreIn d.source (resolveField g index d).2 := by
  have directives := areIn_checkDirectives d.source d.kind.position d.directives
  rw [resolveField_eq]
  split
  · exact areIn_nil
  · dsimp only
    split
    · split
      · exact directives
      · exact directives.append (SelectionScope.areIn_bodyProblems _ _ (SelectionScope.areIn_resolveSelections _ _ _))
    · exact areIn_nil

theorem areIn_resolveEntrypoint (g : SchemaGraph) (index : Nat) (d : Declaration) :
    AreIn d.source (resolveEntrypoint g index d).2 := by
  have directives := areIn_checkDirectives d.source d.kind.position d.directives
  unfold resolveEntrypoint
  split
  · exact directives.append (areIn_nil.cons (by simp))
  · split
    · exact directives.append (areIn_nil.cons (by simp))
    · exact directives

/-- An entrypoint without errors is resolved to the declared field that it names. -/
theorem exists_resolveEntrypoint (clean : (resolveEntrypoint g index d).2.hasErrors = false) :
    ∃ e, (resolveEntrypoint g index d).1 = some e ∧
      g.fieldByName? d.parentType.text d.fieldName.text = some e.field ∧
      (g.field e.field).declaration?.isSome = true := by
  unfold resolveEntrypoint at clean ⊢
  split at clean
  · cases clean.symm.trans (hasErrors_concat rfl)
  · rename_i parent root
    dsimp only at clean ⊢
    split at clean
    · cases clean.symm.trans (hasErrors_concat rfl)
    · rename_i field found
      obtain ⟨named, -⟩ := Option.filter_eq_some_iff.1 root
      obtain ⟨listed, declared⟩ := Option.filter_eq_some_iff.1 found
      rw [Bool.and_eq_true] at declared
      refine ⟨_, rfl, ?_, declared.1⟩
      rw [SchemaGraph.fieldByName?, named]
      exact listed

/-- The resolved field that a declaration adds to a resolution, if it declares one and has no errors. -/
def Declaration.resolved? (d : Declaration) (g : SchemaGraph) (index : Nat) : Option ResolvedField :=
  if d.kind = .entrypoint then none else (withoutErrors (resolveField g index d)).1

/-- What one declaration adds to a resolution: a field or an entrypoint, and what is wrong with it. -/
structure Contributes (g : SchemaGraph) (index : Nat) (d : Declaration) (field : Option ResolvedField)
    (entrypoint : Option ResolvedEntrypoint) (problems : Diagnostics) : Prop where
  located : AreIn d.source problems
  field : field = d.resolved? g index
  ofField : d.kind ≠ .entrypoint → problems = (resolveField g index d).2
  ofEntrypoint : d.kind = .entrypoint → problems.hasErrors = false →
    (resolveEntrypoint g index d).2.hasErrors = false ∧ entrypoint = (resolveEntrypoint g index d).1

/-- One declaration adds what it contributes and the others what they do. Which entrypoints are taken
matters for what the others contribute only. -/
theorem resolveFrom_cons (g : SchemaGraph) (index : Nat) (taken : List FieldId) (d : Declaration)
    (rest : List Declaration) :
    ∃ taken' field entrypoint problems, Contributes g index d field entrypoint problems ∧
      resolveFrom g index taken (d :: rest) =
        let others := resolveFrom g (index + 1) taken' rest
        (⟨field.toList ++ others.1.fields, entrypoint.toList ++ others.1.entrypoints⟩,
          problems ++ others.2) := by
  rw [resolveFrom]
  split
  · rename_i kind
    have located := areIn_resolveEntrypoint g index d
    have form {entrypoint problems} (known : problems.hasErrors = false →
        (resolveEntrypoint g index d).2.hasErrors = false ∧ entrypoint = (resolveEntrypoint g index d).1)
        (here : AreIn d.source problems) : Contributes g index d none entrypoint problems :=
      ⟨here, (if_pos kind).symm, fun other => absurd kind other, fun _ => known⟩
    dsimp only
    split
    · rename_i dropped
      refine ⟨taken, none, none, _, form (fun clean => ⟨clean, ?_⟩) located, rfl⟩
      simpa [withoutErrors, clean] using dropped.symm
    · rename_i e kept
      split
      · refine ⟨taken, none, none, _, form (fun clean => ?_) (located.append
          (areIn_nil.cons (by simp [duplicateEntrypoint]))), rfl⟩
        cases clean.symm.trans (hasErrors_concat rfl)
      · refine ⟨e.field :: taken, none, some e, _, form (fun clean => ⟨clean, ?_⟩) located, rfl⟩
        simpa [withoutErrors, clean] using kept.symm
  · rename_i kind
    exact ⟨taken, _, none, _, ⟨areIn_resolveField g index d, (if_neg kind).symm, fun _ => rfl,
      fun other => absurd other kind⟩, rfl⟩

/-- The resolved fields are those of the declarations in order. -/
theorem fields_resolveFrom (g : SchemaGraph) (declarations : List Declaration) :
    ∀ index taken, (resolveFrom g index taken declarations).1.fields =
      (declarations.zipIdx index).filterMap fun p => p.1.resolved? g p.2 := by
  induction declarations with
  | nil => exact fun _ _ => rfl
  | cons d rest ih =>
    intro index taken
    obtain ⟨taken', field, entrypoint, problems, adds, same⟩ := resolveFrom_cons g index taken d rest
    rw [same, List.zipIdx_cons, List.filterMap_cons, ← adds.field]
    dsimp only
    rw [ih (index + 1) taken']
    cases field <;> rfl

/-- Everything that is found wrong is about the literal of some declaration. -/
theorem exists_isIn_of_mem_resolveFrom (g : SchemaGraph) (declarations : List Declaration) :
    ∀ index taken, ∀ problem ∈ (resolveFrom g index taken declarations).2,
      ∃ d ∈ declarations, problem.isIn d.source = true := by
  induction declarations with
  | nil => exact fun _ _ _ none => absurd none List.not_mem_nil
  | cons d rest ih =>
    intro index taken problem member
    obtain ⟨taken', field, entrypoint, problems, adds, same⟩ := resolveFrom_cons g index taken d rest
    rw [same] at member
    rcases List.mem_append.1 member with own | later
    · exact ⟨d, List.mem_cons_self, adds.located problem own⟩
    · obtain ⟨e, listed, here⟩ := ih (index + 1) taken' problem later
      exact ⟨e, List.mem_cons_of_mem d listed, here⟩

/-- What a resolution and its problems say of a declaration. -/
structure Settles (g : SchemaGraph) (index : Nat) (d : Declaration)
    (outcome : Resolution × Diagnostics) : Prop where
  ofField : d.kind ≠ .entrypoint →
    outcome.2.hasErrorsIn d.source = (resolveField g index d).2.hasErrors
  ofEntrypoint : d.kind = .entrypoint → outcome.2.hasErrorsIn d.source = false →
    ∃ e ∈ outcome.1.entrypoints, g.fieldByName? d.parentType.text d.fieldName.text = some e.field ∧
      (g.field e.field).declaration?.isSome = true

theorem settles_resolveFrom (g : SchemaGraph) {declarations : List Declaration}
    (distinct : (declarations.map (·.source)).Nodup) :
    ∀ index taken k d, declarations[k]? = some d →
      Settles g (index + k) d (resolveFrom g index taken declarations) := by
  induction declarations with
  | nil =>
    intro index taken k d here
    cases here
  | cons first rest ih =>
    intro index taken k d here
    obtain ⟨taken', field, entrypoint, problems, adds, same⟩ := resolveFrom_cons g index taken first rest
    obtain ⟨fresh, distinct⟩ := List.nodup_cons.1 distinct
    rw [same]
    cases k with
    | zero =>
      obtain rfl : first = d := Option.some.inj here
      -- the others come from other literals
      have quiet : (resolveFrom g (index + 1) taken' rest).2.hasErrorsIn first.source = false := by
        refine hasErrorsIn_of_elsewhere fun problem member => ?_
        obtain ⟨e, listed, there⟩ := exists_isIn_of_mem_resolveFrom g rest _ _ problem member
        exact ⟨e.source, fun same => fresh (List.mem_map.2 ⟨e, listed, same⟩), there⟩
      have own : (problems ++ (resolveFrom g (index + 1) taken' rest).2).hasErrorsIn first.source =
          problems.hasErrors := by
        rw [hasErrorsIn_append, quiet, Bool.or_false, adds.located.hasErrorsIn]
      refine ⟨fun kind => ?_, fun kind clean => ?_⟩
      · rw [own, adds.ofField kind, Nat.add_zero]
      · obtain ⟨clean, added⟩ := adds.ofEntrypoint kind (own.symm.trans clean)
        obtain ⟨e, resolved, found⟩ := exists_resolveEntrypoint clean
        rw [resolved] at added
        exact ⟨e, List.mem_append_left _ (by simp [added]), found⟩
    | succ k =>
      have settles := ih distinct (index + 1) taken' k d here
      have own : (problems ++ (resolveFrom g (index + 1) taken' rest).2).hasErrorsIn d.source =
          (resolveFrom g (index + 1) taken' rest).2.hasErrorsIn d.source := by
        have listed : d ∈ rest := List.mem_of_getElem? (by simpa using here)
        have quiet : problems.hasErrorsIn d.source = false :=
          hasErrorsIn_of_elsewhere fun problem member =>
            ⟨first.source, fun same => fresh (List.mem_map.2 ⟨d, listed, same.symm⟩),
              adds.located problem member⟩
        rw [hasErrorsIn_append, quiet, Bool.false_or]
      have place : index + 1 + k = index + (k + 1) := by omega
      rw [place] at settles
      refine ⟨fun kind => own.trans (settles.ofField kind), fun kind clean => ?_⟩
      obtain ⟨e, listed, found⟩ := settles.ofEntrypoint kind (own.symm.trans clean)
      exact ⟨e, List.mem_append_right _ listed, found⟩

/-! ## Declared fields -/

theorem FieldDefinition.declaration?_eq_some {f : FieldDefinition} :
    f.declaration? = some index ↔ f.origin = .declared index := by
  unfold declaration?
  split
  · rename_i same
    rw [same, Option.some.injEq, FieldOrigin.declared.injEq]
  · rename_i other
    exact ⟨nofun, fun same => absurd same (other index)⟩

/-- A declaration of a coherent graph that is no entrypoint is resolved to the field that it owns. -/
theorem SchemaGraph.Coherent.exists_resolveField {declarations : List Declaration}
    (coherent : g.Coherent declarations) (known : declarations[index]? = some d)
    (kind : d.kind ≠ .entrypoint) :
    ∃ f, (resolveField g index d).1 = some f ∧
      g.fieldByName? d.parentType.text d.fieldName.text = some f.field ∧
      (g.field f.field).declaration? = some index ∧
      ∀ other : FieldId, other.index < g.fields.length → (g.field other).declaration? = some index →
        other = f.field := by
  obtain ⟨id, found, declares, origin⟩ := coherent.owned index d known kind
  obtain ⟨valid, -⟩ := (coherent.fields _ _ id).1 found
  have own := FieldDefinition.declaration?_eq_some.2 ((origin id valid).2 rfl)
  have form : ∃ artifactKind pointerTarget,
      declaredForm? (g.field id).kind = some (artifactKind, pointerTarget) := by
    unfold SchemaGraph.Declares at declares
    split at declares
    · obtain ⟨target, type, -, -, same⟩ := declares
      rw [same]
      exact ⟨_, _, rfl⟩
    · rw [declares]
      exact ⟨_, _, rfl⟩
  obtain ⟨artifactKind, pointerTarget, form⟩ := form
  rw [resolveField_eq]
  simp only [found, own, if_true, form]
  exact ⟨_, rfl, rfl, own, fun other inside same =>
    (origin other inside).1 (FieldDefinition.declaration?_eq_some.1 same)⟩

end IsoLiteral
