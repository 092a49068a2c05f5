import IsoLiteral.Proofs.Declaration.Clean
import IsoLiteral.Proofs.Graph.Reference
import IsoLiteral.Proofs.Resolution.Form

/-!
# Resolved fields mirror their declarations

Resolving goes on after an error and leaves out what it could not resolve. A field without errors has
lost nothing all the same: its selections stand for the written ones one by one, and each of them is as
its field asks for. `Mirrors` says this of a selection and all selections inside it. The argument is the
same for every rule: whatever breaks it is reported, and what is reported is an error.
-/

namespace IsoLiteral

/-! ## Clean reports -/

theorem Diagnostics.eq_nil_of_hasErrors_eq_false {ds : Diagnostics} (errors : ∀ d ∈ ds, d.isError = true)
    (clean : ds.hasErrors = false) : ds = [] := by
  rw [List.eq_nil_iff_forall_not_mem]
  intro d member
  have none := List.any_eq_false.1 clean d member
  exact none (errors d member)

/-- What is clean as a whole is clean in both parts. -/
theorem Diagnostics.clean_append {ds es : Diagnostics} :
    Diagnostics.hasErrors (ds ++ es) = false ↔ ds.hasErrors = false ∧ es.hasErrors = false := by
  rw [Diagnostics.hasErrors_append, Bool.or_eq_false_iff]

/-- An error that would be reported is not there where the report is clean. -/
theorem Diagnostics.not_of_clean_ite {p : Prop} [Decidable p] {d : Diagnostic} (error : d.isError = true)
    (clean : Diagnostics.hasErrors (if p then [d] else []) = false) : ¬ p := by
  intro holds
  rw [if_pos holds, Diagnostics.hasErrors, List.any_cons, error] at clean
  cases clean

/-! ## Directives -/

/-- The name of a known directive is that of no other one. -/
theorem KnownDirective.ofName?_eq_some_iff {name : String} {known : KnownDirective} :
    KnownDirective.ofName? name = some known ↔ known.name = name := by
  constructor
  · intro found
    simpa using List.find?_some found
  · rintro rfl
    cases known <;> rfl

/-- A known directive is found exactly if one with its name stands in the list. -/
theorem isSome_lookup_firstOccurrences (known : KnownDirective) (directives : List Directive) :
    ∀ seen, known ∉ seen →
      ((firstOccurrences seen directives).lookup known).isSome =
        directives.any (·.name.text = known.name) := by
  induction directives with
  | nil => intro seen _; rfl
  | cons d rest ih =>
    intro seen new
    rw [firstOccurrences, List.any_cons]
    split
    · rename_i unknown
      have apart : known.name ≠ d.name.text := by
        intro same
        rw [KnownDirective.ofName?_eq_some_iff.2 same] at unknown
        cases unknown
      simp [ih seen new, apart.symm]
    · rename_i other found
      have name := KnownDirective.ofName?_eq_some_iff.1 found
      by_cases same : known = other
      · subst same
        simp [new, name]
      · have apart : d.name.text ≠ known.name := by
          intro eq
          rw [KnownDirective.ofName?_eq_some_iff.2 eq.symm] at found
          exact same (Option.some.inj found)
        split
        · simp [ih seen new, apart]
        · have different : (known == other) = false := by simpa using same
          simp [List.lookup_cons, different, apart, ih (other :: seen) (by simp [same, new])]

theorem isError_of_mem_directiveProblems (source : Nat) (position : DirectivePosition)
    (directives : List Directive) : ∀ seen, ∀ d ∈ directiveProblems source position seen directives,
      d.isError = true := by
  induction directives with
  | nil => simp [directiveProblems]
  | cons first rest ih =>
    intro seen d member
    rw [directiveProblems] at member
    split at member
    · rcases List.mem_cons.1 member with rfl | later
      · rfl
      · exact ih seen d later
    · rename_i known _
      split at member
      · rcases List.mem_cons.1 member with rfl | later
        · rfl
        · exact ih seen d later
      · rcases List.mem_append.1 member with own | later
        · rcases List.mem_append.1 own with placed | flagged
          · rw [placementProblem?] at placed
            split at placed
            · cases placed
            · obtain rfl := List.mem_singleton.1 placed
              rfl
          · obtain ⟨a, -, problem⟩ := List.mem_filterMap.1 flagged
            unfold flagProblem? at problem
            grind [Diagnostic.isError, Diagnostic.severity, Diagnostic.withDetail, Diagnostic.withHint,
              Diagnostic.located, Diagnostic.ofKind, DiagnosticKind.severity]
        · exact ih _ d later

/-- Where nothing is wrong with directives, each of them is allowed at its position. -/
theorem mem_positions_of_directiveProblems_eq_nil {source : Nat} {position : DirectivePosition}
    (directives : List Directive) : ∀ seen, directiveProblems source position seen directives = [] →
      ∀ entry ∈ firstOccurrences seen directives, position ∈ entry.1.positions := by
  induction directives with
  | nil => simp [firstOccurrences]
  | cons d rest ih =>
    intro seen clean
    rw [directiveProblems] at clean
    rw [firstOccurrences]
    split at clean
    · cases clean
    · rename_i known found
      split at clean
      · cases clean
      · rename_i new
        rw [List.append_eq_nil_iff, List.append_eq_nil_iff] at clean
        simp only [new, if_false, List.mem_cons, forall_eq_or_imp]
        refine ⟨?_, ih _ clean.2⟩
        by_contra misplaced
        simp [placementProblem?, misplaced] at clean

/-- Where directives are without errors, a directive that is not allowed at the position is absent. -/
theorem lookup_eq_none_of_checkDirectives {source : Nat} {position : DirectivePosition}
    {directives : List Directive} (selection : position ≠ .pointerDeclaration)
    (clean : (checkDirectives source position directives).hasErrors = false) {known : KnownDirective}
    (misplaced : position ∉ known.positions) :
    (firstOccurrences [] directives).lookup known = none := by
  rw [checkDirectives, if_neg selection, Diagnostics.clean_append] at clean
  have none := Diagnostics.eq_nil_of_hasErrors_eq_false
    (isError_of_mem_directiveProblems source position directives []) clean.1
  have allowed := mem_positions_of_directiveProblems_eq_nil directives [] none
  rw [List.lookup_eq_none_iff]
  intro entry member
  have apart : entry.1 ≠ known := fun same => misplaced (same ▸ allowed entry member)
  simpa using apart.symm

namespace SelectionScope

theorem positionOf_ne (kind : FieldKind) : positionOf kind ≠ .pointerDeclaration := by
  cases kind <;> simp [positionOf]

/-- A directive is applied to a selection if it is written there. -/
theorem isSome_loadable_applied (kind : FieldKind) (s : Selection) :
    (appliedDirectives (positionOf kind) s.directives).loadable.isSome = s.hasDirective "loadable" := by
  rw [appliedDirectives, if_neg (positionOf_ne kind)]
  simp only [AppliedDirectives.ofPresent, Option.isSome_map]
  exact isSome_lookup_firstOccurrences .loadable s.directives [] (by simp)

theorem updatable_applied (kind : FieldKind) (s : Selection) :
    (appliedDirectives (positionOf kind) s.directives).updatable = s.hasDirective "updatable" := by
  rw [appliedDirectives, if_neg (positionOf_ne kind)]
  exact isSome_lookup_firstOccurrences .updatable s.directives [] (by simp)

/-- Only a resolver is selected as loadable. -/
theorem loadable_applied_eq_none {source : Nat} {kind : FieldKind} {directives : List Directive}
    (clean : (checkDirectives source (positionOf kind) directives).hasErrors = false)
    (other : positionOf kind ≠ .resolverSelection) :
    (appliedDirectives (positionOf kind) directives).loadable = none := by
  have misplaced : positionOf kind ∉ KnownDirective.loadable.positions := by
    cases kind <;> simp [positionOf, KnownDirective.positions] at other ⊢
  have absent := lookup_eq_none_of_checkDirectives (positionOf_ne kind) clean misplaced
  simp [appliedDirectives, positionOf_ne kind, AppliedDirectives.ofPresent, absent]

/-! ## Arguments -/

theorem isError_valueProblem (c : SelectionScope) (a : Argument) (e : ValueError) :
    (c.valueProblem a e).isError = true := by
  cases e <;> rfl

/-- What is reported about arguments is an error. -/
theorem isError_of_mem_argumentProblems {c : SelectionScope} {field : FieldDefinition} {name : Name}
    {arguments : List Argument} {loadable : Bool} :
    ∀ d ∈ c.argumentProblems field name arguments loadable, d.isError = true := by
  intro d member
  rcases List.mem_append.1 member with wrong | missing
  · obtain ⟨a, -, problem⟩ := List.mem_filterMap.1 wrong
    rw [argumentProblem?] at problem
    split at problem
    · obtain rfl := Option.some.inj problem
      rfl
    · obtain ⟨e, -, rfl⟩ := Option.map_eq_some_iff.1 problem
      exact c.isError_valueProblem a e
  · rw [missingArguments] at missing
    split at missing
    · cases missing
    · obtain ⟨required, -, rfl⟩ := List.mem_map.1 missing
      rfl

/-- Arguments that a field takes, with all that it requires unless they may be given later. -/
structure TakesArguments (c : SelectionScope) (field : FieldDefinition)
    (arguments : List (String × Value)) (loadable : Bool) : Prop where
  accepted : ∀ a ∈ arguments, ∃ d, field.argument? a.1 = some d ∧
    (c.checkArgument a.2 d.type).error = none
  required : loadable = false → ∀ d ∈ field.arguments, d.isRequired = true →
    ∃ a ∈ arguments, a.1 = d.name

/-- An argument as it is written, without places. -/
def written (a : Argument) : String × Value := (a.name.text, a.value.value)

section Arguments

variable {c : SelectionScope} {field : FieldDefinition} {name : Name} {arguments : List Argument}
  {loadable : Bool}

theorem takesArguments_of_clean
    (clean : (c.argumentProblems field name arguments loadable).hasErrors = false) :
    TakesArguments c field (arguments.map written) loadable := by
  have none := Diagnostics.eq_nil_of_hasErrors_eq_false isError_of_mem_argumentProblems clean
  rw [argumentProblems, List.append_eq_nil_iff, List.filterMap_eq_nil_iff] at none
  refine ⟨?_, ?_⟩
  · intro pair member
    obtain ⟨a, inside, rfl⟩ := List.mem_map.1 member
    have fine := none.1 a inside
    rw [argumentProblem?] at fine
    split at fine
    · cases fine
    · rename_i d found
      exact ⟨d, found, Option.map_eq_none_iff.1 fine⟩
  · intro eager d listed required
    have present := none.2
    rw [missingArguments, eager, if_neg Bool.false_ne_true, List.map_eq_nil_iff,
      List.filter_eq_nil_iff] at present
    have given : arguments.any (·.name.text = d.name) = true := by
      simpa [required] using present d listed
    obtain ⟨a, inside, same⟩ := List.any_eq_true.1 given
    exact ⟨written a, List.mem_map_of_mem inside, by simpa [written] using same⟩

/-- Where every written argument is one of the field's, all of them are kept. -/
theorem resolvedArguments_eq (takes : TakesArguments c field (arguments.map written) loadable) :
    resolvedArguments field arguments = arguments.map written := by
  have kept : arguments.filter (fun a => (field.argument? a.name.text).isSome) = arguments := by
    rw [List.filter_eq_self]
    intro a inside
    obtain ⟨d, found, -⟩ := takes.accepted _ (List.mem_map_of_mem inside)
    rw [show field.argument? a.name.text = some d from found]
    rfl
  rw [resolvedArguments, kept]
  rfl

end Arguments

end SelectionScope

/-! ## Mirrored selections -/

/-- The head of a resolved selection that stands for a written one on a type. -/
structure MirroredHead (c : SelectionScope) (parent : TypeId) (s : Selection) (loadable : Bool)
    (head : SelectionHead) : Prop where
  responseName : head.responseName = s.responseName.text
  fieldName : head.fieldName = s.name.text
  found : c.schema.lookupField? parent head.fieldName = some head.field
  arguments : head.arguments = s.arguments.map SelectionScope.written
  takes : c.TakesArguments (c.schema.field head.field) head.arguments loadable
  storeKey : head.storeKey = storeKey head.fieldName head.arguments

/-- A resolved selection stands for a written one on a type: it has the form of its field's kind, the
written names and arguments, and what is selected inside stands for what is written inside. -/
inductive Mirrors (c : SelectionScope) : TypeId → Selection → ResolvedSelection → Prop where
  | scalar {parent s head} (stands : MirroredHead c parent s false head)
      (kind : (c.schema.field head.field).kind = .scalar) (braces : s.selectionSet = none) :
      Mirrors c parent s (.scalar head (s.hasDirective "updatable"))
  | link {parent s head} (stands : MirroredHead c parent s false head)
      (kind : (c.schema.field head.field).kind = .link) (braces : s.selectionSet = none) :
      Mirrors c parent s (.link head)
  | resolver {parent s head artifact loadable}
      (stands : MirroredHead c parent s (s.hasDirective "loadable") head)
      (kind : (c.schema.field head.field).kind = .resolver artifact) (braces : s.selectionSet = none)
      (asked : loadable.isSome = s.hasDirective "loadable")
      (action : artifact = .loadableAction → s.hasDirective "loadable" = true)
      (identified : s.hasDirective "loadable" = true →
        c.schema.isRootType parent = true ∨ (c.schema.idField? parent).isSome) :
      Mirrors c parent s (.resolver head artifact loadable)
  | linked {parent s head target inlineFragment nested} {written : List Selection}
      (stands : MirroredHead c parent s false head)
      (kind : (c.schema.field head.field).kind = .linked target inlineFragment)
      (braces : s.selectionSet = some written) (something : written ≠ [])
      (distinct : (nested.map (·.head.responseName)).Nodup)
      (length : written.length = nested.length)
      (inside : ∀ w n, (w, n) ∈ written.zip nested → Mirrors c target w n) :
      Mirrors c parent s
        (.linked head target inlineFragment (s.hasDirective "updatable") nested)
  | pointer {parent s head target nested} {written : List Selection}
      (stands : MirroredHead c parent s false head)
      (kind : (c.schema.field head.field).kind = .pointer target)
      (identified : (c.schema.idField? target).isSome)
      (braces : s.selectionSet = some written) (something : written ≠ [])
      (distinct : (nested.map (·.head.responseName)).Nodup)
      (length : written.length = nested.length)
      (inside : ∀ w n, (w, n) ∈ written.zip nested → Mirrors c target w n) :
      Mirrors c parent s (.pointer head target nested)

/-- The selections of a set stand for the written ones one by one, under different names. -/
structure MirrorsSet (c : SelectionScope) (parent : TypeId) (written : List Selection)
    (resolved : List ResolvedSelection) : Prop where
  distinct : (resolved.map (·.head.responseName)).Nodup
  each : List.Forall₂ (Mirrors c parent) written resolved

theorem Mirrors.stands {c : SelectionScope} {parent : TypeId} {s : Selection}
    {resolved : ResolvedSelection} (h : Mirrors c parent s resolved) :
    MirroredHead c parent s resolved.isLoadable resolved.head := by
  cases h with
  | resolver stands _ _ asked _ _ =>
    rw [ResolvedSelection.isLoadable, asked]
    exact stands
  | scalar stands _ _ => exact stands
  | link stands _ _ => exact stands
  | linked stands _ _ _ _ _ _ => exact stands
  | pointer stands _ _ _ _ _ _ _ => exact stands

theorem mirrorsSet_of_forall₂ {c : SelectionScope} {parent : TypeId} {written : List Selection}
    {resolved : List ResolvedSelection} (each : List.Forall₂ (Mirrors c parent) written resolved)
    (distinct : (written.map (·.responseName.text)).Nodup) : MirrorsSet c parent written resolved := by
  refine ⟨?_, each⟩
  have same : resolved.map (·.head.responseName) = written.map (·.responseName.text) := by
    clear distinct
    induction each with
    | nil => rfl
    | cons first _ ih => rw [List.map_cons, List.map_cons, first.stands.responseName, ih]
  rwa [same]

namespace SelectionScope

variable {c : SelectionScope}

/-- What is found out about a selection set inside a selection, if nothing is wrong. -/
theorem nestedFindings_of_clean {id : FieldId} {name : Name} {hasBraces : Bool}
    {form : List ResolvedSelection → ResolvedSelection} {findings : Option Findings}
    (clean : (c.nestedFindings id name hasBraces form findings).diagnostics.hasErrors = false) :
    ∃ found, findings = some found ∧ found.diagnostics.hasErrors = false ∧
      (c.nestedFindings id name hasBraces form findings).selections = [form found.selections] := by
  cases findings with
  | none => cases clean
  | some found => exact ⟨found, rfl, clean, rfl⟩

theorem braces_of_clean {id : FieldId} {name : Name} {set : Option (List Selection)}
    (clean : (c.bracesProblem id name set.isSome).hasErrors = false) : set = none := by
  cases set with
  | none => rfl
  | some written => cases clean

/-- What is required of a resolver that is selected, if nothing is wrong. -/
theorem loadable_of_clean {id : FieldId} {kind : ArtifactKind} {name : Name} {loadable : Bool}
    (clean : (c.loadableProblems id kind name loadable).hasErrors = false) :
    (kind = .loadableAction → loadable = true) ∧
      (loadable = true → c.schema.isRootType (c.schema.field id).parent = true ∨
        (c.schema.idField? (c.schema.field id).parent).isSome) := by
  rw [loadableProblems, Diagnostics.clean_append] at clean
  have required := Diagnostics.not_of_clean_ite rfl clean.1
  have identified := Diagnostics.not_of_clean_ite rfl clean.2
  constructor
  · rintro rfl
    simpa using required
  · rintro rfl
    by_contra neither
    exact identified (by simpa using neither)

theorem pointer_of_clean {id : FieldId} {target : TypeId} {name : Name}
    (clean : (c.pointerProblem id target name).hasErrors = false) :
    (c.schema.idField? target).isSome := by
  by_contra none
  rw [pointerProblem, if_pos (by simpa using none)] at clean
  cases clean

variable {options : SchemaOptions} {document : SchemaDocument} {declarations : List Declaration}

mutual
/-- **A selection without errors is resolved**, to one that stands for it. -/
theorem mirrors_resolveSelection
    (built : SchemaGraph.ofDocument options document declarations = .ok c.schema) (s : Selection)
    (formed : s.WellFormed) {parent : TypeId}
    (clean : (c.resolveSelection parent s).diagnostics.hasErrors = false) :
    ∃ resolved, (c.resolveSelection parent s).selections = [resolved] ∧ Mirrors c parent s resolved := by
  obtain ⟨label, name, arguments, directives, selectionSet, range⟩ := s
  rw [Selection.WellFormed] at formed
  rw [resolveSelection] at clean ⊢
  split at clean
  · cases clean
  · rename_i id found
    simp only [Findings.selections_append, Findings.diagnostics_append, List.nil_append,
      Diagnostics.clean_append] at clean ⊢
    obtain ⟨⟨directed, given⟩, clean⟩ := clean
    have takes := takesArguments_of_clean given
    rw [resolvedArguments_eq takes] at clean ⊢
    let s : Selection := ⟨label, name, arguments, directives, selectionSet, range⟩
    let head : SelectionHead :=
      { responseName := (label.getD name).text, fieldName := name.text, field := id,
        arguments := arguments.map written, storeKey := storeKey name.text (arguments.map written),
        span := ⟨c.source, range⟩ }
    have updatable := updatable_applied (c.schema.field id).kind s
    have asked := isSome_loadable_applied (c.schema.field id).kind s
    have stands : MirroredHead c parent s _ head := ⟨rfl, rfl, found, rfl, takes, rfl⟩
    -- only a resolver may be loadable, so any other selection has all the arguments it requires
    have eager (other : positionOf (c.schema.field id).kind ≠ .resolverSelection) :
        MirroredHead c parent s false head := by
      rwa [loadable_applied_eq_none directed other] at stands
    rw [updatable] at clean ⊢
    cases kind : (c.schema.field id).kind with
    | scalar =>
      rw [kind] at clean eager
      exact ⟨_, rfl, .scalar (eager (by simp [positionOf])) kind (braces_of_clean clean)⟩
    | link =>
      rw [kind] at clean eager
      exact ⟨_, rfl, .link (eager (by simp [positionOf])) kind (braces_of_clean clean)⟩
    | resolver artifact =>
      rw [kind] at clean asked stands
      rw [asked] at clean stands
      obtain ⟨braces, loads⟩ := Diagnostics.clean_append.1 clean
      obtain ⟨action, identified⟩ := loadable_of_clean loads
      rw [(c.schema.lookupField?_eq_some built found).1] at identified
      exact ⟨_, rfl, .resolver stands kind (braces_of_clean braces) asked action identified⟩
    | linked target inlineFragment =>
      rw [kind] at clean eager
      obtain ⟨findings, some, clean, same⟩ := nestedFindings_of_clean clean
      obtain ⟨written, braces, something, set⟩ :=
        mirrors_resolveSelectionSet? built selectionSet formed.2.2 some clean
      obtain ⟨length, inside⟩ := List.forall₂_iff_zip.1 set.each
      exact ⟨_, same, .linked (eager (by simp [positionOf])) kind braces something set.distinct length
        fun _ _ => inside⟩
    | pointer target =>
      rw [kind] at clean eager
      obtain ⟨identified, clean⟩ := Diagnostics.clean_append.1 clean
      obtain ⟨findings, some, clean, same⟩ := nestedFindings_of_clean clean
      obtain ⟨written, braces, something, set⟩ :=
        mirrors_resolveSelectionSet? built selectionSet formed.2.2 some clean
      obtain ⟨length, inside⟩ := List.forall₂_iff_zip.1 set.each
      exact ⟨_, same, .pointer (eager (by simp [positionOf])) kind (pointer_of_clean identified) braces
        something set.distinct length fun _ _ => inside⟩
theorem mirrors_resolveSelectionSet?
    (built : SchemaGraph.ofDocument options document declarations = .ok c.schema)
    (set : Option (List Selection)) (formed : Selection.SetWellFormed set) {parent : TypeId}
    {findings : Findings} (found : c.resolveSelectionSet? parent set = some findings)
    (clean : findings.diagnostics.hasErrors = false) :
    ∃ written, set = some written ∧ written ≠ [] ∧ MirrorsSet c parent written findings.selections := by
  cases set with
  | none => simp [resolveSelectionSet?] at found
  | some written =>
    rw [Selection.SetWellFormed] at formed
    have each (clean : (c.resolveSelections parent written).diagnostics.hasErrors = false) :=
      mirrors_resolveSelections built written formed.2 clean
    rw [resolveSelectionSet?] at found
    split at found
    · cases found
    · rename_i something
      obtain rfl := Option.some.inj found
      refine ⟨written, rfl, by simpa using something, ?_⟩
      exact mirrorsSet_of_forall₂ (each clean) formed.1
theorem mirrors_resolveSelections
    (built : SchemaGraph.ofDocument options document declarations = .ok c.schema)
    (written : List Selection) (formed : Selection.AllWellFormed written) {parent : TypeId}
    (clean : (c.resolveSelections parent written).diagnostics.hasErrors = false) :
    List.Forall₂ (Mirrors c parent) written (c.resolveSelections parent written).selections := by
  cases written with
  | nil => exact .nil
  | cons s rest =>
    rw [Selection.AllWellFormed] at formed
    rw [resolveSelections, Findings.diagnostics_append, Diagnostics.clean_append] at clean
    obtain ⟨resolved, same, stands⟩ := mirrors_resolveSelection built s formed.1 clean.1
    rw [resolveSelections, Findings.selections_append, same]
    exact .cons stands (mirrors_resolveSelections built rest formed.2 clean.2)
end

end SelectionScope

/-! ## Selections at any depth -/

/-- A selection is resolved on a type from some written one. -/
def Mirrored (c : SelectionScope) (type : TypeId) (s : ResolvedSelection) : Prop :=
  ∃ written, Mirrors c type written s

section Mirrored

variable {c : SelectionScope} {parent target : TypeId} {head : SelectionHead}
  {nested : List ResolvedSelection}

theorem exists_of_mem_zip {α β : Type} {xs : List α} {ys : List β} (length : xs.length = ys.length)
    {y : β} (member : y ∈ ys) : ∃ x, (x, y) ∈ xs.zip ys := by
  obtain ⟨n, inside, rfl⟩ := List.getElem_of_mem member
  have valid : n < (xs.zip ys).length := by simp [length, inside]
  refine ⟨xs[n], ?_⟩
  rw [← List.getElem_zip (h := valid)]
  exact List.getElem_mem valid

theorem Mirrored.found {s : ResolvedSelection} (h : Mirrored c parent s) :
    c.schema.lookupField? parent s.head.fieldName = some s.head.field := by
  obtain ⟨_, mirrors⟩ := h
  exact mirrors.stands.found

theorem Mirrored.takes {s : ResolvedSelection} (h : Mirrored c parent s) :
    c.TakesArguments (c.schema.field s.head.field) s.head.arguments s.isLoadable := by
  obtain ⟨_, mirrors⟩ := h
  exact mirrors.stands.takes

theorem Mirrored.inside_linked {inlineFragment updatable : Bool}
    (h : Mirrored c parent (.linked head target inlineFragment updatable nested)) :
    ∀ s ∈ nested, Mirrored c target s := by
  intro s member
  obtain ⟨_, mirrors⟩ := h
  cases mirrors with
  | linked _ _ _ _ _ length inside =>
    obtain ⟨w, pair⟩ := exists_of_mem_zip length member
    exact ⟨w, inside w s pair⟩

theorem Mirrored.inside_pointer (h : Mirrored c parent (.pointer head target nested)) :
    ∀ s ∈ nested, Mirrored c target s := by
  intro s member
  obtain ⟨_, mirrors⟩ := h
  cases mirrors with
  | pointer _ _ _ _ _ _ length inside =>
    obtain ⟨w, pair⟩ := exists_of_mem_zip length member
    exact ⟨w, inside w s pair⟩

/-- Each selection of a mirrored set is mirrored. -/
theorem MirrorsSet.mirrored {written : List Selection} {resolved : List ResolvedSelection}
    (h : MirrorsSet c parent written resolved) : ∀ s ∈ resolved, Mirrored c parent s := by
  intro s member
  obtain ⟨length, each⟩ := List.forall₂_iff_zip.1 h.each
  obtain ⟨w, pair⟩ := exists_of_mem_zip length member
  exact ⟨w, each pair⟩

/-- Whatever occurs in mirrored selections is mirrored, on some type. -/
theorem Occurs.mirrored {s : ResolvedSelection} {selections : List ResolvedSelection}
    (occurs : Occurs s selections) :
    ∀ {parent}, (∀ t ∈ selections, Mirrored c parent t) → ∃ type, Mirrored c type s := by
  induction occurs with
  | here member => exact fun all => ⟨_, all _ member⟩
  | linked member _ ih => exact fun all => ih (all _ member).inside_linked
  | pointer member _ ih => exact fun all => ih (all _ member).inside_pointer

end Mirrored

end IsoLiteral
