import IsoLiteral.Proofs.Resolution.Checking
import IsoLiteral.Resolution.OfDeclarations
import Mathlib.Tactic

/-!
# What is found out about selections

The resolver of a declaration keeps diagnostics and used variables while it goes through the selections, but no
step looks at them before the end: from every state, a step has the same result, adds the same diagnostics to
those that are there, and uses the same variables (`Finds`). So what is found out about selections can be
described without a state, as the findings on each, put together in order (`resolveSelections`). That is what
the resolver comes to (`finds_selectionSet`, `resolveField_eq`).
-/

namespace IsoLiteral

/-- What is found out about some selections. -/
structure Findings where
  selections : List ResolvedSelection
  diagnostics : Diagnostics
  /-- The variables that occur in arguments. -/
  used : List String
deriving Repr

namespace Findings

/-- Nothing is found out. -/
def empty : Findings := ⟨[], [], []⟩

/-- Findings in order. -/
def append (a b : Findings) : Findings :=
  ⟨a.selections ++ b.selections, a.diagnostics ++ b.diagnostics, a.used ++ b.used⟩

instance : Append Findings := ⟨append⟩

@[simp] theorem selections_append (a b : Findings) :
    (a ++ b).selections = a.selections ++ b.selections := rfl

@[simp] theorem diagnostics_append (a b : Findings) :
    (a ++ b).diagnostics = a.diagnostics ++ b.diagnostics := rfl

@[simp] theorem used_append (a b : Findings) : (a ++ b).used = a.used ++ b.used := rfl

theorem append_assoc (a b c : Findings) : a ++ b ++ c = a ++ (b ++ c) := by
  show append (append a b) c = append a (append b c)
  simp [append, List.append_assoc]

theorem empty_append (a : Findings) : empty ++ a = a := rfl

theorem append_empty (a : Findings) : a ++ empty = a := by
  show append a empty = a
  simp [append, empty]

end Findings

namespace SelectionScope

variable {c : SelectionScope}

/-! ## Variables -/

/-- Why a variable may not stand where a type is expected. -/
def judgeVariable (c : SelectionScope) (name : String) (expected : TypeExpr) :
    Option ValueError :=
  match c.definition? name with
  | none => some (.undeclaredVariable name)
  | some v =>
    if v.satisfies expected then none
    else
      some (.mismatch ("variable `$" ++ name ++ "` of type `" ++ v.type.annotation.render ++
        "` cannot be used as `" ++ expected.render ++ "`"))

/-- The place of a variable among the definitions. -/
def place? (c : SelectionScope) (name : String) : Option (Fin c.variableDefinitions.length) :=
  c.variableDefinitions.findFinIdx? (·.name.text = name)

/-- The flags of the variables after one more is used. -/
def markUsed (c : SelectionScope) (used : Flags c.variableDefinitions.length) (name : String) :
    Flags c.variableDefinitions.length :=
  match c.place? name with
  | none => used
  | some i => used.raise i

/-- The flags of the variables where these are used. -/
def usedBy (c : SelectionScope) (names : List String) : Flags c.variableDefinitions.length :=
  names.foldl c.markUsed (.none _)

theorem get_markUsed (used : Flags c.variableDefinitions.length) (name : String)
    (i : Fin c.variableDefinitions.length) :
    (c.markUsed used name).get i = (used.get i || decide (c.place? name = some i)) := by
  rw [markUsed]
  cases place : c.place? name with
  | none => simp
  | some j => simp [eq_comm]

theorem get_foldl_markUsed (names : List String) (used : Flags c.variableDefinitions.length)
    (i : Fin c.variableDefinitions.length) :
    (names.foldl c.markUsed used).get i =
      (used.get i || names.any fun name => decide (c.place? name = some i)) := by
  induction names generalizing used with
  | nil => simp
  | cons name rest ih => rw [List.foldl_cons, ih, get_markUsed, List.any_cons, Bool.or_assoc]

/-- A variable is used where a name is that it is the first to have. -/
theorem get_usedBy (names : List String) (i : Fin c.variableDefinitions.length) :
    (c.usedBy names).get i = names.any fun name => decide (c.place? name = some i) := by
  rw [usedBy, get_foldl_markUsed, Flags.get_none, Bool.false_or]

/-- A declared variable is found at its place. -/
theorem definition?_eq (name : String) : c.definition? name = (c.place? name).map c.variableDefinitions.get :=
  List.find?_eq_map_findFinIdx?_getElem

/-- Whether a variable may stand somewhere does not depend on what has been used, and standing there uses it. -/
theorem touches_judgeUse : c.judgeUse.Touches c.judgeVariable
    fun st name => { st with used := c.markUsed st.used name } := by
  intro name expected st
  have place : c.variableDefinitions.findFinIdx? (·.name.text = name) = c.place? name := rfl
  simp only [judgeUse, useVariable, place, judgeVariable, definition?_eq, markUsed]
  cases c.place? name <;> rfl

/-! ## Arguments -/

/-- The check of a value against the type of an argument. -/
def checkArgument (c : SelectionScope) (value : Value) (expected : TypeExpr) : ValueCheck :=
  c.schema.checkValue c.judgeVariable expected value

/-- The problem with one argument of a selected field. -/
def argumentProblem? (c : SelectionScope) (field : FieldDefinition) (a : Argument) :
    Option Diagnostic :=
  match field.argument? a.name.text with
  | none => some (c.unknownArgument a)
  | some d => (c.checkArgument a.value.value d.type).error.map (c.valueProblem a)

/-- The variables that the check of one argument comes across. -/
def argumentVariables (c : SelectionScope) (field : FieldDefinition) (a : Argument) :
    List String :=
  match field.argument? a.name.text with
  | none => []
  | some d => (c.checkArgument a.value.value d.type).visited

/-- The arguments that the field takes. -/
def resolvedArguments (field : FieldDefinition) (arguments : List Argument) :
    List (String × Value) :=
  (arguments.filter fun a => (field.argument? a.name.text).isSome).map fun a =>
    (a.name.text, a.value.value)

/-- The diagnostics for arguments that have to be given and are not. A loadable selection may receive
its arguments when it is loaded. -/
def missingArguments (c : SelectionScope) (field : FieldDefinition) (name : Name)
    (arguments : List Argument) (loadable : Bool) : Diagnostics :=
  if loadable then []
  else
    (field.arguments.filter fun d => d.isRequired && !arguments.any (·.name.text = d.name)).map
      (c.missingArgument name)

/-- Everything that is wrong with the arguments of a selection. -/
def argumentProblems (c : SelectionScope) (field : FieldDefinition) (name : Name)
    (arguments : List Argument) (loadable : Bool) : Diagnostics :=
  arguments.filterMap (c.argumentProblem? field) ++
    c.missingArguments field name arguments loadable

/-! ## Forms of fields -/

/-- The diagnostic for braces after a field that has nothing to select. -/
def bracesProblem (c : SelectionScope) (field : FieldId) (name : Name) (hasBraces : Bool) :
    Diagnostics :=
  if hasBraces then [c.unexpectedBraces field name] else []

/-- The diagnostics for a resolver that is or should be loadable. -/
def loadableProblems (c : SelectionScope) (field : FieldId) (kind : ArtifactKind) (name : Name)
    (loadable : Bool) : Diagnostics :=
  let parent := (c.schema.field field).parent
  (if kind = .loadableAction && !loadable then [c.loadableRequired field name] else []) ++
    if loadable && !c.schema.isRootType parent && (c.schema.idField? parent).isNone then
      [c.loadableRequiresId parent name]
    else []

/-- The diagnostic for a pointer to records that cannot be identified. -/
def pointerProblem (c : SelectionScope) (field : FieldId) (target : TypeId) (name : Name) :
    Diagnostics :=
  if (c.schema.idField? target).isNone then [c.pointerRequiresId field target name] else []

/-- The findings on a selection of a field that leads to a record, from those on what is selected
there. Without the latter the selection is dropped. -/
def nestedFindings (c : SelectionScope) (field : FieldId) (name : Name) (hasBraces : Bool)
    (form : List ResolvedSelection → ResolvedSelection) : Option Findings → Findings
  | some nested => { nested with selections := [form nested.selections] }
  | none => ⟨[], [c.emptyProblem field name hasBraces], []⟩

/-! ## Selections -/

mutual
/-- What is found out about a selection on a type. -/
def resolveSelection (c : SelectionScope) (parent : TypeId) : Selection → Findings
  | ⟨label, name, arguments, directives, selectionSet, range⟩ =>
    match c.schema.lookupField? parent name.text with
    | none =>
      ⟨[], [c.unknownField parent name], []⟩
    | some id =>
      let field := c.schema.field id
      let position := positionOf field.kind
      let applied := appliedDirectives position directives
      let resolved := resolvedArguments field arguments
      let head : SelectionHead :=
        { responseName := (label.getD name).text, fieldName := name.text, field := id,
          arguments := resolved, storeKey := storeKey name.text resolved,
          span := ⟨c.source, range⟩ }
      let checked : Findings :=
        ⟨[], checkDirectives c.source position directives ++
            c.argumentProblems field name arguments applied.loadable.isSome,
          arguments.flatMap (c.argumentVariables field)⟩
      checked ++
        match field.kind with
        | .scalar =>
          ⟨[.scalar head applied.updatable], c.bracesProblem id name selectionSet.isSome, []⟩
        | .link => ⟨[.link head], c.bracesProblem id name selectionSet.isSome, []⟩
        | .resolver kind =>
          ⟨[.resolver head kind applied.loadable],
            c.bracesProblem id name selectionSet.isSome ++
              c.loadableProblems id kind name applied.loadable.isSome, []⟩
        | .linked target inlineFragment =>
          c.nestedFindings id name selectionSet.isSome
            (.linked head target inlineFragment applied.updatable)
            (c.resolveSelectionSet? target selectionSet)
        | .pointer target =>
          ⟨[], c.pointerProblem id target name, []⟩ ++
            c.nestedFindings id name selectionSet.isSome (.pointer head target)
              (c.resolveSelectionSet? target selectionSet)
termination_by structural s => s
/-- What is found out about a selection set on a type, if there is one with anything in it. -/
def resolveSelectionSet? (c : SelectionScope) (parent : TypeId) :
    Option (List Selection) → Option Findings
  | none => none
  | some selections =>
    let findings := c.resolveSelections parent selections
    if selections.isEmpty then none else some findings
termination_by structural set => set
/-- What is found out about selections on a type. -/
def resolveSelections (c : SelectionScope) (parent : TypeId) : List Selection → Findings
  | [] => .empty
  | s :: rest => c.resolveSelection parent s ++ c.resolveSelections parent rest
termination_by structural ss => ss
end

theorem resolveSelections_append (c : SelectionScope) (parent : TypeId) (xs ys : List Selection) :
    c.resolveSelections parent (xs ++ ys) =
      c.resolveSelections parent xs ++ c.resolveSelections parent ys := by
  induction xs with
  | nil => rw [List.nil_append, resolveSelections, Findings.empty_append]
  | cons x xs ih =>
    rw [List.cons_append, resolveSelections, ih, resolveSelections, Findings.append_assoc]

/-! ## Steps of the resolver -/

section Steps

variable {α β : Type}

/-- A step has a result, adds diagnostics and uses variables, whatever has been found out before. -/
def Finds (step : Resolver c α) (result : α) (diagnostics : Diagnostics) (used : List String) : Prop :=
  ∀ st, step.run st = (result, ⟨st.diagnostics ++ diagnostics, used.foldl c.markUsed st.used⟩)

variable {step : Resolver c α} {a : α} {ds ds' : Diagnostics} {names names' : List String}

theorem finds_return (a : α) : Finds (return a : Resolver c α) a [] [] := by
  intro st
  rw [List.append_nil]
  rfl

theorem finds_report (d : Diagnostic) : Finds (c.report d) () [d] [] :=
  fun _ => rfl

/-- A step goes on in the state that another has left. -/
theorem Finds.run_bind (h : Finds step a ds names) (next : α → Resolver c β) (st : ResolverState c) :
    (step >>= next).run st = (next a).run ⟨st.diagnostics ++ ds, names.foldl c.markUsed st.used⟩ := by
  rw [StateT.run_bind, h st]
  rfl

/-- The findings of a step that goes on with the result of another. -/
theorem Finds.bind (h : Finds step a ds names) {next : α → Resolver c β} {b : β}
    (h' : Finds (next a) b ds' names') : Finds (step >>= next) b (ds ++ ds') (names ++ names') := by
  intro st
  rw [h.run_bind, h', List.foldl_append, ← List.append_assoc]

theorem Finds.map (h : Finds step a ds names) (f : α → β) : Finds (f <$> step) (f a) ds names := by
  intro st
  rw [StateT.run_map, h st]
  rfl

/-- The findings of two steps one after the other. -/
theorem Finds.andThen {step : Resolver c Unit} (h : Finds step () ds names) {next : Resolver c β} {b : β}
    (h' : Finds next b ds' names') : Finds (do step; next) b (ds ++ ds') (names ++ names') :=
  h.bind h'

theorem Finds.thenReturn {step : Resolver c Unit} (h : Finds step () ds names) (b : β) :
    Finds (do step; return b) b ds names := by
  simpa only [List.append_nil] using h.andThen (finds_return b)

theorem finds_reportIf (condition : Bool) (d : Diagnostic) :
    Finds (c.reportIf condition d) () (if condition then [d] else []) [] := by
  rw [reportIf]
  split
  · exact finds_report d
  · exact finds_return ()

theorem finds_forM_report (ds : Diagnostics) : Finds (ds.forM c.report) () ds [] := by
  induction ds with
  | nil => exact finds_return ()
  | cons d rest ih => exact (finds_report d).andThen ih

end Steps

/-! ## The findings of each step -/

theorem finds_argumentValue (a : Argument) (expected : TypeExpr) :
    Finds (c.argumentValue a expected) ()
      ((c.checkArgument a.value.value expected).error.map (c.valueProblem a)).toList
      (c.checkArgument a.value.value expected).visited := by
  have marks (names : List String) (st : ResolverState c) :
      names.foldl (fun st name => { st with used := c.markUsed st.used name }) st =
        ⟨st.diagnostics, names.foldl c.markUsed st.used⟩ := by
    induction names generalizing st with
    | nil => rfl
    | cons name rest ih => rw [List.foldl_cons, ih, List.foldl_cons]
  intro st
  have checked := SchemaGraph.describes_checkValue (g := c.schema) touches_judgeUse expected a.value.value st
  rw [marks] at checked
  rw [argumentValue, StateT.run_bind, checked, checkArgument]
  cases (c.schema.checkValue c.judgeVariable expected a.value.value).error with
  | none => exact finds_return () _
  | some e => exact finds_report _ _

theorem finds_givenArguments (field : FieldDefinition) (arguments : List Argument) :
    Finds (c.givenArguments field arguments) (resolvedArguments field arguments)
      (arguments.filterMap (c.argumentProblem? field)) (arguments.flatMap (c.argumentVariables field)) := by
  induction arguments with
  | nil => exact finds_return []
  | cons a rest ih =>
    rw [givenArguments, List.flatMap_cons, argumentVariables]
    cases taken : field.argument? a.name.text with
    | none =>
      have problem : c.argumentProblem? field a = some (c.unknownArgument a) := by
        rw [argumentProblem?, taken]
      have dropped : resolvedArguments field (a :: rest) = resolvedArguments field rest := by
        simp [resolvedArguments, taken]
      rw [List.filterMap_cons_some problem, dropped]
      exact (finds_report _).andThen ih
    | some d =>
      have kept : resolvedArguments field (a :: rest) =
          (a.name.text, a.value.value) :: resolvedArguments field rest := by
        simp [resolvedArguments, taken]
      have problems : (a :: rest).filterMap (c.argumentProblem? field) =
          ((c.checkArgument a.value.value d.type).error.map (c.valueProblem a)).toList ++
            rest.filterMap (c.argumentProblem? field) := by
        rw [List.filterMap_cons, argumentProblem?, taken]
        dsimp only
        cases (c.checkArgument a.value.value d.type).error <;> rfl
      rw [problems, kept]
      exact (finds_argumentValue a d.type).andThen (ih.map _)

theorem finds_reportMissing (name : Name) (arguments : List Argument) (taken : List ArgumentDefinition) :
    Finds (c.reportMissing name arguments taken) ()
      ((taken.filter fun d => d.isRequired && !arguments.any (·.name.text = d.name)).map
        (c.missingArgument name)) [] := by
  induction taken with
  | nil => exact finds_return ()
  | cons d rest ih =>
    have first := (finds_reportIf (c := c) (d.isRequired && !arguments.any (·.name.text = d.name))
      (c.missingArgument name d)).andThen ih
    rw [reportMissing, List.filter_cons]
    cases missing : d.isRequired && !arguments.any (·.name.text = d.name) <;> simpa [missing] using first

theorem finds_arguments (field : FieldDefinition) (name : Name) (arguments : List Argument) (loadable : Bool) :
    Finds (c.arguments field name arguments loadable) (resolvedArguments field arguments)
      (c.argumentProblems field name arguments loadable) (arguments.flatMap (c.argumentVariables field)) := by
  have given := finds_givenArguments (c := c) field arguments
  rw [SelectionScope.arguments, argumentProblems, missingArguments,
    ← List.append_nil (arguments.flatMap (c.argumentVariables field))]
  cases loadable with
  | true => exact given.bind (finds_return _)
  | false => exact given.bind ((finds_reportMissing name arguments field.arguments).thenReturn _)

theorem finds_directives (position : DirectivePosition) (directives : List Directive) :
    Finds (c.directives position directives) (appliedDirectives position directives)
      (checkDirectives c.source position directives) [] :=
  (finds_forM_report _).thenReturn _

theorem finds_checkLoadable (field : FieldId) (kind : ArtifactKind) (name : Name) (loadable : Bool) :
    Finds (c.checkLoadable field kind name loadable) () (c.loadableProblems field kind name loadable) [] :=
  (finds_reportIf _ _).andThen (finds_reportIf _ _)

/-- A selection resolves to what is found out about it, in one selection at most. -/
def FindsAll (step : Resolver c (Option ResolvedSelection)) (findings : Findings) : Prop :=
  ∃ resolved : Option ResolvedSelection, resolved.toList = findings.selections ∧
    Finds step resolved findings.diagnostics findings.used

/-- The directives and arguments of a selection come before what depends on the form of its field. -/
theorem findsAll_checked (field : FieldDefinition) (name : Name) (arguments : List Argument)
    (directives : List Directive) {findings : Findings}
    {next : AppliedDirectives → List (String × Value) → Resolver c (Option ResolvedSelection)}
    (h : FindsAll (next (appliedDirectives (positionOf field.kind) directives) (resolvedArguments field arguments))
      findings) :
    FindsAll
      (do
        let applied ← c.directives (positionOf field.kind) directives
        let resolved ← c.arguments field name arguments applied.loadable.isSome
        next applied resolved)
      (⟨[], checkDirectives c.source (positionOf field.kind) directives ++
          c.argumentProblems field name arguments
            (appliedDirectives (positionOf field.kind) directives).loadable.isSome,
        arguments.flatMap (c.argumentVariables field)⟩ ++ findings) := by
  obtain ⟨resolved, same, finds⟩ := h
  refine ⟨resolved, same, ?_⟩
  rw [Findings.diagnostics_append, List.append_assoc]
  exact (finds_directives _ _).bind ((finds_arguments field name arguments _).bind finds)

mutual
/-- The resolver finds out about a selection what is found out without a state. -/
theorem findsAll_selection (parent : TypeId) (s : Selection) :
    FindsAll (c.selection parent s) (c.resolveSelection parent s) := by
  obtain ⟨label, name, arguments, directives, braces, range⟩ := s
  rw [selection, resolveSelection]
  cases found : c.schema.lookupField? parent name.text with
  | none => exact ⟨none, rfl, (finds_report _).thenReturn none⟩
  | some id =>
    refine findsAll_checked _ _ _ _ ?_
    cases kind : (c.schema.field id).kind with
    | scalar => exact ⟨some _, rfl, (finds_reportIf _ _).thenReturn _⟩
    | link => exact ⟨some _, rfl, (finds_reportIf _ _).thenReturn _⟩
    | resolver artifact =>
      exact ⟨some _, rfl, (finds_reportIf _ _).andThen ((finds_checkLoadable _ _ _ _).thenReturn _)⟩
    | linked target inlineFragment =>
      obtain ⟨nested, same, finds⟩ := finds_nestedSelections id name target braces _
      exact ⟨_, same, finds.map _⟩
    | pointer target =>
      obtain ⟨nested, same, finds⟩ := finds_nestedSelections id name target braces _
      exact ⟨_, same, (finds_reportIf _ _).andThen (finds.map _)⟩
termination_by structural s
/-- What is selected of a record, as it is found out without a state. -/
theorem finds_nestedSelections (field : FieldId) (name : Name) (target : TypeId)
    (braces : Option (List Selection)) (form : List ResolvedSelection → ResolvedSelection) :
    let nested := c.nestedFindings field name braces.isSome form (c.resolveSelectionSet? target braces)
    ∃ resolved : Option (List ResolvedSelection), (resolved.map form).toList = nested.selections ∧
      Finds (c.nestedSelections field name target braces) resolved nested.diagnostics nested.used := by
  intro nested
  cases braces with
  | none => exact ⟨none, rfl, (finds_report _).thenReturn none⟩
  | some selections =>
    have inside := finds_selectionSet target selections
    cases selections with
    | nil => exact ⟨none, rfl, (finds_report _).thenReturn none⟩
    | cons s rest => exact ⟨some _, rfl, inside.map some⟩
termination_by structural braces
theorem finds_selectionSet (parent : TypeId) (selections : List Selection) :
    Finds (c.selectionSet parent selections) (c.resolveSelections parent selections).selections
      (c.resolveSelections parent selections).diagnostics (c.resolveSelections parent selections).used := by
  cases selections with
  | nil => exact finds_return []
  | cons s rest =>
    obtain ⟨resolved, same, first⟩ := findsAll_selection parent s
    rw [selectionSet, resolveSelections, Findings.selections_append, ← same]
    exact first.bind ((finds_selectionSet parent rest).map _)
termination_by structural selections
end

/-! ## Declarations -/

/-- The variables that no name is the name of, the first of each name only. -/
theorem unusedVariables_usedBy (names : List String) :
    c.unusedVariables (c.usedBy names) =
      (c.variableDefinitions.zipIdx.filter fun (_, i) =>
        !names.any fun name => decide (c.variableDefinitions.findIdx? (·.name.text = name) = some i)).map
      fun (v, _) => (Diagnostic.located c.source .unusedVariable v.name.range).withDetail v.name.text := by
  have flags : c.variableDefinitions.zip (c.usedBy names).toList = c.variableDefinitions.zipIdx.map fun (v, i) =>
      (v, names.any fun name => decide (c.variableDefinitions.findIdx? (·.name.text = name) = some i)) := by
    refine List.ext_getElem (by simp) fun i inside _ => ?_
    have valid : i < c.variableDefinitions.length := by simp at inside; omega
    have place (name : String) : c.variableDefinitions.findIdx? (·.name.text = name) = some i ↔
        c.place? name = some ⟨i, valid⟩ := by
      rw [List.findIdx?_eq_map_findFinIdx?_val, Option.map_eq_some_iff]
      constructor
      · rintro ⟨j, found, rfl⟩
        exact found
      · exact fun found => ⟨_, found, rfl⟩
    have used : (c.usedBy names)[i] = names.any fun name => decide (c.place? name = some ⟨i, valid⟩) :=
      get_usedBy names ⟨i, valid⟩
    simp [used, place]
  rw [unusedVariables, flags, List.filter_map, List.map_map]
  rfl

/-- Everything that is wrong with a declaration apart from its directives. -/
def bodyProblems (c : SelectionScope) (parent : TypeId) (findings : Findings) : Diagnostics :=
  c.variableDefinitions.filterMap c.variableProblem? ++ findings.diagnostics ++
    (c.reservedProblem? parent findings.selections).toList ++ c.unusedVariables (c.usedBy findings.used)

theorem finds_forM_report_option (d? : Option Diagnostic) : Finds (d?.forM c.report) () d?.toList [] := by
  cases d? with
  | none => exact finds_return ()
  | some d => exact finds_report d

theorem run_reportUnused (st : ResolverState c) :
    c.reportUnused.run st = ((), ⟨st.diagnostics ++ c.unusedVariables st.used, st.used⟩) :=
  finds_forM_report (c.unusedVariables st.used) st

/-- What is selected is resolved first, and then it is seen which variables have been used. -/
theorem run_body (parent : TypeId) (selections : List Selection) (diagnostics : Diagnostics) :
    (c.body parent selections).run (.start c diagnostics) =
      ((c.resolveSelections parent selections).selections,
        ⟨diagnostics ++ c.bodyProblems parent (c.resolveSelections parent selections),
          c.usedBy (c.resolveSelections parent selections).used⟩) := by
  rw [body, (finds_forM_report _).run_bind, (finds_selectionSet parent selections).run_bind,
    (finds_forM_report_option _).run_bind, StateT.run_bind, run_reportUnused, bodyProblems]
  simp only [← List.append_assoc]
  rfl

end SelectionScope

/-- The declaration of a field or pointer resolves to what is found out about its selections. -/
theorem resolveField_eq (g : SchemaGraph) (index : Nat) (d : Declaration) :
    resolveField g index d =
      match g.fieldByName? d.parentType.text d.fieldName.text with
      | none => (none, [])
      | some id =>
        let field := g.field id
        if field.declaration? = some index then
          match declaredForm? field.kind with
          | none => (none, d.directiveProblems)
          | some (artifactKind, pointerTarget) =>
            let c : SelectionScope := ⟨g, d.source, d.variableDefinitions⟩
            let findings := c.resolveSelections field.parent d.selections
            (some { field := id, declaration := index, source := d.source, parent := field.parent,
                    artifactKind, pointerTarget,
                    variableDefinitions := d.variableDefinitions.map .ofDefinition,
                    selections := findings.selections },
              d.directiveProblems ++ c.bodyProblems field.parent findings)
        else (none, []) := by
  cases named : g.fieldByName? d.parentType.text d.fieldName.text with
  | none => simp only [resolveField, named]
  | some id =>
    cases declared : declaredForm? (g.field id).kind with
    | none => simp only [resolveField, named, declared]
    | some form => simp only [resolveField, named, declared, SelectionScope.run_body]

end IsoLiteral
