import IsoLiteral.Proofs.Resolution.Faithful
import IsoLiteral.Proofs.Resolution.RefetchSite

/-!
# Selections and what surrounds them

Resolving goes on after an error, and nothing that was found out before is looked at on the way: from any state
the resolver adds to the diagnostics and the used variables what it comes to by itself. So what selections come
to depends on the type they stand on, the literal and its variable definitions only. Two lists put together come
to what each comes to, and a set nested in others to what it comes to by itself, with outcomes around it that are
the same whatever stands in the set. The one thing a problem hides is what stands inside of it: below a field
that is unknown or leads to no record there is no type to resolve selections on.
-/

namespace IsoLiteral

/-! ## Written surroundings -/

/-- A selection set in which the contents of one selection's braces are left open. -/
structure SelectionFrame where
  before : List Selection
  label : Option Name
  name : Name
  arguments : List Argument
  directives : List Directive
  range : TextRange
  after : List Selection

namespace SelectionFrame

/-- The selection with the open braces, with selections in them. -/
def selection (f : SelectionFrame) (inner : List Selection) : Selection :=
  ⟨f.label, f.name, f.arguments, f.directives, some inner, f.range⟩

/-- The set with selections in the open braces. -/
def plug (f : SelectionFrame) (inner : List Selection) : List Selection :=
  f.before ++ f.selection inner :: f.after

theorem plug_ne_nil (f : SelectionFrame) (inner : List Selection) : f.plug inner ≠ [] := by
  rw [plug]
  exact List.append_ne_nil_of_right_ne_nil _ (List.cons_ne_nil _ _)

end SelectionFrame

/-- Selections inside of sets that are nested in each other, the outermost of which comes first. -/
def plugAll : List SelectionFrame → List Selection → List Selection
  | [], inner => inner
  | f :: rest, inner => f.plug (plugAll rest inner)

theorem plugAll_ne_nil {frames : List SelectionFrame} {inner : List Selection}
    (nonempty : frames = [] → inner ≠ []) : plugAll frames inner ≠ [] := by
  cases frames with
  | nil => exact nonempty rfl
  | cons f rest => exact f.plug_ne_nil _

namespace SelectionScope

/-- The type of the record that a field of a type leads to. -/
def recordType? (c : SelectionScope) (parent : TypeId) (name : String) : Option TypeId :=
  (c.schema.lookupField? parent name).bind fun id =>
    match (c.schema.field id).kind with
    | .linked target _ | .pointer target => some target
    | .scalar | .resolver _ | .link => none

/-- The type that stands behind the innermost open braces, if fields that lead to records lead there. -/
def openType? (c : SelectionScope) (parent : TypeId) : List SelectionFrame → Option TypeId
  | [] => some parent
  | f :: rest => (c.recordType? parent f.name.text).bind fun target => c.openType? target rest

end SelectionScope

/-! ## Resolved surroundings -/

/-- What a selection of a record is resolved to, apart from what is selected of the record. -/
inductive RecordForm where
  | linked (head : SelectionHead) (target : TypeId) (inlineFragment updatable : Bool)
  | pointer (head : SelectionHead) (target : TypeId)

/-- The resolved selection with what is selected of the record. -/
def RecordForm.fill : RecordForm → List ResolvedSelection → ResolvedSelection
  | linked head target inlineFragment updatable, inner => .linked head target inlineFragment updatable inner
  | pointer head target, inner => .pointer head target inner

/-- What is found out about a selection set apart from the contents of one selection's braces. -/
structure FindingsFrame where
  before : Findings
  form : RecordForm
  after : Findings

/-- The findings on the whole set, from those on the contents of the braces. -/
def FindingsFrame.enclose (f : FindingsFrame) (inner : Findings) : Findings :=
  f.before ++ ({ inner with selections := [f.form.fill inner.selections] } ++ f.after)

/-- The findings on sets that are nested in each other, from those on the innermost contents. -/
def encloseAll : List FindingsFrame → Findings → Findings
  | [], inner => inner
  | f :: rest, inner => f.enclose (encloseAll rest inner)

/-! ## Outcomes of the resolver -/

/-- What is reported and used in two states. -/
instance (c : SelectionScope) : Append (ResolverState c) where
  append st st' := ⟨st.diagnostics ++ st'.diagnostics, .zipWith (· || ·) st.used st'.used⟩

/-- What the resolver comes to on selections, from a state in which nothing has been found out. -/
structure Outcome (c : SelectionScope) where
  selections : List ResolvedSelection
  state : ResolverState c

namespace Outcome

variable {c : SelectionScope}

/-- Nothing is selected, reported or used. -/
def empty : Outcome c := ⟨[], .start c []⟩

/-- Two outcomes, one after the other. -/
instance : Append (Outcome c) where
  append o o' := ⟨o.selections ++ o'.selections, o.state ++ o'.state⟩

/-- A variable that is left unused. -/
def LeavesUnused (o : Outcome c) (i : Fin c.variableDefinitions.length) : Prop := o.state.used.get i = false

@[simp] theorem selections_append (o o' : Outcome c) : (o ++ o').selections = o.selections ++ o'.selections := rfl

@[simp] theorem diagnostics_append (o o' : Outcome c) :
    (o ++ o').state.diagnostics = o.state.diagnostics ++ o'.state.diagnostics := rfl

@[simp] theorem leavesUnused_append {o o' : Outcome c} {i : Fin c.variableDefinitions.length} :
    (o ++ o').LeavesUnused i ↔ o.LeavesUnused i ∧ o'.LeavesUnused i := by
  have used : (o ++ o').state.used.get i = (o.state.used.get i || o'.state.used.get i) :=
    Vector.getElem_zipWith i.isLt
  rw [LeavesUnused, used, Bool.or_eq_false_iff]
  rfl

@[simp] theorem leavesUnused_empty {i : Fin c.variableDefinitions.length} : (empty : Outcome c).LeavesUnused i :=
  Flags.get_none i

end Outcome

/-- What a selection set comes to apart from the contents of one selection's braces. -/
structure OutcomeFrame (c : SelectionScope) where
  before : Outcome c
  form : RecordForm
  after : Outcome c

namespace OutcomeFrame

variable {c : SelectionScope}

/-- What the whole set comes to, from what the contents of the braces come to. -/
def enclose (f : OutcomeFrame c) (inner : Outcome c) : Outcome c :=
  f.before ++ (⟨[f.form.fill inner.selections], inner.state⟩ ++ f.after)

/-- What sets that are nested in each other come to, from what the innermost contents come to. -/
def encloseAll : List (OutcomeFrame c) → Outcome c → Outcome c
  | [], inner => inner
  | f :: rest, inner => f.enclose (encloseAll rest inner)

theorem leavesUnused_enclose {f : OutcomeFrame c} {inner : Outcome c} {i : Fin c.variableDefinitions.length} :
    (f.enclose inner).LeavesUnused i ↔ (f.enclose .empty).LeavesUnused i ∧ inner.LeavesUnused i := by
  have own {o : Outcome c} : (⟨[f.form.fill o.selections], o.state⟩ : Outcome c).LeavesUnused i ↔ o.LeavesUnused i :=
    Iff.rfl
  simp only [enclose, Outcome.leavesUnused_append, own, Outcome.leavesUnused_empty]
  tauto

theorem leavesUnused_encloseAll {frames : List (OutcomeFrame c)} {inner : Outcome c}
    {i : Fin c.variableDefinitions.length} :
    (encloseAll frames inner).LeavesUnused i ↔ (encloseAll frames .empty).LeavesUnused i ∧ inner.LeavesUnused i := by
  induction frames with
  | nil => simp [encloseAll]
  | cons f rest ih =>
    rw [encloseAll, encloseAll, leavesUnused_enclose, ih, @leavesUnused_enclose c f (encloseAll rest .empty)]
    exact and_assoc.symm

end OutcomeFrame

namespace SelectionScope

variable {c : SelectionScope}

/-- What selections come to on a type. -/
def outcome (c : SelectionScope) (parent : TypeId) (selections : List Selection) : Outcome c :=
  let (selections, state) := (c.selectionSet parent selections).run (.start c [])
  ⟨selections, state⟩

/-- What is reported about a declaration that selects something on a type, apart from its directives. -/
def reports (c : SelectionScope) (parent : TypeId) (selections : List Selection) : Diagnostics :=
  ((c.body parent selections).run (.start c [])).2.diagnostics

/-- Findings as an outcome of the resolver. -/
def outcomeOf (c : SelectionScope) (findings : Findings) : Outcome c :=
  ⟨findings.selections, findings.diagnostics, c.usedBy findings.used⟩

theorem foldl_markUsed (used : Flags c.variableDefinitions.length) (names : List String) :
    names.foldl c.markUsed used = .zipWith (· || ·) used (c.usedBy names) := by
  refine Vector.ext fun i valid => ?_
  have marked := get_foldl_markUsed names used ⟨i, valid⟩
  have own := get_usedBy names (⟨i, valid⟩ : Fin c.variableDefinitions.length)
  rw [Vector.getElem_zipWith]
  exact marked.trans (congrArg _ own.symm)

theorem outcomeOf_append (a b : Findings) : c.outcomeOf (a ++ b) = c.outcomeOf a ++ c.outcomeOf b := by
  have used : c.usedBy (a.used ++ b.used) = .zipWith (· || ·) (c.usedBy a.used) (c.usedBy b.used) := by
    rw [← foldl_markUsed, usedBy, List.foldl_append]
    rfl
  rw [outcomeOf, Findings.used_append, used]
  rfl

/-- **No state is looked at.** From every state, selections are resolved to what they come to by themselves, and
what is reported and used by then stays as it is. -/
theorem run_selectionSet (parent : TypeId) (selections : List Selection) (st : ResolverState c) :
    (c.selectionSet parent selections).run st =
      ((c.outcome parent selections).selections, st ++ (c.outcome parent selections).state) := by
  have run := finds_selectionSet (c := c) parent selections
  rw [outcome, run st, run (.start c []), foldl_markUsed]
  rfl

/-- Selections come to what is found out about them. -/
theorem outcome_eq (parent : TypeId) (selections : List Selection) :
    c.outcome parent selections = c.outcomeOf (c.resolveSelections parent selections) := by
  rw [outcome, finds_selectionSet parent selections]
  rfl

theorem reports_eq (parent : TypeId) (selections : List Selection) :
    c.reports parent selections = c.bodyProblems parent (c.resolveSelections parent selections) := by
  rw [reports, run_body, List.nil_append]

/-- Findings in a frame are an outcome in a frame. -/
def outcomeFrame (c : SelectionScope) (f : FindingsFrame) : OutcomeFrame c :=
  ⟨c.outcomeOf f.before, f.form, c.outcomeOf f.after⟩

theorem outcomeOf_encloseAll (frames : List FindingsFrame) (inner : Findings) :
    c.outcomeOf (encloseAll frames inner) =
      OutcomeFrame.encloseAll (frames.map c.outcomeFrame) (c.outcomeOf inner) := by
  induction frames with
  | nil => rfl
  | cons f rest ih =>
    rw [encloseAll, FindingsFrame.enclose, outcomeOf_append, outcomeOf_append, List.map_cons,
      OutcomeFrame.encloseAll, ← ih]
    rfl

end SelectionScope

/-! ## Unused and reserved variables -/

section Sites

mutual
theorem sitesOfSelection_eq_nil_iff {parent : TypeId} {whole other : List ResolvedSelection} {next start : Nat}
    (s : ResolvedSelection) :
    sitesOfSelection parent whole next s = [] ↔ sitesOfSelection parent other start s = [] := by
  cases s with
  | scalar head updatable => rfl
  | linked head target inlineFragment updatable nested =>
    rw [sitesOfSelection, sitesOfSelection]
    exact sitesOfSelections_eq_nil_iff nested
  | resolver head kind loadable =>
    cases loadable with
    | some options => cases kind <;> rfl
    | none =>
      cases kind with
      | refetchAction => exact iff_of_false (List.cons_ne_nil _ _) (List.cons_ne_nil _ _)
      | component | eager | loadableAction => rfl
  | pointer head target nested =>
    rw [sitesOfSelection, sitesOfSelection]
    exact iff_of_false (List.cons_ne_nil _ _) (List.cons_ne_nil _ _)
  | link head => rfl
/-- Whether there are sites does not depend on the set that they request or on their numbers. -/
theorem sitesOfSelections_eq_nil_iff {parent : TypeId} {whole other : List ResolvedSelection} {next start : Nat}
    (selections : List ResolvedSelection) :
    sitesOfSelections parent whole next selections = [] ↔ sitesOfSelections parent other start selections = [] := by
  cases selections with
  | nil => rfl
  | cons s rest =>
    rw [sitesOfSelections, sitesOfSelections, List.append_eq_nil_iff, List.append_eq_nil_iff]
    exact and_congr (sitesOfSelection_eq_nil_iff s) (sitesOfSelections_eq_nil_iff rest)
end

variable {parent : TypeId} {whole : List ResolvedSelection} {next : Nat}

theorem sitesOfSelections_append (xs ys : List ResolvedSelection) :
    sitesOfSelections parent whole next (xs ++ ys) =
      sitesOfSelections parent whole next xs ++
        sitesOfSelections parent whole (next + (sitesOfSelections parent whole next xs).length) ys := by
  induction xs generalizing next with
  | nil => rfl
  | cons x xs ih =>
    rw [List.cons_append, sitesOfSelections, ih, sitesOfSelections, List.append_assoc, List.length_append,
      Nat.add_assoc]

theorem refetchSites_append_eq_nil_iff (xs ys : List ResolvedSelection) :
    refetchSites parent (xs ++ ys) = [] ↔ refetchSites parent xs = [] ∧ refetchSites parent ys = [] := by
  rw [refetchSites_eq, refetchSites_eq, refetchSites_eq, sitesOfSelections_append, List.append_eq_nil_iff]
  exact and_congr (sitesOfSelections_eq_nil_iff xs) (sitesOfSelections_eq_nil_iff ys)

end Sites

namespace SelectionScope

variable {c : SelectionScope} {parent : TypeId}

/-- The problem with declaring the reserved variable. -/
theorem reservedProblem?_eq_some_iff {selections : List ResolvedSelection} {e : Diagnostic} :
    c.reservedProblem? parent selections = some e ↔
      (c.schema.isRootType parent = true → refetchSites parent selections ≠ []) ∧
        ∃ v, c.definition? refetchIdVariable = some v ∧
          (Diagnostic.located c.source .reservedVariable v.name.range).withDetail v.name.text = e := by
  rw [reservedProblem?]
  cases declared : c.definition? refetchIdVariable with
  | none => simp
  | some v =>
    rw [Option.bind_eq_bind, Option.bind_some]
    split
    · rename_i allowed
      simp only [Bool.and_eq_true, List.isEmpty_iff] at allowed
      simp [allowed.1, allowed.2]
    · rename_i reserved
      simp only [Bool.and_eq_true, List.isEmpty_iff, not_and] at reserved
      simpa using fun _ => reserved

/-- The reserved variable is reported for two lists if it is for one of them. -/
theorem reservedProblem?_append_eq_some_iff {xs ys : List ResolvedSelection} {e : Diagnostic} :
    c.reservedProblem? parent (xs ++ ys) = some e ↔
      c.reservedProblem? parent xs = some e ∨ c.reservedProblem? parent ys = some e := by
  rw [reservedProblem?_eq_some_iff, reservedProblem?_eq_some_iff, reservedProblem?_eq_some_iff, Ne,
    refetchSites_append_eq_nil_iff, ← or_and_right]
  refine and_congr_left fun _ => ?_
  tauto

theorem isError_of_mem_unusedVariables {used : Flags c.variableDefinitions.length} {w : Diagnostic}
    (member : w ∈ c.unusedVariables used) : w.isError = false := by
  obtain ⟨v, -, rfl⟩ := List.mem_map.1 member
  rfl

/-! ## Selections side by side -/

/-- What two lists of selections come to together, in terms of what each list comes to. -/
structure Joins (c : SelectionScope) (parent : TypeId) (xs ys : List Selection) : Prop where
  selections : (c.outcome parent (xs ++ ys)).selections =
    (c.outcome parent xs).selections ++ (c.outcome parent ys).selections
  diagnostics : (c.outcome parent (xs ++ ys)).state.diagnostics =
    (c.outcome parent xs).state.diagnostics ++ (c.outcome parent ys).state.diagnostics
  unused : ∀ i, (c.outcome parent (xs ++ ys)).LeavesUnused i ↔
    (c.outcome parent xs).LeavesUnused i ∧ (c.outcome parent ys).LeavesUnused i
  /-- The errors of a declaration, those about its variables included. -/
  errors : ∀ e, e.isError = true →
    (e ∈ c.reports parent (xs ++ ys) ↔ e ∈ c.reports parent xs ∨ e ∈ c.reports parent ys)

theorem outcome_append (parent : TypeId) (xs ys : List Selection) :
    c.outcome parent (xs ++ ys) = c.outcome parent xs ++ c.outcome parent ys := by
  rw [outcome_eq, resolveSelections_append, outcomeOf_append, ← outcome_eq, ← outcome_eq]

theorem joins (parent : TypeId) (xs ys : List Selection) : c.Joins parent xs ys := by
  refine ⟨?_, ?_, fun i => ?_, fun e error => ?_⟩
  · rw [outcome_append, Outcome.selections_append]
  · rw [outcome_append, Outcome.diagnostics_append]
  · rw [outcome_append, Outcome.leavesUnused_append]
  · have noWarning (used : Flags c.variableDefinitions.length) : e ∉ c.unusedVariables used := by
      intro member
      rw [isError_of_mem_unusedVariables member] at error
      cases error
    simp only [reports_eq, resolveSelections_append, bodyProblems, List.mem_append, Findings.diagnostics_append,
      Findings.selections_append, Option.mem_toList, reservedProblem?_append_eq_some_iff, noWarning, or_false]
    tauto

/-! ## Selections inside of others -/

/-- What is found out about the directives and arguments of a selection of a field. -/
def headFindings (c : SelectionScope) (id : FieldId) (f : SelectionFrame) : Findings :=
  let field := c.schema.field id
  let position := positionOf field.kind
  ⟨[], checkDirectives c.source position f.directives ++
      c.argumentProblems field f.name f.arguments (appliedDirectives position f.directives).loadable.isSome,
    f.arguments.flatMap (c.argumentVariables field)⟩

/-- What a selection of a field has, resolved. -/
def resolvedHead (c : SelectionScope) (id : FieldId) (f : SelectionFrame) : SelectionHead :=
  let arguments := resolvedArguments (c.schema.field id) f.arguments
  { responseName := (f.label.getD f.name).text, fieldName := f.name.text, field := id, arguments,
    storeKey := storeKey f.name.text arguments, span := ⟨c.source, f.range⟩ }

/-- The findings on a selection of a record are those on the record, with the same around them. -/
theorem exists_enclose_selection {f : SelectionFrame} {target : TypeId}
    (leads : c.recordType? parent f.name.text = some target) :
    ∃ own : Findings, ∃ form : RecordForm, ∀ inner, inner ≠ [] →
      c.resolveSelection parent (f.selection inner) = own ++
        { c.resolveSelections target inner with
          selections := [form.fill (c.resolveSelections target inner).selections] } := by
  obtain ⟨id, found, kind⟩ := Option.bind_eq_some_iff.1 leads
  have read (inner : List Selection) (nonempty : inner ≠ []) :
      c.resolveSelectionSet? target (some inner) = some (c.resolveSelections target inner) := by
    rw [resolveSelectionSet?, if_neg (by simpa using nonempty)]
  split at kind
  · rename_i reached inlineFragment linked
    obtain rfl : reached = target := Option.some.inj kind
    let applied := appliedDirectives (positionOf (c.schema.field id).kind) f.directives
    refine ⟨c.headFindings id f, .linked (c.resolvedHead id f) reached inlineFragment applied.updatable, ?_⟩
    intro inner nonempty
    simp only [SelectionFrame.selection, resolveSelection, found, linked, read inner nonempty, nestedFindings,
      headFindings, resolvedHead, applied, RecordForm.fill]
  · rename_i reached pointed
    obtain rfl : reached = target := Option.some.inj kind
    refine ⟨c.headFindings id f ++ ⟨[], c.pointerProblem id reached f.name, []⟩,
      .pointer (c.resolvedHead id f) reached, ?_⟩
    intro inner nonempty
    simp only [SelectionFrame.selection, resolveSelection, found, pointed, read inner nonempty, nestedFindings,
      headFindings, resolvedHead, RecordForm.fill, Findings.append_assoc]
  · cases kind
  · cases kind
  · cases kind

theorem resolveSelections_plug (f : SelectionFrame) (inner : List Selection) :
    c.resolveSelections parent (f.plug inner) = c.resolveSelections parent f.before ++
      (c.resolveSelection parent (f.selection inner) ++ c.resolveSelections parent f.after) := by
  rw [SelectionFrame.plug, resolveSelections_append, resolveSelections]

theorem exists_enclose {f : SelectionFrame} {target : TypeId}
    (leads : c.recordType? parent f.name.text = some target) :
    ∃ around : FindingsFrame, ∀ inner, inner ≠ [] →
      c.resolveSelections parent (f.plug inner) = around.enclose (c.resolveSelections target inner) := by
  obtain ⟨own, form, same⟩ := exists_enclose_selection leads
  refine ⟨⟨c.resolveSelections parent f.before ++ own, form, c.resolveSelections parent f.after⟩, ?_⟩
  intro inner nonempty
  rw [resolveSelections_plug, same inner nonempty, FindingsFrame.enclose, Findings.append_assoc,
    Findings.append_assoc]

/-- Selections inside of any number of others, on the way to which each field leads to a record. -/
theorem exists_encloseAll (frames : List SelectionFrame) :
    ∀ parent target, c.openType? parent frames = some target →
      ∃ around : List FindingsFrame, around.length = frames.length ∧ ∀ inner, inner ≠ [] →
        c.resolveSelections parent (plugAll frames inner) =
          encloseAll around (c.resolveSelections target inner) := by
  induction frames with
  | nil =>
    intro parent target leads
    obtain rfl := Option.some.inj leads
    exact ⟨[], rfl, fun inner _ => rfl⟩
  | cons f rest ih =>
    intro parent target leads
    obtain ⟨next, first, later⟩ := Option.bind_eq_some_iff.1 leads
    obtain ⟨outer, outside⟩ := exists_enclose first
    obtain ⟨around, length, inside⟩ := ih next target later
    refine ⟨outer :: around, by rw [List.length_cons, List.length_cons, length], fun inner nonempty => ?_⟩
    rw [plugAll, outside _ (plugAll_ne_nil fun _ => nonempty), inside inner nonempty, encloseAll]

/-- Braces after a field that leads to no record are an error, and their contents are not looked at. -/
theorem resolveSelection_unread {f : SelectionFrame} (leads : c.recordType? parent f.name.text = none)
    (inner : List Selection) :
    c.resolveSelection parent (f.selection inner) = c.resolveSelection parent (f.selection []) ∧
      (c.resolveSelection parent (f.selection inner)).diagnostics.hasErrors = true := by
  cases found : c.schema.lookupField? parent f.name.text with
  | none =>
    simp only [SelectionFrame.selection, resolveSelection, found]
    exact ⟨trivial, rfl⟩
  | some id =>
    rw [recordType?, found, Option.bind_some] at leads
    have forbidden : (c.bracesProblem id f.name true).hasErrors = true := rfl
    cases kind : (c.schema.field id).kind with
    | linked target inlineFragment =>
      rw [kind] at leads
      cases leads
    | pointer target =>
      rw [kind] at leads
      cases leads
    | scalar | link | resolver =>
      simp only [SelectionFrame.selection, resolveSelection, found, kind, Option.isSome_some,
        Findings.diagnostics_append, Diagnostics.hasErrors_append, forbidden, Bool.or_true, Bool.true_or, and_self]

theorem hasErrors_between {inner : Findings} (reported : inner.diagnostics.hasErrors = true)
    (before after : Findings) : (before ++ (inner ++ after)).diagnostics.hasErrors = true := by
  rw [Findings.diagnostics_append, Findings.diagnostics_append, Diagnostics.hasErrors_append,
    Diagnostics.hasErrors_append, reported, Bool.true_or, Bool.or_true]

/-- Where no type is known for what stands in the innermost braces, it is not looked at, and that is reported
for a selection around it. -/
theorem resolveSelections_unread (frames : List SelectionFrame) :
    ∀ parent, c.openType? parent frames = none → ∀ inner,
      c.resolveSelections parent (plugAll frames inner) = c.resolveSelections parent (plugAll frames []) ∧
        (c.resolveSelections parent (plugAll frames inner)).diagnostics.hasErrors = true := by
  induction frames with
  | nil =>
    intro parent leads
    cases leads
  | cons f rest ih =>
    intro parent leads inner
    rw [openType?] at leads
    cases first : c.recordType? parent f.name.text with
    | none =>
      obtain ⟨same, reported⟩ := resolveSelection_unread first (plugAll rest inner)
      obtain ⟨same', -⟩ := resolveSelection_unread first (plugAll rest [])
      constructor
      · rw [plugAll, plugAll, resolveSelections_plug, resolveSelections_plug, same, same']
      · rw [plugAll, resolveSelections_plug]
        exact hasErrors_between reported _ _
    | some target =>
      rw [first, Option.bind_some] at leads
      have nonempty (inner : List Selection) : plugAll rest inner ≠ [] := by
        apply plugAll_ne_nil
        rintro rfl
        cases leads
      obtain ⟨around, outside⟩ := exists_enclose first
      obtain ⟨same, reported⟩ := ih target leads inner
      constructor
      · rw [plugAll, plugAll, outside _ (nonempty inner), outside _ (nonempty []), same]
      · rw [plugAll, outside _ (nonempty inner), FindingsFrame.enclose]
        refine hasErrors_between ?_ _ _
        exact reported

end SelectionScope

namespace SelectionScope

/-- What is reported about a list is what is reported about each selection in it. -/
theorem diagnostics_outcome (c : SelectionScope) (parent : TypeId) (selections : List Selection) :
    (c.outcome parent selections).state.diagnostics =
      selections.flatMap fun s => ((c.selection parent s).run (.start c [])).2.diagnostics := by
  have one (s : Selection) : ((c.selection parent s).run (.start c [])).2.diagnostics =
      (c.resolveSelection parent s).diagnostics := by
    obtain ⟨resolved, -, run⟩ := findsAll_selection (c := c) parent s
    rw [run]
    rfl
  simp only [one]
  rw [outcome_eq]
  induction selections with
  | nil => rfl
  | cons s rest ih =>
    rw [resolveSelections, outcomeOf_append, Outcome.diagnostics_append, ih, List.flatMap_cons]
    rfl

end SelectionScope

/-- **Selections are resolved one by one.** Take any schema graph, literal and variable definitions. From every
state the resolver comes to the same on a list of selections, and adds that to what was reported and used before.
On every type, two lists of selections put together resolve to the selections that each resolves to, report what
each reports, and leave a variable unused that both leave unused; an error of the declaration's body is reported
exactly if it is reported with one of the lists. The same holds of lists inside of any number of nested
selections, with outcomes around them that are the same for all lists: they stay where they are among them, as
long as each field on the way leads to a record. Where one does not, that is an error, and what stands inside
of it is not looked at. -/
theorem selections_compose (c : SelectionScope) :
    (∀ parent selections (st : ResolverState c), (c.selectionSet parent selections).run st =
      ((c.outcome parent selections).selections, st ++ (c.outcome parent selections).state)) ∧
    (∀ parent selections, (c.outcome parent selections).state.diagnostics =
      selections.flatMap fun s => ((c.selection parent s).run (.start c [])).2.diagnostics) ∧
    (∀ parent xs ys, c.Joins parent xs ys) ∧
    (∀ parent frames target, c.openType? parent frames = some target →
      ∃ around : List (OutcomeFrame c), around.length = frames.length ∧ ∀ xs ys, xs ++ ys ≠ [] →
        let whole := c.outcome parent (plugAll frames (xs ++ ys))
        let first := c.outcome target xs
        let second := c.outcome target ys
        whole = OutcomeFrame.encloseAll around (first ++ second) ∧
          ∀ i, whole.LeavesUnused i ↔ (OutcomeFrame.encloseAll around .empty).LeavesUnused i ∧
            first.LeavesUnused i ∧ second.LeavesUnused i) ∧
    ∀ parent frames, c.openType? parent frames = none → ∃ outcome : Outcome c,
      outcome.state.diagnostics.hasErrors = true ∧
        ∀ inner, c.outcome parent (plugAll frames inner) = outcome := by
  refine ⟨fun _ _ _ => SelectionScope.run_selectionSet _ _ _, c.diagnostics_outcome,
    fun parent xs ys => SelectionScope.joins parent xs ys, fun parent frames target leads => ?_,
    fun parent frames leads => ?_⟩
  · obtain ⟨around, length, same⟩ := SelectionScope.exists_encloseAll frames parent target leads
    refine ⟨around.map c.outcomeFrame, by rw [List.length_map, length], fun xs ys nonempty => ?_⟩
    intro whole first second
    have enclosed : whole = OutcomeFrame.encloseAll (around.map c.outcomeFrame) (first ++ second) := by
      rw [← SelectionScope.outcome_append, SelectionScope.outcome_eq, ← SelectionScope.outcomeOf_encloseAll,
        ← same _ nonempty]
      exact SelectionScope.outcome_eq _ _
    refine ⟨enclosed, fun i => ?_⟩
    rw [enclosed, OutcomeFrame.leavesUnused_encloseAll, Outcome.leavesUnused_append]
  · have unread := SelectionScope.resolveSelections_unread frames parent leads
    refine ⟨c.outcomeOf (c.resolveSelections parent (plugAll frames [])), (unread []).2, fun inner => ?_⟩
    rw [SelectionScope.outcome_eq, (unread inner).1]

/-- A field that is selected by its name only. -/
def bareSelection (name : String) : Selection := ⟨none, ⟨name, default⟩, [], [], none, default⟩

/-- What surrounds the selections of the user, next to a field that does not exist. -/
def aroundUser : SelectionFrame := ⟨[bareSelection "age"], none, ⟨"me", default⟩, [], [], default, []⟩

/-- The user has no nickname, and neither that nor the field next to the user hides the user's `id`. On a user
there is no user again. -/
theorem selections_compose_user :
    let c : SelectionScope := ⟨userGraph [] [] [], 0, []⟩
    let nickname := [bareSelection "nickname"]
    let id := [bareSelection "id"]
    ∃ query user, c.openType? query [aroundUser] = some user ∧ nickname ++ id ≠ [] ∧
      (c.outcome user nickname).state.diagnostics.hasErrors = true ∧
      (∃ around, c.outcome query (plugAll [aroundUser] (nickname ++ id)) =
        OutcomeFrame.encloseAll around (c.outcome user nickname ++ c.outcome user id)) ∧
      c.openType? user [aroundUser] = none ∧
      ∀ inner, c.outcome user (plugAll [aroundUser] inner) = c.outcome user (plugAll [aroundUser] []) := by
  intro c nickname id
  have opened : c.openType? ⟨5⟩ [aroundUser] = some ⟨6⟩ := by decide +kernel
  have closed : c.openType? ⟨6⟩ [aroundUser] = none := by decide +kernel
  have nonempty : nickname ++ id ≠ [] := List.cons_ne_nil _ _
  obtain ⟨-, -, -, inside, unread⟩ := selections_compose c
  obtain ⟨around, -, enclosed⟩ := inside _ _ _ opened
  obtain ⟨outcome, -, same⟩ := unread _ _ closed
  refine ⟨⟨5⟩, ⟨6⟩, opened, nonempty, by decide +kernel, ⟨around, (enclosed _ _ nonempty).1⟩, closed, ?_⟩
  intro inner
  rw [same, same]

end IsoLiteral
