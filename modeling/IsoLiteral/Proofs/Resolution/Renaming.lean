import IsoLiteral.Proofs.Declaration.Plain
import IsoLiteral.Proofs.Diagnostic.Plain
import IsoLiteral.Proofs.Resolution.Outcome
import IsoLiteral.Proofs.Resolution.RefetchSite
import IsoLiteral.Proofs.Schema.Renaming

/-!
# Resolving with other numbers

Resolving a declaration does not look at numbers or places: where the fields of the graph have other numbers,
the declaration without its places is resolved to the same selections with the other numbers, and
the same is said about it. The other graph may have more fields if no field that the declaration selects is
unknown in the one (`SchemaGraph.Suffices`). Two declarations that differ in places only are compared through
the one without places.
-/

namespace IsoLiteral

/-! ## Selections -/

/-- The head of a selection with the number of its field changed and without its place. -/
def SelectionHead.rename (σ : FieldId → FieldId) (head : SelectionHead) : SelectionHead :=
  { head with field := σ head.field, span := default }

namespace ResolvedSelection

mutual
/-- The selection with the numbers of fields changed and without places. -/
def rename (σ : FieldId → FieldId) : ResolvedSelection → ResolvedSelection
  | .scalar head updatable => .scalar (head.rename σ) updatable
  | .linked head target inlineFragment updatable nested =>
    .linked (head.rename σ) target inlineFragment updatable (renameAll σ nested)
  | .resolver head kind loadable => .resolver (head.rename σ) kind loadable
  | .pointer head target nested => .pointer (head.rename σ) target (renameAll σ nested)
  | .link head => .link (head.rename σ)
termination_by structural s => s
/-- The selections with the numbers of fields changed and without places. -/
def renameAll (σ : FieldId → FieldId) : List ResolvedSelection → List ResolvedSelection
  | [] => []
  | s :: rest => s.rename σ :: renameAll σ rest
termination_by structural ss => ss
end

mutual
/-- What is renamed has no places any more. -/
theorem rename_id_rename (σ : FieldId → FieldId) (s : ResolvedSelection) : (s.rename σ).rename id = s.rename σ := by
  cases s with
  | scalar head updatable => rfl
  | resolver head kind loadable => rfl
  | link head => rfl
  | linked head target inlineFragment updatable nested =>
    rw [rename, rename, renameAll_id_renameAll σ nested]
    rfl
  | pointer head target nested =>
    rw [rename, rename, renameAll_id_renameAll σ nested]
    rfl
termination_by structural s
theorem renameAll_id_renameAll (σ : FieldId → FieldId) (ss : List ResolvedSelection) :
    renameAll id (renameAll σ ss) = renameAll σ ss := by
  cases ss with
  | nil => rfl
  | cons s rest => rw [renameAll, renameAll, rename_id_rename σ s, renameAll_id_renameAll σ rest]
termination_by structural ss
end

theorem renameAll_append (σ : FieldId → FieldId) (xs ys : List ResolvedSelection) :
    renameAll σ (xs ++ ys) = renameAll σ xs ++ renameAll σ ys := by
  induction xs with
  | nil => rw [List.nil_append, renameAll, List.nil_append]
  | cons s rest ih => rw [List.cons_append, renameAll, ih, renameAll, List.cons_append]

end ResolvedSelection

open ResolvedSelection

/-! ## Directives without places -/

theorem firstOccurrences_bare (directives : List Directive) (seen : List KnownDirective) :
    firstOccurrences seen (directives.map Directive.bare) =
      (firstOccurrences seen directives).map fun p => (p.1, p.2.bare) := by
  induction directives generalizing seen with
  | nil => rfl
  | cons d rest ih =>
    have own : d.bare.name.text = d.name.text := rfl
    simp only [List.map_cons, firstOccurrences, own]
    cases KnownDirective.ofName? d.name.text with
    | none => exact ih seen
    | some known =>
      dsimp only
      split
      · exact ih seen
      · rw [List.map_cons, ih]

theorem lookup_map_snd {α β γ : Type} [BEq α] (f : β → γ) (a : α) (pairs : List (α × β)) :
    (pairs.map fun p => (p.1, f p.2)).lookup a = (pairs.lookup a).map f := by
  induction pairs with
  | nil => rfl
  | cons pair rest ih =>
    obtain ⟨b, value⟩ := pair
    rw [List.map_cons, List.lookup_cons, List.lookup_cons, ih]
    cases a == b <;> rfl

theorem Directive.flag_bare (d : Directive) (name : String) : d.bare.flag name = d.flag name := by
  rw [Directive.flag, Directive.flag, Directive.bare, List.findSome?_map]
  rfl

theorem appliedDirectives_bare (position : DirectivePosition) (directives : List Directive) :
    appliedDirectives position (directives.map Directive.bare) = appliedDirectives position directives := by
  rw [appliedDirectives, appliedDirectives]
  split
  · rfl
  · rw [firstOccurrences_bare]
    simp only [AppliedDirectives.ofPresent, lookup_map_snd, Option.isSome_map, Option.map_map]
    simp only [Function.comp_def, Directive.flag_bare]

theorem plain_conflicts (source source' : Nat) (present : List (KnownDirective × Directive)) :
    (conflicts source' (present.map fun p => (p.1, p.2.bare))).plain = (conflicts source present).plain := by
  induction present with
  | nil => rfl
  | cons first rest ih =>
    rw [List.map_cons, conflicts, conflicts, Diagnostics.plain_append, Diagnostics.plain_append, ih]
    rw [Diagnostics.plain_filterMap fun second => ?_]
    simp only [conflict?]
    split <;> rfl

theorem plain_flagProblem? (source source' : Nat) (known : KnownDirective) (a : Argument) :
    (flagProblem? source' known a.bare).map Diagnostic.plain = (flagProblem? source known a).map Diagnostic.plain := by
  simp only [flagProblem?, Argument.bare, Name.plain, PlacedValue.plain]
  by_cases flag : a.name.text ∈ known.flags
  · simp only [flag, if_true]
    generalize a.value.value = v
    cases v with
    | list items => dsimp only; split <;> rfl
    | object fields => dsimp only; split <;> rfl
    | _ => rfl
  · simp only [flag, if_false]
    rfl

theorem plain_placementProblem? (source source' : Nat) (position : DirectivePosition) (known : KnownDirective)
    (d : Directive) :
    Diagnostics.plain (placementProblem? source' position known d.bare).toList =
      Diagnostics.plain (placementProblem? source position known d).toList := by
  simp only [placementProblem?]
  split <;> rfl

theorem plain_directiveProblems (source source' : Nat) (position : DirectivePosition)
    (directives : List Directive) (seen : List KnownDirective) :
    (directiveProblems source' position seen (directives.map Directive.bare)).plain =
      (directiveProblems source position seen directives).plain := by
  induction directives generalizing seen with
  | nil => rfl
  | cons d rest ih =>
    have own : d.bare.name.text = d.name.text := rfl
    have flags (known : KnownDirective) :
        Diagnostics.plain (d.bare.arguments.filterMap (flagProblem? source' known)) =
          Diagnostics.plain (d.arguments.filterMap (flagProblem? source known)) :=
      Diagnostics.plain_filterMap (plain_flagProblem? source source' known) d.arguments
    simp only [List.map_cons, directiveProblems, own]
    cases KnownDirective.ofName? d.name.text with
    | none => simp only [Diagnostics.plain_cons, ih]; rfl
    | some known =>
      dsimp only
      split
      · simp only [Diagnostics.plain_cons, ih]; rfl
      · simp only [Diagnostics.plain_append, plain_placementProblem? source source', flags, ih]

theorem plain_checkDirectives (source source' : Nat) (position : DirectivePosition)
    (directives : List Directive) :
    (checkDirectives source' position (directives.map Directive.bare)).plain =
      (checkDirectives source position directives).plain := by
  rw [checkDirectives, checkDirectives]
  split
  · simp only [Diagnostics.plain, List.map_map]
    rfl
  · rw [Diagnostics.plain_append, Diagnostics.plain_append, plain_directiveProblems source source',
      firstOccurrences_bare, plain_conflicts source source']

/-! ## Refetch sites -/

/-- The site with the numbers of fields changed and without places. -/
def RefetchSite.rename (σ : FieldId → FieldId) (site : RefetchSite) : RefetchSite :=
  { site with selections := renameAll σ site.selections }

mutual
theorem sitesOfSelection_rename (σ : FieldId → FieldId) (parent : TypeId) (whole : List ResolvedSelection)
    (next : Nat) (s : ResolvedSelection) :
    sitesOfSelection parent (renameAll σ whole) next (s.rename σ) =
      (sitesOfSelection parent whole next s).map (RefetchSite.rename σ) := by
  cases s with
  | scalar head updatable => rfl
  | link head => rfl
  | resolver head kind loadable => cases kind <;> cases loadable <;> rfl
  | linked head target inlineFragment updatable nested =>
    rw [rename, sitesOfSelection, sitesOfSelection]
    exact sitesOfSelections_rename σ target nested next nested
  | pointer head target nested =>
    rw [rename, sitesOfSelection, sitesOfSelection, List.map_cons, sitesOfSelections_rename]
    rfl
termination_by structural s
theorem sitesOfSelections_rename (σ : FieldId → FieldId) (parent : TypeId) (whole : List ResolvedSelection)
    (next : Nat) (ss : List ResolvedSelection) :
    sitesOfSelections parent (renameAll σ whole) next (renameAll σ ss) =
      (sitesOfSelections parent whole next ss).map (RefetchSite.rename σ) := by
  cases ss with
  | nil => rfl
  | cons s rest =>
    rw [renameAll, sitesOfSelections, sitesOfSelections, List.map_append, sitesOfSelection_rename, List.length_map,
      sitesOfSelections_rename]
termination_by structural ss
end

theorem refetchSites_rename (σ : FieldId → FieldId) (parent : TypeId) (ss : List ResolvedSelection) :
    refetchSites parent (renameAll σ ss) = (refetchSites parent ss).map (RefetchSite.rename σ) := by
  rw [refetchSites_eq, refetchSites_eq, sitesOfSelections_rename]

/-! ## Fields that are unknown -/

/-- What one graph says about a declaration is all that another has to say: they have the same fields, or nothing
that is reported is an error, and then no field was looked up in vain. -/
def SchemaGraph.Suffices (g g' : SchemaGraph) (σ : FieldId → FieldId) (reports : Diagnostics) : Prop :=
  g.Renames g' σ ∨ reports.hasErrors = false

namespace SchemaGraph.Suffices

variable {g g' : SchemaGraph} {σ : FieldId → FieldId} {reports more : Diagnostics}

theorem append_iff : g.Suffices g' σ (reports ++ more) ↔ g.Suffices g' σ reports ∧ g.Suffices g' σ more := by
  simp [Suffices, Diagnostics.hasErrors_append, or_and_left]

theorem plain_iff : g.Suffices g' σ reports.plain ↔ g.Suffices g' σ reports := by
  rw [Suffices, Suffices, Diagnostics.hasErrors_plain]

/-- A field that is reported if it is unknown is looked up alike. -/
theorem lookupField? (enough : g.Suffices g' σ reports) (h : g.Embeds g' σ) {type : TypeId} {name : String}
    (reported : g.lookupField? type name = none → reports.hasErrors = true) :
    g'.lookupField? type name = (g.lookupField? type name).map σ := by
  rcases enough with same | clean
  · exact same.lookupField? type name
  · cases known : g.lookupField? type name with
    | some id => exact h.found known
    | none => cases clean.symm.trans (reported known)

end SchemaGraph.Suffices

/-! ## Arguments without places -/

/-- Two findings are the same but for the numbers of fields and for places. -/
structure Findings.Renames (σ : FieldId → FieldId) (found found' : Findings) : Prop where
  selections : renameAll id found'.selections = renameAll σ found.selections
  reports : found'.diagnostics.plain = found.diagnostics.plain
  used : found'.used = found.used

theorem Findings.Renames.append {σ : FieldId → FieldId} {a a' b b' : Findings} (first : a.Renames σ a')
    (second : b.Renames σ b') : (a ++ b).Renames σ (a' ++ b') where
  selections := by
    rw [Findings.selections_append, Findings.selections_append, renameAll_append, renameAll_append,
      first.selections, second.selections]
  reports := by
    rw [Findings.diagnostics_append, Findings.diagnostics_append, Diagnostics.plain_append,
      Diagnostics.plain_append, first.reports, second.reports]
  used := by rw [Findings.used_append, Findings.used_append, first.used, second.used]

namespace SelectionScope

/-- What the declaration without its places is resolved against in another graph. -/
def bareIn (c : SelectionScope) (g' : SchemaGraph) : SelectionScope :=
  ⟨g', 0, c.variableDefinitions.map VariableDefinition.bare⟩

variable {c : SelectionScope} {g' : SchemaGraph} {σ : FieldId → FieldId}

theorem definition?_bareIn (c : SelectionScope) (g' : SchemaGraph) (name : String) :
    (c.bareIn g').definition? name = (c.definition? name).map VariableDefinition.bare := by
  rw [definition?, definition?, bareIn, List.find?_map]
  rfl

theorem judgeVariable_bareIn (c : SelectionScope) (g' : SchemaGraph) :
    (c.bareIn g').judgeVariable = c.judgeVariable := by
  funext name expected
  rw [judgeVariable, judgeVariable, definition?_bareIn]
  cases c.definition? name with
  | none => rfl
  | some v =>
    have satisfies : v.bare.satisfies expected = v.satisfies expected := by
      simp only [VariableDefinition.satisfies, VariableDefinition.bare, TypeRef.plain, Option.isSome_map]
    simp only [Option.map_some, satisfies]
    rfl

theorem checkArgument_bareIn (h : c.schema.Embeds g' σ) (value : Value) (expected : TypeExpr) :
    (c.bareIn g').checkArgument value expected = c.checkArgument value expected := by
  rw [checkArgument, checkArgument, judgeVariable_bareIn]
  exact h.checkValue c.judgeVariable expected value

theorem plain_argumentProblem? (h : c.schema.Embeds g' σ) (id : FieldId) (a : Argument) :
    ((c.bareIn g').argumentProblem? (g'.field (σ id)) a.bare).map Diagnostic.plain =
      (c.argumentProblem? (c.schema.field id) a).map Diagnostic.plain := by
  have own : a.bare.name.text = a.name.text := rfl
  have value : a.bare.value.value = a.value.value := rfl
  simp only [argumentProblem?, own, value, h.argument?]
  cases (c.schema.field id).argument? a.name.text with
  | none => rfl
  | some d =>
    simp only [checkArgument_bareIn h]
    cases (c.checkArgument a.value.value d.type).error with
    | none => rfl
    | some error => cases error <;> rfl

theorem argumentVariables_bareIn (h : c.schema.Embeds g' σ) (id : FieldId) (a : Argument) :
    (c.bareIn g').argumentVariables (g'.field (σ id)) a.bare = c.argumentVariables (c.schema.field id) a := by
  have own : a.bare.name.text = a.name.text := rfl
  have value : a.bare.value.value = a.value.value := rfl
  simp only [argumentVariables, own, value, h.argument?, checkArgument_bareIn h]

theorem resolvedArguments_bare (h : c.schema.Embeds g' σ) (id : FieldId) (arguments : List Argument) :
    resolvedArguments (g'.field (σ id)) (arguments.map Argument.bare) =
      resolvedArguments (c.schema.field id) arguments := by
  rw [resolvedArguments, resolvedArguments, List.filter_map, List.map_map]
  simp only [Function.comp_def, h.argument?]
  rfl

theorem plain_argumentProblems (h : c.schema.Embeds g' σ) (id : FieldId) (name name' : Name)
    (arguments : List Argument) (loadable : Bool) :
    ((c.bareIn g').argumentProblems (g'.field (σ id)) name' (arguments.map Argument.bare) loadable).plain =
      (c.argumentProblems (c.schema.field id) name arguments loadable).plain := by
  have missing : ((c.bareIn g').missingArguments (g'.field (σ id)) name' (arguments.map Argument.bare)
      loadable).plain = (c.missingArguments (c.schema.field id) name arguments loadable).plain := by
    rw [missingArguments, missingArguments, h.fieldArguments]
    split
    · rfl
    · simp only [Diagnostics.plain, List.map_map, List.any_map]
      rfl
  rw [argumentProblems, argumentProblems, Diagnostics.plain_append, Diagnostics.plain_append, missing,
    Diagnostics.plain_filterMap (plain_argumentProblem? h id)]

/-! ## Selections without places -/

theorem plain_bracesProblem (h : c.schema.Embeds g' σ) (id : FieldId) (name name' : Name) (hasBraces : Bool) :
    ((c.bareIn g').bracesProblem (σ id) name' hasBraces).plain = (c.bracesProblem id name hasBraces).plain := by
  simp only [bracesProblem, unexpectedBraces, bareIn, h.qualifiedName]
  split <;> rfl

theorem plain_loadableProblems (h : c.schema.Embeds g' σ) (id : FieldId) (kind : ArtifactKind)
    (name name' : Name) (loadable : Bool) :
    ((c.bareIn g').loadableProblems (σ id) kind name' loadable).plain =
      (c.loadableProblems id kind name loadable).plain := by
  have none (parent : TypeId) : (g'.idField? parent).isNone = (c.schema.idField? parent).isNone := by
    rw [h.idField?, Option.isNone_map]
  simp only [loadableProblems, loadableRequired, loadableRequiresId, bareIn, h.fieldParent, h.isRootType, none,
    h.qualifiedName, h.typeName, Diagnostics.plain_append]
  congr 1
  · split <;> rfl
  · split <;> rfl

theorem plain_pointerProblem (h : c.schema.Embeds g' σ) (id : FieldId) (target : TypeId) (name name' : Name) :
    ((c.bareIn g').pointerProblem (σ id) target name').plain = (c.pointerProblem id target name).plain := by
  have none : (g'.idField? target).isNone = (c.schema.idField? target).isNone := by
    rw [h.idField?, Option.isNone_map]
  simp only [pointerProblem, pointerRequiresId, bareIn, none, h.qualifiedName, h.typeName]
  split <;> rfl

theorem plain_emptyProblem (h : c.schema.Embeds g' σ) (id : FieldId) (name name' : Name) (hasBraces : Bool) :
    ((c.bareIn g').emptyProblem (σ id) name' hasBraces).plain = (c.emptyProblem id name hasBraces).plain := by
  simp only [emptyProblem, bareIn, h.qualifiedName]
  rfl

theorem isSome_bareSet (set : Option (List Selection)) : (Selection.bareSet set).isSome = set.isSome := by
  cases set <;> rfl

theorem isEmpty_bareAll (ss : List Selection) : (Selection.bareAll ss).isEmpty = ss.isEmpty := by
  cases ss <;> rfl

/-- What is found about a selection that leads to a record is the same where what is found there is. -/
theorem renames_nestedFindings (h : c.schema.Embeds g' σ) {field : FieldId} {name name' : Name}
    {hasBraces : Bool} {form form' : List ResolvedSelection → ResolvedSelection} {found? found'? : Option Findings}
    (forms : ∀ ss ss', renameAll id ss' = renameAll σ ss → (form' ss').rename id = (form ss).rename σ)
    (inside : Option.Rel (Findings.Renames σ) found? found'?) :
    (c.nestedFindings field name hasBraces form found?).Renames σ
      ((c.bareIn g').nestedFindings (σ field) name' hasBraces form' found'?) := by
  cases inside with
  | none => exact ⟨rfl, congrArg (· :: []) (plain_emptyProblem h field name name' hasBraces), rfl⟩
  | some same =>
    refine ⟨?_, same.reports, same.used⟩
    rw [nestedFindings, nestedFindings, renameAll, renameAll, forms _ _ same.selections]
    rfl

mutual
theorem renames_resolveSelection (h : c.schema.Embeds g' σ) (parent : TypeId) (s : Selection)
    (enough : c.schema.Suffices g' σ (c.resolveSelection parent s).diagnostics) :
    (c.resolveSelection parent s).Renames σ ((c.bareIn g').resolveSelection parent s.bare) := by
  obtain ⟨label, name, arguments, directives, set, range⟩ := s
  have schema : (c.bareIn g').schema = g' := rfl
  have text : (Name.plain name.text).text = name.text := rfl
  have response : ((label.map (Name.plain ·.text)).getD (.plain name.text)).text = (label.getD name).text := by
    cases label <;> rfl
  have lookup := enough.lookupField? h fun unknown => by
    rw [resolveSelection, unknown]
    rfl
  rw [Selection.bare, resolveSelection, resolveSelection, schema, text, lookup]
  rw [resolveSelection] at enough
  cases known : c.schema.lookupField? parent name.text with
  | none =>
    refine ⟨rfl, ?_, rfl⟩
    simp only [Option.map_none, unknownField, schema, h.typeName]
    rfl
  | some field =>
    simp only [known, Findings.diagnostics_append, SchemaGraph.Suffices.append_iff] at enough
    replace enough := enough.2
    simp only [Option.map_some, h.fieldKind, appliedDirectives_bare, resolvedArguments_bare h, response,
      isSome_bareSet]
    refine Findings.Renames.append ⟨rfl, ?_, ?_⟩ ?_
    · rw [Diagnostics.plain_append, Diagnostics.plain_append, plain_argumentProblems h field name,
        plain_checkDirectives c.source]
    · simp only [List.flatMap_map, argumentVariables_bareIn h]
    · cases kind : (c.schema.field field).kind with
      | scalar => exact ⟨rfl, plain_bracesProblem h field name _ _, rfl⟩
      | link => exact ⟨rfl, plain_bracesProblem h field name _ _, rfl⟩
      | resolver artifact =>
        refine ⟨rfl, ?_, rfl⟩
        rw [Diagnostics.plain_append, Diagnostics.plain_append, plain_bracesProblem h field name,
          plain_loadableProblems h field artifact name]
      | linked target inlineFragment =>
        simp only [kind] at enough
        refine renames_nestedFindings h (fun ss ss' same => ?_)
          (renames_resolveSelectionSet? h target set fun found resolved => ?_)
        · rw [rename, rename, same]
          rfl
        · rwa [resolved] at enough
      | pointer target =>
        simp only [kind, Findings.diagnostics_append, SchemaGraph.Suffices.append_iff] at enough
        refine Findings.Renames.append ⟨rfl, plain_pointerProblem h field target name _, rfl⟩ ?_
        refine renames_nestedFindings h (fun ss ss' same => ?_)
          (renames_resolveSelectionSet? h target set fun found resolved => ?_)
        · rw [rename, rename, same]
          rfl
        · rw [resolved] at enough
          exact enough.2
termination_by structural s
theorem renames_resolveSelectionSet? (h : c.schema.Embeds g' σ) (parent : TypeId)
    (set : Option (List Selection))
    (enough : ∀ found, c.resolveSelectionSet? parent set = some found →
      c.schema.Suffices g' σ found.diagnostics) :
    Option.Rel (Findings.Renames σ) (c.resolveSelectionSet? parent set)
      ((c.bareIn g').resolveSelectionSet? parent (Selection.bareSet set)) := by
  cases set with
  | none => exact .none
  | some ss =>
    rw [resolveSelectionSet?] at enough
    rw [Selection.bareSet, resolveSelectionSet?, resolveSelectionSet?, isEmpty_bareAll]
    have inside := renames_resolveSelections h parent ss
    split
    · exact .none
    · rename_i written
      simp only [written] at enough
      exact .some (inside (enough _ rfl))
termination_by structural set
theorem renames_resolveSelections (h : c.schema.Embeds g' σ) (parent : TypeId) (ss : List Selection)
    (enough : c.schema.Suffices g' σ (c.resolveSelections parent ss).diagnostics) :
    (c.resolveSelections parent ss).Renames σ ((c.bareIn g').resolveSelections parent (Selection.bareAll ss)) := by
  cases ss with
  | nil => exact ⟨rfl, rfl, rfl⟩
  | cons s rest =>
    rw [resolveSelections, Findings.diagnostics_append, SchemaGraph.Suffices.append_iff] at enough
    rw [Selection.bareAll, resolveSelections, resolveSelections]
    exact (renames_resolveSelection h parent s enough.1).append (renames_resolveSelections h parent rest enough.2)
termination_by structural ss
end

/-! ## Declarations without places -/

theorem plain_variableProblem? (h : c.schema.Embeds g' σ) (v : VariableDefinition) :
    ((c.bareIn g').variableProblem? v.bare).map Diagnostic.plain = (c.variableProblem? v).map Diagnostic.plain := by
  have annotation : v.bare.type.annotation = v.type.annotation := rfl
  have value : v.bare.defaultValue = v.defaultValue.map (.plain ·.value) := rfl
  simp only [variableProblem?, bareIn, annotation, value, h.typeByName?, h.kind]
  split
  · cases v.defaultValue with
    | none => rfl
    | some placed =>
      have same : (PlacedValue.plain placed.value).value = placed.value := rfl
      simp only [Option.map_some, Option.bind_eq_bind, Option.bind_some, same, h.checkValue]
      cases (c.schema.checkValue judgeInDefault v.type.annotation placed.value).error <;> rfl
  · rfl

theorem plain_reservedProblem? (h : c.schema.Embeds g' σ) (parent : TypeId) {ss ss' : List ResolvedSelection}
    (same : renameAll id ss' = renameAll σ ss) :
    ((c.bareIn g').reservedProblem? parent ss').map Diagnostic.plain =
      (c.reservedProblem? parent ss).map Diagnostic.plain := by
  have sites : (refetchSites parent ss').isEmpty = (refetchSites parent ss).isEmpty := by
    have renamed := congrArg List.isEmpty (congrArg (refetchSites parent) same)
    simpa only [refetchSites_rename, List.isEmpty_map] using renamed
  have schema : (c.bareIn g').schema = g' := rfl
  rw [reservedProblem?, reservedProblem?, definition?_bareIn, sites, schema, h.isRootType]
  cases c.definition? refetchIdVariable with
  | none => rfl
  | some v =>
    simp only [Option.map_some, Option.bind_eq_bind, Option.bind_some]
    split <;> rfl

theorem plain_unusedVariables (c : SelectionScope) (g' : SchemaGraph) (names : List String) :
    ((c.bareIn g').unusedVariables ((c.bareIn g').usedBy names)).plain =
      (c.unusedVariables (c.usedBy names)).plain := by
  rw [unusedVariables_usedBy, unusedVariables_usedBy, bareIn]
  simp only [List.zipIdx_map, List.findIdx?_map, List.filter_map, Diagnostics.plain, List.map_map]
  rfl

theorem plain_bodyProblems (h : c.schema.Embeds g' σ) (parent : TypeId) {found found' : Findings}
    (same : found.Renames σ found') :
    ((c.bareIn g').bodyProblems parent found').plain = (c.bodyProblems parent found).plain := by
  have reserved : Diagnostics.plain ((c.bareIn g').reservedProblem? parent found'.selections).toList =
      Diagnostics.plain (c.reservedProblem? parent found.selections).toList := by
    have kind := plain_reservedProblem? h parent same.selections
    rw [Diagnostics.plain, Diagnostics.plain, ← Option.toList_map, ← Option.toList_map, kind]
  have definitions : Diagnostics.plain
      ((c.bareIn g').variableDefinitions.filterMap (c.bareIn g').variableProblem?) =
      Diagnostics.plain (c.variableDefinitions.filterMap c.variableProblem?) :=
    Diagnostics.plain_filterMap (plain_variableProblem? h) c.variableDefinitions
  simp only [bodyProblems, Diagnostics.plain_append, definitions, same.reports, same.used, reserved,
    plain_unusedVariables]

end SelectionScope

/-- The resolved field with the numbers of fields changed and without places. -/
def ResolvedField.rename (σ : FieldId → FieldId) (f : ResolvedField) : ResolvedField :=
  { f with field := σ f.field, declaration := 0, source := 0, selections := renameAll σ f.selections }

theorem ResolvedField.rename_id_rename (σ : FieldId → FieldId) (f : ResolvedField) :
    (f.rename σ).rename id = f.rename σ := by
  rw [rename, rename, renameAll_id_renameAll]
  rfl

/-- The resolved entrypoint with the number of its field changed and without its place. -/
def ResolvedEntrypoint.rename (σ : FieldId → FieldId) (e : ResolvedEntrypoint) : ResolvedEntrypoint :=
  { e with declaration := 0, field := σ e.field, span := default }

namespace Declaration

/-- The index that the declaration has according to the field that it names. -/
def indexIn (d : Declaration) (g : SchemaGraph) : Nat :=
  ((g.fieldByName? d.parentType.text d.fieldName.text).bind (g.field · |>.declaration?)).getD 0

/-- What a declaration comes to by itself, with the numbers of fields changed and without places. -/
structure Summary where
  field : Option ResolvedField
  entrypoint : Option ResolvedEntrypoint
  reports : Diagnostics

/-- What the declaration comes to in a graph whose fields get other numbers. -/
def summary (d : Declaration) (g : SchemaGraph) (σ : FieldId → FieldId) : Summary :=
  if d.kind = .entrypoint then
    let outcome := resolveEntrypoint g (d.indexIn g) d
    ⟨none, outcome.1.map (.rename σ), outcome.2.plain⟩
  else
    let outcome := resolveField g (d.indexIn g) d
    ⟨outcome.1.map (.rename σ), none, outcome.2.plain⟩

variable {g g' : SchemaGraph} {σ : FieldId → FieldId}

theorem plain_directiveProblems_bare (d : Declaration) :
    d.bare.directiveProblems.plain = d.directiveProblems.plain :=
  plain_checkDirectives d.source 0 d.kind.position d.directives

/-- Without its places, with another index and in a graph with other numbers, a declaration that has its field in
both or in neither is resolved to the same. -/
theorem resolveField_bare (h : g.Embeds g' σ) (d : Declaration) {index index' : Nat}
    (named : g'.fieldByName? d.parentType.text d.fieldName.text =
      (g.fieldByName? d.parentType.text d.fieldName.text).map σ)
    (owns : ∀ field, g.fieldByName? d.parentType.text d.fieldName.text = some field →
      ((g'.field (σ field)).declaration? = some index' ↔ (g.field field).declaration? = some index))
    (enough : g.Suffices g' σ (resolveField g index d).2) :
    (resolveField g' index' d.bare).1.map (ResolvedField.rename id) =
        (resolveField g index d).1.map (ResolvedField.rename σ) ∧
      (resolveField g' index' d.bare).2.plain = (resolveField g index d).2.plain := by
  have parent : d.bare.parentType.text = d.parentType.text := rfl
  have name : d.bare.fieldName.text = d.fieldName.text := rfl
  rw [resolveField_eq] at enough
  rw [resolveField_eq, resolveField_eq, parent, name, named]
  cases found : g.fieldByName? d.parentType.text d.fieldName.text with
  | none => exact ⟨rfl, rfl⟩
  | some field =>
    simp only [Option.map_some, owns field found]
    split
    · rename_i own
      simp only [found, own, if_true] at enough
      simp only [h.fieldKind, h.fieldParent]
      cases form : declaredForm? (g.field field).kind with
      | none => exact ⟨rfl, d.plain_directiveProblems_bare⟩
      | some kinds =>
        simp only [form, SelectionScope.bodyProblems, SchemaGraph.Suffices.append_iff] at enough
        obtain ⟨-, ⟨⟨-, selections⟩, -⟩, -⟩ := enough
        let c : SelectionScope := ⟨g, d.source, d.variableDefinitions⟩
        have found := SelectionScope.renames_resolveSelections (c := c) h (g.field field).parent d.selections selections
        have body := SelectionScope.plain_bodyProblems (c := c) h (g.field field).parent found
        refine ⟨?_, ?_⟩
        · simp only [Option.map_some, ResolvedField.rename]
          congr 2
          · simp [Declaration.bare, ResolvedVariable.ofDefinition, VariableDefinition.bare, Name.plain,
              TypeRef.plain, PlacedValue.plain, Option.map_map, Function.comp_def]
          · exact found.selections
        · rw [Diagnostics.plain_append, Diagnostics.plain_append, d.plain_directiveProblems_bare]
          exact congrArg _ body
    · exact ⟨rfl, rfl⟩

/-- The field of a declaration is its own under the index that the field has in the graph, if it is declared. -/
theorem declaration?_indexIn (h : g.Embeds g' σ) (d : Declaration) {field : FieldId}
    (named : g.fieldByName? d.parentType.text d.fieldName.text = some field) :
    (g'.field (σ field)).declaration? = some (d.bare.indexIn g') ↔
      (g.field field).declaration? = some (d.indexIn g) := by
  have declared := h.isSome_declaration? field
  have named' : g'.fieldByName? d.bare.parentType.text d.bare.fieldName.text = some (σ field) :=
    h.foundByName named
  rw [indexIn, indexIn, named, named', Option.bind_some, Option.bind_some]
  cases known : (g.field field).declaration? <;> cases known' : (g'.field (σ field)).declaration? <;>
    simp_all

theorem resolveEntrypoint_bare (h : g.Embeds g' σ) (d : Declaration) (index index' : Nat)
    (enough : g.Suffices g' σ (resolveEntrypoint g index d).2) :
    (resolveEntrypoint g' index' d.bare).1.map (ResolvedEntrypoint.rename id) =
        (resolveEntrypoint g index d).1.map (ResolvedEntrypoint.rename σ) ∧
      (resolveEntrypoint g' index' d.bare).2.plain = (resolveEntrypoint g index d).2.plain := by
  have parent : d.bare.parentType.text = d.parentType.text := rfl
  have name : d.bare.fieldName.text = d.fieldName.text := rfl
  have directives : d.bare.directives = d.directives.map Directive.bare := rfl
  have root : g'.rootByName? d.parentType.text = g.rootByName? d.parentType.text := by
    rw [SchemaGraph.rootByName?, SchemaGraph.rootByName?, h.typeByName?]
    exact congrArg (Option.filter · _) (funext h.isRootType)
  have resolver {type : TypeId} (rooted : g.rootByName? d.parentType.text = some type) :
      g'.declaredResolver? type d.fieldName.text = (g.declaredResolver? type d.fieldName.text).map σ := by
    have lookup : g'.lookupField? type d.fieldName.text = (g.lookupField? type d.fieldName.text).map σ :=
      enough.lookupField? h fun unknown => by
        have undeclared : g.declaredResolver? type d.fieldName.text = none := by
          rw [SchemaGraph.declaredResolver?, unknown, Option.filter_none]
        simp only [resolveEntrypoint, rooted, undeclared]
        exact Diagnostics.hasErrors_concat rfl
    rw [SchemaGraph.declaredResolver?, SchemaGraph.declaredResolver?, lookup]
    cases g.lookupField? type d.fieldName.text with
    | none => rfl
    | some field =>
      simp only [Option.map_some, Option.filter_some, h.isSome_declaration?, h.fieldKind, apply_ite (Option.map σ),
        Option.map_none]
  rw [resolveEntrypoint, resolveEntrypoint, parent, name, root]
  cases rooted : g.rootByName? d.parentType.text with
  | none =>
    refine ⟨rfl, ?_⟩
    rw [Diagnostics.plain_append, Diagnostics.plain_append, d.plain_directiveProblems_bare]
    rfl
  | some type =>
    simp only [resolver rooted]
    cases g.declaredResolver? type d.fieldName.text with
    | none =>
      refine ⟨rfl, ?_⟩
      simp only [Option.map_none, Diagnostics.plain_append, d.plain_directiveProblems_bare]
      rfl
    | some field =>
      refine ⟨?_, d.plain_directiveProblems_bare⟩
      simp only [Option.map_some, directives, appliedDirectives_bare]
      rfl

/-- Without its places, in a graph that has more to say, a declaration comes to the same if what the one graph says
suffices. -/
theorem summary_bare_of_suffices (h : g.Embeds g' σ) (d : Declaration)
    (named : d.kind ≠ .entrypoint → g'.fieldByName? d.parentType.text d.fieldName.text =
      (g.fieldByName? d.parentType.text d.fieldName.text).map σ)
    (enough : g.Suffices g' σ (d.summary g σ).reports) : d.bare.summary g' id = d.summary g σ := by
  have kind : d.bare.kind = d.kind := rfl
  rw [summary] at enough
  rw [summary, summary, kind]
  split
  · rename_i form
    simp only [form, if_true, SchemaGraph.Suffices.plain_iff] at enough
    obtain ⟨resolved, reports⟩ := resolveEntrypoint_bare h d (d.indexIn g) (d.bare.indexIn g') enough
    dsimp only
    rw [resolved, reports]
  · rename_i form
    simp only [form, if_false, SchemaGraph.Suffices.plain_iff] at enough
    obtain ⟨resolved, reports⟩ := resolveField_bare h d (named form) (fun _ => declaration?_indexIn h d) enough
    dsimp only
    rw [resolved, reports]

/-- Without its places, in a graph with other numbers, a declaration comes to the same. -/
theorem summary_bare (h : g.Renames g' σ) (d : Declaration) : d.bare.summary g' id = d.summary g σ :=
  d.summary_bare_of_suffices h.toEmbeds (fun _ => h.fieldByName? _ _) (.inl h)

end Declaration

end IsoLiteral
