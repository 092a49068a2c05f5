import IsoLiteral.Proofs.Resolution.Mirrors

/-!
# Resolved fields and their declarations

A resolved field comes from the declaration with its index, and nothing was wrong with that declaration
(`ResolvedFrom`). Everything that is known of resolved fields follows from this, first of all that their
selections mirror the written ones.
-/

namespace IsoLiteral

/-! ## Judging variables -/

namespace SelectionScope

/-- A variable may stand somewhere only if it is declared and satisfies the type. -/
theorem judgeVariable_eq_none_iff {c : SelectionScope} {x : String} {expected : TypeExpr} :
    c.judgeVariable x expected = none ↔
      ∃ v, c.definition? x = some v ∧ v.satisfies expected = true := by
  rw [judgeVariable]
  split
  · rename_i undeclared
    simp [undeclared]
  · rename_i v declared
    simp [declared]

theorem mem_of_definition? {c : SelectionScope} {x : String} {v : VariableDefinition}
    (found : c.definition? x = some v) : v ∈ c.variableDefinitions ∧ v.name.text = x :=
  ⟨List.mem_of_find?_eq_some found, by simpa using List.find?_some found⟩

/-- What is reported about the definition of a variable is an error. -/
theorem isError_of_variableProblem? {c : SelectionScope} {v : VariableDefinition} {d : Diagnostic}
    (problem : c.variableProblem? v = some d) : d.isError = true := by
  rw [variableProblem?] at problem
  split at problem
  · obtain ⟨value, -, rest⟩ := Option.bind_eq_some_iff.1 problem
    obtain ⟨error, -, same⟩ := Option.bind_eq_some_iff.1 rest
    obtain rfl := Option.some.inj same
    rfl
  · obtain rfl := Option.some.inj problem
    rfl

/-- A default without problems is accepted, with no variable allowed in it. -/
theorem accepted_default {c : SelectionScope} {v : VariableDefinition} {value : PlacedValue}
    (fine : c.variableProblem? v = none) (given : v.defaultValue = some value) :
    (c.schema.checkValue judgeInDefault v.type.annotation value.value).error = none := by
  rw [variableProblem?] at fine
  split at fine
  · rw [given] at fine
    cases checked : (c.schema.checkValue judgeInDefault v.type.annotation value.value).error with
    | none => rfl
    | some e =>
      rw [Option.bind_eq_bind, Option.bind_some, checked] at fine
      cases fine
  · cases fine

/-- What it means that nothing is wrong with a declaration apart from its directives. -/
theorem of_clean_bodyProblems {c : SelectionScope} {parent : TypeId} {findings : Findings}
    (clean : (c.bodyProblems parent findings).hasErrors = false) :
    (∀ v ∈ c.variableDefinitions, c.variableProblem? v = none) ∧
      findings.diagnostics.hasErrors = false ∧ c.reservedProblem? parent findings.selections = none := by
  rw [bodyProblems, Diagnostics.clean_append, Diagnostics.clean_append, Diagnostics.clean_append] at clean
  obtain ⟨⟨⟨defined, selected⟩, unreserved⟩, -⟩ := clean
  have noProblem : c.variableDefinitions.filterMap c.variableProblem? = [] := by
    refine Diagnostics.eq_nil_of_hasErrors_eq_false (fun problem member => ?_) defined
    obtain ⟨v, -, reported⟩ := List.mem_filterMap.1 member
    exact isError_of_variableProblem? reported
  refine ⟨List.filterMap_eq_nil_iff.1 noProblem, selected, ?_⟩
  by_contra some
  obtain ⟨problem, reserved⟩ := Option.ne_none_iff_exists'.1 some
  obtain ⟨v, -, rest⟩ := Option.bind_eq_some_iff.1 reserved
  rw [reserved] at unreserved
  split at rest
  · cases rest
  · obtain rfl := Option.some.inj rest
    cases unreserved

end SelectionScope

/-! ## Where resolved fields come from -/

/-- What the selections of a declaration are resolved against. -/
def Declaration.scope (d : Declaration) (g : SchemaGraph) : SelectionScope :=
  ⟨g, d.source, d.variableDefinitions⟩

/-- What is found out about the selections of a declaration on a type. -/
def Declaration.findings (d : Declaration) (g : SchemaGraph) (parent : TypeId) : Findings :=
  (d.scope g).resolveSelections parent d.selections

/-- A resolved field is the outcome of resolving a declaration without errors. -/
structure ResolvedFrom (g : SchemaGraph) (d : Declaration) (f : ResolvedField) : Prop where
  kind : d.kind ≠ .entrypoint
  found : g.fieldByName? d.parentType.text d.fieldName.text = some f.field
  origin : (g.field f.field).declaration? = some f.declaration
  parent : f.parent = (g.field f.field).parent
  definitions : f.variableDefinitions = d.variableDefinitions.map .ofDefinition
  selections : f.selections = (d.findings g f.parent).selections
  fine : ∀ v ∈ d.variableDefinitions, (d.scope g).variableProblem? v = none
  clean : (d.findings g f.parent).diagnostics.hasErrors = false
  unreserved : (d.scope g).reservedProblem? f.parent f.selections = none

theorem resolvedFrom_resolveField {g : SchemaGraph} {index : Nat} {d : Declaration} {f : ResolvedField}
    (kind : d.kind ≠ .entrypoint) (run : (withoutErrors (resolveField g index d)).1 = some f) :
    ResolvedFrom g d f ∧ f.declaration = index := by
  rw [withoutErrors] at run
  dsimp only at run
  split at run
  · cases run
  · rename_i clean
    rw [Bool.not_eq_true] at clean
    rw [resolveField_eq] at run clean
    split at run
    · cases run
    · rename_i id found
      dsimp only at run
      split at run
      · rename_i own
        split at run
        · cases run
        · rename_i artifactKind pointerTarget form
          obtain rfl := Option.some.inj run
          simp only [found, own, if_true, form, Diagnostics.clean_append] at clean
          obtain ⟨fine, clean, unreserved⟩ := SelectionScope.of_clean_bodyProblems clean.2
          exact ⟨⟨kind, found, own, rfl, rfl, rfl, fine, clean, unreserved⟩, rfl⟩
      · cases run

theorem exists_resolvedFrom_resolveFrom (g : SchemaGraph) (declarations : List Declaration) :
    ∀ index taken, ∀ f ∈ (resolveFrom g index taken declarations).1.fields,
      ∃ k d, declarations[k]? = some d ∧ f.declaration = index + k ∧ ResolvedFrom g d f := by
  induction declarations with
  | nil => simp [resolveFrom]
  | cons d rest ih =>
    intro index taken f member
    have later {taken : List FieldId}
        (member : f ∈ (resolveFrom g (index + 1) taken rest).1.fields) :
        ∃ k e, (d :: rest)[k]? = some e ∧ f.declaration = index + k ∧ ResolvedFrom g e f := by
      obtain ⟨k, e, here, own, comes⟩ := ih (index + 1) taken f member
      exact ⟨k + 1, e, here, by omega, comes⟩
    rw [resolveFrom] at member
    split at member
    · dsimp only at member
      split at member
      · exact later member
      · split at member
        · exact later member
        · exact later member
    · rename_i kind
      rcases List.mem_append.1 member with first | others
      · obtain ⟨comes, own⟩ := resolvedFrom_resolveField kind (by simpa using first)
        exact ⟨0, d, rfl, own, comes⟩
      · exact later others

/-- Every field of a resolution comes from the declaration with its index. -/
theorem exists_resolvedFrom {g : SchemaGraph} {declarations : List Declaration} {f : ResolvedField}
    (member : f ∈ (Resolution.ofDeclarations g declarations).1.fields) :
    ∃ d, declarations[f.declaration]? = some d ∧ ResolvedFrom g d f := by
  obtain ⟨k, d, here, own, comes⟩ := exists_resolvedFrom_resolveFrom g declarations 0 [] f member
  rw [Nat.zero_add] at own
  exact ⟨d, own ▸ here, comes⟩

namespace ResolvedFrom

variable {options : SchemaOptions} {document : SchemaDocument} {declarations : List Declaration}
  {g : SchemaGraph} {d : Declaration} {f : ResolvedField}

/-- The field is on the type that its declaration names. -/
theorem typeByName? (h : ResolvedFrom g d f)
    (built : SchemaGraph.ofDocument options document declarations = .ok g) :
    g.typeByName? d.parentType.text = some f.parent := by
  obtain ⟨parent, named, found⟩ := Option.bind_eq_some_iff.1 h.found
  rw [named, h.parent, (g.lookupField?_eq_some built found).1]

theorem mirrorsSet (h : ResolvedFrom g d f)
    (built : SchemaGraph.ofDocument options document declarations = .ok g) (formed : d.WellFormed) :
    MirrorsSet (d.scope g) f.parent d.selections f.selections := by
  have selections := formed.selections
  rw [Selection.SetWellFormed] at selections
  rw [h.selections]
  exact mirrorsSet_of_forall₂
    (SelectionScope.mirrors_resolveSelections built d.selections selections.2 h.clean) selections.1

end ResolvedFrom

/-- **Resolving is sound and loses nothing.** For a built graph and parsed declarations, every resolved
field stands for the declaration with its index, on the type and under the name that the declaration
gives, with the declared variables and with selections that mirror the written ones at every depth. -/
theorem mirrors_of_mem_ofDeclarations {options : SchemaOptions} {document : SchemaDocument}
    {declarations literals : List Declaration} {g : SchemaGraph}
    (built : SchemaGraph.ofDocument options document declarations = .ok g)
    (parsed : ∀ d ∈ literals, d.Parsed) {f : ResolvedField}
    (member : f ∈ (Resolution.ofDeclarations g literals).1.fields) :
    ∃ d, literals[f.declaration]? = some d ∧ d.kind ≠ .entrypoint ∧
      g.typeByName? d.parentType.text = some f.parent ∧
      g.lookupField? f.parent d.fieldName.text = some f.field ∧
      f.variableDefinitions = d.variableDefinitions.map .ofDefinition ∧
      MirrorsSet (d.scope g) f.parent d.selections f.selections := by
  obtain ⟨d, here, comes⟩ := exists_resolvedFrom member
  have parent := comes.typeByName? built
  have found : g.lookupField? f.parent d.fieldName.text = some f.field := by
    have found := comes.found
    rwa [SchemaGraph.fieldByName?, parent] at found
  have formed := (parsed d (List.mem_of_getElem? here)).wellFormed
  exact ⟨d, here, comes.kind, parent, found, comes.definitions, comes.mirrorsSet built formed⟩

/-! ## A server with a user -/

/-- A server with a user, who has an `id` and a name that is given for some arguments. -/
def userDocument (arguments : List ArgumentDocument) (scalars : List String) : SchemaDocument :=
  let field (name type : String) (arguments : List ArgumentDocument) : FieldDocument :=
    ⟨name, type, arguments, none, none⟩
  let object (name : String) (fields : List FieldDocument) : TypeDocument :=
    ⟨name, .object, [], fields, [], [], none⟩
  ⟨"Query", none, [object "Query" [field "me" "User" []],
    object "User" [field "id" "ID!" [], field "name" "String" arguments]] ++
      scalars.map fun name => ⟨name, .scalar, [], [], [], [], none⟩⟩

/-- The declarations that some literals give. -/
def declarationsOf (texts : List String) : List Declaration :=
  match parseFrom .unlimited 0 (LiteralMap.ofLiterals texts).entries with
  | .ok parsed => parsed.declarations
  | .error _ => []

theorem parsed_declarationsOf (texts : List String) : ∀ d ∈ declarationsOf texts, d.Parsed := by
  rw [declarationsOf]
  split
  · rename_i parsed run
    exact parsed_of_mem_parseFrom _ 0 run
  · exact fun d member => nomatch member

/-- The graph of such a server with the declarations of some literals. -/
def userGraph (arguments : List ArgumentDocument) (scalars texts : List String) : SchemaGraph :=
  match SchemaGraph.ofDocument ⟨true⟩ (userDocument arguments scalars) (declarationsOf texts) with
  | .ok g => g
  | .error _ => default

theorem built_userGraph {arguments : List ArgumentDocument} {scalars texts : List String}
    (possible : (SchemaGraph.ofDocument ⟨true⟩ (userDocument arguments scalars)
      (declarationsOf texts)).isOk = true) :
    SchemaGraph.ofDocument ⟨true⟩ (userDocument arguments scalars) (declarationsOf texts) =
      .ok (userGraph arguments scalars texts) := by
  rw [userGraph]
  split
  · assumption
  · rename_i failed
    rw [failed] at possible
    cases possible

/-- The user's card is loaded later, and a friend is shown by name. -/
def homeTexts : List String :=
  ["field User.card($size: Int!) \x7b id shown: name(size: $size) \x7d",
    "pointer User.friend to User \x7b id \x7d",
    "field Query.home \x7b me \x7b card @loadable friend \x7b name(size: 3) \x7d \x7d \x7d"]

/-- The name is given for a size. -/
def sizeArgument : List ArgumentDocument := [⟨"size", "Int!", none⟩]

theorem possible_homeGraph :
    (SchemaGraph.ofDocument ⟨true⟩ (userDocument sizeArgument []) (declarationsOf homeTexts)).isOk = true := by
  decide +kernel

theorem mirrors_of_mem_ofDeclarations_home :
    ∃ f ∈ (Resolution.ofDeclarations (userGraph sizeArgument [] homeTexts)
        (declarationsOf homeTexts)).1.fields,
      f.declaration = 2 ∧ ∃ d, (declarationsOf homeTexts)[f.declaration]? = some d ∧
        MirrorsSet (d.scope (userGraph sizeArgument [] homeTexts)) f.parent d.selections
          f.selections := by
  have resolved : (Resolution.ofDeclarations (userGraph sizeArgument [] homeTexts)
      (declarationsOf homeTexts)).1.fields.any (·.declaration = 2) = true := by
    decide +kernel
  obtain ⟨f, member, own⟩ := List.any_eq_true.1 resolved
  obtain ⟨d, here, -, -, -, -, mirrors⟩ := mirrors_of_mem_ofDeclarations (built_userGraph possible_homeGraph)
    (parsed_declarationsOf homeTexts) member
  exact ⟨f, member, of_decide_eq_true own, d, here, mirrors⟩

end IsoLiteral
