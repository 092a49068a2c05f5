import IsoLiteral.Resolution.RefetchSite
import IsoLiteral.Resolution.Selections

/-!
# Resolving declarations

Every declaration is resolved on its own, and one with errors is left out while the others stay.
-/

namespace IsoLiteral

namespace SelectionScope

/-- Why a variable may not stand in a default value: none may. -/
def judgeInDefault (name : String) (_ : TypeExpr) : Option ValueError :=
  some (.mismatch ("`$" ++ name ++ "` cannot be used in a default value"))

/-- The detail of a value's error. -/
def errorDetail : ValueError → String
  | .undeclaredVariable name => name
  | .mismatch detail => detail

/-- The problem with the definition of a variable: its type has to be an input type, and its default
has to be of that type. -/
def variableProblem? (c : SelectionScope) (v : VariableDefinition) : Option Diagnostic :=
  let type := v.type.annotation
  if (c.schema.typeByName? type.innerName).any fun id => (c.schema.type id).kind.isInput then do
    let value ← v.defaultValue
    let error ← (c.schema.checkValue judgeInDefault type value.value).error
    return (Diagnostic.located c.source .invalidDefaultValue value.range).withDetail
      (errorDetail error)
  else
    some ((Diagnostic.located c.source .invalidVariableType v.type.range).withDetail
      ("`$" ++ v.name.text ++ ": " ++ type.render ++ "`"))

/-- The diagnostic for declaring the variable that requesting a record again needs. That can happen
to a field of a type that is no root, and to one with refetch sites. -/
def reservedProblem? (c : SelectionScope) (parent : TypeId)
    (selections : List ResolvedSelection) : Option Diagnostic := do
  let v ← c.definition? refetchIdVariable
  if c.schema.isRootType parent && (refetchSites parent selections).isEmpty then none
  else some ((Diagnostic.located c.source .reservedVariable v.name.range).withDetail v.name.text)

/-- The warnings for variables that no argument uses, from whether one does for each. -/
def unusedVariables (c : SelectionScope) (used : Flags c.variableDefinitions.length) : Diagnostics :=
  ((c.variableDefinitions.zip used.toList).filter (!·.2)).map fun (v, _) =>
    (Diagnostic.located c.source .unusedVariable v.name.range).withDetail v.name.text

/-- Warns of the variables that no argument has used. -/
def reportUnused (c : SelectionScope) : Resolver c Unit := do
  let st ← get
  (c.unusedVariables st.used).forM c.report

/-- Resolves what a declaration selects on its parent type. The definitions of variables come first, and
what the selections make of them last. -/
def body (c : SelectionScope) (parent : TypeId) (selections : List Selection) :
    Resolver c (List ResolvedSelection) := do
  (c.variableDefinitions.filterMap c.variableProblem?).forM c.report
  let resolved ← c.selectionSet parent selections
  (c.reservedProblem? parent resolved).forM c.report
  c.reportUnused
  return resolved

end SelectionScope

/-- A variable definition without its places. -/
def ResolvedVariable.ofDefinition (v : VariableDefinition) : ResolvedVariable :=
  ⟨v.name.text, v.type.annotation, v.defaultValue.map PlacedValue.value⟩

/-- The artifact kind and pointer target of a field that a literal may declare. -/
def declaredForm? : FieldKind → Option (ArtifactKind × Option TypeId)
  | .resolver kind => some (kind, none)
  | .pointer target => some (.eager, some target)
  | .scalar | .linked _ _ | .link => none

/-- The position of directives on a declaration. -/
def DeclarationKind.position : DeclarationKind → DirectivePosition
  | field => .fieldDeclaration
  | pointer => .pointerDeclaration
  | entrypoint => .entrypointDeclaration

/-- Everything that is wrong with the directives of a declaration. -/
def Declaration.directiveProblems (d : Declaration) : Diagnostics :=
  checkDirectives d.source d.kind.position d.directives

/-- Resolves the declaration of a field or pointer with an index. -/
def resolveField (g : SchemaGraph) (index : Nat) (d : Declaration) :
    Option ResolvedField × Diagnostics :=
  match g.fieldByName? d.parentType.text d.fieldName.text with
  | none => (none, [])
  | some id =>
    let field := g.field id
    if field.declaration? = some index then
      match declaredForm? field.kind with
      | none => (none, d.directiveProblems)
      | some (artifactKind, pointerTarget) =>
        let c : SelectionScope := ⟨g, d.source, d.variableDefinitions⟩
        let (selections, st) := (c.body field.parent d.selections).run (.start c d.directiveProblems)
        (some { field := id, declaration := index, source := d.source, parent := field.parent,
                artifactKind, pointerTarget,
                variableDefinitions := d.variableDefinitions.map .ofDefinition, selections },
          st.diagnostics)
    else (none, [])

/-- The root type with a name. -/
def SchemaGraph.rootByName? (g : SchemaGraph) (name : String) : Option TypeId :=
  (g.typeByName? name).filter g.isRootType

/-- The declared resolver field of a type with a name. -/
def SchemaGraph.declaredResolver? (g : SchemaGraph) (parent : TypeId) (name : String) :
    Option FieldId :=
  (g.lookupField? parent name).filter fun id =>
    (g.field id).declaration?.isSome &&
      match (g.field id).kind with
      | .resolver _ => true
      | _ => false

/-- Resolves the declaration of an entrypoint with an index. -/
def resolveEntrypoint (g : SchemaGraph) (index : Nat) (d : Declaration) :
    Option ResolvedEntrypoint × Diagnostics :=
  match g.rootByName? d.parentType.text with
  | none =>
    (none, d.directiveProblems ++
      [(Diagnostic.located d.source .invalidEntrypoint d.parentType.range).withDetail
        ("`" ++ d.parentType.text ++ "` is not a root operation type")])
  | some parent =>
    match g.declaredResolver? parent d.fieldName.text with
    | none =>
      (none, d.directiveProblems ++
        [(Diagnostic.located d.source .invalidEntrypoint d.fieldName.range).withDetail
          ("`" ++ d.qualifiedName ++ "` is not a declared resolver field")])
    | some field =>
      let applied := appliedDirectives .entrypointDeclaration d.directives
      (some { declaration := index, field, parent, lazyLoad := applied.lazyLoad.getD .none,
              span := d.spanOf d.range },
        d.directiveProblems)

/-- The result of a declaration, left out if there are errors. -/
def withoutErrors {α : Type} (outcome : Option α × Diagnostics) : Option α × Diagnostics :=
  (if outcome.2.hasErrors then none else outcome.1, outcome.2)

/-- The diagnostic for a second entrypoint of one field. -/
def duplicateEntrypoint (g : SchemaGraph) (d : Declaration) (field : FieldId) : Diagnostic :=
  (Diagnostic.located d.source .duplicateEntrypoint d.fieldName.range).withDetail
    (g.qualifiedName field)

/-- Resolves declarations, the first of which has the given index; the fields in `taken` have an
entrypoint already. -/
def resolveFrom (g : SchemaGraph) (index : Nat) (taken : List FieldId) :
    List Declaration → Resolution × Diagnostics
  | [] => (⟨[], []⟩, [])
  | d :: rest =>
    if d.kind = .entrypoint then
      let (entrypoint, problems) := withoutErrors (resolveEntrypoint g index d)
      match entrypoint with
      | none =>
        let (resolution, more) := resolveFrom g (index + 1) taken rest
        (resolution, problems ++ more)
      | some e =>
        if e.field ∈ taken then
          let (resolution, more) := resolveFrom g (index + 1) taken rest
          (resolution, problems ++ [duplicateEntrypoint g d e.field] ++ more)
        else
          let (resolution, more) := resolveFrom g (index + 1) (e.field :: taken) rest
          ({ resolution with entrypoints := e :: resolution.entrypoints }, problems ++ more)
    else
      let (field, problems) := withoutErrors (resolveField g index d)
      let (resolution, more) := resolveFrom g (index + 1) taken rest
      ({ resolution with fields := field.toList ++ resolution.fields }, problems ++ more)

/-- Resolves all declarations against the graph they are part of. -/
def Resolution.ofDeclarations (g : SchemaGraph) (declarations : List Declaration) :
    Resolution × Diagnostics :=
  resolveFrom g 0 [] declarations

end IsoLiteral
