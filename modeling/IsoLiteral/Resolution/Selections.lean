import IsoLiteral.Flags
import IsoLiteral.Resolution.Basic
import IsoLiteral.Resolution.Coercion

/-!
# Resolving selections

Each selection of a declaration is looked up on its parent type, its directives and arguments are
checked, and its own selections are resolved on the type it leads to. The diagnostics and the variables
that have been used are kept while going through the selections. A problem is added to the diagnostics and
does not stop what stands beside it.
-/

namespace IsoLiteral

/-- What selections of a declaration are resolved against. -/
structure SelectionScope where
  schema : SchemaGraph
  /-- Index of the literal. -/
  source : Nat
  variableDefinitions : List VariableDefinition

/-- What is kept while a declaration is resolved. -/
structure ResolverState (c : SelectionScope) where
  /-- What has been reported so far. -/
  diagnostics : Diagnostics
  /-- Whether an argument has used it, for each variable definition. -/
  used : Flags c.variableDefinitions.length
deriving Repr

/-- A step of resolving a declaration. -/
abbrev Resolver (c : SelectionScope) := StateM (ResolverState c)

/-- The state before anything is resolved; no variable has been used. -/
def ResolverState.start (c : SelectionScope) (diagnostics : Diagnostics) : ResolverState c :=
  ⟨diagnostics, .none _⟩

namespace SelectionScope

/-- Adds a problem to the diagnostics. -/
def report (c : SelectionScope) (d : Diagnostic) : Resolver c Unit :=
  modify fun st => { st with diagnostics := st.diagnostics ++ [d] }

/-- Adds a problem to the diagnostics under a condition. -/
def reportIf (c : SelectionScope) (condition : Bool) (d : Diagnostic) : Resolver c Unit :=
  if condition then c.report d else return

/-! ## Variables -/

/-- The declared variable with a name. -/
def definition? (c : SelectionScope) (name : String) : Option VariableDefinition :=
  c.variableDefinitions.find? (·.name.text = name)

/-- The declared variable with a name, which is used from now on. -/
def useVariable (c : SelectionScope) (name : String) : Resolver c (Option VariableDefinition) :=
  match c.variableDefinitions.findFinIdx? (·.name.text = name) with
  | none => return none
  | some i => do
    modify fun st => { st with used := st.used.raise i }
    return some (c.variableDefinitions.get i)

/-- Why a declared variable may not stand where a type is expected. -/
def judgeDefinition (name : String) (v : VariableDefinition) (expected : TypeExpr) : Option ValueError :=
  if v.satisfies expected then none
  else
    some (.mismatch ("variable `$" ++ name ++ "` of type `" ++ v.type.annotation.render ++
      "` cannot be used as `" ++ expected.render ++ "`"))

/-- Why a variable may not stand where a type is expected. Wherever it stands, it is used. -/
def judgeUse (c : SelectionScope) : Judge (ResolverState c) := fun name expected => do
  match ← c.useVariable name with
  | none => return some (.undeclaredVariable name)
  | some v => return judgeDefinition name v expected

/-! ## Arguments -/

/-- The diagnostic for a value that may not be given. -/
def valueProblem (c : SelectionScope) (a : Argument) : ValueError → Diagnostic
  | .undeclaredVariable name =>
    (Diagnostic.located c.source .undeclaredVariable a.value.range).withDetail name
  | .mismatch detail =>
    (Diagnostic.located c.source .argumentTypeMismatch a.value.range).withDetail
      ("`" ++ a.name.text ++ "` " ++ detail)

/-- The diagnostic for an argument that the field does not take. -/
def unknownArgument (c : SelectionScope) (a : Argument) : Diagnostic :=
  (Diagnostic.located c.source .unknownArgument a.name.range).withDetail a.name.text

/-- The diagnostic for an argument that has to be given and is not. -/
def missingArgument (c : SelectionScope) (name : Name) (d : ArgumentDefinition) : Diagnostic :=
  (Diagnostic.located c.source .missingArgument name.range).withDetail d.name

/-- Checks the value of an argument against the type of the argument. -/
def argumentValue (c : SelectionScope) (a : Argument) (expected : TypeExpr) : Resolver c Unit := do
  match ← c.schema.checkWith c.judgeUse expected a.value.value with
  | none => return
  | some e => c.report (c.valueProblem a e)

/-- The arguments that the field takes. -/
def givenArguments (c : SelectionScope) (field : FieldDefinition) :
    List Argument → Resolver c (List (String × Value))
  | [] => return []
  | a :: rest =>
    match field.argument? a.name.text with
    | none => do
      c.report (c.unknownArgument a)
      c.givenArguments field rest
    | some d => do
      c.argumentValue a d.type
      let others ← c.givenArguments field rest
      return (a.name.text, a.value.value) :: others

/-- Reports which of a field's arguments have to be given and are not. -/
def reportMissing (c : SelectionScope) (name : Name) (arguments : List Argument) :
    List ArgumentDefinition → Resolver c Unit
  | [] => return
  | d :: rest => do
    c.reportIf (d.isRequired && !arguments.any (·.name.text = d.name)) (c.missingArgument name d)
    c.reportMissing name arguments rest

/-- The arguments of a selection. A loadable selection may receive more of them when it is loaded. -/
def arguments (c : SelectionScope) (field : FieldDefinition) (name : Name) (arguments : List Argument)
    (loadable : Bool) : Resolver c (List (String × Value)) := do
  let resolved ← c.givenArguments field arguments
  if loadable then return resolved
  else do
    c.reportMissing name arguments field.arguments
    return resolved

/-! ## Forms of fields -/

/-- The position of directives on a selection of a field. -/
def positionOf : FieldKind → DirectivePosition
  | .scalar => .scalarSelection
  | .linked _ _ => .linkedSelection
  | .resolver _ => .resolverSelection
  | .pointer _ => .pointerSelection
  | .link => .linkSelection

/-- What the directives at a position ask for, with what is wrong with them reported. -/
def directives (c : SelectionScope) (position : DirectivePosition) (directives : List Directive) :
    Resolver c AppliedDirectives := do
  (checkDirectives c.source position directives).forM c.report
  return appliedDirectives position directives

/-- The diagnostic for a field that the type does not have. -/
def unknownField (c : SelectionScope) (parent : TypeId) (name : Name) : Diagnostic :=
  (Diagnostic.located c.source .unknownField name.range).withDetail
    (c.schema.typeName parent ++ "." ++ name.text)

/-- The diagnostic for braces after a field that has nothing to select. -/
def unexpectedBraces (c : SelectionScope) (field : FieldId) (name : Name) : Diagnostic :=
  (Diagnostic.located c.source .selectionSetNotAllowed name.range).withDetail
    ("`" ++ c.schema.qualifiedName field ++ "`")

/-- The diagnostic for a resolver that has to be loadable and is not. -/
def loadableRequired (c : SelectionScope) (field : FieldId) (name : Name) : Diagnostic :=
  (Diagnostic.located c.source .loadableRequired name.range).withDetail
    ("`" ++ c.schema.qualifiedName field ++ "`")

/-- The diagnostic for a loadable resolver on records that cannot be identified. -/
def loadableRequiresId (c : SelectionScope) (parent : TypeId) (name : Name) : Diagnostic :=
  (Diagnostic.located c.source .loadableRequiresId name.range).withDetail
    ("`" ++ c.schema.typeName parent ++ "` has no `id: ID!` field")

/-- The diagnostic for a pointer to records that cannot be identified. -/
def pointerRequiresId (c : SelectionScope) (field : FieldId) (target : TypeId) (name : Name) : Diagnostic :=
  (Diagnostic.located c.source .pointerTargetRequiresId name.range).withDetail
    ("`" ++ c.schema.qualifiedName field ++ "` points to `" ++ c.schema.typeName target ++ "`")

/-- The diagnostic for a field that leads to a record of which nothing is selected. -/
def emptyProblem (c : SelectionScope) (field : FieldId) (name : Name) (hasBraces : Bool) :
    Diagnostic :=
  (Diagnostic.located c.source .selectionSetRequired name.range).withDetail
    ("`" ++ c.schema.qualifiedName field ++ (if hasBraces then "` selects nothing" else "`"))

/-- Reports braces after a field that has nothing to select. -/
def forbidBraces (c : SelectionScope) (field : FieldId) (name : Name) (hasBraces : Bool) : Resolver c Unit :=
  c.reportIf hasBraces (c.unexpectedBraces field name)

/-- Reports what is wrong with a resolver that is or should be loadable. -/
def checkLoadable (c : SelectionScope) (field : FieldId) (kind : ArtifactKind) (name : Name)
    (loadable : Bool) : Resolver c Unit := do
  c.reportIf (kind = .loadableAction && !loadable) (c.loadableRequired field name)
  let parent := (c.schema.field field).parent
  c.reportIf (loadable && !c.schema.isRootType parent && (c.schema.idField? parent).isNone)
    (c.loadableRequiresId parent name)

/-- Reports a pointer to records that cannot be identified. -/
def checkTarget (c : SelectionScope) (field : FieldId) (target : TypeId) (name : Name) : Resolver c Unit :=
  c.reportIf (c.schema.idField? target).isNone (c.pointerRequiresId field target name)

/-! ## Selections -/

mutual
/-- Resolves a selection on a type. -/
def selection (c : SelectionScope) (parent : TypeId) : Selection → Resolver c (Option ResolvedSelection)
  | ⟨label, name, arguments, directives, braces, range⟩ =>
    match c.schema.lookupField? parent name.text with
    | none => do
      c.report (c.unknownField parent name)
      return none
    | some id => do
      let field := c.schema.field id
      let applied ← c.directives (positionOf field.kind) directives
      let resolved ← c.arguments field name arguments applied.loadable.isSome
      let head : SelectionHead :=
        { responseName := (label.getD name).text, fieldName := name.text, field := id,
          arguments := resolved, storeKey := storeKey name.text resolved,
          span := ⟨c.source, range⟩ }
      match field.kind with
      | .scalar => do
        c.forbidBraces id name braces.isSome
        return some (.scalar head applied.updatable)
      | .link => do
        c.forbidBraces id name braces.isSome
        return some (.link head)
      | .resolver kind => do
        c.forbidBraces id name braces.isSome
        c.checkLoadable id kind name applied.loadable.isSome
        return some (.resolver head kind applied.loadable)
      | .linked target inlineFragment => do
        let nested ← c.nestedSelections id name target braces
        return nested.map (.linked head target inlineFragment applied.updatable)
      | .pointer target => do
        c.checkTarget id target name
        let nested ← c.nestedSelections id name target braces
        return nested.map (.pointer head target)
termination_by structural s => s
/-- Resolves what is selected of the record that a field leads to, if anything is. -/
def nestedSelections (c : SelectionScope) (field : FieldId) (name : Name) (target : TypeId) :
    Option (List Selection) → Resolver c (Option (List ResolvedSelection))
  | none => do
    c.report (c.emptyProblem field name false)
    return none
  | some selections =>
    if selections.isEmpty then do
      c.report (c.emptyProblem field name true)
      return none
    else some <$> c.selectionSet target selections
termination_by structural braces => braces
/-- Resolves selections on a type; those that cannot be resolved are left out. -/
def selectionSet (c : SelectionScope) (parent : TypeId) :
    List Selection → Resolver c (List ResolvedSelection)
  | [] => return []
  | s :: rest => do
    let first ← c.selection parent s
    let others ← c.selectionSet parent rest
    return first.toList ++ others
termination_by structural ss => ss
end

end SelectionScope

end IsoLiteral
