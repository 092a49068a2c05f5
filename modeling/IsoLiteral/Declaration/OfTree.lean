import IsoLiteral.Declaration.Basic
import IsoLiteral.Diagnostic.Basic
import IsoLiteral.Syntax.Grammar
import IsoLiteral.Text.StringLiteral

/-!
# From syntax trees to declarations

A piece that the grammar found missing has been reported there, and here the construct around it is
dropped. What can only be seen on the whole construct is checked and reported here: names that occur
twice, and integers that do not fit 64 bits.
-/

namespace IsoLiteral.Lowering

/-- A computation that may report problems. -/
abbrev Lower := StateM Diagnostics

/-- Adds a diagnostic. -/
def report (d : Diagnostic) : Lower Unit := modify (· ++ [d])

/-- The name that a token spells. -/
def nameOf (t : Token) : Name := ⟨t.text, t.range⟩

/-- The number that decimal digits spell. -/
def naturalOf (digits : List Char) : Nat := digits.foldl (fun n c => n * 10 + (c.toNat - 48)) 0

/-- The integer that an integer token spells. -/
def integerOf (text : String) : Int :=
  match text.toList with
  | '-' :: digits => -(naturalOf digits : Int)
  | digits => (naturalOf digits : Int)

/-- Whether an integer fits 64 bits. -/
def fitsInt64 (i : Int) : Bool := -9223372036854775808 ≤ i && i ≤ 9223372036854775807

/-! ## Types -/

/-- The kinds of nodes that are type annotations. -/
def typeKinds : List SyntaxKind := [.namedType, .listType, .nonNullType]

mutual
/-- The annotation of a type node; none for other trees and for broken annotations. -/
def typeOf? : Tree → Option TypeExpr
  | .node .namedType children => (Tree.tokenOfKind? .identifier children).map (.named ·.text)
  | .node .listType children => (typeIn? children).map .list
  | .node .nonNullType children => (typeIn? children).map .asNonNull
  | _ => none
termination_by structural tree => tree
/-- The annotation of the first type node among some children. -/
def typeIn? : List Tree → Option TypeExpr
  | [] => none
  | tree :: rest => if tree.isNodeIn typeKinds then typeOf? tree else typeIn? rest
termination_by structural trees => trees
end

/-- The first type annotation among some children, with its place. -/
def typeRefIn? (children : List Tree) : Option TypeRef := do
  let tree ← children.find? (·.isNodeIn typeKinds)
  return ⟨← typeOf? tree, tree.range⟩

/-! ## Values -/

/-- The kinds of nodes that are values. -/
def valueKinds : List SyntaxKind := [.variableUse, .literal, .listValue, .objectValue]

/-- The contents of a string or block string token. -/
def contentsOf (t : Token) : String :=
  if t.kind = .blockStringValue then Text.blockContents t.text else Text.stringContents t.text

/-- The value that a literal token stands for. An integer that does not fit 64 bits is reported. -/
def literalOf (source : Nat) (t : Token) : Lower (Option Value) :=
  match t.kind with
  | .intValue =>
    if fitsInt64 (integerOf t.text) then
      return some (.int (integerOf t.text))
    else do
      report ((Diagnostic.located source .integerOutOfRange t.range).withDetail t.text)
      return none
  | .floatValue => return some (.float t.text)
  | .stringValue | .blockStringValue => return some (.string (contentsOf t))
  | .kwTrue => return some (.boolean true)
  | .kwFalse => return some (.boolean false)
  | .kwNull => return some .null
  | .identifier => return some (.enum t.text)
  | _ => return none

mutual
/-- The value of a value node. The first broken part of a list or an object ends it. -/
def valueOf (source : Nat) : Tree → Lower (Option Value)
  | .node .variableUse children =>
    return (Tree.tokenOfKind? .identifier children).map (.variable ·.text)
  | .node .literal children =>
    match (Tree.directTokens children).find? (!·.isTrivia) with
    | some t => literalOf source t
    | none => return none
  | .node .listValue children => do return (← itemsOf source children).map .list
  | .node .objectValue children => do return (← fieldsOf source children).map .object
  | _ => return none
termination_by structural tree => tree
/-- The values among the children of a list. -/
def itemsOf (source : Nat) : List Tree → Lower (Option (List Value))
  | [] => return some []
  | tree :: rest =>
    if tree.isNodeIn valueKinds then do
      match ← valueOf source tree with
      | some v => return (← itemsOf source rest).map (v :: ·)
      | none => return none
    else itemsOf source rest
termination_by structural trees => trees
/-- The fields among the children of an object. -/
def fieldsOf (source : Nat) : List Tree → Lower (Option (List (String × Value)))
  | [] => return some []
  | .node .objectField children :: rest =>
    match Tree.tokenOfKind? .identifier children with
    | some key => do
      match ← valueIn source children with
      | some v => return (← fieldsOf source rest).map ((key.text, v) :: ·)
      | none => return none
    | none => return none
  | _ :: rest => fieldsOf source rest
termination_by structural trees => trees
/-- The first value among some children. -/
def valueIn (source : Nat) : List Tree → Lower (Option Value)
  | [] => return none
  | tree :: rest =>
    if tree.isNodeIn valueKinds then valueOf source tree else valueIn source rest
termination_by structural trees => trees
end

/-- The value of a tree, with its place. -/
def placedValue (source : Nat) (tree? : Option Tree) : Lower (Option PlacedValue) :=
  match tree? with
  | some tree => do return (← valueOf source tree).map (⟨·, tree.range⟩)
  | none => return none

/-! ## Arguments, directives and selections -/

/-- The arguments of the given argument nodes. `seen` holds the names so far; a name that comes again
is reported and dropped. -/
def argumentsOf (source : Nat) (seen : List (String × TextRange)) :
    List (List Tree) → Lower (List Argument)
  | [] => return []
  | children :: rest =>
    match Tree.tokenOfKind? .identifier children with
    | none => argumentsOf source seen rest
    | some t => do
      match ← placedValue source (children.find? (·.isNodeIn valueKinds)) with
      | none => argumentsOf source seen rest
      | some value =>
        match seen.lookup t.text with
        | some first =>
          report (((Diagnostic.located source .duplicateArgument t.range).withDetail
            t.text).relatedTo "first provided here" first)
          argumentsOf source seen rest
        | none =>
          let others ← argumentsOf source (seen ++ [(t.text, t.range)]) rest
          return ⟨nameOf t, value⟩ :: others

/-- The arguments of the first argument list among some children. -/
def argumentsIn (source : Nat) (children : List Tree) : Lower (List Argument) :=
  match Tree.nodeOfKind? .arguments children with
  | some inner => argumentsOf source [] (Tree.nodesOfKind .argument inner)
  | none => return []

/-- The directives of the given directive nodes; one without a name is dropped. -/
def directivesOf (source : Nat) : List (List Tree) → Lower (List Directive)
  | [] => return []
  | children :: rest =>
    match Tree.tokenOfKind? .identifier children with
    | none => directivesOf source rest
    | some t => do
      let arguments ← argumentsIn source children
      let others ← directivesOf source rest
      return ⟨nameOf t, arguments, Tree.rangeOf children⟩ :: others

/-- The directives among some children. -/
def directivesIn (source : Nat) (children : List Tree) : Lower (List Directive) :=
  directivesOf source (Tree.nodesOfKind .directive children)

/-- The label of a selection. -/
def labelIn? (children : List Tree) : Option Name := do
  let inner ← Tree.nodeOfKind? .aliasLabel children
  return nameOf (← Tree.tokenOfKind? .identifier inner)

mutual
/-- The selection of a selection node; none for other trees and for one without a name. -/
def selectionOf (source : Nat) : Tree → Lower (Option Selection)
  | .node .selection children =>
    match Tree.tokenOfKind? .identifier children with
    | none => return none
    | some t => do
      let arguments ← argumentsIn source children
      let directives ← directivesIn source children
      let selectionSet ← selectionSetIn source children
      return some
        { label := labelIn? children, name := nameOf t, arguments, directives, selectionSet,
          range := Tree.rangeOf children }
  | _ => return none
termination_by structural tree => tree
/-- The selections of a selection set node; none for other trees. -/
def selectionSetOf (source : Nat) : Tree → Lower (Option (List Selection))
  | .node .selectionSet children => do return some (← selectionsOf source [] children)
  | _ => return none
termination_by structural tree => tree
/-- The first selection set among some children. -/
def selectionSetIn (source : Nat) : List Tree → Lower (Option (List Selection))
  | [] => return none
  | tree :: rest =>
    if tree.isNodeIn [.selectionSet] then selectionSetOf source tree
    else selectionSetIn source rest
termination_by structural trees => trees
/-- The selections among the children of a selection set. `seen` holds the response names so far; a
response name that comes again is reported and its selection dropped. -/
def selectionsOf (source : Nat) (seen : List (String × TextRange)) :
    List Tree → Lower (List Selection)
  | [] => return []
  | tree :: rest => do
    match ← selectionOf source tree with
    | none => selectionsOf source seen rest
    | some lowered =>
      let response := lowered.responseName
      match seen.lookup response.text with
      | some first =>
        report ((((Diagnostic.located source .duplicateResponseName response.range).withDetail
          response.text).relatedTo "first selected here" first).withHint
          "give one of them an alias, e.g. `other: field`")
        selectionsOf source seen rest
      | none =>
        let others ← selectionsOf source (seen ++ [(response.text, response.range)]) rest
        return lowered :: others
termination_by structural trees => trees
end

/-! ## Declarations -/

/-- The default value of a variable definition: the node after the equals sign. -/
def defaultIn? (children : List Tree) : Option Tree := do
  let tree ← (children.dropWhile (!·.isTokenOf .equals)).find? (·.nodeKind?.isSome)
  if tree.isNodeIn valueKinds then some tree else none

/-- The name and place of the variable in a variable definition. -/
def variableIn? (children : List Tree) : Option (Token × TextRange) := do
  let inner ← Tree.nodeOfKind? .variableUse children
  return (← Tree.tokenOfKind? .identifier inner, Tree.rangeOf inner)

/-- The variable definitions of the given nodes. `seen` holds the names so far; a name that comes
again is reported and dropped. -/
def variablesOf (source : Nat) (seen : List (String × TextRange)) :
    List (List Tree) → Lower (List VariableDefinition)
  | [] => return []
  | children :: rest =>
    match variableIn? children, typeRefIn? children with
    | some (t, range), some type =>
      match seen.lookup t.text with
      | some first => do
        report (((Diagnostic.located source .duplicateVariable range).withDetail
          t.text).relatedTo "first defined here" first)
        variablesOf source seen rest
      | none => do
        let defaultValue ← placedValue source (defaultIn? children)
        let others ← variablesOf source (seen ++ [(t.text, range)]) rest
        return ⟨nameOf t, type, defaultValue⟩ :: others
    | _, _ => variablesOf source seen rest

/-- The variable definitions among the children of a declaration. -/
def variablesIn (source : Nat) (children : List Tree) : Lower (List VariableDefinition) :=
  match Tree.nodeOfKind? .variableDefs children with
  | some inner => variablesOf source [] (Tree.nodesOfKind .variableDef inner)
  | none => return []

/-- The description of a declaration. -/
def descriptionIn? (children : List Tree) : Option String := do
  let inner ← Tree.nodeOfKind? .description children
  let t ← (Tree.directTokens inner).find? fun t =>
    t.kind = .stringValue || t.kind = .blockStringValue
  return contentsOf t

/-- The type and field names of a declaration; the field's name comes after the dot. -/
def targetIn? (children : List Tree) : Option (Name × Name) := do
  let inner ← Tree.nodeOfKind? .declTarget children
  let type ← Tree.tokenOfKind? .identifier inner
  let field ← ((Tree.directTokens inner).dropWhile (·.kind ≠ .dot)).find? (·.kind = .identifier)
  return (nameOf type, nameOf field)

/-- The form that a declaration node has. -/
def formOf? : Tree → Option DeclarationKind
  | .node .fieldDecl _ => some .field
  | .node .pointerDecl _ => some .pointer
  | .node .entrypointDecl _ => some .entrypoint
  | _ => none

/-- The declaration of a field or pointer node once its names, directives and target are known. -/
def selectingDeclaration (source : Nat) (kind : DeclarationKind) (names : Name × Name)
    (target : Option TypeRef) (directives : List Directive) (children : List Tree) :
    Lower (Option Declaration) := do
  match ← selectionSetIn source children with
  | none => return none
  | some selections =>
    let definitions ← variablesIn source children
    return some
      { source, kind, parentType := names.1, fieldName := names.2, target,
        variableDefinitions := definitions, directives,
        description := descriptionIn? children, selections, range := Tree.rangeOf children }

/-- The declaration of a declaration node. -/
def declarationOf (source : Nat) (kind : DeclarationKind) (children : List Tree) :
    Lower (Option Declaration) :=
  match targetIn? children with
  | none => return none
  | some names => do
    let directives ← directivesIn source children
    match kind with
    | .field => selectingDeclaration source kind names none directives children
    | .pointer =>
      match typeRefIn? children with
      | some target => selectingDeclaration source kind names (some target) directives children
      | none => return none
    | .entrypoint =>
      return some
        { source, kind, parentType := names.1, fieldName := names.2, target := none,
          variableDefinitions := [], directives, description := none, selections := [],
          range := Tree.rangeOf children }

/-- The declaration of a whole literal. -/
def declarationIn (source : Nat) (root : Tree) : Lower (Option Declaration) :=
  match root.children.find? (formOf? · |>.isSome) with
  | none => return none
  | some tree =>
    match formOf? tree with
    | some kind => declarationOf source kind tree.children
    | none => return none

end IsoLiteral.Lowering

namespace IsoLiteral

/-- The declaration of a literal with all its diagnostics, unless a limit is exceeded. A declaration
may come with errors; a literal too broken to declare anything has none. -/
def parseDeclaration (text : String) (source : Nat) (limits : ParseLimits) :
    Except LimitError (Option Declaration × Diagnostics) := do
  let (tree, diagnostics) ← parseTree text source limits
  return Lowering.declarationIn source tree diagnostics

end IsoLiteral
