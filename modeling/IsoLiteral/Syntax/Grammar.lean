import IsoLiteral.Syntax.Parser

/-!
# The grammar of literals

A literal declares a field, a pointer or an entrypoint:

    field Type.name(variables) @directives "description" { selections }
    pointer Type.name to Target(variables) @directives "description" { selections }
    entrypoint Type.name @directives

Commas may stand anywhere between the items of a list. Productions that nest in themselves take a
bound on their nesting; every level takes an opening token, so the number of tokens is bound enough.
-/

namespace IsoLiteral.Parser

/-! ## Types -/

/-- The type annotation at the current token, without its final `!`. It says whether there was
one. -/
def baseType (item : Parser Unit) : Parser Bool := do
  match ← current with
  | .identifier =>
    node .namedType bump
    return true
  | .bracketOpen =>
    delimited .listType .bracketClose .unclosedBracket "list type" do
      if ← currentlyIn .typeFirst then
        item
      else
        errorExpected .expectedType "a list item type"
    return true
  | _ =>
    errorExpected .expectedType "a type"
    return false

/-- Makes the type that was built since `start` a non-null one if `!` follows. -/
def finishType (start : Checkpoint) : Parser Unit := do
  if ← currentlyIs .bang then
    nodeAt start .nonNullType bump

/-- `Name` or `[Type]`, either followed by `!`. -/
def typeExpr : Nat → Parser Unit
  | 0 => blame .overrun
  | bound + 1 =>
    nested do
      let start ← checkpoint
      if ← baseType (typeExpr bound) then
        finishType start

/-! ## Values -/

/-- `$name` -/
def variableUse : Parser Unit := do
  assertCurrent .dollar
  node .variableUse do
    bump
    discard <| expectName "a variable name"

/-- The kind under which an identifier enters a literal value. -/
def literalKind (text : String) : SyntaxKind :=
  if text = "true" then .kwTrue
  else if text = "false" then .kwFalse
  else if text = "null" then .kwNull
  else .identifier

/-- One round of a list value. -/
def listItem (value : String → Parser Unit) : Parser Bool := do
  if ← shouldStop then
    return false
  else if ← currentlyIs .bracketClose then
    return false
  else if ← eat .comma then
    return true
  else if ← currentlyIn .valueFirst then
    value "a list item"
    return true
  else if ← currentlyIs .parenClose then
    return false
  else if ← currentlyIs .braceClose then
    return false
  else
    skipUnexpected "a list item"
    return true

/-- `key: value` -/
def objectField (value : String → Parser Unit) : Parser Unit :=
  node .objectField do
    bump
    if ← expect .colon "`:` after the field name" then
      value "a field value"

/-- One round of an object value. -/
def objectItem (value : String → Parser Unit) : Parser Bool := do
  if ← shouldStop then
    return false
  else if ← currentlyIs .braceClose then
    return false
  else
    match ← current with
    | .comma =>
      bump
      return true
    | .identifier =>
      objectField value
      return true
    | .parenClose | .bracketClose => return false
    | _ =>
      skipUnexpected "an object field"
      return true

/-- The value at the current token, which may start one. -/
def valueBody (value : String → Parser Unit) : Parser Unit := do
  match ← current with
  | .dollar => variableUse
  | .bracketOpen =>
    delimited .listValue .bracketClose .unclosedBracket "list" (loop (listItem value))
  | .braceOpen =>
    delimited .objectValue .braceClose .unclosedBrace "object" (loop (objectItem value))
  | .identifier =>
    let text ← currentText
    node .literal (bumpAs (literalKind text))
  | _ => node .literal bump

/-- A literal, variable, list or object. When no value starts here, `what` is reported missing. -/
def value : Nat → String → Parser Unit
  | 0, _ => blame .overrun
  | bound + 1, what => do
    if ← currentlyIn .valueFirst then
      nested (valueBody (value bound))
    else
      errorExpected .expectedValue what

/-! ## Arguments, directives and selections -/

/-- `name: value` -/
def argument (bound : Nat) : Parser Unit :=
  node .argument do
    bump
    if ← expect .colon "`:` after the argument name" then
      value bound "an argument value"

/-- One round of an argument list. -/
def argumentItem (bound : Nat) : Parser Bool := do
  if ← shouldStop then
    return false
  else if ← currentlyIs .parenClose then
    return false
  else
    match ← current with
    | .comma =>
      bump
      return true
    | .identifier =>
      argument bound
      return true
    | .braceOpen | .braceClose => return false
    | _ =>
      skipUnexpected "an argument"
      return true

/-- `(name: value, ...)` -/
def arguments (bound : Nat) : Parser Unit := do
  assertCurrent .parenOpen
  delimited .arguments .parenClose .unclosedParen "argument list" (loop (argumentItem bound))

/-- `@name(arguments)` -/
def directive (bound : Nat) : Parser Unit :=
  node .directive do
    bump
    if ← expectName "a directive name" then
      if ← currentlyIs .parenOpen then
        arguments bound

/-- One round of a list of directives. -/
def directiveItem (bound : Nat) : Parser Bool := do
  if ← currentlyIs .atSign then
    if ← shouldStop then
      return false
    else
      directive bound
      return true
  else
    return false

/-- Any number of directives. -/
def directives (bound : Nat) : Parser Unit := loop (directiveItem bound)

/-- `label: name(arguments) @directives { selections }` -/
def selection (bound : Nat) (selectionSet : Parser Unit) : Parser Unit :=
  node .selection do
    if ← nextIs .colon then
      node .aliasLabel do
        bump
        bump
    if ← expectName "a field name" then
      if ← currentlyIs .parenOpen then
        arguments bound
      directives bound
      if ← currentlyIs .braceOpen then
        selectionSet

/-- One round of a selection set. -/
def selectionItem (bound : Nat) (selectionSet : Parser Unit) : Parser Bool := do
  if ← shouldStop then
    return false
  else if ← currentlyIs .braceClose then
    return false
  else
    match ← current with
    | .comma =>
      bump
      return true
    | .identifier =>
      selection bound selectionSet
      return true
    | _ =>
      skipUnexpected "a field selection"
      return true

/-- `{ selection, selection ... }` -/
def selectionSet : Nat → Parser Unit
  | 0 => blame .overrun
  | bound + 1 => do
    assertCurrent .braceOpen
    nested <|
      delimited .selectionSet .braceClose .unclosedBrace "selection set"
        (loop (selectionItem (bound + 1) (selectionSet bound)))

/-! ## Declarations -/

/-- `Type.name` -/
def declTarget : Parser Unit :=
  node .declTarget do
    if ← expectName "a type name" then
      if ← expect .dot "`.`" then
        discard <| expectName "a field name"

/-- `$name: Type = default` -/
def variableDef (bound : Nat) : Parser Unit :=
  node .variableDef do
    variableUse
    if ← expect .colon "`:` after the variable name" then
      if ← currentlyIn .typeFirst then
        typeExpr bound
      else
        errorExpected .expectedType "a variable type"
      if ← eat .equals then
        value bound "a default value"

/-- One round of a variable list. -/
def variableItem (bound : Nat) : Parser Bool := do
  if ← shouldStop then
    return false
  else if ← currentlyIs .parenClose then
    return false
  else
    match ← current with
    | .comma =>
      bump
      return true
    | .dollar =>
      variableDef bound
      return true
    | .braceOpen | .atSign => return false
    | _ =>
      skipUnexpected "a variable definition"
      return true

/-- `($name: Type = default, ...)` -/
def variableDefs (bound : Nat) : Parser Unit := do
  assertCurrent .parenOpen
  delimited .variableDefs .parenClose .unclosedParen "variable list" (loop (variableItem bound))

/-- Skips what cannot follow a declaration header. -/
def headerEnd : Parser Unit := do
  if !(← currentlyIn .headerRecovery) then
    if !(← shouldStop) then
      recover .unexpectedToken "a selection set" .headerRecovery

/-- Variables, directives, description and selection set of a field or pointer declaration. -/
def declTail (bound : Nat) : Parser Unit := do
  headerEnd
  if ← currentlyIs .parenOpen then
    variableDefs bound
  directives bound
  if ← currentlyIn .descriptions then
    node .description bump
  if ← currentlyIs .braceOpen then
    selectionSet bound
  else
    errorExpected .expectedSelectionSet "a selection set `\x7b ... \x7d`"

/-- `field Type.name ...` -/
def fieldDecl (bound : Nat) : Parser Unit :=
  node .fieldDecl do
    bumpAs .kwField
    declTarget
    declTail bound

/-- The target of a pointer. Without `to`, a name that follows is taken for the type all the same. -/
def pointerTarget (bound : Nat) : Parser Unit := do
  if ← eatKeyword "to" .kwTo then
    if ← currentlyIn .typeFirst then
      typeExpr bound
    else
      errorExpected .expectedType "a target type"
  else
    errorExpected .expectedTo "`to`"
    if ← currentlyIs .identifier then
      typeExpr bound

/-- `pointer Type.name to Target ...` -/
def pointerDecl (bound : Nat) : Parser Unit :=
  node .pointerDecl do
    bumpAs .kwPointer
    declTarget
    pointerTarget bound
    declTail bound

/-- `entrypoint Type.name ...` -/
def entrypointDecl (bound : Nat) : Parser Unit :=
  node .entrypointDecl do
    bumpAs .kwEntrypoint
    declTarget
    directives bound

/-- The declaration that a literal starts with. -/
def declaration (bound : Nat) : Parser Unit := do
  if ← atKeyword "field" then
    fieldDecl bound
  else if ← atKeyword "pointer" then
    pointerDecl bound
  else if ← atKeyword "entrypoint" then
    entrypointDecl bound
  else
    errorExpected .expectedDeclaration "`field`, `pointer` or `entrypoint`"

/-- What is left after the declaration, in one error node. -/
def trailing : Parser Unit := do
  if !(← shouldStop) then
    node .error do
      errorExpected .trailingTokens "end of literal"
      loop (skipStep .empty)

/-- A whole literal. -/
def literal (bound : Nat) : Parser Unit := do
  declaration bound
  trailing
  flush

/-- The state in which the grammar leaves a literal. -/
def finalState (text : String) (source : Nat) (limits : ParseLimits) : State :=
  let start := State.initial text source limits
  (literal (start.rest.length + 1) start).2

end IsoLiteral.Parser

namespace IsoLiteral

/-- The syntax tree of a literal with the diagnostics of the grammar, unless a limit is exceeded. -/
def parseTree (text : String) (source : Nat) (limits : ParseLimits) :
    Except LimitError (Tree × Diagnostics) :=
  let final := Parser.finalState text source limits
  match final.exceeded with
  | some limit => .error limit
  | none => .ok (.node .root final.built, final.diagnostics)

end IsoLiteral
