import IsoLiteral.Text.Join

/-!
# Kinds of diagnostics

Every problem the compiler reports has a kind. The kind fixes the stage it belongs to, its severity,
its rank against other kinds, the wording with and without a detail, and a hint that every diagnostic
of the kind carries. Kinds are listed by rank, the highest first: unclosed delimiters lead because
everything after them follows from them.
-/

namespace IsoLiteral

/-- The stage that a diagnostic belongs to. -/
inductive DiagnosticCategory where
  | parse
  | schemaBuild
  | resolution
  | cyclicSelection
deriving DecidableEq, Repr

/-- The name under which a category is reported. -/
def DiagnosticCategory.name : DiagnosticCategory → String
  | parse => "Parse"
  | schemaBuild => "SchemaBuild"
  | resolution => "Resolution"
  | cyclicSelection => "CyclicSelection"

/-- Whether a diagnostic makes the run fail. -/
inductive Severity where
  | error
  | warning
deriving DecidableEq, Repr

/-- The word that opens a rendered diagnostic. -/
def Severity.text : Severity → String
  | error => "error"
  | warning => "warning"

/-- Every kind of diagnostic, the highest rank first. -/
inductive DiagnosticKind where
  | unclosedParen
  | unclosedBracket
  | unclosedBrace
  | expectedDeclaration
  | expectedTo
  | expectedName
  | expectedType
  | expectedValue
  | expectedSelectionSet
  | unexpectedToken
  | trailingTokens
  | duplicateResponseName
  | duplicateArgument
  | duplicateVariable
  | integerOutOfRange
  | duplicateType
  | duplicateField
  | unknownType
  | invalidType
  | unknownParentType
  | invalidParentType
  | unknownPointerTarget
  | unknownRootType
  | unknownField
  | selectionSetNotAllowed
  | selectionSetRequired
  | unknownArgument
  | missingArgument
  | argumentTypeMismatch
  | undeclaredVariable
  | invalidVariableType
  | invalidDefaultValue
  | reservedVariable
  | unknownDirective
  | directiveNotAllowed
  | directiveOnPointer
  | unknownDirectiveArgument
  | directiveArgumentTypeMismatch
  | directiveArgumentNotConstant
  | duplicateDirective
  | mutuallyExclusiveDirectives
  | loadableRequired
  | loadableRequiresId
  | pointerTargetRequiresId
  | invalidEntrypoint
  | duplicateEntrypoint
  | unusedVariable
  | cyclicSelection
deriving DecidableEq, Repr, Inhabited

namespace DiagnosticKind

/-- Every kind, the highest rank first. -/
def all : List DiagnosticKind :=
  [unclosedParen, unclosedBracket, unclosedBrace, expectedDeclaration, expectedTo, expectedName,
   expectedType, expectedValue, expectedSelectionSet, unexpectedToken, trailingTokens,
   duplicateResponseName, duplicateArgument, duplicateVariable, integerOutOfRange, duplicateType,
   duplicateField, unknownType, invalidType, unknownParentType, invalidParentType,
   unknownPointerTarget, unknownRootType, unknownField, selectionSetNotAllowed,
   selectionSetRequired, unknownArgument, missingArgument, argumentTypeMismatch,
   undeclaredVariable, invalidVariableType, invalidDefaultValue, reservedVariable,
   unknownDirective, directiveNotAllowed, directiveOnPointer, unknownDirectiveArgument,
   directiveArgumentTypeMismatch, directiveArgumentNotConstant, duplicateDirective,
   mutuallyExclusiveDirectives, loadableRequired, loadableRequiresId, pointerTargetRequiresId,
   invalidEntrypoint, duplicateEntrypoint, unusedVariable, cyclicSelection]

/-- The name under which a kind is reported. -/
def name : DiagnosticKind → String
  | unclosedParen => "UnclosedParen"
  | unclosedBracket => "UnclosedBracket"
  | unclosedBrace => "UnclosedBrace"
  | expectedDeclaration => "ExpectedDeclaration"
  | expectedTo => "ExpectedTo"
  | expectedName => "ExpectedName"
  | expectedType => "ExpectedTypeAnnotation"
  | expectedValue => "ExpectedValue"
  | expectedSelectionSet => "ExpectedSelectionSet"
  | unexpectedToken => "UnexpectedToken"
  | trailingTokens => "TrailingTokens"
  | duplicateResponseName => "DuplicateResponseName"
  | duplicateArgument => "DuplicateArgument"
  | duplicateVariable => "DuplicateVariable"
  | integerOutOfRange => "IntegerOutOfRange"
  | duplicateType => "DuplicateType"
  | duplicateField => "DuplicateField"
  | unknownType => "UnknownType"
  | invalidType => "InvalidTypeAnnotation"
  | unknownParentType => "UnknownParentType"
  | invalidParentType => "InvalidParentType"
  | unknownPointerTarget => "UnknownPointerTarget"
  | unknownRootType => "UnknownRootType"
  | unknownField => "UnknownField"
  | selectionSetNotAllowed => "SelectionSetNotAllowed"
  | selectionSetRequired => "SelectionSetRequired"
  | unknownArgument => "UnknownArgument"
  | missingArgument => "MissingArgument"
  | argumentTypeMismatch => "ArgumentTypeMismatch"
  | undeclaredVariable => "UndeclaredVariable"
  | invalidVariableType => "InvalidVariableType"
  | invalidDefaultValue => "InvalidDefaultValue"
  | reservedVariable => "ReservedVariable"
  | unknownDirective => "UnknownDirective"
  | directiveNotAllowed => "DirectiveNotAllowed"
  | directiveOnPointer => "DirectiveOnPointer"
  | unknownDirectiveArgument => "UnknownDirectiveArgument"
  | directiveArgumentTypeMismatch => "DirectiveArgumentTypeMismatch"
  | directiveArgumentNotConstant => "DirectiveArgumentNotConstant"
  | duplicateDirective => "DuplicateDirective"
  | mutuallyExclusiveDirectives => "MutuallyExclusiveDirectives"
  | loadableRequired => "LoadableRequired"
  | loadableRequiresId => "LoadableRequiresId"
  | pointerTargetRequiresId => "PointerTargetRequiresId"
  | invalidEntrypoint => "InvalidEntrypoint"
  | duplicateEntrypoint => "DuplicateEntrypoint"
  | unusedVariable => "UnusedVariable"
  | cyclicSelection => "CyclicSelection"

/-- The kind with a given name. -/
def ofName? (text : String) : Option DiagnosticKind := all.find? (·.name == text)

/-- The rank of a kind: zero is the highest. -/
def rank (kind : DiagnosticKind) : Nat := kind.ctorIdx

/-- The stage that a kind belongs to. -/
def category : DiagnosticKind → DiagnosticCategory
  | unclosedParen | unclosedBracket | unclosedBrace | expectedDeclaration | expectedTo
  | expectedName | expectedType | expectedValue | expectedSelectionSet
  | unexpectedToken | trailingTokens | duplicateResponseName | duplicateArgument
  | duplicateVariable | integerOutOfRange => .parse
  | duplicateType | duplicateField | unknownType | invalidType | unknownParentType
  | invalidParentType | unknownPointerTarget | unknownRootType => .schemaBuild
  | cyclicSelection => .cyclicSelection
  | _ => .resolution

/-- Only an unused variable is a warning. -/
def severity : DiagnosticKind → Severity
  | unusedVariable => .warning
  | _ => .error

/-- Unclosed delimiters: errors of structure that others follow from. -/
def isStructural : DiagnosticKind → Bool
  | unclosedParen | unclosedBracket | unclosedBrace => true
  | _ => false

/-- A missing piece, which explains an unclosed delimiter at the same place. -/
def isRootCause : DiagnosticKind → Bool
  | expectedDeclaration | expectedTo | expectedName | expectedType | expectedValue
  | expectedSelectionSet => true
  | _ => false

/-- Whether a kind hides another one whose range it contains. Only parse errors hide each other. -/
def suppresses (a b : DiagnosticKind) : Bool :=
  a.category = .parse && b.category = .parse && a.rank < b.rank

/-- Whether a kind hides another one that starts at the same offset. A root cause hides an error of
structure whatever their ranks are. -/
def outranksAtSamePosition (a b : DiagnosticKind) : Bool :=
  if a.isStructural && b.isRootCause then false
  else if a.isRootCause && b.isStructural then true
  else a.suppresses b

/-- The hint that every diagnostic of a kind carries. -/
def defaultHint? : DiagnosticKind → Option String
  | expectedDeclaration =>
    some "e.g., `field User.avatar \x7b url \x7d` or `entrypoint Query.HomePage`"
  | expectedTo => some "e.g., `pointer User.bestFriend to User \x7b ... \x7d`"
  | mutuallyExclusiveDirectives => some "keep only one of the two directives"
  | loadableRequired => some "select it as `field @loadable`"
  | reservedVariable => some "rename it; refetch queries bind `$id` to the refetched record"
  | directiveArgumentNotConstant =>
    some "directive arguments shape the artifact and must be literals"
  | cyclicSelection => some "add `@loadable` to one selection in the cycle to defer it"
  | _ => none

/-- The message of a diagnostic that has no detail. -/
def fallbackMessage : DiagnosticKind → String
  | unclosedParen => "missing closing `)`"
  | unclosedBracket => "missing closing `]`"
  | unclosedBrace => "missing closing `\x7d`"
  | expectedDeclaration => "expected `field`, `pointer` or `entrypoint`"
  | expectedTo => "expected `to`"
  | expectedName => "expected a name"
  | expectedType => "expected a type annotation"
  | expectedValue => "expected a value"
  | expectedSelectionSet => "expected a selection set"
  | unexpectedToken => "unexpected token"
  | trailingTokens => "unexpected tokens after the declaration"
  | duplicateResponseName => "duplicate response name in selection set"
  | duplicateArgument => "duplicate argument"
  | duplicateVariable => "duplicate variable definition"
  | integerOutOfRange => "integer literal out of range"
  | duplicateType => "duplicate type"
  | duplicateField => "duplicate field"
  | unknownType => "unknown type"
  | invalidType => "invalid type annotation"
  | unknownParentType => "field declared on an unknown type"
  | invalidParentType => "fields can only be declared on object, interface or union types"
  | unknownPointerTarget => "pointer target type does not exist"
  | unknownRootType => "root operation type does not exist"
  | unknownField => "unknown field"
  | selectionSetNotAllowed => "field cannot have a selection set"
  | selectionSetRequired => "field requires a selection set"
  | unknownArgument => "unknown argument"
  | missingArgument => "missing required argument"
  | argumentTypeMismatch => "argument type mismatch"
  | undeclaredVariable => "undeclared variable"
  | invalidVariableType => "variable type must be an input type"
  | invalidDefaultValue => "default value does not match the variable type"
  | reservedVariable => "variable name is reserved"
  | unknownDirective => "unknown directive"
  | directiveNotAllowed => "directive is not allowed here"
  | directiveOnPointer => "directives are not allowed on pointer declarations"
  | unknownDirectiveArgument => "unknown directive argument"
  | directiveArgumentTypeMismatch => "directive argument type mismatch"
  | directiveArgumentNotConstant => "directive arguments must be constants"
  | duplicateDirective => "duplicate directive"
  | mutuallyExclusiveDirectives => "directives cannot be used together"
  | loadableRequired => "field must be selected with `@loadable`"
  | loadableRequiresId => "`@loadable` requires a refetchable parent type"
  | pointerTargetRequiresId => "pointer target type has no `id` field"
  | invalidEntrypoint => "invalid entrypoint"
  | duplicateEntrypoint => "duplicate entrypoint"
  | unusedVariable => "unused variable"
  | cyclicSelection => "cyclic selection"

/-- The wording around a detail: what comes before it and what comes after it. -/
structure Template where
  before : String
  after : String
deriving DecidableEq, Repr

/-- The wording of a kind around a detail. Messages of the grammar spell out themselves what was
expected and what was found. -/
def template (kind : DiagnosticKind) : Template :=
  match kind with
  | unclosedParen | unclosedBracket | unclosedBrace => ⟨kind.fallbackMessage ++ "; ", ""⟩
  | expectedDeclaration | expectedTo | expectedName | expectedType | expectedValue
  | expectedSelectionSet | unexpectedToken | trailingTokens | directiveNotAllowed => ⟨"", ""⟩
  | duplicateResponseName => ⟨"`", "` is selected twice in this selection set"⟩
  | duplicateArgument => ⟨"argument `", "` is provided twice"⟩
  | duplicateVariable => ⟨"variable `$", "` is defined twice"⟩
  | duplicateType => ⟨"type `", "` is defined twice"⟩
  | duplicateField => ⟨"field `", "` is defined twice"⟩
  | unknownType => ⟨"type `", "` does not exist"⟩
  | unknownParentType => ⟨"cannot declare `", "`: the type does not exist"⟩
  | unknownField => ⟨"`", "` is not a field"⟩
  | unknownArgument => ⟨"`", "` is not an argument of this field"⟩
  | missingArgument => ⟨"missing required argument `", "`"⟩
  | undeclaredVariable => ⟨"variable `$", "` is not declared"⟩
  | reservedVariable => ⟨"variable `$", "` is reserved for refetch queries"⟩
  | unknownDirective => ⟨"unknown directive `@", "`"⟩
  | directiveOnPointer => ⟨"`@", "` is not allowed on a pointer declaration"⟩
  | unknownDirectiveArgument => ⟨"`", "` is not an argument of this directive"⟩
  | duplicateDirective => ⟨"`@", "` is applied twice"⟩
  | mutuallyExclusiveDirectives => ⟨"", " cannot be used together"⟩
  | unusedVariable => ⟨"variable `$", "` is never used"⟩
  | duplicateEntrypoint => ⟨"`", "` is declared as an entrypoint twice"⟩
  | cyclicSelection => ⟨"cyclic selection: ", ""⟩
  | _ => ⟨kind.fallbackMessage ++ ": ", ""⟩

/-- The wording with a pair of braces where the detail goes. -/
def templateText (kind : DiagnosticKind) : String :=
  kind.template.before ++ "\x7b\x7d" ++ kind.template.after

/-- The message of a diagnostic, with its detail if it has one. -/
def message (kind : DiagnosticKind) : Option String → String
  | none => kind.fallbackMessage
  | some detail => kind.template.before ++ detail ++ kind.template.after

end DiagnosticKind

end IsoLiteral
