/-!
# Kinds of tokens and tree nodes

One enumeration serves the tokens of a literal and the nodes of its syntax tree. The contextual
keywords come from no lexical rule of their own: they are identifiers that the grammar re-tags
where it expects a keyword.
-/

namespace IsoLiteral

/-- Every kind of token and node, tokens first, in declaration order. -/
inductive SyntaxKind where
  | parenOpen
  | parenClose
  | bracketOpen
  | bracketClose
  | braceOpen
  | braceClose
  | colon
  | comma
  | dot
  | atSign
  | dollar
  | equals
  | bang
  | stringValue
  | blockStringValue
  | intValue
  | floatValue
  | identifier
  | kwField
  | kwPointer
  | kwEntrypoint
  | kwTo
  | kwTrue
  | kwFalse
  | kwNull
  | whitespace
  | newline
  | lineComment
  | garbage
  | error
  | root
  | fieldDecl
  | pointerDecl
  | entrypointDecl
  | declTarget
  | variableDefs
  | variableDef
  | variableUse
  | namedType
  | listType
  | nonNullType
  | description
  | selectionSet
  | selection
  | aliasLabel
  | arguments
  | argument
  | directive
  | literal
  | listValue
  | objectValue
  | objectField
deriving DecidableEq, Repr, Inhabited

namespace SyntaxKind

/-- Every kind, in declaration order. -/
def all : List SyntaxKind :=
  [parenOpen, parenClose, bracketOpen, bracketClose, braceOpen, braceClose, colon, comma, dot,
   atSign, dollar, equals, bang, stringValue, blockStringValue, intValue, floatValue, identifier,
   kwField, kwPointer, kwEntrypoint, kwTo, kwTrue, kwFalse, kwNull, whitespace, newline,
   lineComment, garbage, error, root, fieldDecl, pointerDecl, entrypointDecl, declTarget,
   variableDefs, variableDef, variableUse, namedType, listType, nonNullType, description,
   selectionSet, selection, aliasLabel, arguments, argument, directive, literal, listValue,
   objectValue, objectField]

/-- The name under which a kind appears in dumps. -/
def name : SyntaxKind → String
  | parenOpen => "ParenOpen"
  | parenClose => "ParenClose"
  | bracketOpen => "BracketOpen"
  | bracketClose => "BracketClose"
  | braceOpen => "BraceOpen"
  | braceClose => "BraceClose"
  | colon => "Colon"
  | comma => "Comma"
  | dot => "Dot"
  | atSign => "At"
  | dollar => "Dollar"
  | equals => "Equals"
  | bang => "Bang"
  | stringValue => "StringValue"
  | blockStringValue => "BlockStringValue"
  | intValue => "IntValue"
  | floatValue => "FloatValue"
  | identifier => "Id"
  | kwField => "KwField"
  | kwPointer => "KwPointer"
  | kwEntrypoint => "KwEntrypoint"
  | kwTo => "KwTo"
  | kwTrue => "KwTrue"
  | kwFalse => "KwFalse"
  | kwNull => "KwNull"
  | whitespace => "Whitespace"
  | newline => "Newline"
  | lineComment => "LineComment"
  | garbage => "Garbage"
  | error => "Error"
  | root => "Root"
  | fieldDecl => "FieldDecl"
  | pointerDecl => "PointerDecl"
  | entrypointDecl => "EntrypointDecl"
  | declTarget => "DeclTarget"
  | variableDefs => "VariableDefs"
  | variableDef => "VariableDef"
  | variableUse => "Variable"
  | namedType => "NamedType"
  | listType => "ListType"
  | nonNullType => "NonNullType"
  | description => "Description"
  | selectionSet => "SelectionSet"
  | selection => "Selection"
  | aliasLabel => "Alias"
  | arguments => "Arguments"
  | argument => "Argument"
  | directive => "Directive"
  | literal => "Literal"
  | listValue => "ListValue"
  | objectValue => "ObjectValue"
  | objectField => "ObjectField"

/-- The kind with a given name. -/
def ofName? (text : String) : Option SyntaxKind := all.find? (·.name == text)

/-- White space, line ends and comments: tokens that carry no meaning. -/
def isTrivia : SyntaxKind → Bool
  | whitespace | newline | lineComment => true
  | _ => false

/-- Kinds that stand for malformed input. -/
def isError : SyntaxKind → Bool
  | error | garbage => true
  | _ => false

end SyntaxKind

end IsoLiteral
