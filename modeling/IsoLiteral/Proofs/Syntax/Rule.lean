import IsoLiteral.Declaration.OfTree
import IsoLiteral.Proofs.Declaration.Plain

/-!
# Rules of the grammar

A rule says which things it reads off the front of some tokens, and which tokens it leaves. The rules below
are the grammar of literals, over tokens without trivia, and read plain declarations. They know nothing of
a parser: a sequence splits the tokens wherever its parts fit, an optional part may be there or not, and the
items of a list stand between any number of commas. The keywords are identifiers, and only a keyword's own
place asks for its text.
-/

namespace IsoLiteral

/-- Which things are read off the front of some tokens, and which tokens are left. -/
abbrev Rule (α : Type) := List Token → α → List Token → Prop

namespace Rule

variable {α β : Type}

/-! ## Ways to put rules together -/

/-- One token, and what it stands for. -/
def single (meaning : Token → Option α) : Rule α :=
  fun tokens x rest => ∃ t, tokens = t :: rest ∧ meaning t = some x

/-- One token of a kind. -/
def token (kind : SyntaxKind) : Rule Token := single fun t => if t.kind = kind then some t else none

/-- An identifier in a place where it is a keyword. -/
def keyword (text : String) : Rule Token :=
  single fun t => if t.kind = .identifier ∧ t.text = text then some t else none

/-- One rule after another. -/
def seq (first : Rule α) (second : Rule β) : Rule (α × β) :=
  fun tokens x rest => ∃ between, first tokens x.1 between ∧ second between x.2 rest

/-- What a rule reads, in another form. -/
def map (f : α → β) (rule : Rule α) : Rule β := fun tokens y rest => ∃ x, rule tokens x rest ∧ f x = y

/-- A part that may be missing. -/
inductive optional (rule : Rule α) : List Token → Option α → List Token → Prop
  | none {tokens : List Token} : optional rule tokens none tokens
  | some {tokens rest : List Token} {x : α} : rule tokens x rest → optional rule tokens (some x) rest

/-- Any number of parts in a row. -/
inductive many (rule : Rule α) : List Token → List α → List Token → Prop
  | nil {tokens : List Token} : many rule tokens [] tokens
  | cons {tokens between rest : List Token} {x : α} {xs : List α} :
    rule tokens x between → many rule between xs rest → many rule tokens (x :: xs) rest

/-- Items up to the token that closes their list, with any number of commas before, between and after
them. -/
inductive items (rule : Rule α) (close : SyntaxKind) : List Token → List α → List Token → Prop
  | close {t : Token} {rest : List Token} : t.kind = close → items rule close (t :: rest) [] rest
  | comma {t : Token} {tokens rest : List Token} {xs : List α} :
    t.kind = .comma → items rule close tokens xs rest → items rule close (t :: tokens) xs rest
  | item {tokens between rest : List Token} {x : α} {xs : List α} :
    rule tokens x between → items rule close between xs rest → items rule close tokens (x :: xs) rest

/-- Items between the tokens that open and close their list. -/
def enclosed (opening close : SyntaxKind) (rule : Rule α) : Rule (List α) :=
  map Prod.snd (seq (token opening) (items rule close))

/-- `name: value` -/
inductive entry (value : Rule α) : List Token → String × α → List Token → Prop
  | intro {key colon : Token} {tokens rest : List Token} {x : α} :
    key.kind = .identifier → colon.kind = .colon → value tokens x rest →
      entry value (key :: colon :: tokens) (key.text, x) rest

/-! ## Types and values -/

/-- `Name` or `[Type]`, either followed by at most one `!`. -/
inductive typeAnnotation : List Token → TypeExpr → List Token → Prop
  | named {t : Token} {rest : List Token} :
    t.kind = .identifier → typeAnnotation (t :: rest) (.named t.text) rest
  | list {opening closing : Token} {tokens rest : List Token} {item : TypeExpr} :
    opening.kind = .bracketOpen → typeAnnotation tokens item (closing :: rest) →
      closing.kind = .bracketClose → typeAnnotation (opening :: tokens) (.list item) rest
  | nonNull {bang : Token} {tokens rest : List Token} {inner : TypeExpr} :
    typeAnnotation tokens inner (bang :: rest) → bang.kind = .bang → inner.isNonNull = false →
      typeAnnotation tokens (.nonNull inner) rest

/-- The identifier of `$name`. -/
def variableUse : Rule Token := map Prod.snd (seq (token .dollar) (token .identifier))

/-- The value that an identifier stands for. -/
def wordValue (text : String) : Value :=
  if text = "true" then .boolean true
  else if text = "false" then .boolean false
  else if text = "null" then .null
  else .enum text

/-- The value that a token stands for on its own. -/
def literalValue? (t : Token) : Option Value :=
  match t.kind with
  | .intValue => some (.int (Lowering.integerOf t.text))
  | .floatValue => some (.float t.text)
  | .stringValue | .blockStringValue => some (.string (Lowering.contentsOf t))
  | .identifier => some (wordValue t.text)
  | _ => none

/-- A variable, literal, list or object. -/
inductive value : List Token → Value → List Token → Prop
  | reference {tokens rest : List Token} {t : Token} :
    variableUse tokens t rest → value tokens (.variable t.text) rest
  | literal {tokens rest : List Token} {v : Value} :
    single literalValue? tokens v rest → value tokens v rest
  | list {t : Token} {tokens rest : List Token} {vs : List Value} :
    t.kind = .bracketOpen → items value .bracketClose tokens vs rest → value (t :: tokens) (.list vs) rest
  | object {t : Token} {tokens rest : List Token} {fields : List (String × Value)} :
    t.kind = .braceOpen → items (entry value) .braceClose tokens fields rest →
      value (t :: tokens) (.object fields) rest

/-! ## Arguments, directives and selections -/

/-- An identifier as a name. -/
def name : Rule Name := map (.plain ·.text) (token .identifier)

/-- `name: value` -/
def argument : Rule Argument := map (fun (key, v) => ⟨.plain key, .plain v⟩) (entry value)

/-- `(name: value, ...)`, or nothing. -/
def arguments : Rule (List Argument) :=
  map (·.getD []) (optional (enclosed .parenOpen .parenClose argument))

/-- `@name(arguments)` -/
def directive : Rule Directive :=
  map (fun (_, name, arguments) => ⟨name, arguments, .empty 0⟩) (seq (token .atSign) (seq name arguments))

/-- `label:` -/
def label : Rule Name := map Prod.fst (seq name (token .colon))

/-- `label: name(arguments) @directives` -/
def selectionHead : Rule Selection :=
  map (fun (label, name, arguments, directives) => ⟨label, name, arguments, directives, none, .empty 0⟩)
    (seq (optional label) (seq name (seq arguments (many directive))))

/-- `label: name(arguments) @directives { selections }`, with or without the selections. -/
inductive selection : List Token → Selection → List Token → Prop
  | leaf {tokens rest : List Token} {s : Selection} : selectionHead tokens s rest → selection tokens s rest
  | nested {t : Token} {tokens inner rest : List Token} {s : Selection} {selections : List Selection} :
    selectionHead tokens s (t :: inner) → t.kind = .braceOpen →
      items selection .braceClose inner selections rest →
        selection tokens { s with selectionSet := some selections } rest

/-- `{ selection, selection ... }` -/
def selectionSet : Rule (List Selection) := enclosed .braceOpen .braceClose selection

/-! ## Declarations -/

/-- `Type.name` -/
def target : Rule (Name × Name) :=
  map (fun (type, _, field) => (type, field)) (seq name (seq (token .dot) name))

/-- `= value` -/
def defaultValue : Rule PlacedValue := map (.plain ·.2) (seq (token .equals) value)

/-- `$name: Type = default` -/
def variableDefinition : Rule VariableDefinition :=
  map (fun (t, _, type, defaultValue) => ⟨.plain t.text, .plain type, defaultValue⟩)
    (seq variableUse (seq (token .colon) (seq typeAnnotation (optional defaultValue))))

/-- `($name: Type = default, ...)`, or nothing. -/
def variableDefinitions : Rule (List VariableDefinition) :=
  map (·.getD []) (optional (enclosed .parenOpen .parenClose variableDefinition))

/-- A string or block string. -/
def description : Rule String :=
  single fun t =>
    if t.kind = .stringValue ∨ t.kind = .blockStringValue then some (Lowering.contentsOf t) else none

/-- What follows the header of a field or pointer declaration. -/
structure Body where
  definitions : List VariableDefinition
  directives : List Directive
  description : Option String
  selections : List Selection

/-- `(variables) @directives "description" { selections }` -/
def body : Rule Body :=
  map (fun (definitions, directives, description, selections) =>
      ⟨definitions, directives, description, selections⟩)
    (seq variableDefinitions (seq (many directive) (seq (optional description) selectionSet)))

/-- The plain declaration of a form with some parts. -/
def assemble (kind : DeclarationKind) (names : Name × Name) (target : Option TypeExpr) (body : Body) :
    Declaration where
  source := 0
  kind := kind
  parentType := names.1
  fieldName := names.2
  target := target.map .plain
  variableDefinitions := body.definitions
  directives := body.directives
  description := body.description
  selections := body.selections
  range := .empty 0

/-- `field Type.name ...` -/
def fieldDeclaration : Rule Declaration :=
  map (fun (_, names, body) => assemble .field names none body) (seq (keyword "field") (seq target body))

/-- `pointer Type.name to Target ...` -/
def pointerDeclaration : Rule Declaration :=
  map (fun (_, names, _, type, body) => assemble .pointer names (some type) body)
    (seq (keyword "pointer") (seq target (seq (keyword "to") (seq typeAnnotation body))))

/-- `entrypoint Type.name ...` -/
def entrypointDeclaration : Rule Declaration :=
  map (fun (_, names, directives) => assemble .entrypoint names none ⟨[], directives, none, []⟩)
    (seq (keyword "entrypoint") (seq target (many directive)))

/-- A declaration of one of the three forms. -/
def declaration : Rule Declaration := fun tokens d rest =>
  fieldDeclaration tokens d rest ∨ pointerDeclaration tokens d rest ∨ entrypointDeclaration tokens d rest

end Rule

end IsoLiteral
