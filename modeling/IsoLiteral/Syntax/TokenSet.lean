import IsoLiteral.Syntax.Kind
import IsoLiteral.Text.Join

/-!
# Sets of token kinds

The grammar asks whether the current token is one of a few kinds: those that may start a value or
a type, and those at which recovery stops.
-/

namespace IsoLiteral

/-- A set of kinds, given by the kinds listed in it. -/
structure TokenSet where
  kinds : List SyntaxKind
deriving Repr, Inhabited

namespace TokenSet

/-- The set without members. -/
def empty : TokenSet := ⟨[]⟩

/-- The set of one kind. -/
def single (kind : SyntaxKind) : TokenSet := ⟨[kind]⟩

/-- Whether a kind is in the set. -/
def contains (s : TokenSet) (kind : SyntaxKind) : Bool := s.kinds.contains kind

/-- The kinds that are in one of the two sets. -/
def union (s t : TokenSet) : TokenSet := ⟨s.kinds ++ t.kinds⟩

/-- The members, each once and in declaration order. -/
def toList (s : TokenSet) : List SyntaxKind := SyntaxKind.all.filter s.contains

/-- The members' names in braces. -/
def render (s : TokenSet) : String :=
  "\x7b" ++ Text.joinWith ", " (s.toList.map SyntaxKind.name) ++ "\x7d"

theorem contains_union (s t : TokenSet) (kind : SyntaxKind) :
    (s.union t).contains kind = (s.contains kind || t.contains kind) := by
  simp [contains, union, List.contains_eq_mem, List.mem_append, Bool.decide_or]

/-- Kinds that may start a value; `true`, `false` and `null` arrive as identifiers. -/
def valueFirst : TokenSet :=
  ⟨[.dollar, .stringValue, .blockStringValue, .intValue, .floatValue, .identifier, .bracketOpen,
    .braceOpen]⟩

/-- Kinds that may start a type annotation. -/
def typeFirst : TokenSet := ⟨[.identifier, .bracketOpen]⟩

/-- Kinds a description may have. -/
def descriptions : TokenSet := ⟨[.stringValue, .blockStringValue]⟩

/-- Kinds that carry no meaning. -/
def trivia : TokenSet := ⟨[.whitespace, .newline, .lineComment]⟩

/-- Where a broken selection stops swallowing tokens. -/
def selectionRecovery : TokenSet := ⟨[.braceClose, .braceOpen, .identifier]⟩

/-- Where a broken argument stops swallowing tokens. -/
def argumentRecovery : TokenSet := ⟨[.parenClose, .identifier, .braceOpen, .braceClose]⟩

/-- Where a broken variable definition stops swallowing tokens. -/
def variableDefRecovery : TokenSet := ⟨[.parenClose, .dollar, .braceOpen, .atSign]⟩

/-- Where a broken value stops swallowing tokens. -/
def valueRecovery : TokenSet := ⟨[.parenClose, .bracketClose, .braceClose, .comma]⟩

/-- Kinds that may follow a declaration header. -/
def headerRecovery : TokenSet :=
  ⟨[.parenOpen, .atSign, .braceOpen, .stringValue, .blockStringValue]⟩

end TokenSet

end IsoLiteral
