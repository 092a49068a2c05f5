import IsoLiteral.Syntax.Kind
import IsoLiteral.Text.Range

/-!
# Tokens

A token is a kind, its text, and the byte offset at which that text starts.
-/

namespace IsoLiteral

/-- A piece of a literal with its kind and place. -/
structure Token where
  kind : SyntaxKind
  text : String
  start : Nat
deriving DecidableEq, Repr, Inhabited

namespace Token

/-- The offset just after the token. -/
def stop (t : Token) : Nat := t.start + t.text.utf8ByteSize

/-- The bytes that the token covers. -/
def range (t : Token) : TextRange := ⟨t.start, t.stop⟩

/-- Whether the token carries no meaning. -/
def isTrivia (t : Token) : Bool := t.kind.isTrivia

end Token

end IsoLiteral
