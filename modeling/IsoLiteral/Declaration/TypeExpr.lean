import IsoLiteral.Text.Whitespace

/-!
# Type annotations

A type annotation is a name, a list of an annotation, or a non-null annotation. Annotations are
printed as `[Name!]!`, and the schema document gives them in that form, with white space allowed
around every part.
-/

namespace IsoLiteral

/-- The type of an argument, variable or field. -/
inductive TypeExpr where
  | named (name : String)
  | list (item : TypeExpr)
  | nonNull (inner : TypeExpr)
deriving DecidableEq, Repr, Inhabited

namespace TypeExpr

/-- The non-null form of an annotation. -/
def asNonNull : TypeExpr → TypeExpr
  | .nonNull inner => .nonNull inner
  | t => .nonNull t

/-- Whether the annotation is non-null at its outermost level. -/
def isNonNull : TypeExpr → Bool
  | .nonNull _ => true
  | _ => false

/-- The annotation without an outermost `!`. -/
def nullable : TypeExpr → TypeExpr
  | .nonNull inner => inner
  | t => t

/-- The annotation of the items of a list, nullable or not. -/
def listItem? (t : TypeExpr) : Option TypeExpr :=
  match t.nullable with
  | .list item => some item
  | _ => none

/-- The name at the core of the annotation. -/
def innerName : TypeExpr → String
  | .named name => name
  | .list item => item.innerName
  | .nonNull inner => inner.innerName

/-- Whether a value of one type may be passed where another is expected: non-null types satisfy
nullable ones, and lists nest alike. -/
def satisfies : TypeExpr → TypeExpr → Bool
  | .nonNull a, .nonNull b => a.satisfies b
  | .nonNull a, b => a.satisfies b
  | .list _, .nonNull _ => false
  | .named _, .nonNull _ => false
  | .list a, .list b => a.satisfies b
  | .named a, .named b => a = b
  | .list _, .named _ => false
  | .named _, .list _ => false

/-- The annotation as it is written. -/
def render : TypeExpr → String
  | .named name => name
  | .list item => "[" ++ item.render ++ "]"
  | .nonNull inner => inner.render ++ "!"

/-- Names come before lists, lists before non-null types, and then the contents decide. -/
def compare : TypeExpr → TypeExpr → Ordering
  | .named a, .named b => Ord.compare a b
  | .named _, .list _ => .lt
  | .named _, .nonNull _ => .lt
  | .list _, .named _ => .gt
  | .list a, .list b => a.compare b
  | .list _, .nonNull _ => .lt
  | .nonNull _, .named _ => .gt
  | .nonNull _, .list _ => .gt
  | .nonNull a, .nonNull b => a.compare b

/-! ## Reading -/

/-- Whether a text is an identifier: an ASCII letter or underscore, then letters, digits and
underscores. -/
def isIdentifier : List Char → Bool
  | [] => false
  | c :: rest => (c.isAlpha || c = '_') && rest.all (fun d => d.isAlphanum || d = '_')

/-- The text without a final character, if that is the one it ends in. -/
def stripLast? (last : Char) (text : List Char) : Option (List Char) :=
  if text.getLast? = some last then some text.dropLast else none

/-- The annotation that a text without a final `!` gives, its items read by `item`. -/
def ofBody? (item : List Char → Option TypeExpr) : List Char → Option TypeExpr
  | '[' :: rest => do
    let inner ← stripLast? ']' rest
    return .list (← item inner)
  | body => if isIdentifier body then some (.named (String.ofList body)) else none

/-- The annotation that a text gives, for at most `bound` levels of lists. -/
def ofChars? : Nat → List Char → Option TypeExpr
  | 0, _ => none
  | bound + 1, text =>
    let trimmed := Text.trim text
    match stripLast? '!' trimmed with
    | some body => (ofBody? (ofChars? bound) (Text.trimEnd body)).map .nonNull
    | none => ofBody? (ofChars? bound) trimmed

/-- The annotation that a text gives. -/
def ofString? (text : String) : Option TypeExpr :=
  ofChars? (text.toList.length + 1) text.toList

/-- What is reported for a text that is no type annotation. -/
def invalidMessage (text : String) : String := "invalid type annotation `" ++ text ++ "`"

end TypeExpr

end IsoLiteral
