import IsoLiteral.Syntax.Token
import IsoLiteral.Text.Join
import IsoLiteral.Text.Quoted

/-!
# Syntax trees

A tree keeps every token of its literal, trivia included, so that its leaves spell the literal out
again. Inner nodes only have a kind and children.
-/

namespace IsoLiteral

/-- A concrete syntax tree. -/
inductive Tree where
  | token (token : Token)
  | node (kind : SyntaxKind) (children : List Tree)
deriving Repr, Inhabited

namespace Tree

mutual
/-- The tokens at the leaves, in order. -/
def tokens : Tree → List Token
  | .token t => [t]
  | .node _ children => tokensOf children
termination_by structural tree => tree
/-- The tokens at the leaves of several trees, in order. -/
def tokensOf : List Tree → List Token
  | [] => []
  | tree :: rest => tree.tokens ++ tokensOf rest
termination_by structural trees => trees
end

/-- The text that the leaves spell. -/
def text (tree : Tree) : String := Text.concat (tree.tokens.map Token.text)

mutual
/-- The first token at the leaves. -/
def firstToken? : Tree → Option Token
  | .token t => some t
  | .node _ children => firstTokenOf? children
termination_by structural tree => tree
/-- The first token at the leaves of several trees. -/
def firstTokenOf? : List Tree → Option Token
  | [] => none
  | tree :: rest =>
    match tree.firstToken? with
    | some t => some t
    | none => firstTokenOf? rest
termination_by structural trees => trees
end

mutual
/-- The last token at the leaves. -/
def lastToken? : Tree → Option Token
  | .token t => some t
  | .node _ children => lastTokenOf? children
termination_by structural tree => tree
/-- The last token at the leaves of several trees. -/
def lastTokenOf? : List Tree → Option Token
  | [] => none
  | tree :: rest =>
    match lastTokenOf? rest with
    | some t => some t
    | none => tree.lastToken?
termination_by structural trees => trees
end

mutual
theorem firstToken?_eq_head? : ∀ tree : Tree, tree.firstToken? = tree.tokens.head?
  | .token _ => by simp [firstToken?, tokens]
  | .node _ children => by simp [firstToken?, tokens, firstTokenOf?_eq_head? children]
theorem firstTokenOf?_eq_head? : ∀ trees : List Tree, firstTokenOf? trees = (tokensOf trees).head?
  | [] => by simp [firstTokenOf?, tokensOf]
  | tree :: rest => by
    rw [firstTokenOf?, tokensOf, List.head?_append, firstToken?_eq_head? tree,
      firstTokenOf?_eq_head? rest]
    cases tree.tokens.head? <;> rfl
end

mutual
theorem lastToken?_eq_getLast? : ∀ tree : Tree, tree.lastToken? = tree.tokens.getLast?
  | .token _ => by simp [lastToken?, tokens]
  | .node _ children => by simp [lastToken?, tokens, lastTokenOf?_eq_getLast? children]
theorem lastTokenOf?_eq_getLast? :
    ∀ trees : List Tree, lastTokenOf? trees = (tokensOf trees).getLast?
  | [] => by simp [lastTokenOf?, tokensOf]
  | tree :: rest => by
    rw [lastTokenOf?, tokensOf, List.getLast?_append, lastToken?_eq_getLast? tree,
      lastTokenOf?_eq_getLast? rest]
    cases (tokensOf rest).getLast? <;> rfl
end

/-- The bytes from one token to another; both are missing where there are no tokens. -/
def rangeBetween (first last : Option Token) : TextRange :=
  ⟨(first.map Token.start).getD 0, (last.map Token.stop).getD 0⟩

/-- The bytes that the leaves below some children cover. -/
def rangeOf (children : List Tree) : TextRange :=
  rangeBetween (firstTokenOf? children) (lastTokenOf? children)

/-- The bytes that a tree covers. -/
def range (tree : Tree) : TextRange := rangeBetween tree.firstToken? tree.lastToken?

/-- The kind of an inner node. -/
def nodeKind? : Tree → Option SyntaxKind
  | .token _ => none
  | .node kind _ => some kind

/-- Whether a tree is a node of one of the given kinds. -/
def isNodeIn (kinds : List SyntaxKind) (tree : Tree) : Bool := tree.nodeKind?.any kinds.contains

/-- The children of a tree; a token has none. -/
def children : Tree → List Tree
  | .token _ => []
  | .node _ children => children

/-- Whether a tree is a token of the given kind. -/
def isTokenOf (kind : SyntaxKind) : Tree → Bool
  | .token t => t.kind = kind
  | .node _ _ => false

/-- The tokens that are themselves among some children. -/
def directTokens (children : List Tree) : List Token :=
  children.filterMap fun
    | .token t => some t
    | .node _ _ => none

/-- The first token of a kind among some children. -/
def tokenOfKind? (kind : SyntaxKind) (children : List Tree) : Option Token :=
  (directTokens children).find? (·.kind = kind)

/-- The children of the first node of a kind among some children. -/
def nodeOfKind? (kind : SyntaxKind) (children : List Tree) : Option (List Tree) :=
  children.findSome? fun
    | .token _ => none
    | .node k inner => if k = kind then some inner else none

/-- The children of each node of a kind among some children. -/
def nodesOfKind (kind : SyntaxKind) (children : List Tree) : List (List Tree) :=
  children.filterMap fun
    | .token _ => none
    | .node k inner => if k = kind then some inner else none

mutual
/-- The lines of a tree: a kind for each node, a kind and the quoted text for each token, indented
by depth. Trivia are left out unless asked for. -/
def dumpLines (trivia : Bool) (depth : Nat) : Tree → List String
  | .token t =>
    if !trivia && t.isTrivia then []
    else [Text.indentation depth ++ t.kind.name ++ " " ++ Text.quoted t.text ++ "\n"]
  | .node kind children =>
    (Text.indentation depth ++ kind.name ++ "\n") :: dumpLinesOf trivia (depth + 1) children
termination_by structural tree => tree
/-- The lines of several trees at one depth. -/
def dumpLinesOf (trivia : Bool) (depth : Nat) : List Tree → List String
  | [] => []
  | tree :: rest => tree.dumpLines trivia depth ++ dumpLinesOf trivia depth rest
termination_by structural trees => trees
end

/-- The tree as indented text. -/
def dump (trivia : Bool) (tree : Tree) : String := Text.concat (tree.dumpLines trivia 0)

end Tree

end IsoLiteral
