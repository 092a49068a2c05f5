import IsoLiteral.Syntax.Tree
import Mathlib.Data.List.Forall2
import Mathlib.Tactic

/-!
# Trees without trivia

Trivia may stand between any two children of a node, and nothing that is looked up among the children
depends on them: the direct tokens that matter and the nodes of a kind are the same with and without.
-/

namespace IsoLiteral

namespace Tree

/-- Whether a tree is a token that carries no meaning. -/
def isTrivia : Tree → Bool
  | .token t => t.isTrivia
  | .node _ _ => false

mutual
/-- The tree without its trivia. -/
def solid : Tree → Tree
  | .token t => .token t
  | .node kind children => .node kind (solidOf children)
termination_by structural tree => tree
/-- The trees that are no trivia, without the trivia inside them. -/
def solidOf : List Tree → List Tree
  | [] => []
  | tree :: rest =>
    if tree.isTrivia then solidOf rest else tree.solid :: solidOf rest
termination_by structural trees => trees
end

theorem solidOf_append (xs ys : List Tree) : solidOf (xs ++ ys) = solidOf xs ++ solidOf ys := by
  induction xs with
  | nil => rw [List.nil_append, solidOf, List.nil_append]
  | cons tree rest ih =>
    rw [List.cons_append, solidOf, solidOf, ih]
    split
    · rfl
    · rw [List.cons_append]

theorem solidOf_trivia {tokens : List Token} (trivia : ∀ t ∈ tokens, t.isTrivia = true) :
    solidOf (tokens.map Tree.token) = [] := by
  induction tokens with
  | nil => rw [List.map_nil, solidOf]
  | cons t rest ih =>
    have first : (Tree.token t).isTrivia = true := trivia t List.mem_cons_self
    rw [List.map_cons, solidOf, if_pos first]
    exact ih fun u member => trivia u (List.mem_cons_of_mem t member)

@[simp] theorem solidOf_token {t : Token} (solid : t.isTrivia = false) :
    solidOf [.token t] = [.token t] := by
  simp [solidOf, isTrivia, solid, Tree.solid]

@[simp] theorem solidOf_node (kind : SyntaxKind) (children : List Tree) :
    solidOf [.node kind children] = [.node kind (solidOf children)] := by
  simp [solidOf, isTrivia, solid]

/-! ## Looking things up among children -/

/-- Nodes of one kind with the given children. -/
def nodes (kind : SyntaxKind) (inners : List (List Tree)) : List Tree := inners.map (.node kind)

@[simp] theorem nodes_nil (kind : SyntaxKind) : nodes kind [] = [] := rfl

@[simp] theorem nodes_cons (kind : SyntaxKind) (inner : List Tree) (rest : List (List Tree)) :
    nodes kind (inner :: rest) = .node kind inner :: nodes kind rest := rfl

@[simp] theorem isTokenOf_token (kind : SyntaxKind) (t : Token) :
    (Tree.token t).isTokenOf kind = decide (t.kind = kind) := rfl

@[simp] theorem isTokenOf_node (kind kind' : SyntaxKind) (inner : List Tree) :
    (Tree.node kind' inner).isTokenOf kind = false := rfl

@[simp] theorem nodeKind?_token (t : Token) : (Tree.token t).nodeKind? = none := rfl

@[simp] theorem isNodeIn_token (kinds : List SyntaxKind) (t : Token) :
    (Tree.token t).isNodeIn kinds = false := rfl

@[simp] theorem isNodeIn_node (kinds : List SyntaxKind) (kind : SyntaxKind) (inner : List Tree) :
    (Tree.node kind inner).isNodeIn kinds = kinds.contains kind := rfl

@[simp] theorem directTokens_nil : directTokens [] = [] := rfl

@[simp] theorem directTokens_token (t : Token) (rest : List Tree) :
    directTokens (.token t :: rest) = t :: directTokens rest := rfl

@[simp] theorem directTokens_node (kind : SyntaxKind) (inner rest : List Tree) :
    directTokens (.node kind inner :: rest) = directTokens rest := rfl

@[simp] theorem directTokens_append (xs ys : List Tree) :
    directTokens (xs ++ ys) = directTokens xs ++ directTokens ys := List.filterMap_append

@[simp] theorem directTokens_nodes (kind : SyntaxKind) (inners : List (List Tree)) :
    directTokens (nodes kind inners) = [] := by
  induction inners with
  | nil => rfl
  | cons inner rest ih => exact ih

@[simp] theorem nodesOfKind_nil (kind : SyntaxKind) : nodesOfKind kind [] = [] := rfl

@[simp] theorem nodesOfKind_token (kind : SyntaxKind) (t : Token) (rest : List Tree) :
    nodesOfKind kind (.token t :: rest) = nodesOfKind kind rest := rfl

@[simp] theorem nodesOfKind_node (kind kind' : SyntaxKind) (inner rest : List Tree) :
    nodesOfKind kind (.node kind' inner :: rest) =
      if kind' = kind then inner :: nodesOfKind kind rest else nodesOfKind kind rest := by
  rw [nodesOfKind, List.filterMap_cons]
  split <;> simp_all [nodesOfKind]

@[simp] theorem nodesOfKind_append (kind : SyntaxKind) (xs ys : List Tree) :
    nodesOfKind kind (xs ++ ys) = nodesOfKind kind xs ++ nodesOfKind kind ys := List.filterMap_append

@[simp] theorem nodesOfKind_nodes (kind kind' : SyntaxKind) (inners : List (List Tree)) :
    nodesOfKind kind (nodes kind' inners) = if kind' = kind then inners else [] := by
  induction inners with
  | nil => simp
  | cons inner rest ih =>
    rw [nodes_cons, nodesOfKind_node, ih]
    split <;> rfl

/-- The first node of a kind is the first of the nodes of that kind. -/
theorem nodeOfKind?_eq_head? (kind : SyntaxKind) (children : List Tree) :
    nodeOfKind? kind children = (nodesOfKind kind children).head? :=
  List.head?_filterMap.symm

/-- A node of another kind does not count. -/
theorem nodesOfKind_other {kinds : List SyntaxKind} {tree : Tree} (isNode : tree.isNodeIn kinds = true)
    {kind : SyntaxKind} (other : kind ∉ kinds) (rest : List Tree) :
    nodesOfKind kind (tree :: rest) = nodesOfKind kind rest := by
  cases tree with
  | token t => rfl
  | node kind' inner =>
    rw [nodesOfKind_node, if_neg]
    rintro rfl
    exact other (by simpa [isNodeIn, nodeKind?] using isNode)

theorem isTokenOf_isNodeIn {kinds : List SyntaxKind} {tree : Tree} (isNode : tree.isNodeIn kinds = true)
    (kind : SyntaxKind) : tree.isTokenOf kind = false := by
  cases tree with
  | token t => cases isNode
  | node kind inner => rfl

theorem isSome_nodeKind? {kinds : List SyntaxKind} {tree : Tree} (isNode : tree.isNodeIn kinds = true) :
    tree.nodeKind?.isSome = true := by
  cases tree with
  | token t => cases isNode
  | node kind inner => rfl

/-! ## Lookups without trivia -/

@[simp] theorem nodeKind?_solid (tree : Tree) : tree.solid.nodeKind? = tree.nodeKind? := by
  cases tree <;> simp [solid, nodeKind?]

@[simp] theorem isNodeIn_solid (kinds : List SyntaxKind) (tree : Tree) :
    tree.solid.isNodeIn kinds = tree.isNodeIn kinds := by
  rw [isNodeIn, isNodeIn, nodeKind?_solid]

@[simp] theorem isTokenOf_solid (kind : SyntaxKind) (tree : Tree) :
    tree.solid.isTokenOf kind = tree.isTokenOf kind := by
  cases tree <;> simp [solid, isTokenOf]

theorem directTokens_solidOf (children : List Tree) :
    directTokens (solidOf children) = (directTokens children).filter (!·.isTrivia) := by
  induction children with
  | nil => rw [solidOf]; rfl
  | cons tree rest ih =>
    cases tree with
    | token t =>
      cases trivia : t.isTrivia <;> simp [solidOf, isTrivia, trivia, solid, ih]
    | node kind inner => simp [solidOf, isTrivia, solid, ih]

theorem nodesOfKind_solidOf (kind : SyntaxKind) (children : List Tree) :
    nodesOfKind kind (solidOf children) = (nodesOfKind kind children).map solidOf := by
  induction children with
  | nil => rw [solidOf]; rfl
  | cons tree rest ih =>
    cases tree with
    | token t =>
      cases trivia : t.isTrivia <;> simp [solidOf, isTrivia, trivia, solid, ih]
    | node kind' inner =>
      by_cases same : kind' = kind <;> simp [solidOf, isTrivia, solid, ih, same]

theorem nodeOfKind?_solidOf (kind : SyntaxKind) (children : List Tree) :
    nodeOfKind? kind (solidOf children) = (nodeOfKind? kind children).map solidOf := by
  rw [nodeOfKind?_eq_head?, nodeOfKind?_eq_head?, nodesOfKind_solidOf, List.head?_map]

/-- Finding a token by a property that trivia do not have. -/
theorem find?_filter_solid {p : Token → Bool} (other : ∀ t : Token, t.isTrivia = true → p t = false)
    (tokens : List Token) : (tokens.filter (!·.isTrivia)).find? p = tokens.find? p := by
  induction tokens with
  | nil => rfl
  | cons t rest ih =>
    cases trivia : t.isTrivia with
    | true => rw [List.filter_cons_of_neg (by simp [trivia]), List.find?_cons, other t trivia, ih]
    | false => rw [List.filter_cons_of_pos (by simp [trivia]), List.find?_cons, List.find?_cons, ih]

/-- Dropping tokens up to one that trivia are no instance of. -/
theorem dropWhile_filter_solid {p : Token → Bool} (other : ∀ t : Token, t.isTrivia = true → p t = true)
    (tokens : List Token) :
    (tokens.filter (!·.isTrivia)).dropWhile p = (tokens.dropWhile p).filter (!·.isTrivia) := by
  induction tokens with
  | nil => rfl
  | cons t rest ih =>
    cases trivia : t.isTrivia with
    | true =>
      rw [List.filter_cons_of_neg (by simp [trivia]), List.dropWhile_cons_of_pos (other t trivia), ih]
    | false =>
      rw [List.filter_cons_of_pos (by simp [trivia]), List.dropWhile_cons, List.dropWhile_cons]
      split
      · exact ih
      · rw [List.filter_cons_of_pos (by simp [trivia])]

theorem ne_of_isTrivia {kind : SyntaxKind} (solid : kind.isTrivia = false) {t : Token}
    (trivia : t.isTrivia = true) : t.kind ≠ kind := by
  rintro rfl
  exact Bool.false_ne_true (solid.symm.trans trivia)

theorem tokenOfKind?_solidOf {kind : SyntaxKind} (solid : kind.isTrivia = false) (children : List Tree) :
    tokenOfKind? kind (solidOf children) = tokenOfKind? kind children := by
  rw [tokenOfKind?, tokenOfKind?, directTokens_solidOf]
  exact find?_filter_solid (fun t trivia => decide_eq_false (ne_of_isTrivia solid trivia)) _

/-- Finding a tree by a property that trivia do not have. -/
theorem find?_solidOf {p : Tree → Bool} (same : ∀ tree : Tree, p tree.solid = p tree)
    (other : ∀ tree : Tree, tree.isTrivia = true → p tree = false) (children : List Tree) :
    (solidOf children).find? p = (children.find? p).map solid := by
  induction children with
  | nil => rw [solidOf]; rfl
  | cons tree rest ih =>
    rw [solidOf, List.find?_cons]
    split
    · rename_i trivia
      rw [other tree trivia, ih]
    · rw [List.find?_cons, same]
      cases p tree with
      | true => rfl
      | false => exact ih

theorem isNodeIn_trivia (kinds : List SyntaxKind) {tree : Tree} (trivia : tree.isTrivia = true) :
    tree.isNodeIn kinds = false := by
  cases tree with
  | token t => rfl
  | node kind inner => cases trivia

theorem nodeKind?_trivia {tree : Tree} (trivia : tree.isTrivia = true) : tree.nodeKind? = none := by
  cases tree with
  | token t => rfl
  | node kind inner => cases trivia

theorem isTokenOf_trivia {kind : SyntaxKind} (solid : kind.isTrivia = false) {tree : Tree}
    (trivia : tree.isTrivia = true) : tree.isTokenOf kind = false := by
  cases tree with
  | token t => exact decide_eq_false (ne_of_isTrivia solid trivia)
  | node kind inner => rfl

/-- Dropping trees up to one that trivia are no instance of. -/
theorem dropWhile_solidOf {p : Tree → Bool} (same : ∀ tree : Tree, p tree.solid = p tree)
    (other : ∀ tree : Tree, tree.isTrivia = true → p tree = true) (children : List Tree) :
    (solidOf children).dropWhile p = solidOf (children.dropWhile p) := by
  induction children with
  | nil => rw [solidOf]; rfl
  | cons tree rest ih =>
    rw [solidOf, List.dropWhile_cons]
    split
    · rename_i trivia
      rw [other tree trivia, if_pos rfl, ih]
    · rename_i matters
      rw [List.dropWhile_cons, same]
      cases p tree with
      | true => exact ih
      | false =>
        rw [if_neg Bool.false_ne_true, if_neg Bool.false_ne_true, solidOf, if_neg matters]

end Tree

end IsoLiteral
