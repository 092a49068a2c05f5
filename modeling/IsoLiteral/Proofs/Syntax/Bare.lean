import IsoLiteral.Proofs.Syntax.Solid

/-!
# Trees without trivia and places

What is left of a tree without its trivia and without the places of its tokens is all that its layout does not
decide. Whatever is looked up among children is found in what is left of them, without its place.
-/

namespace IsoLiteral

/-- The token without its place. -/
def Token.bare (t : Token) : Token := { t with start := 0 }

@[simp] theorem Token.isTrivia_bare (t : Token) : t.bare.isTrivia = t.isTrivia := rfl

@[simp] theorem Token.kind_bare (t : Token) : t.bare.kind = t.kind := rfl

@[simp] theorem Token.text_bare (t : Token) : t.bare.text = t.text := rfl

namespace Tree

mutual
/-- The tree without the places of its tokens. -/
def placeless : Tree → Tree
  | .token t => .token t.bare
  | .node kind children => .node kind (placelessOf children)
termination_by structural tree => tree
/-- The trees without the places of their tokens. -/
def placelessOf : List Tree → List Tree
  | [] => []
  | tree :: rest => tree.placeless :: placelessOf rest
termination_by structural trees => trees
end

theorem placelessOf_eq_map (trees : List Tree) : placelessOf trees = trees.map placeless := by
  induction trees with
  | nil => rw [placelessOf, List.map_nil]
  | cons tree rest ih => rw [placelessOf, ih, List.map_cons]

/-- The tree without trivia and places. -/
def bare (tree : Tree) : Tree := tree.solid.placeless

/-- The trees that are no trivia, without trivia and places inside them. -/
def bareOf (trees : List Tree) : List Tree := placelessOf (solidOf trees)

theorem bareOf_append (xs ys : List Tree) : bareOf (xs ++ ys) = bareOf xs ++ bareOf ys := by
  simp only [bareOf, solidOf_append, placelessOf_eq_map, List.map_append]

theorem bareOf_trivia {tokens : List Token} (trivia : ∀ t ∈ tokens, t.isTrivia = true) :
    bareOf (tokens.map Tree.token) = [] := by
  rw [bareOf, solidOf_trivia trivia, placelessOf]

theorem bareOf_node (kind : SyntaxKind) (children : List Tree) :
    bareOf [.node kind children] = [.node kind (bareOf children)] := by
  rw [bareOf, solidOf_node, placelessOf, placelessOf, placeless]
  rfl

/-- Tokens that differ in places only are the same leaf. -/
theorem bareOf_token_eq {t t' : Token} (same : t'.bare = t.bare) : bareOf [.token t'] = bareOf [.token t] := by
  have trivia : t'.isTrivia = t.isTrivia := by
    rw [← Token.isTrivia_bare, same, Token.isTrivia_bare]
  cases plain : t.isTrivia with
  | true =>
    have leaf := bareOf_trivia (List.forall_mem_singleton.2 plain)
    have leaf' := bareOf_trivia (List.forall_mem_singleton.2 (trivia.trans plain))
    exact leaf'.trans leaf.symm
  | false =>
    rw [bareOf, bareOf, solidOf_token plain, solidOf_token (trivia.trans plain)]
    simp only [placelessOf, placeless, same]

theorem bare_node (kind : SyntaxKind) (children : List Tree) :
    (Tree.node kind children).bare = .node kind (bareOf children) := by
  rw [bare, solid, placeless]
  rfl

theorem bareOf_cons_of_trivia {tree : Tree} (trivia : tree.isTrivia = true) (rest : List Tree) :
    bareOf (tree :: rest) = bareOf rest := by
  rw [bareOf, solidOf, if_pos trivia]
  rfl

theorem bareOf_cons_of_solid {tree : Tree} (matters : ¬ tree.isTrivia = true) (rest : List Tree) :
    bareOf (tree :: rest) = tree.bare :: bareOf rest := by
  rw [bareOf, solidOf, if_neg matters, placelessOf]
  rfl

/-! ## Lookups -/

@[simp] theorem nodeKind?_placeless (tree : Tree) : tree.placeless.nodeKind? = tree.nodeKind? := by
  cases tree <;> simp [placeless, nodeKind?]

@[simp] theorem isNodeIn_placeless (kinds : List SyntaxKind) (tree : Tree) :
    tree.placeless.isNodeIn kinds = tree.isNodeIn kinds := by
  rw [isNodeIn, isNodeIn, nodeKind?_placeless]

@[simp] theorem isTokenOf_placeless (kind : SyntaxKind) (tree : Tree) :
    tree.placeless.isTokenOf kind = tree.isTokenOf kind := by
  cases tree <;> rw [placeless] <;> rfl

@[simp] theorem isNodeIn_bare (kinds : List SyntaxKind) (tree : Tree) :
    tree.bare.isNodeIn kinds = tree.isNodeIn kinds := by
  rw [bare, isNodeIn_placeless, isNodeIn_solid]

theorem directTokens_placelessOf (children : List Tree) :
    directTokens (placelessOf children) = (directTokens children).map Token.bare := by
  induction children with
  | nil => rw [placelessOf]; rfl
  | cons tree rest ih => cases tree <;> simp [placelessOf, placeless, ih]

theorem nodesOfKind_placelessOf (kind : SyntaxKind) (children : List Tree) :
    nodesOfKind kind (placelessOf children) = (nodesOfKind kind children).map placelessOf := by
  induction children with
  | nil => rw [placelessOf]; rfl
  | cons tree rest ih =>
    cases tree with
    | token t => simp [placelessOf, placeless, ih]
    | node kind' inner => by_cases same : kind' = kind <;> simp [placelessOf, placeless, ih, same]

/-- The first token with a property of its kind. -/
theorem find?_kind_bare (p : SyntaxKind → Bool) (tokens : List Token) :
    (tokens.map Token.bare).find? (p ·.kind) = (tokens.find? (p ·.kind)).map Token.bare := List.find?_map

theorem tokenOfKind?_placelessOf (kind : SyntaxKind) (children : List Tree) :
    tokenOfKind? kind (placelessOf children) = (tokenOfKind? kind children).map Token.bare := by
  rw [tokenOfKind?, directTokens_placelessOf]
  exact find?_kind_bare (· = kind) _

theorem directTokens_bareOf (children : List Tree) :
    directTokens (bareOf children) = ((directTokens children).filter (!·.isTrivia)).map Token.bare := by
  rw [bareOf, directTokens_placelessOf, directTokens_solidOf]

theorem tokenOfKind?_bareOf {kind : SyntaxKind} (solid : kind.isTrivia = false) (children : List Tree) :
    tokenOfKind? kind (bareOf children) = (tokenOfKind? kind children).map Token.bare := by
  rw [bareOf, tokenOfKind?_placelessOf, tokenOfKind?_solidOf solid]

theorem nodesOfKind_bareOf (kind : SyntaxKind) (children : List Tree) :
    nodesOfKind kind (bareOf children) = (nodesOfKind kind children).map bareOf := by
  rw [bareOf, nodesOfKind_placelessOf, nodesOfKind_solidOf, List.map_map]
  rfl

theorem nodeOfKind?_bareOf (kind : SyntaxKind) (children : List Tree) :
    nodeOfKind? kind (bareOf children) = (nodeOfKind? kind children).map bareOf := by
  rw [nodeOfKind?_eq_head?, nodeOfKind?_eq_head?, nodesOfKind_bareOf, List.head?_map]

/-- Finding a tree by a property that trivia do not have. -/
theorem find?_bareOf {p : Tree → Bool} (same : ∀ tree : Tree, p tree.bare = p tree)
    (other : ∀ tree : Tree, tree.isTrivia = true → p tree = false) (children : List Tree) :
    (bareOf children).find? p = (children.find? p).map bare := by
  induction children with
  | nil => rfl
  | cons tree rest ih =>
    by_cases trivia : tree.isTrivia = true
    · rw [bareOf_cons_of_trivia trivia, List.find?_cons, other tree trivia, ih]
    · rw [bareOf_cons_of_solid trivia, List.find?_cons, List.find?_cons, same]
      cases p tree with
      | true => rfl
      | false => exact ih

theorem find?_isNodeIn_bareOf (kinds : List SyntaxKind) (children : List Tree) :
    (bareOf children).find? (·.isNodeIn kinds) = (children.find? (·.isNodeIn kinds)).map bare :=
  find?_bareOf (isNodeIn_bare kinds) (fun _ => isNodeIn_trivia kinds) children

end Tree

end IsoLiteral
