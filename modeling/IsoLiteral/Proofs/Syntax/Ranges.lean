import IsoLiteral.Proofs.Syntax.Places
import IsoLiteral.Proofs.Syntax.Trimmed

/-!
# The ranges of trees

The leaves of a tree stand in the text where their tokens do. So the range of a node is that of its tokens, the
ranges of its children lie in it one after the other, and the range of a token is where the text spells it.
-/

namespace IsoLiteral

namespace TextRange

/-- A range that covers whole tokens of the text, of which the first and the last are no trivia. -/
def Covers (r : TextRange) (text : String) : Prop :=
  ∃ before inner after, lex text = before ++ (inner ++ after) ∧ Token.Spans 0 before r.start ∧
    Token.Spans r.start inner r.stop ∧ Token.Trim inner

/-- The range at which the text has a piece. -/
def Spells (r : TextRange) (text piece : String) : Prop :=
  ∃ before after, text = before ++ piece ++ after ∧
    r = ⟨before.utf8ByteSize, before.utf8ByteSize + piece.utf8ByteSize⟩

/-- A range that lies inside another one. -/
structure Inside (inner outer : TextRange) : Prop where
  start : outer.start ≤ inner.start
  stop : inner.stop ≤ outer.stop

/-- A range that ends before another one starts. -/
def Before (r r' : TextRange) : Prop := r.stop ≤ r'.start

variable {r r' r'' : TextRange}

theorem Inside.refl (r : TextRange) : r.Inside r := ⟨le_rfl, le_rfl⟩

theorem Inside.trans (first : r.Inside r') (second : r'.Inside r'') : r.Inside r'' :=
  ⟨second.start.trans first.start, first.stop.trans second.stop⟩

/-- What lies in ranges that follow each other does so too. -/
theorem Before.inside {outer outer' : TextRange} (h : outer.Before outer') (first : r.Inside outer)
    (second : r'.Inside outer') : r.Before r' := first.stop.trans (h.trans second.start)

end TextRange

theorem Text.concat_append (xs ys : List String) : concat (xs ++ ys) = concat xs ++ concat ys := by
  induction xs with
  | nil => exact String.empty_append.symm
  | cons x rest ih =>
    show x ++ concat (rest ++ ys) = x ++ concat rest ++ concat ys
    rw [ih, String.append_assoc]

theorem Text.concat_singleton (x : String) : concat [x] = x := String.append_empty

namespace Token

theorem BecomesLeaf.start {t leaf : Token} (h : t.BecomesLeaf leaf) : leaf.start = t.start := by
  cases h <;> rfl

theorem BecomesLeaf.stop {t leaf : Token} (h : t.BecomesLeaf leaf) : leaf.stop = t.stop := by
  cases h <;> rfl

theorem BecomesLeaf.isTrivia {t leaf : Token} (h : t.BecomesLeaf leaf) : leaf.isTrivia = t.isTrivia := by
  cases h with
  | same => rfl
  | @keyword kind word spelled =>
    rw [Token.isTrivia, Token.isTrivia, word]
    cases kind <;> first | rfl | cases spelled

theorem spans_leaves {a b : Nat} {tokens leaves : List Token} (become : List.Forall₂ BecomesLeaf tokens leaves) :
    Spans a leaves b ↔ Spans a tokens b := by
  induction become generalizing a with
  | nil => exact Iff.rfl
  | cons leaf _ ih => rw [Spans, Spans, leaf.start, leaf.stop, ih]

theorem trim_iff {tokens : List Token} : Trim tokens ↔
    (tokens.map isTrivia).head? = some false ∧ (tokens.map isTrivia).getLast? = some false := by
  rw [List.head?_map, List.getLast?_map, Option.map_eq_some_iff, Option.map_eq_some_iff]
  exact ⟨fun h => ⟨h.first, h.last⟩, fun h => ⟨h.1, h.2⟩⟩

theorem trim_leaves {tokens leaves : List Token} (become : List.Forall₂ BecomesLeaf tokens leaves)
    (trim : Trim leaves) : Trim tokens := by
  have same : leaves.map isTrivia = tokens.map isTrivia := by
    clear trim
    induction become with
    | nil => rfl
    | cons leaf _ ih => rw [List.map_cons, List.map_cons, leaf.isTrivia, ih]
  rw [trim_iff] at trim ⊢
  rwa [same] at trim

/-- The bytes of tokens are those of their texts. -/
theorem Spans.size {a b : Nat} {tokens : List Token} (spans : Spans a tokens b) :
    b = a + (Text.concat (tokens.map Token.text)).utf8ByteSize := by
  induction tokens generalizing a with
  | nil => exact spans.symm
  | cons t rest ih =>
    obtain ⟨rfl, spans⟩ := spans
    rw [ih spans, List.map_cons, show Text.concat (t.text :: rest.map Token.text) =
      t.text ++ Text.concat (rest.map Token.text) from rfl, String.utf8ByteSize_append, Token.stop, Nat.add_assoc]

/-- The tokens tell the range at which they stand. -/
theorem Spans.rangeBetween {a b : Nat} {tokens : List Token} (spans : Spans a tokens b) (some : tokens ≠ []) :
    Tree.rangeBetween tokens.head? tokens.getLast? = ⟨a, b⟩ := by
  have first : (tokens.head?.map Token.start).getD 0 = a := by
    obtain ⟨t, rest, rfl⟩ := List.exists_cons_of_ne_nil some
    exact spans.1
  have last : (tokens.getLast?.map Token.stop).getD 0 = b := by
    obtain ⟨init, t, rfl⟩ := (List.eq_nil_or_concat' tokens).resolve_left some
    obtain ⟨middle, -, -, rfl⟩ := spans_append.1 spans
    rw [List.getLast?_concat]
    rfl
  rw [Tree.rangeBetween, first, last]

/-- Leaves that stand at a range of the text. -/
def Stand (text : String) (leaves : List Token) (r : TextRange) : Prop :=
  ∃ before inner after, lex text = before ++ (inner ++ after) ∧ List.Forall₂ BecomesLeaf inner leaves ∧
    Spans 0 before r.start ∧ Spans r.start inner r.stop

section Stand

variable {text : String} {xs ys : List Token} {r : TextRange}

theorem Stand.spans (h : Stand text xs r) : Spans r.start xs r.stop := by
  obtain ⟨before, inner, after, -, become, -, spans⟩ := h
  exact (spans_leaves become).2 spans

theorem Stand.append (h : Stand text (xs ++ ys) r) :
    ∃ middle, Stand text xs ⟨r.start, middle⟩ ∧ Stand text ys ⟨middle, r.stop⟩ := by
  obtain ⟨before, inner, after, tokens, become, first, spans⟩ := h
  have left := List.forall₂_take_append inner xs ys become
  have right := List.forall₂_drop_append inner xs ys become
  rw [← List.take_append_drop xs.length inner] at tokens spans
  obtain ⟨middle, spans, spans'⟩ := spans_append.1 spans
  refine ⟨middle, ⟨before, _, inner.drop xs.length ++ after, ?_, left, first, spans⟩,
    before ++ inner.take xs.length, _, after, ?_, right, ?_, spans'⟩
  · rw [tokens, List.append_assoc]
  · rw [tokens, List.append_assoc, List.append_assoc]
  · exact spans_append.2 ⟨_, first, spans⟩

theorem Stand.covers (h : Stand text xs r) (trim : Trim xs) : r.Covers text := by
  obtain ⟨before, inner, after, tokens, become, first, spans⟩ := h
  exact ⟨before, inner, after, tokens, first, spans, trim_leaves become trim⟩

/-- The text spells a token where it stands. -/
theorem Stand.spells {t : Token} (h : Stand text [t] r) : r = t.range ∧ t.range.Spells text t.text := by
  obtain ⟨start, stop⟩ := h.spans
  have range : r = t.range := by
    cases r
    exact congrArg₂ TextRange.mk start.symm stop.symm
  obtain ⟨before, inner, after, tokens, become, first, -⟩ := h
  obtain ⟨u, _, leaf, none, rfl⟩ := List.forall₂_cons_right_iff.1 become
  obtain rfl := List.forall₂_nil_right_iff.1 none
  refine ⟨range, Text.concat (before.map Token.text), Text.concat (after.map Token.text), ?_, ?_⟩
  · have spelled := (partition_lex text).spelled
    rw [tokens, List.map_append, Text.concat_append, List.map_append, Text.concat_append, List.map_singleton,
      Text.concat_singleton, ← String.append_assoc] at spelled
    rw [leaf.text, ← spelled]
  · have size := first.size
    rw [range, Nat.zero_add] at size
    rw [← size]
    rfl

end Stand

end Token

namespace Tree

/-- Trees whose leaves stand at a range of the text, and whose nodes are trimmed. -/
structure Arranged (text : String) (r : TextRange) (trees : List Tree) : Prop where
  stand : Token.Stand text (tokensOf trees) r
  trimmed : ∀ tree ∈ trees, tree.Trimmed

/-- A node whose range is that of its tokens. -/
def IsPlain (tree : Tree) : Prop := ∃ kind children, tree = .node kind children ∧ kind ≠ .declTarget

section Arranged

variable {text : String} {r : TextRange} {trees : List Tree} {kind : SyntaxKind} {inner : List Tree}

theorem Arranged.append {xs ys : List Tree} (h : Arranged text r (xs ++ ys)) :
    ∃ middle, Arranged text ⟨r.start, middle⟩ xs ∧ Arranged text ⟨middle, r.stop⟩ ys := by
  obtain ⟨stand, trimmed⟩ := h
  rw [tokensOf_append] at stand
  obtain ⟨middle, first, second⟩ := stand.append
  obtain ⟨left, right⟩ := List.forall_mem_append.1 trimmed
  exact ⟨middle, ⟨first, left⟩, ⟨second, right⟩⟩

theorem Arranged.cons {tree : Tree} (h : Arranged text r (tree :: trees)) :
    ∃ middle, Arranged text ⟨r.start, middle⟩ [tree] ∧ Arranged text ⟨middle, r.stop⟩ trees :=
  Arranged.append h

theorem Arranged.le (h : Arranged text r trees) : r.start ≤ r.stop := h.stand.spans.le

/-- Each of the trees stands inside the range of all. -/
theorem Arranged.single (h : Arranged text r trees) {tree : Tree} (member : tree ∈ trees) :
    ∃ r', Arranged text r' [tree] ∧ r'.Inside r := by
  obtain ⟨before, after, rfl⟩ := List.append_of_mem member
  obtain ⟨start, first, rest⟩ := h.append
  obtain ⟨stop, here, last⟩ := rest.cons
  exact ⟨⟨start, stop⟩, here, first.le, last.le⟩

theorem Arranged.token (h : Arranged text r trees) {t : Token} (member : Tree.token t ∈ trees) :
    t.range.Spells text t.text ∧ t.range.Inside r := by
  obtain ⟨r', here, inside⟩ := h.single member
  have stand := here.stand
  rw [tokensOf_singleton, tokens] at stand
  obtain ⟨rfl, spells⟩ := stand.spells
  exact ⟨spells, inside⟩

theorem Arranged.children (h : Arranged text r trees) (member : Tree.node kind inner ∈ trees) :
    ∃ r', Arranged text r' inner ∧ r'.Inside r := by
  obtain ⟨r', here, inside⟩ := h.single member
  have stand := here.stand
  rw [tokensOf_singleton, tokens] at stand
  exact ⟨r', ⟨stand, (h.trimmed _ member).children⟩, inside⟩

/-- The range of a node is where its leaves stand. -/
theorem Arranged.node (h : Arranged text r trees) (member : Tree.node kind inner ∈ trees)
    (plain : kind ≠ .declTarget) :
    Arranged text (rangeOf inner) inner ∧ (rangeOf inner).Covers text ∧ (rangeOf inner).Inside r := by
  obtain ⟨r', here, inside⟩ := h.children member
  have trim := (h.trimmed _ member).trim plain
  have some : tokensOf inner ≠ [] := by
    obtain ⟨t, first, -⟩ := trim.first
    rintro none
    rw [none] at first
    cases first
  have range : rangeOf inner = r' := by
    rw [rangeOf, firstTokenOf?_eq_head?, lastTokenOf?_eq_getLast?]
    exact here.stand.spans.rangeBetween some
  rw [range]
  exact ⟨here, here.stand.covers trim, inside⟩

theorem range_node (kind : SyntaxKind) (children : List Tree) : (Tree.node kind children).range = rangeOf children := by
  rw [range, firstToken?, lastToken?, rangeOf]

theorem Arranged.plain (h : Arranged text r trees) {tree : Tree} (member : tree ∈ trees) (plain : tree.IsPlain) :
    tree.range.Covers text ∧ tree.range.Inside r := by
  obtain ⟨kind, inner, rfl, other⟩ := plain
  rw [range_node]
  exact (h.node member other).2

/-- Nodes stand one after the other. -/
theorem Arranged.pairwise (h : Arranged text r trees) :
    trees.Pairwise fun x y => x.IsPlain → y.IsPlain → x.range.Before y.range := by
  induction trees generalizing r with
  | nil => exact .nil
  | cons tree rest ih =>
    obtain ⟨middle, first, after⟩ := h.cons
    refine List.pairwise_cons.2 ⟨fun next member plain plain' => ?_, ih after⟩
    have stop := (first.plain List.mem_cons_self plain).2.stop
    exact stop.trans (after.plain member plain').2.start

/-! ## Parts -/

theorem mem_of_directTokens {t : Token} (member : t ∈ directTokens trees) : Tree.token t ∈ trees := by
  obtain ⟨tree, member, same⟩ := List.mem_filterMap.1 member
  cases tree with
  | token u => exact Option.some.inj same ▸ member
  | node k children => cases same

theorem mem_of_tokenOfKind? {t : Token} (found : tokenOfKind? kind trees = some t) : Tree.token t ∈ trees :=
  mem_of_directTokens (List.mem_of_find?_eq_some found)

/-- A node is looked for by its kind. -/
theorem eq_node_of_children {tree : Tree} (found : (match tree with
    | .token _ => none
    | .node k children => if k = kind then some children else none) = some inner) : tree = .node kind inner := by
  cases tree with
  | token u => cases found
  | node k children =>
    obtain ⟨rfl, same⟩ := Option.ite_none_right_eq_some.1 found
    rw [Option.some.inj same]

theorem mem_of_nodeOfKind? (found : nodeOfKind? kind trees = some inner) : Tree.node kind inner ∈ trees := by
  obtain ⟨tree, member, same⟩ := List.exists_of_findSome?_eq_some found
  exact eq_node_of_children same ▸ member

theorem mem_nodesOfKind (member : inner ∈ nodesOfKind kind trees) : Tree.node kind inner ∈ trees := by
  obtain ⟨tree, member, same⟩ := List.mem_filterMap.1 member
  exact eq_node_of_children same ▸ member

/-- The nodes of one kind stand one after the other. -/
theorem Arranged.pairwise_nodesOfKind (h : Arranged text r trees) (plain : kind ≠ .declTarget) :
    (nodesOfKind kind trees).Pairwise fun a b => (rangeOf a).Before (rangeOf b) := by
  refine h.pairwise.filterMap _ fun x y before a first b second => ?_
  obtain rfl := eq_node_of_children first
  obtain rfl := eq_node_of_children second
  rw [range_node, range_node] at before
  exact before ⟨kind, a, rfl, plain⟩ ⟨kind, b, rfl, plain⟩

end Arranged

end Tree

end IsoLiteral
