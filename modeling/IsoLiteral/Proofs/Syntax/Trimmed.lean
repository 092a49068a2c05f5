import IsoLiteral.Proofs.Syntax.Runs

/-!
# Nodes start and stop with tokens that matter

Trivia are held back until the next node starts or the next token is taken, a node is started only when its
first token is next, and it is finished before the trivia behind its last token are put anywhere. So the
first and the last leaf of a node are no trivia. The target of a declaration is the exception: it starts
where the keyword stops, and it may be empty.
-/

namespace IsoLiteral

/-- Tokens of which the first and the last are no trivia. -/
structure Token.Trim (tokens : List Token) : Prop where
  first : ∃ t, tokens.head? = some t ∧ t.isTrivia = false
  last : ∃ t, tokens.getLast? = some t ∧ t.isTrivia = false

/-- A tree in which every node but the target of a declaration starts and stops with a token that matters. -/
inductive Tree.Trimmed : Tree → Prop
  | token (t : Token) : Trimmed (.token t)
  | node {kind : SyntaxKind} {children : List Tree} (each : ∀ tree ∈ children, Trimmed tree)
    (ends : kind = .declTarget ∨ Token.Trim (tokensOf children)) : Trimmed (.node kind children)

theorem Tree.Trimmed.children {kind : SyntaxKind} {children : List Tree} (h : (Tree.node kind children).Trimmed) :
    ∀ tree ∈ children, tree.Trimmed := by
  cases h with
  | node each ends => exact each

theorem Tree.Trimmed.trim {kind : SyntaxKind} {children : List Tree} (h : (Tree.node kind children).Trimmed)
    (other : kind ≠ .declTarget) : Token.Trim (tokensOf children) := by
  cases h with
  | node each ends => exact ends.resolve_left other

namespace Parser

/-- What a run adds to the innermost open node: leaves for tokens that were held back or ahead, in order and as
trivial as these, with no trivia at the end, in nodes that are trimmed. -/
structure Grows (s s' : State) (added : List Tree) : Prop where
  built : s'.built = s.built ++ added
  leaves : (s.pending ++ s.rest).map Token.isTrivia =
    (Tree.tokensOf added ++ (s'.pending ++ s'.rest)).map Token.isTrivia
  last : ∀ t ∈ (Tree.tokensOf added).getLast?, t.isTrivia = false
  trimmed : ∀ tree ∈ added, tree.Trimmed

variable {s s' s'' : State} {added more : List Tree}

theorem Grows.still (built : s'.built = s.built)
    (tokens : (s'.pending ++ s'.rest).map Token.isTrivia = (s.pending ++ s.rest).map Token.isTrivia) :
    Grows s s' [] where
  built := by rw [built, List.append_nil]
  leaves := by rw [Tree.tokensOf, List.nil_append, tokens]
  last _ none := absurd none (Option.not_mem_none _)
  trimmed _ none := absurd none List.not_mem_nil

theorem last_append {xs ys : List Token} (first : ∀ t ∈ xs.getLast?, t.isTrivia = false)
    (second : ∀ t ∈ ys.getLast?, t.isTrivia = false) : ∀ t ∈ (xs ++ ys).getLast?, t.isTrivia = false := by
  intro t last
  rw [List.getLast?_append] at last
  cases after : ys.getLast? with
  | none =>
    rw [after, Option.none_or] at last
    exact first t last
  | some u =>
    rw [after, Option.some_or] at last
    exact second t (after ▸ last)

theorem Grows.trans (first : Grows s s' added) (second : Grows s' s'' more) : Grows s s'' (added ++ more) where
  built := by rw [second.built, first.built, List.append_assoc]
  leaves := by
    rw [first.leaves, List.map_append, second.leaves, ← List.map_append, Tree.tokensOf_append, List.append_assoc]
  last := by
    rw [Tree.tokensOf_append]
    exact last_append first.last second.last
  trimmed := List.forall_mem_append.2 ⟨first.trimmed, second.trimmed⟩

theorem grows_taken {t : Token} {rest : List Token} {leaf : SyntaxKind} (here : s.rest = t :: rest)
    (solid : t.isTrivia = false) (becomes : leaf.isTrivia = false) :
    Grows s (s.taken t rest leaf) (s.pending.map Tree.token ++ [.token { t with kind := leaf }]) where
  built := built_taken s t rest leaf
  leaves := by
    have same : Token.isTrivia { t with kind := leaf } = t.isTrivia := by rw [solid]; exact becomes
    have none : (s.taken t rest leaf).pending = [] := rfl
    have left : (s.taken t rest leaf).rest = rest := rfl
    rw [here, none, left, List.nil_append, Tree.tokensOf_append, Tree.tokensOf_map_token, Tree.tokensOf_singleton,
      Tree.tokens, List.append_assoc, List.singleton_append, List.map_append, List.map_append, List.map_cons,
      List.map_cons, same]
  last := by
    rw [Tree.tokensOf_append, Tree.tokensOf_singleton, Tree.tokens, List.getLast?_concat]
    rintro u ⟨⟩
    exact becomes
  trimmed := by
    refine List.forall_mem_append.2 ⟨fun tree member => ?_, List.forall_mem_singleton.2 (.token _)⟩
    obtain ⟨u, -, rfl⟩ := List.mem_map.1 member
    exact .token u

/-- Trivia may be put in front of what ends in a token. -/
theorem Grows.flush (run : Grows (flush s).2 s' added) (some : Tree.tokensOf added ≠ []) :
    Grows s s' (s.pending.map Tree.token ++ added) where
  built := by rw [run.built, ← List.append_assoc]; rfl
  leaves := by
    have left : s.rest.map Token.isTrivia = _ := run.leaves
    rw [List.map_append, left, ← List.map_append, Tree.tokensOf_append, Tree.tokensOf_map_token, List.append_assoc]
  last := by
    rw [Tree.tokensOf_append, List.getLast?_append_of_ne_nil _ some]
    exact run.last
  trimmed := by
    refine List.forall_mem_append.2 ⟨fun tree member => ?_, run.trimmed⟩
    obtain ⟨u, -, rfl⟩ := List.mem_map.1 member
    exact .token u

/-- What is added where the next token matters and nothing is held back is trimmed. -/
theorem Grows.trim (run : Grows s s' added) (none : s.pending = []) (settled : s.Settled)
    (some : Tree.tokensOf added ≠ []) : Token.Trim (Tree.tokensOf added) where
  first := by
    obtain ⟨t, leaves, tokens⟩ := List.exists_cons_of_ne_nil some
    have same := run.leaves
    rw [none, List.nil_append, tokens, List.cons_append, List.map_cons] at same
    obtain ⟨u, rest, here, trivia, -⟩ := List.map_eq_cons_iff.1 same
    refine ⟨t, by rw [tokens]; rfl, trivia ▸ settled u ?_⟩
    rw [here]
    rfl
  last := ⟨_, List.getLast?_eq_some_getLast some, run.last _ (List.getLast?_eq_some_getLast some)⟩

theorem Course.grows (course : Course s s') : ∃ added, Grows s s' added := by
  induction course with
  | refl s => exact ⟨[], .still rfl rfl⟩
  | trans _ _ first second =>
    obtain ⟨added, first⟩ := first
    obtain ⟨more, second⟩ := second
    exact ⟨added ++ more, first.trans second⟩
  | settle s =>
    refine ⟨[], .still rfl ?_⟩
    show (s.pending ++ s.rest.takeWhile Token.isTrivia ++ s.rest.dropWhile Token.isTrivia).map _ = _
    rw [List.append_assoc, List.takeWhile_append_dropWhile]
  | idle s => exact ⟨[], .still rfl rfl⟩
  | take here solid becomes => exact ⟨_, grows_taken here solid becomes⟩
  | charge => exact ⟨[], .still rfl rfl⟩
  | @unclosed s u t rest leaf here solid becomes _ settled fresh kind message inside =>
    obtain ⟨added, inside⟩ := inside
    exact ⟨_, ((grows_taken here solid becomes).trans inside).trans (.still rfl rfl)⟩
  | @flush s u _ fills run =>
    obtain ⟨added, run⟩ := run
    refine ⟨_, run.flush fun none => ?_⟩
    rw [State.held, State.held, run.built, Tree.tokensOf_append, none, List.append_nil] at fills
    exact lt_irrefl _ fills
  | @node s v u since kind _ built _ trim base inside =>
    obtain ⟨_, base⟩ := base
    obtain rfl := List.append_cancel_left (built.symm.trans base.built)
    obtain ⟨more, inside⟩ := inside
    -- seen from the start of the node, the base and the inside are one run
    have whole : Grows { s with built := [] } u u.built := by
      have shifted : Grows { s with built := [] }
          { v with
            built := since
            enclosing := (kind, s.built) :: s.enclosing } since := { base with built := rfl }
      rw [inside.built]
      exact shifted.trans inside
    have node : (Tree.node kind u.built).Trimmed :=
      .node whole.trimmed (trim.imp_right fun held => whole.trim held.1 held.2.1 held.2.2)
    exact ⟨[.node kind u.built], {
      built := rfl
      leaves := by
        rw [Tree.tokensOf_singleton, Tree.tokens]
        exact whole.leaves
      last := by
        rw [Tree.tokensOf_singleton, Tree.tokens]
        exact whole.last
      trimmed := List.forall_mem_singleton.2 node }⟩

/-- The nodes of a literal start and stop with tokens that matter. -/
theorem trimmed_finalState (text : String) (source : Nat) (limits : ParseLimits) :
    ∀ tree ∈ (finalState text source limits).built, tree.Trimmed := by
  obtain ⟨added, grows⟩ := (course_lastState text source limits).grows
  rw [finalState_eq_flush]
  show ∀ tree ∈ (lastState text source limits).built ++ (lastState text source limits).pending.map Tree.token,
    tree.Trimmed
  rw [grows.built]
  refine List.forall_mem_append.2 ⟨?_, fun tree member => ?_⟩
  · exact List.forall_mem_append.2 ⟨fun tree none => absurd none List.not_mem_nil, grows.trimmed⟩
  · obtain ⟨u, -, rfl⟩ := List.mem_map.1 member
    exact .token u

end Parser

end IsoLiteral
