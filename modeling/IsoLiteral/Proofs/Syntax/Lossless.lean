import IsoLiteral.Proofs.Syntax.Faultless
import IsoLiteral.Proofs.Syntax.Partition

/-!
# Syntax trees are lossless

Since the parser only ever does steps, and steps neither lose nor repeat a token, all tokens of a text are
either leaves of its tree or still left at the end. Unless a limit is exceeded nothing is left: what follows
the declaration is taken to the end, and the last trivia held back are put into the tree. So the leaves of
the tree are the tokens of the text, and they spell it out again.
-/

namespace IsoLiteral

namespace Parser

/-! ## The end of a literal -/

/-- A loop that was not cut short ends with a round that does not ask for another. -/
theorem exists_last_round {step : Parser Bool} {bound : Nat} {s : State}
    (clean : (repeatStep bound step s).2.fault = none) :
    ∃ u, (step u).1 = false ∧ (step u).2 = (repeatStep bound step s).2 := by
  induction bound generalizing s with
  | zero =>
    have overrun : s.fault.or (some .overrun) = none := clean
    cases fault : s.fault <;> simp [fault] at overrun
  | succ bound ih =>
    cases goes : (step s).1 with
    | false => exact ⟨s, goes, (repeatStep_of_false goes bound).symm⟩
    | true =>
      rw [repeatStep_of_true goes] at clean ⊢
      exact ih clean

/-- Unless a limit is exceeded, it is only at the end of the literal that it is time to stop. -/
theorem rest_settle {s : State} (stop : (shouldStop s).1 = true) (within : s.exceeded = none) :
    (settle s).2.rest = [] := by
  rw [shouldStop_eq, within, Option.isSome_none, Bool.or_false, ← isEmpty_settled] at stop
  exact List.isEmpty_iff.1 stop

/-- Skipping without a token to stop at goes on to the end. -/
theorem rest_skipStep_empty {s : State} (stops : (skipStep .empty s).1 = false)
    (within : (skipStep .empty s).2.exceeded = none) : (skipStep .empty s).2.rest = [] := by
  have run : skipStep .empty s = (if (shouldStop s).1 = true then Pure.pure false else (do
      if ← currentlyIn .empty then return false
      else
        bump
        return true) : Parser Bool) (shouldStop s).2 := rfl
  cases stop : (shouldStop s).1 with
  | true =>
    rw [run, stop] at within ⊢
    exact rest_settle stop within
  | false =>
    rw [run, stop] at stops
    cases stops

/-- What is left after a declaration, in one error node. -/
abbrev swallow : Parser Unit := do
  errorExpected .trailingTokens "end of literal"
  loop (skipStep .empty)

/-- An error node without a token to stop at is filled to the end. -/
theorem rest_swallow {n : Nat} {s : State} (ready : Ready n 5 s) (clean : s.fault = none)
    (within : (swallow s).2.exceeded = none) : (swallow s).2.rest = [] := by
  have fares := (sound_swallow .trailingTokens "end of literal" .empty).fares s ready trivial
  obtain ⟨u, stops, last⟩ := exists_last_round (fares.steps.fault.trans clean)
  show (repeatStep _ (skipStep .empty) _).2.rest = []
  rw [← last]
  apply rest_skipStep_empty stops
  rw [last]
  exact within

theorem trailing_eq (s : State) :
    trailing s = (if (shouldStop s).1 = true then Pure.pure () else node .error swallow : Parser Unit)
      (settle s).2 := by
  show (if (!(shouldStop s).1) = true then node .error swallow else Pure.pure () : Parser Unit) _ = _
  cases (shouldStop s).1 <;> rfl

/-- What is left after a declaration is taken to the end. -/
theorem rest_trailing {n : Nat} {s : State} (ready : Ready n 5 s) (clean : s.fault = none)
    (within : (trailing s).2.exceeded = none) : (trailing s).2.rest = [] := by
  rw [trailing_eq] at within ⊢
  cases stop : (shouldStop s).1 with
  | true =>
    rw [stop] at within
    exact rest_settle stop within
  | false =>
    have settled := (looks_settle.fares s (Nat.zero_le _)).toSpends
    have started := settled.trans (spends_startNode .error (settle s).2)
    have inside := ready.next started (by decide : 0 + 0 + 5 ≤ 5)
    have fares := (sound_swallow .trailingTokens "end of literal" .empty).fares _ inside trivial
    rw [stop, if_neg Bool.false_ne_true, node_eq fares.toKept] at within
    rw [if_neg Bool.false_ne_true, node_eq fares.toKept]
    exact rest_swallow inside (started.steps.fault.trans clean) within

theorem literal_apply (bound : Nat) (s : State) :
    (literal bound s).2 = (flush (trailing (declaration bound s).2).2).2 := rfl

theorem rest_literal {bound : Nat} {s : State} (ready : Ready bound 101 s) (clean : s.fault = none)
    (within : (literal bound s).2.exceeded = none) : (literal bound s).2.rest = [] := by
  have first := (sound_declaration bound).fares s (ready.le (by decide)) trivial
  have next := ready.next first.toSpends (by decide : 96 + 5 ≤ 101)
  rw [literal_apply] at within ⊢
  exact rest_trailing next (first.steps.fault.trans clean) within

/-- Unless a limit is exceeded, all of a literal is taken into its tree. -/
theorem nothing_left {text : String} {source : Nat} {limits : ParseLimits}
    (within : (finalState text source limits).exceeded = none) :
    (finalState text source limits).rest = [] ∧ (finalState text source limits).pending = [] := by
  rw [finalState_eq] at within ⊢
  refine ⟨rest_literal (ready_initial text source limits) rfl within, ?_⟩
  rw [literal_apply]
  rfl

/-! ## Leaves -/

theorem leaves_initial (text : String) (source : Nat) (limits : ParseLimits) :
    (State.initial text source limits).leaves = lex text := by
  show Tree.tokensOf [] ++ ([] ++ lex text) = _
  rw [Tree.tokensOf, List.nil_append, List.nil_append]

/-- Unless a limit is exceeded, the leaves are the tokens of the text. -/
theorem leaves_finalState {text : String} {source : Nat} {limits : ParseLimits}
    (within : (finalState text source limits).exceeded = none) :
    List.Forall₂ Token.BecomesLeaf (lex text) (Tree.tokensOf (finalState text source limits).built) := by
  have fares := fares_finalState text source limits
  have leaves := fares.steps.leaves
  obtain ⟨rest, pending⟩ := nothing_left within
  have closed : (finalState text source limits).enclosing = [] := fares.enclosing
  rw [leaves_initial, State.leaves, closed, rest, pending, leavesBefore, List.nil_append, List.append_nil,
    List.append_nil] at leaves
  exact leaves

theorem map_text_leaves {tokens leaves : List Token} (become : List.Forall₂ Token.BecomesLeaf tokens leaves) :
    leaves.map Token.text = tokens.map Token.text := by
  induction become with
  | nil => rfl
  | cons leaf _ ih => rw [List.map_cons, List.map_cons, leaf.text, ih]

end Parser

open IsoLiteral.Parser

theorem parseTree_eq_ok {text : String} {source : Nat} {limits : ParseLimits} {tree : Tree}
    {ds : Diagnostics} :
    parseTree text source limits = .ok (tree, ds) ↔
      (finalState text source limits).exceeded = none ∧
        tree = .node .root (finalState text source limits).built ∧
        ds = (finalState text source limits).diagnostics := by
  unfold parseTree
  generalize finalState text source limits = final
  cases here : final.exceeded with
  | none => simp [here, eq_comm]
  | some limit => simp [here]

theorem parseTree_eq_error {text : String} {source : Nat} {limits : ParseLimits} {limit : LimitError} :
    parseTree text source limits = .error limit ↔ (finalState text source limits).exceeded = some limit := by
  unfold parseTree
  generalize finalState text source limits = final
  cases here : final.exceeded <;> simp [here]

/-- The tree of a text is lossless: its leaves are the tokens of the text in order, trivia included, each one
as it is or, for an identifier, as the contextual keyword that it spells. The tokens in turn cut the text
into pieces, so the tree spells out the text. -/
theorem parseTree_lossless {text : String} {source : Nat} {limits : ParseLimits} {tree : Tree}
    {ds : Diagnostics} (parsed : parseTree text source limits = .ok (tree, ds)) :
    List.Forall₂ Token.BecomesLeaf (lex text) tree.tokens ∧ Partition text (lex text) ∧ tree.text = text := by
  obtain ⟨within, rfl, -⟩ := parseTree_eq_ok.1 parsed
  have leaves := leaves_finalState within
  have partition := partition_lex text
  refine ⟨?_, partition, ?_⟩
  · rw [Tree.tokens]
    exact leaves
  · rw [Tree.text, Tree.tokens, map_text_leaves leaves]
    exact partition.spelled

/-- A literal with a keyword, a comment and unrecognised characters, in which nothing is closed. -/
def brokenLiteral : String := "field Q.f \x7b a(b: [true, §§ 1\n # c"

/-- Nothing of a broken literal is lost, also under limits that are just enough. -/
theorem parseTree_lossless_broken :
    ∃ tree ds, parseTree brokenLiteral 0 ⟨some 14, some 3⟩ = .ok (tree, ds) ∧ ds ≠ [] ∧
      List.Forall₂ Token.BecomesLeaf (lex brokenLiteral) tree.tokens ∧
      Partition brokenLiteral (lex brokenLiteral) ∧ tree.text = brokenLiteral := by
  have within : (finalState brokenLiteral 0 ⟨some 14, some 3⟩).exceeded = none := by decide +kernel
  have reported : (finalState brokenLiteral 0 ⟨some 14, some 3⟩).diagnostics ≠ [] := by decide +kernel
  have parsed := parseTree_eq_ok.2 ⟨within, rfl, rfl⟩
  exact ⟨_, _, parsed, reported, parseTree_lossless parsed⟩

end IsoLiteral
