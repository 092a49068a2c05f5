import IsoLiteral.Proofs.Syntax.Lossless
import IsoLiteral.Proofs.Syntax.Nesting

/-!
# Limits are exact

A literal needs as much fuel as it has tokens that matter, since all of them are taken, each one once; and it
needs as much depth as its tree nests. Within limits that allow both the parser gives the tree and the
diagnostics that it gives without limits. If only one of them is too low, that one is reported.
-/

namespace IsoLiteral

open IsoLiteral.Parser

/-- How many tokens of a text matter. -/
def solidCount (text : String) : Nat := ((lex text).filter (!·.isTrivia)).length

/-- The fuel is enough for a number of tokens. -/
def ParseLimits.AllowsTokens (limits : ParseLimits) (count : Nat) : Prop := ∀ f ∈ limits.fuel, count ≤ f

/-- The depth is enough for a nesting. -/
def ParseLimits.AllowsNesting (limits : ParseLimits) (nesting : Nat) : Prop :=
  ∀ m ∈ limits.maxDepth, nesting ≤ m

namespace Parser

section

variable {text : String} {source : Nat} {limits : ParseLimits}

theorem fuelled_finalState (text : String) (source : Nat) (limits : ParseLimits) :
    Fuelled limits.fuel (solidCount text) (finalState text source limits) :=
  (fares_finalState text source limits).steps.fuelled rfl

/-- Unless a limit is exceeded, every token that matters has been paid for. -/
theorem allowsTokens_of_within (within : (finalState text source limits).exceeded = none) :
    limits.AllowsTokens (solidCount text) := by
  intro f member
  have paid := (fuelled_finalState text source limits).enough within f member
  have none : (finalState text source limits).ahead = [] := by
    rw [State.ahead, (nothing_left within).1]
    rfl
  rw [none] at paid
  exact paid

theorem not_allowsTokens_of_exhausted
    (exhausted : (finalState text source limits).exceeded = some .fuelExhausted) :
    ¬ limits.AllowsTokens (solidCount text) := by
  intro allows
  obtain ⟨f, member, short⟩ := (fuelled_finalState text source limits).short exhausted
  have enough := allows f member
  omega

/-- The limit on the depth is compared with the tree that is built without limits. -/
theorem nests_finalState (text : String) (source : Nat) (limits : ParseLimits) :
    Nests 0 (State.initial text source limits) (finalState text source limits)
      (finalState text source .unlimited).built := by
  obtain ⟨added, built, nests⟩ := (exact_literal ((lex text).length + 1)).nests
    (State.initial text source limits) rfl trivial
  have twin : (State.initial text source limits).unlimited = State.initial text source .unlimited := rfl
  have start : (State.initial text source limits).built = [] := rfl
  rw [twin, start, List.nil_append] at built
  rw [finalState_eq, finalState_eq, built]
  exact nests

/-- The tree of a literal without limits. -/
def unlimitedTree (text : String) (source : Nat) : Tree :=
  .node .root (finalState text source .unlimited).built

theorem nesting_unlimitedTree (text : String) (source : Nat) :
    (unlimitedTree text source).nesting = Tree.nestingOf (finalState text source .unlimited).built :=
  Tree.nesting_plain rfl _

theorem allowsNesting_of_within (within : (finalState text source limits).exceeded = none) :
    limits.AllowsNesting (unlimitedTree text source).nesting := by
  intro m member
  rw [nesting_unlimitedTree]
  have enough := (nests_finalState text source limits).within within m member
  have start : (State.initial text source limits).depth = 0 := rfl
  omega

theorem not_allowsNesting_of_exceeded
    (exceeded : (finalState text source limits).exceeded = some .recursionLimitExceeded) :
    ¬ limits.AllowsNesting (unlimitedTree text source).nesting := by
  intro allows
  obtain ⟨m, member, deeper⟩ := (nests_finalState text source limits).beyond exceeded
  have enough := allows m member
  have start : (State.initial text source limits).depth = 0 := rfl
  rw [nesting_unlimitedTree] at enough
  omega

/-- Without limits none is exceeded. -/
theorem exceeded_unlimited (text : String) (source : Nat) :
    (finalState text source .unlimited).exceeded = none := by
  cases exceeded : (finalState text source .unlimited).exceeded with
  | none => rfl
  | some limit =>
    cases limit with
    | fuelExhausted => exact absurd nofun (not_allowsTokens_of_exhausted exceeded)
    | recursionLimitExceeded => exact absurd nofun (not_allowsNesting_of_exceeded exceeded)

end

end Parser

theorem parseTree_unlimited (text : String) (source : Nat) :
    parseTree text source .unlimited =
      .ok (unlimitedTree text source, (finalState text source .unlimited).diagnostics) :=
  parseTree_eq_ok.2 ⟨exceeded_unlimited text source, rfl, rfl⟩

/-- What limits do to a literal: nothing, or one of them is too low and is the one reported. -/
theorem parseTree_cases (text : String) (source : Nat) (limits : ParseLimits) :
    (parseTree text source limits = parseTree text source .unlimited ∧
        limits.AllowsTokens (solidCount text) ∧
        limits.AllowsNesting (unlimitedTree text source).nesting) ∨
      (parseTree text source limits = .error .fuelExhausted ∧ ¬ limits.AllowsTokens (solidCount text)) ∨
      (parseTree text source limits = .error .recursionLimitExceeded ∧
        ¬ limits.AllowsNesting (unlimitedTree text source).nesting) := by
  cases exceeded : (finalState text source limits).exceeded with
  | none =>
    refine .inl ⟨?_, allowsTokens_of_within exceeded, allowsNesting_of_within exceeded⟩
    rw [parseTree_unlimited, parseTree_eq_ok, unlimitedTree, finalState_unlimited exceeded,
      State.unlimited_built, State.unlimited_diagnostics]
    exact ⟨exceeded, rfl, rfl⟩
  | some limit =>
    cases limit with
    | fuelExhausted =>
      exact .inr (.inl ⟨parseTree_eq_error.2 exceeded, not_allowsTokens_of_exhausted exceeded⟩)
    | recursionLimitExceeded =>
      exact .inr (.inr ⟨parseTree_eq_error.2 exceeded, not_allowsNesting_of_exceeded exceeded⟩)

/-- Limits are transparent and exact. Without limits every text has a tree. Under limits it has one if and only
if the fuel allows for its tokens that matter and the depth for the nesting of that tree, and then tree and
diagnostics are those without limits. With only the fuel too low it is the fuel that is reported as
exhausted, and with only the depth too low it is the depth that is reported as exceeded. -/
theorem parseTree_limits_exact (text : String) (source : Nat) (limits : ParseLimits) :
    ∃ tree ds, parseTree text source .unlimited = .ok (tree, ds) ∧
      ((∃ result, parseTree text source limits = .ok result) ↔
        limits.AllowsTokens (solidCount text) ∧ limits.AllowsNesting tree.nesting) ∧
      (∀ result, parseTree text source limits = .ok result → result = (tree, ds)) ∧
      (¬ limits.AllowsTokens (solidCount text) → limits.AllowsNesting tree.nesting →
        parseTree text source limits = .error .fuelExhausted) ∧
      (limits.AllowsTokens (solidCount text) → ¬ limits.AllowsNesting tree.nesting →
        parseTree text source limits = .error .recursionLimitExceeded) := by
  refine ⟨_, _, parseTree_unlimited text source, ?_⟩
  rcases parseTree_cases text source limits with ⟨run, tokens, nesting⟩ | ⟨run, tokens⟩ | ⟨run, nesting⟩
  · rw [run, parseTree_unlimited]
    refine ⟨⟨fun _ => ⟨tokens, nesting⟩, fun _ => ⟨_, rfl⟩⟩, fun result same => ?_, ?_, ?_⟩
    · exact (Except.ok.inj same).symm
    · exact fun short => absurd tokens short
    · exact fun _ low => absurd nesting low
  · rw [run]
    refine ⟨⟨fun ⟨_, same⟩ => (nomatch same), fun allows => absurd allows.1 tokens⟩, fun _ same => ?_, ?_, ?_⟩
    · cases same
    · exact fun _ _ => rfl
    · exact fun allows => absurd allows tokens
  · rw [run]
    refine ⟨⟨fun ⟨_, same⟩ => (nomatch same), fun allows => absurd allows.2 nesting⟩, fun _ same => ?_, ?_, ?_⟩
    · cases same
    · exact fun _ allows => absurd allows nesting
    · exact fun _ _ => rfl

end IsoLiteral
