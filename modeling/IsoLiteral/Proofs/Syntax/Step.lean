import IsoLiteral.Proofs.Syntax.Limits
import Mathlib.Logic.Relation

/-!
# The steps of a parser

A production that goes wrong nowhere does only a few things to the parser's state: it passes over trivia,
looks ahead while it may, starts and finishes nodes, takes tokens, reports, and changes the depth. Each of
these is a step, under the condition that it is in order. Whatever every step keeps is kept by every run of
steps: no fault is recorded, the leaves of the tree with the tokens still left spell the same literal, the
first limit that is exceeded stays, and the fuel that is left tells how many tokens were taken.
-/

namespace IsoLiteral

/-- The word that a contextual keyword is spelled as. -/
def SyntaxKind.keyword? : SyntaxKind → Option String
  | .kwField => some "field"
  | .kwPointer => some "pointer"
  | .kwEntrypoint => some "entrypoint"
  | .kwTo => some "to"
  | .kwTrue => some "true"
  | .kwFalse => some "false"
  | .kwNull => some "null"
  | _ => none

/-- Whether a leaf stands for a token: it is that token, unless an identifier is taken for the contextual
keyword that it spells. -/
inductive Token.BecomesLeaf (t : Token) : Token → Prop
  | same : BecomesLeaf t t
  | keyword {kind : SyntaxKind} (word : t.kind = .identifier) (spelled : kind.keyword? = some t.text) :
    BecomesLeaf t { t with kind }

theorem Token.BecomesLeaf.trans {t u v : Token} (first : t.BecomesLeaf u) (second : u.BecomesLeaf v) :
    t.BecomesLeaf v := by
  cases first with
  | same => exact second
  | keyword word spelled =>
    cases second with
    | same => exact .keyword word spelled
    | keyword again =>
      -- a keyword is no identifier, so it is not taken for another one
      cases again
      cases spelled

theorem Token.BecomesLeaf.text {t leaf : Token} (h : t.BecomesLeaf leaf) : leaf.text = t.text := by
  cases h <;> rfl

theorem Tree.tokensOf_append (xs ys : List Tree) :
    Tree.tokensOf (xs ++ ys) = Tree.tokensOf xs ++ Tree.tokensOf ys := by
  induction xs with
  | nil => rw [List.nil_append, Tree.tokensOf, List.nil_append]
  | cons tree rest ih => rw [List.cons_append, Tree.tokensOf, Tree.tokensOf, ih, List.append_assoc]

theorem Tree.tokensOf_map_token (tokens : List Token) : Tree.tokensOf (tokens.map Tree.token) = tokens := by
  induction tokens with
  | nil => rw [List.map_nil, Tree.tokensOf]
  | cons t rest ih => rw [List.map_cons, Tree.tokensOf, Tree.tokens, ih, List.singleton_append]

theorem Tree.tokensOf_singleton (tree : Tree) : Tree.tokensOf [tree] = tree.tokens := by
  rw [Tree.tokensOf, Tree.tokensOf, List.append_nil]

namespace Parser

/-- The tokens left that matter. -/
def State.ahead (s : State) : List Token := s.rest.filter (!·.isTrivia)

/-- The state after the token `t`, with `rest` behind it, was taken as one of the given kind. -/
def State.taken (s : State) (t : Token) (rest : List Token) (kind : SyntaxKind) : State :=
  let paid := (flush (spendFuel s).2).2
  { paid with
    rest := rest
    built := paid.built ++ [.token { t with kind }]
    lastStop := t.stop
    patience := patienceLimit }

/-- One thing that the grammar does to the state when nothing is wrong. -/
inductive Step : State → State → Prop
  | settle (s : State) : Step s (settle s).2
  | look (s : State) (patient : s.patience ≠ 0) : Step s { s with patience := s.patience - 1 }
  | flush (s : State) : Step s (flush s).2
  | start (s : State) (kind : SyntaxKind) (place : Nat) (within : place ≤ s.built.length) :
    Step s { s with
      built := s.built.drop place
      enclosing := (kind, s.built.take place) :: s.enclosing }
  | finish (s : State) {kind : SyntaxKind} {before : List Tree} {outer : List (SyntaxKind × List Tree)}
    (started : s.enclosing = (kind, before) :: outer) :
    Step s { s with built := before ++ [.node kind s.built], enclosing := outer }
  | take (s : State) {t : Token} {rest : List Token} {kind : SyntaxKind} (here : s.rest = t :: rest)
    (solid : t.isTrivia = false) (leaf : t.BecomesLeaf { t with kind }) : Step s (s.taken t rest kind)
  | claim (s : State) (offset : Nat) : Step s { s with lastErrorAt := some offset }
  | report (s : State) (d : Diagnostic) : Step s (report d s).2
  | enter (s : State) (shallow : s.maxDepth.any (· ≤ s.depth) = false) :
    Step s { s with depth := s.depth + 1, patience := patienceLimit }
  | tooDeep (s : State) (deep : s.maxDepth.any (· ≤ s.depth) = true) :
    Step s (exceed .recursionLimitExceeded s).2
  | leave (s : State) : Step s (leave s).2

/-- Any number of steps. -/
abbrev Steps : State → State → Prop := Relation.ReflTransGen Step

/-- What every step keeps holds after any number of them. -/
theorem Steps.keeps {motive : State → Prop} {s s' : State} (steps : Steps s s') (start : motive s)
    (step : ∀ {u u'}, Step u u' → motive u → motive u') : motive s' := by
  induction steps with
  | refl => exact start
  | tail _ last ih => exact step last ih

/-! ## Paying for a token -/

theorem flush_spendFuel (s : State) : (flush (spendFuel s).2).2 =
    { s with
      fuel := s.fuel.map (· - 1)
      exceeded := if s.fuel = some 0 then s.exceeded.or (some .fuelExhausted) else s.exceeded
      built := s.built ++ s.pending.map Tree.token
      pending := [] } := by
  rw [spendFuel_eq]
  obtain ⟨_, _, _, _, _, _, _, _, _, fuel, _, _, _, _, _⟩ := s
  cases fuel with
  | none => rfl
  | some left => cases left <;> rfl

theorem fuel_taken (s : State) (t : Token) (rest : List Token) (kind : SyntaxKind) :
    (s.taken t rest kind).fuel = s.fuel.map (· - 1) := by
  rw [State.taken, flush_spendFuel]

theorem exceeded_taken (s : State) (t : Token) (rest : List Token) (kind : SyntaxKind) :
    (s.taken t rest kind).exceeded =
      if s.fuel = some 0 then s.exceeded.or (some .fuelExhausted) else s.exceeded := by
  rw [State.taken, flush_spendFuel]

/-! ## What steps keep -/

theorem Step.fault {s s' : State} (step : Step s s') : s'.fault = s.fault := by
  cases step <;> first | rfl | rw [State.taken, flush_spendFuel]

/-- No step records a fault. -/
theorem Steps.fault {s s' : State} (steps : Steps s s') : s'.fault = s.fault :=
  steps.keeps (motive := fun u => u.fault = s.fault) rfl fun step same => step.fault.trans same

theorem Step.exceeded {s s' : State} (step : Step s s') {limit : LimitError}
    (already : s.exceeded = some limit) : s'.exceeded = some limit := by
  cases step with
  | take here solid leaf =>
    rw [exceeded_taken, already]
    split <;> rfl
  | tooDeep deep => exact exceed_stays already _
  | _ => exact already

/-- The first limit that is exceeded stays. -/
theorem Steps.exceeded {s s' : State} (steps : Steps s s') {limit : LimitError}
    (already : s.exceeded = some limit) : s'.exceeded = some limit :=
  steps.keeps (motive := fun u => u.exceeded = some limit) already fun step => step.exceeded

theorem Steps.within {s s' : State} (steps : Steps s s') (within : s'.exceeded = none) :
    s.exceeded = none := by
  cases already : s.exceeded with
  | none => rfl
  | some limit =>
    rw [steps.exceeded already] at within
    cases within

theorem Step.patience {s s' : State} (step : Step s s') (limit : s.patience ≤ patienceLimit) :
    s'.patience ≤ patienceLimit := by
  cases step with
  | look patient => exact (Nat.sub_le _ _).trans limit
  | take here solid leaf => exact le_rfl
  | enter shallow => exact le_rfl
  | leave => exact le_rfl
  | _ => exact limit

theorem Steps.patience {s s' : State} (steps : Steps s s') (limit : s.patience ≤ patienceLimit) :
    s'.patience ≤ patienceLimit :=
  steps.keeps (motive := fun u => u.patience ≤ patienceLimit) limit Step.patience

theorem ahead_settle (s : State) : (settle s).2.ahead = s.ahead := filter_dropWhile_trivia s.rest

theorem ahead_eq_cons {s : State} {t : Token} {rest : List Token} (here : s.rest = t :: rest)
    (solid : t.isTrivia = false) (kind : SyntaxKind) : s.ahead = t :: (s.taken t rest kind).ahead := by
  rw [State.ahead, here, List.filter_cons_of_pos (by simp [solid])]
  rfl

theorem Step.ahead {s s' : State} (step : Step s s') : s'.ahead <:+ s.ahead := by
  cases step with
  | settle => rw [ahead_settle]
  | @take t rest kind here solid leaf =>
    rw [ahead_eq_cons here solid kind]
    exact List.suffix_cons _ _
  | _ => exact List.suffix_rfl

/-- No token is put back. -/
theorem Steps.ahead {s s' : State} (steps : Steps s s') : s'.ahead <:+ s.ahead :=
  steps.keeps (motive := fun u => u.ahead <:+ s.ahead) List.suffix_rfl fun step so => step.ahead.trans so

/-! ## Nothing is lost -/

/-- The leaves of the trees that stand before the open nodes. -/
def leavesBefore : List (SyntaxKind × List Tree) → List Token
  | [] => []
  | (_, before) :: outer => leavesBefore outer ++ Tree.tokensOf before

/-- All tokens of the literal, in order: the leaves so far, what is held back, and what is left. -/
def State.leaves (s : State) : List Token :=
  leavesBefore s.enclosing ++ (Tree.tokensOf s.built ++ (s.pending ++ s.rest))

theorem leaves_taken (s : State) (t : Token) (rest : List Token) (kind : SyntaxKind) :
    (s.taken t rest kind).leaves =
      leavesBefore s.enclosing ++ (Tree.tokensOf s.built ++ (s.pending ++ { t with kind } :: rest)) := by
  rw [State.leaves, State.taken, flush_spendFuel]
  simp only [Tree.tokensOf_append, Tree.tokensOf_map_token, Tree.tokensOf_singleton, Tree.tokens,
    List.nil_append, List.append_assoc, List.singleton_append]

theorem forall₂_becomesLeaf_refl (tokens : List Token) : List.Forall₂ Token.BecomesLeaf tokens tokens :=
  List.forall₂_same.2 fun _ _ => .same

theorem forall₂_becomesLeaf_trans {xs ys zs : List Token} (first : List.Forall₂ Token.BecomesLeaf xs ys)
    (second : List.Forall₂ Token.BecomesLeaf ys zs) : List.Forall₂ Token.BecomesLeaf xs zs := by
  induction first generalizing zs with
  | nil => exact second
  | cons leaf _ ih =>
    cases second with
    | cons leaf' second => exact .cons (leaf.trans leaf') (ih second)

theorem Step.leaves {s s' : State} (step : Step s s') :
    List.Forall₂ Token.BecomesLeaf s.leaves s'.leaves := by
  have unchanged {u : State} (same : u.leaves = s.leaves) :
      List.Forall₂ Token.BecomesLeaf s.leaves u.leaves := same ▸ forall₂_becomesLeaf_refl _
  cases step with
  | settle =>
    apply unchanged
    show leavesBefore s.enclosing ++ (Tree.tokensOf s.built ++
      (s.pending ++ s.rest.takeWhile Token.isTrivia ++ s.rest.dropWhile Token.isTrivia)) = _
    rw [List.append_assoc, List.takeWhile_append_dropWhile]
    rfl
  | flush =>
    apply unchanged
    show leavesBefore s.enclosing ++ (Tree.tokensOf (s.built ++ s.pending.map Tree.token) ++ s.rest) = _
    rw [Tree.tokensOf_append, Tree.tokensOf_map_token, List.append_assoc]
    rfl
  | start kind place within =>
    apply unchanged
    show leavesBefore s.enclosing ++ Tree.tokensOf (s.built.take place) ++
      (Tree.tokensOf (s.built.drop place) ++ (s.pending ++ s.rest)) = _
    rw [List.append_assoc, ← List.append_assoc (Tree.tokensOf _) (Tree.tokensOf _), ← Tree.tokensOf_append,
      List.take_append_drop]
    rfl
  | @finish kind before outer started =>
    apply unchanged
    show leavesBefore outer ++ (Tree.tokensOf (before ++ [.node kind s.built]) ++ (s.pending ++ s.rest)) = _
    rw [Tree.tokensOf_append, Tree.tokensOf_singleton, Tree.tokens, State.leaves, started, leavesBefore]
    simp only [List.append_assoc]
  | @take t rest kind here solid leaf =>
    rw [leaves_taken, State.leaves, here]
    refine List.rel_append (forall₂_becomesLeaf_refl _) (List.rel_append (forall₂_becomesLeaf_refl _)
      (List.rel_append (forall₂_becomesLeaf_refl _) ?_))
    exact .cons leaf (forall₂_becomesLeaf_refl rest)
  | _ => exact unchanged rfl

/-- Every token stays where it is in the literal. -/
theorem Steps.leaves {s s' : State} (steps : Steps s s') :
    List.Forall₂ Token.BecomesLeaf s.leaves s'.leaves :=
  steps.keeps (motive := fun u => List.Forall₂ Token.BecomesLeaf s.leaves u.leaves)
    (forall₂_becomesLeaf_refl _) fun step so => forall₂_becomesLeaf_trans so step.leaves

/-! ## Fuel -/

/-- What the fuel that is left tells, when a run started with `fuel` and `total` tokens that matter. -/
structure Fuelled (fuel : Option Nat) (total : Nat) (s : State) : Prop where
  fewer : s.ahead.length ≤ total
  left : s.fuel = fuel.map (· - (total - s.ahead.length))
  enough : s.exceeded = none → ∀ f ∈ fuel, total - s.ahead.length ≤ f
  short : s.exceeded = some .fuelExhausted → ∃ f ∈ fuel, f < total - s.ahead.length

theorem Fuelled.start (s : State) (within : s.exceeded = none) : Fuelled s.fuel s.ahead.length s where
  fewer := le_rfl
  left := by
    rw [Nat.sub_self]
    cases s.fuel <;> rfl
  enough _ f _ := by
    rw [Nat.sub_self]
    exact Nat.zero_le f
  short exhausted := by
    rw [within] at exhausted
    cases exhausted

/-- A step that takes no token and spends no fuel. -/
theorem Fuelled.idle {fuel : Option Nat} {total : Nat} {s s' : State} (h : Fuelled fuel total s)
    (ahead : s'.ahead = s.ahead) (same : s'.fuel = s.fuel)
    (exceeded : s'.exceeded = s.exceeded ∨ s'.exceeded = s.exceeded.or (some .recursionLimitExceeded)) :
    Fuelled fuel total s' where
  fewer := ahead ▸ h.fewer
  left := by rw [same, ahead, h.left]
  enough within := by
    rw [ahead]
    apply h.enough
    rcases exceeded with exceeded | exceeded
    · rw [← exceeded, within]
    · cases already : s.exceeded <;> simp_all
  short exhausted := by
    rw [ahead]
    apply h.short
    rcases exceeded with exceeded | exceeded
    · rw [← exceeded, exhausted]
    · cases already : s.exceeded <;> simp_all

theorem Fuelled.take {fuel : Option Nat} {total : Nat} {s : State} (h : Fuelled fuel total s) {t : Token}
    {rest : List Token} (here : s.rest = t :: rest) (solid : t.isTrivia = false) (kind : SyntaxKind) :
    Fuelled fuel total (s.taken t rest kind) := by
  have ahead := congrArg List.length (ahead_eq_cons here solid kind)
  rw [List.length_cons] at ahead
  have fewer := h.fewer
  have spent : total - (s.taken t rest kind).ahead.length = total - s.ahead.length + 1 := by omega
  refine ⟨by omega, ?_, ?_, ?_⟩
  · rw [fuel_taken, h.left, spent, Option.map_map]
    rfl
  · intro within f member
    rw [spent]
    cases member
    have before := h.left
    rw [exceeded_taken] at within
    split at within
    · cases already : s.exceeded <;> simp_all
    · rename_i some
      have enough := h.enough within f rfl
      rw [before, Option.map_some] at some
      have : f - (total - s.ahead.length) ≠ 0 := fun zero => some (congrArg _ zero)
      omega
  · intro exhausted
    rw [spent]
    rw [exceeded_taken] at exhausted
    cases already : s.exceeded with
    | some limit =>
      have : s.exceeded = some .fuelExhausted := by
        rw [already] at exhausted ⊢
        split at exhausted <;> exact exhausted
      obtain ⟨f, member, short⟩ := h.short this
      exact ⟨f, member, by omega⟩
    | none =>
      split at exhausted
      · rename_i empty
        rw [h.left] at empty
        obtain ⟨f, member, zero⟩ := Option.map_eq_some_iff.1 empty
        exact ⟨f, member, by omega⟩
      · rw [already] at exhausted
        cases exhausted

theorem Step.fuelled {s s' : State} (step : Step s s') {fuel : Option Nat} {total : Nat}
    (h : Fuelled fuel total s) : Fuelled fuel total s' := by
  cases step with
  | settle => exact h.idle (ahead_settle s) rfl (.inl rfl)
  | take here solid leaf => exact h.take here solid _
  | tooDeep deep => exact h.idle rfl rfl (.inr rfl)
  | _ => exact h.idle rfl rfl (.inl rfl)

/-- The fuel that is left is what the taken tokens leave over. -/
theorem Steps.fuelled {s s' : State} (steps : Steps s s') (within : s.exceeded = none) :
    Fuelled s.fuel s.ahead.length s' :=
  steps.keeps (motive := Fuelled s.fuel s.ahead.length) (.start s within) fun step => step.fuelled

end Parser

end IsoLiteral
