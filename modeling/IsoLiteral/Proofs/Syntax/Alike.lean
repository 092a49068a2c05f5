import IsoLiteral.Proofs.Diagnostic.Plain
import IsoLiteral.Proofs.Syntax.Bare
import IsoLiteral.Proofs.Syntax.Faultless

/-!
# Parsers that do not look at places

Two texts whose tokens are the same but for trivia and for where they stand are parsed alike. The parser looks at
places in one respect only: it does not report twice at one position. A position is that of a token that
matters, these come one after the other, and the last one that was charged is never ahead; so whether the
present position is charged is the same in both runs. `Alike` says of two productions that they take states
which are the same in this sense to such states, as long as no fault is recorded. The bounds of loops and of
nesting depend on the number of tokens and may differ: a bound that is not reached makes no difference.
-/

namespace IsoLiteral

namespace Parser

open IsoLiteral.Tree (bareOf bareOf_append)

/-! ## States -/

namespace State

/-- Where the next token that matters starts; after the last one it is the end of the literal. -/
def position (s : State) : Nat := (s.ahead.head?.map Token.start).getD s.length

/-- The tokens ahead that matter stand one after the other, the last charged position is not ahead, and only
trivia are held back. -/
structure Placed (s : State) : Prop where
  increasing : (s.ahead.map Token.start ++ [s.length]).Pairwise (· < ·)
  charged : ∀ offset ∈ s.lastErrorAt, offset ≤ s.position
  pending : ∀ t ∈ s.pending, t.isTrivia = true

/-- What is left of a state without trivia, places and faults. -/
def bare (s : State) : State :=
  { s with
    length := 0
    rest := s.ahead.map Token.bare
    pending := []
    built := bareOf s.built
    enclosing := s.enclosing.map fun frame => (frame.1, bareOf frame.2)
    lastStop := 0
    diagnostics := s.diagnostics.plain
    lastErrorAt := none
    fault := none }

end State

/-- States that are the same but for trivia and places, where the present position is charged in both or in
neither. -/
structure Same (s s' : State) : Prop where
  placed : s.Placed
  placed' : s'.Placed
  charged : s.lastErrorAt = some s.position ↔ s'.lastErrorAt = some s'.position
  bare : s'.bare = s.bare

namespace Same

variable {s s' : State}

theorem symm (h : Same s s') : Same s' s := ⟨h.placed', h.placed, h.charged.symm, h.bare.symm⟩

theorem ahead (h : Same s s') : s'.ahead.map Token.bare = s.ahead.map Token.bare := congrArg State.rest h.bare

theorem built (h : Same s s') : bareOf s'.built = bareOf s.built := congrArg State.built h.bare

theorem diagnostics (h : Same s s') : s'.diagnostics.plain = s.diagnostics.plain :=
  congrArg State.diagnostics h.bare

theorem exceeded (h : Same s s') : s'.exceeded = s.exceeded := by
  rw [show s'.exceeded = s'.bare.exceeded from rfl, h.bare, State.bare]

end Same

theorem headKind_bare (tokens : List Token) : headKind (tokens.map Token.bare) = headKind tokens := by
  cases tokens <;> rfl

/-! ## Productions -/

/-- A fault that has been recorded stays. -/
def Sticky {α : Type} (p : Parser α) : Prop := ∀ s, (p s).2.fault = none → s.fault = none

theorem Sticky.of_eq {α : Type} {p : Parser α} (same : ∀ s, (p s).2.fault = s.fault) : Sticky p :=
  fun s none => (same s).symm.trans none

theorem Sticky.bind {α β : Type} {p : Parser α} {q : α → Parser β} (first : Sticky p) (rest : ∀ a, Sticky (q a)) :
    Sticky (p >>= q) := fun _ none => first _ (rest _ _ none)

theorem Sticky.ite {α : Type} {p p' : Parser α} {c : Prop} [Decidable c] (yes : Sticky p) (no : Sticky p') :
    Sticky (if c then p else p') := by
  split
  · exact yes
  · exact no

theorem fault_blame (fault : GrammarFault) (s : State) : (blame fault s).2.fault ≠ none := by
  show s.fault.or (some fault) ≠ none
  cases s.fault <;> simp

theorem sticky_blame (fault : GrammarFault) : Sticky (blame fault) :=
  fun s none => absurd none (fault_blame fault s)

/-- Two productions that return the same and go on to states that are the same, unless one records a fault. -/
structure Alike {α : Type} (p p' : Parser α) : Prop where
  sticky : Sticky p
  sticky' : Sticky p'
  alike : ∀ s s', Same s s' → (p s).2.fault = none → (p' s').2.fault = none →
    (p' s').1 = (p s).1 ∧ Same (p s).2 (p' s').2

section Combinators

variable {α β : Type} {p p' q q' : Parser α}

theorem Alike.pure (a : α) : Alike (Pure.pure a) (Pure.pure a) :=
  ⟨.of_eq fun _ => rfl, .of_eq fun _ => rfl, fun _ _ same _ _ => ⟨rfl, same⟩⟩

theorem Alike.bind (first : Alike p p') {r r' : α → Parser β} (rest : ∀ a, Alike (r a) (r' a)) :
    Alike (p >>= r) (p' >>= r') where
  sticky := first.sticky.bind fun a => (rest a).sticky
  sticky' := first.sticky'.bind fun a => (rest a).sticky'
  alike s s' same fine fine' := by
    obtain ⟨value, next⟩ := first.alike s s' same ((rest _).sticky _ fine) ((rest _).sticky' _ fine')
    have fine' : (r' (p' s').1 (p' s').2).2.fault = none := fine'
    rw [value] at fine'
    show (r' (p' s').1 (p' s').2).1 = _ ∧ Same _ (r' (p' s').1 (p' s').2).2
    rw [value]
    exact (rest _).alike _ _ next fine fine'

theorem Alike.symm (h : Alike p p') : Alike p' p where
  sticky := h.sticky'
  sticky' := h.sticky
  alike s s' same fine fine' := by
    obtain ⟨value, next⟩ := h.alike s' s same.symm fine' fine
    exact ⟨value.symm, next.symm⟩

theorem Alike.ite {c : Prop} [Decidable c] (yes : Alike p p') (no : Alike q q') :
    Alike (if c then p else q) (if c then p' else q') := by
  split
  · exact yes
  · exact no

/-- A piece that is done under a condition, before the rest. -/
theorem Alike.when {test test' : Parser Bool} {p p' : Parser Unit} {q q' : Unit → Parser Unit}
    (look : Alike test test') (h : Alike p p') (rest : ∀ u, Alike (q u) (q' u)) :
    Alike (do if ← test then (do q (← p)) else q ()) (do if ← test' then (do q' (← p')) else q' ()) :=
  look.bind fun _ => .ite (h.bind rest) (rest ())

/-- A production that records a fault is like any other. -/
theorem Alike.blame (fault : GrammarFault) {q : Parser Unit} (sticky' : Sticky q) : Alike (Parser.blame fault) q :=
  ⟨sticky_blame fault, sticky', fun s _ _ fine _ => absurd fine (fault_blame fault s)⟩

end Combinators

/-! ## Looking and building -/

/-- A change of state that leaves alone where the tokens ahead are and what is charged. -/
structure Still (before after : State) : Prop where
  ahead : after.ahead = before.ahead
  length : after.length = before.length
  lastErrorAt : after.lastErrorAt = before.lastErrorAt
  pending : ∀ t ∈ after.pending, t ∈ before.pending ∨ t.isTrivia = true

theorem Still.position {s u : State} (h : Still s u) : u.position = s.position := by
  rw [State.position, h.ahead, h.length]
  rfl

theorem Still.placed {s u : State} (h : Still s u) (placed : s.Placed) : u.Placed where
  increasing := by rw [h.ahead, h.length]; exact placed.increasing
  charged := by rw [h.lastErrorAt, h.position]; exact placed.charged
  pending t member := (h.pending t member).elim (placed.pending t) id

theorem Same.still {s s' u u' : State} (same : Same s s') (first : Still s u) (second : Still s' u')
    (bare : u'.bare = u.bare) : Same u u' where
  placed := first.placed same.placed
  placed' := second.placed same.placed'
  charged := by
    rw [first.lastErrorAt, first.position, second.lastErrorAt, second.position]
    exact same.charged
  bare := bare

/-- A production that leaves places alone, and whose result is told by what is left of the state. -/
theorem Alike.of_bare {α : Type} {p : Parser α} (result : State → α × State) (sticky : Sticky p)
    (still : ∀ s, Still s (p s).2)
    (run : ∀ s, s.Placed → (p s).2.fault = none → ((p s).1, (p s).2.bare) = result s.bare) : Alike p p where
  sticky := sticky
  sticky' := sticky
  alike s s' same fine fine' := by
    have ran' := run s' same.placed' fine'
    rw [same.bare, ← run s same.placed fine] at ran'
    obtain ⟨value, bare⟩ := Prod.mk.inj ran'
    exact ⟨value, same.still (still s) (still s') bare⟩

theorem bare_settle (s : State) : (settle s).2.bare = s.bare := by
  unfold State.bare
  rw [ahead_settle]
  rfl

theorem still_settle (s : State) : Still s (settle s).2 where
  ahead := ahead_settle s
  length := rfl
  lastErrorAt := rfl
  pending _ member := (List.mem_append.1 member).imp_right List.mem_takeWhile_imp

theorem Same.settle {s s' : State} (same : Same s s') : Same (settle s).2 (settle s').2 :=
  same.still (still_settle s) (still_settle s') (by rw [bare_settle, bare_settle, same.bare])

theorem alike_settle : Alike settle settle :=
  ⟨.of_eq fun _ => rfl, .of_eq fun _ => rfl, fun _ _ same _ _ => ⟨rfl, same.settle⟩⟩

theorem bare_flush {s : State} (placed : s.Placed) : (flush s).2.bare = s.bare := by
  unfold State.bare
  have built : bareOf (flush s).2.built = bareOf s.built := by
    show bareOf (s.built ++ s.pending.map Tree.token) = _
    rw [bareOf_append, Tree.bareOf_trivia placed.pending, List.append_nil]
  rw [built]
  rfl

theorem still_flush (s : State) : Still s (flush s).2 := ⟨rfl, rfl, rfl, fun _ none => absurd none List.not_mem_nil⟩

theorem Same.flush {s s' : State} (same : Same s s') : Same (flush s).2 (flush s').2 :=
  same.still (still_flush s) (still_flush s') (by rw [bare_flush same.placed, bare_flush same.placed', same.bare])

theorem alike_flush : Alike flush flush :=
  ⟨.of_eq fun _ => rfl, .of_eq fun _ => rfl, fun _ _ same _ _ => ⟨rfl, same.flush⟩⟩

theorem sticky_lookAhead : Sticky lookAhead := by
  intro s fine
  rw [lookAhead_eq] at fine
  split at fine
  · exact sticky_blame _ s fine
  · exact fine

theorem alike_lookAhead : Alike lookAhead lookAhead := by
  refine .of_bare (fun b => ((), { b with patience := b.patience - 1 })) sticky_lookAhead
    (fun s => ?_) fun s _ fine => ?_
  · rw [lookAhead_eq]
    split <;> exact ⟨rfl, rfl, rfl, fun _ => .inl⟩
  · rw [lookAhead_eq] at fine ⊢
    split at fine
    · exact absurd fine (fault_blame _ s)
    · rename_i patient
      rw [if_neg patient]
      rfl

/-- A production that does what another one does, and returns something that the tokens ahead tell. -/
theorem Alike.telling {α : Type} {p : Parser α} {q : Parser Unit} (h : Alike q q) (value : State → α)
    (state : ∀ s, (p s).2 = (q s).2) (told : ∀ s, (p s).1 = value s.bare) : Alike p p where
  sticky s := by rw [state]; exact h.sticky s
  sticky' s := by rw [state]; exact h.sticky s
  alike s s' same fine fine' := by
    rw [state] at fine fine'
    rw [state, state, told, told, same.bare]
    exact ⟨rfl, (h.alike s s' same fine fine').2⟩

theorem alike_peek : Alike (do settle; lookAhead) (do settle; lookAhead) :=
  alike_settle.bind fun _ => alike_lookAhead

theorem head?_bare (s : State) : s.bare.rest.head? = s.ahead.head?.map Token.bare := List.head?_map

theorem alike_current : Alike current current := by
  refine alike_peek.telling (fun b => Parser.headKind b.rest) (fun _ => rfl) fun s => ?_
  rw [← looks_current.tells s]
  exact (headKind_bare s.ahead).symm

theorem alike_currentText : Alike currentText currentText := by
  refine alike_settle.telling (fun b => (b.rest.head?.map Token.text).getD "") (fun _ => rfl) fun s => ?_
  rw [← looks_currentText.tells s, head?_bare, Option.map_map]
  rfl

theorem alike_nextIs (kind : SyntaxKind) : Alike (nextIs kind) (nextIs kind) := by
  refine alike_peek.telling (fun b => decide (b.rest[1]?.map Token.kind = some kind)) (fun _ => rfl) fun s => ?_
  have second : s.bare.rest[1]?.map Token.kind = s.ahead[1]?.map Token.kind := by
    rw [State.bare, List.getElem?_map, Option.map_map]
    rfl
  rw [second, Bool.eq_iff_iff, looks_nextIs kind |>.tells s, decide_eq_true_iff]

theorem alike_shouldStop : Alike shouldStop shouldStop := by
  refine alike_settle.telling (fun b => b.rest.isEmpty || b.exceeded.isSome) (fun _ => rfl) fun s => ?_
  rw [shouldStop_eq, State.bare, List.isEmpty_map]

theorem alike_currentlyIs (kind : SyntaxKind) : Alike (currentlyIs kind) (currentlyIs kind) :=
  alike_current.bind fun _ => .pure _

theorem alike_currentlyIn (kinds : TokenSet) : Alike (currentlyIn kinds) (currentlyIn kinds) :=
  alike_current.bind fun _ => .pure _

theorem alike_atKeyword (keyword : String) : Alike (atKeyword keyword) (atKeyword keyword) :=
  (alike_currentlyIs .identifier).bind fun _ => .ite (alike_currentText.bind fun _ => .pure _) (.pure _)

theorem alike_startNode (kind : SyntaxKind) : Alike (startNode kind) (startNode kind) := by
  refine .of_bare (fun b => ((), { b with built := [], enclosing := (kind, b.built) :: b.enclosing }))
    (.of_eq fun _ => rfl) (fun s => ⟨rfl, rfl, rfl, fun _ none => absurd none List.not_mem_nil⟩) fun s placed _ => ?_
  rw [← bare_flush placed]
  rfl

theorem finishNode_of_nil {s : State} (none : s.enclosing = []) : finishNode s = Parser.blame .unopened s := by
  simp only [finishNode, bind, StateT.bind, get, getThe, MonadStateOf.get, StateT.get, pure, none]

theorem alike_finishNode : Alike finishNode finishNode := by
  refine .of_bare (fun b => ((), (b.enclosing.head?.map fun inner =>
      { b with built := inner.2 ++ [.node inner.1 b.built], enclosing := b.enclosing.tail }).getD b))
    (fun s fine => ?_) (fun s => ?_) fun s _ fine => ?_ <;> cases around : s.enclosing
  case refine_1.nil => exact sticky_blame _ s (finishNode_of_nil around ▸ fine)
  case refine_1.cons => rwa [finishNode_eq around] at fine
  case refine_2.nil =>
    rw [finishNode_of_nil around]
    exact ⟨rfl, rfl, rfl, fun _ => .inl⟩
  case refine_2.cons =>
    rw [finishNode_eq around]
    exact ⟨rfl, rfl, rfl, fun _ => .inl⟩
  case refine_3.nil => exact absurd (finishNode_of_nil around ▸ fine) (fault_blame _ s)
  case refine_3.cons =>
    rw [finishNode_eq around]
    simp only [State.bare, around, List.map_cons, List.head?_cons, Option.map_some, Option.getD_some,
      bareOf_append, Tree.bareOf_node]
    rfl

theorem Alike.node {body body' : Parser Unit} (inside : Alike body body') (kind : SyntaxKind) :
    Alike (node kind body) (node kind body') :=
  (alike_startNode kind).bind fun _ => inside.bind fun _ => alike_finishNode

/-! ## Taking tokens -/

/-- The token that is taken is passed: the next position was not charged before. -/
theorem State.Placed.taken {s : State} (placed : s.Placed) {t : Token} {rest : List Token} (kind : SyntaxKind)
    (here : s.rest = t :: rest) (solid : t.isTrivia = false) :
    (s.taken t rest kind).Placed ∧ (s.taken t rest kind).lastErrorAt ≠ some (s.taken t rest kind).position := by
  have ahead := ahead_eq_cons here solid kind
  have length : (s.taken t rest kind).length = s.length := by rw [State.taken, flush_spendFuel]
  have charged : (s.taken t rest kind).lastErrorAt = s.lastErrorAt := by rw [State.taken, flush_spendFuel]
  have start : s.position = t.start := by rw [State.position, ahead]; rfl
  have increasing := placed.increasing
  rw [ahead, List.map_cons, List.cons_append, List.pairwise_cons, ← length] at increasing
  have later : t.start < (s.taken t rest kind).position := by
    refine increasing.1 _ ?_
    rw [State.position]
    cases (s.taken t rest kind).ahead <;> simp
  have before : ∀ offset ∈ (s.taken t rest kind).lastErrorAt, offset < (s.taken t rest kind).position := by
    intro offset last
    rw [charged] at last
    exact (start ▸ placed.charged offset last).trans_lt later
  refine ⟨⟨increasing.2, fun offset last => (before offset last).le, ?_⟩, fun here => lt_irrefl _ (before _ here)⟩
  rw [State.taken, flush_spendFuel]
  exact fun _ none => absurd none List.not_mem_nil

theorem bare_taken {s : State} (placed : s.Placed) {t : Token} {rest : List Token} (kind : SyntaxKind)
    (here : s.rest = t :: rest) (solid : t.isTrivia = false) :
    (s.taken t rest kind).bare = { s.bare with
      rest := s.bare.rest.tail
      built := s.bare.built ++ bareOf [.token { t with kind }]
      fuel := s.bare.fuel.map (· - 1)
      exceeded := if s.bare.fuel = some 0 then s.bare.exceeded.or (some .fuelExhausted) else s.bare.exceeded
      patience := patienceLimit } := by
  have ahead := ahead_eq_cons here solid kind
  have built : bareOf (s.taken t rest kind).built = bareOf s.built ++ bareOf [.token { t with kind }] := by
    rw [State.taken, flush_spendFuel]
    simp only [bareOf_append, Tree.bareOf_trivia placed.pending, List.append_nil]
  unfold State.bare
  rw [built, ahead, List.map_cons, List.tail_cons, fuel_taken, exceeded_taken]
  simp only [State.taken, flush_spendFuel]

theorem fault_bumpAs (kind : SyntaxKind) (s : State) : (bumpAs kind s).2.fault = s.fault := by
  cases ahead : s.ahead with
  | nil => rw [bumpAs_of_nil ahead]; rfl
  | cons t rest =>
    obtain ⟨left, -, -, run⟩ := bumpAs_of_cons ahead kind
    rw [run, State.taken, flush_spendFuel]
    rfl

theorem Same.ahead_eq_nil {s s' : State} (same : Same s s') (empty : s.ahead = []) : s'.ahead = [] := by
  have ahead := same.ahead
  rw [empty] at ahead
  exact List.map_eq_nil_iff.1 ahead

theorem alike_bumpAs (kind : SyntaxKind) : Alike (bumpAs kind) (bumpAs kind) := by
  refine ⟨.of_eq (fault_bumpAs kind), .of_eq (fault_bumpAs kind), fun s s' same _ _ => ⟨rfl, ?_⟩⟩
  cases ahead : s.ahead with
  | nil =>
    rw [bumpAs_of_nil ahead, bumpAs_of_nil (same.ahead_eq_nil ahead)]
    exact same.settle
  | cons t rest =>
    have matching := same.ahead
    rw [ahead, List.map_cons] at matching
    obtain ⟨t', rest', ahead', leaf, -⟩ := List.map_eq_cons_iff.1 matching
    obtain ⟨left, here, solid, run⟩ := bumpAs_of_cons ahead kind
    obtain ⟨left', here', solid', run'⟩ := bumpAs_of_cons ahead' kind
    have placed := (still_settle s).placed same.placed
    have placed' := (still_settle s').placed same.placed'
    obtain ⟨next, free⟩ := placed.taken kind here solid
    obtain ⟨next', free'⟩ := placed'.taken kind here' solid'
    have leaves : bareOf [.token { t' with kind }] = bareOf [.token { t with kind }] :=
      Tree.bareOf_token_eq (congrArg (fun token : Token => { token with kind }) leaf)
    rw [run, run']
    refine ⟨next, next', iff_of_false free free', ?_⟩
    rw [bare_taken placed kind here solid, bare_taken placed' kind here' solid', bare_settle, bare_settle,
      same.bare, leaves]

theorem alike_bump : Alike bump bump := alike_current.bind fun _ => alike_bumpAs _

theorem alike_eat (kind : SyntaxKind) : Alike (eat kind) (eat kind) :=
  (alike_currentlyIs kind).bind fun _ => .ite (alike_bump.bind fun _ => .pure _) (.pure _)

theorem alike_eatKeyword (keyword : String) (kind : SyntaxKind) :
    Alike (eatKeyword keyword kind) (eatKeyword keyword kind) :=
  (alike_atKeyword keyword).bind fun _ => .ite ((alike_bumpAs kind).bind fun _ => .pure _) (.pure _)

/-! ## Reporting -/

/-- Reports something at the present position, unless that is charged. -/
def charge (make : TextRange → State → Diagnostic) : Parser Unit := do
  let range ← currentRange
  if ← claim range.start then
    report (make range (← get))

theorem start_currentRange (s : State) : (currentRange s).1.start = s.position := by
  show (((settle s).2.rest.head?.map Token.range).getD (TextRange.empty s.length)).start = _
  rw [head?_settled, State.position]
  cases s.ahead <;> rfl

/-- The state after a report at the present position. -/
def State.charge (s : State) (d : Diagnostic) : State :=
  { s with lastErrorAt := some s.position, diagnostics := s.diagnostics ++ [d] }

theorem charge_eq (make : TextRange → State → Diagnostic) (s : State) :
    (s.lastErrorAt = some s.position ∧ charge make s = ((), (settle s).2)) ∨
      (s.lastErrorAt ≠ some s.position ∧ ∃ range u, charge make s = ((), (settle s).2.charge (make range u))) := by
  have here : (currentRange s).1.start = (settle s).2.position :=
    (start_currentRange s).trans (still_settle s).position.symm
  have run : charge make s = (if (claim (currentRange s).1.start (settle s).2).1 = true then
      (do report (make (currentRange s).1 (← get))) else Pure.pure () : Parser Unit)
      (claim (currentRange s).1.start (settle s).2).2 := rfl
  rw [run, here, ← (still_settle s).position, claim_eq]
  by_cases charged : s.lastErrorAt = some (settle s).2.position
  · exact .inl ⟨charged, by rw [if_pos (show (settle s).2.lastErrorAt = _ from charged)]; rfl⟩
  · refine .inr ⟨charged, (currentRange s).1, { (settle s).2 with lastErrorAt := some (settle s).2.position }, ?_⟩
    rw [if_neg (show (settle s).2.lastErrorAt ≠ _ from charged)]
    rfl

theorem fault_charge (make : TextRange → State → Diagnostic) (s : State) : (charge make s).2.fault = s.fault := by
  rcases charge_eq make s with ⟨-, run⟩ | ⟨-, range, u, run⟩ <;>
  · rw [run]
    rfl

theorem State.Placed.charge {s : State} (placed : s.Placed) (d : Diagnostic) : (s.charge d).Placed :=
  ⟨placed.increasing, fun _ here => (Option.some.inj here).ge, placed.pending⟩

theorem bare_charge (s : State) (d : Diagnostic) :
    (s.charge d).bare = { s.bare with diagnostics := s.bare.diagnostics ++ [d.plain] } := by
  unfold State.bare
  rw [State.charge, Diagnostics.plain_append]
  rfl

/-- What is reported at the present position is reported in both runs or in neither. -/
theorem alike_charge {make make' : TextRange → State → Diagnostic} {told : Diagnostic}
    (plain : ∀ range s, (make range s).plain = told) (plain' : ∀ range s, (make' range s).plain = told) :
    Alike (charge make) (charge make') := by
  refine ⟨.of_eq (fault_charge make), .of_eq (fault_charge make'), fun s s' same _ _ => ⟨rfl, ?_⟩⟩
  have settled : Same (settle s).2 (settle s').2 := same.settle
  rcases charge_eq make s with ⟨charged, run⟩ | ⟨free, range, u, run⟩ <;>
  rcases charge_eq make' s' with ⟨charged', run'⟩ | ⟨free', range', u', run'⟩
  · rw [run, run']
    exact settled
  · exact absurd (same.charged.1 charged) free'
  · exact absurd (same.charged.2 charged') free
  · rw [run, run']
    refine ⟨settled.placed.charge _, settled.placed'.charge _, iff_of_true rfl rfl, ?_⟩
    rw [bare_charge, bare_charge, settled.bare, plain, plain']

theorem alike_errorHere (kind : DiagnosticKind) (detail : String) :
    Alike (errorHere kind detail) (errorHere kind detail) := by
  have told (range : TextRange) (s : State) : ((Diagnostic.located s.source kind range).withDetail detail).plain =
      (Diagnostic.located 0 kind default).withDetail detail := rfl
  exact alike_charge told told

theorem alike_errorExpected (kind : DiagnosticKind) (what : String) :
    Alike (errorExpected kind what) (errorExpected kind what) :=
  alike_currentText.bind fun _ => alike_errorHere kind _

theorem alike_skipUnexpected (what : String) : Alike (skipUnexpected what) (skipUnexpected what) :=
  alike_currentText.bind fun _ => (alike_errorHere _ _).bind fun _ => alike_shouldStop.bind fun _ =>
    .ite (alike_bump.node .error) (.pure ())

theorem alike_expect (kind : SyntaxKind) (what : String) : Alike (expect kind what) (expect kind what) :=
  (alike_eat kind).bind fun _ => .ite (.pure _) ((alike_errorExpected _ _).bind fun _ => .pure _)

theorem alike_expectName (what : String) : Alike (expectName what) (expectName what) :=
  (alike_eat .identifier).bind fun _ => .ite (.pure _) ((alike_errorExpected _ _).bind fun _ => .pure _)

theorem alike_assertCurrent (kind : SyntaxKind) : Alike (assertCurrent kind) (assertCurrent kind) :=
  (alike_currentlyIs kind).bind fun _ => .ite (.blame _ (sticky_blame _)) (.pure ())

/-! ## Loops and nesting -/

/-- Productions by recursion on a bound that is not to be reached are alike under any two bounds. -/
theorem Alike.of_bounds {ι : Type} {p q : Nat → ι → Parser Unit} (zero : ∀ i, p 0 i = Parser.blame .overrun)
    (zero' : ∀ i, q 0 i = Parser.blame .overrun)
    (step : ∀ n m, (∀ i, Alike (p n i) (q m i)) → ∀ i, Alike (p (n + 1) i) (q (m + 1) i)) (n m : Nat) (i : ι) :
    Alike (p n i) (q m i) := by
  -- under one bound they are alike, so a recorded fault stays
  have own (n : Nat) : ∀ i, Alike (p n i) (q n i) := by
    induction n with
    | zero => exact fun i => zero i ▸ zero' i ▸ .blame _ (sticky_blame _)
    | succ n ih => exact step n n ih
  induction n generalizing m i with
  | zero => exact zero i ▸ .blame _ (own m i).sticky'
  | succ n ih =>
    cases m with
    | zero => exact zero' i ▸ (Alike.blame _ (own (n + 1) i).sticky).symm
    | succ m => exact step n m (ih m) i

theorem Alike.repeatStep {round round' : Parser Bool} (h : Alike round round') (n m : Nat) :
    Alike (repeatStep n round) (repeatStep m round') :=
  .of_bounds (p := fun bound _ => Parser.repeatStep bound round)
    (q := fun bound _ => Parser.repeatStep bound round') (fun _ => rfl) (fun _ => rfl)
    (fun _ _ ih _ => h.bind fun _ => .ite (ih ()) (.pure ())) n m ()

theorem Alike.loop {round round' : Parser Bool} (h : Alike round round') : Alike (loop round) (loop round') where
  sticky s := (h.repeatStep (s.rest.length + 1) 0).sticky s
  sticky' s := (h.repeatStep 0 (s.rest.length + 1)).sticky' s
  alike s s' := (h.repeatStep (s.rest.length + 1) (s'.rest.length + 1)).alike s s'

theorem alike_skipStep (stops : TokenSet) : Alike (skipStep stops) (skipStep stops) :=
  alike_shouldStop.bind fun _ => .ite (.pure _) <| (alike_currentlyIn stops).bind fun _ =>
    .ite (.pure _) (alike_bump.bind fun _ => .pure _)

theorem alike_recover (kind : DiagnosticKind) (what : String) (stops : TokenSet) :
    Alike (recover kind what stops) (recover kind what stops) :=
  (alike_currentlyIn stops).bind fun _ => alike_shouldStop.bind fun _ =>
    .ite (alike_errorExpected kind what)
      (((alike_errorExpected kind what).bind fun _ => (alike_skipStep stops).loop).node .error)

theorem alike_enter : Alike enter enter := by
  refine .of_bare (fun b => if b.maxDepth.any (· ≤ b.depth) then
      (false, { b with exceeded := b.exceeded.or (some .recursionLimitExceeded) })
      else (true, { b with depth := b.depth + 1, patience := patienceLimit }))
    (.of_eq fun s => ?_) (fun s => ?_) fun s _ _ => ?_
  · rw [enter_eq]
    split <;> rfl
  · rw [enter_eq]
    split <;> exact ⟨rfl, rfl, rfl, fun _ => .inl⟩
  · rw [enter_eq]
    show _ = if s.maxDepth.any (· ≤ s.depth) then _ else _
    split <;> rfl

theorem alike_leave : Alike leave leave :=
  .of_bare (fun b => ((), { b with depth := b.depth - 1, patience := patienceLimit })) (.of_eq fun _ => rfl)
    (fun _ => ⟨rfl, rfl, rfl, fun _ => .inl⟩) fun _ _ _ => rfl

theorem Alike.nested {body body' : Parser Unit} (h : Alike body body') : Alike (nested body) (nested body') :=
  alike_enter.bind fun _ => .ite (h.bind fun _ => alike_leave) (.pure ())

/-- Where the opening token stands makes no difference. -/
theorem alike_closeDelimiter (opener opener' : TextRange) (close : SyntaxKind) (kind : DiagnosticKind)
    (construct : String) :
    Alike (closeDelimiter opener close kind construct) (closeDelimiter opener' close kind construct) := by
  refine (alike_eat close).bind fun _ => .ite ?_ (.pure ())
  have told (opener : TextRange) (s : State) : ((Diagnostic.located s.source kind
      ⟨opener.start, max s.lastStop opener.stop⟩).relatedTo (construct ++ " started here") opener).plain =
      (Diagnostic.located 0 kind default).relatedTo (construct ++ " started here") default :=
    Diagnostic.plain_relatedTo _ _ _
  exact alike_charge (fun _ => told opener) fun _ => told opener'

theorem Alike.delimited {body body' : Parser Unit} (h : Alike body body') (nodeKind close : SyntaxKind)
    (kind : DiagnosticKind) (construct : String) :
    Alike (delimited nodeKind close kind construct body) (delimited nodeKind close kind construct body') := by
  refine Alike.node ?_ nodeKind
  have rest (opener opener' : TextRange) := alike_bump.bind fun _ => h.bind fun _ =>
    alike_closeDelimiter opener opener' close kind construct
  constructor
  · exact fun s => (rest (currentRange s).1 default).sticky (settle s).2
  · exact fun s => (rest default (currentRange s).1).sticky' (settle s).2
  · exact fun s s' same => (rest (currentRange s).1 (currentRange s').1).alike _ _ same.settle

end Parser

end IsoLiteral
