import IsoLiteral.Proofs.Syntax.Solid
import IsoLiteral.Syntax.Grammar
import Mathlib.Data.List.TakeWhile

/-!
# What a parser sees

As long as nothing has been reported, all that matters of a parser's state is its view: the tokens left
and the trees built, both without trivia. A production is followed by a reading, a computation on views
alone that fails where the production would report something. `Follows` relates the two; it goes through
sequences, choices, nodes and loops, so a production is related to a reading piece by piece. A diagnostic
once reported stays, so that the end of a literal tells whether there was any.
-/

namespace IsoLiteral

namespace Parser

/-! ## Views -/

/-- Nothing has been reported, there are no limits, and only trivia are held back. -/
structure Clean (s : State) : Prop where
  diagnostics : s.diagnostics = []
  lastErrorAt : s.lastErrorAt = none
  fuel : s.fuel = none
  maxDepth : s.maxDepth = none
  exceeded : s.exceeded = none
  pending : ∀ t ∈ s.pending, t.isTrivia = true

/-- What matters of a clean state. -/
structure View where
  tokens : List Token
  built : List Tree

/-- The tokens left and the trees built, without trivia. -/
def view (s : State) : View := ⟨s.rest.filter (!·.isTrivia), Tree.solidOf s.built⟩

/-- A computation on views that may fail. -/
abbrev Reading := StateT View Option

/-- Whether the result of a production is that of a reading. -/
def Agrees {α : Type} (result : α × State) : Option (α × View) → Prop
  | none => result.2.diagnostics ≠ []
  | some (a, w) => result.1 = a ∧ Clean result.2 ∧ view result.2 = w

/-- What was reported before stays, and so do the nodes that were open and what was built in them. -/
structure Kept (before after : State) : Prop where
  reports : before.diagnostics ≠ [] → after.diagnostics ≠ []
  enclosing : after.enclosing = before.enclosing
  built : before.built <+: after.built

theorem Kept.trans {s s' s'' : State} (first : Kept s s') (second : Kept s' s'') : Kept s s'' where
  reports dirty := second.reports (first.reports dirty)
  enclosing := second.enclosing.trans first.enclosing
  built := first.built.trans second.built

/-- A computation that takes back no report and nothing that was built. -/
def Keeps {α : Type} (p : Parser α) : Prop := ∀ s, Kept s (p s).2

theorem keeps_of_same {α : Type} {p : Parser α} (reports : ∀ s, (p s).2.diagnostics = s.diagnostics)
    (enclosing : ∀ s, (p s).2.enclosing = s.enclosing) (built : ∀ s, (p s).2.built = s.built) :
    Keeps p := fun s =>
  { reports := fun dirty => by rwa [reports]
    enclosing := enclosing s
    built := by rw [built] }

theorem keeps_bind {α β : Type} {p : Parser α} {q : α → Parser β} (first : Keeps p)
    (rest : ∀ a, Keeps (q a)) : Keeps (p >>= q) :=
  fun s => (first s).trans (rest _ _)

theorem keeps_ite {α : Type} {p p' : Parser α} {c : Prop} [Decidable c] (yes : Keeps p) (no : Keeps p') :
    Keeps (if c then p else p') := by
  split
  · exact yes
  · exact no

/-- A reading that puts no tokens back. -/
def Reading.Shrinks {α : Type} (m : Reading α) : Prop :=
  ∀ w a w', m w = some (a, w') → w'.tokens.length ≤ w.tokens.length

theorem Reading.Shrinks.bind {α β : Type} {m : Reading α} {k : α → Reading β} (first : Shrinks m)
    (rest : ∀ a, Shrinks (k a)) : Shrinks (m >>= k) := by
  intro w b w' eq
  obtain ⟨⟨a, u⟩, here, there⟩ := Option.bind_eq_some_iff.1 eq
  exact (rest a u b w' there).trans (first w a u here)

theorem Reading.Shrinks.ite {α : Type} {m m' : Reading α} {c : Prop} [Decidable c] (yes : Shrinks m)
    (no : Shrinks m') : Shrinks (if c then m else m') := by
  split
  · exact yes
  · exact no

/-- A production does on clean states what a reading does on their views, and reports something where the
reading fails. What has been reported or built stays, and no tokens are put back. -/
structure Follows {α : Type} (p : Parser α) (m : Reading α) : Prop where
  mono : Keeps p
  runs : ∀ s, Clean s → Agrees (p s) (m (view s))
  shrinks : m.Shrinks

section Combinators

variable {α β : Type} {p p' : Parser α} {m m' : Reading α}

theorem Follows.pure (a : α) : Follows (Pure.pure a) (Pure.pure a) where
  mono := keeps_of_same (fun _ => rfl) (fun _ => rfl) fun _ => rfl
  runs _ clean := ⟨rfl, clean, rfl⟩
  shrinks w _ _ eq := by
    obtain ⟨-, rfl⟩ := Prod.mk.inj (Option.some.inj eq)
    exact le_rfl

theorem Follows.bind (first : Follows p m) {q : α → Parser β} {k : α → Reading β}
    (rest : ∀ a, Follows (q a) (k a)) : Follows (p >>= q) (m >>= k) where
  mono := keeps_bind first.mono fun a => (rest a).mono
  runs s clean := by
    have agrees := first.runs s clean
    show Agrees (q (p s).1 (p s).2) ((m (view s)).bind fun aw => k aw.1 aw.2)
    cases result : m (view s) with
    | none =>
      rw [result] at agrees
      exact ((rest _).mono _).reports agrees
    | some aw =>
      rw [result] at agrees
      obtain ⟨value, clean', seen⟩ := agrees
      rw [Option.bind_some, ← value, ← seen]
      exact (rest _).runs _ clean'
  shrinks := first.shrinks.bind fun a => (rest a).shrinks

theorem Follows.ite {c : Prop} [Decidable c] (yes : Follows p m) (no : Follows p' m') :
    Follows (if c then p else p') (if c then m else m') := by
  split
  · exact yes
  · exact no

/-- Readings that do the same are followed by the same productions. -/
theorem Follows.congr (h : Follows p m) (same : ∀ w, m w = m' w) : Follows p m' :=
  (funext same : m = m') ▸ h

/-- A production that reports something on every clean state follows a failing reading. -/
theorem Follows.fail (mono : Keeps p)
    (reports : ∀ s, Clean s → (p s).2.diagnostics ≠ []) : Follows p (fun _ => none) where
  mono := mono
  runs := reports
  shrinks _ _ _ eq := by cases eq

end Combinators

/-! ## Looking -/

/-- The kind of the first token; at the end it is `error`. -/
def headKind (tokens : List Token) : SyntaxKind := (tokens.head?.map Token.kind).getD .error

namespace Reading

/-- A reading that fails. -/
def fail {α : Type} : Reading α := fun _ => none

/-- The kind of the current token. -/
def current : Reading SyntaxKind := fun w => some (headKind w.tokens, w)

/-- The text of the current token. -/
def currentText : Reading String := fun w => some ((w.tokens.head?.map Token.text).getD "", w)

/-- Whether the token after the current one has a kind. -/
def nextIs (kind : SyntaxKind) : Reading Bool := fun w =>
  some (decide (w.tokens[1]?.map Token.kind = some kind), w)

/-- Whether the current token has a kind. -/
def currentlyIs (kind : SyntaxKind) : Reading Bool := do return (← current) = kind

/-- Whether the kind of the current token is in a set. -/
def currentlyIn (kinds : TokenSet) : Reading Bool := do return kinds.contains (← current)

/-- Whether there are no tokens left. -/
def atEnd : Reading Bool := fun w => some (w.tokens.isEmpty, w)

end Reading

/-- A production that changes nothing visible and returns something about what is visible. -/
theorem Follows.look {α : Type} {p : Parser α} {f : View → α}
    (mono : Keeps p)
    (value : ∀ s, Clean s → (p s).1 = f (view s)) (clean : ∀ s, Clean s → Clean (p s).2)
    (same : ∀ s, view (p s).2 = view s) : Follows p (fun w => some (f w, w)) where
  mono := mono
  runs s h := ⟨value s h, clean s h, same s⟩
  shrinks w a w' eq := by
    obtain ⟨-, rfl⟩ := Prod.mk.inj (Option.some.inj eq)
    exact le_rfl

theorem filter_dropWhile_trivia (tokens : List Token) :
    (tokens.dropWhile Token.isTrivia).filter (!·.isTrivia) = tokens.filter (!·.isTrivia) := by
  induction tokens with
  | nil => rfl
  | cons t rest ih =>
    cases trivia : t.isTrivia with
    | true => simp [trivia, ih]
    | false => simp [trivia]

/-- What is left after passing over trivia starts with the first token that matters. -/
theorem head?_dropWhile_trivia (tokens : List Token) :
    (tokens.dropWhile Token.isTrivia).head? = (tokens.filter (!·.isTrivia)).head? := by
  induction tokens with
  | nil => rfl
  | cons t rest ih =>
    cases trivia : t.isTrivia with
    | true => simp [trivia, ih]
    | false => simp [trivia]

theorem view_settle (s : State) : view (settle s).2 = view s :=
  congrArg (View.mk · _) (filter_dropWhile_trivia s.rest)

theorem Clean.settle {s : State} (h : Clean s) : Clean (settle s).2 :=
  { h with
    pending := fun t member =>
      (List.mem_append.1 member).elim (h.pending t) List.mem_takeWhile_imp }

theorem head?_settle (s : State) : (settle s).2.rest.head? = (view s).tokens.head? :=
  head?_dropWhile_trivia s.rest

theorem keeps_get : Keeps (MonadState.get : Parser State) :=
  keeps_of_same (fun _ => rfl) (fun _ => rfl) fun _ => rfl

theorem keeps_settle : Keeps settle := keeps_of_same (fun _ => rfl) (fun _ => rfl) fun _ => rfl

theorem follows_settle : Follows settle (Pure.pure ()) :=
  .look keeps_settle (fun _ _ => rfl) (fun _ h => h.settle) view_settle

theorem lookAhead_eq (s : State) :
    lookAhead s = if s.patience = 0 then blame .stalled s
      else ((), { s with patience := s.patience - 1 }) := by
  show (if s.patience = 0 then blame .stalled else set _ : Parser Unit) s = _
  split <;> rfl

theorem keeps_blame (fault : GrammarFault) : Keeps (blame fault) :=
  keeps_of_same (fun _ => rfl) (fun _ => rfl) fun _ => rfl

theorem follows_blame (fault : GrammarFault) : Follows (blame fault) (Pure.pure ()) :=
  .look (keeps_blame fault) (fun _ _ => rfl) (fun _ h => { h with }) fun _ => rfl

theorem keeps_lookAhead : Keeps lookAhead := by
  refine keeps_of_same ?_ ?_ ?_ <;>
  · intro s
    rw [lookAhead_eq]
    split <;> rfl

theorem follows_lookAhead : Follows lookAhead (Pure.pure ()) := by
  refine .look keeps_lookAhead (fun _ _ => rfl) (fun s h => ?_) fun s => ?_
  · rw [lookAhead_eq]
    split <;> exact { h with }
  · rw [lookAhead_eq]
    split <;> rfl

theorem rest_lookAhead (s : State) : (lookAhead s).2.rest = s.rest := by
  rw [lookAhead_eq]
  split <;> rfl

/-- Passing over trivia and then looking ahead. -/
theorem follows_peek : Follows (settle >>= fun _ => lookAhead) (Pure.pure ()) :=
  follows_settle.bind fun _ => follows_lookAhead

theorem keeps_current : Keeps current :=
  keeps_bind keeps_settle fun _ => keeps_bind keeps_lookAhead fun _ => keeps_bind keeps_get fun _ =>
    (Follows.pure _).mono

theorem follows_current : Follows current Reading.current := by
  refine .look keeps_current (fun s _ => ?_) (fun s h => (follows_peek.runs s h).2.1) fun s => ?_
  · show ((lookAhead (settle s).2).2.rest.head?.map Token.kind).getD .error = _
    rw [rest_lookAhead, head?_settle, headKind]
  · show view (lookAhead (settle s).2).2 = _
    rw [lookAhead_eq]
    split <;> exact view_settle s

theorem keeps_currentText : Keeps currentText := keeps_of_same (fun _ => rfl) (fun _ => rfl) fun _ => rfl

/-- Looking at the current token builds nothing. -/
theorem built_current (s : State) : (current s).2.built = s.built := by
  show (lookAhead (settle s).2).2.built = _
  rw [lookAhead_eq]
  split <;> rfl

theorem follows_currentText : Follows currentText Reading.currentText := by
  refine .look keeps_currentText (fun s _ => ?_) (fun s h => h.settle) view_settle
  show ((settle s).2.rest.head?.map Token.text).getD "" = _
  rw [head?_settle]

theorem keeps_nextIs (kind : SyntaxKind) : Keeps (nextIs kind) :=
  keeps_bind keeps_settle fun _ => keeps_bind keeps_lookAhead fun _ => keeps_bind keeps_get fun _ =>
    (Follows.pure _).mono

theorem follows_nextIs (kind : SyntaxKind) : Follows (nextIs kind) (Reading.nextIs kind) := by
  refine .look (keeps_nextIs kind) (fun s _ => ?_) (fun s h => (follows_peek.runs s h).2.1) fun s => ?_
  · show decide ((((lookAhead (settle s).2).2.rest.filter (!·.isTrivia))[1]?.map Token.kind) = some kind) =
      _
    rw [rest_lookAhead]
    have same : (settle s).2.rest.filter (!·.isTrivia) = (view s).tokens :=
      filter_dropWhile_trivia s.rest
    rw [same]
  · show view (lookAhead (settle s).2).2 = _
    rw [lookAhead_eq]
    split <;> exact view_settle s

theorem keeps_shouldStop : Keeps shouldStop := keeps_of_same (fun _ => rfl) (fun _ => rfl) fun _ => rfl

theorem follows_shouldStop : Follows shouldStop Reading.atEnd := by
  refine .look keeps_shouldStop (fun s h => ?_) (fun s h => h.settle) view_settle
  show ((settle s).2.rest.isEmpty || s.exceeded.isSome) = _
  have empty : (settle s).2.rest.isEmpty = (view s).tokens.isEmpty := by
    rw [Bool.eq_iff_iff, List.isEmpty_iff, List.isEmpty_iff, ← List.head?_eq_none_iff,
      ← List.head?_eq_none_iff, head?_settle]
  rw [h.exceeded, Option.isSome_none, Bool.or_false, empty]

theorem follows_currentlyIs (kind : SyntaxKind) :
    Follows (currentlyIs kind) (Reading.currentlyIs kind) :=
  follows_current.bind fun _ => .pure _

theorem follows_currentlyIn (kinds : TokenSet) :
    Follows (currentlyIn kinds) (Reading.currentlyIn kinds) :=
  follows_current.bind fun _ => .pure _

/-! ## Building -/

namespace Reading

/-- Takes the current token as one of the given kind. -/
def bumpAs (kind : SyntaxKind) : Reading Unit := fun w =>
  match w.tokens with
  | [] => some ((), w)
  | t :: rest => some ((), ⟨rest, w.built ++ [.token { t with kind }]⟩)

/-- Takes the current token. -/
def bump : Reading Unit := fun w =>
  match w.tokens with
  | [] => some ((), w)
  | t :: rest => some ((), ⟨rest, w.built ++ [.token t]⟩)

/-- Runs `body` with a list of children of its own, and gives it the one that was being built. -/
def opened (body : List Tree → Reading Unit) : Reading Unit := fun w => body w.built ⟨w.tokens, []⟩

/-- Makes what was built since `outer` a node of the tree. -/
def closeNode (kind : SyntaxKind) (outer : List Tree) : Reading Unit := fun w =>
  some ((), ⟨w.tokens, outer ++ [.node kind w.built]⟩)

/-- Leaves what was built since `outer` as it is. -/
def closePlain (outer : List Tree) : Reading Unit := fun w =>
  some ((), ⟨w.tokens, outer ++ w.built⟩)

/-- A node that holds what `body` takes. -/
def node (kind : SyntaxKind) (body : Reading Unit) : Reading Unit :=
  opened fun outer => do
    body
    closeNode kind outer

/-- Takes the current token if it has a kind, and says whether it did. -/
def eat (kind : SyntaxKind) : Reading Bool := do
  if ← currentlyIs kind then
    bump
    return true
  else
    return false

/-- Takes a token of a kind and says so. -/
def expect (kind : SyntaxKind) : Reading Bool := do
  if ← eat kind then
    return true
  else
    fail

end Reading

theorem Clean.flush {s : State} (h : Clean s) : Clean (flush s).2 :=
  { h with pending := fun _ member => nomatch member }

theorem view_flush {s : State} (h : Clean s) : view (flush s).2 = view s := by
  refine congrArg (View.mk _) ?_
  show Tree.solidOf (s.built ++ s.pending.map Tree.token) = _
  rw [Tree.solidOf_append, Tree.solidOf_trivia h.pending, List.append_nil]

theorem not_isTrivia_of_dropWhile {tokens rest : List Token} {t : Token}
    (left : tokens.dropWhile Token.isTrivia = t :: rest) : t.isTrivia = false := by
  induction tokens with
  | nil => cases left
  | cons u tail ih =>
    rw [List.dropWhile_cons] at left
    split at left
    · exact ih left
    · rename_i solid
      obtain ⟨rfl, -⟩ := List.cons.inj left
      simpa using solid

theorem spendFuel_eq (s : State) :
    spendFuel s = match s.fuel with
      | none => ((), s)
      | some 0 => exceed .fuelExhausted s
      | some (left + 1) => ((), { s with fuel := some left }) := by
  show (match s.fuel with
    | none => Pure.pure ()
    | some 0 => exceed .fuelExhausted
    | some (left + 1) => set { s with fuel := some left } : Parser Unit) s = _
  cases s.fuel with
  | none => rfl
  | some left => cases left <;> rfl

theorem spendFuel_then {α : Type} {s : State} (unlimited : s.fuel = none) (q : Parser α) :
    (do spendFuel; q) s = q s := by
  show q (spendFuel s).2 = q s
  rw [spendFuel_eq, unlimited]

theorem keeps_spendFuel : Keeps spendFuel := by
  refine keeps_of_same ?_ ?_ ?_ <;>
  · intro s
    rw [spendFuel_eq]
    split <;> rfl

theorem keeps_flush : Keeps flush :=
  fun s => ⟨id, rfl, List.prefix_append s.built _⟩

theorem keeps_bumpAs (kind : SyntaxKind) : Keeps (bumpAs kind) := by
  refine keeps_bind keeps_settle fun _ => keeps_bind keeps_get fun now => ?_
  split
  · exact (Follows.pure ()).mono
  · refine keeps_bind keeps_spendFuel fun _ => keeps_bind keeps_flush fun _ => ?_
    exact fun s => ⟨id, rfl, List.prefix_append s.built _⟩

/-- Taking the first token that matters, if there is one. -/
theorem bumpAs_eq {s : State} (h : Clean s) (kind : SyntaxKind) :
    (∃ t rest, t.isTrivia = false ∧ (view s).tokens = t :: rest.filter (!·.isTrivia) ∧
      bumpAs kind s = ((), { (flush (settle s).2).2 with
        rest := rest
        built := (flush (settle s).2).2.built ++ [.token { t with kind }]
        lastStop := t.stop
        patience := patienceLimit })) ∨
    ((view s).tokens = [] ∧ bumpAs kind s = ((), (settle s).2)) := by
  have seen : (view s).tokens = (settle s).2.rest.filter (!·.isTrivia) :=
    (filter_dropWhile_trivia s.rest).symm
  have run : bumpAs kind s = (match (settle s).2.rest with
      | [] => Pure.pure ()
      | t :: rest => do
        spendFuel
        flush
        modify fun s =>
          { s with
            rest := rest
            built := s.built ++ [.token { t with kind }]
            lastStop := t.stop
            patience := patienceLimit } : Parser Unit) (settle s).2 := rfl
  cases left : (settle s).2.rest with
  | nil => exact .inr ⟨by rw [seen, left]; rfl, by rw [run, left]; rfl⟩
  | cons t rest =>
    have solid : t.isTrivia = false := not_isTrivia_of_dropWhile left
    refine .inl ⟨t, rest, solid, by rw [seen, left]; simp [solid], ?_⟩
    rw [run, left]
    exact spendFuel_then h.settle.fuel _

theorem follows_bumpAs {kind : SyntaxKind} (solid : kind.isTrivia = false) :
    Follows (bumpAs kind) (Reading.bumpAs kind) where
  mono := keeps_bumpAs kind
  runs s h := by
    rcases bumpAs_eq h kind with ⟨t, rest, -, seen, run⟩ | ⟨seen, run⟩
    · rw [run, Reading.bumpAs, seen]
      have token : Tree.solidOf [.token { t with kind }] = [.token { t with kind }] :=
        Tree.solidOf_token solid
      refine ⟨rfl, { h.settle.flush with }, ?_⟩
      refine congrArg (View.mk _) ?_
      show Tree.solidOf ((flush (settle s).2).2.built ++ [.token { t with kind }]) = _
      rw [Tree.solidOf_append, token]
      exact congrArg (· ++ _) (congrArg View.built ((view_flush h.settle).trans (view_settle s)))
    · rw [run, Reading.bumpAs, seen]
      exact ⟨rfl, h.settle, view_settle s⟩
  shrinks w a w' eq := by
    rw [Reading.bumpAs] at eq
    split at eq
    · cases eq
      exact le_rfl
    · rename_i t rest tokens
      cases eq
      rw [tokens]
      exact Nat.le_succ _

theorem not_isTrivia_headKind (s : State) : (headKind (view s).tokens).isTrivia = false := by
  cases tokens : (view s).tokens with
  | nil => rfl
  | cons t rest =>
    have member : t ∈ s.rest.filter (!·.isTrivia) := by
      rw [show s.rest.filter (!·.isTrivia) = t :: rest from tokens]
      exact List.mem_cons_self
    simpa [headKind, Token.isTrivia] using (List.mem_filter.1 member).2

theorem bumpAs_headKind (w : View) : Reading.bumpAs (headKind w.tokens) w = Reading.bump w := by
  rw [Reading.bumpAs, Reading.bump]
  split <;> simp_all [headKind]

theorem keeps_bump : Keeps bump := keeps_bind keeps_current keeps_bumpAs

theorem follows_bump : Follows bump Reading.bump where
  mono := keeps_bump
  runs s h := by
    obtain ⟨kind, clean, seen⟩ := follows_current.runs s h
    have agrees := (follows_bumpAs (not_isTrivia_headKind s)).runs _ clean
    rw [seen, bumpAs_headKind, ← kind] at agrees
    exact agrees
  shrinks w a w' eq := by
    rw [Reading.bump] at eq
    split at eq
    · cases eq
      exact le_rfl
    · rename_i t rest tokens
      cases eq
      rw [tokens]
      exact Nat.le_succ _

/-- Starting a node changes nothing but what is open. -/
theorem startNode_eq (kind : SyntaxKind) (s : State) :
    startNode kind s = ((), { (flush s).2 with
      built := []
      enclosing := (kind, (flush s).2.built) :: s.enclosing }) := rfl

/-- Finishing the innermost open node. -/
theorem finishNode_eq {s : State} {kind : SyntaxKind} {before : List Tree}
    {outer : List (SyntaxKind × List Tree)} (here : s.enclosing = (kind, before) :: outer) :
    finishNode s = ((), { s with built := before ++ [.node kind s.built], enclosing := outer }) := by
  simp only [finishNode, bind, StateT.bind, get, getThe, MonadStateOf.get, StateT.get, pure, here]
  rfl

/-- A node around a computation that leaves alone what is open around it. -/
theorem node_eq {body : Parser Unit} {kind : SyntaxKind} {s : State}
    (kept : Kept (startNode kind s).2 (body (startNode kind s).2).2) :
    node kind body s = ((), { (body (startNode kind s).2).2 with
      built := (flush s).2.built ++ [.node kind (body (startNode kind s).2).2.built]
      enclosing := s.enclosing }) :=
  finishNode_eq kept.enclosing

theorem Kept.node {body : Parser Unit} {kind : SyntaxKind} {s : State}
    (kept : Kept (startNode kind s).2 (body (startNode kind s).2).2) : Kept s (node kind body s).2 := by
  rw [node_eq kept]
  exact
    { reports := kept.reports
      enclosing := rfl
      built := (keeps_flush s).built.trans (List.prefix_append _ _) }

theorem keeps_node {body : Parser Unit} (keeps : Keeps body) (kind : SyntaxKind) :
    Keeps (node kind body) := fun _ => (keeps _).node

/-- Starting a node around what was built after `before`. -/
theorem startNodeAt_eq (kind : SyntaxKind) {s : State} {before since : List Tree}
    (built : s.built = before ++ since) :
    startNodeAt ⟨s.enclosing.length, before.length⟩ kind s =
      ((), { s with built := since, enclosing := (kind, before) :: s.enclosing }) := by
  show (if s.enclosing.length = s.enclosing.length ∧ before.length ≤ s.built.length then modify _
    else blame .unopened : Parser Unit) s = _
  rw [if_pos ⟨rfl, by simp [built]⟩]
  show ((), _) = _
  simp only [built, List.drop_left, List.take_left]

/-- A node around what was built after `before` and around a computation that leaves alone what is open
around it. -/
theorem nodeAt_eq {body : Parser Unit} (keeps : Keeps body) (kind : SyntaxKind) {s : State}
    {before since : List Tree} (built : s.built = before ++ since) :
    nodeAt ⟨s.enclosing.length, before.length⟩ kind body s =
      let inside := (body { s with built := since, enclosing := (kind, before) :: s.enclosing }).2
      ((), { inside with built := before ++ [.node kind inside.built], enclosing := s.enclosing }) := by
  show (do body; finishNode : Parser Unit) (startNodeAt _ kind s).2 = _
  rw [startNodeAt_eq kind built]
  exact finishNode_eq (keeps _).enclosing

/-- A node that is started at an earlier place keeps what was there. -/
theorem Kept.nodeAt {s s' : State} (since : Kept s s') {body : Parser Unit} (keeps : Keeps body)
    (kind : SyntaxKind) :
    Kept s (Parser.nodeAt ⟨s.enclosing.length, s.built.length⟩ kind body s').2 := by
  obtain ⟨trees, built⟩ := since.built
  rw [← since.enclosing, nodeAt_eq keeps kind built.symm]
  exact
    { reports := fun dirty => (keeps _).reports (since.reports dirty)
      enclosing := since.enclosing
      built := List.prefix_append _ _ }

theorem Reading.shrinks_closeNode (kind : SyntaxKind) (outer : List Tree) :
    (closeNode kind outer).Shrinks := by
  intro w a w' eq
  cases eq
  exact le_rfl

theorem Reading.shrinks_closePlain (outer : List Tree) : (closePlain outer).Shrinks := by
  intro w a w' eq
  cases eq
  exact le_rfl

theorem Clean.startNode {s : State} (h : Clean s) (kind : SyntaxKind) : Clean (startNode kind s).2 :=
  { h.flush with }

theorem view_startNode (kind : SyntaxKind) (s : State) :
    view (startNode kind s).2 = ⟨(view s).tokens, []⟩ := by
  rw [startNode_eq, view, Tree.solidOf]
  rfl

/-- A finished node agrees with a reading once its inside does. -/
theorem Agrees.node {inside : State} {read : Option (Unit × View)} (agrees : Agrees ((), inside) read)
    (kind : SyntaxKind) (before : List Tree) (outer : List (SyntaxKind × List Tree)) :
    Agrees ((), { inside with built := before ++ [.node kind inside.built], enclosing := outer })
      (read.bind fun next => Reading.closeNode kind (Tree.solidOf before) next.2) := by
  cases read with
  | none => exact agrees
  | some next =>
    obtain ⟨-, clean, seen⟩ := agrees
    refine ⟨rfl, { clean with }, ?_⟩
    rw [← seen]
    refine congrArg (View.mk _) ?_
    rw [Tree.solidOf_append, Tree.solidOf_node]
    rfl

theorem Follows.node {body : Parser Unit} {m : Reading Unit} (h : Follows body m)
    (kind : SyntaxKind) : Follows (node kind body) (Reading.node kind m) where
  mono := keeps_node h.mono kind
  runs s clean := by
    have agrees := h.runs _ (clean.startNode kind)
    have before : Tree.solidOf (flush s).2.built = (view s).built :=
      congrArg View.built (view_flush clean)
    rw [view_startNode] at agrees
    rw [node_eq (h.mono _)]
    have finished := agrees.node kind (flush s).2.built s.enclosing
    rwa [before] at finished
  shrinks w := (h.shrinks.bind fun _ => Reading.shrinks_closeNode kind w.built) ⟨w.tokens, []⟩

/-- A node around what was built after `before` takes that in. -/
theorem Follows.agrees_nodeAt {body : Parser Unit} {m : Reading Unit} (h : Follows body m)
    (kind : SyntaxKind) {s : State} (clean : Clean s) {before since : List Tree}
    (built : s.built = before ++ since) :
    Agrees (nodeAt ⟨s.enclosing.length, before.length⟩ kind body s)
      ((m ⟨(view s).tokens, Tree.solidOf since⟩).bind fun next =>
        Reading.closeNode kind (Tree.solidOf before) next.2) := by
  rw [nodeAt_eq h.mono kind built]
  have inside : Clean { s with built := since, enclosing := (kind, before) :: s.enclosing } := { clean with }
  exact (h.runs _ inside).node kind before s.enclosing

theorem follows_eat (kind : SyntaxKind) : Follows (eat kind) (Reading.eat kind) :=
  (follows_currentlyIs kind).bind fun _ => .ite (follows_bump.bind fun _ => .pure true) (.pure false)

/-! ## Reporting -/

theorem claim_eq (offset : Nat) (s : State) :
    claim offset s = if s.lastErrorAt = some offset then (false, s)
      else (true, { s with lastErrorAt := some offset }) := by
  show (if s.lastErrorAt = some offset then Pure.pure false
    else (do set { s with lastErrorAt := some offset }; return true) : Parser Bool) s = _
  split <;> rfl

theorem keeps_claim (offset : Nat) : Keeps (claim offset) := by
  refine keeps_of_same ?_ ?_ ?_ <;>
  · intro s
    rw [claim_eq]
    split <;> rfl

/-- Reporting at a position that was not charged before. -/
theorem reports_claim (offset : Nat) {rest : Parser Unit}
    (reports : ∀ s, (rest s).2.diagnostics ≠ []) {s : State}
    (free : s.diagnostics ≠ [] ∨ s.lastErrorAt = none) :
    ((do if ← claim offset then rest : Parser Unit) s).2.diagnostics ≠ [] := by
  show ((if (claim offset s).1 = true then rest else Pure.pure () : Parser Unit)
    (claim offset s).2).2.diagnostics ≠ []
  rw [claim_eq]
  by_cases charged : s.lastErrorAt = some offset
  · rw [if_pos charged]
    rcases free with dirty | none
    · exact dirty
    · rw [none] at charged
      cases charged
  · rw [if_neg charged]
    exact reports _

theorem reported (d : Diagnostic) (s : State) : (report d s).2.diagnostics ≠ [] := by
  show s.diagnostics ++ [d] ≠ []
  simp

theorem keeps_report (make : State → Diagnostic) : Keeps (do report (make (← MonadState.get))) :=
  fun s => ⟨fun _ => reported (make s) s, rfl, List.prefix_rfl⟩

theorem keeps_currentRange : Keeps currentRange :=
  keeps_bind keeps_settle fun _ => keeps_bind keeps_get fun _ => (Follows.pure _).mono

/-- Reporting something about the current token follows a failing reading. -/
theorem follows_claim {offset : TextRange → Nat} (make : TextRange → State → Diagnostic) :
    Follows (do
      let range ← currentRange
      if ← claim (offset range) then
        report (make range (← MonadState.get))) Reading.fail :=
  .fail (keeps_bind keeps_currentRange fun range => keeps_bind (keeps_claim _) fun _ =>
      keeps_ite (keeps_report (make range)) (Follows.pure ()).mono)
    fun s h => reports_claim (s := (settle s).2) _ (fun s => reported _ s) (.inr h.lastErrorAt)

theorem follows_errorHere (kind : DiagnosticKind) (detail : String) :
    Follows (errorHere kind detail) Reading.fail :=
  follows_claim fun range s => (Diagnostic.located s.source kind range).withDetail detail

/-- What comes after a failure need only keep what was reported. -/
theorem Follows.fail_then {α β : Type} {p : Parser α} {q : α → Parser β}
    (h : Follows p Reading.fail) (rest : ∀ a, Keeps (q a)) : Follows (p >>= q) Reading.fail :=
  .fail (keeps_bind h.mono rest) fun s clean => (rest _ _).reports (h.runs s clean)

theorem follows_errorExpected (kind : DiagnosticKind) (what : String) :
    Follows (errorExpected kind what) Reading.fail :=
  .congr (follows_currentText.bind fun _ => follows_errorHere _ _) fun _ => rfl

theorem follows_expect (kind : SyntaxKind) (what : String) :
    Follows (expect kind what) (Reading.expect kind) :=
  (follows_eat kind).bind fun _ => .ite (.pure true) ((follows_errorExpected _ _).fail_then fun _ =>
    (Follows.pure false).mono)

theorem follows_expectName (what : String) :
    Follows (expectName what) (Reading.expect .identifier) :=
  (follows_eat .identifier).bind fun _ => .ite (.pure true)
    ((follows_errorExpected _ _).fail_then fun _ => (Follows.pure false).mono)

theorem follows_skipUnexpected (what : String) :
    Follows (skipUnexpected what) Reading.fail :=
  .congr (follows_currentText.bind fun _ => (follows_errorHere _ _).fail_then fun _ =>
    keeps_bind follows_shouldStop.mono fun stop => by
      cases stop
      · exact (follows_bump.node .error).mono
      · exact (Follows.pure ()).mono) fun _ => rfl

theorem follows_assertCurrent (kind : SyntaxKind) : Follows (assertCurrent kind) (Pure.pure ()) := by
  refine .congr ((follows_currentlyIs kind).bind fun here =>
    .ite (follows_blame _) (.pure ())) fun w => ?_
  show (if _ then _ else _ : Reading Unit) w = _
  split <;> rfl

/-! ## Nesting -/

theorem enter_eq (s : State) :
    enter s = if s.maxDepth.any (· ≤ s.depth) then (false, (exceed .recursionLimitExceeded s).2)
      else (true, { s with depth := s.depth + 1, patience := patienceLimit }) := by
  show (if s.maxDepth.any (· ≤ s.depth) then (do exceed _; return false)
    else (do set _; return true) : Parser Bool) s = _
  split <;> rfl

theorem keeps_enter : Keeps enter := by
  refine keeps_of_same ?_ ?_ ?_ <;>
  · intro s
    rw [enter_eq]
    split <;> rfl

theorem follows_enter : Follows enter (Pure.pure true) where
  mono := keeps_enter
  runs s h := by
    have run := enter_eq s
    rw [if_neg (by simp [h.maxDepth])] at run
    rw [run]
    exact ⟨rfl, { h with }, rfl⟩
  shrinks := (Follows.pure true).shrinks

theorem keeps_leave : Keeps leave := keeps_of_same (fun _ => rfl) (fun _ => rfl) fun _ => rfl

theorem follows_leave : Follows leave (Pure.pure ()) :=
  .look keeps_leave (fun _ _ => rfl) (fun _ h => { h with }) fun _ => rfl

theorem Follows.nested {body : Parser Unit} {m : Reading Unit} (h : Follows body m) :
    Follows (nested body) m := by
  refine .congr (follows_enter.bind fun _ => .ite (h.bind fun _ => follows_leave) (.pure ())) ?_
  intro w
  show ((m w).bind fun aw => some ((), aw.2)) = m w
  cases m w <;> rfl

/-- Takes a token of a kind. -/
def Reading.take (kind : SyntaxKind) : Reading Unit := do
  if !(← eat kind) then
    fail

theorem follows_closeDelimiter (opener : TextRange) (close : SyntaxKind) (kind : DiagnosticKind)
    (construct : String) :
    Follows (closeDelimiter opener close kind construct) (Reading.take close) :=
  (follows_eat close).bind fun _ => .ite (follows_claim fun _ s => (Diagnostic.located s.source
    kind ⟨opener.start, max s.lastStop opener.stop⟩).relatedTo (construct ++ " started here") opener)
    (.pure ())

/-- A node that starts with the current token and ends with the token that closes it. -/
def Reading.delimited (nodeKind close : SyntaxKind) (body : Reading Unit) : Reading Unit :=
  Reading.node nodeKind do
    bump
    body
    take close

theorem Follows.delimited {body : Parser Unit} {m : Reading Unit} (h : Follows body m)
    (nodeKind close : SyntaxKind) (kind : DiagnosticKind) (construct : String) :
    Follows (delimited nodeKind close kind construct body) (Reading.delimited nodeKind close m) := by
  refine Follows.node ?_ nodeKind
  have rest (opener : TextRange) := follows_bump.bind fun _ => h.bind fun _ =>
    follows_closeDelimiter opener close kind construct
  refine ⟨keeps_bind keeps_currentRange fun opener => (rest opener).mono, fun s clean => ?_,
    (rest default).shrinks⟩
  have agrees := (rest (currentRange s).1).runs (settle s).2 clean.settle
  rw [view_settle] at agrees
  exact agrees

/-! ## Loops -/

namespace Reading

/-- Repeats a step for as long as it asks to go on, at most `bound` times. -/
def repeatStep : Nat → Reading Bool → Reading Unit
  | 0, _ => Pure.pure ()
  | bound + 1, step => do
    if ← step then
      repeatStep bound step

/-- Repeats a step for as long as it asks to go on. -/
def loop (step : Reading Bool) : Reading Unit := fun w =>
  repeatStep (w.tokens.length + 1) step w

/-- A step that takes a token or does nothing whenever it asks to go on. -/
def Advances (step : Reading Bool) : Prop :=
  ∀ w w', step w = some (true, w') → w' = w ∨ w'.tokens.length < w.tokens.length

theorem repeatStep_stuck {step : Reading Bool} {w : View} (stuck : step w = some (true, w)) (n : Nat) :
    repeatStep n step w = some ((), w) := by
  induction n with
  | zero => rfl
  | succ n ih =>
    show ((step w).bind fun aw => (if aw.1 then repeatStep n step else Pure.pure () : Reading Unit) aw.2) =
      _
    rw [stuck]
    exact ih

/-- For such a step, any two bounds that exceed the number of tokens come to the same. -/
theorem repeatStep_eq {step : Reading Bool} (advances : Advances step) :
    ∀ {n m : Nat} {w : View}, w.tokens.length < n → w.tokens.length < m →
      repeatStep n step w = repeatStep m step w := by
  intro n
  induction n with
  | zero => intro m w enough; omega
  | succ n ih =>
    intro m w enough enough'
    obtain ⟨m, rfl⟩ : ∃ k, m = k + 1 := ⟨m - 1, by omega⟩
    show ((step w).bind fun aw => (if aw.1 then repeatStep n step else Pure.pure () : Reading Unit) aw.2) =
      (step w).bind fun aw => (if aw.1 then repeatStep m step else Pure.pure () : Reading Unit) aw.2
    cases result : step w with
    | none => rfl
    | some aw =>
      obtain ⟨goOn, w'⟩ := aw
      cases goOn with
      | false => rfl
      | true =>
        rcases advances w w' result with rfl | fewer
        · exact (repeatStep_stuck result n).trans (repeatStep_stuck result m).symm
        · exact ih (w := w') (by omega) (by omega)

end Reading

theorem Follows.repeatStep {step : Parser Bool} {m : Reading Bool} (h : Follows step m) :
    ∀ bound, Follows (repeatStep bound step) (Reading.repeatStep bound m)
  | 0 => follows_blame .overrun
  | bound + 1 => h.bind fun _ => .ite (h.repeatStep bound) (.pure ())

theorem Follows.loop {step : Parser Bool} {m : Reading Bool} (h : Follows step m)
    (advances : Reading.Advances m) : Follows (loop step) (Reading.loop m) where
  mono := keeps_bind keeps_get fun s => (h.repeatStep (s.rest.length + 1)).mono
  runs s clean := by
    have agrees := (h.repeatStep (s.rest.length + 1)).runs s clean
    have fewer : (view s).tokens.length ≤ s.rest.length := List.length_filter_le ..
    rw [Reading.repeatStep_eq advances (m := (view s).tokens.length + 1) (by omega) (by omega)] at agrees
    exact agrees
  shrinks w a w' eq := (h.repeatStep (w.tokens.length + 1)).shrinks w a w' eq

theorem keeps_loop {step : Parser Bool} (keeps : Keeps step) : Keeps (loop step) := by
  have rounds (bound : Nat) : Keeps (repeatStep bound step) := by
    induction bound with
    | zero => exact keeps_blame .overrun
    | succ bound ih => exact keeps_bind keeps fun _ => keeps_ite ih (Follows.pure ()).mono
  exact keeps_bind keeps_get fun s => rounds (s.rest.length + 1)

theorem keeps_skipStep (stops : TokenSet) : Keeps (skipStep stops) := by
  refine keeps_bind keeps_shouldStop fun _ => keeps_ite (Follows.pure false).mono ?_
  refine keeps_bind (follows_currentlyIn stops).mono fun _ => keeps_ite (Follows.pure false).mono ?_
  exact keeps_bind keeps_bump fun _ => (Follows.pure true).mono

end Parser

end IsoLiteral
