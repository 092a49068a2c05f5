import IsoLiteral.Proofs.Syntax.View

/-!
# Reading parts of the grammar

The ways in which the productions of the grammar put their parts together, as readings. Where a production
goes through the items of a list, the reading has one form for all lists: commas are passed over, and what
is neither a comma, nor the start of an item, nor a token at which the list ends, is a failure.
-/

namespace IsoLiteral.Parser

/-! ## Items of a list -/

namespace Reading

/-- One round of a list: nothing at its end, a comma, or an item. -/
def round (close : SyntaxKind) (isItem isStop : SyntaxKind → Bool) (item : Reading Unit) :
    Reading Bool := do
  if ← atEnd then return false
  else if ← currentlyIs close then return false
  else
    let kind ← current
    if kind = .comma then
      bump
      return true
    else if isItem kind then
      item
      return true
    else if isStop kind then return false
    else fail

/-- A reading that takes a token or does nothing. -/
def Moves (m : Reading Unit) : Prop :=
  ∀ w a w', w.tokens ≠ [] → m w = some (a, w') → w' = w ∨ w'.tokens.length < w.tokens.length

/-- A reading that takes a token. -/
def Takes (m : Reading Unit) : Prop :=
  ∀ w a w', w.tokens ≠ [] → m w = some (a, w') → w'.tokens.length < w.tokens.length

theorem Takes.moves {m : Reading Unit} (takes : Takes m) : Moves m :=
  fun w a w' some eq => .inr (takes w a w' some eq)

theorem Takes.bind {m : Reading Unit} {k : Unit → Reading Unit} (first : Takes m)
    (rest : ∀ a, (k a).Shrinks) : Takes (m >>= k) := by
  intro w a w' nonempty eq
  obtain ⟨⟨b, u⟩, here, there⟩ := Option.bind_eq_some_iff.1 eq
  have fewer := first w b u nonempty here
  have kept := rest b u a w' there
  exact Nat.lt_of_le_of_lt kept fewer

theorem Takes.node {m : Reading Unit} (takes : Takes m) (kind : SyntaxKind) :
    Takes (Reading.node kind m) := by
  intro w a w' nonempty eq
  obtain ⟨⟨b, u⟩, here, there⟩ := Option.bind_eq_some_iff.1 eq
  cases there
  exact takes ⟨w.tokens, []⟩ b u nonempty here

theorem Takes.ite {m m' : Reading Unit} {c : Prop} [Decidable c] (yes : Takes m) (no : Takes m') :
    Takes (if c then m else m') := by
  split
  · exact yes
  · exact no

/-- Looking before taking a token. -/
theorem Takes.look {α : Type} {k : α → Reading Unit} {f : View → α} (h : ∀ a, Takes (k a)) :
    Takes ((fun w => some (f w, w)) >>= k) :=
  fun w a w' nonempty eq => h (f w) w a w' nonempty eq

theorem takes_bumpAs (kind : SyntaxKind) : Takes (bumpAs kind) := by
  intro w a w' nonempty eq
  obtain ⟨tokens, built⟩ := w
  cases tokens with
  | nil => exact absurd rfl nonempty
  | cons t rest =>
    cases eq
    exact Nat.lt_succ_self _

theorem takes_bump : Takes bump := by
  intro w a w' nonempty eq
  rw [← bumpAs_headKind] at eq
  exact takes_bumpAs _ w a w' nonempty eq

@[simp] theorem bind_apply {α β : Type} (m : Reading α) (k : α → Reading β) (w : View) :
    (m >>= k) w = (m w).bind fun next => k next.1 next.2 := rfl

@[simp] theorem pure_apply {α : Type} (a : α) (w : View) : (Pure.pure a : Reading α) w = some (a, w) :=
  rfl

@[simp] theorem ite_apply {α : Type} {c : Prop} [Decidable c] (m m' : Reading α) (w : View) :
    (if c then m else m') w = if c then m w else m' w := by
  split <;> rfl

@[simp] theorem fail_apply {α : Type} (w : View) : (fail : Reading α) w = none := rfl

@[simp] theorem current_apply (w : View) : current w = some (headKind w.tokens, w) := rfl

@[simp] theorem currentlyIs_apply (kind : SyntaxKind) (w : View) :
    currentlyIs kind w = some (decide (headKind w.tokens = kind), w) := rfl

@[simp] theorem currentlyIn_apply (kinds : TokenSet) (w : View) :
    currentlyIn kinds w = some (kinds.contains (headKind w.tokens), w) := rfl

@[simp] theorem atEnd_apply (w : View) : atEnd w = some (w.tokens.isEmpty, w) := rfl

@[simp] theorem bump_cons (t : Token) (rest : List Token) (built : List Tree) :
    bump ⟨t :: rest, built⟩ = some ((), ⟨rest, built ++ [.token t]⟩) := rfl

@[simp] theorem headKind_cons (t : Token) (rest : List Token) : headKind (t :: rest) = t.kind := rfl

@[simp] theorem headKind_nil : headKind [] = .error := rfl

theorem round_nil (close : SyntaxKind) (isItem isStop : SyntaxKind → Bool) (item : Reading Unit)
    (built : List Tree) : round close isItem isStop item ⟨[], built⟩ = some (false, ⟨[], built⟩) := rfl

/-- A round at a token. -/
theorem round_cons (close : SyntaxKind) (isItem isStop : SyntaxKind → Bool) (item : Reading Unit)
    (t : Token) (rest : List Token) (built : List Tree) :
    round close isItem isStop item ⟨t :: rest, built⟩ =
      if t.kind = close then some (false, ⟨t :: rest, built⟩)
      else if t.kind = .comma then some (true, ⟨rest, built ++ [.token t]⟩)
      else if isItem t.kind then (item ⟨t :: rest, built⟩).map fun next => (true, next.2)
      else if isStop t.kind then some (false, ⟨t :: rest, built⟩)
      else none := by
  simp only [round, bind_apply, atEnd_apply, Option.bind_some, List.isEmpty_cons, Bool.false_eq_true,
    reduceIte, currentlyIs_apply, headKind_cons, ite_apply, pure_apply, decide_eq_true_eq, current_apply,
    bump_cons, fail_apply]
  cases item ⟨t :: rest, built⟩ <;> rfl

theorem advances_round {close : SyntaxKind} {isItem isStop : SyntaxKind → Bool} {item : Reading Unit}
    (moves : Moves item) : Advances (round close isItem isStop item) := by
  intro w w' took
  obtain ⟨tokens, built⟩ := w
  cases tokens with
  | nil => rw [round_nil] at took; cases took
  | cons t rest =>
    rw [round_cons] at took
    split at took
    · cases took
    · split at took
      · cases took
        exact .inr (Nat.lt_succ_self _)
      · split at took
        · obtain ⟨next, here, same⟩ := Option.map_eq_some_iff.1 took
          cases same
          exact moves _ _ _ (by simp) here
        · split at took <;> cases took

end Reading

/-- The rounds of a list, once it is known what a production does at each kind of token. -/
theorem follows_round {m : Reading Unit} {isItem isStop : SyntaxKind → Bool}
    {close : SyntaxKind} {choose : SyntaxKind → Parser Bool}
    (chosen : ∀ kind, Follows (choose kind)
      (if kind = .comma then (do Reading.bump; return true)
        else if isItem kind then (do m; return true)
        else if isStop kind then Pure.pure false
        else Reading.fail)) :
    Follows (do
      if ← shouldStop then return false
      else if ← currentlyIs close then return false
      else choose (← current)) (Reading.round close isItem isStop m) :=
  follows_shouldStop.bind fun _ => .ite (.pure false)
    ((follows_currentlyIs close).bind fun _ => .ite (.pure false) (follows_current.bind chosen))

/-! ## Parts that may be missing -/

namespace Reading

/-- Runs `m` if the current token may start it. -/
def whenAt (first : SyntaxKind → Bool) (m : Reading Unit) : Reading Unit := do
  if first (← current) then
    m

/-- Runs `m`, which has to start with the current token. -/
def requireAt (first : SyntaxKind → Bool) (m : Reading Unit) : Reading Unit := do
  if first (← current) then
    m
  else
    fail

/-- Runs `m₁` if the current token may start it, and `m₂` otherwise. -/
def branch (first : SyntaxKind → Bool) (m₁ m₂ : Reading Unit) : Reading Unit := do
  if first (← current) then
    m₁
  else
    m₂

/-- Runs `m` if the current token may start it, and says whether it did. -/
def attempt (first : SyntaxKind → Bool) (m : Reading Unit) : Reading Bool := do
  if first (← current) then
    m
    return true
  else
    return false

/-- Runs `m` for as long as the current token may start it. -/
def whileAt (first : SyntaxKind → Bool) (m : Reading Unit) : Reading Unit := loop (attempt first m)

/-- A node that holds the items of a list between its delimiters. -/
def enclosed (nodeKind close : SyntaxKind) (isItem isStop : SyntaxKind → Bool) (item : Reading Unit) :
    Reading Unit :=
  delimited nodeKind close (loop (round close isItem isStop item))

theorem whenAt_apply (first : SyntaxKind → Bool) (m : Reading Unit) (w : View) :
    whenAt first m w = if first (headKind w.tokens) then m w else some ((), w) := by
  simp only [whenAt, bind_apply, current_apply, Option.bind_some, ite_apply, pure_apply]

theorem requireAt_apply (first : SyntaxKind → Bool) (m : Reading Unit) (w : View) :
    requireAt first m w = if first (headKind w.tokens) then m w else none := by
  simp only [requireAt, bind_apply, current_apply, Option.bind_some, ite_apply, fail_apply]

theorem branch_apply (first : SyntaxKind → Bool) (m₁ m₂ : Reading Unit) (w : View) :
    branch first m₁ m₂ w = if first (headKind w.tokens) then m₁ w else m₂ w := by
  simp only [branch, bind_apply, current_apply, Option.bind_some, ite_apply]

theorem attempt_apply (first : SyntaxKind → Bool) (m : Reading Unit) (w : View) :
    attempt first m w =
      if first (headKind w.tokens) then (m w).map fun next => (true, next.2) else some (false, w) := by
  simp only [attempt, bind_apply, current_apply, Option.bind_some, ite_apply, pure_apply]
  cases m w <;> rfl

theorem whileAt_apply_of_not {first : SyntaxKind → Bool} {w : View}
    (other : first (headKind w.tokens) = false) (m : Reading Unit) :
    whileAt first m w = some ((), w) := by
  simp only [whileAt, loop, repeatStep, bind_apply, attempt_apply, other, Bool.false_eq_true, reduceIte,
    Option.bind_some, pure_apply]

/-- Taking a token, once it is known whether it can be taken. -/
@[simp] theorem eat_apply (kind : SyntaxKind) (w : View) :
    eat kind w =
      if headKind w.tokens = kind then (bump w).map fun next => (true, next.2) else some (false, w) := by
  simp only [eat, bind_apply, currentlyIs_apply, Option.bind_some, ite_apply, decide_eq_true_eq,
    pure_apply]
  cases bump w <;> rfl

@[simp] theorem take_apply (kind : SyntaxKind) (w : View) :
    take kind w = if headKind w.tokens = kind then bump w else none := by
  rw [take, bind_apply, eat_apply]
  split
  · cases bump w <;> rfl
  · rfl

end Reading

section Parts

variable {p : Parser Unit} {m : Reading Unit}

theorem Follows.whenIs (h : Follows p m) (kind : SyntaxKind) :
    Follows (do if ← currentlyIs kind then p) (Reading.whenAt (· = kind) m) :=
  .congr ((follows_currentlyIs kind).bind fun _ => .ite h (.pure ())) fun _ => rfl

theorem Follows.requireIs (h : Follows p m) (kind : SyntaxKind) (missing : DiagnosticKind)
    (what : String) :
    Follows (do if ← currentlyIs kind then p else errorExpected missing what)
      (Reading.requireAt (· = kind) m) :=
  .congr ((follows_currentlyIs kind).bind fun _ => .ite h (follows_errorExpected _ _)) fun _ => rfl

theorem Follows.requireIn (h : Follows p m) (kinds : TokenSet) (missing : DiagnosticKind)
    (what : String) :
    Follows (do if ← currentlyIn kinds then p else errorExpected missing what)
      (Reading.requireAt kinds.contains m) :=
  .congr ((follows_currentlyIn kinds).bind fun _ => .ite h (follows_errorExpected _ _)) fun _ => rfl

/-- A part that may be missing, with what comes after it. -/
theorem Follows.when {test : Parser Bool} {t : Reading Bool} (look : Follows test t) (h : Follows p m)
    {q : Unit → Parser Unit} {k : Unit → Reading Unit} (rest : ∀ u, Follows (q u) (k u)) :
    Follows (do if ← test then (do q (← p)) else q ()) ((do if ← t then m) >>= k) := by
  refine .congr (look.bind fun _ => .ite (h.bind rest) (rest ())) fun w => ?_
  simp only [Reading.bind_apply, Reading.ite_apply, Reading.pure_apply]
  cases t w with
  | none => rfl
  | some next =>
    simp only [Option.bind_some]
    split <;> rfl

/-- A part that has to be there, with what comes after it. -/
theorem Follows.require {test : Parser Bool} {t : Reading Bool} (look : Follows test t) (h : Follows p m)
    {e : Parser Unit} (missing : Follows e Reading.fail) {q : Unit → Parser Unit} {k : Unit → Reading Unit}
    (rest : ∀ u, Follows (q u) (k u)) :
    Follows (do if ← test then (do q (← p)) else (do q (← e)))
      ((do if ← t then m else Reading.fail) >>= k) := by
  refine .congr (look.bind fun _ => .ite (h.bind rest)
    (missing.fail_then fun u => (rest u).mono)) fun w => ?_
  simp only [Reading.bind_apply, Reading.ite_apply, Reading.fail_apply]
  cases t w with
  | none => rfl
  | some next =>
    simp only [Option.bind_some]
    split <;> rfl

/-- What comes after a token that has to be there. -/
theorem Follows.whenExpected {q : Parser Bool} {kind : SyntaxKind}
    (took : Follows q (Reading.expect kind)) (h : Follows p m) :
    Follows (do if ← q then p) (do Reading.take kind; m) := by
  refine .congr (took.bind fun _ => .ite h (.pure ())) fun w => ?_
  simp only [Reading.expect, Reading.bind_apply, Reading.eat_apply, Reading.take_apply]
  split
  · cases Reading.bump w <;> rfl
  · rfl

theorem follows_discard_expected {q : Parser Bool} {kind : SyntaxKind}
    (took : Follows q (Reading.expect kind)) : Follows (discard q) (Reading.take kind) := by
  refine .congr (took.bind fun _ => .pure ()) fun w => ?_
  simp only [Reading.expect, Reading.bind_apply, Reading.eat_apply, Reading.take_apply]
  split
  · cases Reading.bump w <;> rfl
  · rfl

theorem Reading.shrinks_take (kind : SyntaxKind) : (take kind).Shrinks :=
  (follows_discard_expected (follows_expect kind "")).shrinks

theorem Reading.takes_delimited {body : Reading Unit} (shrinks : body.Shrinks)
    (nodeKind close : SyntaxKind) : (delimited nodeKind close body).Takes :=
  (takes_bump.bind fun _ => shrinks.bind fun _ => shrinks_take close).node nodeKind

theorem Follows.whileAt {p : Parser Bool} {first : SyntaxKind → Bool}
    (h : Follows p (Reading.attempt first m))
    (nothing : first .error = false) (takes : m.Takes) :
    Follows (Parser.loop p) (Reading.whileAt first m) := by
  refine h.loop fun w w' took => ?_
  rw [Reading.attempt_apply] at took
  split at took
  · rename_i starts
    obtain ⟨⟨a, u⟩, here, there⟩ := Option.map_eq_some_iff.1 took
    cases there
    refine .inr (takes w a u (fun empty => ?_) here)
    rw [empty, Reading.headKind_nil, nothing] at starts
    cases starts
  · cases took

theorem Follows.enclosed {p : Parser Bool} {isItem isStop : SyntaxKind → Bool} {close : SyntaxKind}
    (h : Follows p (Reading.round close isItem isStop m)) (moves : m.Moves)
    (nodeKind : SyntaxKind) (kind : DiagnosticKind) (construct : String) :
    Follows (Parser.delimited nodeKind close kind construct (Parser.loop p))
      (Reading.enclosed nodeKind close isItem isStop m) :=
  (h.loop (Reading.advances_round moves)).delimited nodeKind close kind construct

end Parts

end IsoLiteral.Parser
