import IsoLiteral.Proofs.Syntax.Progress

/-!
# The course of a run

Where a run of the grammar puts trivia and what it charges its diagnostics to depends on what it does next:
trivia are put into the tree only when a token follows them there, a node but for the target of a declaration
starts at a token that matters, and a diagnostic is charged to the next token. A course says that much of a
run, nested as the nodes and the delimiters are, so that what holds of the trees and of the diagnostics is an
induction on it.

Every production runs a course, under any limits and whether or not it runs into a fault. Some fill the node
they are in with a token at least; they are the ones that trivia may be put in front of.
-/

namespace IsoLiteral.Parser

/-- The next token, if there is one, is no trivia. -/
def State.Settled (s : State) : Prop := ∀ t ∈ s.rest.head?, t.isTrivia = false

/-- The bytes of the next token, or no bytes at the end of the literal. -/
def State.here (s : State) : TextRange := (s.rest.head?.map Token.range).getD (TextRange.empty s.length)

/-- The state after a diagnostic was charged to the next token. -/
def State.charged (s : State) (d : Diagnostic) : State :=
  { s with lastErrorAt := some s.here.start, diagnostics := s.diagnostics ++ [d] }

/-- How many leaves the innermost open node holds. -/
def State.held (s : State) : Nat := (Tree.tokensOf s.built).length

/-- What a run does to the state from one point to a later one at which the same nodes are open. -/
inductive Course : State → State → Prop
  | refl (s : State) : Course s s
  | trans {s u s' : State} (first : Course s u) (second : Course u s') : Course s s'
  | settle (s : State) : Course s (settle s).2
  /-- Counting and failing show neither in the tree nor in the diagnostics. -/
  | idle (s : State) (depth patience : Nat) (exceeded : Option LimitError) (fault : Option GrammarFault) :
    Course s { s with depth, patience, exceeded, fault }
  | take {s : State} {t : Token} {rest : List Token} {leaf : SyntaxKind} (here : s.rest = t :: rest)
    (solid : t.isTrivia = false) (becomes : leaf.isTrivia = false) : Course s (s.taken t rest leaf)
  | charge {s : State} (settled : s.Settled) (fresh : s.lastErrorAt ≠ some s.here.start)
    (kind : DiagnosticKind) (detail : String) :
    Course s (s.charged ((Diagnostic.located s.source kind s.here).withDetail detail))
  /-- What is opened by a token and not closed is reported from that token on. -/
  | unclosed {s u : State} {t : Token} {rest : List Token} {leaf : SyntaxKind} (here : s.rest = t :: rest)
    (solid : t.isTrivia = false) (becomes : leaf.isTrivia = false) (inside : Course (s.taken t rest leaf) u)
    (settled : u.Settled) (fresh : u.lastErrorAt ≠ some u.here.start) (kind : DiagnosticKind)
    (message : String) :
    Course s (u.charged ((Diagnostic.located u.source kind ⟨t.start, max u.lastStop t.stop⟩).relatedTo
      message t.range))
  /-- Trivia are put into the tree in front of a token. -/
  | flush {s u : State} (run : Course (flush s).2 u) (fills : (flush s).2.held < u.held) : Course s u
  /-- A node takes in what was built since `s`. -/
  | node {s v u : State} {since : List Tree} {kind : SyntaxKind} (base : Course s v)
    (built : v.built = s.built ++ since)
    (inside : Course { v with built := since, enclosing := (kind, s.built) :: s.enclosing } u)
    (trim : kind = .declTarget ∨ s.pending = [] ∧ s.Settled ∧ Tree.tokensOf u.built ≠ []) :
    Course s { u with built := s.built ++ [.node kind u.built], enclosing := s.enclosing }

/-! ## What a course keeps -/

theorem built_taken (s : State) (t : Token) (rest : List Token) (leaf : SyntaxKind) :
    (s.taken t rest leaf).built = s.built ++ (s.pending.map Tree.token ++ [.token { t with kind := leaf }]) := by
  rw [State.taken, flush_spendFuel, List.append_assoc]

theorem kept_taken (s : State) (t : Token) (rest : List Token) (leaf : SyntaxKind) :
    Kept s (s.taken t rest leaf) where
  reports dirty := by rwa [State.taken, flush_spendFuel]
  enclosing := by rw [State.taken, flush_spendFuel]
  built := by
    rw [built_taken]
    exact List.prefix_append _ _

theorem kept_charged (s : State) (d : Diagnostic) : Kept s (s.charged d) where
  reports _ := List.append_ne_nil_of_right_ne_nil _ (List.cons_ne_nil d [])
  enclosing := rfl
  built := List.prefix_rfl

/-- The nodes that were open stay open, and what was built in the innermost stays. -/
theorem Course.kept {s s' : State} (course : Course s s') : Kept s s' := by
  induction course with
  | refl s => exact ⟨id, rfl, List.prefix_rfl⟩
  | trans _ _ first second => exact first.trans second
  | settle s => exact keeps_settle s
  | idle s => exact ⟨id, rfl, List.prefix_rfl⟩
  | take => exact kept_taken _ _ _ _
  | charge => exact kept_charged _ _
  | unclosed _ _ _ _ _ _ _ _ inside => exact ((kept_taken _ _ _ _).trans inside).trans (kept_charged _ _)
  | flush _ _ run => exact (keeps_flush _).trans run
  | node _ _ _ _ base inside =>
    exact ⟨fun dirty => inside.reports (base.reports dirty), rfl, List.prefix_append _ _⟩

theorem Kept.held_le {s s' : State} (kept : Kept s s') : s.held ≤ s'.held := by
  obtain ⟨added, built⟩ := kept.built
  rw [State.held, State.held, ← built, Tree.tokensOf_append, List.length_append]
  exact Nat.le_add_right _ _

theorem Course.held_le {s s' : State} (course : Course s s') : s.held ≤ s'.held := course.kept.held_le

/-! ## Runs -/

/-- The tokens ahead satisfy a condition. -/
def Ahead (pre : List Token → Prop) (s : State) : Prop := pre s.ahead

/-- The tokens ahead satisfy a condition, and the first of them is next. -/
def Facing (pre : List Token → Prop) (s : State) : Prop := s.Settled ∧ pre s.ahead

/-- From every state that satisfies `pre`, a production runs a course. -/
structure Runs {α : Type} (pre : State → Prop) (p : Parser α) : Prop where
  course : ∀ s, pre s → Course s (p s).2

/-- A run that takes a token into the node that is open. -/
structure Fills {α : Type} (pre : State → Prop) (p : Parser α) : Prop extends Runs pre p where
  gains : ∀ s, pre s → s.held < (p s).2.held

section Runs

variable {α β : Type} {p p' : Parser α} {q : α → Parser β} {pre pre' : State → Prop}

theorem Runs.pure (a : α) : Runs pre (Pure.pure a) := ⟨fun s _ => .refl s⟩

theorem Runs.given (h : Runs pre p) (imp : ∀ s, pre' s → pre s) : Runs pre' p :=
  ⟨fun s holds => h.course s (imp s holds)⟩

theorem Fills.given (h : Fills pre p) (imp : ∀ s, pre' s → pre s) : Fills pre' p :=
  { h.toRuns.given imp with gains := fun s holds => h.gains s (imp s holds) }

theorem Runs.anywhere (h : Runs (Ahead ⊤) p) : Runs pre p := h.given fun _ _ => trivial

theorem Runs.bind (first : Runs pre p) (rest : ∀ a, Runs (Ahead ⊤) (q a)) : Runs pre (p >>= q) :=
  ⟨fun s holds => (first.course s holds).trans ((rest _).course _ trivial)⟩

/-- Once a token is taken, the rest need not take one. -/
theorem Fills.bind (first : Fills pre p) (rest : ∀ a, Runs (Ahead ⊤) (q a)) : Fills pre (p >>= q) where
  course := (first.toRuns.bind rest).course
  gains s holds := (first.gains s holds).trans_le ((rest _).course _ trivial).held_le

/-- Nothing is to be shown where no state satisfies the condition. -/
theorem Fills.never (never : ∀ s, ¬ pre s) : Fills pre p :=
  { course := fun s holds => absurd holds (never s), gains := fun s holds => absurd holds (never s) }

end Runs

/-! ## Looks -/

/-- A computation that takes no token, passes over trivia, and tells something about the tokens ahead. -/
structure Glance {α : Type} (p : Parser α) (info : α → List Token → Prop) : Prop where
  course : ∀ s, Course s (p s).2
  settled : ∀ s, (p s).2.Settled
  ahead : ∀ s, (p s).2.ahead = s.ahead
  tells : ∀ s, info (p s).1 s.ahead

section Glance

variable {α β : Type} {p p' : Parser β} {peek : Parser α} {q : α → Parser β} {pre : List Token → Prop}
  {info : α → List Token → Prop}

theorem Looks.glance {cost : Nat} (h : Looks cost peek info) (course : ∀ s, Course s (peek s).2)
    (settled : ∀ s, (peek s).2.Settled) : Glance peek info where
  course := course
  settled := settled
  ahead := h.ahead
  tells := h.tells

/-- What a look tells is known afterwards. -/
theorem Glance.told (h : Glance peek info) {s : State} (holds : pre s.ahead) :
    Facing (fun v => pre v ∧ info (peek s).1 v) (peek s).2 := by
  refine ⟨h.settled s, ?_⟩
  rw [h.ahead]
  exact ⟨holds, h.tells s⟩

theorem Runs.look (h : Glance peek info) (rest : ∀ a, Runs (Facing fun v => pre v ∧ info a v) (q a)) :
    Runs (Ahead pre) (peek >>= q) :=
  ⟨fun s holds => (h.course s).trans ((rest _).course _ (h.told holds))⟩

theorem Fills.look (h : Glance peek info) (rest : ∀ a, Fills (Facing fun v => pre v ∧ info a v) (q a)) :
    Fills (Ahead pre) (peek >>= q) where
  course := (Runs.look h fun a => (rest a).toRuns).course
  gains s holds := (h.course s).held_le.trans_lt ((rest _).gains _ (h.told holds))

/-- A choice by what a look tells. -/
theorem Runs.test {test : Parser Bool} {info : Bool → List Token → Prop} (h : Glance test info)
    (yes : Runs (Facing fun v => pre v ∧ info true v) p) (no : Runs (Facing fun v => pre v ∧ info false v) p') :
    Runs (Ahead pre) (do if ← test then p else p') := by
  refine .look h fun here => ?_
  cases here with
  | true => exact yes
  | false => exact no

theorem Fills.test {test : Parser Bool} {info : Bool → List Token → Prop} (h : Glance test info)
    (yes : Fills (Facing fun v => pre v ∧ info true v) p)
    (no : Fills (Facing fun v => pre v ∧ info false v) p') :
    Fills (Ahead pre) (do if ← test then p else p') := by
  refine .look h fun here => ?_
  cases here with
  | true => exact yes
  | false => exact no

/-- Where the next token does not matter, neither does the place of the trivia. -/
theorem Runs.facing {P P' : List Token → Prop} (h : Runs (Ahead P) p) (imp : ∀ v, P' v → P v) :
    Runs (Facing P') p := h.given fun _ holds => imp _ holds.2

theorem Fills.facing {P P' : List Token → Prop} (h : Fills (Ahead P) p) (imp : ∀ v, P' v → P v) :
    Fills (Facing P') p := h.given fun _ holds => imp _ holds.2

end Glance

theorem Glance.runs {α : Type} {p : Parser α} {info : α → List Token → Prop} (h : Glance p info)
    {pre : State → Prop} : Runs pre p := ⟨fun s _ => h.course s⟩

theorem settled_settle (s : State) : (settle s).2.Settled := by
  intro t first
  obtain ⟨rest, left⟩ := List.head?_eq_some_iff.1 first
  exact not_isTrivia_of_dropWhile left

theorem course_blame (fault : GrammarFault) (s : State) : Course s (blame fault s).2 :=
  .idle s s.depth s.patience s.exceeded _

theorem course_lookAhead (s : State) : Course s (lookAhead s).2 := by
  rw [lookAhead_eq]
  split
  · exact course_blame _ s
  · exact .idle s s.depth _ s.exceeded s.fault

theorem course_peek (s : State) : Course s (lookAhead (settle s).2).2 := (Course.settle s).trans (course_lookAhead _)

theorem settled_peek (s : State) : (lookAhead (settle s).2).2.Settled := by
  intro t first
  rw [rest_lookAhead] at first
  exact settled_settle s t first

theorem glance_current : Glance current fun kind v => headKind v = kind :=
  looks_current.glance course_peek settled_peek

theorem glance_currentText : Glance currentText fun text v => (v.head?.map Token.text).getD "" = text :=
  looks_currentText.glance .settle settled_settle

theorem glance_currentlyIs (kind : SyntaxKind) :
    Glance (currentlyIs kind) fun here v => here = true ↔ headKind v = kind :=
  (looks_currentlyIs kind).glance course_peek settled_peek

theorem glance_currentlyIn (kinds : TokenSet) :
    Glance (currentlyIn kinds) fun here v => kinds.contains (headKind v) = here :=
  (looks_currentlyIn kinds).glance course_peek settled_peek

theorem glance_nextIs (kind : SyntaxKind) :
    Glance (nextIs kind) fun here v => here = true ↔ v[1]?.map Token.kind = some kind :=
  (looks_nextIs kind).glance course_peek settled_peek

theorem glance_shouldStop : Glance shouldStop fun stop v => stop = false → v ≠ [] :=
  looks_shouldStop.glance .settle settled_settle

theorem glance_atKeyword (keyword : String) :
    Glance (atKeyword keyword) fun here v => here = true → AtWord keyword v := by
  have run (s : State) : atKeyword keyword s = (if (currentlyIs .identifier s).1 = true then
      (do return decide ((← currentText) = keyword)) else Pure.pure false : Parser Bool)
        (currentlyIs .identifier s).2 := rfl
  refine (looks_atKeyword keyword).glance (fun s => ?_) fun s => ?_
  · rw [run]
    split
    · exact (course_peek s).trans (.settle _)
    · exact course_peek s
  · rw [run]
    split
    · exact settled_settle _
    · exact settled_peek s

/-- A report is charged to the next token, unless that was charged before. -/
theorem errorHere_eq (kind : DiagnosticKind) (detail : String) (s : State) :
    (errorHere kind detail s).2 =
      if (settle s).2.lastErrorAt = some (settle s).2.here.start then (settle s).2
      else (settle s).2.charged ((Diagnostic.located s.source kind (settle s).2.here).withDetail detail) := by
  show ((if (claim (settle s).2.here.start (settle s).2).1 = true then
      (do report ((Diagnostic.located (← get).source kind (settle s).2.here).withDetail detail))
      else Pure.pure () : Parser Unit) (claim (settle s).2.here.start (settle s).2).2).2 = _
  rw [claim_eq]
  split <;> rfl

theorem course_errorHere (kind : DiagnosticKind) (detail : String) (s : State) :
    Course s (errorHere kind detail s).2 := by
  refine (Course.settle s).trans ?_
  rw [errorHere_eq]
  split
  · exact .refl _
  · rename_i fresh
    exact .charge (settled_settle s) fresh kind detail

theorem settled_errorHere (kind : DiagnosticKind) (detail : String) (s : State) :
    (errorHere kind detail s).2.Settled := by
  rw [errorHere_eq]
  split <;> exact settled_settle s

theorem exceeded_errorHere (kind : DiagnosticKind) (detail : String) (s : State) :
    (errorHere kind detail s).2.exceeded = s.exceeded := by
  rw [errorHere_eq]
  split <;> rfl

theorem glance_errorHere (kind : DiagnosticKind) (detail : String) :
    Glance (errorHere kind detail) fun _ _ => True :=
  (looks_errorHere kind detail).glance (course_errorHere kind detail) (settled_errorHere kind detail)

theorem glance_errorExpected (kind : DiagnosticKind) (what : String) :
    Glance (errorExpected kind what) fun _ _ => True :=
  (looks_errorExpected kind what).glance (fun s => (Course.settle s).trans (course_errorHere _ _ _))
    fun _ => settled_errorHere _ _ _

theorem glance_assertCurrent (kind : SyntaxKind) : Glance (assertCurrent kind) fun _ _ => True := by
  have run (s : State) : assertCurrent kind s = (if (!(currentlyIs kind s).1) = true then
      blame (.misplaced kind) else Pure.pure () : Parser Unit) (currentlyIs kind s).2 := rfl
  have look := glance_currentlyIs kind
  refine ⟨fun s => ?_, fun s => ?_, fun s => ?_, fun _ => trivial⟩
  · rw [run]
    split
    · exact (look.course s).trans (course_blame _ _)
    · exact look.course s
  · rw [run]
    split <;> exact look.settled s
  · rw [run]
    split <;> exact look.ahead s

/-- A choice between continuations that run from anywhere. -/
theorem Runs.either {α : Type} {test : Parser Bool} {p p' : Parser α} (h : Runs (Ahead ⊤) test)
    (yes : Runs (Ahead ⊤) p) (no : Runs (Ahead ⊤) p') : Runs (Ahead ⊤) (do if ← test then p else p') := by
  refine h.bind fun here => ?_
  cases here with
  | true => exact yes
  | false => exact no

/-! ## Taking tokens -/

theorem held_taken (s : State) (t : Token) (rest : List Token) (leaf : SyntaxKind) :
    s.held < (s.taken t rest leaf).held := by
  rw [State.held, State.held, built_taken, Tree.tokensOf_append, Tree.tokensOf_append, Tree.tokensOf_singleton,
    Tree.tokens]
  simp only [List.length_append, List.length_singleton]
  omega

theorem runs_bumpAs {kind : SyntaxKind} (solid : kind.isTrivia = false) : Runs (Ahead ⊤) (bumpAs kind) where
  course s _ := by
    cases ahead : s.ahead with
    | nil =>
      rw [bumpAs_of_nil ahead]
      exact .settle s
    | cons t rest =>
      obtain ⟨left, here, real, run⟩ := bumpAs_of_cons ahead kind
      rw [run]
      exact (Course.settle s).trans (.take here real solid)

theorem fills_bumpAs {kind : SyntaxKind} (solid : kind.isTrivia = false) :
    Fills (Ahead (· ≠ [])) (bumpAs kind) where
  course s _ := (runs_bumpAs solid).course s trivial
  gains s some := by
    obtain ⟨t, rest, ahead⟩ := List.exists_cons_of_ne_nil some
    obtain ⟨left, -, -, run⟩ := bumpAs_of_cons ahead kind
    rw [run]
    exact held_taken (settle s).2 t left kind

theorem not_isTrivia_current (s : State) : (current s).1.isTrivia = false :=
  looks_current.tells s ▸ not_isTrivia_headKind s

theorem runs_bump : Runs (Ahead ⊤) bump where
  course s _ := (glance_current.course s).trans ((runs_bumpAs (not_isTrivia_current s)).course _ trivial)

/-- A token that is there is taken after it was looked at. -/
theorem bump_of_cons {s : State} {t : Token} {rest : List Token} (ahead : s.ahead = t :: rest) :
    ∃ u left, Course s u ∧ u.rest = t :: left ∧ t.isTrivia = false ∧ bump s = ((), u.taken t left t.kind) := by
  have kind : t.kind = (current s).1 := by
    have told := looks_current.tells s
    rwa [ahead] at told
  obtain ⟨left, here, solid, run⟩ := bumpAs_of_cons ((looks_current.ahead s).trans ahead) (current s).1
  refine ⟨_, left, (glance_current.course s).trans (.settle _), here, solid, ?_⟩
  rw [kind]
  exact run

theorem fills_bump : Fills (Ahead (· ≠ [])) bump where
  course s _ := runs_bump.course s trivial
  gains s some := by
    obtain ⟨t, rest, ahead⟩ := List.exists_cons_of_ne_nil some
    obtain ⟨u, left, course, -, -, run⟩ := bump_of_cons ahead
    rw [run]
    exact course.held_le.trans_lt (held_taken u t left t.kind)

theorem runs_eat (kind : SyntaxKind) : Runs (Ahead ⊤) (eat kind) :=
  .either (glance_currentlyIs kind).runs (runs_bump.bind fun _ => .pure true) (.pure false)

/-- A token that is there is taken. -/
theorem fills_eat {kind : SyntaxKind} (real : kind ≠ .error) : Fills (Ahead (headKind · = kind)) (eat kind) := by
  refine .test (glance_currentlyIs kind) ((fills_bump.facing fun v told => ?_).bind fun _ => .pure true)
    (.never fun s told => ?_)
  · exact ne_nil_of_headKind told.1 real
  · exact Bool.false_ne_true (told.2.2.2 told.2.1)

theorem runs_eatKeyword (keyword : String) {kind : SyntaxKind} (solid : kind.isTrivia = false) :
    Runs (Ahead ⊤) (eatKeyword keyword kind) :=
  .either (glance_atKeyword keyword).runs ((runs_bumpAs solid).bind fun _ => .pure true) (.pure false)

theorem runs_expect (kind : SyntaxKind) (what : String) : Runs (Ahead ⊤) (expect kind what) :=
  .either (runs_eat kind) (.pure true) ((glance_errorExpected _ _).runs.bind fun _ => .pure false)

theorem runs_expectName (what : String) : Runs (Ahead ⊤) (expectName what) :=
  .either (runs_eat .identifier) (.pure true) ((glance_errorExpected _ _).runs.bind fun _ => .pure false)

theorem fills_expectName (what : String) : Fills (Ahead (headKind · = .identifier)) (expectName what) := by
  refine (fills_eat (by decide)).bind fun eaten => ?_
  cases eaten with
  | true => exact .pure true
  | false => exact (glance_errorExpected _ _).runs.bind fun _ => .pure false

/-! ## Nodes and nesting -/

/-- A node that is filled has the trivia put in front of it. -/
theorem Fills.within {body : Parser Unit} {pre : State → Prop} (h : Fills pre body)
    (settled : ∀ s, pre s → s.Settled) {kind : SyntaxKind} (stable : ∀ s, pre s → pre (startNode kind s).2) :
    Fills pre (Parser.node kind body) := by
  have inside {s : State} (holds : pre s) : Course (startNode kind s).2 (body (startNode kind s).2).2 :=
    h.course _ (stable s holds)
  have some {s : State} (holds : pre s) : Tree.tokensOf (body (startNode kind s).2).2.built ≠ [] :=
    List.ne_nil_of_length_pos ((Nat.zero_le _).trans_lt (h.gains _ (stable s holds)))
  have held {s : State} (holds : pre s) : (Parser.flush s).2.held < (Parser.node kind body s).2.held := by
    rw [node_eq (inside holds).kept, State.held, State.held, Tree.tokensOf_append, Tree.tokensOf_singleton,
      Tree.tokens, List.length_append]
    exact Nat.lt_add_of_pos_right (List.length_pos_iff.2 (some holds))
  refine ⟨⟨fun s holds => .flush ?_ (held holds)⟩, fun s holds => (keeps_flush s).held_le.trans_lt (held holds)⟩
  rw [node_eq (inside holds).kept]
  exact .node (.refl (Parser.flush s).2) (List.append_nil _).symm (inside holds)
    (.inr ⟨rfl, settled s holds, some holds⟩)

theorem Fills.node {body : Parser Unit} {pre : List Token → Prop} (h : Fills (Facing pre) body)
    (kind : SyntaxKind) : Fills (Facing pre) (Parser.node kind body) :=
  h.within (fun _ facing => facing.1) fun _ facing => facing

/-- Going deeper and coming back. -/
theorem Runs.nested {body : Parser Unit} {pre : List Token → Prop} (h : Runs (Facing pre) body) :
    Runs (Facing pre) (Parser.nested body) where
  course s facing := by
    cases deep : s.maxDepth.any (· ≤ s.depth) with
    | true =>
      rw [nested_of_deep deep]
      exact .idle s s.depth s.patience _ s.fault
    | false =>
      rw [nested_of_shallow deep]
      have entered : Course s s.deeper := .idle s _ _ s.exceeded s.fault
      have inside : Course s.deeper (body s.deeper).2 := h.course s.deeper facing
      exact (entered.trans inside).trans (.idle _ _ _ (body s.deeper).2.exceeded (body s.deeper).2.fault)

/-! ## Loops -/

theorem Runs.repeatStep {step : Parser Bool} (h : Runs (Ahead ⊤) step) :
    ∀ bound, Runs (Ahead ⊤) (Parser.repeatStep bound step)
  | 0 => ⟨fun s _ => course_blame _ s⟩
  | bound + 1 => by
    refine h.bind fun goes => ?_
    cases goes with
    | true => exact h.repeatStep bound
    | false => exact .pure ()

theorem Runs.loop {step : Parser Bool} (h : Runs (Ahead ⊤) step) : Runs (Ahead ⊤) (Parser.loop step) :=
  ⟨fun s _ => (h.repeatStep _).course s trivial⟩

/-- A round that goes by the kind of the next token, unless that closes the list. -/
theorem Runs.choose {close : SyntaxKind} {step : SyntaxKind → Parser Bool}
    (h : ∀ kind, Runs (Facing fun v => v ≠ [] ∧ headKind v = kind) (step kind)) :
    Runs (Ahead ⊤) (do
      if ← shouldStop then return false
      else if ← currentlyIs close then return false
      else step (← current)) := by
  refine .test glance_shouldStop (.pure false) (.facing (P := (· ≠ [])) ?_ fun v told => told.2 rfl)
  refine .test (glance_currentlyIs close) (.pure false) (.facing (P := (· ≠ [])) ?_ fun v told => told.1)
  exact .look glance_current h

/-- A loop whose first round takes a token. -/
theorem Fills.loop {step : Parser Bool} {pre : State → Prop} (first : Fills pre step)
    (h : Runs (Ahead ⊤) step) : Fills pre (Parser.loop step) where
  course s _ := h.loop.course s trivial
  gains s holds := by
    have rest (goes : Bool) : Runs (Ahead ⊤)
        (if goes = true then Parser.repeatStep s.rest.length step else Pure.pure ()) := by
      cases goes with
      | true => exact h.repeatStep _
      | false => exact .pure ()
    exact (first.bind rest).gains s holds

/-! ## Delimited constructs and recovery -/

/-- What a token opens is closed by another one or reported from the first one on. -/
theorem course_closeDelimiter {s u : State} {t : Token} {rest : List Token} {leaf : SyntaxKind}
    (here : s.rest = t :: rest) (solid : t.isTrivia = false) (becomes : leaf.isTrivia = false)
    (inside : Course (s.taken t rest leaf) u) (close : SyntaxKind) (kind : DiagnosticKind) (construct : String) :
    Course s (closeDelimiter t.range close kind construct u).2 := by
  have after : Course (s.taken t rest leaf) (eat close u).2 := inside.trans ((runs_eat close).course u trivial)
  have opened : Course s (eat close u).2 := .trans (.take here solid becomes) after
  show Course s ((if (!(eat close u).1) = true then (do
      let here ← currentRange
      if ← claim here.start then
        let v ← get
        report ((Diagnostic.located v.source kind ⟨t.range.start, max v.lastStop t.range.stop⟩).relatedTo
          (construct ++ " started here") t.range))
    else Pure.pure () : Parser Unit) (eat close u).2).2
  generalize eat close u = closed at after opened ⊢
  obtain ⟨eaten, v⟩ := closed
  cases eaten with
  | true => exact opened
  | false =>
    show Course s ((if (claim (settle v).2.here.start (settle v).2).1 = true then _
      else Pure.pure () : Parser Unit) (claim (settle v).2.here.start (settle v).2).2).2
    rw [claim_eq]
    by_cases old : (settle v).2.lastErrorAt = some (settle v).2.here.start
    · rw [if_pos old]
      exact opened.trans (.settle v)
    · rw [if_neg old]
      exact .unclosed here solid becomes (after.trans (.settle v)) (settled_settle v) old kind _

theorem currentRange_of_cons {s : State} {t : Token} {rest : List Token} (ahead : s.ahead = t :: rest) :
    currentRange s = (t.range, (settle s).2) := by
  show (((settle s).2.rest.head?.map Token.range).getD _, (settle s).2) = _
  rw [head?_settled, ahead]
  rfl

/-- What stands between delimiters may be anything that runs a course. -/
theorem Runs.delimited {body : Parser Unit} (h : Runs (Ahead ⊤) body) (nodeKind close : SyntaxKind)
    (kind : DiagnosticKind) (construct : String) :
    Fills (Facing (· ≠ [])) (Parser.delimited nodeKind close kind construct body) := by
  refine Fills.node ?_ nodeKind
  have run {s : State} (some : s.ahead ≠ []) : ∃ u t left, Course s u ∧ u.rest = t :: left ∧
      t.isTrivia = false ∧ (do
        let opener ← currentRange
        bump
        body
        closeDelimiter opener close kind construct : Parser Unit) s =
      closeDelimiter t.range close kind construct (body (u.taken t left t.kind)).2 := by
    obtain ⟨t, rest, ahead⟩ := List.exists_cons_of_ne_nil some
    obtain ⟨u, left, course, here, solid, taken⟩ := bump_of_cons ((ahead_settle s).trans ahead)
    refine ⟨u, t, left, (Course.settle s).trans course, here, solid, ?_⟩
    show (do bump; body; closeDelimiter (currentRange s).1 close kind construct : Parser Unit)
      (currentRange s).2 = _
    rw [currentRange_of_cons ahead]
    show (do body; closeDelimiter t.range close kind construct : Parser Unit) (bump (settle s).2).2 = _
    rw [taken]
    rfl
  have course {u : State} {t : Token} {left : List Token} (here : u.rest = t :: left)
      (solid : t.isTrivia = false) :=
    course_closeDelimiter here solid solid (h.course (u.taken t left t.kind) trivial) close kind construct
  constructor
  · constructor
    intro s facing
    obtain ⟨u, t, left, before, here, solid, same⟩ := run facing.2
    rw [same]
    exact before.trans (course here solid)
  · intro s facing
    obtain ⟨u, t, left, before, here, solid, same⟩ := run facing.2
    have inside := (h.course (u.taken t left t.kind) trivial).held_le
    have closed := (follows_closeDelimiter t.range close kind construct).mono (body (u.taken t left t.kind)).2
    rw [same]
    exact before.held_le.trans_lt ((held_taken u t left t.kind).trans_le (inside.trans closed.held_le))

theorem runs_skipStep (stops : TokenSet) : Runs (Ahead ⊤) (skipStep stops) :=
  .either glance_shouldStop.runs (.pure false) <| .either (glance_currentlyIn stops).runs (.pure false)
    (runs_bump.bind fun _ => .pure true)

/-- The next token is one that is to be skipped. -/
structure Skipped (stops : TokenSet) (s : State) : Prop where
  settled : s.Settled
  some : s.ahead ≠ []
  other : stops.contains (headKind s.ahead) = false
  within : s.exceeded = none

theorem fills_skipStep (stops : TokenSet) : Fills (Skipped stops) (skipStep stops) where
  course s _ := (runs_skipStep stops).course s trivial
  gains s skipped := by
    have round : Fills (Ahead fun v => v ≠ [] ∧ stops.contains (headKind v) = false) (do
        if ← currentlyIn stops then return false
        else
          bump
          return true) := by
      refine .test (glance_currentlyIn stops) (.never fun s told => ?_)
        ((fills_bump.facing fun v told => told.1.1).bind fun _ => .pure true)
      exact Bool.false_ne_true (told.2.1.2.symm.trans told.2.2)
    have going : (shouldStop s).1 = false := by
      rw [shouldStop_eq, skipped.within, List.isEmpty_eq_false_iff.2 skipped.some]
      rfl
    have run : skipStep stops s = (if (shouldStop s).1 = true then Pure.pure false else (do
        if ← currentlyIn stops then return false
        else
          bump
          return true) : Parser Bool) (settle s).2 := rfl
    rw [run, going, if_neg Bool.false_ne_true]
    refine (Course.settle s).held_le.trans_lt (round.gains (settle s).2 ?_)
    rw [Ahead, ahead_settle]
    exact ⟨skipped.some, skipped.other⟩

theorem exceeded_errorExpected (kind : DiagnosticKind) (what : String) (s : State) :
    (errorExpected kind what s).2.exceeded = s.exceeded := exceeded_errorHere kind _ (settle s).2

/-- An error node is filled with the tokens that are skipped. -/
theorem fills_swallow (kind : DiagnosticKind) (what : String) (stops : TokenSet) :
    Fills (Skipped stops) (node .error do errorExpected kind what; loop (skipStep stops)) := by
  have look := glance_errorExpected kind what
  have skipping := (fills_skipStep stops).loop (runs_skipStep stops)
  refine Fills.within ⟨⟨fun s _ => ?_⟩, fun s skipped => ?_⟩ (fun s skipped => skipped.settled)
    fun s skipped => ⟨skipped.settled, skipped.some, skipped.other, skipped.within⟩
  · exact (look.course s).trans ((runs_skipStep stops).loop.course _ trivial)
  · refine (look.course s).held_le.trans_lt (skipping.gains (errorExpected kind what s).2 ⟨look.settled s, ?_, ?_, ?_⟩)
    · rw [look.ahead]
      exact skipped.some
    · rw [look.ahead]
      exact skipped.other
    · rw [exceeded_errorExpected]
      exact skipped.within

/-- Where it is not time to stop, there is a token to take. -/
theorem going_of_shouldStop {s : State} (going : (shouldStop s).1 = false) : s.ahead ≠ [] ∧ s.exceeded = none := by
  rw [shouldStop_eq, Bool.or_eq_false_iff, List.isEmpty_eq_false_iff, Option.isSome_eq_false_iff,
    Option.isNone_iff_eq_none] at going
  exact going

theorem runs_recover (kind : DiagnosticKind) (what : String) (stops : TokenSet) :
    Runs (Ahead ⊤) (recover kind what stops) where
  course s _ := by
    have look := glance_currentlyIn stops
    have before := (look.course s).trans (.settle (currentlyIn stops s).2)
    refine before.trans ?_
    show Course (settle (currentlyIn stops s).2).2
      ((if ((currentlyIn stops s).1 || (shouldStop (currentlyIn stops s).2).1) = true then errorExpected kind what
        else node .error do errorExpected kind what; loop (skipStep stops) : Parser Unit)
          (settle (currentlyIn stops s).2).2).2
    cases reached : (currentlyIn stops s).1 || (shouldStop (currentlyIn stops s).2).1 with
    | true => exact (glance_errorExpected kind what).course _
    | false =>
      obtain ⟨other, going⟩ := Bool.or_eq_false_iff.1 reached
      obtain ⟨some, within⟩ := going_of_shouldStop going
      refine (fills_swallow kind what stops).course _ ⟨settled_settle _, ?_, ?_, within⟩
      · rwa [ahead_settle]
      · rw [ahead_settle, look.ahead, look.tells s, other]

theorem runs_skipUnexpected (what : String) : Runs (Ahead ⊤) (skipUnexpected what) := by
  refine .look glance_currentText fun text => .facing (.look (glance_errorHere _ _) fun _ =>
    .facing (.look glance_shouldStop fun stop => ?_) fun _ _ => trivial) fun _ _ => trivial
  cases stop with
  | true => exact .pure ()
  | false => exact ((fills_bump.facing fun v told => told.2 rfl).node .error).toRuns

end IsoLiteral.Parser
