import IsoLiteral.Proofs.Syntax.Step

/-!
# Progress

A parser may look ahead only so often before it takes a token or changes the depth. What a production costs
is how many looks it leaves uncovered: those before the first token it takes, and those after the last one.
Costs add up over a sequence; a nested construct costs nothing, since entering and leaving it both restore
the patience; and a loop costs a little more than two rounds, since every round that asks for another one
takes a token or has exceeded a limit.

`Sound` says that a production of some cost does nothing but steps from every state in which it can afford
them, whatever tokens are ahead.
-/

namespace IsoLiteral.Parser

/-! ## What a production does to the state -/

/-- Steps that leave at most `cost` looks uncovered. -/
structure Spends (cost : Nat) (s s' : State) : Prop where
  steps : Steps s s'
  patience : s.patience ≤ s'.patience + cost
  fresh : s'.ahead.length < s.ahead.length → patienceLimit ≤ s'.patience + cost

/-- Steps that leave at most `cost` looks uncovered and take back nothing that was built. -/
structure Fares (cost : Nat) (s s' : State) : Prop extends Kept s s', Spends cost s s'

variable {s s' s'' : State} {a b c c₁ c₂ c₃ n : Nat}

theorem Steps.length_ahead (steps : Steps s s') : s'.ahead.length ≤ s.ahead.length :=
  steps.ahead.length_le

theorem Spends.trans (first : Spends a s s') (second : Spends b s' s'') : Spends (a + b) s s'' where
  steps := first.steps.trans second.steps
  patience := by
    have := first.patience
    have := second.patience
    omega
  fresh fewer := by
    have := first.patience
    have := first.fresh
    have := second.patience
    have := second.fresh
    omega

theorem Spends.le (h : Spends a s s') (le : a ≤ b) : Spends b s s' where
  steps := h.steps
  patience := h.patience.trans (Nat.add_le_add_left le _)
  fresh fewer := (h.fresh fewer).trans (Nat.add_le_add_left le _)

theorem Fares.trans (first : Fares a s s') (second : Fares b s' s'') : Fares (a + b) s s'' :=
  { first.toKept.trans second.toKept, first.toSpends.trans second.toSpends with }

theorem Fares.le (h : Fares a s s') (le : a ≤ b) : Fares b s s' := { h.toKept, h.toSpends.le le with }

/-- A step that takes no token and counts no look. -/
theorem Spends.step (step : Step s s') (ahead : s'.ahead = s.ahead) (patience : s'.patience = s.patience) :
    Spends 0 s s' where
  steps := .single step
  patience := patience.ge
  fresh fewer := absurd fewer (by rw [ahead]; exact lt_irrefl _)

theorem Spends.refl (s : State) : Spends 0 s s :=
  ⟨.refl, le_rfl, fun fewer => absurd fewer (lt_irrefl _)⟩

theorem Fares.refl (s : State) : Fares 0 s s :=
  { (Follows.pure ()).mono s, Spends.refl s with }

/-- A state in which a production may run that costs `cost` looks and nests less than `bound` deep. -/
structure Ready (bound cost : Nat) (s : State) : Prop where
  few : s.ahead.length < bound
  patient : cost ≤ s.patience
  limit : s.patience ≤ patienceLimit

/-- What is left of the patience is enough for what comes next. -/
theorem Ready.next (ready : Ready n c s) (h : Spends c₁ s s') (sum : c₁ + c₂ ≤ c) : Ready n c₂ s' where
  few := h.steps.length_ahead.trans_lt ready.few
  patient := by
    have := h.patience
    have := ready.patient
    omega
  limit := h.steps.patience ready.limit

theorem Ready.le (ready : Ready n c s) (le : a ≤ c) : Ready n a s :=
  { ready with patient := le.trans ready.patient }

/-! ## Looks -/

/-- A computation that takes no token and tells something about the tokens ahead. -/
structure Looks {α : Type} (cost : Nat) (p : Parser α) (info : α → List Token → Prop) : Prop where
  fares : ∀ s, cost ≤ s.patience → Fares cost s (p s).2
  ahead : ∀ s, (p s).2.ahead = s.ahead
  tells : ∀ s, info (p s).1 s.ahead

section Looks

variable {α β : Type} {p : Parser α} {q : α → Parser β}

theorem Looks.pure (a : α) {info : α → List Token → Prop} (tells : ∀ v, info a v) :
    Looks c (Pure.pure a : Parser α) info where
  fares s _ := (Fares.refl s).le (Nat.zero_le c)
  ahead _ := rfl
  tells _ := tells _

theorem Looks.imp {fact info : α → List Token → Prop} (h : Looks c p fact)
    (imp : ∀ a v, fact a v → info a v) : Looks c p info :=
  { h with tells := fun s => imp _ _ (h.tells s) }

/-- What is told first may be used to tell more. -/
theorem Looks.bind {fact : α → List Token → Prop} {info : β → List Token → Prop} (enough : c₁ ≤ c)
    (first : Looks c₁ p fact) (rest : ∀ a, Looks (c - c₁) (q a) fun b v => fact a v → info b v) :
    Looks c (p >>= q) info where
  fares s afford := by
    have fares := first.fares s (by omega)
    have afford' : c - c₁ ≤ (p s).2.patience := by
      have := fares.patience
      omega
    exact (fares.trans ((rest _).fares _ afford')).le (by omega)
  ahead s := ((rest _).ahead _).trans (first.ahead s)
  tells s := by
    have told := (rest (p s).1).tells (p s).2
    rw [first.ahead] at told
    exact told (first.tells s)

theorem Looks.andThen {fact : α → List Token → Prop} {info : β → List Token → Prop} (enough : c₁ ≤ c)
    (first : Looks c₁ p fact) (rest : ∀ a, Looks (c - c₁) (q a) info) : Looks c (p >>= q) info :=
  first.bind enough fun a => (rest a).imp fun _ _ told _ => told

theorem Looks.ite {cond : Prop} [Decidable cond] {p' : Parser α} {info : α → List Token → Prop}
    (yes : Looks c p info) (no : Looks c p' info) : Looks c (if cond then p else p') info := by
  split
  · exact yes
  · exact no

end Looks

theorem looks_settle : Looks 0 settle fun _ _ => True where
  fares s _ := { keeps_settle s, Spends.step (.settle s) (ahead_settle s) rfl with }
  ahead := ahead_settle
  tells _ := trivial

theorem looks_lookAhead : Looks 1 lookAhead fun _ _ => True where
  fares s enough := by
    have patient : s.patience ≠ 0 := by omega
    have looked : lookAhead s = ((), { s with patience := s.patience - 1 }) := by
      rw [lookAhead_eq, if_neg patient]
    refine { keeps_lookAhead s, (?_ : Spends 1 s (lookAhead s).2) with }
    rw [looked]
    refine ⟨.single (.look s patient), ?_, fun fewer => absurd fewer (lt_irrefl _)⟩
    show s.patience ≤ s.patience - 1 + 1
    omega
  ahead s := congrArg (List.filter _) (rest_lookAhead s)
  tells _ := trivial

theorem looks_flush : Looks 0 flush fun _ _ => True where
  fares s _ := { keeps_flush s, Spends.step (.flush s) rfl rfl with }
  ahead _ := rfl
  tells _ := trivial

/-- The first token after trivia is the first that matters. -/
theorem head?_settled (s : State) : (settle s).2.rest.head? = s.ahead.head? := head?_dropWhile_trivia s.rest

theorem looks_current : Looks 1 current fun kind v => headKind v = kind where
  fares s enough := by
    have looked := (looks_settle.fares s (Nat.zero_le _)).trans
      (looks_lookAhead.fares (settle s).2 enough)
    exact looked
  ahead s := (looks_lookAhead.ahead (settle s).2).trans (ahead_settle s)
  tells s := by
    show headKind s.ahead = ((lookAhead (settle s).2).2.rest.head?.map Token.kind).getD .error
    rw [rest_lookAhead, head?_settled, headKind]

theorem looks_currentText :
    Looks 0 currentText fun text v => (v.head?.map Token.text).getD "" = text where
  fares := looks_settle.fares
  ahead := ahead_settle
  tells s := by
    show (s.ahead.head?.map Token.text).getD "" = ((settle s).2.rest.head?.map Token.text).getD ""
    rw [head?_settled]

theorem looks_currentRange : Looks 0 currentRange fun _ _ => True where
  fares := looks_settle.fares
  ahead := ahead_settle
  tells _ := trivial

theorem looks_currentlyIs (kind : SyntaxKind) :
    Looks 1 (currentlyIs kind) fun here v => here = true ↔ headKind v = kind :=
  looks_current.bind le_rfl fun _ => .pure _ fun _ same => by rw [same, decide_eq_true_eq]

theorem looks_currentlyIn (kinds : TokenSet) :
    Looks 1 (currentlyIn kinds) fun here v => kinds.contains (headKind v) = here :=
  looks_current.bind le_rfl fun _ => .pure _ fun _ same => by rw [same]

theorem looks_nextIs (kind : SyntaxKind) :
    Looks 1 (nextIs kind) fun here v => here = true ↔ v[1]?.map Token.kind = some kind where
  fares s enough := by
    have looked := (looks_settle.fares s (Nat.zero_le _)).trans
      (looks_lookAhead.fares (settle s).2 enough)
    exact looked
  ahead s := (looks_lookAhead.ahead (settle s).2).trans (ahead_settle s)
  tells s := by
    have same : (lookAhead (settle s).2).2.rest.filter (!·.isTrivia) = s.ahead :=
      (looks_lookAhead.ahead (settle s).2).trans (ahead_settle s)
    show decide ((((lookAhead (settle s).2).2.rest.filter (!·.isTrivia))[1]?.map Token.kind) = some kind) =
      true ↔ _
    rw [same, decide_eq_true_eq]

/-- Whether the next token is the identifier `keyword`. -/
def AtWord (keyword : String) (v : List Token) : Prop :=
  headKind v = .identifier ∧ (v.head?.map Token.text).getD "" = keyword

theorem looks_atKeyword (keyword : String) :
    Looks 1 (atKeyword keyword) fun here v => here = true → AtWord keyword v := by
  refine (looks_currentlyIs .identifier).bind le_rfl fun here => ?_
  cases here with
  | true =>
    refine looks_currentText.bind le_rfl fun text =>
      .pure (decide (text = keyword)) fun v same isName matched => ?_
    exact ⟨isName.1 rfl, same.trans (of_decide_eq_true matched)⟩
  | false => exact .pure false fun v _ never => absurd never Bool.false_ne_true

theorem isEmpty_settled (s : State) : (settle s).2.rest.isEmpty = s.ahead.isEmpty := by
  rw [Bool.eq_iff_iff, List.isEmpty_iff, List.isEmpty_iff, ← List.head?_eq_none_iff,
    ← List.head?_eq_none_iff, head?_settled]

theorem shouldStop_eq (s : State) :
    shouldStop s = (s.ahead.isEmpty || s.exceeded.isSome, (settle s).2) := by
  show ((settle s).2.rest.isEmpty || s.exceeded.isSome, (settle s).2) = _
  rw [isEmpty_settled]

theorem looks_shouldStop : Looks 0 shouldStop fun stop v => stop = false → v ≠ [] where
  fares := looks_settle.fares
  ahead := ahead_settle
  tells s going := by
    rw [shouldStop_eq, Bool.or_eq_false_iff, List.isEmpty_eq_false_iff] at going
    exact going.1

theorem looks_claim (offset : Nat) : Looks 0 (claim offset) fun _ _ => True where
  fares s _ := by
    refine { keeps_claim offset s, (?_ : Spends 0 s (claim offset s).2) with }
    rw [claim_eq]
    split
    · exact .refl s
    · exact .step (.claim s offset) rfl rfl
  ahead s := by
    rw [claim_eq]
    split <;> rfl
  tells _ := trivial

theorem looks_report (make : State → Diagnostic) :
    Looks 0 (do report (make (← MonadState.get))) fun _ _ => True where
  fares s _ := { keeps_report make s, Spends.step (.report s (make s)) rfl rfl with }
  ahead _ := rfl
  tells _ := trivial

theorem looks_errorHere (kind : DiagnosticKind) (detail : String) :
    Looks 0 (errorHere kind detail) fun _ _ => True :=
  looks_currentRange.andThen le_rfl fun range => (looks_claim range.start).andThen le_rfl fun _ =>
    .ite (looks_report fun s => (Diagnostic.located s.source kind range).withDetail detail)
      (.pure () fun _ => trivial)

theorem looks_errorExpected (kind : DiagnosticKind) (what : String) :
    Looks 0 (errorExpected kind what) fun _ _ => True :=
  looks_currentText.andThen le_rfl fun _ => looks_errorHere _ _

/-! ## Sound productions -/

/-- From every state that can afford it, with tokens ahead that satisfy `pre`, a production does nothing but
steps, and it takes a token whenever its result satisfies `takes`, unless a limit is exceeded. -/
structure Sound {α : Type} (bound cost : Nat) (pre : List Token → Prop) (p : Parser α)
    (takes : α → Prop) : Prop where
  fares : ∀ s, Ready bound cost s → pre s.ahead → Fares cost s (p s).2
  moves : ∀ s, Ready bound cost s → pre s.ahead → takes (p s).1 → (p s).2.exceeded = none →
    (p s).2.ahead.length < s.ahead.length

section Sound

variable {α β : Type} {p p' : Parser α} {q : α → Parser β} {pre pre' : List Token → Prop}
  {takes : α → Prop} {takes' : β → Prop}

theorem Sound.pure (a : α) (idle : ¬ takes a) : Sound n c pre (Pure.pure a) takes where
  fares s _ _ := (Fares.refl s).le (Nat.zero_le c)
  moves _ _ _ took := absurd took idle

theorem Sound.le (h : Sound n c₁ pre p takes) (enough : c₁ ≤ c) : Sound n c pre p takes where
  fares s ready holds := (h.fares s (ready.le enough) holds).le enough
  moves s ready := h.moves s (ready.le enough)

theorem Sound.few {m : Nat} (h : Sound n c pre p takes) (fewer : m ≤ n) : Sound m c pre p takes where
  fares s ready := h.fares s { ready with few := ready.few.trans_le fewer }
  moves s ready := h.moves s { ready with few := ready.few.trans_le fewer }

theorem Sound.given (h : Sound n c pre p takes) (imp : ∀ v, pre' v → pre v) : Sound n c pre' p takes where
  fares s ready holds := h.fares s ready (imp _ holds)
  moves s ready holds := h.moves s ready (imp _ holds)

theorem Sound.forget (h : Sound n c pre p takes) : Sound n c pre p ⊥ where
  fares := h.fares
  moves _ _ _ took := took.elim

/-- Nothing is to be shown where no tokens satisfy the condition. -/
theorem Sound.never (never : ∀ v, ¬ pre v) : Sound n c pre p takes where
  fares _ _ holds := absurd holds (never _)
  moves _ _ holds := absurd holds (never _)

theorem Looks.sound {info : α → List Token → Prop} (h : Looks c p info) : Sound n c pre p ⊥ where
  fares s ready _ := h.fares s ready.patient
  moves _ _ _ took := took.elim

/-- What a look tells is known afterwards. -/
theorem Sound.look {info : α → List Token → Prop} (enough : c₁ ≤ c) (first : Looks c₁ p info)
    (rest : ∀ a, Sound n (c - c₁) (fun v => pre v ∧ info a v) (q a) takes') :
    Sound n c pre (p >>= q) takes' := by
  have next {s : State} (ready : Ready n c s) : Ready n (c - c₁) (p s).2 :=
    ready.next (first.fares s (enough.trans ready.patient)).toSpends (by omega)
  have told {s : State} (holds : pre s.ahead) : pre (p s).2.ahead ∧ info (p s).1 (p s).2.ahead := by
    rw [first.ahead]
    exact ⟨holds, first.tells s⟩
  constructor
  · intro s ready holds
    have fares := first.fares s (enough.trans ready.patient)
    exact (fares.trans ((rest _).fares _ (next ready) (told holds))).le (by omega)
  · intro s ready holds took within
    rw [← first.ahead s]
    exact (rest _).moves _ (next ready) (told holds) took within

/-- A choice between two continuations by what a look tells. -/
theorem Sound.test {test : Parser Bool} {info : Bool → List Token → Prop} (enough : c₁ ≤ c)
    (look : Looks c₁ test info) (yes : Sound n (c - c₁) (fun v => pre v ∧ info true v) p takes)
    (no : Sound n (c - c₁) (fun v => pre v ∧ info false v) p' takes) :
    Sound n c pre (do if ← test then p else p') takes := by
  refine .look enough look fun here => ?_
  cases here with
  | true => exact yes
  | false => exact no

theorem Sound.bind (enough : c₁ ≤ c) (first : Sound n c₁ pre p takes)
    (rest : ∀ a, Sound n (c - c₁) ⊤ (q a) takes') : Sound n c pre (p >>= q) takes' := by
  have next {s : State} (ready : Ready n c s) (holds : pre s.ahead) : Ready n (c - c₁) (p s).2 :=
    ready.next (first.fares s (ready.le enough) holds).toSpends (by omega)
  constructor
  · intro s ready holds
    have fares := first.fares s (ready.le enough) holds
    exact (fares.trans ((rest _).fares _ (next ready holds) trivial)).le (by omega)
  · intro s ready holds took within
    have fewer := (rest (p s).1).moves _ (next ready holds) trivial took within
    exact fewer.trans_le (first.fares s (ready.le enough) holds).steps.length_ahead

/-- Once a token is taken, the rest need not take one. -/
theorem Sound.taking (enough : c₁ ≤ c) (first : Sound n c₁ pre p ⊤)
    (rest : ∀ a, Sound n (c - c₁) ⊤ (q a) ⊥) : Sound n c pre (p >>= q) takes' := by
  refine ⟨(first.bind enough rest).fares, fun s ready holds _ within => ?_⟩
  have next := ready.next (first.fares s (ready.le enough) holds).toSpends (by omega : c₁ + (c - c₁) ≤ c)
  have steps := ((rest (p s).1).fares _ next trivial).steps
  have fewer := first.moves s (ready.le enough) holds trivial (steps.within within)
  exact steps.length_ahead.trans_lt fewer

/-- A round that took a token is followed by another one. -/
theorem Sound.again {p : Parser Unit} (h : Sound n c pre p ⊤) :
    Sound n c pre (do p; return true) (· = true) :=
  h.taking le_rfl fun _ => .pure true id

end Sound

/-! ## Taking tokens -/

/-- The tokens ahead are such that the next one may become a leaf of the given kind. -/
def MayBecome (kind : SyntaxKind) (v : List Token) : Prop :=
  ∀ t ∈ v.head?, t.BecomesLeaf { t with kind }

theorem bumpAs_of_nil {s : State} (empty : s.ahead = []) (kind : SyntaxKind) :
    bumpAs kind s = ((), (settle s).2) := by
  have none : (settle s).2.rest = [] := by
    rw [← List.isEmpty_iff, isEmpty_settled, empty]
    rfl
  rcases run : settle s with ⟨_, looked⟩
  simp only [run] at none
  simp only [bumpAs, Bind.bind, StateT.bind, MonadState.get, getThe, MonadStateOf.get, StateT.get,
    Pure.pure, run, none]
  rfl

theorem bumpAs_of_cons {s : State} {t : Token} {rest : List Token} (ahead : s.ahead = t :: rest)
    (kind : SyntaxKind) : ∃ left, (settle s).2.rest = t :: left ∧ t.isTrivia = false ∧
      bumpAs kind s = ((), (settle s).2.taken t left kind) := by
  have first := head?_settled s
  rw [ahead, List.head?_cons] at first
  obtain ⟨left, settled⟩ : ∃ left, (settle s).2.rest = t :: left := List.head?_eq_some_iff.1 first
  refine ⟨left, settled, not_isTrivia_of_dropWhile settled, ?_⟩
  rcases run : settle s with ⟨_, looked⟩
  simp only [run] at settled
  simp only [bumpAs, Bind.bind, StateT.bind, MonadState.get, getThe, MonadStateOf.get, StateT.get,
    Pure.pure, run, settled]
  rfl

theorem fares_bumpAs {kind : SyntaxKind} {s : State} (limit : s.patience ≤ patienceLimit)
    (may : MayBecome kind s.ahead) : Fares 0 s (bumpAs kind s).2 := by
  refine { keeps_bumpAs kind s, (?_ : Spends 0 s (bumpAs kind s).2) with }
  have settled := looks_settle.fares s (Nat.zero_le _)
  cases ahead : s.ahead with
  | nil =>
    rw [bumpAs_of_nil ahead]
    exact settled.toSpends
  | cons t rest =>
    obtain ⟨left, here, solid, run⟩ := bumpAs_of_cons ahead kind
    rw [run]
    have leaf := may t (by rw [ahead]; rfl)
    exact ⟨settled.steps.tail (.take _ here solid leaf), limit, fun _ => le_rfl⟩

/-- A token is taken whenever there is one. -/
theorem ahead_bumpAs (kind : SyntaxKind) (s : State) : (bumpAs kind s).2.ahead = s.ahead.tail := by
  cases ahead : s.ahead with
  | nil => rw [bumpAs_of_nil ahead, ahead_settle, ahead, List.tail_nil]
  | cons t rest =>
    obtain ⟨left, here, solid, run⟩ := bumpAs_of_cons ahead kind
    have same := ahead_eq_cons here solid kind
    rw [ahead_settle, ahead] at same
    rw [run, List.tail_cons]
    exact (List.cons.inj same).2.symm

theorem length_tail_lt {v : List Token} (some : v ≠ []) : v.tail.length < v.length := by
  rw [List.length_tail]
  exact Nat.sub_lt (List.length_pos_iff.2 some) Nat.one_pos

theorem sound_bumpAs {kind : SyntaxKind} : Sound n c (MayBecome kind) (bumpAs kind) ⊥ where
  fares _ ready may := (fares_bumpAs ready.limit may).le (Nat.zero_le c)
  moves _ _ _ took := took.elim

theorem takes_bumpAs {kind : SyntaxKind} :
    Sound n c (fun v => v ≠ [] ∧ MayBecome kind v) (bumpAs kind) ⊤ where
  fares _ ready holds := (fares_bumpAs ready.limit holds.2).le (Nat.zero_le c)
  moves s _ holds _ _ := by
    rw [ahead_bumpAs]
    exact length_tail_lt holds.1

theorem mayBecome_headKind (v : List Token) : MayBecome (headKind v) v := by
  intro t first
  obtain ⟨rest, rfl⟩ := List.head?_eq_some_iff.1 first
  exact .same

theorem sound_bump : Sound n 1 ⊤ bump ⊥ :=
  .look le_rfl looks_current fun _ => sound_bumpAs.given fun v told => told.2 ▸ mayBecome_headKind v

theorem ahead_bump (s : State) : (bump s).2.ahead = s.ahead.tail := by
  show (bumpAs _ (current s).2).2.ahead = _
  rw [ahead_bumpAs, looks_current.ahead]

theorem takes_bump : Sound n 1 (· ≠ []) bump ⊤ where
  fares s ready _ := sound_bump.fares s ready trivial
  moves s _ some _ _ := by
    rw [ahead_bump]
    exact length_tail_lt some

/-- After the first token, what is nested has one token less to nest over. -/
theorem Sound.bump_then {rest : Parser Unit} (h : Sound n c ⊤ rest ⊥) {takes : Unit → Prop} :
    Sound (n + 1) (c + 1) (· ≠ []) (do bump; rest) takes := by
  have enough : 1 ≤ c + 1 := Nat.le_add_left 1 c
  have next {s : State} (ready : Ready (n + 1) (c + 1) s) (some : s.ahead ≠ []) : Ready n c (bump s).2 := by
    have fares := takes_bump.fares s (ready.le enough) some
    refine { ready.next fares.toSpends (by omega : 1 + c ≤ c + 1) with few := ?_ }
    have fewer := length_tail_lt some
    have few := ready.few
    rw [ahead_bump]
    omega
  constructor
  · intro s ready some
    have fares := takes_bump.fares s (ready.le enough) some
    exact (fares.trans (h.fares _ (next ready some) trivial)).le (by omega)
  · intro s ready some _ _
    have steps := (h.fares _ (next ready some) trivial).steps
    have fewer := length_tail_lt some
    rw [← ahead_bump] at fewer
    exact steps.length_ahead.trans_lt fewer

theorem ne_nil_of_headKind {v : List Token} {kind : SyntaxKind} (here : headKind v = kind)
    (real : kind ≠ .error) : v ≠ [] := by
  rintro rfl
  exact real here.symm

theorem ne_nil_of_contains {v : List Token} {kinds : TokenSet} (real : kinds.contains .error = false)
    (here : kinds.contains (headKind v) = true) : v ≠ [] := by
  rintro rfl
  exact Bool.false_ne_true (real.symm.trans here)

theorem sound_eat (kind : SyntaxKind) : Sound n 2 ⊤ (eat kind) ⊥ :=
  .test (by decide) (looks_currentlyIs kind)
    (.bind le_rfl (sound_bump.given fun _ _ => trivial) fun _ => .pure true id) (.pure false id)

/-- A token of some kind, or what is done in its absence. -/
theorem Sound.eating {α : Type} {kind : SyntaxKind} (real : kind ≠ .error) {q : Bool → Parser α}
    {pre : List Token → Prop} {takes : α → Prop} (yes : Sound n c ⊤ (q true) ⊥)
    (no : Sound n c (fun v => pre v ∧ headKind v ≠ kind) (q false) takes) :
    Sound n (c + 2) pre (eat kind >>= q) takes := by
  have run : (eat kind >>= q) = (do
      if ← currentlyIs kind then (do bump; q true) else q false) := by
    unfold Parser.eat
    simp only [bind_assoc]
    refine congrArg (_ >>= ·) (funext fun here => ?_)
    cases here <;> simp
  rw [run]
  have some {v : List Token} (told : pre v ∧ (true = true ↔ headKind v = kind)) : v ≠ [] :=
    ne_nil_of_headKind (told.2.1 rfl) real
  refine .test (by omega) (looks_currentlyIs kind)
    (.taking (by omega) (takes_bump.given fun v => some) fun _ => ?_) ?_
  · exact yes.le (by omega)
  · refine (no.given fun v told => ⟨told.1, fun here => ?_⟩).le (by omega)
    exact Bool.false_ne_true (told.2.2 here)

/-- An identifier may become the keyword that it spells. -/
theorem AtWord.mayBecome {keyword : String} {v : List Token} (here : AtWord keyword v) {kind : SyntaxKind}
    (spelled : kind.keyword? = some keyword) : MayBecome kind v := by
  intro t first
  obtain ⟨rest, rfl⟩ := List.head?_eq_some_iff.1 first
  obtain ⟨word, text⟩ := here
  exact .keyword word (spelled.trans (congrArg some text.symm))

theorem sound_bumpKeyword {keyword : String} {kind : SyntaxKind} (spelled : kind.keyword? = some keyword) :
    Sound n 0 (AtWord keyword) (bumpAs kind) ⊥ :=
  sound_bumpAs.given fun _ here => here.mayBecome spelled

theorem sound_eatKeyword {keyword : String} {kind : SyntaxKind} (spelled : kind.keyword? = some keyword) :
    Sound n 1 ⊤ (eatKeyword keyword kind) ⊥ :=
  .test le_rfl (looks_atKeyword keyword)
    (.bind le_rfl ((sound_bumpKeyword spelled).given fun _ told => told.2 rfl) fun _ => .pure true id)
    (.pure false id)

theorem sound_expect (kind : SyntaxKind) (what : String) : Sound n 2 ⊤ (expect kind what) ⊥ :=
  .bind le_rfl (sound_eat kind) fun eaten => by
    cases eaten with
    | true => exact .pure true id
    | false => exact .look le_rfl (looks_errorExpected _ _) fun _ => .pure false id

theorem sound_expectName (what : String) : Sound n 2 ⊤ (expectName what) ⊥ :=
  .bind le_rfl (sound_eat .identifier) fun eaten => by
    cases eaten with
    | true => exact .pure true id
    | false => exact .look le_rfl (looks_errorExpected _ _) fun _ => .pure false id

theorem takes_expectName (what : String) : Sound n 2 (headKind · = .identifier) (expectName what) ⊤ :=
  .eating (by decide) (.pure true id) (.never fun _ told => told.2 told.1)

/-- A production that insists on the kind of its first token. -/
theorem Sound.asserted {kind : SyntaxKind} {p : Parser Unit} {takes : Unit → Prop}
    (h : Sound n c (headKind · = kind) p takes) :
    Sound n (c + 1) (headKind · = kind) (do assertCurrent kind; p) takes := by
  have run : (do assertCurrent kind; p) = (do
      if ← currentlyIs kind then p else (do blame (.misplaced kind); p)) := by
    unfold assertCurrent
    simp only [bind_assoc]
    refine congrArg (_ >>= ·) (funext fun here => ?_)
    cases here <;> rfl
  rw [run]
  refine .test (Nat.le_add_left 1 c) (looks_currentlyIs kind) (h.given fun v told => told.1)
    (.never fun v told => ?_)
  exact Bool.false_ne_true (told.2.2 told.1)

/-! ## Nodes and nesting -/

/-- Starting a node changes nothing but what is open. -/
theorem spends_startNode (kind : SyntaxKind) (s : State) : Spends 0 s (startNode kind s).2 := by
  have flushed := (looks_flush.fares s (Nat.zero_le _)).toSpends
  have started := Spends.step (.start (flush s).2 kind (flush s).2.built.length le_rfl) rfl rfl
  rw [List.drop_length, List.take_length] at started
  exact flushed.trans started

theorem Fares.node {body : Parser Unit} {kind : SyntaxKind} {s : State}
    (inside : Fares c (startNode kind s).2 (body (startNode kind s).2).2) :
    Fares c s (Parser.node kind body s).2 := by
  refine { inside.toKept.node, (?_ : Spends c s (Parser.node kind body s).2) with }
  have finished := Spends.step (.finish (body (startNode kind s).2).2 inside.enclosing) rfl rfl
  rw [node_eq inside.toKept]
  exact (((spends_startNode kind s).trans inside.toSpends).trans finished).le (by omega)

theorem Sound.node {pre : List Token → Prop} {body : Parser Unit} {takes : Unit → Prop}
    (h : Sound n c pre body takes) (kind : SyntaxKind) : Sound n c pre (Parser.node kind body) takes := by
  have next {s : State} (ready : Ready n c s) : Ready n c (startNode kind s).2 :=
    ready.next (spends_startNode kind s) (Nat.zero_add c).le
  constructor
  · intro s ready holds
    exact (h.fares _ (next ready) holds).node
  · intro s ready holds took within
    rw [node_eq (h.fares _ (next ready) holds).toKept] at within ⊢
    exact h.moves _ (next ready) holds took within

/-- The state one level deeper. -/
def State.deeper (s : State) : State := { s with depth := s.depth + 1, patience := patienceLimit }

theorem nested_of_deep {s : State} (deep : s.maxDepth.any (· ≤ s.depth) = true) (body : Parser Unit) :
    nested body s = ((), (exceed .recursionLimitExceeded s).2) := by
  show (if (enter s).1 = true then (do body; leave) else Pure.pure () : Parser Unit) (enter s).2 = _
  rw [enter_eq, if_pos deep]
  rfl

theorem nested_of_shallow {s : State} (shallow : s.maxDepth.any (· ≤ s.depth) = false)
    (body : Parser Unit) : nested body s = leave (body s.deeper).2 := by
  show (if (enter s).1 = true then (do body; leave) else Pure.pure () : Parser Unit) (enter s).2 = _
  have notDeep : ¬ s.maxDepth.any (· ≤ s.depth) = true := by
    rw [shallow]
    exact Bool.false_ne_true
  rw [enter_eq, if_neg notDeep]
  rfl

theorem Fares.nested {body : Parser Unit} {s : State} (limit : s.patience ≤ patienceLimit)
    (shallow : s.maxDepth.any (· ≤ s.depth) = false) (inside : Fares c s.deeper (body s.deeper).2) :
    Fares 0 s (Parser.nested body s).2 := by
  have entered : Kept s s.deeper := ⟨id, rfl, List.prefix_rfl⟩
  have steps : Steps s (leave (body s.deeper).2).2 :=
    (Relation.ReflTransGen.head (.enter s shallow) inside.steps).tail (.leave _)
  rw [nested_of_shallow shallow]
  exact { (entered.trans inside.toKept).trans (keeps_leave _) with
    steps := steps
    patience := limit
    fresh := fun _ => le_rfl }

/-- Going deeper and coming back restore the patience. -/
theorem Sound.nested {pre : List Token → Prop} {body : Parser Unit} {takes : Unit → Prop}
    (affordable : c₁ ≤ patienceLimit) (h : Sound n c₁ pre body takes) :
    Sound n 0 pre (Parser.nested body) takes := by
  have entered {s : State} (ready : Ready n 0 s) : Ready n c₁ s.deeper :=
    ⟨ready.few, affordable, le_rfl⟩
  constructor
  · intro s ready holds
    cases deep : s.maxDepth.any (· ≤ s.depth) with
    | false => exact Fares.nested ready.limit deep (h.fares _ (entered ready) holds)
    | true =>
      rw [nested_of_deep deep]
      exact { (⟨id, rfl, List.prefix_rfl⟩ : Kept s _), Spends.step (.tooDeep s deep) rfl rfl with }
  · intro s ready holds took within
    cases deep : s.maxDepth.any (· ≤ s.depth) with
    | false =>
      rw [nested_of_shallow deep] at within ⊢
      exact h.moves s.deeper (entered ready) holds took within
    | true =>
      rw [nested_of_deep deep] at within
      exact absurd within (exceeded_exceed _ s)

/-! ## Loops -/

/-- A round of a loop. One that asks for another has taken a token or exceeded a limit; at the end of the
literal, or when a limit is exceeded, it does not ask. -/
structure Round (bound cost : Nat) (step : Parser Bool) : Prop where
  sound : Sound bound cost ⊤ step (· = true)
  rests : ∀ s, s.exceeded ≠ none ∨ s.ahead = [] → 1 ≤ s.patience →
    (step s).1 = false ∧ Fares 1 s (step s).2

theorem repeatStep_of_false {step : Parser Bool} {s : State} (stops : (step s).1 = false) (k : Nat) :
    (repeatStep (k + 1) step s).2 = (step s).2 := by
  show ((if (step s).1 = true then repeatStep k step else Pure.pure () : Parser Unit) (step s).2).2 = _
  rw [stops]
  rfl

theorem repeatStep_of_true {step : Parser Bool} {s : State} (goes : (step s).1 = true) (k : Nat) :
    repeatStep (k + 1) step s = repeatStep k step (step s).2 := by
  show (if (step s).1 = true then repeatStep k step else Pure.pure () : Parser Unit) (step s).2 = _
  rw [if_pos goes]

/-- What the rounds of a loop do: while no token is taken they cost a round and a look, and after the last
token they cost two rounds and a look. -/
structure Rounds (cost : Nat) (s s' : State) : Prop extends Kept s s' where
  steps : Steps s s'
  idle : s.patience ≤ s'.patience + (cost + 1) ∨ s'.ahead.length < s.ahead.length
  fresh : s'.ahead.length < s.ahead.length → patienceLimit ≤ s'.patience + (2 * cost + 1)

theorem Round.repeatStep {step : Parser Bool} (round : Round n c step)
    (affordable : 2 * c + 1 ≤ patienceLimit) (k : Nat) : ∀ s, s.ahead.length < k → Ready n (c + 1) s →
      Rounds c s (Parser.repeatStep k step s).2 := by
  induction k with
  | zero => exact fun s few => absurd few (Nat.not_lt_zero _)
  | succ k ih =>
    intro s few ready
    have first := round.sound.fares s (ready.le (Nat.le_succ c)) trivial
    cases goes : (step s).1 with
    | false =>
      rw [repeatStep_of_false goes]
      have := first.patience
      have := first.fresh
      exact { first.toKept with steps := first.steps, idle := by omega, fresh := by omega }
    | true =>
      rw [repeatStep_of_true goes]
      have some : s.ahead ≠ [] := fun empty => by
        have rests := (round.rests s (.inr empty) (by have := ready.patient; omega)).1
        rw [goes] at rests
        cases rests
      have patience := first.patience
      have fresh := first.fresh
      have patient := ready.patient
      by_cases within : (step s).2.exceeded = none
      · -- a token was taken, so the patience is restored
        have fewer := round.sound.moves s (ready.le (Nat.le_succ c)) trivial goes within
        have next : Ready n (c + 1) (step s).2 :=
          ⟨fewer.trans ready.few, by omega, first.steps.patience ready.limit⟩
        have rest := ih (step s).2 (by omega) next
        have idle := rest.idle
        have fresh' := rest.fresh
        have shrinks := rest.steps.length_ahead
        exact { first.toKept.trans rest.toKept with
          steps := first.steps.trans rest.steps
          idle := .inr (by omega)
          fresh := by omega }
      · -- a limit is exceeded, so the next round is the last
        obtain ⟨stops, last⟩ := round.rests (step s).2 (.inl within) (by omega)
        obtain ⟨k, rfl⟩ : ∃ j, k = j + 1 := ⟨k - 1, by have := List.length_pos_iff.2 some; omega⟩
        rw [repeatStep_of_false stops]
        have patience' := last.patience
        have fresh' := last.fresh
        have shrinks := last.steps.length_ahead
        exact { first.toKept.trans last.toKept with
          steps := first.steps.trans last.steps
          idle := by omega
          fresh := by omega }

/-- A loop costs two rounds and a look. -/
theorem Round.loop {step : Parser Bool} (round : Round n c step)
    (affordable : 2 * c + 1 ≤ patienceLimit) : Sound n (2 * c + 1) ⊤ (Parser.loop step) ⊥ where
  fares s ready _ := by
    have fewer : s.ahead.length ≤ s.rest.length := List.length_filter_le _ _
    have rounds := round.repeatStep affordable (s.rest.length + 1) s (by omega) (ready.le (by omega))
    have idle := rounds.idle
    have fresh := rounds.fresh
    have limit := ready.limit
    show Fares (2 * c + 1) s (Parser.repeatStep (s.rest.length + 1) step s).2
    exact { rounds.toKept with steps := rounds.steps, patience := by omega, fresh := fresh }
  moves _ _ _ took := took.elim

/-- At the end of the literal, or when a limit is exceeded, it is time to stop. -/
theorem unlessStop_eq {s : State} (stop : s.exceeded ≠ none ∨ s.ahead = []) (step : Parser Bool) :
    (do if ← shouldStop then return false else step : Parser Bool) s = (false, (settle s).2) := by
  have stops : (shouldStop s).1 = true := by
    rw [shouldStop_eq, Bool.or_eq_true]
    rcases stop with exceeded | empty
    · exact .inr (Option.isSome_iff_ne_none.2 exceeded)
    · exact .inl (List.isEmpty_iff.2 empty)
  show (if (shouldStop s).1 = true then Pure.pure false else step : Parser Bool) (shouldStop s).2 = _
  rw [if_pos stops]
  rfl

/-- A round that first asks whether to stop. -/
theorem Round.unlessStop {step : Parser Bool} (h : Sound n c (· ≠ []) step (· = true)) :
    Round n c (do if ← shouldStop then return false else step) where
  sound := .test (Nat.zero_le c) looks_shouldStop (.pure false Bool.false_ne_true)
    (h.given fun v told => told.2 rfl)
  rests s stop patient := by
    rw [unlessStop_eq stop]
    exact ⟨rfl, (looks_settle.fares s (Nat.zero_le _)).le (Nat.zero_le 1)⟩

/-- A round that goes by the kind of the next token, unless that closes the list. -/
theorem Round.choose {close : SyntaxKind} {step : SyntaxKind → Parser Bool}
    (h : ∀ kind, Sound n c (fun v => v ≠ [] ∧ headKind v = kind) (step kind) (· = true)) :
    Round n (c + 2) (do
      if ← shouldStop then return false
      else if ← currentlyIs close then return false
      else step (← current)) := by
  refine .unlessStop (.test (by omega) (looks_currentlyIs close) (.pure false Bool.false_ne_true) ?_)
  exact .look (by omega) looks_current fun kind =>
    ((h kind).given fun v told => ⟨told.1.1, told.2⟩).le (by omega)

/-- A round that goes on only at a token of some kind. -/
theorem Round.whileAt {kind : SyntaxKind} {step : Parser Bool} (h : Sound n c (· ≠ []) step (· = true)) :
    Round n (c + 1) (do
      if ← currentlyIs kind then
        if ← shouldStop then return false else step
      else
        return false) where
  sound := .test (Nat.le_add_left 1 c) (looks_currentlyIs kind)
    ((Round.unlessStop h).sound.given fun _ _ => trivial) (.pure false Bool.false_ne_true)
  rests s stop patient := by
    have looked := (looks_currentlyIs kind).fares s patient
    have still : (currentlyIs kind s).2.exceeded ≠ none ∨ (currentlyIs kind s).2.ahead = [] := by
      refine stop.imp (fun exceeded within => exceeded (looked.steps.within within)) fun empty => ?_
      rw [(looks_currentlyIs kind).ahead, empty]
    show ((if (currentlyIs kind s).1 = true then (do if ← shouldStop then return false else step)
        else Pure.pure false : Parser Bool) (currentlyIs kind s).2).1 = false ∧
      Fares 1 s ((if (currentlyIs kind s).1 = true then (do if ← shouldStop then return false else step)
        else Pure.pure false : Parser Bool) (currentlyIs kind s).2).2
    split
    · rw [unlessStop_eq still]
      exact ⟨rfl, looked.trans (looks_settle.fares _ (Nat.zero_le _))⟩
    · exact ⟨rfl, looked⟩

theorem round_skipStep (stops : TokenSet) : Round n 2 (skipStep stops) :=
  .unlessStop (.test (by decide) (looks_currentlyIn stops) (.pure false Bool.false_ne_true)
    (takes_bump.given fun v told => told.1).again)

/-! ## Delimited constructs and recovery -/

theorem sound_closeDelimiter (opener : TextRange) (close : SyntaxKind) (kind : DiagnosticKind)
    (construct : String) : Sound n 2 ⊤ (closeDelimiter opener close kind construct) ⊥ := by
  refine .bind le_rfl (sound_eat close) fun eaten => ?_
  cases eaten with
  | true => exact .pure () id
  | false =>
    refine .look le_rfl looks_currentRange fun here => .test le_rfl (looks_claim here.start) ?_ (.pure () id)
    exact Looks.sound (looks_report fun s => (Diagnostic.located s.source kind
      ⟨opener.start, max s.lastStop opener.stop⟩).relatedTo (construct ++ " started here") opener)

/-- What is between the delimiters has one token less to nest over. -/
theorem Sound.delimited {body : Parser Unit} (h : Sound n c ⊤ body ⊥) (nodeKind close : SyntaxKind)
    (kind : DiagnosticKind) (construct : String) :
    Sound (n + 1) (c + 3) (· ≠ []) (Parser.delimited nodeKind close kind construct body) ⊤ := by
  refine Sound.node (.look (Nat.zero_le _) looks_currentRange fun opener => ?_) nodeKind
  have closed : Sound n (c + 2) ⊤ (do body; closeDelimiter opener close kind construct) ⊥ :=
    h.bind (by omega) fun _ => (sound_closeDelimiter opener close kind construct).le (by omega)
  exact (Sound.bump_then closed).given fun v told => told.1

/-- A list between delimiters. -/
theorem Round.delimited {step : Parser Bool} (round : Round n c step)
    (affordable : 2 * c + 1 ≤ patienceLimit) (nodeKind close : SyntaxKind) (kind : DiagnosticKind)
    (construct : String) :
    Sound (n + 1) (2 * c + 4) (· ≠ [])
      (Parser.delimited nodeKind close kind construct (Parser.loop step)) ⊤ :=
  (round.loop affordable).delimited nodeKind close kind construct

/-- With a token ahead, only an exceeded limit makes a production stop. -/
theorem Sound.unlessStop {p : Parser Unit} {takes : Unit → Prop} (h : Sound n c (· ≠ []) p takes) :
    Sound n c (· ≠ []) (do if !(← shouldStop) then p) takes := by
  have sound : Sound n c (· ≠ []) (do if !(← shouldStop) then p) ⊥ := by
    refine .look (Nat.zero_le c) looks_shouldStop fun stop => ?_
    cases stop with
    | true => exact .pure () id
    | false => exact (h.given fun v told => told.1).forget
  refine ⟨sound.fares, fun s ready some took within => ?_⟩
  have run : (do if !(← shouldStop) then p : Parser Unit) s =
    (if (!(shouldStop s).1) = true then p else Pure.pure () : Parser Unit) (shouldStop s).2 := rfl
  have nonempty : s.ahead.isEmpty = false := List.isEmpty_eq_false_iff.2 some
  rw [run, shouldStop_eq, nonempty, Bool.false_or] at took within ⊢
  cases exceeded : s.exceeded with
  | none =>
    rw [exceeded] at took within
    have settled := looks_settle.fares s (Nat.zero_le _)
    have next := ready.next settled.toSpends (Nat.zero_add c).le
    have fewer := h.moves (settle s).2 next (by rw [ahead_settle]; exact some) took within
    rwa [ahead_settle] at fewer
  | some limit =>
    rw [exceeded] at within
    cases exceeded.symm.trans within

theorem takes_skipUnexpected (what : String) : Sound n 1 (· ≠ []) (skipUnexpected what) ⊤ :=
  .look (by decide) looks_currentText fun _ => .look (by decide) (looks_errorHere _ _) fun _ =>
    (Sound.unlessStop (takes_bump.node .error)).given fun _ told => told.1.1

/-- What an error node holds. -/
theorem sound_swallow (kind : DiagnosticKind) (what : String) (stops : TokenSet) :
    Sound n 5 ⊤ (do errorExpected kind what; loop (skipStep stops)) ⊥ :=
  .look (by decide) (looks_errorExpected kind what) fun _ =>
    ((round_skipStep stops).loop (by decide)).given fun _ _ => trivial

theorem sound_recover (kind : DiagnosticKind) (what : String) (stops : TokenSet) :
    Sound n 6 ⊤ (recover kind what stops) ⊥ := by
  refine .look (by decide) (looks_currentlyIn stops) fun reached =>
    .look (by decide) looks_shouldStop fun stop => ?_
  split
  · exact (looks_errorExpected kind what).sound.le (by decide)
  · exact ((sound_swallow kind what stops).node .error).given fun _ _ => trivial

end IsoLiteral.Parser
