import IsoLiteral.Proofs.Syntax.Grammar
import IsoLiteral.Proofs.Syntax.Progress

/-!
# How deep a literal nests

Selection sets, values and types nest in each other, and each of them is a node of the tree. The limit on
the depth is exact for that nesting: a production stays within the limit if the trees that it adds without
limits nest no deeper than the limit allows, and it exceeds the limit if they do. `Exact` relates a run under
limits to the one without; it goes through sequences, choices, nodes and loops, so a production is exact
because its pieces are.
-/

namespace IsoLiteral

/-- Kinds of nodes that are a level of their own: selection sets, values and types. A non-null type is on the
level of the type that it wraps. -/
def SyntaxKind.isLevel : SyntaxKind → Bool
  | .selectionSet | .literal | .variableUse | .listValue | .objectValue | .namedType | .listType => true
  | _ => false

/-- Kinds of nodes that are as deep as what they hold. -/
def SyntaxKind.isPlain (kind : SyntaxKind) : Bool := !kind.isLevel && kind ≠ .variableDef

namespace Tree

mutual
/-- The deepest nesting of selection sets, values and types in a tree. -/
def nesting : Tree → Nat
  | .token _ => 0
  | .node kind children =>
    if kind = .variableDef then nestingAfterName children
    else if kind.isLevel then nestingOf children + 1
    else nestingOf children
termination_by structural tree => tree
/-- The deepest nesting in several trees. -/
def nestingOf : List Tree → Nat
  | [] => 0
  | tree :: rest => max tree.nesting (nestingOf rest)
termination_by structural trees => trees
/-- The deepest nesting in the trees after the first node. That is the name of a variable in its
definition, which is no value. -/
def nestingAfterName : List Tree → Nat
  | [] => 0
  | .token _ :: rest => nestingAfterName rest
  | .node _ _ :: rest => nestingOf rest
termination_by structural trees => trees
end

@[simp] theorem nestingOf_nil : nestingOf [] = 0 := by rw [nestingOf]

@[simp] theorem nestingOf_cons (tree : Tree) (rest : List Tree) :
    nestingOf (tree :: rest) = max tree.nesting (nestingOf rest) := by rw [nestingOf]

@[simp] theorem nesting_token (t : Token) : (Tree.token t).nesting = 0 := by rw [nesting]

theorem nestingOf_append (xs ys : List Tree) : nestingOf (xs ++ ys) = max (nestingOf xs) (nestingOf ys) := by
  induction xs with
  | nil => simp
  | cons tree rest ih => rw [List.cons_append, nestingOf_cons, nestingOf_cons, ih, max_assoc]

theorem nestingOf_tokens (tokens : List Token) : nestingOf (tokens.map Tree.token) = 0 := by
  induction tokens with
  | nil => simp
  | cons t rest ih => simp [ih]

/-- A node that comes after tokens. -/
theorem nestingOf_tokens_node (tokens : List Token) (kind : SyntaxKind) (children : List Tree) :
    nestingOf (tokens.map Tree.token ++ [.node kind children]) = (Tree.node kind children).nesting := by
  rw [nestingOf_append, nestingOf_tokens]
  simp

theorem nestingAfterName_tokens_node (tokens : List Token) (kind : SyntaxKind) (children rest : List Tree) :
    nestingAfterName (tokens.map Tree.token ++ .node kind children :: rest) = nestingOf rest := by
  induction tokens with
  | nil => rw [List.map_nil, List.nil_append, nestingAfterName]
  | cons t tokens ih => rw [List.map_cons, List.cons_append, nestingAfterName, ih]

theorem nesting_plain {kind : SyntaxKind} (plain : kind.isPlain = true) (children : List Tree) :
    (Tree.node kind children).nesting = nestingOf children := by
  simp only [SyntaxKind.isPlain, Bool.and_eq_true, Bool.not_eq_true', decide_eq_true_eq] at plain
  rw [nesting, if_neg plain.2, plain.1, if_neg Bool.false_ne_true]

theorem nesting_level {kind : SyntaxKind} (level : kind.isLevel = true) (children : List Tree) :
    (Tree.node kind children).nesting = nestingOf children + 1 := by
  have other : kind ≠ .variableDef := by
    rintro rfl
    cases level
  rw [nesting, if_neg other, if_pos level]

end Tree

namespace Parser

/-! ## Trees that are added -/

/-- What a node adds to the trees before it. -/
theorem built_node {body : Parser Unit} (keeps : Keeps body) (kind : SyntaxKind) (s : State) :
    (node kind body s).2.built =
      s.built ++ (s.pending.map Tree.token ++ [.node kind (body (startNode kind s).2).2.built]) := by
  rw [node_eq (keeps _), ← List.append_assoc]
  rfl

/-- The depth and its limit are those of before. -/
def Levels {α : Type} (p : Parser α) : Prop := ∀ s, (p s).2.depth = s.depth ∧ (p s).2.maxDepth = s.maxDepth

theorem Levels.bind {α β : Type} {p : Parser α} {q : α → Parser β} (first : Levels p)
    (rest : ∀ a, Levels (q a)) : Levels (p >>= q) := by
  intro s
  obtain ⟨depth, limit⟩ := first s
  obtain ⟨depth', limit'⟩ := rest (p s).1 (p s).2
  exact ⟨depth'.trans depth, limit'.trans limit⟩

/-- How the trees that a run adds without limits compare with the limit on the depth, when the run under
limits leads from `s` to `s'`: they nest no deeper than the limit allows, and deeper if that limit is the one
exceeded. The levels that are already part of the depth are `offset`. -/
structure Nests (offset : Nat) (s s' : State) (added : List Tree) : Prop where
  within : s'.exceeded = none → ∀ m ∈ s.maxDepth,
    Tree.nestingOf added ≤ offset ∨ s.depth + Tree.nestingOf added ≤ m + offset
  beyond : s'.exceeded = some .recursionLimitExceeded → ∃ m ∈ s.maxDepth,
    m + offset < s.depth + Tree.nestingOf added

/-- A production that exceeds the limit on the depth exactly if the trees that it adds without limits nest too
deep. -/
structure Exact {α : Type} (offset : Nat) (pre : List Token → Prop) (p : Parser α) : Prop
    extends Steady p where
  keeps : Keeps p
  levels : Levels p
  nests : ∀ s, s.exceeded = none → pre s.ahead →
    ∃ added, (p s.unlimited).2.built = s.built ++ added ∧ Nests offset s (p s).2 added

/-- A production that adds tokens only. -/
structure Flat {α : Type} (p : Parser α) : Prop extends Steady p where
  keeps : Keeps p
  levels : Levels p
  tokens : ∀ s, ∃ tokens : List Token, (p s).2.built = s.built ++ tokens.map Tree.token
  shallow : ∀ s, s.exceeded ≠ some .recursionLimitExceeded → (p s).2.exceeded ≠ some .recursionLimitExceeded

section Combinators

variable {α β : Type} {p p' : Parser α} {q : α → Parser β} {k : Nat} {pre pre' : List Token → Prop}

theorem Flat.quiet (steady : Steady p) (keeps : Keeps p) (levels : Levels p)
    (built : ∀ s, (p s).2.built = s.built) (exceeded : ∀ s, (p s).2.exceeded = s.exceeded) : Flat p :=
  { steady with
    keeps := keeps
    levels := levels
    tokens := fun s => ⟨[], by rw [built, List.map_nil, List.append_nil]⟩
    shallow := fun s other => by rwa [exceeded] }

theorem Flat.pure (a : α) : Flat (Pure.pure a : Parser α) :=
  .quiet (.pure a) (Follows.pure a).mono (fun _ => ⟨rfl, rfl⟩) (fun _ => rfl) fun _ => rfl

theorem Flat.bind (first : Flat p) (rest : ∀ a, Flat (q a)) : Flat (p >>= q) :=
  { first.toSteady.bind fun a => (rest a).toSteady with
    keeps := keeps_bind first.keeps fun a => (rest a).keeps
    levels := first.levels.bind fun a => (rest a).levels
    tokens := fun s => by
      obtain ⟨taken, built⟩ := first.tokens s
      obtain ⟨more, built'⟩ := (rest (p s).1).tokens (p s).2
      refine ⟨taken ++ more, built'.trans ?_⟩
      rw [built, List.map_append, List.append_assoc]
    shallow := fun s other => (rest _).shallow _ (first.shallow s other) }

/-- What is done with the state does not depend on the limits. -/
theorem Flat.get {q : State → Parser β} (blind : ∀ s, q s.unlimited = q s) (each : ∀ s, Flat (q s)) :
    Flat (MonadState.get >>= q) :=
  { Steady.get blind fun s => (each s).toSteady with
    keeps := fun s => (each s).keeps s
    levels := fun s => (each s).levels s
    tokens := fun s => (each s).tokens s
    shallow := fun s => (each s).shallow s }

theorem Flat.ite {cond : Prop} [Decidable cond] (yes : Flat p) (no : Flat p') :
    Flat (if cond then p else p') := by
  split
  · exact yes
  · exact no

theorem Flat.exact (h : Flat p) : Exact k pre p :=
  { h.toSteady with
    keeps := h.keeps
    levels := h.levels
    nests := fun s within _ => by
      obtain ⟨taken, built⟩ := h.tokens s.unlimited
      have other : s.exceeded ≠ some .recursionLimitExceeded := by
        rw [within]
        nofun
      refine ⟨taken.map Tree.token, built, fun _ m _ => .inl ?_, fun deep => absurd deep (h.shallow s other)⟩
      rw [Tree.nestingOf_tokens]
      exact Nat.zero_le k }

theorem Nests.append {s s' s'' : State} {xs ys : List Tree} (first : Nests k s s' xs)
    (second : Nests k s' s'' ys) (within : s'.exceeded = none) (depth : s'.depth = s.depth)
    (limit : s'.maxDepth = s.maxDepth) : Nests k s s'' (xs ++ ys) := by
  constructor
  · intro within' m member
    have here := first.within within m member
    have there := second.within within' m (limit ▸ member)
    rw [depth] at there
    rw [Tree.nestingOf_append]
    omega
  · intro deep
    obtain ⟨m, member, beyond⟩ := second.beyond deep
    rw [depth] at beyond
    refine ⟨m, limit ▸ member, ?_⟩
    rw [Tree.nestingOf_append]
    omega

/-- What is known of the tokens after the first part may be used for the rest. -/
theorem Exact.bindOf {post : α → List Token → Prop} (first : Exact k pre p)
    (tells : ∀ s, pre s.ahead → post (p s).1 (p s).2.ahead) (rest : ∀ a, Exact k (post a) (q a)) :
    Exact k pre (p >>= q) :=
  { first.toSteady.bind fun a => (rest a).toSteady with
    keeps := keeps_bind first.keeps fun a => (rest a).keeps
    levels := first.levels.bind fun a => (rest a).levels
    nests := fun s within holds => by
      obtain ⟨xs, built, nests⟩ := first.nests s within holds
      cases between : (p s).2.exceeded with
      | none =>
        -- so far both runs did the same, so the rest starts from the same state
        have same := first.same s between
        obtain ⟨ys, built', nests'⟩ := (rest (p s).1).nests (p s).2 between (tells s holds)
        rw [same] at built
        refine ⟨xs ++ ys, ?_, nests.append nests' between (first.levels s).1 (first.levels s).2⟩
        show (q (p s.unlimited).1 (p s.unlimited).2).2.built = _
        rw [same]
        refine built'.trans ?_
        rw [← List.append_assoc]
        exact congrArg (· ++ ys) built
      | some limit =>
        -- the limit that is exceeded stays, and without limits trees are only added
        have stays := (rest (p s).1).stays _ limit between
        obtain ⟨ys, built'⟩ := ((rest (p s.unlimited).1).keeps (p s.unlimited).2).built
        refine ⟨xs ++ ys, ?_, fun within' => ?_, fun deep => ?_⟩
        · rw [← List.append_assoc, ← built]
          exact built'.symm
        · cases stays.symm.trans within'
        · obtain ⟨m, member, beyond⟩ := nests.beyond (between.trans (stays.symm.trans deep))
          refine ⟨m, member, ?_⟩
          rw [Tree.nestingOf_append]
          omega }

theorem Exact.bind (first : Exact k pre p) (rest : ∀ a, Exact k ⊤ (q a)) : Exact k pre (p >>= q) :=
  first.bindOf (fun _ _ => trivial) rest

theorem Exact.look {c : Nat} {info : α → List Token → Prop} (flat : Flat p) (look : Looks c p info)
    (rest : ∀ a, Exact k (fun v => pre v ∧ info a v) (q a)) : Exact k pre (p >>= q) := by
  refine flat.exact.bindOf (fun s holds => ?_) rest
  rw [look.ahead]
  exact ⟨holds, look.tells s⟩

theorem Exact.pure (a : α) : Exact k pre (Pure.pure a : Parser α) := (Flat.pure a).exact

theorem Exact.given (h : Exact k pre p) (imp : ∀ v, pre' v → pre v) : Exact k pre' p :=
  { h with nests := fun s within holds => h.nests s within (imp _ holds) }

theorem Exact.ite {cond : Prop} [Decidable cond] (yes : Exact k pre p) (no : Exact k pre p') :
    Exact k pre (if cond then p else p') := by
  split
  · exact yes
  · exact no

end Combinators

/-! ## Looking, taking and reporting -/

theorem flat_settle : Flat settle :=
  .quiet steady_settle keeps_settle (fun _ => ⟨rfl, rfl⟩) (fun _ => rfl) fun _ => rfl

theorem flat_blame (fault : GrammarFault) : Flat (blame fault) :=
  .quiet (steady_blame fault) (keeps_blame fault) (fun _ => ⟨rfl, rfl⟩) (fun _ => rfl) fun _ => rfl

theorem flat_lookAhead : Flat lookAhead := by
  refine .quiet steady_lookAhead keeps_lookAhead ?_ ?_ ?_ <;>
  · intro s
    rw [lookAhead_eq]
    split <;> first | rfl | exact ⟨rfl, rfl⟩

theorem flat_current : Flat current :=
  flat_settle.bind fun _ => flat_lookAhead.bind fun _ => .get (fun _ => rfl) fun _ => .pure _

theorem flat_currentText : Flat currentText :=
  flat_settle.bind fun _ => .get (fun _ => rfl) fun _ => .pure _

theorem flat_currentRange : Flat currentRange :=
  flat_settle.bind fun _ => .get (fun _ => rfl) fun _ => .pure _

theorem flat_currentlyIs (kind : SyntaxKind) : Flat (currentlyIs kind) :=
  flat_current.bind fun _ => .pure _

theorem flat_currentlyIn (kinds : TokenSet) : Flat (currentlyIn kinds) :=
  flat_current.bind fun _ => .pure _

theorem flat_atKeyword (keyword : String) : Flat (atKeyword keyword) :=
  (flat_currentlyIs .identifier).bind fun _ => .ite (flat_currentText.bind fun _ => .pure _) (.pure _)

theorem flat_nextIs (kind : SyntaxKind) : Flat (nextIs kind) :=
  flat_settle.bind fun _ => flat_lookAhead.bind fun _ => .get (fun _ => rfl) fun _ => .pure _

theorem flat_shouldStop : Flat shouldStop :=
  flat_settle.bind fun _ => .get (fun _ => rfl) fun _ => .pure _

theorem flat_flush : Flat flush :=
  { steady_flush with
    keeps := keeps_flush
    levels := fun _ => ⟨rfl, rfl⟩
    tokens := fun s => ⟨s.pending, rfl⟩
    shallow := fun _ other => other }

/-- The limit that a token may exceed is the one on the fuel. -/
theorem flat_spendFuel : Flat spendFuel :=
  { steady_spendFuel with
    keeps := keeps_spendFuel
    levels := fun s => by
      rw [spendFuel_eq]
      split <;> exact ⟨rfl, rfl⟩
    tokens := fun s => by
      refine ⟨[], ?_⟩
      rw [spendFuel_eq, List.map_nil, List.append_nil]
      split <;> rfl
    shallow := fun s other => by
      rw [spendFuel_eq]
      split
      · exact other
      · show s.exceeded.or _ ≠ _
        cases already : s.exceeded with
        | none => nofun
        | some limit =>
          rw [already] at other
          exact other
      · exact other }

theorem flat_bumpAs (kind : SyntaxKind) : Flat (bumpAs kind) := by
  refine flat_settle.bind fun _ => .get (fun _ => rfl) fun s => ?_
  split
  · exact .pure ()
  · rename_i token rest _
    refine flat_spendFuel.bind fun _ => flat_flush.bind fun _ => ?_
    exact
      { Steady.quiet (fun _ => rfl) (fun _ => rfl) (fun _ => rfl) fun _ => rfl with
        keeps := fun s => ⟨id, rfl, List.prefix_append _ _⟩
        levels := fun _ => ⟨rfl, rfl⟩
        tokens := fun s => ⟨[{ token with kind }], rfl⟩
        shallow := fun _ other => other }

theorem flat_bump : Flat bump := flat_current.bind fun _ => flat_bumpAs _

theorem flat_eat (kind : SyntaxKind) : Flat (eat kind) :=
  (flat_currentlyIs kind).bind fun _ => .ite (flat_bump.bind fun _ => .pure _) (.pure _)

theorem flat_eatKeyword (keyword : String) (kind : SyntaxKind) : Flat (eatKeyword keyword kind) :=
  (flat_atKeyword keyword).bind fun _ => .ite ((flat_bumpAs kind).bind fun _ => .pure _) (.pure _)

theorem flat_claim (offset : Nat) : Flat (claim offset) := by
  refine .quiet (steady_claim offset) (keeps_claim offset) ?_ ?_ ?_ <;>
  · intro s
    rw [claim_eq]
    split <;> first | rfl | exact ⟨rfl, rfl⟩

theorem flat_report {make : State → Diagnostic} (steady : Steady (do report (make (← MonadState.get)))) :
    Flat (do report (make (← MonadState.get))) :=
  .quiet steady (keeps_report make) (fun _ => ⟨rfl, rfl⟩) (fun _ => rfl) fun _ => rfl

theorem flat_errorHere {kind : DiagnosticKind} (error : kind.severity = .error) (detail : String) :
    Flat (errorHere kind detail) := by
  refine flat_currentRange.bind fun range => (flat_claim _).bind fun _ => .ite ?_ (.pure ())
  exact flat_report (steady_report (fun s => (Diagnostic.located s.source kind range).withDetail detail)
    (fun _ => rfl) (fun _ => by simp [error]) fun _ => by simp)

theorem flat_errorExpected {kind : DiagnosticKind} (error : kind.severity = .error) (what : String) :
    Flat (errorExpected kind what) :=
  flat_currentText.bind fun _ => flat_errorHere error _

theorem flat_expect (kind : SyntaxKind) (what : String) : Flat (expect kind what) :=
  (flat_eat kind).bind fun _ => .ite (.pure _) ((flat_errorExpected rfl _).bind fun _ => .pure _)

theorem flat_expectName (what : String) : Flat (expectName what) :=
  (flat_eat .identifier).bind fun _ => .ite (.pure _) ((flat_errorExpected rfl _).bind fun _ => .pure _)

theorem flat_assertCurrent (kind : SyntaxKind) : Flat (assertCurrent kind) :=
  (flat_currentlyIs kind).bind fun _ => .ite (flat_blame _) (.pure ())

theorem flat_closeDelimiter (opener : TextRange) (close : SyntaxKind) {kind : DiagnosticKind}
    (error : kind.severity = .error) (construct : String) :
    Flat (closeDelimiter opener close kind construct) := by
  refine (flat_eat close).bind fun _ => .ite ?_ (.pure ())
  refine flat_currentRange.bind fun _ => (flat_claim _).bind fun _ => .ite ?_ (.pure ())
  exact flat_report (steady_report (fun s => (Diagnostic.located s.source kind
    ⟨opener.start, max s.lastStop opener.stop⟩).relatedTo (construct ++ " started here") opener)
    (fun _ => rfl) (fun _ => by simp [error]) fun _ => by simp)

theorem flat_skipStep (stops : TokenSet) : Flat (skipStep stops) :=
  flat_shouldStop.bind fun _ => .ite (.pure _) <| (flat_currentlyIn stops).bind fun _ =>
    .ite (.pure _) (flat_bump.bind fun _ => .pure _)

/-! ## Nodes -/

section Nodes

variable {body : Parser Unit} {pre : List Token → Prop} {k : Nat}

theorem levels_node (keeps : Keeps body) (levels : Levels body) (kind : SyntaxKind) :
    Levels (node kind body) := by
  intro s
  rw [node_eq (keeps _)]
  exact levels (startNode kind s).2

/-- What a node holds is compared with the limit from where the node starts. -/
theorem Exact.inside (h : Exact k pre body) (kind : SyntaxKind) {s : State} (within : s.exceeded = none)
    (holds : pre s.ahead) : ∃ tokens inner,
      (node kind body s.unlimited).2.built = s.built ++ (List.map Tree.token tokens ++ [.node kind inner]) ∧
        Nests k s (node kind body s).2 inner := by
  obtain ⟨inner, built, nests⟩ := h.nests (startNode kind s).2 within holds
  refine ⟨s.pending, inner, ?_, ?_⟩
  · rw [built_node h.keeps]
    exact congrArg (fun trees => s.built ++ (s.pending.map Tree.token ++ [.node kind trees])) built
  · rw [node_eq (h.keeps _)]
    exact ⟨nests.within, nests.beyond⟩

/-- A node that is no level of its own. -/
theorem Exact.plain {kind : SyntaxKind} (plain : kind.isPlain = true) (h : Exact k pre body) :
    Exact k pre (node kind body) :=
  { h.toSteady.node kind with
    keeps := keeps_node h.keeps kind
    levels := levels_node h.keeps h.levels kind
    nests := fun s within holds => by
      obtain ⟨tokens, inner, built, nests⟩ := h.inside kind within holds
      have same : Tree.nestingOf (tokens.map Tree.token ++ [.node kind inner]) = Tree.nestingOf inner := by
        rw [Tree.nestingOf_tokens_node, Tree.nesting_plain plain]
      refine ⟨_, built, ?_, ?_⟩
      · rw [same]
        exact nests.within
      · rw [same]
        exact nests.beyond }

/-- A production that adds a level to what is around it. -/
structure Level {α : Type} (pre : List Token → Prop) (p : Parser α) : Prop extends Exact 1 pre p where
  opens : ∀ s, pre s.ahead → ∃ added, (p s).2.built = s.built ++ added ∧ 1 ≤ Tree.nestingOf added

theorem Exact.level {kind : SyntaxKind} (level : kind.isLevel = true) (h : Exact 0 pre body) :
    Level pre (node kind body) :=
  { h.toSteady.node kind with
    keeps := keeps_node h.keeps kind
    levels := levels_node h.keeps h.levels kind
    nests := fun s within holds => by
      obtain ⟨tokens, inner, built, nests⟩ := h.inside kind within holds
      have deeper : Tree.nestingOf (tokens.map Tree.token ++ [.node kind inner]) =
          Tree.nestingOf inner + 1 := by
        rw [Tree.nestingOf_tokens_node, Tree.nesting_level level]
      refine ⟨_, built, fun within' m member => ?_, fun deep => ?_⟩
      · have := nests.within within' m member
        rw [deeper]
        omega
      · obtain ⟨m, member, beyond⟩ := nests.beyond deep
        refine ⟨m, member, ?_⟩
        rw [deeper]
        omega
    opens := fun s _ => by
      refine ⟨_, built_node h.keeps kind s, ?_⟩
      rw [Tree.nestingOf_tokens_node, Tree.nesting_level level]
      omega }

/-- Tokens before a level, and what is known after them. -/
theorem Level.afterOf {α β : Type} {p : Parser α} {q : α → Parser β} {post : α → List Token → Prop}
    (flat : Flat p) (tells : ∀ s, pre s.ahead → post (p s).1 (p s).2.ahead)
    (rest : ∀ a, Level (post a) (q a)) : Level pre (p >>= q) :=
  { flat.exact.bindOf tells fun a => (rest a).toExact with
    opens := fun s holds => by
      obtain ⟨tokens, built⟩ := flat.tokens s
      obtain ⟨added, built', opens⟩ := (rest (p s).1).opens (p s).2 (tells s holds)
      refine ⟨tokens.map Tree.token ++ added, ?_, ?_⟩
      · rw [← List.append_assoc, ← built]
        exact built'
      · rw [Tree.nestingOf_append]
        omega }

theorem Level.after {α β : Type} {p : Parser α} {q : α → Parser β} (flat : Flat p)
    (rest : ∀ a, Level ⊤ (q a)) : Level pre (p >>= q) :=
  .afterOf flat (fun _ _ => trivial) rest

theorem Level.look {α β : Type} {p : Parser α} {q : α → Parser β} {c : Nat} {info : α → List Token → Prop}
    (flat : Flat p) (look : Looks c p info) (rest : ∀ a, Level (fun v => pre v ∧ info a v) (q a)) :
    Level pre (p >>= q) := by
  refine .afterOf flat (fun s holds => ?_) rest
  rw [look.ahead]
  exact ⟨holds, look.tells s⟩

theorem Level.andThen {α β : Type} {p : Parser α} {q : α → Parser β} (h : Level pre p)
    (rest : ∀ a, Flat (q a)) : Level pre (p >>= q) :=
  { h.toExact.bind fun a => (rest a).exact with
    opens := fun s holds => by
      obtain ⟨added, built, opens⟩ := h.opens s holds
      obtain ⟨tokens, built'⟩ := (rest (p s).1).tokens (p s).2
      refine ⟨added ++ tokens.map Tree.token, ?_, ?_⟩
      · rw [← List.append_assoc, ← built]
        exact built'
      · rw [Tree.nestingOf_append]
        omega }

/-- Nothing is added where no tokens satisfy the condition. -/
theorem Level.never {α : Type} {p : Parser α} (flat : Flat p) (never : ∀ v, ¬ pre v) : Level pre p :=
  { flat.exact with opens := fun _ holds => absurd holds (never _) }

theorem keeps_nested (keeps : Keeps body) : Keeps (nested body) :=
  keeps_bind keeps_enter fun _ => keeps_ite (keeps_bind keeps fun _ => keeps_leave) (Follows.pure ()).mono

theorem exists_maxDepth_le {s : State} (deep : s.maxDepth.any (· ≤ s.depth) = true) :
    ∃ m ∈ s.maxDepth, m ≤ s.depth := by
  obtain ⟨m, member, least⟩ := (Option.any_eq_true _ _).1 deep
  exact ⟨m, member, of_decide_eq_true least⟩

theorem lt_maxDepth {s : State} (shallow : s.maxDepth.any (· ≤ s.depth) = false) {m : Nat}
    (member : m ∈ s.maxDepth) : s.depth < m := by
  rw [Option.mem_def.1 member] at shallow
  exact Nat.lt_of_not_le (of_decide_eq_false shallow)

/-- Going one level deeper for a production that adds a level. -/
theorem Level.nested (h : Level pre body) : Exact 0 pre (nested body) :=
  { h.toSteady.nested with
    keeps := keeps_nested h.keeps
    levels := fun s => by
      cases deep : s.maxDepth.any (· ≤ s.depth) with
      | true =>
        rw [nested_of_deep deep]
        exact ⟨rfl, rfl⟩
      | false =>
        obtain ⟨depth, limit⟩ := h.levels s.deeper
        rw [nested_of_shallow deep]
        exact ⟨congrArg (· - 1) depth, limit⟩
    nests := fun s within holds => by
      have unlimited : Parser.nested body s.unlimited = leave (body s.deeper.unlimited).2 :=
        nested_of_shallow rfl body
      rw [unlimited]
      cases deep : s.maxDepth.any (· ≤ s.depth) with
      | true =>
        -- without limits the level that is not entered is there
        obtain ⟨added, built, opens⟩ := h.opens s.deeper.unlimited holds
        obtain ⟨m, member, least⟩ := exists_maxDepth_le deep
        rw [nested_of_deep deep]
        refine ⟨added, built, fun within' => absurd within' (exceeded_exceed _ s), fun _ => ?_⟩
        exact ⟨m, member, by omega⟩
      | false =>
        obtain ⟨added, built, nests⟩ := h.nests s.deeper within holds
        rw [nested_of_shallow deep]
        refine ⟨added, built, fun within' m member => ?_, fun beyond => ?_⟩
        · have enough : s.depth + 1 + Tree.nestingOf added ≤ m + 1 ∨ Tree.nestingOf added ≤ 1 :=
            (nests.within within' m member).symm
          have room := lt_maxDepth deep member
          omega
        · obtain ⟨m, member, deeper⟩ := nests.beyond beyond
          have deeper : m + 1 < s.depth + 1 + Tree.nestingOf added := deeper
          exact ⟨m, member, by omega⟩ }

/-! ## Loops and delimited constructs -/

theorem Exact.loop {step : Parser Bool} (h : Exact k ⊤ step) : Exact k ⊤ (loop step) := by
  have rounds (bound : Nat) : Exact k ⊤ (repeatStep bound step) := by
    induction bound with
    | zero => exact (flat_blame .overrun).exact
    | succ bound ih => exact h.bind fun _ => .ite ih (.pure ())
  exact
    { h.toSteady.loop with
      keeps := fun s => (rounds (s.rest.length + 1)).keeps s
      levels := fun s => (rounds (s.rest.length + 1)).levels s
      nests := fun s => (rounds (s.rest.length + 1)).nests s }

/-- What stands between delimiters, with the delimiters. -/
theorem exact_between (h : Exact 0 ⊤ body) (close : SyntaxKind) {kind : DiagnosticKind}
    (error : kind.severity = .error) (construct : String) :
    Exact 0 pre (do
      let opener ← currentRange
      bump
      body
      closeDelimiter opener close kind construct) :=
  flat_currentRange.exact.bind fun _ => flat_bump.exact.bind fun _ => h.bind fun _ =>
    (flat_closeDelimiter _ close error construct).exact

/-- A delimited construct that is a level of its own. -/
theorem Level.delimited {nodeKind : SyntaxKind} {kind : DiagnosticKind} (level : nodeKind.isLevel = true)
    (error : kind.severity = .error) (h : Exact 0 ⊤ body) (close : SyntaxKind) (construct : String) :
    Level pre (delimited nodeKind close kind construct body) :=
  (exact_between h close error construct).level level

/-- A delimited construct that is no level of its own. -/
theorem Exact.delimited {nodeKind : SyntaxKind} {kind : DiagnosticKind} (plain : nodeKind.isPlain = true)
    (error : kind.severity = .error) (h : Exact 0 ⊤ body) (close : SyntaxKind) (construct : String) :
    Exact 0 pre (Parser.delimited nodeKind close kind construct body) :=
  (exact_between h close error construct).plain plain

end Nodes

theorem exact_skipUnexpected (what : String) : Exact 0 ⊤ (skipUnexpected what) :=
  flat_currentText.exact.bind fun _ => (flat_errorHere rfl _).exact.bind fun _ =>
    flat_shouldStop.exact.bind fun _ => .ite (Exact.plain rfl flat_bump.exact) (.pure ())

theorem exact_recover {kind : DiagnosticKind} (error : kind.severity = .error) (what : String)
    (stops : TokenSet) : Exact 0 ⊤ (recover kind what stops) :=
  (flat_currentlyIn stops).exact.bind fun _ => flat_shouldStop.exact.bind fun _ =>
    .ite (flat_errorExpected error what).exact
      (Exact.plain rfl ((flat_errorExpected error what).exact.bind fun _ => (flat_skipStep stops).exact.loop))

/-! ## Types -/

/-- The next token may start a type. -/
def StartsType (v : List Token) : Prop := TokenSet.typeFirst.contains (headKind v) = true

theorem level_baseType {item : Parser Unit} (h : Exact 0 StartsType item) :
    Level StartsType (baseType item) := by
  have inner : Exact 0 ⊤ (do
      if ← currentlyIn .typeFirst then item
      else errorExpected .expectedType "a list item type") := by
    refine .look (flat_currentlyIn _) (looks_currentlyIn _) fun here => ?_
    cases here with
    | true => exact h.given fun v told => told.2
    | false => exact (flat_errorExpected rfl _).exact
  refine .look flat_current looks_current fun kind => ?_
  split
  · exact (Exact.level rfl flat_bump.exact).andThen fun _ => .pure true
  · exact (Level.delimited rfl rfl inner _ _).andThen fun _ => .pure true
  · rename_i named list
    refine .never ((flat_errorExpected rfl _).bind fun _ => .pure false) fun v told => ?_
    have starts : TokenSet.typeFirst.contains (headKind v) = true := told.1
    rw [told.2] at starts
    have either : kind = .identifier ∨ kind = .bracketOpen := by
      simpa [TokenSet.typeFirst, TokenSet.contains] using starts
    exact either.elim named list

/-- The end of a type that was built after `before` changes neither the depth nor how deep the type nests. -/
structure Finished (before since : List Tree) (s s' : State) : Prop where
  adds : ∃ added, s'.built = before ++ added ∧ Tree.nestingOf added = Tree.nestingOf since
  levels : s'.depth = s.depth ∧ s'.maxDepth = s.maxDepth
  shallow : s.exceeded ≠ some .recursionLimitExceeded → s'.exceeded ≠ some .recursionLimitExceeded

theorem finished_finishType {s : State} {before since : List Tree} (built : s.built = before ++ since) :
    Finished before since s (finishType ⟨s.enclosing.length, before.length⟩ s).2 := by
  have flat := flat_currentlyIs .bang
  have still : (currentlyIs .bang s).2.built = before ++ since := (built_current s).trans built
  have around : (currentlyIs .bang s).2.enclosing = s.enclosing := (flat.keeps s).enclosing
  show Finished before since s ((if (currentlyIs .bang s).1 = true then _ else Pure.pure () : Parser Unit)
    (currentlyIs .bang s).2).2
  split
  · rw [← around, nodeAt_eq keeps_bump .nonNullType still]
    generalize inner : ({ (currentlyIs .bang s).2 with
      built := since
      enclosing := (.nonNullType, before) :: (currentlyIs .bang s).2.enclosing } : State) = u
    obtain ⟨tokens, taken⟩ := flat_bump.tokens u
    obtain ⟨depth, limit⟩ := flat_bump.levels u
    subst inner
    refine ⟨⟨_, rfl, ?_⟩, ⟨depth.trans (flat.levels s).1, limit.trans (flat.levels s).2⟩, fun other => ?_⟩
    · rw [taken, Tree.nestingOf_cons, Tree.nesting_plain rfl, Tree.nestingOf_append,
        Tree.nestingOf_tokens]
      simp
    · exact flat_bump.shallow _ (flat.shallow s other)
  · exact ⟨⟨since, still, rfl⟩, flat.levels s, flat.shallow s⟩

theorem finished_typeFrom {base : Parser Bool} {s : State} {since : List Tree}
    (enclosing : (base s).2.enclosing = s.enclosing) (built : (base s).2.built = s.built ++ since) :
    Finished s.built since (base s).2 (typeFrom base ⟨s.enclosing.length, s.built.length⟩ s).2 := by
  show Finished _ _ _ ((if (base s).1 = true then finishType _ else Pure.pure () : Parser Unit) (base s).2).2
  split
  · rw [← enclosing]
    exact finished_finishType built
  · exact ⟨⟨since, built, rfl⟩, ⟨rfl, rfl⟩, id⟩

theorem steady_finishType (start : Checkpoint) : Steady (finishType start) :=
  (steady_currentlyIs .bang).bind fun _ => .ite (steady_bump.nodeAt start _) (.pure ())

theorem level_typeFrom {pre : List Token → Prop} {base : Parser Bool} (h : Level pre base) :
    Level pre (do let start ← checkpoint; typeFrom base start) := by
  have ends (start : Checkpoint) (found : Bool) : Steady (do if found then finishType start) :=
    .ite (steady_finishType start) (.pure ())
  have steady (start : Checkpoint) : Steady (typeFrom base start) := h.toSteady.bind (ends start)
  have finished (s : State) {since : List Tree} (built : (base s).2.built = s.built ++ since) :=
    finished_typeFrom (h.keeps s).enclosing built
  exact
    { steady_checkpoint.bind steady with
      keeps := fun s => (keeps_flush s).trans (keeps_typeFrom h.keeps (flush s).2)
      levels := fun s => by
        obtain ⟨since, built⟩ := (h.keeps (flush s).2).built
        obtain ⟨depth, limit⟩ := h.levels (flush s).2
        obtain ⟨depth', limit'⟩ := (finished (flush s).2 built.symm).levels
        exact ⟨depth'.trans depth, limit'.trans limit⟩
      nests := fun s within holds => by
        obtain ⟨since, built, nests⟩ := h.nests (flush s).2 within holds
        obtain ⟨added, built', same⟩ := (finished (flush s).2.unlimited built).adds
        have nesting : Tree.nestingOf (s.pending.map Tree.token ++ added) = Tree.nestingOf since := by
          rw [Tree.nestingOf_append, Tree.nestingOf_tokens, same, Nat.zero_max]
        refine ⟨s.pending.map Tree.token ++ added, ?_, fun within' => ?_, fun deep => ?_⟩
        · rw [← List.append_assoc]
          exact built'
        · rw [nesting]
          exact nests.within ((ends _ _).within within')
        · rw [nesting]
          apply nests.beyond
          by_contra other
          obtain ⟨limited, built''⟩ := (h.keeps (flush s).2).built
          exact (finished (flush s).2 built''.symm).shallow other deep
      opens := fun s holds => by
        obtain ⟨since, built, opens⟩ := h.opens (flush s).2 holds
        obtain ⟨added, built', same⟩ := (finished (flush s).2 built).adds
        refine ⟨s.pending.map Tree.token ++ added, ?_, ?_⟩
        · rw [← List.append_assoc]
          exact built'
        · rw [Tree.nestingOf_append, same]
          omega }

theorem exact_typeExpr : ∀ bound, Exact 0 StartsType (typeExpr bound)
  | 0 => (flat_blame .overrun).exact
  | bound + 1 => (level_typeFrom (level_baseType (exact_typeExpr bound))).nested

/-! ## Values -/

theorem level_variableUse {pre : List Token → Prop} : Level pre variableUse :=
  .after (flat_assertCurrent _) fun _ => Exact.level rfl <| flat_bump.exact.bind fun _ =>
    (flat_expectName _).exact.bind fun _ => .pure ()

theorem exact_listItem {value : String → Parser Unit} (h : ∀ what, Exact 0 ⊤ (value what)) :
    Exact 0 ⊤ (listItem value) :=
  flat_shouldStop.exact.bind fun _ => .ite (.pure _) <|
    (flat_currentlyIs .bracketClose).exact.bind fun _ => .ite (.pure _) <|
    (flat_eat .comma).exact.bind fun _ => .ite (.pure _) <|
    (flat_currentlyIn .valueFirst).exact.bind fun _ => .ite ((h _).bind fun _ => .pure _) <|
    (flat_currentlyIs .parenClose).exact.bind fun _ => .ite (.pure _) <|
    (flat_currentlyIs .braceClose).exact.bind fun _ => .ite (.pure _) <|
    (exact_skipUnexpected _).bind fun _ => .pure _

/-- A round of a list, once it is known what is done at each kind of token. -/
theorem exact_round {close : SyntaxKind} {choose : SyntaxKind → Parser Bool}
    (chosen : ∀ kind, Exact 0 ⊤ (choose kind)) :
    Exact 0 ⊤ (do
      if ← shouldStop then return false
      else if ← currentlyIs close then return false
      else choose (← current)) :=
  flat_shouldStop.exact.bind fun _ => .ite (.pure _) <|
    (flat_currentlyIs close).exact.bind fun _ => .ite (.pure _) (flat_current.exact.bind chosen)

/-- `name: value` -/
theorem exact_entry {value : String → Parser Unit} (h : ∀ what, Exact 0 ⊤ (value what)) {kind : SyntaxKind}
    (plain : kind.isPlain = true) (colon what : String) :
    Exact 0 ⊤ (node kind do bump; if ← expect .colon colon then value what) :=
  .plain plain (flat_bump.exact.bind fun _ => (flat_expect _ _).exact.bind fun _ => .ite (h _) (.pure ()))

theorem exact_objectItem {value : String → Parser Unit} (h : ∀ what, Exact 0 ⊤ (value what)) :
    Exact 0 ⊤ (objectItem value) := by
  refine exact_round fun kind => ?_
  split
  · exact flat_bump.exact.bind fun _ => .pure _
  · exact (exact_entry h rfl _ _).bind fun _ => .pure _
  · exact .pure _
  · exact .pure _
  · exact (exact_skipUnexpected _).bind fun _ => .pure _

theorem level_valueBody {value : String → Parser Unit} (h : ∀ what, Exact 0 ⊤ (value what)) :
    Level ⊤ (valueBody value) := by
  refine .after flat_current fun kind => ?_
  split
  · exact level_variableUse
  · exact .delimited rfl rfl (exact_listItem h).loop _ _
  · exact .delimited rfl rfl (exact_objectItem h).loop _ _
  · exact .after flat_currentText fun _ => (flat_bumpAs _).exact.level rfl
  · exact flat_bump.exact.level rfl

theorem exact_value : ∀ bound what, Exact 0 ⊤ (value bound what)
  | 0, _ => (flat_blame .overrun).exact
  | bound + 1, _ => (flat_currentlyIn .valueFirst).exact.bind fun _ =>
      .ite (level_valueBody (exact_value bound)).nested (flat_errorExpected rfl _).exact

/-! ## Arguments, directives and selections -/

theorem exact_argumentItem (bound : Nat) : Exact 0 ⊤ (argumentItem bound) := by
  refine exact_round fun kind => ?_
  split
  · exact flat_bump.exact.bind fun _ => .pure _
  · exact (exact_entry (exact_value bound) rfl _ _).bind fun _ => .pure _
  · exact .pure _
  · exact .pure _
  · exact (exact_skipUnexpected _).bind fun _ => .pure _

theorem exact_arguments (bound : Nat) : Exact 0 ⊤ (arguments bound) :=
  (flat_assertCurrent _).exact.bind fun _ => .delimited rfl rfl (exact_argumentItem bound).loop _ _

theorem exact_directive (bound : Nat) : Exact 0 ⊤ (directive bound) :=
  Exact.plain rfl <| flat_bump.exact.bind fun _ => (flat_expectName _).exact.bind fun _ => .ite
    ((flat_currentlyIs .parenOpen).exact.bind fun _ => .ite (exact_arguments bound) (.pure ())) (.pure ())

theorem exact_directives (bound : Nat) : Exact 0 ⊤ (directives bound) :=
  Exact.loop <| (flat_currentlyIs .atSign).exact.bind fun _ => .ite
    (flat_shouldStop.exact.bind fun _ => .ite (.pure _) ((exact_directive bound).bind fun _ => .pure _))
    (.pure _)

/-- A piece that is done under a condition, before the rest. -/
theorem Exact.when {test : Parser Bool} {p : Parser Unit} {q : Unit → Parser Unit} (look : Flat test)
    (h : Exact 0 ⊤ p) (rest : ∀ u, Exact 0 ⊤ (q u)) :
    Exact 0 ⊤ (do if ← test then (do q (← p)) else q ()) :=
  look.exact.bind fun _ => .ite (h.bind rest) (rest ())

theorem exact_selection (bound : Nat) {set : Parser Unit} (h : Exact 0 ⊤ set) :
    Exact 0 ⊤ (selection bound set) := by
  have tail : Exact 0 ⊤ (do directives bound; if ← currentlyIs .braceOpen then set) :=
    (exact_directives bound).bind fun _ => (flat_currentlyIs .braceOpen).exact.bind fun _ =>
      .ite h (.pure ())
  have named := Exact.when (flat_currentlyIs .parenOpen) (exact_arguments bound) fun _ => tail
  have label : Exact 0 ⊤ (node .aliasLabel do bump; bump) :=
    Exact.plain rfl (flat_bump.exact.bind fun _ => flat_bump.exact)
  exact Exact.plain rfl <| .when (flat_nextIs .colon) label fun _ => (flat_expectName _).exact.bind fun _ =>
    .ite named (.pure ())

theorem exact_selectionItem (bound : Nat) {set : Parser Unit} (h : Exact 0 ⊤ set) :
    Exact 0 ⊤ (selectionItem bound set) := by
  refine exact_round fun kind => ?_
  split
  · exact flat_bump.exact.bind fun _ => .pure _
  · exact (exact_selection bound h).bind fun _ => .pure _
  · exact (exact_skipUnexpected _).bind fun _ => .pure _

theorem exact_selectionSet : ∀ bound, Exact 0 ⊤ (selectionSet bound)
  | 0 => (flat_blame .overrun).exact
  | bound + 1 => (flat_assertCurrent _).exact.bind fun _ =>
      (Level.delimited rfl rfl (exact_selectionItem (bound + 1) (exact_selectionSet bound)).loop _ _).nested

/-! ## Declarations -/

theorem exact_declTarget : Exact 0 ⊤ declTarget :=
  Exact.plain rfl <| (flat_expectName _).exact.bind fun _ => .ite ((flat_expect _ _).exact.bind fun _ =>
    .ite ((flat_expectName _).exact.bind fun _ => .pure ()) (.pure ())) (.pure ())

/-- A production that adds one node after tokens, and goes no level deeper for it. -/
structure Names (p : Parser Unit) : Prop extends Steady p where
  keeps : Keeps p
  levels : Levels p
  names : ∀ s, ∃ tokens kind inner,
    (p s).2.built = s.built ++ (List.map Tree.token tokens ++ [.node kind inner])
  shallow : ∀ s, s.exceeded ≠ some .recursionLimitExceeded → (p s).2.exceeded ≠ some .recursionLimitExceeded

theorem bind_eq {α β : Type} (p : Parser α) (q : α → Parser β) (s : State) :
    (p >>= q) s = q (p s).1 (p s).2 := rfl

theorem variableUse_eq (s : State) :
    variableUse s = node .variableUse (do bump; discard <| expectName "a variable name")
      (assertCurrent .dollar s).2 := bind_eq _ _ s

/-- The name of a variable in its definition is no value. -/
theorem names_variableUse : Names variableUse := by
  have inside : Flat (do bump; discard <| expectName "a variable name") :=
    flat_bump.bind fun _ => (flat_expectName _).bind fun _ => .pure ()
  have exact : Exact 1 ⊤ variableUse := level_variableUse.toExact
  refine
    { exact.toSteady with
      keeps := exact.keeps
      levels := exact.levels
      names := fun s => ?_
      shallow := fun s other => ?_ }
  · obtain ⟨tokens, built⟩ := (flat_assertCurrent .dollar).tokens s
    have added := built_node inside.keeps .variableUse (assertCurrent .dollar s).2
    rw [built, List.append_assoc, ← List.append_assoc (tokens.map _), ← List.map_append] at added
    rw [variableUse_eq]
    exact ⟨_, _, _, added⟩
  · have before := (flat_assertCurrent .dollar).shallow s other
    rw [variableUse_eq]
    generalize (assertCurrent .dollar s).2 = u at before ⊢
    rw [node_eq (inside.keeps _)]
    exact inside.shallow (startNode .variableUse u).2 before

section Definitions

variable {p : Parser Unit} {q : Unit → Parser Unit}

/-- Inside a definition only what comes after the name is compared with the limit. -/
theorem Names.inside (name : Names p) (rest : ∀ a, Exact 0 ⊤ (q a)) {s : State} (empty : s.built = [])
    (within : s.exceeded = none) : ∃ added,
      Tree.nestingAfterName ((p >>= q) s.unlimited).2.built = Tree.nestingOf added ∧
        Nests 0 s ((p >>= q) s).2 added := by
  obtain ⟨tokens, kind, inner, named⟩ := name.names s.unlimited
  rw [State.unlimited_built, empty, List.nil_append] at named
  obtain ⟨added, after⟩ := ((rest (p s.unlimited).1).keeps (p s.unlimited).2).built
  have nesting : Tree.nestingAfterName ((p >>= q) s.unlimited).2.built = Tree.nestingOf added := by
    show Tree.nestingAfterName (q (p s.unlimited).1 (p s.unlimited).2).2.built = _
    rw [← after, named, List.append_assoc, List.singleton_append, Tree.nestingAfterName_tokens_node]
  refine ⟨added, nesting, ?_⟩
  cases between : (p s).2.exceeded with
  | none =>
    rw [name.same s between] at after
    obtain ⟨more, built, nests⟩ := (rest (p s).1).nests (p s).2 between trivial
    obtain rfl : added = more := List.append_cancel_left (after.trans built)
    obtain ⟨depth, limit⟩ := name.levels s
    constructor
    · rw [← depth, ← limit]
      exact nests.within
    · rw [← depth, ← limit]
      exact nests.beyond
  | some limit =>
    -- taking the name can only have used up the fuel
    have stays : ((p >>= q) s).2.exceeded = some limit := (rest (p s).1).stays _ limit between
    have fuel : some limit ≠ some .recursionLimitExceeded := by
      rw [← between]
      apply name.shallow
      rw [within]
      nofun
    constructor
    · intro within'
      cases stays.symm.trans within'
    · intro deep
      exact absurd (stays.symm.trans deep) fuel

/-- The definition of a variable nests as deep as what comes after its name. -/
theorem Exact.named {pre : List Token → Prop} (name : Names p) (rest : ∀ a, Exact 0 ⊤ (q a)) :
    Exact 0 pre (node .variableDef (p >>= q)) := by
  have keeps : Keeps (p >>= q) := keeps_bind name.keeps fun a => (rest a).keeps
  have levels : Levels (p >>= q) := name.levels.bind fun a => (rest a).levels
  refine
    { (name.toSteady.bind fun a => (rest a).toSteady).node .variableDef with
      keeps := keeps_node keeps .variableDef
      levels := levels_node keeps levels .variableDef
      nests := fun s within _ => ⟨_, built_node keeps .variableDef s.unlimited, ?_⟩ }
  obtain ⟨added, nesting, nests⟩ := name.inside rest (s := (startNode .variableDef s).2) rfl within
  have same : Tree.nestingOf (s.pending.map Tree.token ++ [.node .variableDef
      ((p >>= q) (startNode .variableDef s.unlimited).2).2.built]) = Tree.nestingOf added := by
    rw [Tree.nestingOf_tokens_node, Tree.nesting, if_pos rfl]
    exact nesting
  rw [node_eq (keeps _)]
  constructor
  · show _ → ∀ m ∈ s.maxDepth, Tree.nestingOf (s.pending.map Tree.token ++ _) ≤ 0 ∨
      s.depth + Tree.nestingOf (s.pending.map Tree.token ++ _) ≤ m + 0
    rw [same]
    exact nests.within
  · show _ → ∃ m ∈ s.maxDepth, m + 0 < s.depth + Tree.nestingOf (s.pending.map Tree.token ++ _)
    rw [same]
    exact nests.beyond

end Definitions

theorem exact_variableDef (bound : Nat) : Exact 0 ⊤ (variableDef bound) := by
  have default : Exact 0 ⊤ (do if ← eat .equals then value bound "a default value") :=
    (flat_eat .equals).exact.bind fun _ => .ite (exact_value bound _) (.pure ())
  refine .named names_variableUse fun _ => (flat_expect _ _).exact.bind fun _ => .ite ?_ (.pure ())
  refine .look (flat_currentlyIn _) (looks_currentlyIn _) fun starts => ?_
  cases starts with
  | true => exact ((exact_typeExpr bound).given fun v told => told.2).bind fun _ => default
  | false => exact (flat_errorExpected rfl _).exact.bind fun _ => default

theorem exact_variableItem (bound : Nat) : Exact 0 ⊤ (variableItem bound) := by
  refine exact_round fun kind => ?_
  split
  · exact flat_bump.exact.bind fun _ => .pure _
  · exact (exact_variableDef bound).bind fun _ => .pure _
  · exact .pure _
  · exact .pure _
  · exact (exact_skipUnexpected _).bind fun _ => .pure _

theorem exact_variableDefs (bound : Nat) : Exact 0 ⊤ (variableDefs bound) :=
  (flat_assertCurrent _).exact.bind fun _ => .delimited rfl rfl (exact_variableItem bound).loop _ _

theorem exact_headerEnd : Exact 0 ⊤ headerEnd :=
  (flat_currentlyIn _).exact.bind fun _ => .ite (flat_shouldStop.exact.bind fun _ =>
    .ite (exact_recover rfl _ _) (.pure ())) (.pure ())

theorem exact_declTail (bound : Nat) : Exact 0 ⊤ (declTail bound) := by
  have set : Exact 0 ⊤ (do
      if ← currentlyIs .braceOpen then selectionSet bound
      else errorExpected .expectedSelectionSet "a selection set `\x7b ... \x7d`") :=
    (flat_currentlyIs .braceOpen).exact.bind fun _ => .ite (exact_selectionSet bound)
      (flat_errorExpected rfl _).exact
  have description : Exact 0 ⊤ (node .description bump) := flat_bump.exact.plain rfl
  have described := Exact.when (flat_currentlyIn .descriptions) description fun _ => set
  exact exact_headerEnd.bind fun _ => .when (flat_currentlyIs .parenOpen) (exact_variableDefs bound)
    fun _ => (exact_directives bound).bind fun _ => described

theorem exact_fieldDecl (bound : Nat) : Exact 0 ⊤ (fieldDecl bound) :=
  Exact.plain rfl <| (flat_bumpAs _).exact.bind fun _ => exact_declTarget.bind fun _ => exact_declTail bound

theorem exact_pointerTarget (bound : Nat) : Exact 0 ⊤ (pointerTarget bound) := by
  refine (flat_eatKeyword _ _).exact.bind fun _ => .ite ?_ ((flat_errorExpected rfl _).exact.bind fun _ => ?_)
  · refine .look (flat_currentlyIn _) (looks_currentlyIn _) fun starts => ?_
    cases starts with
    | true => exact (exact_typeExpr bound).given fun v told => told.2
    | false => exact (flat_errorExpected rfl _).exact
  · refine .look (flat_currentlyIs _) (looks_currentlyIs _) fun named => ?_
    cases named with
    | true =>
      refine (exact_typeExpr bound).given fun v told => ?_
      rw [StartsType, told.2.1 rfl]
      rfl
    | false => exact .pure ()

theorem exact_pointerDecl (bound : Nat) : Exact 0 ⊤ (pointerDecl bound) :=
  Exact.plain rfl <| (flat_bumpAs _).exact.bind fun _ => exact_declTarget.bind fun _ =>
    (exact_pointerTarget bound).bind fun _ => exact_declTail bound

theorem exact_entrypointDecl (bound : Nat) : Exact 0 ⊤ (entrypointDecl bound) :=
  Exact.plain rfl <| (flat_bumpAs _).exact.bind fun _ => exact_declTarget.bind fun _ => exact_directives bound

theorem exact_declaration (bound : Nat) : Exact 0 ⊤ (declaration bound) :=
  (flat_atKeyword _).exact.bind fun _ => .ite (exact_fieldDecl bound) <|
    (flat_atKeyword _).exact.bind fun _ => .ite (exact_pointerDecl bound) <|
    (flat_atKeyword _).exact.bind fun _ => .ite (exact_entrypointDecl bound)
      (flat_errorExpected rfl _).exact

theorem exact_trailing : Exact 0 ⊤ trailing :=
  flat_shouldStop.exact.bind fun _ => .ite (Exact.plain rfl ((flat_errorExpected rfl _).exact.bind fun _ =>
    (flat_skipStep .empty).exact.loop)) (.pure ())

/-- **A whole literal** exceeds the limit on the depth exactly if its tree nests too deep. -/
theorem exact_literal (bound : Nat) : Exact 0 ⊤ (literal bound) :=
  (exact_declaration bound).bind fun _ => exact_trailing.bind fun _ => flat_flush.exact

end Parser

end IsoLiteral
