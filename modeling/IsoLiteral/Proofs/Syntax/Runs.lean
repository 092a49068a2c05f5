import IsoLiteral.Proofs.Syntax.Course
import IsoLiteral.Proofs.Syntax.Lossless
import IsoLiteral.Proofs.Syntax.Nesting

/-!
# Productions run a course

Every production of the grammar runs a course from any state, or from any at which the next token is one that
starts it.
-/

namespace IsoLiteral.Parser

/-! ## Types -/

theorem StartsType.of_identifier {v : List Token} (here : headKind v = .identifier) : StartsType v := by
  rw [StartsType, here]
  rfl

theorem fills_baseType {item : Parser Unit} (h : Runs (Facing StartsType) item) :
    Fills (Facing StartsType) (baseType item) := by
  refine .facing (P := StartsType) (.look glance_current fun kind => ?_) fun _ => id
  have some {v : List Token} (told : StartsType v ∧ headKind v = kind) : v ≠ [] :=
    ne_nil_of_contains (by decide) told.1
  split
  · exact ((fills_bump.facing fun v => some).node .namedType).bind fun _ => .pure true
  · have inner : Runs (Ahead ⊤) (do
        if ← currentlyIn .typeFirst then item
        else errorExpected .expectedType "a list item type") :=
      .test (glance_currentlyIn _) (h.given fun s facing => ⟨facing.1, facing.2.2⟩) (glance_errorExpected _ _).runs
    exact ((inner.delimited _ _ _ _).given fun s facing => ⟨facing.1, some facing.2⟩).bind fun _ => .pure true
  · rename_i named list
    refine .never fun s facing => ?_
    have other := facing.2.1
    rw [StartsType, facing.2.2] at other
    cases kind <;> simp [TokenSet.typeFirst, TokenSet.contains] at other named list

theorem held_append {s u : State} {since : List Tree} (built : u.built = s.built ++ since)
    (some : Tree.tokensOf since ≠ []) : s.held < u.held := by
  rw [State.held, State.held, built, Tree.tokensOf_append, List.length_append]
  exact Nat.lt_add_of_pos_right (List.length_pos_iff.2 some)

/-- A non-null type takes in what was built since its place. -/
theorem fills_finishType {s u : State} {since : List Tree} (base : Course s u)
    (built : u.built = s.built ++ since) (flushed : s.pending = []) (settled : s.Settled)
    (some : Tree.tokensOf since ≠ []) :
    Course s (finishType ⟨s.enclosing.length, s.built.length⟩ u).2 ∧
      s.held < (finishType ⟨s.enclosing.length, s.built.length⟩ u).2.held := by
  have looked : Course s (current u).2 := base.trans (glance_current.course u)
  have still : (current u).2.built = s.built ++ since := (built_current u).trans built
  have run : finishType ⟨s.enclosing.length, s.built.length⟩ u = (if (currentlyIs .bang u).1 = true then
    nodeAt ⟨s.enclosing.length, s.built.length⟩ .nonNullType bump else Pure.pure () : Parser Unit)
      (current u).2 := rfl
  rw [run]
  split
  · have inside := runs_bump.course { (current u).2 with
      built := since
      enclosing := (.nonNullType, s.built) :: s.enclosing } trivial
    have more : Tree.tokensOf (bump { (current u).2 with
        built := since
        enclosing := (.nonNullType, s.built) :: s.enclosing }).2.built ≠ [] :=
      List.ne_nil_of_length_pos ((List.length_pos_iff.2 some).trans_le inside.held_le)
    rw [← looked.kept.enclosing, nodeAt_eq keeps_bump .nonNullType still, looked.kept.enclosing]
    refine ⟨.node looked still inside (.inr ⟨flushed, settled, more⟩), held_append rfl ?_⟩
    rwa [Tree.tokensOf_singleton, Tree.tokens]
  · exact ⟨looked, held_append still some⟩

/-- A type annotation whose base is filled. -/
theorem runs_typeFrom {base : Parser Bool} {pre : List Token → Prop} (h : Fills (Facing pre) base) :
    Runs (Facing pre) (do let start ← checkpoint; typeFrom base start) where
  course s facing := by
    have filled := h.gains (flush s).2 facing
    have first := h.course (flush s).2 facing
    obtain ⟨since, built⟩ := first.kept.built
    show Course s ((if (base (flush s).2).1 = true then
      finishType ⟨(flush s).2.enclosing.length, (flush s).2.built.length⟩ else Pure.pure () : Parser Unit)
        (base (flush s).2).2).2
    split
    · have some : Tree.tokensOf since ≠ [] := by
        intro none
        rw [State.held, State.held, ← built, Tree.tokensOf_append, none, List.append_nil] at filled
        exact lt_irrefl _ filled
      obtain ⟨finished, filled'⟩ := fills_finishType first built.symm rfl facing.1 some
      exact .flush finished filled'
    · exact .flush first filled

theorem runs_typeExpr : ∀ bound, Runs (Facing StartsType) (typeExpr bound)
  | 0 => ⟨fun s _ => course_blame _ s⟩
  | bound + 1 => (runs_typeFrom (fills_baseType (runs_typeExpr bound))).nested

/-! ## Values -/

theorem fills_variableUse : Fills (Facing (headKind · = .dollar)) variableUse := by
  refine .facing (.look (glance_assertCurrent .dollar) fun _ => Fills.node ?_ _) fun _ here => here
  have some {v : List Token} (told : headKind v = .dollar ∧ True) : v ≠ [] := ne_nil_of_headKind told.1 (by decide)
  exact (fills_bump.facing fun v => some).bind fun _ => (runs_expectName _).bind fun _ => .pure ()

section Values

variable {value : String → Parser Unit}

theorem runs_listItem (h : ∀ what, Runs (Ahead ⊤) (value what)) : Runs (Ahead ⊤) (listItem value) := by
  refine .either glance_shouldStop.runs (.pure false) ?_
  refine .either (glance_currentlyIs _).runs (.pure false) ?_
  refine .either (runs_eat _) (.pure true) ?_
  refine .either (glance_currentlyIn _).runs ((h _).bind fun _ => .pure true) ?_
  refine .either (glance_currentlyIs _).runs (.pure false) ?_
  refine .either (glance_currentlyIs _).runs (.pure false) ?_
  exact (runs_skipUnexpected _).bind fun _ => .pure true

/-- `name: value` -/
theorem fills_entry (h : ∀ what, Runs (Ahead ⊤) (value what)) (kind : SyntaxKind) (colon what : String) :
    Fills (Facing (· ≠ [])) (node kind do bump; if ← expect .colon colon then value what) :=
  .node ((fills_bump.facing fun _ => id).bind fun _ => .either (runs_expect _ _) (h what) (.pure ())) _

theorem runs_objectItem (h : ∀ what, Runs (Ahead ⊤) (value what)) : Runs (Ahead ⊤) (objectItem value) := by
  refine .choose fun kind => ?_
  have some {s : State} (facing : Facing (fun v => v ≠ [] ∧ headKind v = kind) s) : Facing (· ≠ []) s :=
    ⟨facing.1, facing.2.1⟩
  split
  · exact runs_bump.anywhere.bind fun _ => .pure true
  · exact ((fills_entry h _ _ _).toRuns.given fun s => some).bind fun _ => .pure true
  · exact .pure false
  · exact .pure false
  · exact (runs_skipUnexpected _).anywhere.bind fun _ => .pure true

theorem runs_valueBody (h : ∀ what, Runs (Ahead ⊤) (value what)) :
    Runs (Facing StartsValue) (valueBody value) := by
  refine .facing (P := StartsValue) (.look glance_current fun kind => ?_) fun _ => id
  have some {s : State} (facing : Facing (fun v => StartsValue v ∧ headKind v = kind) s) :
      Facing (· ≠ []) s := ⟨facing.1, ne_nil_of_contains (by decide) facing.2.1⟩
  split
  · exact fills_variableUse.toRuns.given fun s facing => ⟨facing.1, facing.2.2⟩
  · exact ((runs_listItem h).loop.delimited _ _ _ _).toRuns.given fun s => some
  · exact ((runs_objectItem h).loop.delimited _ _ _ _).toRuns.given fun s => some
  · refine .facing (P := (· ≠ [])) (.look glance_currentText fun text => ?_) fun v told =>
      ne_nil_of_contains (by decide) told.1
    have leaf := fills_bumpAs (not_isTrivia_literalKind text)
    exact ((leaf.facing fun v told => told.1).node .literal).toRuns
  · exact ((fills_bump.facing fun _ => id).node .literal).toRuns.given fun s => some

end Values

theorem runs_value : ∀ bound what, Runs (Ahead ⊤) (value bound what)
  | 0, _ => ⟨fun s _ => course_blame _ s⟩
  | bound + 1, what => .test (glance_currentlyIn _)
    ((runs_valueBody (runs_value bound)).nested.given fun _ facing => ⟨facing.1, facing.2.2⟩)
    (glance_errorExpected _ what).runs

/-! ## Arguments, directives and selections -/

theorem runs_argumentItem (bound : Nat) : Runs (Ahead ⊤) (argumentItem bound) := by
  refine .choose fun kind => ?_
  split
  · exact runs_bump.anywhere.bind fun _ => .pure true
  · exact ((fills_entry (runs_value bound) _ _ _).toRuns.given fun s facing =>
      ⟨facing.1, facing.2.1⟩).bind fun _ => .pure true
  · exact .pure false
  · exact .pure false
  · exact (runs_skipUnexpected _).anywhere.bind fun _ => .pure true

/-- A construct that insists on the delimiter it starts with. -/
theorem Fills.asserted {body : Parser Unit} {kind : SyntaxKind} (h : Fills (Facing (· ≠ [])) body)
    (real : kind ≠ .error) : Fills (Facing (headKind · = kind)) (do assertCurrent kind; body) := by
  refine .facing (.look (glance_assertCurrent kind) fun _ => h.given fun s facing => ⟨facing.1, ?_⟩)
    fun _ here => here
  exact ne_nil_of_headKind facing.2.1 real

theorem fills_arguments (bound : Nat) : Fills (Facing (headKind · = .parenOpen)) (arguments bound) :=
  .asserted ((runs_argumentItem bound).loop.delimited _ _ _ _) (by decide)

theorem fills_directive (bound : Nat) : Fills (Facing (· ≠ [])) (directive bound) := by
  refine .node ((fills_bump.facing fun _ => id).bind fun _ => .either (runs_expectName _) ?_ (.pure ())) _
  refine .test (glance_currentlyIs .parenOpen) ?_ (.pure ())
  exact (fills_arguments bound).toRuns.given fun s facing => ⟨facing.1, facing.2.2.1 rfl⟩

theorem runs_directiveItem (bound : Nat) : Runs (Ahead ⊤) (directiveItem bound) := by
  refine .either (glance_currentlyIs .atSign).runs (.test glance_shouldStop (.pure false) ?_) (.pure false)
  exact ((fills_directive bound).toRuns.given fun s facing => ⟨facing.1, facing.2.2 rfl⟩).bind fun _ =>
    .pure true

theorem runs_directives (bound : Nat) : Runs (Ahead ⊤) (directives bound) := (runs_directiveItem bound).loop

/-- What starts with a token of some kind, if it is there. -/
theorem Runs.whenIs {kind : SyntaxKind} {p : Parser Unit} (h : Runs (Facing (headKind · = kind)) p)
    {q : Unit → Parser Unit} (rest : ∀ u, Runs (Ahead ⊤) (q u)) :
    Runs (Ahead ⊤) (do if ← currentlyIs kind then (do q (← p)) else q ()) :=
  .test (glance_currentlyIs kind) ((h.given fun _ facing => ⟨facing.1, facing.2.2.1 rfl⟩).bind rest)
    (rest ()).anywhere

theorem fills_selection (bound : Nat) {set : Parser Unit} (h : Runs (Facing (headKind · = .braceOpen)) set) :
    Fills (Facing (headKind · = .identifier)) (selection bound set) := by
  have tail : Runs (Ahead ⊤) (do
      if ← currentlyIs .parenOpen then
        arguments bound
      directives bound
      if ← currentlyIs .braceOpen then
        set) :=
    .whenIs (fills_arguments bound).toRuns fun _ => (runs_directives bound).bind fun _ =>
      .whenIs h fun _ => .pure ()
  have label : Fills (Facing (headKind · = .identifier)) (node .aliasLabel do bump; bump) :=
    .node ((fills_bump.facing fun v here => ne_nil_of_headKind here (by decide)).bind fun _ => runs_bump) _
  refine .node (.facing (P := (headKind · = .identifier)) (.test (glance_nextIs .colon) ?_ ?_) fun _ => id) _
  · exact (label.given fun s facing => ⟨facing.1, facing.2.1⟩).bind fun _ =>
      .either (runs_expectName _) tail (.pure ())
  · refine ((fills_expectName _).facing fun v told => told.1).bind fun named => ?_
    cases named with
    | true => exact tail
    | false => exact .pure ()

theorem runs_selectionItem (bound : Nat) {set : Parser Unit} (h : Runs (Facing (headKind · = .braceOpen)) set) :
    Runs (Ahead ⊤) (selectionItem bound set) := by
  refine .choose fun kind => ?_
  split
  · exact runs_bump.anywhere.bind fun _ => .pure true
  · exact ((fills_selection bound h).toRuns.given fun s facing => ⟨facing.1, facing.2.2⟩).bind fun _ => .pure true
  · exact (runs_skipUnexpected _).anywhere.bind fun _ => .pure true

theorem runs_selectionSet : ∀ bound, Runs (Facing (headKind · = .braceOpen)) (selectionSet bound)
  | 0 => ⟨fun s _ => course_blame _ s⟩
  | bound + 1 => by
    have items := (runs_selectionItem (bound + 1) (runs_selectionSet bound)).loop
    have braces := (items.delimited .selectionSet .braceClose .unclosedBrace "selection set").toRuns.nested
    refine .facing (.look (glance_assertCurrent _) fun _ => braces.given fun s facing => ⟨facing.1, ?_⟩)
      fun _ here => here
    exact ne_nil_of_headKind facing.2.1 (by decide)

/-! ## Declarations -/

theorem fills_variableDef (bound : Nat) : Fills (Facing (headKind · = .dollar)) (variableDef bound) := by
  have default : Runs (Ahead ⊤) (do if ← eat .equals then value bound "a default value") :=
    .either (runs_eat .equals) (runs_value bound _) (.pure ())
  have typed : Runs (Ahead ⊤) (do
      if ← currentlyIn .typeFirst then typeExpr bound
      else errorExpected .expectedType "a variable type"
      if ← eat .equals then value bound "a default value") :=
    .test (glance_currentlyIn .typeFirst)
      (((runs_typeExpr bound).given fun s facing => ⟨facing.1, facing.2.2⟩).bind fun _ => default)
      ((glance_errorExpected _ _).runs.bind fun _ => default)
  exact .node (fills_variableUse.bind fun _ => .either (runs_expect _ _) typed (.pure ())) _

theorem runs_variableItem (bound : Nat) : Runs (Ahead ⊤) (variableItem bound) := by
  refine .choose fun kind => ?_
  split
  · exact runs_bump.anywhere.bind fun _ => .pure true
  · exact ((fills_variableDef bound).toRuns.given fun s facing => ⟨facing.1, facing.2.2⟩).bind fun _ => .pure true
  · exact .pure false
  · exact .pure false
  · exact (runs_skipUnexpected _).anywhere.bind fun _ => .pure true

theorem fills_variableDefs (bound : Nat) : Fills (Facing (headKind · = .parenOpen)) (variableDefs bound) :=
  .asserted ((runs_variableItem bound).loop.delimited _ _ _ _) (by decide)

theorem runs_headerEnd : Runs (Ahead ⊤) headerEnd := by
  refine (glance_currentlyIn _).runs.bind fun ends => ?_
  cases ends with
  | true => exact .pure ()
  | false =>
    refine glance_shouldStop.runs.bind fun stop => ?_
    cases stop with
    | true => exact .pure ()
    | false => exact runs_recover _ _ _

theorem runs_declTail (bound : Nat) : Runs (Ahead ⊤) (declTail bound) := by
  have set : Runs (Ahead ⊤) (do
      if ← currentlyIs .braceOpen then selectionSet bound
      else errorExpected .expectedSelectionSet "a selection set `\x7b ... \x7d`") :=
    .test (glance_currentlyIs .braceOpen)
      ((runs_selectionSet bound).given fun s facing => ⟨facing.1, facing.2.2.1 rfl⟩)
      (glance_errorExpected _ _).runs
  have described : Runs (Ahead ⊤) (do
      if ← currentlyIn .descriptions then node .description bump
      if ← currentlyIs .braceOpen then selectionSet bound
      else errorExpected .expectedSelectionSet "a selection set `\x7b ... \x7d`") := by
    refine .test (glance_currentlyIn _) (Runs.bind ?_ fun _ => set) set.anywhere
    exact ((fills_bump.facing fun v told => ne_nil_of_contains (by decide) told.2).node .description).toRuns
  exact runs_headerEnd.bind fun _ => .whenIs (fills_variableDefs bound).toRuns fun _ =>
    (runs_directives bound).bind fun _ => described

theorem flush_of_pending {s : State} (none : s.pending = []) : (flush s).2 = s := by
  show { s with
    built := s.built ++ s.pending.map Tree.token
    pending := [] } = s
  rw [none, List.map_nil, List.append_nil, ← none]

/-- The target of a declaration starts where the keyword stops, whatever comes next. -/
theorem runs_declTarget : Runs (fun s => s.pending = []) declTarget where
  course s none := by
    have names : Runs (Ahead ⊤) (do
        if ← expectName "a type name" then
          if ← expect .dot "`.`" then
            discard <| expectName "a field name") :=
      .either (runs_expectName _)
        (.either (runs_expect _ _) ((runs_expectName _).bind fun _ => .pure ()) (.pure ())) (.pure ())
    have inside := names.course (startNode .declTarget s).2 trivial
    rw [declTarget, node_eq inside.kept]
    rw [startNode_eq, flush_of_pending none] at inside ⊢
    exact .node (.refl s) (List.append_nil _).symm inside (.inl rfl)

/-- With a token taken, no trivia are held back. -/
theorem pending_bumpAs {s : State} (some : s.ahead ≠ []) (kind : SyntaxKind) : (bumpAs kind s).2.pending = [] := by
  obtain ⟨t, rest, ahead⟩ := List.exists_cons_of_ne_nil some
  obtain ⟨left, -, -, run⟩ := bumpAs_of_cons ahead kind
  rw [run]
  rfl

/-- A declaration: its keyword, its target, and what comes then. -/
theorem fills_declaring {keyword : SyntaxKind} (solid : keyword.isTrivia = false) {rest : Parser Unit}
    (h : Runs (Ahead ⊤) rest) (kind : SyntaxKind) :
    Fills (Facing (· ≠ [])) (node kind do bumpAs keyword; declTarget; rest) := by
  have word := fills_bumpAs solid
  have target {s : State} (some : s.ahead ≠ []) :
      Course (bumpAs keyword s).2 ((do declTarget; rest : Parser Unit) (bumpAs keyword s).2).2 :=
    (runs_declTarget.bind fun _ => h).course _ (pending_bumpAs some keyword)
  refine .node ⟨⟨fun s facing => ?_⟩, fun s facing => ?_⟩ _
  · exact (word.course s facing.2).trans (target facing.2)
  · exact (word.gains s facing.2).trans_le (target facing.2).held_le

theorem runs_pointerTarget (bound : Nat) : Runs (Ahead ⊤) (pointerTarget bound) := by
  have type := runs_typeExpr bound
  refine .either (runs_eatKeyword "to" rfl) ?_ ((glance_errorExpected _ _).runs.bind fun _ => ?_)
  · exact .test (glance_currentlyIn _) (type.given fun s facing => ⟨facing.1, facing.2.2⟩)
      (glance_errorExpected _ _).runs
  · exact .test (glance_currentlyIs .identifier)
      (type.given fun s facing => ⟨facing.1, .of_identifier (facing.2.2.1 rfl)⟩) (.pure ())

theorem runs_declaration (bound : Nat) : Runs (Ahead ⊤) (declaration bound) := by
  have word {keyword : String} {s : State} (facing : Facing (fun v => (⊤ : List Token → Prop) v ∧
      (true = true → AtWord keyword v)) s) : Facing (· ≠ []) s :=
    ⟨facing.1, ne_nil_of_headKind (facing.2.2 rfl).1 (by decide)⟩
  have field : Fills (Facing (· ≠ [])) (fieldDecl bound) := fills_declaring rfl (runs_declTail bound) _
  have pointer : Fills (Facing (· ≠ [])) (pointerDecl bound) :=
    fills_declaring rfl ((runs_pointerTarget bound).bind fun _ => runs_declTail bound) _
  have entrypoint : Fills (Facing (· ≠ [])) (entrypointDecl bound) :=
    fills_declaring rfl (runs_directives bound) _
  refine .test (glance_atKeyword _) (field.toRuns.given fun s => word) (.anywhere ?_)
  refine .test (glance_atKeyword _) (pointer.toRuns.given fun s => word) (.anywhere ?_)
  exact .test (glance_atKeyword _) (entrypoint.toRuns.given fun s => word) (glance_errorExpected _ _).runs

theorem runs_trailing : Runs (Ahead ⊤) trailing where
  course s _ := by
    refine (Course.settle s).trans ?_
    show Course _ ((if (!(shouldStop s).1) = true then (node .error do
      errorExpected .trailingTokens "end of literal"
      loop (skipStep .empty)) else Pure.pure () : Parser Unit) (settle s).2).2
    cases going : (shouldStop s).1 with
    | true => exact .refl _
    | false =>
      obtain ⟨some, within⟩ := going_of_shouldStop going
      refine (fills_swallow _ _ _).course _ ⟨settled_settle s, ?_, rfl, within⟩
      rwa [ahead_settle]

/-- The state before the last trivia are put into the tree of a literal. -/
def lastState (text : String) (source : Nat) (limits : ParseLimits) : State :=
  (trailing (declaration ((lex text).length + 1) (State.initial text source limits)).2).2

theorem finalState_eq_flush (text : String) (source : Nat) (limits : ParseLimits) :
    finalState text source limits = (flush (lastState text source limits)).2 := by
  rw [finalState_eq, literal_apply, lastState]

/-- **A literal is parsed along a course**, up to its last trivia, from any tokens and under any limits. -/
theorem course_lastState (text : String) (source : Nat) (limits : ParseLimits) :
    Course (State.initial text source limits) (lastState text source limits) :=
  ((runs_declaration _).course _ trivial).trans (runs_trailing.course _ trivial)

end IsoLiteral.Parser
