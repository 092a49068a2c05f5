import IsoLiteral.Proofs.Syntax.Grammar
import IsoLiteral.Proofs.Syntax.Progress

/-!
# The grammar has no faults

Every production is sound: from any tokens and under any limits it looks ahead no more often than it may,
is entered only where it fits, finishes the nodes that it starts, and ends within the bound on its loops and
its nesting. The most expensive one is a selection set, whose selections look at their arguments and
directives twice over; it stays well below the patience that a level is given. So the parser goes through any
literal without recording a fault, and leaves no node open.
-/

namespace IsoLiteral.Parser

variable {n c : Nat}

/-! ## Types -/

theorem Spends.nodeAt {body : Parser Unit} (keeps : Keeps body) {kind : SyntaxKind} {s : State}
    {before since : List Tree} (built : s.built = before ++ since)
    (inside : Spends c { s with built := since, enclosing := (kind, before) :: s.enclosing }
      (body { s with built := since, enclosing := (kind, before) :: s.enclosing }).2) :
    Spends c s (Parser.nodeAt ⟨s.enclosing.length, before.length⟩ kind body s).2 := by
  have place : before.length ≤ s.built.length := by
    rw [built, List.length_append]
    omega
  have started := Spends.step (.start s kind before.length place) rfl rfl
  rw [built, List.drop_left, List.take_left] at started
  have finished := Spends.step (.finish _ (keeps { s with
    built := since
    enclosing := (kind, before) :: s.enclosing }).enclosing) rfl rfl
  rw [nodeAt_eq keeps kind built]
  exact ((started.trans inside).trans finished).le (by omega)

theorem spends_finishType {s : State} (ready : Ready n 2 s) {before since : List Tree}
    (built : s.built = before ++ since) :
    Spends 2 s (finishType ⟨s.enclosing.length, before.length⟩ s).2 := by
  have looked := (looks_currentlyIs .bang).fares s (ready.le (by decide)).patient
  have still : (currentlyIs .bang s).2.built = before ++ since := (built_current s).trans built
  have next := ready.next looked.toSpends (by decide : 1 + 1 ≤ 2)
  show Spends 2 s ((if (currentlyIs .bang s).1 = true then _ else Pure.pure () : Parser Unit)
    (currentlyIs .bang s).2).2
  split
  · have bumped := (sound_bump.fares { (currentlyIs .bang s).2 with
      built := since
      enclosing := (.nonNullType, before) :: (currentlyIs .bang s).2.enclosing }
      ⟨next.few, next.patient, next.limit⟩ trivial).toSpends
    rw [← looked.enclosing]
    exact looked.toSpends.trans (Spends.nodeAt keeps_bump still bumped)
  · exact looked.toSpends.le (by decide)

theorem sound_typeFrom {base : Parser Bool} (keeps : Keeps base) (h : Sound n 5 ⊤ base ⊥) :
    Sound n 7 ⊤ (do let start ← checkpoint; typeFrom base start) ⊥ := by
  refine ⟨fun s ready _ => ?_, fun _ _ _ took => took.elim⟩
  have flushed := looks_flush.fares s (Nat.zero_le _)
  have first := h.fares (flush s).2 (ready.next flushed.toSpends (by decide : 0 + 5 ≤ 7)) trivial
  have next := ready.next (flushed.trans first).toSpends (by decide : 0 + 5 + 2 ≤ 7)
  obtain ⟨since, built⟩ := first.built
  refine { flushed.toKept.trans (keeps_typeFrom keeps (flush s).2), (?_ : Spends 7 s _) with }
  show Spends 7 s ((if (base (flush s).2).1 = true then finishType _ else Pure.pure () : Parser Unit)
    (base (flush s).2).2).2
  split
  · have finished := spends_finishType next built.symm
    rw [first.enclosing] at finished
    exact ((flushed.toSpends.trans first.toSpends).trans finished).le (by decide)
  · exact (flushed.toSpends.trans first.toSpends).le (by decide)

theorem sound_baseType {item : Parser Unit} (h : Sound n 0 ⊤ item ⊥) :
    Sound (n + 1) 5 ⊤ (baseType item) ⊥ := by
  have inner : Sound n 1 ⊤ (do
      if ← currentlyIn .typeFirst then item
      else errorExpected .expectedType "a list item type") ⊥ :=
    .test (by decide) (looks_currentlyIn _) (h.given fun _ _ => trivial) (looks_errorExpected _ _).sound
  refine .look (by decide) looks_current fun kind => ?_
  split
  · exact .bind (by decide) ((sound_bump.node .namedType).given fun _ _ => trivial) fun _ => .pure true id
  · have opened {v : List Token} (told : (⊤ : List Token → Prop) v ∧ headKind v = .bracketOpen) : v ≠ [] :=
      ne_nil_of_headKind told.2 (by decide)
    exact .bind (by decide) ((inner.delimited _ _ _ _).given fun v => opened) fun _ => .pure true id
  · exact .look (by decide) (looks_errorExpected _ _) fun _ => .pure false id

theorem sound_type : ∀ bound, Sound bound 0 ⊤ (typeExpr bound) ⊥
  | 0 => ⟨fun s ready => absurd ready.few (Nat.not_lt_zero _), fun _ _ _ took => took.elim⟩
  | bound + 1 =>
    (sound_typeFrom (follows_baseType (follows_typeExpr bound)).mono
      (sound_baseType (sound_type bound))).nested (by decide)

/-! ## Values -/

theorem takes_variableUse : Sound n 4 (headKind · = .dollar) variableUse ⊤ :=
  .asserted (.node (.taking (by decide) (takes_bump.given fun _ here => ne_nil_of_headKind here (by decide))
    fun _ => .bind (by decide) (sound_expectName _) fun _ => .pure () id) _)

theorem mayBecome_literalKind {v : List Token} {text : String} (word : headKind v = .identifier)
    (same : (v.head?.map Token.text).getD "" = text) : MayBecome (literalKind text) v := by
  have atWord : AtWord text v := ⟨word, same⟩
  unfold literalKind
  split
  · rename_i isTrue
    exact atWord.mayBecome (congrArg some isTrue.symm)
  · split
    · rename_i isFalse
      exact atWord.mayBecome (congrArg some isFalse.symm)
    · split
      · rename_i isNull
        exact atWord.mayBecome (congrArg some isNull.symm)
      · exact word ▸ mayBecome_headKind v

/-- The next token may start a value. -/
def StartsValue (v : List Token) : Prop := TokenSet.valueFirst.contains (headKind v) = true

section Values

variable {value : String → Parser Unit}

theorem round_listItem (h : ∀ what, Sound n 1 StartsValue (value what) ⊤) :
    Round n 7 (listItem value) := by
  refine .unlessStop (.test (by decide) (looks_currentlyIs _) (.pure false Bool.false_ne_true) ?_)
  refine .eating (by decide) (.pure true id) ?_
  refine .test (by decide) (looks_currentlyIn _) (((h _).given fun v told => told.2).again.le (by decide)) ?_
  refine .test (by decide) (looks_currentlyIs _) (.pure false Bool.false_ne_true) ?_
  refine .test (by decide) (looks_currentlyIs _) (.pure false Bool.false_ne_true) ?_
  exact ((takes_skipUnexpected _).given fun v told => told.1.1.1.1.1).again

/-- `name: value`, which takes at least the name. -/
theorem takes_entry (h : ∀ what, Sound n 1 ⊤ (value what) ⊥) (kind : SyntaxKind) (colon what : String) :
    Sound n 4 (· ≠ []) (node kind do bump; if ← expect .colon colon then value what) ⊤ := by
  refine .node (.taking (by decide) takes_bump fun _ =>
    .bind (by decide) (sound_expect _ _) fun found => ?_) _
  cases found with
  | true => exact h what
  | false => exact .pure () id

theorem round_objectItem (h : ∀ what, Sound n 1 ⊤ (value what) ⊥) : Round n 6 (objectItem value) := by
  refine .choose fun kind => ?_
  split
  · exact (takes_bump.given fun v told => told.1).again.le (by decide)
  · exact ((takes_entry h _ _ _).given fun v told => told.1).again
  · exact .pure false Bool.false_ne_true
  · exact .pure false Bool.false_ne_true
  · exact ((takes_skipUnexpected _).given fun v told => told.1).again.le (by decide)

theorem sound_valueBody (h : ∀ what, Sound n 1 ⊤ (value what) ⊥)
    (takes : ∀ what, Sound n 1 StartsValue (value what) ⊤) :
    Sound (n + 1) 19 StartsValue (valueBody value) ⊤ := by
  have some {v : List Token} {kind : SyntaxKind}
      (told : StartsValue v ∧ headKind v = kind) : v ≠ [] :=
    ne_nil_of_contains (by decide) told.1
  refine .look (by decide) looks_current fun kind => ?_
  split
  · exact (takes_variableUse.given fun v told => told.2).le (by decide)
  · exact (((round_listItem takes).delimited (by decide) _ _ _ _).given fun v => some).le (by decide)
  · exact (((round_objectItem h).delimited (by decide) _ _ _ _).given fun v => some).le (by decide)
  · refine .look (by decide) looks_currentText fun text => (takes_bumpAs.given fun v told => ?_).node .literal
    exact ⟨some told.1, mayBecome_literalKind told.1.2 told.2⟩
  · exact ((takes_bump.node .literal).given fun v => some).le (by decide)

end Values

/-- A value that starts with the right token takes it. -/
theorem sound_value_takes : ∀ bound,
    (∀ what, Sound bound 1 ⊤ (value bound what) ⊥) ∧
      ∀ what, Sound bound 1 StartsValue (value bound what) ⊤
  | 0 => ⟨fun _ => ⟨fun s ready => absurd ready.few (Nat.not_lt_zero _), fun _ _ _ took => took.elim⟩,
      fun _ => ⟨fun s ready => absurd ready.few (Nat.not_lt_zero _),
        fun s ready => absurd ready.few (Nat.not_lt_zero _)⟩⟩
  | bound + 1 => by
    obtain ⟨inner, takes⟩ := sound_value_takes bound
    have body := (sound_valueBody inner takes).nested (by decide)
    constructor
    · exact fun what => .test (by decide) (looks_currentlyIn _) (body.forget.given fun v told => told.2)
        (looks_errorExpected _ what).sound
    · refine fun what => .test (by decide) (looks_currentlyIn _) (body.given fun v told => told.2)
        (.never fun v told => ?_)
      exact Bool.false_ne_true (told.2.symm.trans told.1)

theorem sound_value (bound : Nat) (what : String) : Sound bound 1 ⊤ (value bound what) ⊥ :=
  (sound_value_takes bound).1 what

/-! ## Arguments, directives and selections -/

theorem round_argumentItem (bound : Nat) : Round bound 6 (argumentItem bound) := by
  refine .choose fun kind => ?_
  split
  · exact (takes_bump.given fun v told => told.1).again.le (by decide)
  · exact ((takes_entry (sound_value bound) _ _ _).given fun v told => told.1).again
  · exact .pure false Bool.false_ne_true
  · exact .pure false Bool.false_ne_true
  · exact ((takes_skipUnexpected _).given fun v told => told.1).again.le (by decide)

theorem sound_arguments (bound : Nat) :
    Sound (bound + 1) 17 (headKind · = .parenOpen) (arguments bound) ⊤ :=
  .asserted (((round_argumentItem bound).delimited (by decide) _ _ _ _).given fun _ here =>
    ne_nil_of_headKind here (by decide))

theorem takes_directive (bound : Nat) : Sound bound 21 (· ≠ []) (directive bound) ⊤ := by
  refine .node (.taking (by decide) takes_bump fun _ =>
    .bind (by decide) (sound_expectName _) fun named => ?_) _
  cases named with
  | true =>
    refine .test (by decide) (looks_currentlyIs .parenOpen) ?_ (.pure () id)
    exact ((sound_arguments bound).few (Nat.le_succ bound)).forget.given fun v told => told.2.1 rfl
  | false => exact .pure () id

theorem round_directiveItem (bound : Nat) : Round bound 22 (directiveItem bound) :=
  .whileAt (takes_directive bound).again

theorem sound_directives (bound : Nat) : Sound bound 45 ⊤ (directives bound) ⊥ :=
  (round_directiveItem bound).loop (by decide)

/-- What may follow the name of a selection. -/
theorem sound_selectionTail {set : Parser Unit} (h : Sound n 1 (headKind · = .braceOpen) set ⊥) (bound : Nat)
    (few : n ≤ bound) : Sound n 65 ⊤ (do
      if ← currentlyIs .parenOpen then
        arguments bound
      directives bound
      if ← currentlyIs .braceOpen then
        set) ⊥ := by
  have rest : Sound n 47 ⊤ (do directives bound; if ← currentlyIs .braceOpen then set) ⊥ :=
    .bind (by decide) ((sound_directives bound).few few) fun _ =>
      .test (by decide) (looks_currentlyIs .braceOpen) (h.given fun v told => told.2.1 rfl) (.pure () id)
  have args : Sound n 17 (headKind · = .parenOpen) (arguments bound) ⊤ :=
    (sound_arguments bound).few (few.trans (Nat.le_succ bound))
  exact .test (by decide) (looks_currentlyIs .parenOpen)
    (.bind (by decide) (args.given fun v told => told.2.1 rfl) fun _ => rest)
    ((rest.given fun _ _ => trivial).le (by decide))

theorem takes_selection {set : Parser Unit} (h : Sound n 1 (headKind · = .braceOpen) set ⊥) (bound : Nat)
    (few : n ≤ bound) : Sound n 70 (headKind · = .identifier) (selection bound set) ⊤ := by
  have tail := sound_selectionTail h bound few
  have label : Sound n 2 (headKind · = .identifier) (node .aliasLabel do bump; bump) ⊤ :=
    Sound.node (.taking (by decide) (takes_bump.given fun v here => ne_nil_of_headKind here (by decide))
      fun _ => sound_bump) _
  refine .node (.test (by decide) (looks_nextIs .colon)
    (.taking (by decide) (label.given fun v told => told.1) fun _ => ?_)
    (.taking (by decide) ((takes_expectName _).given fun v told => told.1) fun named => ?_)) _
  · refine .bind (by decide) (sound_expectName _) fun named => ?_
    cases named with
    | true => exact tail
    | false => exact .pure () id
  · cases named with
    | true => exact tail.le (by decide)
    | false => exact .pure () id

theorem round_selectionItem {set : Parser Unit} (h : Sound n 1 (headKind · = .braceOpen) set ⊥) (bound : Nat)
    (few : n ≤ bound) : Round n 72 (selectionItem bound set) := by
  refine .choose fun kind => ?_
  split
  · exact (takes_bump.given fun v told => told.1).again.le (by decide)
  · exact ((takes_selection h bound few).given fun v told => told.2).again
  · exact ((takes_skipUnexpected _).given fun v told => told.1).again.le (by decide)

theorem sound_selectionSet : ∀ bound, Sound bound 1 (headKind · = .braceOpen) (selectionSet bound) ⊥
  | 0 => ⟨fun s ready => absurd ready.few (Nat.not_lt_zero _), fun _ _ _ took => took.elim⟩
  | bound + 1 => by
    have rounds := round_selectionItem (sound_selectionSet bound) (bound + 1) (Nat.le_succ bound)
    have braces := rounds.delimited (by decide) .selectionSet .braceClose .unclosedBrace "selection set"
    have set := (braces.nested (by decide)).forget
    exact .asserted (set.given fun v here => ne_nil_of_headKind here (by decide))

/-! ## Declarations -/

theorem sound_declTarget : Sound n 6 ⊤ declTarget ⊥ := by
  refine .node (.bind (by decide) (sound_expectName _) fun typed => ?_) _
  cases typed with
  | false => exact .pure () id
  | true =>
    refine .bind (by decide) (sound_expect _ _) fun dotted => ?_
    cases dotted with
    | false => exact .pure () id
    | true => exact .bind (by decide) (sound_expectName _) fun _ => .pure () id

theorem takes_variableDef (bound : Nat) :
    Sound bound 10 (headKind · = .dollar) (variableDef bound) ⊤ := by
  have default : Sound bound 3 ⊤ (do if ← eat .equals then value bound "a default value") ⊥ :=
    .bind (by decide) (sound_eat .equals) fun assigned => by
      cases assigned with
      | true => exact sound_value bound _
      | false => exact .pure () id
  have typed : Sound bound 4 ⊤ (do
      if ← currentlyIn .typeFirst then typeExpr bound
      else errorExpected .expectedType "a variable type"
      if ← eat .equals then value bound "a default value") ⊥ :=
    .test (by decide) (looks_currentlyIn .typeFirst)
      (.bind (by decide) ((sound_type bound).given fun _ _ => trivial) fun _ => default)
      (.look (by decide) (looks_errorExpected _ _) fun _ => default.given fun _ _ => trivial)
  refine .node (.taking (by decide) takes_variableUse fun _ =>
    .bind (by decide) (sound_expect _ _) fun found => ?_) _
  cases found with
  | true => exact typed
  | false => exact .pure () id

theorem round_variableItem (bound : Nat) : Round bound 12 (variableItem bound) := by
  refine .choose fun kind => ?_
  split
  · exact (takes_bump.given fun v told => told.1).again.le (by decide)
  · exact ((takes_variableDef bound).given fun v told => told.2).again
  · exact .pure false Bool.false_ne_true
  · exact .pure false Bool.false_ne_true
  · exact ((takes_skipUnexpected _).given fun v told => told.1).again.le (by decide)

theorem sound_variableDefs (bound : Nat) :
    Sound (bound + 1) 29 (headKind · = .parenOpen) (variableDefs bound) ⊤ :=
  .asserted (((round_variableItem bound).delimited (by decide) _ _ _ _).given fun _ here =>
    ne_nil_of_headKind here (by decide))

theorem sound_headerEnd : Sound n 7 ⊤ headerEnd ⊥ := by
  refine .look (by decide) (looks_currentlyIn _) fun ends => ?_
  cases ends with
  | true => exact .pure () id
  | false =>
    refine .look (by decide) looks_shouldStop fun stop => ?_
    cases stop with
    | true => exact .pure () id
    | false => exact (sound_recover _ _ _).given fun _ _ => trivial

theorem sound_declTail (bound : Nat) : Sound bound 86 ⊤ (declTail bound) ⊥ := by
  have set : Sound bound 2 ⊤ (do
      if ← currentlyIs .braceOpen then selectionSet bound
      else errorExpected .expectedSelectionSet "a selection set `\x7b ... \x7d`") ⊥ :=
    .test (by decide) (looks_currentlyIs .braceOpen)
      ((sound_selectionSet bound).given fun v told => told.2.1 rfl)
      ((looks_errorExpected _ _).sound.le (by decide))
  have described : Sound bound 4 ⊤ (do
      if ← currentlyIn .descriptions then node .description bump
      if ← currentlyIs .braceOpen then selectionSet bound
      else errorExpected .expectedSelectionSet "a selection set `\x7b ... \x7d`") ⊥ :=
    .test (by decide) (looks_currentlyIn _)
      (.bind (by decide) ((sound_bump.node _).given fun _ _ => trivial) fun _ => set)
      ((set.given fun _ _ => trivial).le (by decide))
  have directed : Sound bound 49 ⊤ _ ⊥ := .bind (by decide) (sound_directives bound) fun _ => described
  have definitions := (sound_variableDefs bound).few (Nat.le_succ bound)
  exact .bind (by decide) sound_headerEnd fun _ => .test (by decide) (looks_currentlyIs .parenOpen)
    (.bind (by decide) (definitions.given fun v told => told.2.1 rfl) fun _ => directed)
    ((directed.given fun _ _ => trivial).le (by decide))

theorem sound_fieldDecl (bound : Nat) : Sound bound 92 (AtWord "field") (fieldDecl bound) ⊥ := by
  have rest : Sound bound 92 ⊤ (do declTarget; declTail bound) ⊥ :=
    .bind (by decide) sound_declTarget fun _ => sound_declTail bound
  exact .node (.bind (by decide) (sound_bumpKeyword rfl) fun _ => rest) _

theorem sound_pointerTarget (bound : Nat) : Sound bound 2 ⊤ (pointerTarget bound) ⊥ := by
  refine .bind (by decide) (sound_eatKeyword rfl) fun linked => ?_
  have type := sound_type bound
  cases linked with
  | true =>
    exact .test (by decide) (looks_currentlyIn _) (type.given fun _ _ => trivial)
      (looks_errorExpected _ _).sound
  | false =>
    exact .look (by decide) (looks_errorExpected _ _) fun _ => .test (by decide) (looks_currentlyIs _)
      (type.given fun _ _ => trivial) (.pure () id)

theorem sound_pointerDecl (bound : Nat) : Sound bound 94 (AtWord "pointer") (pointerDecl bound) ⊥ := by
  have rest : Sound bound 94 ⊤ (do declTarget; pointerTarget bound; declTail bound) ⊥ :=
    .bind (by decide) sound_declTarget fun _ =>
      .bind (by decide) (sound_pointerTarget bound) fun _ => sound_declTail bound
  exact .node (.bind (by decide) (sound_bumpKeyword rfl) fun _ => rest) _

theorem sound_entrypointDecl (bound : Nat) :
    Sound bound 51 (AtWord "entrypoint") (entrypointDecl bound) ⊥ := by
  have rest : Sound bound 51 ⊤ (do declTarget; directives bound) ⊥ :=
    .bind (by decide) sound_declTarget fun _ => sound_directives bound
  exact .node (.bind (by decide) (sound_bumpKeyword rfl) fun _ => rest) _

theorem sound_declaration (bound : Nat) : Sound bound 96 ⊤ (declaration bound) ⊥ := by
  refine .test (by decide) (looks_atKeyword _)
    (((sound_fieldDecl bound).given fun v told => told.2 rfl).le (by decide)) ?_
  refine .test (by decide) (looks_atKeyword _)
    (((sound_pointerDecl bound).given fun v told => told.2 rfl).le (by decide)) ?_
  exact .test (by decide) (looks_atKeyword _)
    (((sound_entrypointDecl bound).given fun v told => told.2 rfl).le (by decide))
    ((looks_errorExpected _ _).sound.le (by decide))

theorem sound_trailing : Sound n 5 ⊤ trailing ⊥ := by
  refine .look (by decide) looks_shouldStop fun stop => ?_
  cases stop with
  | true => exact .pure () id
  | false => exact ((sound_swallow _ _ _).node .error).given fun _ _ => trivial

/-- **A whole literal** is parsed by steps alone, from any tokens and under any limits. -/
theorem sound_wholeLiteral (bound : Nat) : Sound bound 101 ⊤ (literal bound) ⊥ :=
  .bind (by decide) (sound_declaration bound) fun _ =>
    .bind (by decide) sound_trailing fun _ => looks_flush.sound

theorem ready_initial (text : String) (source : Nat) (limits : ParseLimits) :
    Ready ((lex text).length + 1) 101 (State.initial text source limits) where
  few := Nat.lt_succ_of_le (List.length_filter_le _ _)
  patient := (by decide : 101 ≤ patienceLimit)
  limit := le_rfl

/-- From the start of a literal to its end. -/
theorem fares_finalState (text : String) (source : Nat) (limits : ParseLimits) :
    Fares 101 (State.initial text source limits) (finalState text source limits) := by
  rw [finalState_eq]
  exact (sound_wholeLiteral _).fares _ (ready_initial text source limits) trivial

/-- Whatever the text and the limits, the parser records no fault: it never looks ahead too often without
taking a token, enters no production at a token that does not start it, finishes only nodes that it started,
and outlasts the bound of no loop and no nesting. At the end no node is left open. -/
theorem finalState_faultless (text : String) (source : Nat) (limits : ParseLimits) :
    (finalState text source limits).fault = none ∧ (finalState text source limits).enclosing = [] := by
  have fares := fares_finalState text source limits
  exact ⟨fares.steps.fault, fares.enclosing⟩

end IsoLiteral.Parser
