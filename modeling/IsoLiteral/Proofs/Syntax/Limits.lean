import IsoLiteral.Proofs.Syntax.View

/-!
# Limits make no difference until they are exceeded

The first limit that is exceeded is recorded and stays so, and as long as none is, a production does the same as
without limits. Whatever it reports is added at the end and is an error about its literal. `Steady` says
this of a computation; it goes through sequences, choices, nodes and loops, so a production is steady
because its pieces are.
-/

namespace IsoLiteral

namespace Parser

/-- The state with the limits taken away. -/
def State.unlimited (s : State) : State := { s with fuel := none, maxDepth := none }

@[simp] theorem State.unlimited_exceeded (s : State) : s.unlimited.exceeded = s.exceeded := rfl

@[simp] theorem State.unlimited_built (s : State) : s.unlimited.built = s.built := rfl

@[simp] theorem State.unlimited_diagnostics (s : State) : s.unlimited.diagnostics = s.diagnostics := rfl

/-- What is reported on the way from one state to another is added at the end, and is an error about the
literal. -/
structure Adds (before after : State) : Prop where
  source : after.source = before.source
  reports : ∃ more, after.diagnostics = before.diagnostics ++ more ∧
    ∀ d ∈ more, d.isError = true ∧ d.isIn before.source = true

theorem Adds.quiet {s s' : State} (source : s'.source = s.source) (same : s'.diagnostics = s.diagnostics) :
    Adds s s' := by
  refine ⟨source, [], ?_, fun d none => absurd none List.not_mem_nil⟩
  rw [same, List.append_nil]

theorem Adds.trans {s s' s'' : State} (first : Adds s s') (second : Adds s' s'') : Adds s s'' := by
  obtain ⟨more, after, errors⟩ := first.reports
  obtain ⟨others, last, errors'⟩ := second.reports
  rw [first.source] at errors'
  refine ⟨second.source.trans first.source, more ++ others, ?_,
    List.forall_mem_append.2 ⟨errors, errors'⟩⟩
  rw [last, after, List.append_assoc]

/-- The first exceeded limit stays, without one the limits make no difference, and all that is reported are
errors about the literal. -/
structure Steady {α : Type} (p : Parser α) : Prop where
  stays : ∀ s limit, s.exceeded = some limit → (p s).2.exceeded = some limit
  same : ∀ s, (p s).2.exceeded = none → p s.unlimited = ((p s).1, (p s).2.unlimited)
  adds : ∀ s, Adds s (p s).2

section Combinators

variable {α β : Type} {p p' : Parser α}

theorem Steady.within (h : Steady p) {s : State} (within : (p s).2.exceeded = none) : s.exceeded = none := by
  cases already : s.exceeded with
  | none => rfl
  | some limit =>
    rw [h.stays s limit already] at within
    cases within

theorem Steady.of_twin (h : Steady p) {s twin : State} (same : s.unlimited = twin)
    (within : (p s).2.exceeded = none) : p twin = ((p s).1, (p s).2.unlimited) :=
  same ▸ h.same s within

theorem Steady.pure (a : α) : Steady (Pure.pure a : Parser α) :=
  ⟨fun _ _ exceeded => exceeded, fun _ _ => rfl, fun _ => .quiet rfl rfl⟩

/-- A computation that touches neither limits nor reports. -/
theorem Steady.quiet (exceeded : ∀ s, (p s).2.exceeded = s.exceeded)
    (source : ∀ s, (p s).2.source = s.source) (reports : ∀ s, (p s).2.diagnostics = s.diagnostics)
    (same : ∀ s, p s.unlimited = ((p s).1, (p s).2.unlimited)) : Steady p where
  stays s limit h := by rwa [exceeded]
  same s _ := same s
  adds s := .quiet (source s) (reports s)

theorem Steady.bind (first : Steady p) {q : α → Parser β} (rest : ∀ a, Steady (q a)) :
    Steady (p >>= q) where
  stays s limit exceeded := (rest _).stays _ limit (first.stays s limit exceeded)
  same s within := by
    have between := (rest (p s).1).within within
    show q (p s.unlimited).1 (p s.unlimited).2 = _
    rw [first.same s between]
    exact (rest _).same _ within
  adds s := (first.adds s).trans ((rest _).adds _)

theorem Steady.ite {c : Prop} [Decidable c] (yes : Steady p) (no : Steady p') :
    Steady (if c then p else p') := by
  split
  · exact yes
  · exact no

/-- What is done with the state does not depend on the limits. -/
theorem Steady.get {q : State → Parser β} (blind : ∀ s, q s.unlimited = q s) (each : ∀ s, Steady (q s)) :
    Steady (MonadState.get >>= q) where
  stays s limit := (each s).stays s limit
  same s within := by
    show q s.unlimited s.unlimited = _
    rw [blind]
    exact (each s).same s within
  adds s := (each s).adds s

/-- A piece that is done under a condition, before the rest. -/
theorem Steady.when {test : Parser Bool} {p : Parser Unit} {q : Unit → Parser Unit} (look : Steady test)
    (h : Steady p) (rest : ∀ u, Steady (q u)) :
    Steady (do if ← test then (do q (← p)) else q ()) :=
  look.bind fun _ => .ite (h.bind rest) (rest ())

end Combinators

/-! ## Looking -/

theorem steady_blame (fault : GrammarFault) : Steady (blame fault) :=
  .quiet (fun _ => rfl) (fun _ => rfl) (fun _ => rfl) fun _ => rfl

theorem steady_settle : Steady settle := .quiet (fun _ => rfl) (fun _ => rfl) (fun _ => rfl) fun _ => rfl

theorem steady_lookAhead : Steady lookAhead := by
  constructor
  · intro s limit
    rw [lookAhead_eq]
    split <;> exact id
  · intro s _
    rw [lookAhead_eq, lookAhead_eq]
    show (if s.patience = 0 then _ else _) = _
    split <;> rfl
  · intro s
    rw [lookAhead_eq]
    split <;> exact .quiet rfl rfl

theorem steady_current : Steady current :=
  steady_settle.bind fun _ => steady_lookAhead.bind fun _ => .get (fun _ => rfl) fun _ => .pure _

theorem steady_currentRange : Steady currentRange :=
  steady_settle.bind fun _ => .get (fun _ => rfl) fun _ => .pure _

theorem steady_currentText : Steady currentText :=
  steady_settle.bind fun _ => .get (fun _ => rfl) fun _ => .pure _

theorem steady_currentlyIs (kind : SyntaxKind) : Steady (currentlyIs kind) :=
  steady_current.bind fun _ => .pure _

theorem steady_currentlyIn (kinds : TokenSet) : Steady (currentlyIn kinds) :=
  steady_current.bind fun _ => .pure _

theorem steady_atKeyword (keyword : String) : Steady (atKeyword keyword) :=
  (steady_currentlyIs .identifier).bind fun _ => .ite (steady_currentText.bind fun _ => .pure _) (.pure _)

theorem steady_nextIs (kind : SyntaxKind) : Steady (nextIs kind) :=
  steady_settle.bind fun _ => steady_lookAhead.bind fun _ => .get (fun _ => rfl) fun _ => .pure _

theorem steady_shouldStop : Steady shouldStop :=
  steady_settle.bind fun _ => .get (fun _ => rfl) fun _ => .pure _

/-! ## Building -/

theorem steady_flush : Steady flush := .quiet (fun _ => rfl) (fun _ => rfl) (fun _ => rfl) fun _ => rfl

theorem steady_startNode (kind : SyntaxKind) : Steady (startNode kind) :=
  .quiet (fun _ => rfl) (fun _ => rfl) (fun _ => rfl) fun _ => rfl

theorem steady_finishNode : Steady finishNode := by
  refine .get (fun _ => rfl) fun s => ?_
  split
  · exact steady_blame .unopened
  · exact .quiet (fun _ => rfl) (fun _ => rfl) (fun _ => rfl) fun _ => rfl

theorem steady_startNodeAt (place : Checkpoint) (kind : SyntaxKind) : Steady (startNodeAt place kind) :=
  .get (fun _ => rfl) fun _ => .ite (.quiet (fun _ => rfl) (fun _ => rfl) (fun _ => rfl) fun _ => rfl)
    (steady_blame .unopened)

theorem Steady.node {body : Parser Unit} (inside : Steady body) (kind : SyntaxKind) :
    Steady (node kind body) :=
  (steady_startNode kind).bind fun _ => inside.bind fun _ => steady_finishNode

theorem Steady.nodeAt {body : Parser Unit} (inside : Steady body) (place : Checkpoint) (kind : SyntaxKind) :
    Steady (nodeAt place kind body) :=
  (steady_startNodeAt place kind).bind fun _ => inside.bind fun _ => steady_finishNode

theorem steady_checkpoint : Steady checkpoint :=
  steady_flush.bind fun _ => .get (fun _ => rfl) fun _ => .pure _

theorem exceeded_exceed (limit : LimitError) (s : State) : (exceed limit s).2.exceeded ≠ none := by
  show s.exceeded.or (some limit) ≠ none
  cases s.exceeded <;> simp

theorem exceed_stays {s : State} {limit : LimitError} (already : s.exceeded = some limit)
    (other : LimitError) : (exceed other s).2.exceeded = some limit := by
  show s.exceeded.or (some other) = some limit
  rw [already]
  rfl

/-- Fuel that is spent makes no difference unless it runs out. -/
theorem steady_spendFuel : Steady spendFuel := by
  constructor
  · intro s limit exceeded
    rw [spendFuel_eq]
    split
    · exact exceeded
    · exact exceed_stays exceeded _
    · exact exceeded
  · intro s within
    rw [spendFuel_eq s] at within ⊢
    split at within
    · rfl
    · exact absurd within (exceeded_exceed _ s)
    · rfl
  · intro s
    rw [spendFuel_eq]
    split <;> exact .quiet rfl rfl

theorem steady_bumpAs (kind : SyntaxKind) : Steady (bumpAs kind) := by
  refine steady_settle.bind fun _ => .get (fun _ => rfl) fun s => ?_
  split
  · exact .pure ()
  · exact steady_spendFuel.bind fun _ => steady_flush.bind fun _ =>
      .quiet (fun _ => rfl) (fun _ => rfl) (fun _ => rfl) fun _ => rfl

theorem steady_bump : Steady bump := steady_current.bind fun _ => steady_bumpAs _

theorem steady_eat (kind : SyntaxKind) : Steady (eat kind) :=
  (steady_currentlyIs kind).bind fun _ => .ite (steady_bump.bind fun _ => .pure _) (.pure _)

theorem steady_eatKeyword (keyword : String) (kind : SyntaxKind) : Steady (eatKeyword keyword kind) :=
  (steady_atKeyword keyword).bind fun _ => .ite ((steady_bumpAs kind).bind fun _ => .pure _) (.pure _)

/-! ## Reporting -/

theorem steady_claim (offset : Nat) : Steady (claim offset) := by
  constructor
  · intro s limit
    rw [claim_eq]
    split <;> exact id
  · intro s _
    rw [claim_eq, claim_eq]
    show (if s.lastErrorAt = some offset then _ else _) = _
    split <;> rfl
  · intro s
    rw [claim_eq]
    split <;> exact .quiet rfl rfl

/-- A report about the literal that the parser is in. -/
theorem steady_report (make : State → Diagnostic) (blind : ∀ s, make s.unlimited = make s)
    (error : ∀ s, (make s).isError = true) (here : ∀ s, (make s).isIn s.source = true) :
    Steady (do report (make (← MonadState.get))) where
  stays _ _ exceeded := exceeded
  same s _ := by
    show report (make s.unlimited) s.unlimited = _
    rw [blind]
    rfl
  adds s := ⟨rfl, [make s], rfl, by simp [error, here]⟩

theorem steady_errorHere {kind : DiagnosticKind} (error : kind.severity = .error) (detail : String) :
    Steady (errorHere kind detail) := by
  refine steady_currentRange.bind fun range => (steady_claim _).bind fun _ => .ite ?_ (.pure ())
  exact steady_report (fun s => (Diagnostic.located s.source kind range).withDetail detail)
    (fun _ => rfl) (fun _ => by simp [error]) fun _ => by simp

theorem steady_errorExpected {kind : DiagnosticKind} (error : kind.severity = .error) (what : String) :
    Steady (errorExpected kind what) :=
  steady_currentText.bind fun _ => steady_errorHere error _

theorem steady_skipUnexpected (what : String) : Steady (skipUnexpected what) :=
  steady_currentText.bind fun _ => (steady_errorHere rfl _).bind fun _ => steady_shouldStop.bind fun _ =>
    .ite (steady_bump.node .error) (.pure ())

theorem steady_expect (kind : SyntaxKind) (what : String) : Steady (expect kind what) :=
  (steady_eat kind).bind fun _ => .ite (.pure _) ((steady_errorExpected rfl _).bind fun _ => .pure _)

theorem steady_expectName (what : String) : Steady (expectName what) :=
  (steady_eat .identifier).bind fun _ => .ite (.pure _) ((steady_errorExpected rfl _).bind fun _ => .pure _)

theorem steady_assertCurrent (kind : SyntaxKind) : Steady (assertCurrent kind) :=
  (steady_currentlyIs kind).bind fun _ => .ite (steady_blame _) (.pure ())

/-! ## Loops and nesting -/

theorem Steady.repeatStep {step : Parser Bool} (h : Steady step) (bound : Nat) :
    Steady (repeatStep bound step) := by
  induction bound with
  | zero => exact steady_blame .overrun
  | succ bound ih => exact h.bind fun _ => .ite ih (.pure ())

theorem Steady.loop {step : Parser Bool} (h : Steady step) : Steady (loop step) :=
  .get (fun _ => rfl) fun _ => h.repeatStep _

theorem steady_skipStep (stops : TokenSet) : Steady (skipStep stops) :=
  steady_shouldStop.bind fun _ => .ite (.pure _) <| (steady_currentlyIn stops).bind fun _ =>
    .ite (.pure _) (steady_bump.bind fun _ => .pure _)

theorem steady_recover {kind : DiagnosticKind} (error : kind.severity = .error) (what : String)
    (stops : TokenSet) : Steady (recover kind what stops) :=
  (steady_currentlyIn stops).bind fun _ => steady_shouldStop.bind fun _ =>
    .ite (steady_errorExpected error what)
      (((steady_errorExpected error what).bind fun _ => (steady_skipStep stops).loop).node .error)

/-- Going deeper makes no difference to the limits unless it is too deep. -/
theorem steady_enter : Steady enter := by
  constructor
  · intro s limit exceeded
    rw [enter_eq]
    split
    · exact exceed_stays exceeded _
    · exact exceeded
  · intro s within
    rw [enter_eq s] at within ⊢
    split at within
    · exact absurd within (exceeded_exceed _ s)
    · rename_i shallow
      rw [if_neg shallow, enter_eq]
      rfl
  · intro s
    rw [enter_eq]
    split <;> exact .quiet rfl rfl

theorem steady_leave : Steady leave := .quiet (fun _ => rfl) (fun _ => rfl) (fun _ => rfl) fun _ => rfl

theorem Steady.nested {body : Parser Unit} (h : Steady body) : Steady (nested body) :=
  steady_enter.bind fun _ => .ite (h.bind fun _ => steady_leave) (.pure ())

theorem steady_closeDelimiter (opener : TextRange) (close : SyntaxKind) {kind : DiagnosticKind}
    (error : kind.severity = .error) (construct : String) :
    Steady (closeDelimiter opener close kind construct) := by
  refine (steady_eat close).bind fun _ => .ite ?_ (.pure ())
  refine steady_currentRange.bind fun _ => (steady_claim _).bind fun _ => .ite ?_ (.pure ())
  exact steady_report (fun s => (Diagnostic.located s.source kind
    ⟨opener.start, max s.lastStop opener.stop⟩).relatedTo (construct ++ " started here") opener)
    (fun _ => rfl) (fun _ => by simp [error]) fun _ => by simp

theorem Steady.delimited {body : Parser Unit} (h : Steady body) (nodeKind close : SyntaxKind)
    {kind : DiagnosticKind} (error : kind.severity = .error) (construct : String) :
    Steady (delimited nodeKind close kind construct body) :=
  (steady_currentRange.bind fun _ => steady_bump.bind fun _ => h.bind fun _ =>
    steady_closeDelimiter _ close error construct).node nodeKind

/-! ## Types and values -/

theorem steady_baseType {item : Parser Unit} (h : Steady item) : Steady (baseType item) := by
  refine steady_current.bind fun kind => ?_
  split
  · exact (steady_bump.node .namedType).bind fun _ => .pure _
  · exact (Steady.delimited ((steady_currentlyIn .typeFirst).bind fun _ =>
      .ite h (steady_errorExpected rfl _)) _ _ rfl _).bind fun _ => .pure _
  · exact (steady_errorExpected rfl _).bind fun _ => .pure _

theorem steady_typeExpr (bound : Nat) : Steady (typeExpr bound) := by
  induction bound with
  | zero => exact steady_blame .overrun
  | succ bound ih =>
    refine Steady.nested (steady_checkpoint.bind fun start => (steady_baseType ih).bind fun _ =>
      .ite ?_ (.pure ()))
    exact (steady_currentlyIs .bang).bind fun _ => .ite (steady_bump.nodeAt start _) (.pure ())

theorem steady_variableUse : Steady variableUse :=
  (steady_assertCurrent .dollar).bind fun _ =>
    (steady_bump.bind fun _ => (steady_expectName _).bind fun _ => .pure ()).node .variableUse

theorem steady_listItem {value : String → Parser Unit} (h : ∀ what, Steady (value what)) :
    Steady (listItem value) :=
  steady_shouldStop.bind fun _ => .ite (.pure _) <|
    (steady_currentlyIs .bracketClose).bind fun _ => .ite (.pure _) <|
    (steady_eat .comma).bind fun _ => .ite (.pure _) <|
    (steady_currentlyIn .valueFirst).bind fun _ => .ite ((h _).bind fun _ => .pure _) <|
    (steady_currentlyIs .parenClose).bind fun _ => .ite (.pure _) <|
    (steady_currentlyIs .braceClose).bind fun _ => .ite (.pure _) <|
    (steady_skipUnexpected _).bind fun _ => .pure _

theorem steady_objectField {value : String → Parser Unit} (h : ∀ what, Steady (value what)) :
    Steady (objectField value) :=
  (steady_bump.bind fun _ => (steady_expect _ _).bind fun _ => .ite (h _) (.pure ())).node .objectField

theorem steady_objectItem {value : String → Parser Unit} (h : ∀ what, Steady (value what)) :
    Steady (objectItem value) := by
  refine steady_shouldStop.bind fun _ => .ite (.pure _) ?_
  refine (steady_currentlyIs .braceClose).bind fun _ => .ite (.pure _) (steady_current.bind fun kind => ?_)
  split
  · exact steady_bump.bind fun _ => .pure _
  · exact (steady_objectField h).bind fun _ => .pure _
  · exact .pure _
  · exact .pure _
  · exact (steady_skipUnexpected _).bind fun _ => .pure _

theorem steady_valueBody {value : String → Parser Unit} (h : ∀ what, Steady (value what)) :
    Steady (valueBody value) := by
  refine steady_current.bind fun kind => ?_
  split
  · exact steady_variableUse
  · exact (steady_listItem h).loop.delimited _ _ rfl _
  · exact (steady_objectItem h).loop.delimited _ _ rfl _
  · exact steady_currentText.bind fun _ => (steady_bumpAs _).node .literal
  · exact steady_bump.node .literal

theorem steady_value (bound : Nat) : ∀ what, Steady (value bound what) := by
  induction bound with
  | zero => exact fun _ => steady_blame .overrun
  | succ bound ih =>
    exact fun _ => (steady_currentlyIn .valueFirst).bind fun _ =>
      .ite (steady_valueBody ih).nested (steady_errorExpected rfl _)

/-! ## Arguments, directives and selections -/

theorem steady_argument (bound : Nat) : Steady (argument bound) :=
  (steady_bump.bind fun _ => (steady_expect _ _).bind fun _ =>
    .ite (steady_value bound _) (.pure ())).node .argument

theorem steady_argumentItem (bound : Nat) : Steady (argumentItem bound) := by
  refine steady_shouldStop.bind fun _ => .ite (.pure _) ?_
  refine (steady_currentlyIs .parenClose).bind fun _ => .ite (.pure _) (steady_current.bind fun kind => ?_)
  split
  · exact steady_bump.bind fun _ => .pure _
  · exact (steady_argument bound).bind fun _ => .pure _
  · exact .pure _
  · exact .pure _
  · exact (steady_skipUnexpected _).bind fun _ => .pure _

theorem steady_arguments (bound : Nat) : Steady (arguments bound) :=
  (steady_assertCurrent .parenOpen).bind fun _ => (steady_argumentItem bound).loop.delimited _ _ rfl _

theorem steady_directive (bound : Nat) : Steady (directive bound) :=
  (steady_bump.bind fun _ => (steady_expectName _).bind fun _ => .ite
    ((steady_currentlyIs .parenOpen).bind fun _ => .ite (steady_arguments bound) (.pure ()))
    (.pure ())).node .directive

theorem steady_directives (bound : Nat) : Steady (directives bound) :=
  Steady.loop <| (steady_currentlyIs .atSign).bind fun _ => .ite
    (steady_shouldStop.bind fun _ => .ite (.pure _) ((steady_directive bound).bind fun _ => .pure _))
    (.pure _)

theorem steady_selection (bound : Nat) {set : Parser Unit} (h : Steady set) : Steady (selection bound set) := by
  have tail : Steady (do directives bound; if ← currentlyIs .braceOpen then set) :=
    (steady_directives bound).bind fun _ => (steady_currentlyIs .braceOpen).bind fun _ => .ite h (.pure ())
  have named := (steady_currentlyIs .parenOpen).when (steady_arguments bound) fun _ => tail
  have label := (steady_bump.bind fun _ => steady_bump).node .aliasLabel
  exact ((steady_nextIs .colon).when label fun _ => (steady_expectName _).bind fun _ =>
    .ite named (.pure ())).node .selection

theorem steady_selectionItem (bound : Nat) {set : Parser Unit} (h : Steady set) :
    Steady (selectionItem bound set) := by
  refine steady_shouldStop.bind fun _ => .ite (.pure _) ?_
  refine (steady_currentlyIs .braceClose).bind fun _ => .ite (.pure _) (steady_current.bind fun kind => ?_)
  split
  · exact steady_bump.bind fun _ => .pure _
  · exact (steady_selection bound h).bind fun _ => .pure _
  · exact (steady_skipUnexpected _).bind fun _ => .pure _

theorem steady_selectionSet (bound : Nat) : Steady (selectionSet bound) := by
  induction bound with
  | zero => exact steady_blame .overrun
  | succ bound ih =>
    exact (steady_assertCurrent .braceOpen).bind fun _ =>
      ((steady_selectionItem (bound + 1) ih).loop.delimited _ _ rfl _).nested

/-! ## Declarations -/

theorem steady_declTarget : Steady declTarget :=
  ((steady_expectName _).bind fun _ => .ite ((steady_expect _ _).bind fun _ =>
    .ite ((steady_expectName _).bind fun _ => .pure ()) (.pure ())) (.pure ())).node .declTarget

theorem steady_variableDef (bound : Nat) : Steady (variableDef bound) := by
  have default : Steady (do if ← eat .equals then value bound "a default value") :=
    (steady_eat .equals).bind fun _ => .ite (steady_value bound _) (.pure ())
  refine Steady.node (steady_variableUse.bind fun _ => (steady_expect _ _).bind fun _ =>
    .ite ?_ (.pure ())) .variableDef
  exact (steady_currentlyIn .typeFirst).bind fun _ => .ite
    ((steady_typeExpr bound).bind fun _ => default) ((steady_errorExpected rfl _).bind fun _ => default)

theorem steady_variableItem (bound : Nat) : Steady (variableItem bound) := by
  refine steady_shouldStop.bind fun _ => .ite (.pure _) ?_
  refine (steady_currentlyIs .parenClose).bind fun _ => .ite (.pure _) (steady_current.bind fun kind => ?_)
  split
  · exact steady_bump.bind fun _ => .pure _
  · exact (steady_variableDef bound).bind fun _ => .pure _
  · exact .pure _
  · exact .pure _
  · exact (steady_skipUnexpected _).bind fun _ => .pure _

theorem steady_variableDefs (bound : Nat) : Steady (variableDefs bound) :=
  (steady_assertCurrent .parenOpen).bind fun _ => (steady_variableItem bound).loop.delimited _ _ rfl _

theorem steady_headerEnd : Steady headerEnd :=
  (steady_currentlyIn .headerRecovery).bind fun _ => .ite (steady_shouldStop.bind fun _ =>
    .ite (steady_recover rfl _ _) (.pure ())) (.pure ())

theorem steady_declTail (bound : Nat) : Steady (declTail bound) := by
  have set : Steady (do
      if ← currentlyIs .braceOpen then selectionSet bound
      else errorExpected .expectedSelectionSet "a selection set `\x7b ... \x7d`") :=
    (steady_currentlyIs .braceOpen).bind fun _ => .ite (steady_selectionSet bound)
      (steady_errorExpected rfl _)
  have described := (steady_currentlyIn .descriptions).when (steady_bump.node .description) fun _ => set
  exact steady_headerEnd.bind fun _ => (steady_currentlyIs .parenOpen).when (steady_variableDefs bound)
    fun _ => (steady_directives bound).bind fun _ => described

theorem steady_fieldDecl (bound : Nat) : Steady (fieldDecl bound) :=
  ((steady_bumpAs _).bind fun _ => steady_declTarget.bind fun _ => steady_declTail bound).node .fieldDecl

theorem steady_pointerTarget (bound : Nat) : Steady (pointerTarget bound) :=
  (steady_eatKeyword _ _).bind fun _ => .ite
    ((steady_currentlyIn .typeFirst).bind fun _ => .ite (steady_typeExpr bound)
      (steady_errorExpected rfl _))
    ((steady_errorExpected rfl _).bind fun _ => (steady_currentlyIs .identifier).bind fun _ =>
      .ite (steady_typeExpr bound) (.pure ()))

theorem steady_pointerDecl (bound : Nat) : Steady (pointerDecl bound) :=
  ((steady_bumpAs _).bind fun _ => steady_declTarget.bind fun _ => (steady_pointerTarget bound).bind
    fun _ => steady_declTail bound).node .pointerDecl

theorem steady_entrypointDecl (bound : Nat) : Steady (entrypointDecl bound) :=
  ((steady_bumpAs _).bind fun _ => steady_declTarget.bind fun _ => steady_directives bound).node
    .entrypointDecl

theorem steady_declaration (bound : Nat) : Steady (declaration bound) :=
  (steady_atKeyword _).bind fun _ => .ite (steady_fieldDecl bound) <|
    (steady_atKeyword _).bind fun _ => .ite (steady_pointerDecl bound) <|
    (steady_atKeyword _).bind fun _ => .ite (steady_entrypointDecl bound) (steady_errorExpected rfl _)

theorem steady_trailing : Steady trailing :=
  steady_shouldStop.bind fun _ => .ite
    (((steady_errorExpected rfl _).bind fun _ => (steady_skipStep .empty).loop).node .error) (.pure ())

/-- **A whole literal** is read the same under limits that it keeps. -/
theorem steady_literal (bound : Nat) : Steady (literal bound) :=
  (steady_declaration bound).bind fun _ => steady_trailing.bind fun _ => steady_flush

theorem finalState_eq (text : String) (source : Nat) (limits : ParseLimits) :
    finalState text source limits =
      (literal ((lex text).length + 1) (State.initial text source limits)).2 := by
  unfold finalState
  rfl

/-- Where no limit is exceeded, the limits make no difference to what is left of a literal. -/
theorem finalState_unlimited {text : String} {source : Nat} {limits : ParseLimits}
    (within : (finalState text source limits).exceeded = none) :
    finalState text source .unlimited = (finalState text source limits).unlimited := by
  have twin : (State.initial text source limits).unlimited = State.initial text source .unlimited := rfl
  rw [finalState_eq] at within
  rw [finalState_eq, finalState_eq, (steady_literal _).of_twin twin within]

/-- All that the grammar reports are errors about the literal. -/
theorem errors_finalState (text : String) (source : Nat) (limits : ParseLimits) :
    ∀ d ∈ (finalState text source limits).diagnostics, d.isError = true ∧ d.isIn source = true := by
  rw [finalState_eq]
  obtain ⟨more, reported, errors⟩ := ((steady_literal _).adds (State.initial text source limits)).reports
  intro d member
  rw [reported] at member
  exact errors d member

end Parser

end IsoLiteral
