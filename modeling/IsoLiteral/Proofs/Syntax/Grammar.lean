import IsoLiteral.Proofs.Syntax.Reading

/-!
# Reading the grammar

Every production of the grammar follows a reading that takes the same tokens and builds the same trees,
but gives up at the first token that does not fit. What a production does to recover from a report, and the
tokens it skips meanwhile, are no part of its reading.
-/

namespace IsoLiteral.Parser

/-! ## Types -/

namespace Reading

/-- The type annotation at the current token, without its final `!`. -/
def baseType (item : Reading Unit) : Reading Unit := do
  let kind ← current
  if kind = .identifier then
    node .namedType bump
  else if kind = .bracketOpen then
    delimited .listType .bracketClose (requireAt TokenSet.typeFirst.contains item)
  else
    fail

/-- Closes a type annotation, as a non-null one if `!` follows. -/
def closeType (outer : List Tree) : Reading Unit := do
  if ← currentlyIs .bang then
    bump
    closeNode .nonNullType outer
  else
    closePlain outer

/-- `Name` or `[Type]`, either followed by `!`. -/
def typeExpr : Nat → Reading Unit
  | 0 => Pure.pure ()
  | bound + 1 =>
    opened fun outer => do
      baseType (typeExpr bound)
      closeType outer

theorem shrinks_closeType (outer : List Tree) : (closeType outer).Shrinks :=
  (follows_currentlyIs .bang).shrinks.bind fun _ => .ite
    (follows_bump.shrinks.bind fun _ => shrinks_closeNode _ _) (shrinks_closePlain _)

end Reading

theorem follows_baseType {item : Parser Unit} {m : Reading Unit} (h : Follows item m) :
    Follows (baseType item) (do Reading.baseType m; return true) := by
  refine .congr (m := do
    let kind ← Reading.current
    if kind = .identifier then (do Reading.node .namedType Reading.bump; return true)
    else if kind = .bracketOpen then (do
      Reading.delimited .listType .bracketClose (Reading.requireAt TokenSet.typeFirst.contains m)
      return true)
    else Reading.fail) (follows_current.bind fun kind => ?_) fun w => ?_
  · split
    · rw [if_pos rfl]
      exact (follows_bump.node _).bind fun _ => .pure true
    · rw [if_neg (by decide), if_pos rfl]
      exact ((h.requireIn _ _ _).delimited _ _ _ _).bind fun _ => .pure true
    · rename_i named list
      rw [if_neg named, if_neg list]
      exact (follows_errorExpected _ _).fail_then fun _ => (Follows.pure false).mono
  · simp only [Reading.baseType, Reading.bind_apply, Reading.current_apply, Option.bind_some,
      Reading.ite_apply]
    split
    · rfl
    · split <;> rfl

/-- What a base type builds does not depend on what was built before. -/
theorem Reading.baseType_apply (m : Reading Unit) (v : List Token) (b : List Tree) :
    baseType m ⟨v, b⟩ =
      (baseType m ⟨v, []⟩).map fun next => ((), ⟨next.2.tokens, b ++ next.2.built⟩) := by
  have framed (kind : SyntaxKind) (body : Reading Unit) : node kind body ⟨v, b⟩ =
      (node kind body ⟨v, []⟩).map fun next => ((), ⟨next.2.tokens, b ++ next.2.built⟩) := by
    simp only [node, opened, bind_apply]
    cases body ⟨v, []⟩ <;> rfl
  simp only [baseType, bind_apply, current_apply, Option.bind_some, ite_apply, delimited, framed]
  split
  · rfl
  · split <;> rfl

theorem kept_finishType {s : State} {before since : List Tree} (built : s.built = before ++ since) :
    Kept { s with built := before } (finishType ⟨s.enclosing.length, before.length⟩ s).2 := by
  have start : Kept { s with built := before } s := ⟨id, rfl, ⟨since, built.symm⟩⟩
  have looked := start.trans ((follows_currentlyIs .bang).mono s)
  show Kept _ ((if (currentlyIs .bang s).1 = true then _ else Pure.pure () : Parser Unit)
    (currentlyIs .bang s).2).2
  split
  · exact looked.nodeAt keeps_bump .nonNullType
  · exact looked

/-- The end of a type annotation whose base was built after `before`. -/
theorem agrees_finishType {s : State} (clean : Clean s) {before since : List Tree}
    (built : s.built = before ++ since) :
    Agrees (finishType ⟨s.enclosing.length, before.length⟩ s)
      (Reading.closeType (Tree.solidOf before) ⟨(view s).tokens, Tree.solidOf since⟩) := by
  obtain ⟨found, clean', seen⟩ := (follows_currentlyIs .bang).runs s clean
  have still : (currentlyIs .bang s).2.built = before ++ since := (built_current s).trans built
  have around : (currentlyIs .bang s).2.enclosing = s.enclosing :=
    ((follows_currentlyIs .bang).mono s).enclosing
  show Agrees ((if (currentlyIs .bang s).1 = true then _ else Pure.pure () : Parser Unit)
    (currentlyIs .bang s).2) ((if (decide (headKind (view s).tokens = .bang)) = true then _
      else Reading.closePlain (Tree.solidOf before) : Reading Unit) _)
  rw [found]
  by_cases bang : headKind (view s).tokens = .bang
  · rw [if_pos (decide_eq_true bang), if_pos (decide_eq_true bang), ← around]
    have agrees := follows_bump.agrees_nodeAt .nonNullType clean' still
    rwa [seen] at agrees
  · rw [if_neg (by simpa using bang), if_neg (by simpa using bang)]
    refine ⟨rfl, clean', seen.trans ?_⟩
    rw [← Tree.solidOf_append, ← built]
    rfl

/-- What a type annotation does after its place has been noted. -/
def typeFrom (base : Parser Bool) (start : Checkpoint) : Parser Unit := do
  if ← base then
    finishType start

theorem keeps_typeFrom {base : Parser Bool} (keeps : Keeps base) (s : State) :
    Kept s (typeFrom base ⟨s.enclosing.length, s.built.length⟩ s).2 := by
  have kept := keeps s
  obtain ⟨since, built⟩ := kept.built
  have closed := kept_finishType built.symm
  rw [kept.enclosing] at closed
  show Kept s ((if (base s).1 = true then finishType _ else Pure.pure () : Parser Unit) (base s).2).2
  split
  · exact
      { reports := fun dirty => closed.reports (kept.reports dirty)
        enclosing := closed.enclosing
        built := closed.built }
  · exact kept

theorem agrees_typeFrom {base : Parser Bool} {m : Reading Unit}
    (h : Follows base (do Reading.baseType m; return true)) {s : State} (clean : Clean s) :
    Agrees (typeFrom base ⟨s.enclosing.length, s.built.length⟩ s)
      ((Reading.baseType m ⟨(view s).tokens, []⟩).bind fun next =>
        Reading.closeType (view s).built next.2) := by
  have kept := h.mono s
  obtain ⟨since, built⟩ := kept.built
  have agrees := h.runs s clean
  rw [Reading.bind_apply, show view s = ⟨(view s).tokens, (view s).built⟩ from rfl,
    Reading.baseType_apply] at agrees
  show Agrees ((if (base s).1 = true then finishType _ else Pure.pure () : Parser Unit) (base s).2) _
  cases read : Reading.baseType m ⟨(view s).tokens, []⟩ with
  | none =>
    rw [read] at agrees
    split
    · have closed := kept_finishType built.symm
      rw [kept.enclosing] at closed
      exact closed.reports agrees
    · exact agrees
  | some next =>
    rw [read] at agrees
    obtain ⟨found, clean', seen⟩ := agrees
    obtain ⟨tokens, trees⟩ := View.mk.inj seen
    have added : Tree.solidOf since = next.2.built := by
      rw [← built, Tree.solidOf_append] at trees
      exact List.append_cancel_left trees
    have closed := agrees_finishType clean' built.symm
    rw [if_pos found]
    rw [kept.enclosing, added, show (view (base s).2).tokens = next.2.tokens from tokens] at closed
    exact closed

theorem follows_typeExpr : ∀ bound, Follows (typeExpr bound) (Reading.typeExpr bound)
  | 0 => follows_blame .overrun
  | bound + 1 => by
    have base := follows_baseType (follows_typeExpr bound)
    refine Follows.nested ⟨fun s => ?_, fun s clean => ?_, fun w => ?_⟩
    · exact (keeps_flush s).trans (keeps_typeFrom base.mono (flush s).2)
    · have agrees := agrees_typeFrom base clean.flush
      rw [view_flush clean] at agrees
      exact agrees
    · have shrinks := (base.shrinks.bind fun _ => Reading.shrinks_closeType w.built) ⟨w.tokens, []⟩
      simp only [bind_assoc, pure_bind] at shrinks
      exact shrinks

/-! ## Values -/

namespace Reading

/-- `$name` -/
def variableUse : Reading Unit :=
  node .variableUse do
    bump
    take .identifier

/-- `name: value` -/
def entry (nodeKind : SyntaxKind) (value : Reading Unit) : Reading Unit :=
  node nodeKind do
    bump
    take .colon
    value

/-- `[value, ...]` -/
def listValue (value : Reading Unit) : Reading Unit :=
  enclosed .listValue .bracketClose TokenSet.valueFirst.contains
    (fun kind => kind = .parenClose || kind = .braceClose) value

/-- `{ name: value, ... }` -/
def objectValue (value : Reading Unit) : Reading Unit :=
  enclosed .objectValue .braceClose (· = .identifier)
    (fun kind => kind = .parenClose || kind = .bracketClose) (entry .objectField value)

/-- A token that is a value on its own. -/
def literalValue : Reading Unit := do
  if (← current) = .identifier then
    node .literal (bumpAs (literalKind (← currentText)))
  else
    node .literal bump

/-- The value at the current token, which may start one. -/
def valueBody (value : Reading Unit) : Reading Unit :=
  branch (· = .dollar) variableUse
    (branch (· = .bracketOpen) (listValue value) (branch (· = .braceOpen) (objectValue value) literalValue))

/-- A literal, variable, list or object. -/
def value : Nat → Reading Unit
  | 0 => Pure.pure ()
  | bound + 1 => requireAt TokenSet.valueFirst.contains (valueBody (value bound))

end Reading

/-- A construct that opens with a token of some kind, which the production insists on. -/
theorem follows_asserted {p : Parser Unit} {m : Reading Unit} (h : Follows p m) (kind : SyntaxKind) :
    Follows (do assertCurrent kind; p) m :=
  .congr ((follows_assertCurrent kind).bind fun _ => h) fun _ => rfl

theorem follows_variableUse : Follows variableUse Reading.variableUse :=
  follows_asserted ((follows_bump.bind fun _ =>
    follows_discard_expected (follows_expectName _)).node .variableUse) .dollar

theorem not_isTrivia_literalKind (text : String) : (literalKind text).isTrivia = false := by
  unfold literalKind
  split
  · rfl
  · split
    · rfl
    · split <;> rfl

theorem follows_listItem {value : String → Parser Unit} {m : Reading Unit}
    (h : ∀ what, Follows (value what) m) :
    Follows (listItem value) (Reading.round .bracketClose TokenSet.valueFirst.contains
      (fun kind => kind = .parenClose || kind = .braceClose) m) := by
  have item := (h "a list item").bind fun _ => .pure true
  have skipped : Follows (do skipUnexpected "a list item"; return true) Reading.fail :=
    (follows_skipUnexpected "a list item").fail_then fun _ => (Follows.pure true).mono
  refine .congr (follows_shouldStop.bind fun _ => .ite (.pure false)
    ((follows_currentlyIs .bracketClose).bind fun _ => .ite (.pure false)
      ((follows_eat .comma).bind fun _ => .ite (.pure true)
        ((follows_currentlyIn .valueFirst).bind fun _ => .ite item
          ((follows_currentlyIs .parenClose).bind fun _ => .ite (.pure false)
            ((follows_currentlyIs .braceClose).bind fun _ => .ite (.pure false) skipped)))))) ?_
  rintro ⟨tokens, built⟩
  cases tokens with
  | nil => rfl
  | cons t rest =>
    simp only [Reading.round_cons, Reading.bind_apply, Reading.atEnd_apply, Option.bind_some,
      List.isEmpty_cons, Bool.false_eq_true, reduceIte, Reading.ite_apply, Reading.currentlyIs_apply,
      Reading.headKind_cons, decide_eq_true_eq, Reading.pure_apply, Reading.eat_apply, Reading.bump_cons,
      Option.map_some, Reading.currentlyIn_apply, Reading.fail_apply, Bool.or_eq_true]
    by_cases closes : t.kind = .bracketClose
    · simp only [closes, reduceIte]
    · by_cases comma : t.kind = .comma
      · simp [comma]
      · by_cases paren : t.kind = .parenClose
        · simp [paren]
          rfl
        · simp only [closes, comma, paren, reduceIte, Option.bind_some, Bool.false_eq_true,
            Reading.headKind_cons, false_or]
          cases m ⟨t :: rest, built⟩ <;> rfl

theorem follows_objectField {value : String → Parser Unit} {m : Reading Unit}
    (h : ∀ what, Follows (value what) m) :
    Follows (objectField value) (Reading.entry .objectField m) :=
  (follows_bump.bind fun _ => (follows_expect _ _).whenExpected (h _)).node .objectField

theorem follows_objectItem {value : String → Parser Unit} {m : Reading Unit}
    (h : ∀ what, Follows (value what) m) :
    Follows (objectItem value) (Reading.round .braceClose (· = .identifier)
      (fun kind => kind = .parenClose || kind = .bracketClose) (Reading.entry .objectField m)) := by
  refine follows_round fun kind => ?_
  split
  · exact follows_bump.bind fun _ => .pure true
  · exact (follows_objectField h).bind fun _ => .pure true
  · exact .pure false
  · exact .pure false
  · rename_i comma identifier parenClose bracketClose
    rw [if_neg comma, if_neg (by simpa using identifier), if_neg (by simpa using ⟨parenClose, bracketClose⟩)]
    exact (follows_skipUnexpected _).fail_then fun _ => (Follows.pure true).mono

theorem Reading.takes_entry {m : Reading Unit} (shrinks : m.Shrinks) (kind : SyntaxKind) :
    (entry kind m).Takes :=
  (takes_bump.bind fun _ => (Shrinks.bind (shrinks_take .colon) fun _ => shrinks)).node kind

theorem follows_valueBody {value : String → Parser Unit} {m : Reading Unit}
    (h : ∀ what, Follows (value what) m) (moves : m.Moves) :
    Follows (valueBody value) (Reading.valueBody m) := by
  refine .congr (m := do
    let kind ← Reading.current
    if kind = .dollar then Reading.variableUse
    else if kind = .bracketOpen then Reading.listValue m
    else if kind = .braceOpen then Reading.objectValue m
    else if kind = .identifier then
      Reading.currentText >>= fun text => Reading.node .literal (Reading.bumpAs (literalKind text))
    else Reading.node .literal Reading.bump) (follows_current.bind fun kind => ?_) fun w => ?_
  · split
    · exact follows_variableUse
    · exact (follows_listItem h).enclosed moves _ _ _
    · exact (follows_objectItem h).enclosed (Reading.takes_entry (h "").shrinks _).moves _ _ _
    · exact follows_currentText.bind fun text =>
        (follows_bumpAs (not_isTrivia_literalKind text)).node .literal
    · rename_i dollar bracketOpen braceOpen identifier
      rw [if_neg dollar, if_neg bracketOpen, if_neg braceOpen, if_neg identifier]
      exact follows_bump.node .literal
  · simp only [Reading.valueBody, Reading.branch_apply, Reading.literalValue, Reading.bind_apply,
      Reading.current_apply, Option.bind_some, Reading.ite_apply, decide_eq_true_eq]

theorem takes_valueBody {value : String → Parser Unit} {m : Reading Unit}
    (h : ∀ what, Follows (value what) m) (moves : m.Moves) : (Reading.valueBody m).Takes := by
  have list := (follows_listItem h).loop (Reading.advances_round moves)
  have object := (follows_objectItem h).loop
    (Reading.advances_round (Reading.takes_entry (h "").shrinks _).moves)
  refine .look fun _ => .ite ?_ (.look fun _ => .ite ?_ (.look fun _ => .ite ?_ (.look fun _ => .ite ?_ ?_)))
  · exact (Reading.takes_bump.bind fun _ => Reading.shrinks_take _).node _
  · exact Reading.takes_delimited list.shrinks _ _
  · exact Reading.takes_delimited object.shrinks _ _
  · exact .look fun text => (Reading.takes_bumpAs _).node _
  · exact Reading.takes_bump.node _

/-- A value takes a token, unless the bound on its nesting is used up. -/
theorem follows_value_moves :
    ∀ bound, (∀ what, Follows (value bound what) (Reading.value bound)) ∧ (Reading.value bound).Moves
  | 0 => by
    refine ⟨fun _ => follows_blame .overrun, fun w a w' _ eq => .inl ?_⟩
    cases eq
    rfl
  | bound + 1 => by
    obtain ⟨inner, moves⟩ := follows_value_moves bound
    have takes : (Reading.value (bound + 1)).Takes := .look fun _ =>
      .ite (takes_valueBody inner moves) fun _ _ _ _ eq => by cases eq
    exact ⟨fun _ => ((follows_valueBody inner moves).nested).requireIn _ _ _, takes.moves⟩

theorem follows_value (bound : Nat) (what : String) : Follows (value bound what) (Reading.value bound) :=
  (follows_value_moves bound).1 what

/-! ## Arguments, directives and selections -/

namespace Reading

/-- `(name: value, ...)` -/
def arguments (bound : Nat) : Reading Unit :=
  enclosed .arguments .parenClose (· = .identifier)
    (fun kind => kind = .braceOpen || kind = .braceClose) (entry .argument (value bound))

/-- `@name(arguments)` -/
def directive (bound : Nat) : Reading Unit :=
  node .directive do
    bump
    take .identifier
    whenAt (· = .parenOpen) (arguments bound)

/-- Any number of directives. -/
def directives (bound : Nat) : Reading Unit := whileAt (· = .atSign) (directive bound)

/-- The label of a selection, if it has one. -/
def label : Reading Unit := do
  if ← nextIs .colon then
    node .aliasLabel do
      bump
      bump

/-- `label: name(arguments) @directives { selections }` -/
def selection (bound : Nat) (selectionSet : Reading Unit) : Reading Unit :=
  node .selection do
    label
    take .identifier
    whenAt (· = .parenOpen) (arguments bound)
    directives bound
    whenAt (· = .braceOpen) selectionSet

/-- `{ selection, selection ... }` -/
def selectionSet : Nat → Reading Unit
  | 0 => Pure.pure ()
  | bound + 1 =>
    enclosed .selectionSet .braceClose (· = .identifier) (fun _ => false)
      (selection (bound + 1) (selectionSet bound))

end Reading

theorem follows_argument (bound : Nat) :
    Follows (argument bound) (Reading.entry .argument (Reading.value bound)) :=
  (follows_bump.bind fun _ => (follows_expect _ _).whenExpected (follows_value bound _)).node .argument

theorem follows_argumentItem (bound : Nat) :
    Follows (argumentItem bound) (Reading.round .parenClose (· = .identifier)
      (fun kind => kind = .braceOpen || kind = .braceClose)
      (Reading.entry .argument (Reading.value bound))) := by
  refine follows_round fun kind => ?_
  split
  · exact follows_bump.bind fun _ => .pure true
  · exact (follows_argument bound).bind fun _ => .pure true
  · exact .pure false
  · exact .pure false
  · rename_i comma identifier braceOpen braceClose
    rw [if_neg comma, if_neg (by simpa using identifier), if_neg (by simpa using ⟨braceOpen, braceClose⟩)]
    exact (follows_skipUnexpected _).fail_then fun _ => (Follows.pure true).mono

theorem follows_arguments (bound : Nat) : Follows (arguments bound) (Reading.arguments bound) :=
  follows_asserted ((follows_argumentItem bound).enclosed
    (Reading.takes_entry (follows_value bound "").shrinks _).moves _ _ _) .parenOpen

theorem follows_directive (bound : Nat) : Follows (directive bound) (Reading.directive bound) :=
  (follows_bump.bind fun _ => (follows_expectName _).whenExpected
    ((follows_arguments bound).whenIs .parenOpen)).node .directive

theorem Reading.takes_directive (bound : Nat) : (directive bound).Takes :=
  (takes_bump.bind fun _ => ((shrinks_take _).bind fun _ =>
    ((follows_arguments bound).whenIs .parenOpen).shrinks)).node .directive

theorem follows_directives (bound : Nat) : Follows (directives bound) (Reading.directives bound) := by
  refine Follows.whileAt (.congr ((follows_currentlyIs .atSign).bind fun _ => .ite
    (follows_shouldStop.bind fun _ => .ite (.pure false)
      ((follows_directive bound).bind fun _ => .pure true)) (.pure false)) ?_) rfl
    (Reading.takes_directive bound)
  rintro ⟨tokens, built⟩
  cases tokens with
  | nil => rfl
  | cons t rest =>
    simp only [Reading.attempt, Reading.bind_apply, Reading.currentlyIs_apply, Option.bind_some,
      Reading.current_apply, Reading.ite_apply, Reading.atEnd_apply, List.isEmpty_cons, Bool.false_eq_true,
      reduceIte]

theorem follows_selection (bound : Nat) {set : Parser Unit} {m : Reading Unit} (h : Follows set m) :
    Follows (selection bound set) (Reading.selection bound m) := by
  have label := (follows_bump.bind fun _ => follows_bump).node .aliasLabel
  have tail : Follows (do directives bound; if ← currentlyIs .braceOpen then set) _ :=
    (follows_directives bound).bind fun _ => h.whenIs .braceOpen
  have args := (follows_currentlyIs .parenOpen).when (follows_arguments bound) fun _ => tail
  have name := (follows_expectName "a field name").whenExpected args
  refine Follows.node (.congr ((follows_nextIs .colon).when label fun _ => name) fun w => ?_) .selection
  rfl

theorem Reading.length_take {kind : SyntaxKind} (real : kind ≠ .error) {w w' : View} {a : Unit}
    (took : take kind w = some (a, w')) : w'.tokens.length < w.tokens.length := by
  rw [take_apply] at took
  split at took
  · rename_i here
    refine takes_bump w a w' (fun empty => ?_) took
    rw [empty, headKind_nil] at here
    exact real here.symm
  · cases took

theorem Reading.takes_selection (bound : Nat) {set : Parser Unit} {m : Reading Unit} (h : Follows set m) :
    (selection bound m).Takes := by
  have label : Shrinks label := ((follows_nextIs .colon).bind fun _ =>
    .ite ((follows_bump.bind fun _ => follows_bump).node .aliasLabel) (.pure ())).shrinks
  have tail := (((follows_arguments bound).whenIs .parenOpen).bind fun _ =>
    (follows_directives bound).bind fun _ => h.whenIs .braceOpen).shrinks
  refine Takes.node (fun w a w' _ eq => ?_) .selection
  obtain ⟨⟨⟨⟩, u⟩, labelled, after⟩ := Option.bind_eq_some_iff.1 eq
  obtain ⟨⟨⟨⟩, v⟩, named, rest⟩ := Option.bind_eq_some_iff.1 after
  have kept := label w () u labelled
  have fewer := length_take (by decide) named
  have kept' := tail v a w' rest
  omega

theorem follows_selectionItem (bound : Nat) {set : Parser Unit} {m : Reading Unit} (h : Follows set m) :
    Follows (selectionItem bound set) (Reading.round .braceClose (· = .identifier) (fun _ => false)
      (Reading.selection bound m)) := by
  refine follows_round fun kind => ?_
  split
  · exact follows_bump.bind fun _ => .pure true
  · exact (follows_selection bound h).bind fun _ => .pure true
  · rename_i comma identifier
    rw [if_neg comma, if_neg (by simpa using identifier), if_neg Bool.false_ne_true]
    exact (follows_skipUnexpected _).fail_then fun _ => (Follows.pure true).mono

theorem follows_selectionSet : ∀ bound, Follows (selectionSet bound) (Reading.selectionSet bound)
  | 0 => follows_blame .overrun
  | bound + 1 =>
    have inner := follows_selectionSet bound
    follows_asserted (((follows_selectionItem (bound + 1) inner).enclosed
      (Reading.takes_selection (bound + 1) inner).moves _ _ _).nested) .braceOpen

/-! ## Declarations -/

namespace Reading

/-- `Type.name` -/
def declTarget : Reading Unit :=
  node .declTarget do
    take .identifier
    take .dot
    take .identifier

/-- `= default`, if there is one. -/
def defaultValue (bound : Nat) : Reading Unit :=
  whenAt (· = .equals) do
    bump
    value bound

/-- `$name: Type = default` -/
def variableDef (bound : Nat) : Reading Unit :=
  node .variableDef do
    variableUse
    take .colon
    requireAt TokenSet.typeFirst.contains (typeExpr bound)
    defaultValue bound

/-- `($name: Type = default, ...)` -/
def variableDefs (bound : Nat) : Reading Unit :=
  enclosed .variableDefs .parenClose (· = .dollar) (fun kind => kind = .braceOpen || kind = .atSign)
    (variableDef bound)

/-- Variables, directives, description and selection set of a field or pointer declaration. -/
def declTail (bound : Nat) : Reading Unit := do
  whenAt (· = .parenOpen) (variableDefs bound)
  directives bound
  whenAt TokenSet.descriptions.contains (node .description bump)
  requireAt (· = .braceOpen) (selectionSet bound)

/-- Whether the current token is the identifier `keyword`. -/
def atKeyword (keyword : String) : Reading Bool := do
  if ← currentlyIs .identifier then
    return (← currentText) = keyword
  else
    return false

/-- Takes the identifier `keyword` as a token of the given kind. -/
def takeKeyword (keyword : String) (kind : SyntaxKind) : Reading Unit := do
  if ← atKeyword keyword then
    bumpAs kind
  else
    fail

/-- `field Type.name ...` -/
def fieldDecl (bound : Nat) : Reading Unit :=
  node .fieldDecl do
    bumpAs .kwField
    declTarget
    declTail bound

/-- `pointer Type.name to Target ...` -/
def pointerDecl (bound : Nat) : Reading Unit :=
  node .pointerDecl do
    bumpAs .kwPointer
    declTarget
    takeKeyword "to" .kwTo
    requireAt TokenSet.typeFirst.contains (typeExpr bound)
    declTail bound

/-- `entrypoint Type.name ...` -/
def entrypointDecl (bound : Nat) : Reading Unit :=
  node .entrypointDecl do
    bumpAs .kwEntrypoint
    declTarget
    directives bound

/-- The declaration that a literal starts with. -/
def declaration (bound : Nat) : Reading Unit := do
  if ← atKeyword "field" then
    fieldDecl bound
  else if ← atKeyword "pointer" then
    pointerDecl bound
  else if ← atKeyword "entrypoint" then
    entrypointDecl bound
  else
    fail

/-- A whole literal. -/
def literal (bound : Nat) : Reading Unit := do
  declaration bound
  if !(← atEnd) then
    fail

end Reading

theorem follows_declTarget : Follows declTarget Reading.declTarget :=
  ((follows_expectName _).whenExpected ((follows_expect _ _).whenExpected
    (follows_discard_expected (follows_expectName _)))).node .declTarget

theorem follows_defaultValue (bound : Nat) (what : String) :
    Follows (do if ← eat .equals then value bound what) (Reading.defaultValue bound) := by
  refine .congr ((follows_eat .equals).bind fun _ => .ite (follows_value bound what) (.pure ())) fun w => ?_
  simp only [Reading.bind_apply, Reading.eat_apply, Reading.defaultValue, Reading.whenAt,
    Reading.current_apply, Option.bind_some, Reading.ite_apply, decide_eq_true_eq]
  split
  · cases Reading.bump w <;> rfl
  · rfl

theorem follows_variableDef (bound : Nat) :
    Follows (variableDef bound) (Reading.variableDef bound) := by
  have type := (follows_currentlyIn .typeFirst).require (follows_typeExpr bound)
    (follows_errorExpected .expectedType "a variable type")
    fun _ => follows_defaultValue bound "a default value"
  exact Follows.node (follows_variableUse.bind fun _ => (follows_expect _ _).whenExpected type) .variableDef

theorem follows_variableItem (bound : Nat) :
    Follows (variableItem bound) (Reading.round .parenClose (· = .dollar)
      (fun kind => kind = .braceOpen || kind = .atSign) (Reading.variableDef bound)) := by
  refine follows_round fun kind => ?_
  split
  · exact follows_bump.bind fun _ => .pure true
  · exact (follows_variableDef bound).bind fun _ => .pure true
  · exact .pure false
  · exact .pure false
  · rename_i comma dollar braceOpen atSign
    rw [if_neg comma, if_neg (by simpa using dollar), if_neg (by simpa using ⟨braceOpen, atSign⟩)]
    exact (follows_skipUnexpected _).fail_then fun _ => (Follows.pure true).mono

theorem Reading.takes_variableDef (bound : Nat) : (variableDef bound).Takes := by
  have rest := ((follows_typeExpr bound).requireIn .typeFirst .expectedType "").shrinks.bind fun _ =>
    (follows_defaultValue bound "").shrinks
  refine Takes.node (Takes.bind ?_ fun _ => (shrinks_take .colon).bind fun _ => rest) .variableDef
  exact (takes_bump.bind fun _ => shrinks_take .identifier).node .variableUse

theorem follows_variableDefs (bound : Nat) : Follows (variableDefs bound) (Reading.variableDefs bound) :=
  follows_asserted ((follows_variableItem bound).enclosed (Reading.takes_variableDef bound).moves _ _ _)
    .parenOpen

/-- An error node that swallows tokens comes with a report. -/
theorem follows_swallow (kind : DiagnosticKind) (what : String) (stops : TokenSet) :
    Follows (node .error do errorExpected kind what; loop (skipStep stops)) Reading.fail :=
  .congr (((follows_errorExpected kind what).fail_then fun _ =>
    keeps_loop (keeps_skipStep stops)).node .error) fun _ => rfl

theorem follows_recover (kind : DiagnosticKind) (what : String) (stops : TokenSet) :
    Follows (recover kind what stops) Reading.fail := by
  refine .congr ((follows_currentlyIn stops).bind fun _ => follows_shouldStop.bind fun _ =>
    .ite (follows_errorExpected kind what) (follows_swallow kind what stops)) fun w => ?_
  simp only [Reading.bind_apply, Reading.currentlyIn_apply, Option.bind_some, Reading.atEnd_apply,
    Reading.fail_apply, ite_self]

/-- What `headerEnd` skips could not start the rest of a declaration either. -/
theorem Reading.declTail_eq_none {bound : Nat} {w : View}
    (other : TokenSet.headerRecovery.contains (headKind w.tokens) = false) : declTail bound w = none := by
  have absent {kind : SyntaxKind} (header : TokenSet.headerRecovery.contains kind = true) :
      headKind w.tokens ≠ kind := by
    rintro rfl
    rw [header] at other
    cases other
  have description : TokenSet.descriptions.contains (headKind w.tokens) = false := by
    have string : headKind w.tokens ≠ .stringValue := absent rfl
    have block : headKind w.tokens ≠ .blockStringValue := absent rfl
    simp [TokenSet.descriptions, TokenSet.contains, string, block]
  have paren : decide (headKind w.tokens = .parenOpen) = false := decide_eq_false (absent rfl)
  have brace : decide (headKind w.tokens = .braceOpen) = false := decide_eq_false (absent rfl)
  have directive : directives bound w = some ((), w) :=
    whileAt_apply_of_not (decide_eq_false (absent rfl)) _
  simp only [declTail, bind_apply, whenAt_apply, paren, Bool.false_eq_true, reduceIte, Option.bind_some,
    directive, description, requireAt_apply, brace]

theorem follows_declTail (bound : Nat) : Follows (declTail bound) (Reading.declTail bound) := by
  have set := (follows_selectionSet bound).requireIs .braceOpen .expectedSelectionSet
    "a selection set `\x7b ... \x7d`"
  have described := (follows_currentlyIn .descriptions).when (follows_bump.node .description) fun _ => set
  have body := (follows_currentlyIs .parenOpen).when (follows_variableDefs bound) fun _ =>
    (follows_directives bound).bind fun _ => described
  have header : Follows headerEnd (do
      if !(← Reading.currentlyIn .headerRecovery) then if !(← Reading.atEnd) then Reading.fail) :=
    (follows_currentlyIn .headerRecovery).bind fun _ => .ite (follows_shouldStop.bind fun _ =>
      .ite (follows_recover _ _ _) (.pure ())) (.pure ())
  refine .congr (header.bind fun _ => body) fun w => ?_
  show ((do
    if !(← Reading.currentlyIn .headerRecovery) then if !(← Reading.atEnd) then Reading.fail) >>=
      fun _ => Reading.declTail bound : Reading Unit) w = Reading.declTail bound w
  simp only [Reading.bind_apply, Reading.currentlyIn_apply, Option.bind_some, Reading.ite_apply,
    Reading.atEnd_apply, Reading.fail_apply, Reading.pure_apply]
  cases starts : TokenSet.headerRecovery.contains (headKind w.tokens) with
  | true => rfl
  | false =>
    rw [Reading.declTail_eq_none starts]
    cases w.tokens.isEmpty
    · rfl
    · exact Reading.declTail_eq_none starts

theorem follows_atKeyword (keyword : String) :
    Follows (atKeyword keyword) (Reading.atKeyword keyword) :=
  (follows_currentlyIs .identifier).bind fun _ => .ite
    (follows_currentText.bind fun _ => .pure _) (.pure false)

theorem follows_fieldDecl (bound : Nat) : Follows (fieldDecl bound) (Reading.fieldDecl bound) :=
  ((follows_bumpAs rfl).bind fun _ => follows_declTarget.bind fun _ => follows_declTail bound).node .fieldDecl

theorem follows_entrypointDecl (bound : Nat) :
    Follows (entrypointDecl bound) (Reading.entrypointDecl bound) :=
  ((follows_bumpAs rfl).bind fun _ => follows_declTarget.bind fun _ => follows_directives bound).node
    .entrypointDecl

theorem follows_pointerTarget (bound : Nat) :
    Follows (pointerTarget bound) (do
      Reading.takeKeyword "to" .kwTo
      Reading.requireAt TokenSet.typeFirst.contains (Reading.typeExpr bound)) := by
  have eaten : Follows (eatKeyword "to" .kwTo) (do
      if ← Reading.atKeyword "to" then (do Reading.bumpAs .kwTo; return true) else return false) :=
    (follows_atKeyword "to").bind fun _ => .ite ((follows_bumpAs rfl).bind fun _ => .pure true) (.pure false)
  have type := (follows_typeExpr bound).requireIn .typeFirst .expectedType "a target type"
  have missing : Follows (do
      errorExpected .expectedTo "`to`"
      if ← currentlyIs .identifier then typeExpr bound) Reading.fail :=
    (follows_errorExpected _ _).fail_then fun _ => ((follows_typeExpr bound).whenIs .identifier).mono
  refine .congr (eaten.bind fun _ => .ite type missing) fun w => ?_
  simp only [Reading.takeKeyword, Reading.bind_apply]
  cases Reading.atKeyword "to" w with
  | none => rfl
  | some next =>
    obtain ⟨here, u⟩ := next
    cases here with
    | false => rfl
    | true =>
      show ((Reading.bumpAs .kwTo u).bind fun next => some (true, next.2)).bind _ =
        (Reading.bumpAs .kwTo u).bind _
      cases Reading.bumpAs .kwTo u <;> rfl

theorem follows_pointerDecl (bound : Nat) : Follows (pointerDecl bound) (Reading.pointerDecl bound) := by
  refine Follows.node (.congr ((follows_bumpAs rfl).bind fun _ => follows_declTarget.bind fun _ =>
    (follows_pointerTarget bound).bind fun _ => follows_declTail bound) fun w => ?_) .pointerDecl
  simp only [bind_assoc]

theorem follows_declaration (bound : Nat) : Follows (declaration bound) (Reading.declaration bound) :=
  (follows_atKeyword "field").bind fun _ => .ite (follows_fieldDecl bound)
    ((follows_atKeyword "pointer").bind fun _ => .ite (follows_pointerDecl bound)
      ((follows_atKeyword "entrypoint").bind fun _ => .ite (follows_entrypointDecl bound)
        (follows_errorExpected _ _)))

theorem follows_flush : Follows flush (Pure.pure ()) where
  mono := keeps_flush
  runs _ clean := ⟨rfl, clean.flush, view_flush clean⟩
  shrinks := (Follows.pure ()).shrinks

theorem follows_literal (bound : Nat) : Follows (literal bound) (Reading.literal bound) := by
  have trails : Follows trailing (do if !(← Reading.atEnd) then Reading.fail) :=
    follows_shouldStop.bind fun _ => .ite (follows_swallow _ _ _) (.pure ())
  refine .congr ((follows_declaration bound).bind fun _ => trails.bind fun _ => follows_flush) fun w => ?_
  simp only [bind_pure_unit]
  rfl

end IsoLiteral.Parser
