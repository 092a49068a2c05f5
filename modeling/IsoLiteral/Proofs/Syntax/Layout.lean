import IsoLiteral.Proofs.Syntax.Alike
import IsoLiteral.Proofs.Syntax.Partition

/-!
# Literals that are laid out otherwise

Every production of the grammar is alike in two runs on tokens that differ in trivia and places only. So a
literal exceeds the same limit whatever its layout, or has the same tree but for trivia and places, and the same
is said about it.
-/

namespace IsoLiteral

namespace Parser

open IsoLiteral.Tree (bareOf bareOf_append)

/-! ## Types and values -/

theorem alike_baseType {item item' : Parser Unit} (h : Alike item item') :
    Alike (baseType item) (baseType item') := by
  refine alike_current.bind fun kind => ?_
  split
  · exact (alike_bump.node .namedType).bind fun _ => .pure _
  · exact (Alike.delimited ((alike_currentlyIn .typeFirst).bind fun _ =>
      .ite h (alike_errorExpected _ _)) _ _ _ _).bind fun _ => .pure _
  · exact (alike_errorExpected _ _).bind fun _ => .pure _

theorem sticky_startNodeAt (place : Checkpoint) (kind : SyntaxKind) : Sticky (startNodeAt place kind) := by
  intro s
  show ((if s.enclosing.length = place.enclosing ∧ place.children ≤ s.built.length then modify _
    else blame .unopened : Parser Unit) s).2.fault = none → _
  split
  · exact id
  · exact sticky_blame _ s

theorem sticky_nonNull (start : Checkpoint) (bang : Bool) :
    Sticky (if bang = true then nodeAt start .nonNullType bump else pure ()) :=
  .ite ((sticky_startNodeAt start _).bind fun _ => alike_bump.sticky.bind fun _ => alike_finishNode.sticky)
    (.of_eq fun _ => rfl)

theorem sticky_finishType (start : Checkpoint) : Sticky (finishType start) :=
  (alike_currentlyIs .bang).sticky.bind fun _ => sticky_nonNull start _

section Places

variable {s s' : State} {before since before' since' : List Tree} (built : s.built = before ++ since)
  (built' : s'.built = before' ++ since') (earlier : bareOf before' = bareOf before)

include built built' earlier

theorem Same.opened (same : Same s s') (kind : SyntaxKind) :
    Same { s with built := since, enclosing := (kind, before) :: s.enclosing }
      { s' with built := since', enclosing := (kind, before') :: s'.enclosing } := by
  have trees := same.built
  rw [built, built', bareOf_append, bareOf_append, earlier] at trees
  have later := List.append_cancel_left trees
  have opened (s : State) (before since : List Tree) :
      State.bare { s with built := since, enclosing := (kind, before) :: s.enclosing } =
        { s.bare with built := bareOf since, enclosing := (kind, bareOf before) :: s.bare.enclosing } := rfl
  refine same.still ⟨rfl, rfl, rfl, fun _ => .inl⟩ ⟨rfl, rfl, rfl, fun _ => .inl⟩ ?_
  rw [opened, opened, same.bare, earlier, later]

/-- A node that takes in what was built since corresponding places. -/
theorem same_nodeAt (same : Same s s') {body body' : Parser Unit} (h : Alike body body') (kind : SyntaxKind)
    (fine : (nodeAt ⟨s.enclosing.length, before.length⟩ kind body s).2.fault = none)
    (fine' : (nodeAt ⟨s'.enclosing.length, before'.length⟩ kind body' s').2.fault = none) :
    Same (nodeAt ⟨s.enclosing.length, before.length⟩ kind body s).2
      (nodeAt ⟨s'.enclosing.length, before'.length⟩ kind body' s').2 := by
  have node {u : State} {before since : List Tree} (built : u.built = before ++ since) (body : Parser Unit) :
      nodeAt ⟨u.enclosing.length, before.length⟩ kind body u = (do body; finishNode : Parser Unit)
        { u with built := since, enclosing := (kind, before) :: u.enclosing } := by
    show (do body; finishNode : Parser Unit) (startNodeAt _ kind u).2 = _
    rw [startNodeAt_eq _ built]
  rw [node built] at fine ⊢
  rw [node built'] at fine' ⊢
  exact ((h.bind fun _ => alike_finishNode).alike _ _ (same.opened built built' earlier kind) fine fine').2

/-- The end of a type whose base was built after corresponding places. -/
theorem same_finishType (same : Same s s')
    (fine : (finishType ⟨s.enclosing.length, before.length⟩ s).2.fault = none)
    (fine' : (finishType ⟨s'.enclosing.length, before'.length⟩ s').2.fault = none) :
    Same (finishType ⟨s.enclosing.length, before.length⟩ s).2
      (finishType ⟨s'.enclosing.length, before'.length⟩ s').2 := by
  have run (s : State) (start : Checkpoint) : finishType start s =
      (if (currentlyIs .bang s).1 = true then nodeAt start .nonNullType bump else pure () : Parser Unit)
        (currentlyIs .bang s).2 := rfl
  have around (s : State) : (currentlyIs .bang s).2.enclosing = s.enclosing :=
    ((follows_currentlyIs .bang).mono s).enclosing
  rw [run, ← around] at fine fine' ⊢
  rw [run s', ← around s']
  obtain ⟨value, looked⟩ := (alike_currentlyIs .bang).alike s s' same (sticky_nonNull _ _ _ fine)
    (sticky_nonNull _ _ _ fine')
  rw [value] at fine' ⊢
  split at fine
  · rename_i bang
    rw [if_pos bang] at fine' ⊢
    rw [if_pos bang]
    exact same_nodeAt ((built_current s).trans built) ((built_current s').trans built') earlier looked alike_bump
      .nonNullType fine fine'
  · rename_i plain
    rw [if_neg plain, if_neg plain]
    exact looked

end Places

/-- A type is read alike from corresponding places, although other trivia may stand before them. -/
theorem alike_typeFrom {base base' : Parser Bool} (h : Alike base base') (keeps : Keeps base)
    (keeps' : Keeps base') :
    Alike (do let start ← checkpoint; typeFrom base start) (do let start ← checkpoint; typeFrom base' start) := by
  have sticky (start : Checkpoint) (found : Bool) : Sticky (if found = true then finishType start else pure ()) :=
    .ite (sticky_finishType start) (.of_eq fun _ => rfl)
  have run (base : Parser Bool) (s : State) : (do let start ← checkpoint; typeFrom base start) s =
      (if (base (flush s).2).1 = true then finishType ⟨s.enclosing.length, (flush s).2.built.length⟩
        else pure () : Parser Unit) (base (flush s).2).2 := rfl
  refine ⟨fun s fine => h.sticky (flush s).2 (sticky _ _ _ (run base s ▸ fine)),
    fun s fine => h.sticky' (flush s).2 (sticky _ _ _ (run base' s ▸ fine)),
    fun s s' same fine fine' => ⟨rfl, ?_⟩⟩
  rw [run] at fine fine' ⊢
  rw [run base']
  have flushed : Same (flush s).2 (flush s').2 := same.flush
  obtain ⟨value, next⟩ := h.alike _ _ flushed (sticky _ _ _ fine) (sticky _ _ _ fine')
  rw [value] at fine' ⊢
  split at fine
  · rename_i found
    rw [if_pos found] at fine' ⊢
    rw [if_pos found]
    have kept := keeps (flush s).2
    have kept' := keeps' (flush s').2
    obtain ⟨since, built⟩ := kept.built
    obtain ⟨since', built'⟩ := kept'.built
    have around : s.enclosing = (base (flush s).2).2.enclosing := kept.enclosing.symm
    have around' : s'.enclosing = (base' (flush s').2).2.enclosing := kept'.enclosing.symm
    rw [around] at fine ⊢
    rw [around'] at fine' ⊢
    exact same_finishType built.symm built'.symm flushed.built next fine fine'
  · rename_i none
    rw [if_neg none, if_neg none]
    exact next

theorem alike_typeExpr (n m : Nat) : Alike (typeExpr n) (typeExpr m) :=
  .of_bounds (p := fun bound _ => typeExpr bound) (q := fun bound _ => typeExpr bound) (fun _ => rfl)
    (fun _ => rfl) (fun n m ih _ => (alike_typeFrom (alike_baseType (ih ()))
      (follows_baseType (follows_typeExpr n)).mono (follows_baseType (follows_typeExpr m)).mono).nested) n m ()

theorem alike_variableUse : Alike variableUse variableUse :=
  (alike_assertCurrent .dollar).bind fun _ =>
    (alike_bump.bind fun _ => (alike_expectName _).bind fun _ => .pure ()).node .variableUse

section Values

variable {value value' : String → Parser Unit} (h : ∀ what, Alike (value what) (value' what))

include h

theorem alike_listItem : Alike (listItem value) (listItem value') :=
  alike_shouldStop.bind fun _ => .ite (.pure _) <|
    (alike_currentlyIs .bracketClose).bind fun _ => .ite (.pure _) <|
    (alike_eat .comma).bind fun _ => .ite (.pure _) <|
    (alike_currentlyIn .valueFirst).bind fun _ => .ite ((h _).bind fun _ => .pure _) <|
    (alike_currentlyIs .parenClose).bind fun _ => .ite (.pure _) <|
    (alike_currentlyIs .braceClose).bind fun _ => .ite (.pure _) <|
    (alike_skipUnexpected _).bind fun _ => .pure _

theorem alike_objectField : Alike (objectField value) (objectField value') :=
  (alike_bump.bind fun _ => (alike_expect _ _).bind fun _ => .ite (h _) (.pure ())).node .objectField

theorem alike_objectItem : Alike (objectItem value) (objectItem value') := by
  refine alike_shouldStop.bind fun _ => .ite (.pure _) ?_
  refine (alike_currentlyIs .braceClose).bind fun _ => .ite (.pure _) (alike_current.bind fun kind => ?_)
  split
  · exact alike_bump.bind fun _ => .pure _
  · exact (alike_objectField h).bind fun _ => .pure _
  · exact .pure _
  · exact .pure _
  · exact (alike_skipUnexpected _).bind fun _ => .pure _

theorem alike_valueBody : Alike (valueBody value) (valueBody value') := by
  refine alike_current.bind fun kind => ?_
  split
  · exact alike_variableUse
  · exact (alike_listItem h).loop.delimited _ _ _ _
  · exact (alike_objectItem h).loop.delimited _ _ _ _
  · exact alike_currentText.bind fun _ => (alike_bumpAs _).node .literal
  · exact alike_bump.node .literal

end Values

theorem alike_value (n m : Nat) (what : String) : Alike (value n what) (value m what) :=
  .of_bounds (fun _ => rfl) (fun _ => rfl) (fun _ _ ih _ => (alike_currentlyIn .valueFirst).bind fun _ =>
    .ite (alike_valueBody ih).nested (alike_errorExpected _ _)) n m what

/-! ## Arguments, directives and selections -/

section Bounds

variable (n m : Nat)

theorem alike_argument : Alike (argument n) (argument m) :=
  (alike_bump.bind fun _ => (alike_expect _ _).bind fun _ => .ite (alike_value n m _) (.pure ())).node .argument

theorem alike_argumentItem : Alike (argumentItem n) (argumentItem m) := by
  refine alike_shouldStop.bind fun _ => .ite (.pure _) ?_
  refine (alike_currentlyIs .parenClose).bind fun _ => .ite (.pure _) (alike_current.bind fun kind => ?_)
  split
  · exact alike_bump.bind fun _ => .pure _
  · exact (alike_argument n m).bind fun _ => .pure _
  · exact .pure _
  · exact .pure _
  · exact (alike_skipUnexpected _).bind fun _ => .pure _

theorem alike_arguments : Alike (arguments n) (arguments m) :=
  (alike_assertCurrent .parenOpen).bind fun _ => (alike_argumentItem n m).loop.delimited _ _ _ _

theorem alike_directive : Alike (directive n) (directive m) :=
  (alike_bump.bind fun _ => (alike_expectName _).bind fun _ => .ite
    ((alike_currentlyIs .parenOpen).bind fun _ => .ite (alike_arguments n m) (.pure ()))
    (.pure ())).node .directive

theorem alike_directives : Alike (directives n) (directives m) :=
  Alike.loop <| (alike_currentlyIs .atSign).bind fun _ => .ite
    (alike_shouldStop.bind fun _ => .ite (.pure _) ((alike_directive n m).bind fun _ => .pure _))
    (.pure _)

theorem alike_selection {set set' : Parser Unit} (h : Alike set set') :
    Alike (selection n set) (selection m set') := by
  have tail : Alike (do directives n; if ← currentlyIs .braceOpen then set)
      (do directives m; if ← currentlyIs .braceOpen then set') :=
    (alike_directives n m).bind fun _ => (alike_currentlyIs .braceOpen).bind fun _ => .ite h (.pure ())
  have named := (alike_currentlyIs .parenOpen).when (alike_arguments n m) fun _ => tail
  have label := (alike_bump.bind fun _ => alike_bump).node .aliasLabel
  exact ((alike_nextIs .colon).when label fun _ => (alike_expectName _).bind fun _ =>
    .ite named (.pure ())).node .selection

theorem alike_selectionItem {set set' : Parser Unit} (h : Alike set set') :
    Alike (selectionItem n set) (selectionItem m set') := by
  refine alike_shouldStop.bind fun _ => .ite (.pure _) ?_
  refine (alike_currentlyIs .braceClose).bind fun _ => .ite (.pure _) (alike_current.bind fun kind => ?_)
  split
  · exact alike_bump.bind fun _ => .pure _
  · exact (alike_selection n m h).bind fun _ => .pure _
  · exact (alike_skipUnexpected _).bind fun _ => .pure _

theorem alike_selectionSet : Alike (selectionSet n) (selectionSet m) :=
  .of_bounds (p := fun bound _ => selectionSet bound) (q := fun bound _ => selectionSet bound) (fun _ => rfl)
    (fun _ => rfl) (fun n m ih _ => (alike_assertCurrent .braceOpen).bind fun _ =>
      ((alike_selectionItem (n + 1) (m + 1) (ih ())).loop.delimited _ _ _ _).nested) n m ()

/-! ## Declarations -/

theorem alike_declTarget : Alike declTarget declTarget :=
  ((alike_expectName _).bind fun _ => .ite ((alike_expect _ _).bind fun _ =>
    .ite ((alike_expectName _).bind fun _ => .pure ()) (.pure ())) (.pure ())).node .declTarget

theorem alike_variableDef : Alike (variableDef n) (variableDef m) := by
  have default : Alike (do if ← eat .equals then value n "a default value")
      (do if ← eat .equals then value m "a default value") :=
    (alike_eat .equals).bind fun _ => .ite (alike_value n m _) (.pure ())
  refine Alike.node (alike_variableUse.bind fun _ => (alike_expect _ _).bind fun _ =>
    .ite ?_ (.pure ())) .variableDef
  exact (alike_currentlyIn .typeFirst).bind fun _ => .ite
    ((alike_typeExpr n m).bind fun _ => default) ((alike_errorExpected _ _).bind fun _ => default)

theorem alike_variableItem : Alike (variableItem n) (variableItem m) := by
  refine alike_shouldStop.bind fun _ => .ite (.pure _) ?_
  refine (alike_currentlyIs .parenClose).bind fun _ => .ite (.pure _) (alike_current.bind fun kind => ?_)
  split
  · exact alike_bump.bind fun _ => .pure _
  · exact (alike_variableDef n m).bind fun _ => .pure _
  · exact .pure _
  · exact .pure _
  · exact (alike_skipUnexpected _).bind fun _ => .pure _

theorem alike_variableDefs : Alike (variableDefs n) (variableDefs m) :=
  (alike_assertCurrent .parenOpen).bind fun _ => (alike_variableItem n m).loop.delimited _ _ _ _

theorem alike_headerEnd : Alike headerEnd headerEnd :=
  (alike_currentlyIn .headerRecovery).bind fun _ => .ite (alike_shouldStop.bind fun _ =>
    .ite (alike_recover _ _ _) (.pure ())) (.pure ())

theorem alike_declTail : Alike (declTail n) (declTail m) := by
  have set : Alike
      (do
        if ← currentlyIs .braceOpen then selectionSet n
        else errorExpected .expectedSelectionSet "a selection set `\x7b ... \x7d`")
      (do
        if ← currentlyIs .braceOpen then selectionSet m
        else errorExpected .expectedSelectionSet "a selection set `\x7b ... \x7d`") :=
    (alike_currentlyIs .braceOpen).bind fun _ => .ite (alike_selectionSet n m) (alike_errorExpected _ _)
  have described := (alike_currentlyIn .descriptions).when (alike_bump.node .description) fun _ => set
  exact alike_headerEnd.bind fun _ => (alike_currentlyIs .parenOpen).when (alike_variableDefs n m)
    fun _ => (alike_directives n m).bind fun _ => described

theorem alike_fieldDecl : Alike (fieldDecl n) (fieldDecl m) :=
  ((alike_bumpAs _).bind fun _ => alike_declTarget.bind fun _ => alike_declTail n m).node .fieldDecl

theorem alike_pointerTarget : Alike (pointerTarget n) (pointerTarget m) :=
  (alike_eatKeyword _ _).bind fun _ => .ite
    ((alike_currentlyIn .typeFirst).bind fun _ => .ite (alike_typeExpr n m) (alike_errorExpected _ _))
    ((alike_errorExpected _ _).bind fun _ => (alike_currentlyIs .identifier).bind fun _ =>
      .ite (alike_typeExpr n m) (.pure ()))

theorem alike_pointerDecl : Alike (pointerDecl n) (pointerDecl m) :=
  ((alike_bumpAs _).bind fun _ => alike_declTarget.bind fun _ => (alike_pointerTarget n m).bind
    fun _ => alike_declTail n m).node .pointerDecl

theorem alike_entrypointDecl : Alike (entrypointDecl n) (entrypointDecl m) :=
  ((alike_bumpAs _).bind fun _ => alike_declTarget.bind fun _ => alike_directives n m).node .entrypointDecl

theorem alike_declaration : Alike (declaration n) (declaration m) :=
  (alike_atKeyword _).bind fun _ => .ite (alike_fieldDecl n m) <|
    (alike_atKeyword _).bind fun _ => .ite (alike_pointerDecl n m) <|
    (alike_atKeyword _).bind fun _ => .ite (alike_entrypointDecl n m) (alike_errorExpected _ _)

theorem alike_trailing : Alike trailing trailing :=
  alike_shouldStop.bind fun _ => .ite
    (((alike_errorExpected _ _).bind fun _ => (alike_skipStep .empty).loop).node .error) (.pure ())

/-- **A whole literal** is read alike under bounds that are not reached. -/
theorem alike_literal : Alike (literal n) (literal m) :=
  (alike_declaration n m).bind fun _ => alike_trailing.bind fun _ => alike_flush

end Bounds

end Parser

/-! ## Whole literals -/

/-- The kinds and texts of the tokens of a text that matter. -/
def solidTokens (text : String) : List (SyntaxKind × String) :=
  ((lex text).filter (!·.isTrivia)).map fun t => (t.kind, t.text)

theorem Token.pairwise_of_spans {tokens : List Token} {start stop : Nat} (spans : Token.Spans start tokens stop)
    (nonempty : ∀ t ∈ tokens, t.text ≠ "") :
    (tokens.map Token.start ++ [stop]).Pairwise (· < ·) ∧
      ∀ offset ∈ tokens.map Token.start ++ [stop], start ≤ offset := by
  induction tokens generalizing start with
  | nil =>
    obtain rfl : start = stop := spans
    exact ⟨List.pairwise_singleton _ _, by simp⟩
  | cons t rest ih =>
    obtain ⟨rfl, spans⟩ := spans
    obtain ⟨some, nonempty⟩ := List.forall_mem_cons.1 nonempty
    obtain ⟨later, after⟩ := ih spans nonempty
    have longer : t.start < t.stop := Nat.lt_add_of_pos_right (Nat.pos_of_ne_zero (by simpa using some))
    refine ⟨List.pairwise_cons.2 ⟨fun offset member => longer.trans_le (after offset member), later⟩, ?_⟩
    exact List.forall_mem_cons.2 ⟨le_rfl, fun offset member => longer.le.trans (after offset member)⟩

namespace Parser

theorem placed_initial (text : String) (source : Nat) (limits : ParseLimits) :
    (State.initial text source limits).Placed where
  increasing := by
    have cut := partition_lex text
    refine (Token.pairwise_of_spans cut.contiguous cut.nonempty).1.sublist ?_
    exact (List.filter_sublist.map Token.start).append_right _
  charged := fun _ none => absurd none (Option.not_mem_none _)
  pending := fun _ none => absurd none List.not_mem_nil

theorem same_initial {text text' : String} (same : solidTokens text' = solidTokens text) (source : Nat)
    (limits : ParseLimits) : Same (State.initial text source limits) (State.initial text' source limits) where
  placed := placed_initial text source limits
  placed' := placed_initial text' source limits
  charged := iff_of_false (Option.some_ne_none _).symm (Option.some_ne_none _).symm
  bare := by
    have bare : (State.initial text' source limits).ahead.map Token.bare =
        (State.initial text source limits).ahead.map Token.bare := by
      have pairs (tokens : List Token) :
          tokens.map Token.bare = (tokens.map fun t => (t.kind, t.text)).map fun t => ⟨t.1, t.2, 0⟩ := by
        rw [List.map_map]
        rfl
      rw [pairs, pairs]
      exact congrArg _ same
    unfold State.bare
    rw [bare]
    rfl

/-- Literals with the same tokens that matter are left in states that are the same but for trivia and places. -/
theorem same_finalState {text text' : String} (same : solidTokens text' = solidTokens text) (source : Nat)
    (limits : ParseLimits) : Same (finalState text source limits) (finalState text' source limits) := by
  have fine := (fares_finalState text source limits).steps.fault
  have fine' := (fares_finalState text' source limits).steps.fault
  rw [finalState_eq] at fine fine' ⊢
  rw [finalState_eq]
  exact ((alike_literal _ _).alike _ _ (same_initial same source limits) fine fine').2

end Parser

/-- A literal whose layout changes has the same tree but for trivia and places, and the same is reported about
it; or it exceeds the same limit. -/
theorem parseTree_layout {text text' : String} (same : solidTokens text' = solidTokens text) (source : Nat)
    (limits : ParseLimits) :
    (∃ limit, parseTree text source limits = .error limit ∧ parseTree text' source limits = .error limit) ∨
      ∃ built built' problems problems', parseTree text source limits = .ok (.node .root built, problems) ∧
        parseTree text' source limits = .ok (.node .root built', problems') ∧
        Tree.bareOf built' = Tree.bareOf built ∧ Diagnostics.plain problems' = Diagnostics.plain problems := by
  have final := Parser.same_finalState same source limits
  unfold parseTree
  simp only [final.exceeded]
  cases (Parser.finalState text source limits).exceeded with
  | some limit => exact .inl ⟨limit, rfl, rfl⟩
  | none => exact .inr ⟨_, _, _, _, rfl, rfl, final.built, final.diagnostics⟩

end IsoLiteral
