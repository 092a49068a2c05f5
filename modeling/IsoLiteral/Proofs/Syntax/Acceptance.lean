import IsoLiteral.Proofs.Syntax.Limits
import IsoLiteral.Proofs.Syntax.Productions

/-!
# Which literals declare something

The three forms of a declaration realize their rules, and so does a whole literal. With what its tree means,
a text is parsed without diagnostics exactly when its tokens, without trivia, are a declaration by the rules
of the grammar, and that declaration is well-formed. It is the declaration that the parser gives, up to
places.
-/

namespace IsoLiteral.Parser

open Reading Lowering

/-! ## Variable definitions -/

theorem starts_defaultValue : Rule.defaultValue.Starts [.equals] :=
  ((Rule.starts_token .equals).seq starts_value.may).map _

theorem realizes_defaultValue (bound : Nat) :
    Realizes bound (Reading.defaultValue bound) (Rule.optional Rule.defaultValue) DefaultPart [.equals] := by
  have assigned := (((realizes_value bound).after .equals (by decide)).bump).map (PlacedValue.plain ·.2)
  refine Realizes.mono ((assigned.imp ?_).optional starts_defaultValue fun kind => by simp)
    (Nat.le_succ bound)
  rintro _ _ ⟨⟨equals, v⟩, ⟨_, _, rfl, ⟨rfl, isEquals⟩, ⟨tree, rfl, value⟩⟩, rfl⟩
  exact ⟨equals, tree, v, rfl, isEquals, value, rfl⟩

theorem starts_variableDefinition : Rule.variableDefinition.Starts [.dollar] :=
  (starts_variableUse.seq ((Rule.starts_token .colon).seq
    (starts_type.seq starts_defaultValue.optional).may).may).map _

theorem realizes_variableDefinition (bound : Nat) :
    Realizes bound (requireAt (· = .dollar) (Reading.variableDef bound)) Rule.variableDefinition
      (Built.node .variableDef VariableNode) [.bang, .equals] := by
  have typed := (realizes_typeExpr bound).seq_may (realizes_defaultValue bound) starts_type.may
    starts_defaultValue.optional (by decide)
  have startsTyped := starts_type.seq starts_defaultValue.optional
  have colon := (typed.after .colon (by decide)).mono (Nat.le_succ bound)
  have used := (realizes_variableUse bound).seq colon starts_variableUse.may
    ((Rule.starts_token .colon).seq startsTyped.may) (by decide)
  refine (((used.ahead.node .variableDef).outside).map _).imp ?_
  rintro _ _ ⟨⟨t, colon, expr, placed⟩, ⟨_, rfl, _, _, rfl, ⟨dollar, rfl, isDollar, named⟩, _, _, rfl,
    ⟨rfl, isColon⟩, _, trees, rfl, ⟨type, rfl, isType⟩, part⟩, rfl⟩
  exact ⟨_, rfl, dollar, t, colon, type, expr, trees, placed, rfl, isDollar, named, isColon, isType, part,
    rfl⟩

theorem starts_variableDefinitions : Rule.variableDefinitions.MayStart [.parenOpen] :=
  (starts_variableDefinition.enclosed _ _).optional.map _

theorem realizes_variableDefinitions (bound : Nat) :
    Realizes bound (whenAt (· = .parenOpen) (Reading.variableDefs bound)) Rule.variableDefinitions
      (Built.list? .variableDefs .variableDef VariableNode) [.parenOpen] :=
  (realizes_variableDefinition bound).list? starts_variableDefinition (by decide) (by decide) (by decide)
    (by decide) (by decide) .parenOpen .variableDefs (by decide)

/-! ## Targets, descriptions and bodies -/

theorem starts_target : Rule.target.Starts [.identifier] :=
  (starts_name.seq ((Rule.starts_token .dot).seq starts_name.may).may).map _

theorem realizes_target (bound : Nat) :
    Realizes bound Reading.declTarget Rule.target (Built.node .declTarget TargetNode) [] := by
  have field := ((realizes_name bound).after .dot (by decide)).mono (Nat.le_succ bound)
  have type := (realizes_name bound).seq field starts_name.may ((Rule.starts_token .dot).seq starts_name.may)
    (by decide)
  refine ((type.node .declTarget).map _).imp ?_
  rintro _ _ ⟨⟨_, dot, _⟩, ⟨_, rfl, _, _, rfl, ⟨type, ⟨rfl, isType⟩, rfl⟩, _, _, rfl, ⟨rfl, isDot⟩,
    ⟨field, ⟨rfl, isField⟩, rfl⟩⟩, rfl⟩
  exact ⟨_, rfl, type, dot, field, rfl, isType, isDot, isField, rfl⟩

theorem mem_descriptions {t : Token} :
    t.kind ∈ TokenSet.descriptions.kinds ↔ t.kind = .stringValue ∨ t.kind = .blockStringValue := by
  simp [TokenSet.descriptions]

theorem description_iff {v v' : List Token} {text : String} :
    Rule.description v text v' ↔
      ∃ t, v = t :: v' ∧ t.kind ∈ TokenSet.descriptions.kinds ∧ contentsOf t = text := by
  rw [Rule.description, Rule.single_iff]
  simp only [mem_descriptions]

theorem starts_description : Rule.description.Starts TokenSet.descriptions.kinds := by
  intro v text v' applies
  obtain ⟨t, rfl, isText, -⟩ := description_iff.1 applies
  exact ⟨isText, Nat.lt_succ_self _⟩

theorem realizes_description (bound : Nat) :
    Realizes bound (requireAt TokenSet.descriptions.contains (Reading.node .description Reading.bump))
      Rule.description (Built.node .description DescriptionNode) [] := by
  refine Realizes.outside (Realizes.node ⟨?_, ?_⟩ .description)
  · intro v b w _ run
    rw [requireAt_apply] at run
    obtain ⟨here, taken⟩ := Option.ite_none_right_eq_some.1 run
    have isText := List.contains_iff_mem.1 here
    cases v with
    | nil => cases here
    | cons t rest =>
      cases taken
      exact ⟨contentsOf t, [.token t], description_iff.2 ⟨t, rfl, isText, rfl⟩, rfl, t, rfl,
        mem_descriptions.1 isText, rfl⟩
  · intro v b text v' _ applies _
    obtain ⟨t, rfl, isText, rfl⟩ := description_iff.1 applies
    refine ⟨[.token t], ?_, t, rfl, mem_descriptions.1 isText, rfl⟩
    rw [requireAt_apply]
    exact if_pos (List.contains_iff_mem.2 isText)

/-- How a body may start. -/
def bodyFirst : List SyntaxKind := .parenOpen :: .atSign :: (TokenSet.descriptions.kinds ++ [.braceOpen])

theorem starts_body : Rule.body.Starts bodyFirst :=
  (starts_variableDefinitions.seq_starts (starts_directive.many.seq_starts
    (starts_description.optional.seq_starts starts_selectionSet))).map _

theorem realizes_body (bound : Nat) : Realizes bound (Reading.declTail bound) Rule.body BodyTrees [] := by
  have described := ((realizes_description bound).optional starts_description
    fun kind => List.contains_iff_mem).imp fun _ _ => Built.node?_of_optional
  have selected := described.seq (realizes_selectionSet bound) starts_description.optional
    starts_selectionSet (by decide)
  have startsSelected := starts_description.optional.seq_starts starts_selectionSet
  have directed := (realizes_directives bound).seq selected starts_directive.many startsSelected (by decide)
  have startsDirected := starts_directive.many.seq_starts startsSelected
  have defined := (realizes_variableDefinitions bound).seq directed starts_variableDefinitions
    startsDirected (by decide)
  refine (defined.map _).imp ?_
  rintro _ _ ⟨⟨definitions, directives, text, selections⟩, ⟨_, _, rfl, ⟨list, rfl, lists⟩, _, _, rfl,
    ⟨dirs, rfl, directs⟩, _, _, rfl, ⟨texts, rfl, describes⟩, ⟨set, rfl, selects⟩⟩, rfl⟩
  exact ⟨list, dirs, texts, set, rfl, lists, directs, describes, selects⟩

/-! ## Keywords -/

/-- Whether the tokens start with an identifier of a given text. -/
def atWord (text : String) (tokens : List Token) : Bool :=
  tokens.head?.any fun t => t.kind = .identifier && t.text = text

theorem atKeyword_apply (text : String) (w : View) :
    Reading.atKeyword text w = some (atWord text w.tokens, w) := by
  obtain ⟨tokens, b⟩ := w
  cases tokens with
  | nil => rfl
  | cons t rest =>
    by_cases named : t.kind = .identifier
    · simp only [Reading.atKeyword, bind_apply, currentlyIs_apply, headKind_cons, named, decide_true,
        Option.bind_some, reduceIte, atWord, List.head?_cons, Option.any_some, Bool.true_and]
      rfl
    · simp [Reading.atKeyword, atWord, named]

theorem atWord_iff {text : String} {tokens : List Token} :
    atWord text tokens = true ↔
      ∃ t rest, tokens = t :: rest ∧ t.kind = .identifier ∧ t.text = text := by
  cases tokens with
  | nil => simp [atWord]
  | cons t rest => simp [atWord]

/-- A keyword enters the tree as a token of its own kind. -/
def keywordBuilt (kind : SyntaxKind) : Built Token := fun trees t => trees = [.token { t with kind }]

theorem realizes_keyword (bound : Nat) (text : String) (kind : SyntaxKind) :
    Realizes bound (Reading.takeKeyword text kind) (Rule.keyword text) (keywordBuilt kind) [] where
  sound := by
    intro v b w _ run
    rw [Reading.takeKeyword, bind_apply, atKeyword_apply, Option.bind_some, ite_apply] at run
    obtain ⟨here, taken⟩ := Option.ite_none_right_eq_some.1 run
    obtain ⟨t, rest, rfl, named, same⟩ := atWord_iff.1 here
    cases taken
    exact ⟨t, _, Rule.keyword_iff.2 ⟨rfl, named, same⟩, rfl, rfl⟩
  complete := by
    intro v b t v' _ applies _
    obtain ⟨rfl, named, same⟩ := Rule.keyword_iff.1 applies
    refine ⟨_, ?_, rfl⟩
    rw [Reading.takeKeyword, bind_apply, atKeyword_apply, Option.bind_some, ite_apply]
    exact if_pos (atWord_iff.2 ⟨t, v', rfl, named, same⟩)

/-! ## Declarations -/

/-- The tree of a declaration. -/
def declarationBuilt : Built Declaration := fun trees d => ∃ tree, trees = [tree] ∧ DeclarationTree tree d

theorem realizes_field (bound : Nat) :
    Realizes bound (Reading.node .fieldDecl do
        Reading.takeKeyword "field" .kwField
        Reading.declTarget
        Reading.declTail bound)
      Rule.fieldDeclaration declarationBuilt [] := by
  have targeted := (realizes_target bound).seq (realizes_body bound) starts_target.may starts_body
    fun _ _ => List.not_mem_nil
  have headed := (realizes_keyword bound "field" .kwField).seq targeted (Rule.starts_keyword _).may
    (starts_target.seq starts_body.may) fun _ _ => List.not_mem_nil
  refine ((headed.node .fieldDecl).map _).imp ?_
  rintro _ _ ⟨⟨t, names, body⟩, ⟨_, rfl, _, _, rfl, rfl, _, _, rfl, ⟨inner, rfl, target⟩, built⟩, rfl⟩
  exact ⟨_, rfl, declarationTree_field target built⟩

theorem realizes_pointer (bound : Nat) :
    Realizes bound (Reading.node .pointerDecl do
        Reading.takeKeyword "pointer" .kwPointer
        Reading.declTarget
        Reading.takeKeyword "to" .kwTo
        Reading.requireAt TokenSet.typeFirst.contains (Reading.typeExpr bound)
        Reading.declTail bound)
      Rule.pointerDeclaration declarationBuilt [] := by
  have typed := (realizes_typeExpr bound).seq (realizes_body bound) starts_type.may starts_body
    (by decide)
  have startsTyped := starts_type.seq starts_body.may
  have linked := (realizes_keyword bound "to" .kwTo).seq typed (Rule.starts_keyword _).may startsTyped
    fun _ _ => List.not_mem_nil
  have startsLinked := (Rule.starts_keyword "to").seq startsTyped.may
  have targeted := (realizes_target bound).seq linked starts_target.may startsLinked
    fun _ _ => List.not_mem_nil
  have headed := (realizes_keyword bound "pointer" .kwPointer).seq targeted (Rule.starts_keyword _).may
    (starts_target.seq startsLinked.may) fun _ _ => List.not_mem_nil
  refine ((headed.node .pointerDecl).map _).imp ?_
  rintro _ _ ⟨⟨t, names, link, expr, body⟩, ⟨_, rfl, _, _, rfl, rfl, _, _, rfl, ⟨inner, rfl, target⟩,
    _, _, rfl, rfl, _, _, rfl, ⟨tree, rfl, type⟩, built⟩, rfl⟩
  exact ⟨_, rfl, declarationTree_pointer target type built⟩

theorem realizes_entrypoint (bound : Nat) :
    Realizes bound (Reading.node .entrypointDecl do
        Reading.takeKeyword "entrypoint" .kwEntrypoint
        Reading.declTarget
        Reading.directives bound)
      Rule.entrypointDeclaration declarationBuilt [.atSign, .parenOpen] := by
  have targeted := (realizes_target bound).seq_may (realizes_directives bound) starts_target.may
    starts_directive.many fun _ _ => List.not_mem_nil
  have headed := (realizes_keyword bound "entrypoint" .kwEntrypoint).seq targeted
    (Rule.starts_keyword _).may (starts_target.seq starts_directive.many) fun _ _ => List.not_mem_nil
  refine ((headed.node .entrypointDecl).map _).imp ?_
  rintro _ _ ⟨⟨t, names, directives⟩, ⟨_, rfl, _, _, rfl, rfl, _, _, rfl, ⟨inner, rfl, target⟩,
    ⟨dirs, rfl, directs⟩⟩, rfl⟩
  exact ⟨_, rfl, declarationTree_entrypoint target directs⟩

theorem atWord_of_seq {α β : Type} {text : String} {rule : Rule α} {f : Token × α → β} {v v' : List Token}
    {x : β} (applies : Rule.map f (Rule.seq (Rule.keyword text) rule) v x v') : atWord text v = true := by
  obtain ⟨⟨t, y⟩, ⟨u, first, -⟩, -⟩ := applies
  obtain ⟨rfl, named, same⟩ := Rule.keyword_iff.1 first
  exact atWord_iff.2 ⟨t, u, rfl, named, same⟩

/-- Tokens that start with one word do not start with another. -/
theorem atWord_other {text other : String} {v : List Token} (here : atWord text v = true)
    (different : text ≠ other) : atWord other v = false := by
  obtain ⟨t, rest, rfl, named, rfl⟩ := atWord_iff.1 here
  simp [atWord, different]

/-- A form of a declaration that its keyword tells from the forms after it. -/
theorem realizes_form {bound : Nat} {m m₂ : Reading Unit} {text : String} {kind nodeKind : SyntaxKind}
    {rule rule₂ : Rule Declaration} {built : Built Declaration} {stops stops₂ : List SyntaxKind}
    (h : Realizes bound (Reading.node nodeKind (Reading.takeKeyword text kind >>= fun _ => m)) rule built
      stops)
    (h' : Realizes bound m₂ rule₂ built stops₂) (first : ∀ {v x v'}, rule v x v' → atWord text v = true)
    (other : ∀ {v x v'}, rule₂ v x v' → atWord text v = false) :
    Realizes bound (do
        if ← Reading.atKeyword text then
          Reading.node nodeKind (Reading.bumpAs kind >>= fun _ => m)
        else
          m₂)
      (fun v x v' => rule v x v' ∨ rule₂ v x v') built (stops ++ stops₂) := by
  refine h.split h' (atWord text) (fun w here => ?_) (fun w elsewhere => ?_) first other
  · simp only [bind_apply, atKeyword_apply, Option.bind_some, ite_apply, here, reduceIte, Reading.node,
      Reading.opened, Reading.takeKeyword]
  · simp only [bind_apply, atKeyword_apply, Option.bind_some, ite_apply, elsewhere, Bool.false_eq_true,
      reduceIte]

theorem realizes_declaration (bound : Nat) :
    Realizes bound (Reading.declaration bound) Rule.declaration declarationBuilt [.atSign, .parenOpen] := by
  have nothing : Realizes bound Reading.fail (fun _ _ _ => False) declarationBuilt [] :=
    { sound := fun _ run => by cases run
      complete := fun _ none => none.elim }
  have entrypoint := realizes_form (realizes_entrypoint bound) nothing atWord_of_seq fun none => none.elim
  have pointer := realizes_form (realizes_pointer bound) entrypoint atWord_of_seq fun applies =>
    applies.elim (fun applies => atWord_other (atWord_of_seq applies) (by decide)) fun none => none.elim
  have field := realizes_form (realizes_field bound) pointer atWord_of_seq fun applies => by
    rcases applies with applies | applies | none
    · exact atWord_other (atWord_of_seq applies) (by decide)
    · exact atWord_other (atWord_of_seq applies) (by decide)
    · exact none.elim
  exact field.congr fun v d v' => by simp only [or_false, Rule.declaration]

/-! ## Whole literals -/

theorem literal_eq_some {bound : Nat} {w w' : View} :
    Reading.literal bound w = some ((), w') ↔
      Reading.declaration bound w = some ((), w') ∧ w'.tokens = [] := by
  rw [Reading.literal, bind_apply]
  cases Reading.declaration bound w with
  | none => simp
  | some next =>
    obtain ⟨⟨⟩, u⟩ := next
    by_cases empty : u.tokens = []
    · have done : (do if !(← Reading.atEnd) then Reading.fail : Reading Unit) u = some ((), u) := by
        simp [empty]
      refine ⟨fun run => ?_, fun ⟨same, _⟩ => done.trans same⟩
      cases done.symm.trans run
      exact ⟨rfl, empty⟩
    · have left : (do if !(← Reading.atEnd) then Reading.fail : Reading Unit) u = none := by
        simp [empty]
      constructor
      · intro run
        cases left.symm.trans run
      · rintro ⟨same, ends⟩
        cases same
        exact absurd ends empty

/-- A literal that is read to its end is a declaration. -/
theorem sound_literal {bound : Nat} {v : List Token} {w : View} (few : v.length < bound)
    (run : Reading.literal bound ⟨v, []⟩ = some ((), w)) :
    ∃ d tree, Rule.declaration v d [] ∧ w.built = [tree] ∧ DeclarationTree tree d := by
  obtain ⟨declared, empty⟩ := literal_eq_some.1 run
  obtain ⟨d, _, applies, grown, tree, rfl, built⟩ := (realizes_declaration bound).sound few declared
  rw [empty] at applies
  exact ⟨d, tree, applies, grown, built⟩

/-- Every declaration is read to its end. -/
theorem complete_literal {bound : Nat} {v : List Token} {d : Declaration} (few : v.length < bound)
    (applies : Rule.declaration v d []) :
    ∃ tree, Reading.literal bound ⟨v, []⟩ = some ((), ⟨[], [tree]⟩) ∧ DeclarationTree tree d := by
  obtain ⟨_, run, tree, rfl, built⟩ :=
    (realizes_declaration bound).complete (b := []) few applies (by decide)
  exact ⟨tree, literal_eq_some.2 ⟨run, rfl⟩, built⟩

theorem clean_initial (text : String) (source : Nat) : Clean (State.initial text source .unlimited) :=
  ⟨rfl, rfl, rfl, rfl, rfl, nofun⟩

/-- The reading of the tokens of a text, without trivia. -/
def readText (text : String) : Option (Unit × View) :=
  Reading.literal ((lex text).length + 1) ⟨(lex text).filter (!·.isTrivia), []⟩

theorem agrees_literal (text : String) (source : Nat) :
    Agrees (literal ((lex text).length + 1) (State.initial text source .unlimited)) (readText text) := by
  have runs := (follows_literal ((lex text).length + 1)).runs _ (clean_initial text source)
  rwa [view, State.initial, Tree.solidOf] at runs

/-- Where the reading fails, the parser reports something. -/
theorem diagnostics_finalState {text : String} (fails : readText text = none) (source : Nat) :
    (finalState text source .unlimited).diagnostics ≠ [] := by
  have agrees := agrees_literal text source
  rw [fails] at agrees
  rw [finalState_eq]
  exact agrees

/-- Where the reading succeeds, the parser reports nothing and builds the same. -/
theorem clean_finalState {text : String} {w : View} (reads : readText text = some ((), w)) (source : Nat) :
    Clean (finalState text source .unlimited) ∧
      Tree.solidOf (finalState text source .unlimited).built = w.built := by
  have agrees := agrees_literal text source
  rw [reads] at agrees
  rw [finalState_eq]
  obtain ⟨-, clean, seen⟩ := agrees
  refine ⟨clean, ?_⟩
  rw [← seen, view]

/-- The tokens without trivia are fewer than the bound of the nesting. -/
theorem length_solid_lt (tokens : List Token) :
    (tokens.filter (!·.isTrivia)).length < tokens.length + 1 :=
  Nat.lt_succ_of_le (List.length_filter_le _ _)

end IsoLiteral.Parser

namespace IsoLiteral

open IsoLiteral.Parser IsoLiteral.Lowering

theorem parseDeclaration_eq_ok {text : String} {source : Nat} {limits : ParseLimits}
    {result : Option Declaration × Diagnostics} :
    parseDeclaration text source limits = .ok result ↔
      (finalState text source limits).exceeded = none ∧
        declarationIn source (.node .root (finalState text source limits).built)
          (finalState text source limits).diagnostics = result := by
  unfold parseDeclaration parseTree
  generalize finalState text source limits = final
  cases here : final.exceeded with
  | none => simp [here, bind, Except.bind, pure, Except.pure]
  | some limit => simp [here, bind, Except.bind]

/-- A text whose tokens are a well-formed declaration is parsed to it, without diagnostics. -/
theorem parseDeclaration_of_declaration {text : String} {expected : Declaration}
    (applies : Rule.declaration ((lex text).filter (!·.isTrivia)) expected [])
    (wellFormed : expected.WellFormed) (source : Nat) :
    ∃ d, parseDeclaration text source .unlimited = .ok (some d, []) ∧ d.bare = expected := by
  obtain ⟨tree, reads, built⟩ := complete_literal (length_solid_lt (lex text)) applies
  obtain ⟨clean, seen⟩ := clean_finalState reads source
  have yields := yields_declarationIn source seen built
  obtain ⟨_, returned, same⟩ := yields.returns wellFormed
  obtain ⟨d, rfl, plain⟩ := Option.map_eq_some_iff.1 same
  have lowered : declarationIn source (.node .root (finalState text source .unlimited).built)
      (finalState text source .unlimited).diagnostics = (some d, []) := by
    rw [clean.diagnostics]
    exact returned
  exact ⟨d, parseDeclaration_eq_ok.2 ⟨clean.exceeded, lowered⟩, plain⟩

/-- Without limits, a text is parsed without diagnostics exactly when its tokens are a well-formed
declaration by the rules of the grammar, and that is the declaration it is parsed to. -/
theorem parseDeclaration_clean_iff (text : String) (source : Nat) (expected : Declaration) :
    (∃ d, parseDeclaration text source .unlimited = .ok (some d, []) ∧ d.bare = expected) ↔
      Rule.declaration ((lex text).filter (!·.isTrivia)) expected [] ∧ expected.WellFormed := by
  have few := length_solid_lt (lex text)
  constructor
  · rintro ⟨d, parsed, rfl⟩
    obtain ⟨-, lowered⟩ := parseDeclaration_eq_ok.1 parsed
    have quiet := congrArg Prod.snd lowered
    have silent : (finalState text source .unlimited).diagnostics = [] :=
      not_not.1 fun dirty => (reports_declarationIn source _).keeps _ dirty quiet
    rw [silent] at lowered
    cases reads : readText text with
    | none => exact absurd silent (diagnostics_finalState reads source)
    | some next =>
      obtain ⟨⟨⟩, w⟩ := next
      obtain ⟨-, seen⟩ := clean_finalState reads source
      obtain ⟨expected, tree, applies, grown, built⟩ := sound_literal few reads
      have yields := yields_declarationIn source (seen.trans grown) built
      have wellFormed : expected.WellFormed :=
        not_not.1 fun ill => yields.reports ill (congrArg Prod.snd lowered)
      obtain ⟨_, returned, same⟩ := yields.returns wellFormed
      cases returned.symm.trans lowered
      cases same
      exact ⟨applies, wellFormed⟩
  · rintro ⟨applies, wellFormed⟩
    exact parseDeclaration_of_declaration applies wellFormed source

end IsoLiteral
