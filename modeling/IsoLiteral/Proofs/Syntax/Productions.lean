import IsoLiteral.Proofs.Declaration.Lowering
import IsoLiteral.Proofs.Syntax.Grammar

/-!
# Productions and their rules

Each production of the grammar reads the instances of its rule and builds trees that mean what the rule
reads. A production that nests in itself is followed by induction on the bound of its nesting; as every
level takes a token, a bound above the number of tokens is enough.
-/

namespace IsoLiteral.Parser

open Reading Lowering
open IsoLiteral.Tree (nodes)

/-! ## Types -/

theorem starts_type : Rule.Starts Rule.typeAnnotation TokenSet.typeFirst.kinds := by
  intro tokens x rest applies
  induction applies with
  | named here => exact ⟨by simp [TokenSet.typeFirst, here], Nat.lt_succ_self _⟩
  | list opening _ _ ih =>
    have fewer := ih.2
    rw [List.length_cons] at fewer
    exact ⟨by simp [TokenSet.typeFirst, opening], by rw [List.length_cons]; omega⟩
  | nonNull _ _ _ ih =>
    have fewer := ih.2
    rw [List.length_cons] at fewer
    exact ⟨ih.1, by omega⟩

/-- An annotation without its final `!`. -/
def baseAnnotation : Rule TypeExpr := fun tokens x rest =>
  Rule.typeAnnotation tokens x rest ∧ x.isNonNull = false

/-- `Name` -/
def namedAnnotation : Rule TypeExpr := (Rule.token .identifier).map (.named ·.text)

/-- `[Type]` -/
def listAnnotation : Rule TypeExpr :=
  Rule.map (fun (_, item, _) => .list item)
    (Rule.seq (Rule.token .bracketOpen) (Rule.seq Rule.typeAnnotation (Rule.token .bracketClose)))

theorem baseAnnotation_iff (v : List Token) (x : TypeExpr) (v' : List Token) :
    namedAnnotation v x v' ∨ listAnnotation v x v' ↔ baseAnnotation v x v' := by
  constructor
  · rintro (⟨t, applies, rfl⟩ | ⟨⟨opening, item, closing⟩, ⟨u, opens, u', inside, closes⟩, rfl⟩)
    · obtain ⟨rfl, named⟩ := Rule.token_iff.1 applies
      exact ⟨.named named, rfl⟩
    · obtain ⟨rfl, isOpen⟩ := Rule.token_iff.1 opens
      obtain ⟨rfl, isClose⟩ := Rule.token_iff.1 closes
      exact ⟨.list isOpen inside isClose, rfl⟩
  · rintro ⟨applies, nullable⟩
    cases applies with
    | named here => exact .inl ⟨_, Rule.token_iff.2 ⟨rfl, here⟩, rfl⟩
    | @list opening closing _ _ item isOpen inside isClose =>
      exact .inr ⟨(opening, item, closing), ⟨_, Rule.token_iff.2 ⟨rfl, isOpen⟩, _, inside,
        Rule.token_iff.2 ⟨rfl, isClose⟩⟩, rfl⟩
    | nonNull _ _ _ => cases nullable

theorem realizes_namedType (bound : Nat) :
    Realizes bound (requireAt (· = .identifier) (Reading.node .namedType Reading.bump)) namedAnnotation
      typeBuilt [] := by
  refine ((Realizes.single bound .identifier (by decide) .namedType).map _).imp ?_
  rintro _ _ ⟨t, ⟨_, rfl, rfl, named⟩, rfl⟩
  refine ⟨_, rfl, rfl, ?_⟩
  rw [typeOf?_node, if_pos rfl]
  simp [Tree.tokenOfKind?, named]

theorem realizes_listType {bound : Nat} {item : Reading Unit}
    (h : Realizes bound item Rule.typeAnnotation typeBuilt [.bang]) :
    Realizes (bound + 1) (requireAt (· = .bracketOpen) (Reading.delimited .listType .bracketClose item))
      listAnnotation typeBuilt [] := by
  have closed := h.seq (Realizes.take bound .bracketClose (by decide)) starts_type.may
    (Rule.starts_token .bracketClose) (by decide)
  refine (((closed.after .bracketOpen (by decide)).opened .listType).map _).imp ?_
  rintro _ _ ⟨⟨opening, x, closing⟩, ⟨_, rfl, _, _, rfl, ⟨rfl, -⟩, _, _, rfl, ⟨tree, rfl, type⟩,
    ⟨rfl, -⟩⟩, rfl⟩
  refine ⟨_, rfl, rfl, ?_⟩
  rw [typeOf?_node, if_neg (by decide), if_pos rfl]
  have inner : typeIn? ([.token opening] ++ ([tree] ++ [.token closing])) = typeOf? tree := by
    simp [typeIn?, type.1]
  rw [inner, type.2, Option.map_some]

theorem realizes_baseType {bound : Nat} (h : Realizes bound
    (requireAt TokenSet.typeFirst.contains (Reading.typeExpr bound)) Rule.typeAnnotation typeBuilt [.bang]) :
    Realizes (bound + 1) (Reading.baseType (Reading.typeExpr bound)) baseAnnotation typeBuilt [] := by
  have startsList : listAnnotation.Starts [.bracketOpen] :=
    ((Rule.starts_token .bracketOpen).seq (starts_type.may.seq
      (Rule.starts_token .bracketClose).may)).map _
  have either := (realizes_namedType (bound + 1)).choice (realizes_listType h)
    ((Rule.starts_token .identifier).map _) (fun kind => by simp) startsList (by decide)
  refine (either.congr baseAnnotation_iff).of_eq fun w => ?_
  simp only [Reading.baseType, bind_apply, current_apply, Option.bind_some, ite_apply, fail_apply,
    branch_apply, requireAt_apply, decide_eq_true_eq]

theorem typeTree_nonNull {tree : Tree} {x : TypeExpr} (type : TypeTree tree x)
    (nullable : x.isNonNull = false) (bang : Token) :
    TypeTree (.node .nonNullType [tree, .token bang]) (.nonNull x) := by
  refine ⟨rfl, ?_⟩
  have inner : typeIn? [tree, .token bang] = some x := by
    rw [typeIn?, if_pos type.1, type.2]
  rw [typeOf?_node, if_neg (by decide), if_neg (by decide), if_pos rfl, inner]
  cases x with
  | nonNull x => cases nullable
  | named _ | list _ => rfl

theorem closeType_bang {bang : Token} (isBang : bang.kind = .bang) (rest : List Token)
    (outer built : List Tree) :
    closeType outer ⟨bang :: rest, built⟩ =
      some ((), ⟨rest, outer ++ [.node .nonNullType (built ++ [.token bang])]⟩) := by
  simp [closeType, isBang, Reading.closeNode]

theorem closeType_plain {u : View} (other : headKind u.tokens ≠ .bang) (outer : List Tree) :
    closeType outer u = some ((), ⟨u.tokens, outer ++ u.built⟩) := by
  simp [closeType, other, Reading.closePlain]

theorem sound_typeExpr {bound : Nat}
    (base : Realizes (bound + 1) (Reading.baseType (Reading.typeExpr bound)) baseAnnotation typeBuilt [])
    {v : List Token} {b : List Tree} {w : View} (few : v.length < bound + 1)
    (run : Reading.typeExpr (bound + 1) ⟨v, b⟩ = some ((), w)) :
    ∃ x trees, Rule.typeAnnotation v x w.tokens ∧ w.built = b ++ trees ∧ typeBuilt trees x := by
  obtain ⟨⟨⟨⟩, u⟩, inside, closed⟩ := Option.bind_eq_some_iff.1 run
  obtain ⟨x, _, ⟨applies, nullable⟩, grown, tree, rfl, type⟩ := base.sound few inside
  obtain ⟨tokens, built⟩ := u
  by_cases bangs : headKind tokens = .bang
  · cases tokens with
    | nil => cases bangs
    | cons bang rest =>
      cases (closeType_bang bangs rest b built).symm.trans closed
      cases grown
      exact ⟨.nonNull x, _, .nonNull applies bangs nullable, rfl, _, rfl, typeTree_nonNull type nullable bang⟩
  · cases (closeType_plain (u := ⟨tokens, built⟩) bangs b).symm.trans closed
    cases grown
    exact ⟨x, [tree], applies, rfl, tree, rfl, type⟩

theorem complete_typeExpr {bound : Nat}
    (base : Realizes (bound + 1) (Reading.baseType (Reading.typeExpr bound)) baseAnnotation typeBuilt [])
    {v v' : List Token} {b : List Tree} {x : TypeExpr} (few : v.length < bound + 1)
    (applies : Rule.typeAnnotation v x v') (free : headKind v' ∉ [SyntaxKind.bang]) :
    ∃ trees, Reading.typeExpr (bound + 1) ⟨v, b⟩ = some ((), ⟨v', b ++ trees⟩) ∧ typeBuilt trees x := by
  have start : Reading.typeExpr (bound + 1) ⟨v, b⟩ =
      (Reading.baseType (Reading.typeExpr bound) ⟨v, []⟩).bind fun next => closeType b next.2 := rfl
  cases nullable : x.isNonNull with
  | false =>
    obtain ⟨_, run, tree, rfl, type⟩ := base.complete (b := []) few ⟨applies, nullable⟩ List.not_mem_nil
    refine ⟨[tree], ?_, tree, rfl, type⟩
    rw [start, run]
    exact closeType_plain (u := ⟨v', [tree]⟩) (fun bang => free (List.mem_singleton.2 bang)) b
  | true =>
    cases applies with
    | named _ | list _ _ _ => cases nullable
    | @nonNull bang _ _ inner applies isBang once =>
      obtain ⟨_, run, tree, rfl, type⟩ := base.complete (b := []) few ⟨applies, once⟩ List.not_mem_nil
      refine ⟨[.node .nonNullType [tree, .token bang]], ?_, _, rfl, typeTree_nonNull type once bang⟩
      rw [start, run]
      exact closeType_bang isBang v' b [tree]

theorem realizes_typeExpr : ∀ bound, Realizes bound
    (requireAt TokenSet.typeFirst.contains (Reading.typeExpr bound)) Rule.typeAnnotation typeBuilt [.bang]
  | 0 => ⟨fun few => absurd few (Nat.not_lt_zero _), fun few => absurd few (Nat.not_lt_zero _)⟩
  | bound + 1 => by
    have base := realizes_baseType (realizes_typeExpr bound)
    have type : Realizes (bound + 1) (Reading.typeExpr (bound + 1)) Rule.typeAnnotation typeBuilt [.bang] :=
      ⟨sound_typeExpr base, complete_typeExpr base⟩
    exact type.require starts_type fun kind => List.contains_iff_mem

/-! ## Values -/

/-- The kinds of tokens that are values on their own. -/
def literalFirst : List SyntaxKind := [.stringValue, .blockStringValue, .intValue, .floatValue, .identifier]

theorem starts_variableUse : Rule.variableUse.Starts [.dollar] :=
  ((Rule.starts_token .dollar).seq (Rule.starts_token .identifier).may).map _

theorem isSome_literalValue? {t : Token} :
    (Rule.literalValue? t).isSome = true ↔ t.kind ∈ literalFirst := by
  rw [Rule.literalValue?]
  cases t.kind <;> simp [literalFirst]

theorem starts_literal : (Rule.single Rule.literalValue?).Starts literalFirst :=
  Rule.starts_single fun t v means => isSome_literalValue?.1 (by rw [means]; rfl)

mutual
theorem length_value : ∀ {v x v'}, Rule.value v x v' → v'.length < v.length
  | _, _, _, .reference applies => (starts_variableUse applies).2
  | _, _, _, .literal applies => (starts_literal applies).2
  | _, _, _, .list _ inner => Nat.lt_succ_of_lt (length_valueItems inner)
  | _, _, _, .object _ inner => Nat.lt_succ_of_lt (length_valueEntries inner)
theorem length_valueItems : ∀ {v xs v'}, Rule.items Rule.value .bracketClose v xs v' → v'.length < v.length
  | _, _, _, .close _ => Nat.lt_succ_self _
  | _, _, _, .comma _ more => Nat.lt_succ_of_lt (length_valueItems more)
  | _, _, _, .item here more => (length_valueItems more).trans (length_value here)
theorem length_valueEntries : ∀ {v fields v'}, Rule.items (Rule.entry Rule.value) .braceClose v fields v' →
    v'.length < v.length
  | _, _, _, .close _ => Nat.lt_succ_self _
  | _, _, _, .comma _ more => Nat.lt_succ_of_lt (length_valueEntries more)
  | _, _, _, .item here more => (length_valueEntries more).trans (length_valueEntry here)
theorem length_valueEntry : ∀ {v field v'}, Rule.entry Rule.value v field v' → v'.length < v.length
  | _, _, _, .intro _ _ here => Nat.lt_succ_of_lt (Nat.lt_succ_of_lt (length_value here))
end

theorem starts_value : Rule.Starts Rule.value TokenSet.valueFirst.kinds := by
  intro v x v' applies
  refine ⟨?_, length_value applies⟩
  cases applies with
  | reference applies =>
    have dollar := (starts_variableUse applies).1
    simp_all [TokenSet.valueFirst]
  | literal applies =>
    have literal := (starts_literal applies).1
    simp only [literalFirst, TokenSet.valueFirst, List.mem_cons, List.not_mem_nil, or_false] at literal ⊢
    tauto
  | list opening _ => simp [TokenSet.valueFirst, opening]
  | object opening _ => simp [TokenSet.valueFirst, opening]

theorem starts_entry : Rule.Starts (Rule.entry Rule.value) [.identifier] := by
  intro v x v' applies
  refine ⟨?_, length_valueEntry applies⟩
  cases applies with
  | intro named _ _ => exact List.mem_singleton.2 named

/-- The node of `$name`. -/
def variableBuilt : Built Token := fun trees t =>
  ∃ dollar, trees = [.node .variableUse [.token dollar, .token t]] ∧ dollar.kind = .dollar ∧
    t.kind = .identifier

theorem realizes_variableUse (bound : Nat) :
    Realizes bound (requireAt (· = .dollar) Reading.variableUse) Rule.variableUse variableBuilt [] := by
  have named := (Realizes.take bound .identifier (by decide)).after .dollar (by decide)
  refine (((named.opened .variableUse).map _).imp ?_).mono (Nat.le_succ bound)
  rintro _ _ ⟨⟨dollar, t⟩, ⟨_, rfl, _, _, rfl, ⟨rfl, isDollar⟩, ⟨rfl, named⟩⟩, rfl⟩
  exact ⟨dollar, rfl, isDollar, named⟩

theorem realizes_entry {bound : Nat} {m : Reading Unit} (h : Realizes bound m Rule.value valueBuilt [])
    (nodeKind : SyntaxKind) :
    Realizes bound (requireAt (· = .identifier) (Reading.entry nodeKind m)) (Rule.entry Rule.value)
      (entryBuilt nodeKind) [] := by
  have body := ((h.after .colon (by decide)).after .identifier (by decide)).opened nodeKind
  refine (((body.map fun x => (x.1.text, x.2.2)).imp ?_).congr fun v x v' => ?_).mono (by omega)
  · rintro _ _ ⟨⟨key, colon, v⟩, ⟨_, rfl, _, _, rfl, ⟨rfl, named⟩, _, _, rfl, ⟨rfl, -⟩,
      ⟨tree, rfl, value⟩⟩, rfl⟩
    exact ⟨key, colon, tree, rfl, named, rfl, value⟩
  · constructor
    · rintro ⟨⟨key, colon, y⟩, ⟨u, first, u', second, third⟩, rfl⟩
      obtain ⟨rfl, named⟩ := Rule.token_iff.1 first
      obtain ⟨rfl, isColon⟩ := Rule.token_iff.1 second
      exact .intro named isColon third
    · intro applies
      cases applies with
      | @intro key colon _ _ y named isColon third =>
        exact ⟨(key, colon, y), ⟨_, Rule.token_iff.2 ⟨rfl, named⟩, _, Rule.token_iff.2 ⟨rfl, isColon⟩,
          third⟩, rfl⟩

theorem literalValue_cons (t : Token) (rest : List Token) (b : List Tree) :
    literalValue ⟨t :: rest, b⟩ = some ((), ⟨rest, b ++ [.node .literal [.token (literalToken t)]]⟩) := by
  by_cases named : t.kind = .identifier
  · simp only [literalValue, bind_apply, current_apply, Option.bind_some, ite_apply, headKind_cons,
      literalToken, named, reduceIte]
    rfl
  · simp only [literalValue, bind_apply, current_apply, Option.bind_some, ite_apply, headKind_cons,
      literalToken, named, reduceIte]
    rfl

theorem not_isTrivia_literalToken {t : Token} (literal : t.kind ∈ literalFirst) :
    (literalToken t).isTrivia = false := by
  rw [literalToken]
  split
  · exact not_isTrivia_literalKind t.text
  · rw [Token.isTrivia]
    revert literal
    cases t.kind <;> decide

theorem realizes_literal (bound : Nat) :
    Realizes bound (requireAt literalFirst.contains literalValue) (Rule.single Rule.literalValue?)
      valueBuilt [] where
  sound := by
    intro v b w _ run
    rw [requireAt_apply] at run
    obtain ⟨here, taken⟩ := Option.ite_none_right_eq_some.1 run
    cases v with
    | nil => cases here
    | cons t rest =>
      have literal : t.kind ∈ literalFirst := List.contains_iff_mem.1 here
      obtain ⟨x, means⟩ := Option.isSome_iff_exists.1 (isSome_literalValue?.2 literal)
      cases (literalValue_cons t rest b).symm.trans taken
      exact ⟨x, _, ⟨t, rfl, means⟩, rfl, _, rfl, valueTree_literal means (not_isTrivia_literalToken literal)⟩
  complete := by
    rintro v b x v' _ ⟨t, rfl, means⟩ _
    have literal : t.kind ∈ literalFirst := isSome_literalValue?.1 (by rw [means]; rfl)
    refine ⟨_, ?_, _, rfl, valueTree_literal means (not_isTrivia_literalToken literal)⟩
    rw [requireAt_apply, literalValue_cons]
    exact if_pos (List.contains_iff_mem.2 literal)

/-- `$name` as a value. -/
def referenceRule : Rule Value := Rule.variableUse.map (.variable ·.text)

/-- `[value, ...]` -/
def listRule : Rule Value := (Rule.enclosed .bracketOpen .bracketClose Rule.value).map .list

/-- `{ name: value, ... }` -/
def objectRule : Rule Value := (Rule.enclosed .braceOpen .braceClose (Rule.entry Rule.value)).map .object

theorem enclosed_iff {α : Type} {rule : Rule α} {opening close : SyntaxKind} {v v' : List Token}
    {xs : List α} : Rule.enclosed opening close rule v xs v' ↔
      ∃ t u, v = t :: u ∧ t.kind = opening ∧ Rule.items rule close u xs v' := by
  constructor
  · rintro ⟨⟨t, ys⟩, ⟨u, opens, inside⟩, rfl⟩
    obtain ⟨rfl, isOpen⟩ := Rule.token_iff.1 opens
    exact ⟨t, u, rfl, isOpen, inside⟩
  · rintro ⟨t, u, rfl, isOpen, inside⟩
    exact ⟨(t, xs), ⟨u, Rule.token_iff.2 ⟨rfl, isOpen⟩, inside⟩, rfl⟩

theorem value_iff (v : List Token) (x : Value) (v' : List Token) :
    referenceRule v x v' ∨ listRule v x v' ∨ objectRule v x v' ∨
      Rule.single Rule.literalValue? v x v' ↔ Rule.value v x v' := by
  constructor
  · rintro (⟨t, applies, rfl⟩ | ⟨xs, applies, rfl⟩ | ⟨fields, applies, rfl⟩ | applies)
    · exact .reference applies
    · obtain ⟨t, u, rfl, isOpen, inside⟩ := enclosed_iff.1 applies
      exact .list isOpen inside
    · obtain ⟨t, u, rfl, isOpen, inside⟩ := enclosed_iff.1 applies
      exact .object isOpen inside
    · exact .literal applies
  · intro applies
    cases applies with
    | reference applies => exact .inl ⟨_, applies, rfl⟩
    | literal applies => exact .inr (.inr (.inr applies))
    | list isOpen inside => exact .inr (.inl ⟨_, enclosed_iff.2 ⟨_, _, rfl, isOpen, inside⟩, rfl⟩)
    | object isOpen inside => exact .inr (.inr (.inl ⟨_, enclosed_iff.2 ⟨_, _, rfl, isOpen, inside⟩, rfl⟩))

theorem realizes_reference (bound : Nat) :
    Realizes bound (requireAt (· = .dollar) Reading.variableUse) referenceRule valueBuilt [] := by
  refine ((realizes_variableUse bound).map _).imp ?_
  rintro _ _ ⟨t, ⟨dollar, rfl, isDollar, named⟩, rfl⟩
  exact ⟨_, rfl, valueTree_variable isDollar named⟩

theorem realizes_list {bound : Nat} {m : Reading Unit} (h : Realizes bound m Rule.value valueBuilt []) :
    Realizes (bound + 1) (requireAt (· = .bracketOpen) (Reading.listValue m)) listRule valueBuilt [] := by
  have item := h.require starts_value fun kind => List.contains_iff_mem
  have body : Realizes _ (requireAt (· = .bracketOpen) (Reading.listValue m)) _ _ _ :=
    item.enclosed starts_value (fun _ _ => List.not_mem_nil) (by decide) (by decide) (by decide) (by decide)
      (by decide)
  refine (body.map _).imp ?_
  rintro _ _ ⟨xs, ⟨_, rfl, ⟨t, _⟩, ⟨_, _, rfl, ⟨rfl, isOpen⟩, built⟩, rfl⟩, rfl⟩
  exact ⟨_, rfl, valueTree_list built⟩

theorem realizes_object {bound : Nat} {m : Reading Unit} (h : Realizes bound m Rule.value valueBuilt []) :
    Realizes (bound + 1) (requireAt (· = .braceOpen) (Reading.objectValue m)) objectRule valueBuilt [] := by
  have body : Realizes _ (requireAt (· = .braceOpen) (Reading.objectValue m)) _ _ _ :=
    (realizes_entry h .objectField).enclosed starts_entry (fun _ _ => List.not_mem_nil)
      (by decide) (by decide) (by decide) (by decide) (by decide)
  refine (body.map _).imp ?_
  rintro _ _ ⟨xs, ⟨_, rfl, ⟨t, _⟩, ⟨_, _, rfl, ⟨rfl, isOpen⟩, built⟩, rfl⟩, rfl⟩
  exact ⟨_, rfl, valueTree_object built⟩

/-- Only the last branch of a value needs to know that a value may start here. -/
theorem value_succ_apply (bound : Nat) (w : View) :
    Reading.value (bound + 1) w =
      branch (· = .dollar) Reading.variableUse
        (branch (· = .bracketOpen) (Reading.listValue (Reading.value bound))
          (branch (· = .braceOpen) (Reading.objectValue (Reading.value bound))
            (requireAt literalFirst.contains literalValue))) w := by
  simp only [Reading.value, Reading.valueBody, branch_apply, requireAt_apply]
  cases headKind w.tokens <;> rfl

theorem realizes_value : ∀ bound, Realizes bound (Reading.value bound) Rule.value valueBuilt []
  | 0 => ⟨fun few => absurd few (Nat.not_lt_zero _), fun few => absurd few (Nat.not_lt_zero _)⟩
  | bound + 1 => by
    have inner := realizes_value bound
    have startsReference : referenceRule.Starts [.dollar] := starts_variableUse.map _
    have startsList : listRule.Starts [.bracketOpen] := (starts_value.enclosed _ _).map _
    have startsObject : objectRule.Starts [.braceOpen] := (starts_entry.enclosed _ _).map _
    have object := (realizes_object inner).choice (realizes_literal (bound + 1)) startsObject
      (fun kind => by simp) starts_literal (by decide)
    have list := (realizes_list inner).choice object startsList (fun kind => by simp)
      (startsObject.or starts_literal) (by decide)
    have reference := (realizes_reference (bound + 1)).choice list startsReference (fun kind => by simp)
      (startsList.or (startsObject.or starts_literal)) (by decide)
    exact (reference.congr value_iff).of_eq (value_succ_apply bound)

/-! ## Arguments and directives -/

/-- A list that may be missing. -/
theorem Realizes.list? {α : Type} {bound : Nat} {m : Reading Unit} {rule : Rule α} {built : Built α}
    {stops first : List SyntaxKind} {isItem isStop : SyntaxKind → Bool} {itemKind close : SyntaxKind}
    (h : Realizes bound (requireAt isItem m) rule (built.node itemKind) stops) (starts : rule.Starts first)
    (apart : ∀ kind ∈ close :: .comma :: first, kind ∉ stops) (different : close ≠ .comma)
    (closes : close ∉ first) (commas : .comma ∉ first) (real : close ≠ .error) (opening kind : SyntaxKind)
    (opens : opening ≠ .error) :
    Realizes bound (whenAt (· = opening) (Reading.enclosed kind close isItem isStop m))
      (Rule.map (·.getD []) (Rule.optional (Rule.enclosed opening close rule)))
      (built.list? kind itemKind) [opening] := by
  have list : Realizes _ (requireAt (· = opening) (Reading.enclosed kind close isItem isStop m)) _ _ _ :=
    h.enclosed starts apart different closes commas opens real
  have missing := (list.optional (starts.enclosed _ _) fun kind => by simp).map (·.getD [])
  refine (missing.imp ?_).mono (Nat.le_succ bound)
  rintro trees _ ⟨xs, built, rfl⟩
  exact Built.list?_of_optional built

theorem starts_arguments : Rule.arguments.MayStart [.parenOpen] :=
  ((starts_entry.map _).enclosed _ _).optional.map _

theorem realizes_arguments (bound : Nat) :
    Realizes bound (whenAt (· = .parenOpen) (Reading.arguments bound)) Rule.arguments
      (Built.list? .arguments .argument ArgumentNode) [.parenOpen] := by
  have argument : Realizes bound
      (requireAt (· = .identifier) (Reading.entry .argument (Reading.value bound))) Rule.argument
      (Built.node .argument ArgumentNode) [] := by
    refine ((realizes_entry (realizes_value bound) .argument).map _).imp ?_
    rintro _ _ ⟨⟨_, v⟩, ⟨key, colon, tree, rfl, named, rfl, value⟩, rfl⟩
    exact ⟨_, rfl, key, colon, tree, v, rfl, named, value, rfl⟩
  exact argument.list? (starts_entry.map _) (fun _ _ => List.not_mem_nil) (by decide) (by decide) (by decide)
    (by decide) .parenOpen .arguments (by decide)

theorem starts_name : Rule.name.Starts [.identifier] := (Rule.starts_token .identifier).map _

/-- An identifier that is a name. -/
def nameBuilt : Built Name := (Built.token .identifier).map (.plain ·.text)

theorem realizes_name (bound : Nat) : Realizes bound (Reading.take .identifier) Rule.name nameBuilt [] :=
  (Realizes.take bound .identifier (by decide)).map _

theorem starts_directive : Rule.directive.Starts [.atSign] :=
  ((Rule.starts_token .atSign).seq (starts_name.may.seq starts_arguments)).map _

theorem realizes_directive (bound : Nat) :
    Realizes bound (requireAt (· = .atSign) (Reading.directive bound)) Rule.directive
      (Built.node .directive DirectiveNode) [.parenOpen] := by
  have named := (realizes_name bound).seq_may (realizes_arguments bound) starts_name.may starts_arguments
    fun _ _ => List.not_mem_nil
  refine ((((named.after .atSign (by decide)).opened .directive).map _).imp ?_).mono (Nat.le_succ bound)
  rintro _ _ ⟨⟨sign, _, arguments⟩, ⟨_, rfl, _, _, rfl, ⟨rfl, isSign⟩, _, _, rfl, ⟨t, ⟨rfl, named⟩, rfl⟩,
    list, rfl, listed⟩, rfl⟩
  exact ⟨_, rfl, sign, t, list, arguments, rfl, isSign, named, listed, rfl⟩

theorem realizes_directives (bound : Nat) :
    Realizes bound (Reading.directives bound) (Rule.many Rule.directive)
      (Built.nodes .directive DirectiveNode) [.atSign, .parenOpen] :=
  ((realizes_directive bound).many starts_directive (fun kind => by simp) (by decide)).imp
    fun _ _ => Built.nodes_of_many

/-! ## Selections -/

theorem label_colon {t colon : Token} (isColon : colon.kind = .colon) (rest : List Token) (b : List Tree) :
    Reading.label ⟨t :: colon :: rest, b⟩ =
      some ((), ⟨rest, b ++ [.node .aliasLabel [.token t, .token colon]]⟩) := by
  simp [Reading.label, Reading.nextIs, isColon, Reading.node, Reading.opened, Reading.closeNode]

theorem label_other {t : Token} {rest : List Token} (other : headKind rest ≠ .colon) (b : List Tree) :
    Reading.label ⟨t :: rest, b⟩ = some ((), ⟨t :: rest, b⟩) := by
  cases rest with
  | nil => rfl
  | cons u rest =>
    have different : u.kind ≠ .colon := other
    simp [Reading.label, Reading.nextIs, different]

theorem label_iff {v v' : List Token} {name : Name} :
    Rule.label v name v' ↔ ∃ t colon, v = t :: colon :: v' ∧ t.kind = .identifier ∧ colon.kind = .colon ∧
      name = .plain t.text := by
  constructor
  · rintro ⟨⟨_, colon⟩, ⟨_, ⟨t, first, rfl⟩, second⟩, rfl⟩
    obtain ⟨rfl, named⟩ := Rule.token_iff.1 first
    obtain ⟨rfl, isColon⟩ := Rule.token_iff.1 second
    exact ⟨t, colon, rfl, named, isColon, rfl⟩
  · rintro ⟨t, colon, rfl, named, isColon, rfl⟩
    exact ⟨(_, colon), ⟨_, ⟨t, Rule.token_iff.2 ⟨rfl, named⟩, rfl⟩, Rule.token_iff.2 ⟨rfl, isColon⟩⟩, rfl⟩

theorem node?_label {t : Token} (named : t.kind = .identifier) (colon : Token) :
    Built.node? .aliasLabel LabelNode [.node .aliasLabel [.token t, .token colon]] (some (.plain t.text)) :=
  ⟨some [.token t, .token colon], rfl, .cons ⟨t, colon, rfl, named, rfl⟩ .nil⟩

/-- A label is told from the name after it by the token that follows. -/
theorem realizes_labelled {α : Type} {bound : Nat} {m : Reading Unit} {rule : Rule α}
    {built : Built (Name × α)} {stops first : List SyntaxKind}
    (h : Realizes bound (Reading.take .identifier >>= fun _ => m) (Rule.name.seq rule) built stops)
    (starts : rule.MayStart first) (apart : .colon ∉ first) :
    Realizes bound
      (requireAt (· = .identifier) (Reading.label >>= fun _ => Reading.take .identifier >>= fun _ => m))
      (Rule.seq (Rule.optional Rule.label) (Rule.name.seq rule))
      ((Built.node? .aliasLabel LabelNode).seq built) (.colon :: stops) where
  sound := by
    intro v b w few run
    rw [requireAt_apply] at run
    obtain ⟨here, labelled⟩ := Option.ite_none_right_eq_some.1 run
    cases v with
    | nil => cases here
    | cons t rest =>
      have named : t.kind = .identifier := of_decide_eq_true here
      rw [bind_apply] at labelled
      by_cases colons : headKind rest = .colon
      · cases rest with
        | nil => cases colons
        | cons colon rest =>
          rw [label_colon colons, Option.bind_some] at labelled
          rw [List.length_cons, List.length_cons] at few
          obtain ⟨x, trees, applies, grown, builds⟩ := h.sound (by omega) labelled
          refine ⟨(some (.plain t.text), x), [_] ++ trees, ⟨rest, .some ?_, applies⟩, ?_, [_], trees, rfl,
            node?_label named colon, builds⟩
          · exact label_iff.2 ⟨t, colon, rfl, named, colons, rfl⟩
          · rw [grown, List.append_assoc]
      · rw [label_other colons, Option.bind_some] at labelled
        obtain ⟨x, trees, applies, grown, builds⟩ := h.sound few labelled
        exact ⟨(none, x), trees, ⟨_, .none, applies⟩, grown, [], trees, rfl, ⟨none, rfl, .nil⟩, builds⟩
  complete := by
    rintro v b ⟨l, x⟩ v' few ⟨u, labelled, applies⟩ free
    rw [List.mem_cons, not_or] at free
    cases labelled with
    | none =>
      obtain ⟨trees, run, builds⟩ := h.complete (b := b) few applies free.2
      obtain ⟨rest, ⟨t, applies, -⟩, more⟩ := applies
      obtain ⟨rfl, named⟩ := Rule.token_iff.1 applies
      have other : headKind rest ≠ .colon := by
        rcases starts more with rfl | ⟨begins, -⟩
        · exact free.1
        · exact fun same => apart (same ▸ begins)
      refine ⟨trees, ?_, [], trees, rfl, ⟨none, rfl, .nil⟩, builds⟩
      rw [requireAt_apply, bind_apply, label_other other]
      exact (if_pos (decide_eq_true named)).trans run
    | some labelled =>
      obtain ⟨t, colon, rfl, named, isColon, rfl⟩ := label_iff.1 labelled
      rw [List.length_cons, List.length_cons] at few
      obtain ⟨trees, run, builds⟩ :=
        h.complete (b := b ++ [.node .aliasLabel [.token t, .token colon]]) (by omega) applies free.2
      refine ⟨[_] ++ trees, ?_, [_], trees, rfl, node?_label named colon, builds⟩
      rw [requireAt_apply, bind_apply, label_colon isColon, ← List.append_assoc]
      exact (if_pos (decide_eq_true named)).trans run

theorem starts_label : Rule.label.Starts [.identifier] :=
  (starts_name.seq (Rule.starts_token .colon).may).map _

theorem starts_selectionHead : Rule.selectionHead.Starts [.identifier] := by
  have named := starts_name.seq (starts_arguments.seq starts_directive.many)
  refine Rule.Starts.map (fun tokens x rest applies => ?_) _
  obtain ⟨begins, fewer⟩ := starts_label.optional.seq_starts named applies
  exact ⟨by simpa using begins, fewer⟩

mutual
theorem length_selection : ∀ {v s v'}, Rule.selection v s v' → v'.length < v.length
  | _, _, _, .leaf head => (starts_selectionHead head).2
  | _, _, _, .nested head _ inner =>
    (length_selectionItems inner).trans (Nat.lt_of_succ_lt (starts_selectionHead head).2)
theorem length_selectionItems : ∀ {v ss v'}, Rule.items Rule.selection .braceClose v ss v' →
    v'.length < v.length
  | _, _, _, .close _ => Nat.lt_succ_self _
  | _, _, _, .comma _ more => Nat.lt_succ_of_lt (length_selectionItems more)
  | _, _, _, .item here more => (length_selectionItems more).trans (length_selection here)
end

theorem starts_selection : Rule.Starts Rule.selection [.identifier] := by
  intro v s v' applies
  refine ⟨?_, length_selection applies⟩
  cases applies with
  | leaf head => exact (starts_selectionHead head).1
  | nested head _ _ => exact (starts_selectionHead head).1

theorem starts_selectionSet : Rule.selectionSet.Starts [.braceOpen] := starts_selection.enclosed _ _

/-- A selection as its parts in a row. -/
def selectionParts : Rule Selection :=
  Rule.map (fun (label, name, arguments, directives, set) =>
      ⟨label, name, arguments, directives, set, .empty 0⟩)
    (Rule.seq (Rule.optional Rule.label) (Rule.seq Rule.name (Rule.seq Rule.arguments
      (Rule.seq (Rule.many Rule.directive) (Rule.optional Rule.selectionSet)))))

theorem selection_iff (v : List Token) (s : Selection) (v' : List Token) :
    selectionParts v s v' ↔ Rule.selection v s v' := by
  constructor
  · rintro ⟨⟨label, name, arguments, directives, set⟩,
      ⟨v₁, labelled, v₂, named, v₃, listed, v₄, directed, nested⟩, rfl⟩
    have head : Rule.selectionHead v ⟨label, name, arguments, directives, none, .empty 0⟩ v₄ :=
      ⟨(label, name, arguments, directives), ⟨v₁, labelled, v₂, named, v₃, listed, directed⟩, rfl⟩
    cases nested with
    | none => exact .leaf head
    | some inside =>
      obtain ⟨t, u, rfl, isOpen, inner⟩ := enclosed_iff.1 inside
      exact .nested head isOpen inner
  · intro applies
    cases applies with
    | leaf head =>
      obtain ⟨⟨label, name, arguments, directives⟩, ⟨v₁, labelled, v₂, named, v₃, listed, directed⟩, rfl⟩ :=
        head
      exact ⟨(label, name, arguments, directives, none),
        ⟨v₁, labelled, v₂, named, v₃, listed, v', directed, .none⟩, rfl⟩
    | @nested t _ inner _ _ selections head isOpen inside =>
      obtain ⟨⟨label, name, arguments, directives⟩, ⟨v₁, labelled, v₂, named, v₃, listed, directed⟩, rfl⟩ :=
        head
      exact ⟨(label, name, arguments, directives, some selections),
        ⟨v₁, labelled, v₂, named, v₃, listed, t :: inner, directed,
          .some (enclosed_iff.2 ⟨t, inner, rfl, isOpen, inside⟩)⟩, rfl⟩

/-- The kinds of tokens that would go on with a selection. -/
def selectionStops : List SyntaxKind := [.colon, .parenOpen, .atSign, .parenOpen, .braceOpen]

theorem realizes_selection {inner bound : Nat} (le : inner ≤ bound) {set : Reading Unit}
    (h : Realizes inner (requireAt (· = .braceOpen) set) Rule.selectionSet
      (Built.node .selectionSet SelectionSetNode) []) :
    Realizes inner (requireAt (· = .identifier) (Reading.selection bound set)) Rule.selection
      (Built.node .selection SelectionNode) selectionStops := by
  have nested := (h.optional starts_selectionSet fun kind => by simp).imp fun _ _ => Built.node?_of_optional
  have directed := ((realizes_directives bound).mono le).seq_may nested starts_directive.many
    starts_selectionSet.optional (by decide)
  have startsDirected := starts_directive.many.seq starts_selectionSet.optional
  have listed := ((realizes_arguments bound).mono le).seq_may directed starts_arguments startsDirected
    (by decide)
  have startsListed := starts_arguments.seq startsDirected
  have named := (realizes_name inner).seq_may listed starts_name.may startsListed fun _ _ => List.not_mem_nil
  have labelled := (realizes_labelled named startsListed (by decide)).node .selection
  refine (((labelled.outside).map _).imp ?_).congr selection_iff
  rintro _ _ ⟨⟨label, _, arguments, directives, set⟩, ⟨_, rfl, _, _, rfl, ⟨inner, rfl, labels⟩, _, _, rfl,
    ⟨t, ⟨rfl, named⟩, rfl⟩, _, _, rfl, ⟨list, rfl, lists⟩, _, _, rfl, ⟨dirs, rfl, directs⟩, sets, rfl, nests⟩,
    rfl⟩
  exact ⟨_, rfl, selectionNode_of_parts rfl named rfl rfl labels lists directs nests⟩

theorem realizes_selectionSet : ∀ bound, Realizes bound
    (requireAt (· = .braceOpen) (Reading.selectionSet bound)) Rule.selectionSet
    (Built.node .selectionSet SelectionSetNode) []
  | 0 => ⟨fun few => absurd few (Nat.not_lt_zero _), fun few => absurd few (Nat.not_lt_zero _)⟩
  | bound + 1 => by
    have item := realizes_selection (Nat.le_succ bound) (realizes_selectionSet bound)
    have set : Realizes _ (requireAt (· = .braceOpen) (Reading.selectionSet (bound + 1))) _ _ _ :=
      item.enclosed starts_selection (by decide) (by decide) (by decide) (by decide) (by decide) (by decide)
    refine set.imp fun trees ss built => ?_
    obtain ⟨inner, rfl, holds⟩ := Built.forall₂_of_enclosed built
    exact ⟨inner, rfl, selectionSetNode_of_items holds⟩

end IsoLiteral.Parser
