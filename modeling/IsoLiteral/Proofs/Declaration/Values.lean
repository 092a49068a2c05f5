import IsoLiteral.Proofs.Declaration.Reporting
import IsoLiteral.Proofs.Syntax.Realizes

/-!
# What type and value trees mean

The trees that the readings of the grammar build for types and values mean what the rules of the grammar
read. The trivia of such a tree change nothing. A value reports something exactly when an integer in it
does not fit 64 bits.
-/

namespace IsoLiteral.Lowering

open IsoLiteral.Tree (solidOf nodes)

/-! ## Types -/

theorem typeOf?_node (kind : SyntaxKind) (children : List Tree) :
    typeOf? (.node kind children) =
      if kind = .namedType then (Tree.tokenOfKind? .identifier children).map (.named ·.text)
      else if kind = .listType then (typeIn? children).map .list
      else if kind = .nonNullType then (typeIn? children).map .asNonNull
      else none := by
  rw [typeOf?.eq_def]
  cases kind <;> rfl

mutual
theorem typeOf?_solid : ∀ tree : Tree, typeOf? tree.solid = typeOf? tree
  | .token t => by rw [Tree.solid]
  | .node kind children => by
    rw [Tree.solid, typeOf?_node, typeOf?_node, Tree.tokenOfKind?_solidOf rfl, typeIn?_solidOf children]
termination_by structural tree => tree
theorem typeIn?_solidOf : ∀ trees : List Tree, typeIn? (solidOf trees) = typeIn? trees
  | [] => by rw [Tree.solidOf]
  | tree :: rest => by
    rw [Tree.solidOf, typeIn?]
    split
    · rename_i trivia
      rw [Tree.isNodeIn_trivia _ trivia, if_neg Bool.false_ne_true, typeIn?_solidOf rest]
    · rw [typeIn?, Tree.isNodeIn_solid, typeOf?_solid tree, typeIn?_solidOf rest]
termination_by structural trees => trees
end

/-- A tree that is a type annotation. -/
def TypeTree (tree : Tree) (expr : TypeExpr) : Prop :=
  tree.isNodeIn typeKinds = true ∧ typeOf? tree = some expr

/-- The tree of a type annotation. -/
def typeBuilt : Built TypeExpr := fun trees expr => ∃ tree, trees = [tree] ∧ TypeTree tree expr

/-! ## Values -/

/-- The value of a literal node. -/
def literalIn (source : Nat) (children : List Tree) : Lower (Option Value) :=
  match (Tree.directTokens children).find? (!·.isTrivia) with
  | some t => literalOf source t
  | none => return none

theorem valueOf_node (source : Nat) (kind : SyntaxKind) (children : List Tree) :
    valueOf source (.node kind children) =
      if kind = .variableUse then return (Tree.tokenOfKind? .identifier children).map (.variable ·.text)
      else if kind = .literal then literalIn source children
      else if kind = .listValue then do return (← itemsOf source children).map .list
      else if kind = .objectValue then do return (← fieldsOf source children).map .object
      else return none := by
  rw [valueOf.eq_def]
  cases kind <;> rfl

theorem literalIn_solidOf (source : Nat) (children : List Tree) :
    literalIn source (solidOf children) = literalIn source children := by
  have same : (Tree.directTokens (solidOf children)).find? (!·.isTrivia) =
      (Tree.directTokens children).find? (!·.isTrivia) := by
    rw [Tree.directTokens_solidOf]
    exact Tree.find?_filter_solid (fun t trivia => by rw [trivia]; rfl) _
  rw [literalIn, literalIn, same]

/-- The field of an object node, before the fields after it. -/
def fieldThen (source : Nat) (children : List Tree) (rest : Lower (Option (List (String × Value)))) :
    Lower (Option (List (String × Value))) :=
  match Tree.tokenOfKind? .identifier children with
  | some key => do
    match ← valueIn source children with
    | some v => return (← rest).map ((key.text, v) :: ·)
    | none => return none
  | none => return none

theorem fieldsOf_token (source : Nat) (t : Token) (rest : List Tree) :
    fieldsOf source (.token t :: rest) = fieldsOf source rest := by
  rw [fieldsOf]
  intro children same
  cases same

theorem fieldsOf_node (source : Nat) (kind : SyntaxKind) (children rest : List Tree) :
    fieldsOf source (.node kind children :: rest) =
      if kind = .objectField then fieldThen source children (fieldsOf source rest)
      else fieldsOf source rest := by
  rw [fieldsOf.eq_def]
  cases kind <;> rfl

mutual
theorem valueOf_solid (source : Nat) : ∀ tree : Tree, valueOf source tree.solid = valueOf source tree
  | .token t => by rw [Tree.solid]
  | .node kind children => by
    rw [Tree.solid, valueOf_node, valueOf_node, Tree.tokenOfKind?_solidOf rfl, literalIn_solidOf,
      itemsOf_solidOf source children, fieldsOf_solidOf source children]
termination_by structural tree => tree
theorem itemsOf_solidOf (source : Nat) :
    ∀ trees : List Tree, itemsOf source (solidOf trees) = itemsOf source trees
  | [] => by rw [Tree.solidOf]
  | tree :: rest => by
    rw [Tree.solidOf, itemsOf]
    split
    · rename_i trivia
      rw [Tree.isNodeIn_trivia _ trivia, if_neg Bool.false_ne_true, itemsOf_solidOf source rest]
    · rw [itemsOf, Tree.isNodeIn_solid, valueOf_solid source tree, itemsOf_solidOf source rest]
termination_by structural trees => trees
theorem fieldsOf_solidOf (source : Nat) :
    ∀ trees : List Tree, fieldsOf source (solidOf trees) = fieldsOf source trees
  | [] => by rw [Tree.solidOf]
  | .token t :: rest => by
    rw [Tree.solidOf, fieldsOf_token]
    split
    · exact fieldsOf_solidOf source rest
    · rw [Tree.solid, fieldsOf_token, fieldsOf_solidOf source rest]
  | .node kind children :: rest => by
    rw [Tree.solidOf, if_neg (by simp [Tree.isTrivia]), Tree.solid, fieldsOf_node, fieldsOf_node, fieldThen,
      fieldThen, Tree.tokenOfKind?_solidOf rfl, valueIn_solidOf source children, fieldsOf_solidOf source rest]
termination_by structural trees => trees
theorem valueIn_solidOf (source : Nat) :
    ∀ trees : List Tree, valueIn source (solidOf trees) = valueIn source trees
  | [] => by rw [Tree.solidOf]
  | tree :: rest => by
    rw [Tree.solidOf, valueIn]
    split
    · rename_i trivia
      rw [Tree.isNodeIn_trivia _ trivia, if_neg Bool.false_ne_true, valueIn_solidOf source rest]
    · rw [valueIn, Tree.isNodeIn_solid, valueOf_solid source tree, valueIn_solidOf source rest]
termination_by structural trees => trees
end

/-- A tree that is a value. -/
def ValueTree (tree : Tree) (v : Value) : Prop :=
  tree.isNodeIn valueKinds = true ∧ ∀ source, Yields (valueOf source tree) v.Fits (· = some v)

/-- The tree of a value. -/
def valueBuilt : Built Value := fun trees v => ∃ tree, trees = [tree] ∧ ValueTree tree v

/-- The node of `name: value`. -/
def entryBuilt (kind : SyntaxKind) : Built (String × Value) := fun trees entry =>
  ∃ key colon tree, trees = [.node kind [.token key, .token colon, tree]] ∧ key.kind = .identifier ∧
    key.text = entry.1 ∧ ValueTree tree entry.2

theorem valueTree_variable {dollar t : Token} (sign : dollar.kind = .dollar) (named : t.kind = .identifier) :
    ValueTree (.node .variableUse [.token dollar, .token t]) (.variable t.text) := by
  refine ⟨rfl, fun source => ?_⟩
  have found : Tree.tokenOfKind? .identifier [.token dollar, .token t] = some t := by
    simp [Tree.tokenOfKind?, sign, named]
  rw [valueOf_node, if_pos rfl, found]
  exact yields_pure (by simp [Value.Fits]) rfl

/-- The token that a literal value enters the tree as. -/
def literalToken (t : Token) : Token :=
  if t.kind = .identifier then { t with kind := Parser.literalKind t.text } else t

theorem fitsInt64_iff (i : Int) : fitsInt64 i = true ↔ Value.Fits (.int i) := by
  rw [fitsInt64, Value.Fits, Bool.and_eq_true, decide_eq_true_eq, decide_eq_true_eq]
  omega

theorem fits_wordValue (text : String) : (Rule.wordValue text).Fits := by
  unfold Rule.wordValue
  split_ifs <;> simp [Value.Fits]

theorem literalOf_word (source : Nat) {t : Token} (named : t.kind = .identifier) :
    literalOf source (literalToken t) = return some (Rule.wordValue t.text) := by
  unfold literalToken literalOf Parser.literalKind Rule.wordValue
  rw [if_pos named]
  split_ifs <;> rfl

theorem yields_literalOf (source : Nat) {t : Token} {v : Value} (means : Rule.literalValue? t = some v) :
    Yields (literalOf source (literalToken t)) v.Fits (· = some v) := by
  by_cases named : t.kind = .identifier
  · rw [Rule.literalValue?, named] at means
    cases means
    rw [literalOf_word source named]
    exact yields_pure (fits_wordValue _) rfl
  · rw [literalToken, if_neg named, literalOf]
    unfold Rule.literalValue? at means
    split at means
    · rename_i kind
      cases means
      rw [kind]
      dsimp only
      by_cases fits : fitsInt64 (integerOf t.text) = true
      · rw [if_pos fits]
        exact yields_pure ((fitsInt64_iff _).1 fits) rfl
      · rw [if_neg fits]
        exact yields_report (fun h => fits ((fitsInt64_iff _).2 h)) _ (keeps_pure _)
    · rename_i kind
      cases means
      rw [kind]
      exact yields_pure (by simp [Value.Fits]) rfl
    · rename_i kind
      cases means
      rw [kind]
      exact yields_pure (by simp [Value.Fits]) rfl
    · rename_i kind
      cases means
      rw [kind]
      exact yields_pure (by simp [Value.Fits]) rfl
    · rename_i kind
      exact absurd kind named
    · cases means

theorem valueTree_literal {t : Token} {v : Value} (means : Rule.literalValue? t = some v)
    (solid : (literalToken t).isTrivia = false) :
    ValueTree (.node .literal [.token (literalToken t)]) v := by
  refine ⟨rfl, fun source => ?_⟩
  rw [valueOf_node, if_neg (by decide), if_pos rfl, literalIn, Tree.directTokens_token, List.find?_cons,
    solid]
  exact yields_literalOf source means

theorem itemsOf_token (source : Nat) (t : Token) (rest : List Tree) :
    itemsOf source (.token t :: rest) = itemsOf source rest := by
  rw [itemsOf]
  exact if_neg Bool.false_ne_true

theorem valueIn_token (source : Nat) (t : Token) (rest : List Tree) :
    valueIn source (.token t :: rest) = valueIn source rest := by
  rw [valueIn]
  exact if_neg Bool.false_ne_true

theorem yields_itemsOf (source : Nat) {close : SyntaxKind} {trees : List Tree} {vs : List Value}
    (built : valueBuilt.items close trees vs) :
    Yields (itemsOf source trees) (Value.AllFit vs) (· = some vs) := by
  induction built with
  | close _ =>
    rw [itemsOf_token, itemsOf]
    exact yields_pure (by simp [Value.AllFit]) rfl
  | comma _ _ ih =>
    rw [itemsOf_token]
    exact ih
  | @item left right v vs here _ ih =>
    obtain ⟨tree, rfl, isValue, yields⟩ := here
    rw [List.singleton_append, itemsOf, if_pos isValue, Value.AllFit]
    refine (yields source).bind (fun a => ?_) ?_
    · split
      · exact (reports_itemsOf source right).keeps.bind fun _ => keeps_pure _
      · exact keeps_pure _
    · rintro _ rfl
      exact ih.map fun _ found => by rw [found, Option.map_some]

theorem yields_fieldsOf (source : Nat) {close : SyntaxKind} {trees : List Tree}
    {fields : List (String × Value)} (built : (entryBuilt .objectField).items close trees fields) :
    Yields (fieldsOf source trees) (Value.FieldsFit fields) (· = some fields) := by
  induction built with
  | close _ =>
    rw [fieldsOf_token, fieldsOf]
    exact yields_pure (by simp [Value.FieldsFit]) rfl
  | comma _ _ ih =>
    rw [fieldsOf_token]
    exact ih
  | @item left right entry fields here _ ih =>
    obtain ⟨key, colon, tree, rfl, named, same, isValue, yields⟩ := here
    have found : Tree.tokenOfKind? .identifier [.token key, .token colon, tree] = some key := by
      simp [Tree.tokenOfKind?, named]
    have inner : valueIn source [.token key, .token colon, tree] = valueOf source tree := by
      rw [valueIn_token, valueIn_token, valueIn, if_pos isValue]
    obtain ⟨name, v⟩ := entry
    rw [List.singleton_append, fieldsOf_node, if_pos rfl, fieldThen, found, Value.FieldsFit]
    dsimp only
    rw [inner]
    refine (yields source).bind (fun a => ?_) ?_
    · split
      · exact (reports_fieldsOf source right).keeps.bind fun _ => keeps_pure _
      · exact keeps_pure _
    · rintro _ rfl
      exact ih.map fun _ found => by rw [found, Option.map_some, same]

theorem valueTree_list {opening : Token} {close : SyntaxKind} {trees : List Tree} {vs : List Value}
    (built : valueBuilt.items close trees vs) :
    ValueTree (.node .listValue (.token opening :: trees)) (.list vs) := by
  refine ⟨rfl, fun source => ?_⟩
  rw [valueOf_node, if_neg (by decide), if_neg (by decide), if_pos rfl, itemsOf_token, Value.Fits]
  exact (yields_itemsOf source built).map fun _ found => by rw [found, Option.map_some]

theorem valueTree_object {opening : Token} {close : SyntaxKind} {trees : List Tree}
    {fields : List (String × Value)} (built : (entryBuilt .objectField).items close trees fields) :
    ValueTree (.node .objectValue (.token opening :: trees)) (.object fields) := by
  refine ⟨rfl, fun source => ?_⟩
  rw [valueOf_node, if_neg (by decide), if_neg (by decide), if_neg (by decide), if_pos rfl, fieldsOf_token,
    Value.Fits]
  exact (yields_fieldsOf source built).map fun _ found => by rw [found, Option.map_some]

end IsoLiteral.Lowering
