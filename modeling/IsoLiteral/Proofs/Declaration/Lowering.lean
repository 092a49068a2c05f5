import IsoLiteral.Proofs.Declaration.Values

/-!
# What declaration trees mean

The trees that the readings of the grammar build for arguments, directives, selections, variable definitions
and declarations mean what the rules of the grammar read, up to places. Trees without trivia are enough to
see it, since the trivia of a tree change nothing but places. A part reports something exactly when it is
not well-formed.
-/

namespace IsoLiteral.Lowering

open IsoLiteral.Tree (solidOf nodes)

/-! ## Names that come once -/

/-- The names are distinct, and none of them has been seen. -/
def Fresh (seen : List (String × TextRange)) (names : List String) : Prop :=
  names.Nodup ∧ ∀ name ∈ names, name ∉ seen.map Prod.fst

theorem fresh_nil (names : List String) : Fresh [] names ↔ names.Nodup := by
  simp [Fresh]

theorem lookup_eq_none {seen : List (String × TextRange)} {name : String} :
    seen.lookup name = none ↔ name ∉ seen.map Prod.fst := by
  rw [List.lookup_eq_none_iff]
  simp only [List.mem_map, not_exists, not_and, bne_iff_ne]
  exact forall₂_congr fun _ _ => ne_comm

/-- One name after another: it has not been seen, and from then on it has. -/
theorem fresh_cons (seen : List (String × TextRange)) (name : String) (range : TextRange)
    (names : List String) :
    Fresh seen (name :: names) ↔ seen.lookup name = none ∧ Fresh (seen ++ [(name, range)]) names := by
  rw [lookup_eq_none]
  simp only [Fresh, List.nodup_cons, List.mem_cons, forall_eq_or_imp, List.map_append, List.map_cons,
    List.map_nil, List.mem_append, List.not_mem_nil, or_false, not_or]
  constructor
  · rintro ⟨⟨absent, distinct⟩, new, fresh⟩
    exact ⟨new, distinct, fun n member => ⟨fresh n member, fun same => absent (same ▸ member)⟩⟩
  · rintro ⟨new, distinct, fresh⟩
    exact ⟨⟨fun member => (fresh name member).2 rfl, distinct⟩, new, fun n member => (fresh n member).1⟩

/-! ## Arguments and directives -/

/-- The children of an argument node. -/
def ArgumentNode (inner : List Tree) (a : Argument) : Prop :=
  ∃ key colon tree v, inner = [.token key, .token colon, tree] ∧ key.kind = .identifier ∧
    ValueTree tree v ∧ a = ⟨.plain key.text, .plain v⟩

/-- The children of a directive node. -/
def DirectiveNode (inner : List Tree) (d : Directive) : Prop :=
  ∃ (sign t : Token) (list : Option (List Tree)) (arguments : List Argument),
    inner = .token sign :: .token t :: nodes .arguments list.toList ∧ sign.kind = .atSign ∧
    t.kind = .identifier ∧
    List.Forall₂ ArgumentNode (Tree.nodesOfKind .argument (list.getD [])) arguments ∧
    d = ⟨.plain t.text, arguments, .empty 0⟩

/-- A value among children that are the same as some others up to trivia. -/
theorem yields_placedValue (source : Nat) {tree : Tree} {v : Value} {found : Option Tree}
    (shape : found.map Tree.solid = some tree) (value : ValueTree tree v) :
    Yields (placedValue source found) v.Fits (fun r => ∃ placed, r = some placed ∧ placed.value = v) := by
  obtain ⟨actual, rfl, rfl⟩ := Option.map_eq_some_iff.1 shape
  have yields := value.2 source
  rw [valueOf_solid] at yields
  exact yields.map fun _ same => ⟨⟨v, actual.range⟩, by rw [same, Option.map_some], rfl⟩

theorem yields_argumentsOf (source : Nat) {actuals : List (List Tree)} {xs : List Argument}
    (shape : List.Forall₂ (fun actual => ArgumentNode (solidOf actual)) actuals xs) :
    ∀ seen, Yields (argumentsOf source seen actuals)
      (Fresh seen (xs.map (·.name.text)) ∧ ∀ a ∈ xs, a.value.value.Fits) (·.map Argument.bare = xs) := by
  induction shape with
  | nil => exact fun seen => yields_pure (by simp [Fresh]) rfl
  | @cons actual x actuals xs here _ ih =>
    intro seen
    obtain ⟨key, colon, tree, v, inner, named, value, rfl⟩ := here
    have found : Tree.tokenOfKind? .identifier actual = some key := by
      rw [← Tree.tokenOfKind?_solidOf rfl, inner]
      simp [Tree.tokenOfKind?, named]
    have valued : (actual.find? (·.isNodeIn valueKinds)).map Tree.solid = some tree := by
      rw [← Tree.find?_solidOf (fun _ => Tree.isNodeIn_solid _ _) fun _ => Tree.isNodeIn_trivia _, inner]
      exact List.find?_eq_some_iff_append.2 ⟨value.1, [.token key, .token colon], [], rfl,
        by simp [Tree.isNodeIn, Tree.nodeKind?]⟩
    rw [argumentsOf, found]
    dsimp only
    refine ((yields_placedValue source valued value).bind (e := seen.lookup key.text = none ∧
      Fresh (seen ++ [(key.text, key.range)]) (xs.map (·.name.text)) ∧ ∀ a ∈ xs, a.value.value.Fits)
      (fun r => ?_) ?_).congr ?_
    · split
      · exact (reports_argumentsOf source seen actuals).keeps
      · split
        · exact (keeps_report _).bind fun _ => (reports_argumentsOf source seen actuals).keeps
        · exact (reports_argumentsOf source _ actuals).keeps.bind fun _ => keeps_pure _
    · rintro _ ⟨placed, rfl, same⟩
      dsimp only
      split
      · rename_i first again
        exact yields_report (by simp [again]) _ (reports_argumentsOf source seen actuals).keeps
      · rename_i new
        refine ((ih _).map fun rest same' => ?_).congr (by simp [new])
        rw [List.map_cons, same', Argument.bare, same]
        rfl
    · rw [List.map_cons, fresh_cons seen _ key.range, List.forall_mem_cons]
      tauto

/-- Nodes of one kind among children, and the same nodes with their trivia. -/
theorem forall₂_nodesOfKind {α : Type} {node : List Tree → α → Prop} {kind : SyntaxKind}
    {actual : List Tree} {xs : List α}
    (shape : List.Forall₂ node (Tree.nodesOfKind kind (solidOf actual)) xs) :
    List.Forall₂ (fun inner => node (solidOf inner)) (Tree.nodesOfKind kind actual) xs := by
  rw [Tree.nodesOfKind_solidOf] at shape
  exact List.forall₂_map_left_iff.1 shape

/-- The only node of a kind among children, if there is one. -/
theorem nodeOfKind?_of_solid {kind : SyntaxKind} {actual : List Tree} {inner : Option (List Tree)}
    (shape : Tree.nodesOfKind kind (solidOf actual) = inner.toList) :
    (Tree.nodeOfKind? kind actual).map solidOf = inner := by
  rw [← Tree.nodeOfKind?_solidOf, Tree.nodeOfKind?_eq_head?, shape]
  exact Option.head?_toList

theorem yields_argumentsIn (source : Nat) {actual : List Tree} {list : Option (List Tree)}
    {xs : List Argument} (shape : Tree.nodesOfKind .arguments (solidOf actual) = list.toList)
    (inner : List.Forall₂ ArgumentNode (Tree.nodesOfKind .argument (list.getD [])) xs) :
    Yields (argumentsIn source actual) (Argument.WellFormed xs) (·.map Argument.bare = xs) := by
  have found := nodeOfKind?_of_solid shape
  rw [argumentsIn]
  split
  · rename_i children here
    rw [here, Option.map_some] at found
    subst found
    refine (yields_argumentsOf source (forall₂_nodesOfKind inner) []).congr ?_
    rw [fresh_nil, Argument.WellFormed]
  · rename_i absent
    rw [absent, Option.map_none] at found
    subst found
    cases inner
    exact yields_pure (by simp [Argument.WellFormed]) rfl

theorem yields_directivesOf (source : Nat) {actuals : List (List Tree)} {ds : List Directive}
    (shape : List.Forall₂ (fun actual => DirectiveNode (solidOf actual)) actuals ds) :
    Yields (directivesOf source actuals) (Directive.WellFormed ds) (·.map Directive.bare = ds) := by
  induction shape with
  | nil => exact yields_pure (by simp [Directive.WellFormed]) rfl
  | @cons actual d actuals ds here _ ih =>
    obtain ⟨sign, t, list, arguments, inner, isSign, named, listed, rfl⟩ := here
    have found : Tree.tokenOfKind? .identifier actual = some t := by
      rw [← Tree.tokenOfKind?_solidOf rfl, inner]
      simp [Tree.tokenOfKind?, isSign, named]
    have lists : Tree.nodesOfKind .arguments (solidOf actual) = list.toList := by
      rw [inner]
      simp
    rw [directivesOf, found]
    dsimp only
    refine ((yields_argumentsIn source lists listed).bind (e := Directive.WellFormed ds)
      (fun _ => (reports_directivesOf source actuals).keeps.bind fun _ => keeps_pure _) ?_).congr ?_
    · rintro args same
      refine ih.map fun rest same' => ?_
      rw [List.map_cons, same', Directive.bare, same]
      rfl
    · rw [Directive.WellFormed, Directive.WellFormed, List.forall_mem_cons]

theorem yields_directivesIn (source : Nat) {actual : List Tree} {ds : List Directive}
    (shape : List.Forall₂ DirectiveNode (Tree.nodesOfKind .directive (solidOf actual)) ds) :
    Yields (directivesIn source actual) (Directive.WellFormed ds) (·.map Directive.bare = ds) :=
  yields_directivesOf source (forall₂_nodesOfKind shape)

/-! ## Selections -/

/-- The children of a label node. -/
def LabelNode (inner : List Tree) (name : Name) : Prop :=
  ∃ t colon, inner = [.token t, .token colon] ∧ t.kind = .identifier ∧ name = .plain t.text

/-- The children of a selection node. -/
def SelectionNode (inner : List Tree) (s : Selection) : Prop :=
  ∀ source actual, solidOf actual = inner →
    Yields (selectionOf source (.node .selection actual)) s.WellFormed fun r => r.map Selection.bare = some s

/-- The children of a selection set node. -/
def SelectionSetNode (inner : List Tree) (selections : List Selection) : Prop :=
  ∀ source actual, solidOf actual = inner →
    Yields (selectionsOf source [] actual) (Selection.SetWellFormed (some selections))
      (Selection.bareAll · = selections)

theorem selectionOf_node (source : Nat) (kind : SyntaxKind) (children : List Tree)
    (other : kind ≠ .selection) : selectionOf source (.node kind children) = return none := by
  rw [selectionOf.eq_def]
  split
  · rename_i same
    cases same
    exact absurd rfl other
  · rfl

theorem selectionsOf_skip (source : Nat) (seen : List (String × TextRange)) {tree : Tree} (rest : List Tree)
    (none : selectionOf source tree = return none) :
    selectionsOf source seen (tree :: rest) = selectionsOf source seen rest := by
  rw [selectionsOf, none]
  rfl

/-- Only the selection nodes among the children of a selection set matter. -/
theorem selectionsOf_nodes (source : Nat) (seen : List (String × TextRange)) (children : List Tree) :
    selectionsOf source seen (nodes .selection (Tree.nodesOfKind .selection children)) =
      selectionsOf source seen children := by
  induction children generalizing seen with
  | nil => rfl
  | cons tree rest ih =>
    cases tree with
    | token t =>
      rw [Tree.nodesOfKind_token, ih, selectionsOf_skip]
      rw [selectionOf]
      intro inner same
      cases same
    | node kind inner =>
      rw [Tree.nodesOfKind_node]
      split
      · rename_i same
        subst same
        rw [Tree.nodes_cons, selectionsOf, selectionsOf]
        simp only [ih]
      · rename_i other
        rw [ih, selectionsOf_skip source seen rest (selectionOf_node source kind inner other)]

theorem selectionSetIn_eq (source : Nat) (children : List Tree) :
    selectionSetIn source children =
      match Tree.nodeOfKind? .selectionSet children with
      | some inner => do return some (← selectionsOf source [] inner)
      | none => return none := by
  induction children with
  | nil => rw [selectionSetIn]; rfl
  | cons tree rest ih =>
    cases tree with
    | token t =>
      rw [selectionSetIn]
      exact (if_neg Bool.false_ne_true).trans ih
    | node kind inner =>
      by_cases same : kind = .selectionSet
      · subst same
        have isSet : Tree.isNodeIn [.selectionSet] (.node .selectionSet inner) = true := rfl
        rw [selectionSetIn, if_pos isSet, selectionSetOf]
        rfl
      · have next : Tree.nodeOfKind? .selectionSet (.node kind inner :: rest) =
            Tree.nodeOfKind? .selectionSet rest := by
          simp [Tree.nodeOfKind?_eq_head?, same]
        rw [selectionSetIn, if_neg (by simpa [Tree.isNodeIn, Tree.nodeKind?] using same), ih, next]

theorem text_responseName_bare (s : Selection) : s.bare.responseName.text = s.responseName.text := by
  obtain ⟨label, name, arguments, directives, set, range⟩ := s
  cases label <;> rfl

theorem yields_selectionSetIn (source : Nat) {actual : List Tree} {inner : Option (List Tree)}
    {set : Option (List Selection)}
    (shape : Tree.nodesOfKind .selectionSet (solidOf actual) = inner.toList)
    (holds : List.Forall₂ SelectionSetNode inner.toList set.toList) :
    Yields (selectionSetIn source actual) (Selection.SetWellFormed set) (Selection.bareSet · = set) := by
  have found := nodeOfKind?_of_solid shape
  rw [selectionSetIn_eq]
  split
  · rename_i children here
    rw [here, Option.map_some] at found
    subst found
    cases set with
    | none => cases holds
    | some selections =>
      cases holds with
      | cons here _ =>
        exact (here source children rfl).map fun _ same => by rw [Selection.bareSet, same]
  · rename_i absent
    rw [absent, Option.map_none] at found
    subst found
    cases set with
    | none => exact yields_pure (by simp [Selection.SetWellFormed]) (by rw [Selection.bareSet])
    | some selections => cases holds

theorem bare_labelIn? {actual : List Tree} {inner : Option (List Tree)} {label : Option Name}
    (shape : Tree.nodesOfKind .aliasLabel (solidOf actual) = inner.toList)
    (holds : List.Forall₂ LabelNode inner.toList label.toList) :
    (labelIn? actual).map (.plain ·.text) = label := by
  have found := nodeOfKind?_of_solid shape
  rw [labelIn?]
  cases here : Tree.nodeOfKind? .aliasLabel actual with
  | none =>
    rw [here, Option.map_none] at found
    subst found
    cases label with
    | none => rfl
    | some name => cases holds
  | some children =>
    rw [here, Option.map_some] at found
    subst found
    cases label with
    | none => cases holds
    | some name =>
      cases holds with
      | cons here _ =>
        obtain ⟨t, colon, inner, named, rfl⟩ := here
        have named : Tree.tokenOfKind? .identifier children = some t := by
          rw [← Tree.tokenOfKind?_solidOf rfl, inner]
          simp [Tree.tokenOfKind?, named]
        simp [named, nameOf]

/-- The parts of a selection, in the order in which they stand. -/
theorem selectionNode_of_parts {t : Token} {label list set : Option (List Tree)} {dirs : List (List Tree)}
    {s : Selection} {inner : List Tree}
    (shape : inner = nodes .aliasLabel label.toList ++ (.token t :: (nodes .arguments list.toList ++
      (nodes .directive dirs ++ nodes .selectionSet set.toList))))
    (named : t.kind = .identifier) (name : s.name = .plain t.text) (range : s.range = .empty 0)
    (labelled : List.Forall₂ LabelNode label.toList s.label.toList)
    (listed : List.Forall₂ ArgumentNode (Tree.nodesOfKind .argument (list.getD [])) s.arguments)
    (directed : List.Forall₂ DirectiveNode dirs s.directives)
    (nested : List.Forall₂ SelectionSetNode set.toList s.selectionSet.toList) : SelectionNode inner s := by
  rintro source actual rfl
  have found : Tree.tokenOfKind? .identifier actual = some t := by
    rw [← Tree.tokenOfKind?_solidOf rfl, shape]
    simp [Tree.tokenOfKind?, named]
  have labels : Tree.nodesOfKind .aliasLabel (solidOf actual) = label.toList := by
    rw [shape]
    simp
  have lists : Tree.nodesOfKind .arguments (solidOf actual) = list.toList := by
    rw [shape]
    simp
  have directives : Tree.nodesOfKind .directive (solidOf actual) = dirs := by
    rw [shape]
    simp
  have sets : Tree.nodesOfKind .selectionSet (solidOf actual) = set.toList := by
    rw [shape]
    simp
  rw [← directives] at directed
  rw [selectionOf, found]
  dsimp only
  obtain ⟨label', name', arguments, directives', set', range'⟩ := s
  cases name
  cases range
  rw [Selection.WellFormed]
  refine (yields_argumentsIn source lists listed).bind (fun _ => ?_) fun args sameArgs => ?_
  · exact (reports_directivesOf source _).keeps.bind fun _ =>
      (reports_selectionSetIn source actual).keeps.bind fun _ => keeps_pure _
  · refine (yields_directivesIn source directed).bind (fun _ => ?_) fun dirs' sameDirs => ?_
    · exact (reports_selectionSetIn source actual).keeps.bind fun _ => keeps_pure _
    · refine (yields_selectionSetIn source sets nested).map fun set'' sameSet => ?_
      rw [Option.map_some, Selection.bare, bare_labelIn? labels labelled, sameArgs, sameDirs, sameSet]
      rfl

theorem yields_selectionsOf (source : Nat) {actuals : List (List Tree)} {ss : List Selection}
    (shape : List.Forall₂ (fun actual => SelectionNode (solidOf actual)) actuals ss) :
    ∀ seen, Yields (selectionsOf source seen (nodes .selection actuals))
      (Fresh seen (ss.map (·.responseName.text)) ∧ Selection.AllWellFormed ss)
      (Selection.bareAll · = ss) := by
  induction shape with
  | nil =>
    intro seen
    rw [Tree.nodes_nil, selectionsOf]
    exact yields_pure (by simp [Fresh, Selection.AllWellFormed]) (by rw [Selection.bareAll])
  | @cons actual s actuals ss here _ ih =>
    intro seen
    rw [Tree.nodes_cons, selectionsOf]
    have next (lowered : Selection) (seen' : List (String × TextRange)) :
        Keeps (do return lowered :: (← selectionsOf source seen' (nodes .selection actuals))) :=
      (reports_selectionsOf source seen' _).keeps.bind fun _ => keeps_pure _
    refine ((here source actual rfl).bind (e := seen.lookup s.responseName.text = none ∧
      Fresh (seen ++ [(s.responseName.text, s.responseName.range)]) (ss.map (·.responseName.text)) ∧
        Selection.AllWellFormed ss) (fun r => ?_) ?_).congr ?_
    · split
      · exact (reports_selectionsOf source seen _).keeps
      · dsimp only
        split
        · exact (keeps_report _).bind fun _ => (reports_selectionsOf source seen _).keeps
        · exact next _ _
    · intro r same
      obtain ⟨lowered, rfl, rfl⟩ := Option.map_eq_some_iff.1 same
      rw [text_responseName_bare]
      dsimp only
      split
      · rename_i first again
        exact yields_report (by simp [again]) _ (reports_selectionsOf source seen _).keeps
      · rename_i new
        refine ((ih _).map fun rest same' => ?_).congr ?_
        · rw [Selection.bareAll, same']
        · simp [new, Fresh]
    · rw [List.map_cons, fresh_cons seen _ s.responseName.range, Selection.AllWellFormed]
      tauto

theorem selectionSetNode_of_items {inner : List Tree} {ss : List Selection}
    (shape : List.Forall₂ SelectionNode (Tree.nodesOfKind .selection inner) ss) :
    SelectionSetNode inner ss := by
  rintro source actual rfl
  rw [← selectionsOf_nodes]
  refine (yields_selectionsOf source (forall₂_nodesOfKind shape) []).congr ?_
  rw [fresh_nil, Selection.SetWellFormed]

/-! ## Variable definitions -/

/-- What stands for the default of a variable definition, if it has one. -/
def DefaultPart : Built (Option PlacedValue) :=
  Built.optional fun trees placed => ∃ equals tree v, trees = [.token equals, tree] ∧
    equals.kind = .equals ∧ ValueTree tree v ∧ placed = .plain v

/-- The children of a variable definition node. -/
def VariableNode (inner : List Tree) (d : VariableDefinition) : Prop :=
  ∃ dollar t colon type expr trees placed,
    inner = .node .variableUse [.token dollar, .token t] :: .token colon :: type :: trees ∧
    dollar.kind = .dollar ∧ t.kind = .identifier ∧ colon.kind = .colon ∧ TypeTree type expr ∧
    DefaultPart trees placed ∧ d = ⟨.plain t.text, .plain expr, placed⟩

theorem typeRefIn?_of_solid {actual : List Tree} {tree : Tree} {expr : TypeExpr}
    (shape : (solidOf actual).find? (·.isNodeIn typeKinds) = some tree) (type : TypeTree tree expr) :
    ∃ range, typeRefIn? actual = some ⟨expr, range⟩ := by
  rw [Tree.find?_solidOf (fun _ => Tree.isNodeIn_solid _ _) fun _ => Tree.isNodeIn_trivia _] at shape
  obtain ⟨found, here, rfl⟩ := Option.map_eq_some_iff.1 shape
  have annotated := type.2
  rw [typeOf?_solid] at annotated
  exact ⟨found.range, by simp [typeRefIn?, here, annotated]⟩

theorem variableIn?_of_solid {actual rest : List Tree} {dollar t : Token}
    (shape : solidOf actual = .node .variableUse [.token dollar, .token t] :: rest)
    (isDollar : dollar.kind = .dollar) (named : t.kind = .identifier) :
    ∃ range, variableIn? actual = some (t, range) := by
  have found : (Tree.nodeOfKind? .variableUse actual).map solidOf = some [.token dollar, .token t] := by
    rw [← Tree.nodeOfKind?_solidOf, shape, Tree.nodeOfKind?_eq_head?]
    simp
  obtain ⟨inner, here, solid⟩ := Option.map_eq_some_iff.1 found
  have token : Tree.tokenOfKind? .identifier inner = some t := by
    rw [← Tree.tokenOfKind?_solidOf rfl, solid]
    simp [Tree.tokenOfKind?, isDollar, named]
  exact ⟨Tree.rangeOf inner, by simp [variableIn?, here, token]⟩

theorem defaultIn?_solidOf (actual : List Tree) :
    defaultIn? (solidOf actual) = (defaultIn? actual).map Tree.solid := by
  have found : ((solidOf actual).dropWhile (!·.isTokenOf .equals)).find? (·.nodeKind?.isSome) =
      ((actual.dropWhile (!·.isTokenOf .equals)).find? (·.nodeKind?.isSome)).map Tree.solid := by
    rw [Tree.dropWhile_solidOf (fun tree => by rw [Tree.isTokenOf_solid]) fun tree trivia => by
      rw [Tree.isTokenOf_trivia rfl trivia]; rfl]
    exact Tree.find?_solidOf (fun tree => by rw [Tree.nodeKind?_solid]) (fun tree trivia => by
      rw [Tree.nodeKind?_trivia trivia]; rfl) _
  rw [defaultIn?, defaultIn?, found]
  cases (actual.dropWhile (!·.isTokenOf .equals)).find? (·.nodeKind?.isSome) with
  | none => rfl
  | some tree =>
    simp only [Option.map_some, Option.bind_eq_bind, Option.bind_some, Tree.isNodeIn_solid]
    split <;> rfl

theorem yields_default (source : Nat) {actual trees : List Tree} {dollar t colon : Token} {type : Tree}
    {expr : TypeExpr} {placed : Option PlacedValue}
    (shape : solidOf actual = .node .variableUse [.token dollar, .token t] :: .token colon :: type :: trees)
    (isColon : colon.kind = .colon) (isType : TypeTree type expr) (part : DefaultPart trees placed) :
    Yields (placedValue source (defaultIn? actual)) (∀ v ∈ placed, v.value.Fits)
      (·.map (.plain ·.value) = placed) := by
  have dropped : (solidOf actual).dropWhile (!·.isTokenOf .equals) =
      trees.dropWhile (!·.isTokenOf .equals) := by
    rw [shape]
    simp [isColon, Tree.isTokenOf_isNodeIn isType.1]
  have solid := defaultIn?_solidOf actual
  rw [defaultIn?, dropped] at solid
  cases placed with
  | none =>
    obtain rfl : trees = [] := part
    have absent : defaultIn? actual = none := Option.map_eq_none_iff.1 solid.symm
    rw [absent]
    exact yields_pure (by simp) rfl
  | some placed =>
    obtain ⟨equals, tree, v, rfl, isEquals, value, rfl⟩ := part
    have found : (defaultIn? actual).map Tree.solid = some tree := by
      rw [← solid]
      simp [isEquals, Tree.isSome_nodeKind? value.1, value.1]
    refine ((yields_placedValue source found value).imp ?_).congr (by simp [PlacedValue.plain])
    rintro _ ⟨placed, rfl, same⟩
    rw [Option.map_some, same]

theorem yields_variablesOf (source : Nat) {actuals : List (List Tree)} {ds : List VariableDefinition}
    (shape : List.Forall₂ (fun actual => VariableNode (solidOf actual)) actuals ds) :
    ∀ seen, Yields (variablesOf source seen actuals)
      (Fresh seen (ds.map (·.name.text)) ∧ ∀ d ∈ ds, ∀ v ∈ d.defaultValue, v.value.Fits)
      (·.map VariableDefinition.bare = ds) := by
  induction shape with
  | nil => exact fun seen => yields_pure (by simp [Fresh]) rfl
  | @cons actual d actuals ds here _ ih =>
    intro seen
    obtain ⟨dollar, t, colon, type, expr, trees, placed, inner, isDollar, named, isColon, isType, part,
      rfl⟩ := here
    obtain ⟨range, used⟩ := variableIn?_of_solid inner isDollar named
    obtain ⟨range', annotated⟩ : ∃ range, typeRefIn? actual = some ⟨expr, range⟩ := by
      refine typeRefIn?_of_solid ?_ isType
      rw [inner]
      exact List.find?_eq_some_iff_append.2 ⟨isType.1, [_, _], trees, rfl, by simp [typeKinds]⟩
    rw [variablesOf, used, annotated]
    dsimp only
    split
    · rename_i first again
      refine yields_report (fun h => ?_) _ (reports_variablesOf source seen actuals).keeps
      have new : seen.lookup t.text = none := ((fresh_cons seen _ range _).1 h.1).1
      rw [again] at new
      cases new
    · rename_i new
      refine ((yields_default source inner isColon isType part).bind
        (e := Fresh (seen ++ [(t.text, range)]) (ds.map (·.name.text)) ∧
          ∀ d ∈ ds, ∀ v ∈ d.defaultValue, v.value.Fits) (fun _ => ?_) fun r same => ?_).congr ?_
      · exact (reports_variablesOf source _ actuals).keeps.bind fun _ => keeps_pure _
      · refine (ih _).map fun rest same' => ?_
        rw [List.map_cons, same', VariableDefinition.bare, same]
        rfl
      · rw [List.map_cons, fresh_cons seen _ range, List.forall_mem_cons]
        have unseen : seen.lookup (Name.plain t.text).text = none := new
        tauto

theorem yields_variablesIn (source : Nat) {actual : List Tree} {list : Option (List Tree)}
    {ds : List VariableDefinition} (shape : Tree.nodesOfKind .variableDefs (solidOf actual) = list.toList)
    (inner : List.Forall₂ VariableNode (Tree.nodesOfKind .variableDef (list.getD [])) ds) :
    Yields (variablesIn source actual) (VariableDefinition.WellFormed ds)
      (·.map VariableDefinition.bare = ds) := by
  have found := nodeOfKind?_of_solid shape
  rw [variablesIn]
  split
  · rename_i children here
    rw [here, Option.map_some] at found
    subst found
    refine (yields_variablesOf source (forall₂_nodesOfKind inner) []).congr ?_
    rw [fresh_nil, VariableDefinition.WellFormed]
  · rename_i absent
    rw [absent, Option.map_none] at found
    subst found
    cases inner
    exact yields_pure (by simp [VariableDefinition.WellFormed]) rfl

/-! ## Declarations -/

/-- The children of a description node. -/
def DescriptionNode (inner : List Tree) (description : String) : Prop :=
  ∃ t, inner = [.token t] ∧ (t.kind = .stringValue ∨ t.kind = .blockStringValue) ∧ description = contentsOf t

/-- The children of a target node. -/
def TargetNode (inner : List Tree) (names : Name × Name) : Prop :=
  ∃ type dot field, inner = [.token type, .token dot, .token field] ∧ type.kind = .identifier ∧
    dot.kind = .dot ∧ field.kind = .identifier ∧ names = (.plain type.text, .plain field.text)

theorem descriptionIn?_of_solid {actual : List Tree} {inner : Option (List Tree)}
    {description : Option String} (shape : Tree.nodesOfKind .description (solidOf actual) = inner.toList)
    (holds : List.Forall₂ DescriptionNode inner.toList description.toList) :
    descriptionIn? actual = description := by
  have found := nodeOfKind?_of_solid shape
  rw [descriptionIn?]
  cases here : Tree.nodeOfKind? .description actual with
  | none =>
    rw [here, Option.map_none] at found
    subst found
    cases description with
    | none => rfl
    | some text => cases holds
  | some children =>
    rw [here, Option.map_some] at found
    subst found
    cases description with
    | none => cases holds
    | some text =>
      cases holds with
      | cons here _ =>
        obtain ⟨t, inner, isText, rfl⟩ := here
        have text : (Tree.directTokens children).find?
            (fun t => t.kind = .stringValue || t.kind = .blockStringValue) = some t := by
          rw [← Tree.find?_filter_solid (fun t trivia => ?_), ← Tree.directTokens_solidOf, inner]
          · simpa using or_iff_not_imp_left.1 isText
          · have string : t.kind ≠ .stringValue := Tree.ne_of_isTrivia rfl trivia
            have block : t.kind ≠ .blockStringValue := Tree.ne_of_isTrivia rfl trivia
            simp [string, block]
        simp [text]

theorem targetIn?_of_solid {actual inner : List Tree} {names : Name × Name}
    (shape : Tree.nodeOfKind? .declTarget (solidOf actual) = some inner) (holds : TargetNode inner names) :
    ∃ type field, targetIn? actual = some (type, field) ∧ names = (.plain type.text, .plain field.text) := by
  obtain ⟨type, dot, field, rfl, isType, isDot, isField, rfl⟩ := holds
  rw [Tree.nodeOfKind?_solidOf] at shape
  obtain ⟨children, here, solid⟩ := Option.map_eq_some_iff.1 shape
  have first : Tree.tokenOfKind? .identifier children = some type := by
    rw [← Tree.tokenOfKind?_solidOf rfl, solid]
    simp [Tree.tokenOfKind?, isType]
  have second : ((Tree.directTokens children).dropWhile (·.kind ≠ .dot)).find? (·.kind = .identifier) =
      some field := by
    rw [← Tree.find?_filter_solid fun t trivia => decide_eq_false (Tree.ne_of_isTrivia rfl trivia),
      ← Tree.dropWhile_filter_solid fun t trivia => decide_eq_true (Tree.ne_of_isTrivia rfl trivia),
      ← Tree.directTokens_solidOf, solid]
    simp [isType, isDot, isField]
  refine ⟨nameOf type, nameOf field, ?_, rfl⟩
  rw [targetIn?, here]
  simp only [Option.bind_eq_bind, Option.bind_some, first, second]
  rfl

/-- The trees after the header of a field or pointer declaration. -/
def BodyTrees (trees : List Tree) (body : Rule.Body) : Prop :=
  ∃ (definitions : Option (List Tree)) (dirs : List (List Tree)) (description : Option (List Tree))
    (set : List Tree),
    trees = nodes .variableDefs definitions.toList ++ (nodes .directive dirs ++
      (nodes .description description.toList ++ [.node .selectionSet set])) ∧
    List.Forall₂ VariableNode (Tree.nodesOfKind .variableDef (definitions.getD [])) body.definitions ∧
    List.Forall₂ DirectiveNode dirs body.directives ∧
    List.Forall₂ DescriptionNode description.toList body.description.toList ∧
    SelectionSetNode set body.selections

/-- The kinds of nodes that a declaration's body consists of. -/
def bodyKinds : List SyntaxKind := [.variableDefs, .directive, .description, .selectionSet]

/-- A body after a header that has none of its parts. -/
theorem yields_selecting (source : Nat) (kind : DeclarationKind) (names : Name × Name)
    (target : Option TypeRef) (header : List Tree) {actual trees : List Tree} {body : Rule.Body}
    {d : Declaration} (shape : solidOf actual = header ++ trees)
    (plain : ∀ part ∈ bodyKinds, Tree.nodesOfKind part header = []) (built : BodyTrees trees body)
    (assembled : Rule.assemble kind (.plain names.1.text, .plain names.2.text)
      (target.map fun ref => ref.annotation) body = d) :
    Yields (do selectingDeclaration source kind names target (← directivesIn source actual) actual)
      d.WellFormed fun r => r.map Declaration.bare = some d := by
  subst assembled
  obtain ⟨definitions, dirs, description, set, rfl, defined, directed, described, selected⟩ := built
  have variableLists : Tree.nodesOfKind .variableDefs (solidOf actual) = definitions.toList := by
    rw [shape, Tree.nodesOfKind_append, plain _ (by simp [bodyKinds])]
    simp
  have directives : Tree.nodesOfKind .directive (solidOf actual) = dirs := by
    rw [shape, Tree.nodesOfKind_append, plain _ (by simp [bodyKinds])]
    simp
  have descriptions : Tree.nodesOfKind .description (solidOf actual) = description.toList := by
    rw [shape, Tree.nodesOfKind_append, plain _ (by simp [bodyKinds])]
    simp
  have sets : Tree.nodesOfKind .selectionSet (solidOf actual) = (some set).toList := by
    rw [shape, Tree.nodesOfKind_append, plain _ (by simp [bodyKinds])]
    simp
  have selections : List.Forall₂ SelectionSetNode (some set).toList (some body.selections).toList :=
    .cons selected .nil
  rw [← directives] at directed
  refine ((yields_directivesIn source directed).bind
    (e := Selection.SetWellFormed (some body.selections) ∧ VariableDefinition.WellFormed body.definitions)
    (fun _ => (reports_selectingDeclaration source kind names target _ actual).keeps) fun ds sameDs => ?_).congr ?_
  · refine (yields_selectionSetIn source sets selections).bind (fun r => ?_) fun r sameSet => ?_
    · split
      · exact keeps_pure _
      · exact (reports_variablesIn source actual).keeps.bind fun _ => keeps_pure _
    · cases r with
      | none => cases sameSet
      | some selected' =>
        have sameSelections : Selection.bareAll selected' = body.selections := Option.some.inj sameSet
        refine (yields_variablesIn source variableLists defined).map fun definitions' sameDefinitions => ?_
        rw [Option.map_some, Declaration.bare, sameDs, sameDefinitions, sameSelections,
          descriptionIn?_of_solid descriptions described, Rule.assemble, Option.map_map]
        rfl
  · exact ⟨fun ⟨d, s, v⟩ => ⟨d, v, s⟩, fun ⟨d, v, s⟩ => ⟨d, s, v⟩⟩

/-- A tree that is a declaration. -/
def DeclarationTree (tree : Tree) (d : Declaration) : Prop :=
  ∃ kind, formOf? tree = some kind ∧ ∀ source actual, solidOf actual = tree.children →
    Yields (declarationOf source kind actual) d.WellFormed fun r => r.map Declaration.bare = some d

theorem declarationTree_field {keyword : Token} {inner trees : List Tree} {names : Name × Name}
    {body : Rule.Body} (target : TargetNode inner names) (built : BodyTrees trees body) :
    DeclarationTree (.node .fieldDecl (.token keyword :: .node .declTarget inner :: trees))
      (Rule.assemble .field names none body) := by
  refine ⟨.field, rfl, fun source actual shape => ?_⟩
  have targets : Tree.nodeOfKind? .declTarget (solidOf actual) = some inner := by
    rw [shape, Tree.nodeOfKind?_eq_head?]
    simp [Tree.children]
  obtain ⟨type, field, found, rfl⟩ := targetIn?_of_solid targets target
  rw [declarationOf, found]
  have plain : ∀ part ∈ bodyKinds, Tree.nodesOfKind part [.token keyword, .node .declTarget inner] = [] := by
    simp [bodyKinds]
  exact yields_selecting source .field (type, field) none _ shape plain built rfl

theorem declarationTree_pointer {keyword link : Token} {tree : Tree} {expr : TypeExpr}
    {inner trees : List Tree} {names : Name × Name} {body : Rule.Body} (target : TargetNode inner names)
    (type : TypeTree tree expr) (built : BodyTrees trees body) :
    DeclarationTree
      (.node .pointerDecl (.token keyword :: .node .declTarget inner :: .token link :: tree :: trees))
      (Rule.assemble .pointer names (some expr) body) := by
  refine ⟨.pointer, rfl, fun source actual shape => ?_⟩
  have targets : Tree.nodeOfKind? .declTarget (solidOf actual) = some inner := by
    rw [shape, Tree.nodeOfKind?_eq_head?]
    simp [Tree.children]
  have types : (solidOf actual).find? (·.isNodeIn typeKinds) = some tree := by
    rw [shape]
    exact List.find?_eq_some_iff_append.2 ⟨type.1, [_, _, _], trees, rfl, by simp [typeKinds]⟩
  have plain : ∀ part ∈ bodyKinds,
      Tree.nodesOfKind part [.token keyword, .node .declTarget inner, .token link, tree] = [] := by
    have apart : ∀ part ∈ bodyKinds, part ∉ typeKinds ∧ SyntaxKind.declTarget ≠ part := by decide
    intro part member
    rw [Tree.nodesOfKind_token, Tree.nodesOfKind_node, if_neg (apart part member).2, Tree.nodesOfKind_token,
      Tree.nodesOfKind_other type.1 (apart part member).1, Tree.nodesOfKind_nil]
  obtain ⟨parent, field, found, rfl⟩ := targetIn?_of_solid targets target
  obtain ⟨range, annotated⟩ := typeRefIn?_of_solid types type
  rw [declarationOf, found]
  simp only [annotated]
  exact yields_selecting source .pointer (parent, field) (some ⟨expr, range⟩) _ shape plain built rfl

theorem declarationTree_entrypoint {keyword : Token} {inner : List Tree} {names : Name × Name}
    {dirs : List (List Tree)} {ds : List Directive} (target : TargetNode inner names)
    (directed : List.Forall₂ DirectiveNode dirs ds) :
    DeclarationTree
      (.node .entrypointDecl (.token keyword :: .node .declTarget inner :: nodes .directive dirs))
      (Rule.assemble .entrypoint names none ⟨[], ds, none, []⟩) := by
  refine ⟨.entrypoint, rfl, fun source actual shape => ?_⟩
  have targets : Tree.nodeOfKind? .declTarget (solidOf actual) = some inner := by
    rw [shape, Tree.nodeOfKind?_eq_head?]
    simp [Tree.children]
  have directives : Tree.nodesOfKind .directive (solidOf actual) = dirs := by
    rw [shape]
    simp [Tree.children]
  obtain ⟨type, field, found, rfl⟩ := targetIn?_of_solid targets target
  rw [← directives] at directed
  rw [declarationOf, found]
  refine ((yields_directivesIn source directed).map fun r same => ?_).congr ?_
  · rw [Option.map_some, Declaration.bare, same]
    rfl
  · have empty : Selection.SetWellFormed (some []) := by
      simp [Selection.SetWellFormed, Selection.AllWellFormed]
    exact ⟨fun h => ⟨h, ⟨List.nodup_nil, List.forall_mem_nil _⟩, empty⟩, fun h => h.directives⟩

theorem formOf?_solid (tree : Tree) : formOf? tree.solid = formOf? tree := by
  cases tree with
  | token t => rw [Tree.solid]
  | node kind children =>
    rw [Tree.solid]
    cases kind <;> rfl

/-- A declaration is found among the children of a root, up to trivia. -/
theorem yields_declarationIn (source : Nat) {actual : List Tree} {tree : Tree} {d : Declaration}
    (shape : solidOf actual = [tree]) (built : DeclarationTree tree d) :
    Yields (declarationIn source (.node .root actual)) d.WellFormed
      (fun r => r.map Declaration.bare = some d) := by
  obtain ⟨kind, form, yields⟩ := built
  have found : (actual.find? fun t => (formOf? t).isSome).map Tree.solid = some tree := by
    rw [← Tree.find?_solidOf (fun t => by rw [formOf?_solid]) fun t trivia => ?_, shape]
    · simp [form]
    · cases t with
      | token t => rfl
      | node kind inner => cases trivia
  obtain ⟨here, first, rfl⟩ := Option.map_eq_some_iff.1 found
  rw [formOf?_solid] at form
  rw [declarationIn, Tree.children, first]
  simp only [form]
  refine yields source here.children ?_
  cases here with
  | token t => cases form
  | node kind' children => rw [Tree.solid, Tree.children, Tree.children]

end IsoLiteral.Lowering
