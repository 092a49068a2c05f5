import IsoLiteral.Proofs.Declaration.Outcome
import IsoLiteral.Proofs.Syntax.Layout

/-!
# Declarations of literals that are laid out otherwise

A declaration is built from what layout does not decide: building it from the tree without trivia and places
gives the same but for places, and reports the same. So do two trees of which the same is left. `Told` says of two
computations that what they return looks the same and that they report the same but for places.
-/

namespace IsoLiteral.Lowering

open IsoLiteral.Tree (bareOf)

/-! ## Computations that report the same -/

/-- What is returned looks the same, and the same is reported but for places. -/
def Told {α β : Type} (look : α → β) (p p' : Lower α) : Prop :=
  ∀ ds ds', Diagnostics.plain ds' = Diagnostics.plain ds →
    look (p' ds').1 = look (p ds).1 ∧ Diagnostics.plain (p' ds').2 = Diagnostics.plain (p ds).2

section Combinators

variable {α β γ δ : Type} {look : α → γ} {look' : β → δ} {p p' : Lower α}

theorem told_pure {a a' : α} (same : look a' = look a) : Told look (pure a) (pure a') := fun _ _ plain => ⟨same, plain⟩

theorem Told.bind (first : Told look p p') {q q' : α → Lower β}
    (rest : ∀ a a', look a' = look a → Told look' (q a) (q' a')) : Told look' (p >>= q) (p' >>= q') := by
  intro ds ds' plain
  obtain ⟨same, between⟩ := first ds ds' plain
  exact rest _ _ same _ _ between

theorem Told.map (h : Told look p p') {f f' : α → β} (same : ∀ a a', look a' = look a → look' (f' a') = look' (f a)) :
    Told look' (do return f (← p)) (do return f' (← p')) :=
  h.bind fun a a' looks => told_pure (same a a' looks)

theorem told_report {d d' : Diagnostic} (same : d'.plain = d.plain) {q q' : Lower α} (h : Told look q q') :
    Told look (do report d; q) (do report d'; q') := by
  intro ds ds' plain
  refine h (ds ++ [d]) (ds' ++ [d']) ?_
  rw [Diagnostics.plain_append, Diagnostics.plain_append, plain]
  exact congrArg _ (congrArg (· :: []) same)

theorem Told.ite {c : Prop} [Decidable c] {q q' : Lower α} (yes : Told look p p') (no : Told look q q') :
    Told look (if c then p else q) (if c then p' else q') := by
  split
  · exact yes
  · exact no

theorem Told.symm (h : Told look p p') : Told look p' p := by
  intro ds ds' plain
  obtain ⟨same, reported⟩ := h ds' ds plain.symm
  exact ⟨same.symm, reported.symm⟩

theorem Told.trans {p'' : Lower α} (h : Told look p p') (h' : Told look p' p'') : Told look p p'' := by
  intro ds ds' plain
  obtain ⟨same, reported⟩ := h ds ds' plain
  obtain ⟨same', reported'⟩ := h' ds' ds' rfl
  exact ⟨same'.trans same, reported'.trans reported⟩

end Combinators

/-- Names that were seen in the same order are found in both lists or in neither. -/
theorem lookup_names {seen seen' : List (String × TextRange)} (same : seen'.map Prod.fst = seen.map Prod.fst)
    (name : String) :
    (seen.lookup name = none ∧ seen'.lookup name = none) ∨
      ∃ first first', seen.lookup name = some first ∧ seen'.lookup name = some first' := by
  cases found : seen.lookup name with
  | none => exact .inl ⟨rfl, lookup_eq_none.2 (same ▸ lookup_eq_none.1 found)⟩
  | some first =>
    cases found' : seen'.lookup name with
    | some first' => exact .inr ⟨first, first', rfl, rfl⟩
    | none =>
      have absent := lookup_eq_none.1 found'
      rw [same, ← lookup_eq_none, found] at absent
      cases absent

/-! ## Types and values -/

mutual
theorem typeOf?_placeless : ∀ tree : Tree, typeOf? tree.placeless = typeOf? tree
  | .token t => by rw [Tree.placeless]; rfl
  | .node kind children => by
    rw [Tree.placeless, typeOf?_node, typeOf?_node, Tree.tokenOfKind?_placelessOf, typeIn?_placelessOf children,
      Option.map_map]
    rfl
termination_by structural tree => tree
theorem typeIn?_placelessOf : ∀ trees : List Tree, typeIn? (Tree.placelessOf trees) = typeIn? trees
  | [] => by rw [Tree.placelessOf]
  | tree :: rest => by
    rw [Tree.placelessOf, typeIn?, typeIn?, Tree.isNodeIn_placeless, typeOf?_placeless tree,
      typeIn?_placelessOf rest]
termination_by structural trees => trees
end

theorem typeRefIn?_bareOf (children : List Tree) :
    (typeRefIn? (bareOf children)).map TypeRef.annotation = (typeRefIn? children).map TypeRef.annotation := by
  rw [typeRefIn?, typeRefIn?, Tree.find?_isNodeIn_bareOf]
  cases children.find? (·.isNodeIn typeKinds) with
  | none => rfl
  | some tree =>
    have same : typeOf? tree.bare = typeOf? tree := (typeOf?_placeless _).trans (typeOf?_solid tree)
    simp only [Option.map_some, Option.bind_eq_bind, Option.bind_some, same]
    cases typeOf? tree <;> rfl

theorem told_literalOf (source : Nat) (t : Token) : Told id (literalOf source t) (literalOf source t.bare) := by
  unfold literalOf
  simp only [Token.kind_bare, Token.text_bare]
  split
  · exact .ite (told_pure rfl) (told_report (by simp) (told_pure rfl))
  all_goals exact told_pure rfl

theorem told_literalIn (source : Nat) (children : List Tree) :
    Told id (literalIn source children) (literalIn source (Tree.placelessOf children)) := by
  have found : (Tree.directTokens (Tree.placelessOf children)).find? (!·.isTrivia) =
      ((Tree.directTokens children).find? (!·.isTrivia)).map Token.bare :=
    (congrArg (List.find? _) (Tree.directTokens_placelessOf children)).trans (Tree.find?_kind_bare (!·.isTrivia) _)
  rw [literalIn, literalIn, found]
  cases (Tree.directTokens children).find? (!·.isTrivia) with
  | none => exact told_pure rfl
  | some t => exact told_literalOf source t

mutual
theorem told_valueOf_placeless (source : Nat) : ∀ tree, Told id (valueOf source tree) (valueOf source tree.placeless)
  | .token t => by rw [Tree.placeless]; exact told_pure rfl
  | .node kind children => by
    rw [Tree.placeless, valueOf_node, valueOf_node, Tree.tokenOfKind?_placelessOf, Option.map_map]
    refine .ite (told_pure rfl) (.ite (told_literalIn source children) (.ite ?_ (.ite ?_ (told_pure rfl))))
    · exact (told_itemsOf_placelessOf source children).map fun _ _ same => congrArg (Option.map Value.list) same
    · exact (told_fieldsOf_placelessOf source children).map fun _ _ same => congrArg (Option.map Value.object) same
termination_by structural tree => tree
theorem told_itemsOf_placelessOf (source : Nat) :
    ∀ trees, Told id (itemsOf source trees) (itemsOf source (Tree.placelessOf trees))
  | [] => by rw [Tree.placelessOf]; exact told_pure rfl
  | tree :: rest => by
    rw [Tree.placelessOf, itemsOf, itemsOf, Tree.isNodeIn_placeless]
    refine .ite ((told_valueOf_placeless source tree).bind ?_) (told_itemsOf_placelessOf source rest)
    rintro (_ | v) _ rfl
    · exact told_pure rfl
    · exact (told_itemsOf_placelessOf source rest).map fun _ _ same => congrArg (Option.map (v :: ·)) same
termination_by structural trees => trees
theorem told_fieldsOf_placelessOf (source : Nat) :
    ∀ trees, Told id (fieldsOf source trees) (fieldsOf source (Tree.placelessOf trees))
  | [] => by rw [Tree.placelessOf]; exact told_pure rfl
  | .token t :: rest => by
    rw [Tree.placelessOf, Tree.placeless, fieldsOf_token, fieldsOf_token]
    exact told_fieldsOf_placelessOf source rest
  | .node kind children :: rest => by
    rw [Tree.placelessOf, Tree.placeless, fieldsOf_node, fieldsOf_node]
    refine .ite ?_ (told_fieldsOf_placelessOf source rest)
    rw [fieldThen, fieldThen, Tree.tokenOfKind?_placelessOf]
    cases Tree.tokenOfKind? .identifier children with
    | none => exact told_pure rfl
    | some key =>
      refine (told_valueIn_placelessOf source children).bind ?_
      rintro (_ | v) _ rfl
      · exact told_pure rfl
      · exact (told_fieldsOf_placelessOf source rest).map fun _ _ same =>
          congrArg (Option.map ((key.text, v) :: ·)) same
termination_by structural trees => trees
theorem told_valueIn_placelessOf (source : Nat) :
    ∀ trees, Told id (valueIn source trees) (valueIn source (Tree.placelessOf trees))
  | [] => by rw [Tree.placelessOf]; exact told_pure rfl
  | tree :: rest => by
    rw [Tree.placelessOf, valueIn, valueIn, Tree.isNodeIn_placeless]
    exact .ite (told_valueOf_placeless source tree) (told_valueIn_placelessOf source rest)
termination_by structural trees => trees
end

theorem told_valueOf (source : Nat) (tree : Tree) : Told id (valueOf source tree) (valueOf source tree.bare) := by
  rw [← valueOf_solid source tree]
  exact told_valueOf_placeless source tree.solid

theorem told_placedValue (source : Nat) (tree? : Option Tree) :
    Told (Option.map PlacedValue.value) (placedValue source tree?) (placedValue source (tree?.map Tree.bare)) := by
  cases tree? with
  | none => exact told_pure rfl
  | some tree =>
    refine (told_valueOf source tree).map fun value value' same => ?_
    obtain rfl : value' = value := same
    cases value' <;> rfl

/-! ## Arguments and directives -/

theorem told_argumentsOf (source : Nat) {seen seen' : List (String × TextRange)}
    (names : seen'.map Prod.fst = seen.map Prod.fst) (nodes : List (List Tree)) :
    Told (List.map Argument.bare) (argumentsOf source seen nodes) (argumentsOf source seen' (nodes.map bareOf)) := by
  induction nodes generalizing seen seen' with
  | nil => exact told_pure rfl
  | cons children rest ih =>
    rw [List.map_cons, argumentsOf, argumentsOf, Tree.tokenOfKind?_bareOf rfl, Tree.find?_isNodeIn_bareOf]
    cases Tree.tokenOfKind? .identifier children with
    | none => exact ih names
    | some t =>
      refine (told_placedValue source _).bind fun value value' same => ?_
      cases value with
      | none =>
        obtain rfl := Option.map_eq_none_iff.1 same
        exact ih names
      | some value =>
        obtain ⟨value', rfl, content⟩ := Option.map_eq_some_iff.1 same
        rcases lookup_names names t.text with ⟨new, new'⟩ | ⟨first, first', known, known'⟩
        · simp only [Token.text_bare, new, new']
          refine (ih ?_).map fun others others' rest => ?_
          · simp [names]
          · simp only [List.map_cons, rest, Argument.bare, content]
            rfl
        · simp only [Token.text_bare, known, known']
          exact told_report (by simp) (ih names)

theorem told_argumentsIn (source : Nat) (children : List Tree) :
    Told (List.map Argument.bare) (argumentsIn source children) (argumentsIn source (bareOf children)) := by
  rw [argumentsIn, argumentsIn, Tree.nodeOfKind?_bareOf]
  cases Tree.nodeOfKind? .arguments children with
  | none => exact told_pure rfl
  | some inner =>
    have told := told_argumentsOf source (rfl : [].map Prod.fst = [].map Prod.fst) (Tree.nodesOfKind .argument inner)
    rwa [← Tree.nodesOfKind_bareOf] at told

theorem told_directivesIn (source : Nat) (children : List Tree) :
    Told (List.map Directive.bare) (directivesIn source children) (directivesIn source (bareOf children)) := by
  rw [directivesIn, directivesIn, Tree.nodesOfKind_bareOf]
  induction Tree.nodesOfKind .directive children with
  | nil => exact told_pure rfl
  | cons children rest ih =>
    rw [List.map_cons, directivesOf, directivesOf, Tree.tokenOfKind?_bareOf rfl]
    cases Tree.tokenOfKind? .identifier children with
    | none => exact ih
    | some t =>
      refine (told_argumentsIn source children).bind fun arguments arguments' same => ?_
      refine ih.map fun others others' rest => ?_
      simp only [List.map_cons, rest, Directive.bare, same]
      rfl

/-! ## Selections -/

theorem text_labelIn? (children : List Tree) :
    (labelIn? (bareOf children)).map Name.text = (labelIn? children).map Name.text := by
  rw [labelIn?, labelIn?, Tree.nodeOfKind?_bareOf]
  cases Tree.nodeOfKind? .aliasLabel children with
  | none => rfl
  | some inner =>
    simp only [Option.map_some, Option.bind_eq_bind, Option.bind_some]
    rw [Tree.tokenOfKind?_bareOf rfl]
    cases Tree.tokenOfKind? .identifier inner <;> rfl

mutual
theorem told_selectionOf (source : Nat) :
    ∀ tree, Told (Option.map Selection.bare) (selectionOf source tree) (selectionOf source tree.bare)
  | .token t => by rw [Tree.bare, Tree.solid, Tree.placeless]; exact told_pure rfl
  | .node kind children => by
    by_cases isSelection : kind = .selection
    · subst isSelection
      rw [Tree.bare_node, selectionOf, selectionOf, Tree.tokenOfKind?_bareOf rfl]
      cases Tree.tokenOfKind? .identifier children with
      | none => exact told_pure rfl
      | some t =>
        refine (told_argumentsIn source children).bind fun _ _ arguments =>
          (told_directivesIn source children).bind fun _ _ directives =>
          (told_selectionSetIn source children).map fun _ _ set => ?_
        have label := congrArg (Option.map Name.plain) (text_labelIn? children)
        rw [Option.map_map, Option.map_map] at label
        simp only [Option.map_some, Selection.bare, arguments, directives, set]
        rw [show (labelIn? (bareOf children)).map (fun name => Name.plain name.text) = _ from label]
        rfl
    · rw [Tree.bare_node, selectionOf_node source kind children isSelection, selectionOf_node source kind _ isSelection]
      exact told_pure rfl
termination_by structural tree => tree
theorem told_selectionSetOf (source : Nat) :
    ∀ tree, Told Selection.bareSet (selectionSetOf source tree) (selectionSetOf source tree.bare)
  | .token t => by rw [Tree.bare, Tree.solid, Tree.placeless]; exact told_pure rfl
  | .node kind children => by
    rw [Tree.bare_node, selectionSetOf.eq_def, selectionSetOf.eq_def]
    split
    · rename_i same
      cases same
      refine (told_selectionsOf source rfl children).map fun _ _ same => ?_
      rw [Selection.bareSet, Selection.bareSet, same]
    · rename_i other
      split
      · rename_i same
        cases same
        exact absurd rfl (other children)
      · exact told_pure rfl
termination_by structural tree => tree
theorem told_selectionSetIn (source : Nat) :
    ∀ trees, Told Selection.bareSet (selectionSetIn source trees) (selectionSetIn source (bareOf trees))
  | [] => told_pure rfl
  | tree :: rest => by
    rw [selectionSetIn]
    by_cases trivia : tree.isTrivia = true
    · rw [Tree.bareOf_cons_of_trivia trivia, if_neg (by rw [Tree.isNodeIn_trivia _ trivia]; exact Bool.false_ne_true)]
      exact told_selectionSetIn source rest
    · rw [Tree.bareOf_cons_of_solid trivia, selectionSetIn, Tree.isNodeIn_bare]
      exact .ite (told_selectionSetOf source tree) (told_selectionSetIn source rest)
termination_by structural trees => trees
theorem told_selectionsOf (source : Nat) {seen seen' : List (String × TextRange)}
    (names : seen'.map Prod.fst = seen.map Prod.fst) :
    ∀ trees, Told Selection.bareAll (selectionsOf source seen trees) (selectionsOf source seen' (bareOf trees))
  | [] => told_pure rfl
  | tree :: rest => by
    by_cases trivia : tree.isTrivia = true
    · have skipped : selectionOf source tree = return none := by
        cases tree with
        | token t => rfl
        | node kind inner => cases trivia
      rw [Tree.bareOf_cons_of_trivia trivia, selectionsOf_skip source seen rest skipped]
      exact told_selectionsOf source names rest
    · rw [Tree.bareOf_cons_of_solid trivia, selectionsOf, selectionsOf]
      refine (told_selectionOf source tree).bind fun lowered lowered' same => ?_
      cases lowered with
      | none =>
        obtain rfl := Option.map_eq_none_iff.1 same
        exact told_selectionsOf source names rest
      | some lowered =>
        obtain ⟨lowered', rfl, looks⟩ := Option.map_eq_some_iff.1 same
        have response : lowered'.responseName.text = lowered.responseName.text := by
          rw [← text_responseName_bare, looks, text_responseName_bare]
        dsimp only
        rw [response]
        rcases lookup_names names lowered.responseName.text with ⟨new, new'⟩ | ⟨first, first', known, known'⟩
        · rw [new, new']
          refine (told_selectionsOf source ?_ rest).map fun _ _ others => ?_
          · simp [names]
          · rw [Selection.bareAll, Selection.bareAll, looks, others]
        · rw [known, known']
          exact told_report (by simp) (told_selectionsOf source names rest)
termination_by structural trees => trees
end

/-! ## Declarations -/

theorem defaultIn?_bareOf (children : List Tree) :
    defaultIn? (bareOf children) = (defaultIn? children).map Tree.bare := by
  have placeless (trees : List Tree) : defaultIn? (Tree.placelessOf trees) = (defaultIn? trees).map Tree.placeless := by
    rw [defaultIn?, defaultIn?, Tree.placelessOf_eq_map, List.dropWhile_map, List.find?_map]
    simp only [Function.comp_def, Tree.isTokenOf_placeless, Tree.nodeKind?_placeless]
    cases (trees.dropWhile (!·.isTokenOf .equals)).find? (·.nodeKind?.isSome) with
    | none => rfl
    | some tree =>
      simp only [Option.map_some, Option.bind_eq_bind, Option.bind_some, Tree.isNodeIn_placeless]
      split <;> rfl
  rw [bareOf, placeless, defaultIn?_solidOf, Option.map_map]
  rfl

theorem variableIn?_bareOf (children : List Tree) :
    (variableIn? (bareOf children)).map Prod.fst = (variableIn? children).map (Token.bare ∘ Prod.fst) := by
  rw [variableIn?, variableIn?, Tree.nodeOfKind?_bareOf]
  cases Tree.nodeOfKind? .variableUse children with
  | none => rfl
  | some inner =>
    simp only [Option.map_some, Option.bind_eq_bind, Option.bind_some]
    rw [Tree.tokenOfKind?_bareOf rfl]
    cases Tree.tokenOfKind? .identifier inner <;> rfl

theorem told_variablesOf (source : Nat) {seen seen' : List (String × TextRange)}
    (names : seen'.map Prod.fst = seen.map Prod.fst) (nodes : List (List Tree)) :
    Told (List.map VariableDefinition.bare) (variablesOf source seen nodes)
      (variablesOf source seen' (nodes.map bareOf)) := by
  induction nodes generalizing seen seen' with
  | nil => exact told_pure rfl
  | cons children rest ih =>
    have used := variableIn?_bareOf children
    have typed := typeRefIn?_bareOf children
    rw [List.map_cons, variablesOf.eq_def, variablesOf.eq_def]
    cases here : variableIn? children with
    | none =>
      rw [here] at used
      simp only [here, Option.map_eq_none_iff.1 used]
      exact ih names
    | some found =>
      obtain ⟨t, range⟩ := found
      rw [here] at used
      obtain ⟨⟨_, range'⟩, here', rfl⟩ := Option.map_eq_some_iff.1 used
      cases type : typeRefIn? children with
      | none =>
        rw [type] at typed
        simp only [here, here', type, Option.map_eq_none_iff.1 typed]
        exact ih names
      | some ref =>
        rw [type] at typed
        obtain ⟨ref', type', same⟩ := Option.map_eq_some_iff.1 typed
        simp only [here, here', type, type', Function.comp_apply, Token.text_bare]
        rcases lookup_names names t.text with ⟨new, new'⟩ | ⟨first, first', known, known'⟩
        · simp only [new, new', defaultIn?_bareOf]
          refine (told_placedValue source _).bind fun value value' default => (ih ?_).map fun _ _ others => ?_
          · simp [names]
          · have default := congrArg (Option.map PlacedValue.plain) default
            rw [Option.map_map, Option.map_map] at default
            simp only [List.map_cons, others, VariableDefinition.bare, same]
            rw [show value'.map (fun v => PlacedValue.plain v.value) = _ from default]
            rfl
        · simp only [known, known']
          exact told_report (by simp) (ih names)

theorem told_variablesIn (source : Nat) (children : List Tree) :
    Told (List.map VariableDefinition.bare) (variablesIn source children) (variablesIn source (bareOf children)) := by
  rw [variablesIn, variablesIn, Tree.nodeOfKind?_bareOf]
  cases Tree.nodeOfKind? .variableDefs children with
  | none => exact told_pure rfl
  | some inner =>
    have told := told_variablesOf source (rfl : [].map Prod.fst = [].map Prod.fst)
      (Tree.nodesOfKind .variableDef inner)
    rwa [← Tree.nodesOfKind_bareOf] at told

theorem descriptionIn?_bareOf (children : List Tree) : descriptionIn? (bareOf children) = descriptionIn? children := by
  rw [descriptionIn?, descriptionIn?, Tree.nodeOfKind?_bareOf]
  cases Tree.nodeOfKind? .description children with
  | none => rfl
  | some inner =>
    have found : (Tree.directTokens (bareOf inner)).find?
          (fun t => t.kind = .stringValue || t.kind = .blockStringValue) =
        ((Tree.directTokens inner).find? fun t => t.kind = .stringValue || t.kind = .blockStringValue).map
          Token.bare := by
      rw [Tree.directTokens_bareOf, ← Tree.find?_filter_solid (fun t trivia => ?_) (Tree.directTokens inner)]
      · exact Tree.find?_kind_bare (fun kind => kind = .stringValue || kind = .blockStringValue) _
      · have string : t.kind ≠ .stringValue := Tree.ne_of_isTrivia rfl trivia
        have block : t.kind ≠ .blockStringValue := Tree.ne_of_isTrivia rfl trivia
        simp [string, block]
    simp only [Option.map_some, Option.bind_eq_bind, Option.bind_some, found]
    cases (Tree.directTokens inner).find? fun t => t.kind = .stringValue || t.kind = .blockStringValue <;> rfl

theorem targetIn?_bareOf (children : List Tree) :
    (targetIn? (bareOf children)).map (fun names => (names.1.text, names.2.text)) =
      (targetIn? children).map fun names => (names.1.text, names.2.text) := by
  rw [targetIn?, targetIn?, Tree.nodeOfKind?_bareOf]
  cases Tree.nodeOfKind? .declTarget children with
  | none => rfl
  | some inner =>
    have second : ((Tree.directTokens (bareOf inner)).dropWhile (·.kind ≠ .dot)).find? (·.kind = .identifier) =
        (((Tree.directTokens inner).dropWhile (·.kind ≠ .dot)).find? (·.kind = .identifier)).map Token.bare := by
      rw [← Tree.find?_filter_solid (fun t trivia => decide_eq_false (Tree.ne_of_isTrivia rfl trivia))
          ((Tree.directTokens inner).dropWhile _),
        ← Tree.dropWhile_filter_solid (fun t trivia => decide_eq_true (Tree.ne_of_isTrivia rfl trivia))
          (Tree.directTokens inner),
        Tree.directTokens_bareOf, List.dropWhile_map]
      exact Tree.find?_kind_bare (· = .identifier) _
    simp only [Option.map_some, Option.bind_eq_bind, Option.bind_some]
    rw [Tree.tokenOfKind?_bareOf rfl]
    cases Tree.tokenOfKind? .identifier inner with
    | none => rfl
    | some type =>
      simp only [Option.map_some, Option.bind_some, second]
      cases ((Tree.directTokens inner).dropWhile (·.kind ≠ .dot)).find? (·.kind = .identifier) <;> rfl

theorem told_selectingDeclaration (source : Nat) (kind : DeclarationKind) {names names' : Name × Name}
    (named : (names'.1.text, names'.2.text) = (names.1.text, names.2.text)) {target target' : Option TypeRef}
    (typed : target'.map TypeRef.annotation = target.map TypeRef.annotation) {directives directives' : List Directive}
    (directed : directives'.map Directive.bare = directives.map Directive.bare) (children : List Tree) :
    Told (Option.map Declaration.bare) (selectingDeclaration source kind names target directives children)
      (selectingDeclaration source kind names' target' directives' (bareOf children)) := by
  obtain ⟨parent, field⟩ := Prod.mk.inj named
  have typed := congrArg (Option.map TypeRef.plain) typed
  rw [Option.map_map, Option.map_map] at typed
  refine (told_selectionSetIn source children).bind fun set set' selected => ?_
  cases set with
  | none =>
    cases set' with
    | none => exact told_pure rfl
    | some selections' => simp [Selection.bareSet] at selected
  | some selections =>
    cases set' with
    | none => simp [Selection.bareSet] at selected
    | some selections' =>
      rw [Selection.bareSet, Selection.bareSet] at selected
      refine (told_variablesIn source children).map fun _ _ defined => ?_
      simp only [Option.map_some, Declaration.bare, parent, field, directed, defined, Option.some.inj selected,
        descriptionIn?_bareOf]
      rw [show target'.map (fun ref => TypeRef.plain ref.annotation) = _ from typed]
      rfl

theorem told_declarationOf (source : Nat) (kind : DeclarationKind) (children : List Tree) :
    Told (Option.map Declaration.bare) (declarationOf source kind children)
      (declarationOf source kind (bareOf children)) := by
  have named := targetIn?_bareOf children
  have typed := typeRefIn?_bareOf children
  rw [declarationOf, declarationOf]
  cases here : targetIn? children with
  | none =>
    rw [here] at named
    rw [Option.map_eq_none_iff.1 named]
    exact told_pure rfl
  | some names =>
    rw [here] at named
    obtain ⟨names', here', same⟩ := Option.map_eq_some_iff.1 named
    rw [here']
    refine (told_directivesIn source children).bind fun directives directives' directed => ?_
    cases kind with
    | field => exact told_selectingDeclaration source _ same rfl directed children
    | entrypoint =>
      obtain ⟨parent, field⟩ := Prod.mk.inj same
      refine told_pure ?_
      simp only [Option.map_some, Declaration.bare, parent, field, directed]
    | pointer =>
      cases type : typeRefIn? children with
      | none =>
        rw [type] at typed
        simp only [Option.map_eq_none_iff.1 typed]
        exact told_pure rfl
      | some target =>
        rw [type] at typed
        obtain ⟨target', type', -⟩ := Option.map_eq_some_iff.1 typed
        rw [type'] at typed
        simp only [type']
        exact told_selectingDeclaration source _ same typed directed children

theorem formOf?_bare (tree : Tree) : formOf? tree.bare = formOf? tree := by
  cases tree with
  | token t => rw [Tree.bare, Tree.solid, Tree.placeless]; rfl
  | node kind inner =>
    rw [Tree.bare_node]
    cases kind <;> rfl

theorem told_declarationIn (source : Nat) (children : List Tree) :
    Told (Option.map Declaration.bare) (declarationIn source (.node .root children))
      (declarationIn source (.node .root (bareOf children))) := by
  have found := Tree.find?_bareOf (p := fun tree => (formOf? tree).isSome) (fun tree => by rw [formOf?_bare])
    (fun tree trivia => by
      cases tree with
      | token t => rfl
      | node kind inner => cases trivia) children
  rw [declarationIn, declarationIn, Tree.children, Tree.children, found]
  cases children.find? (formOf? · |>.isSome) with
  | none => exact told_pure rfl
  | some tree =>
    simp only [Option.map_some, formOf?_bare]
    cases form : formOf? tree with
    | none => exact told_pure rfl
    | some kind =>
      cases tree with
      | token t => cases form
      | node kind' inner =>
        rw [Tree.bare_node, Tree.children, Tree.children]
        exact told_declarationOf source kind inner

end IsoLiteral.Lowering

namespace IsoLiteral

open Lowering

/-- Two declarations of one literal that differ in places only. -/
structure Declaration.Relaid (d d' : Declaration) : Prop where
  bare : d'.bare = d.bare
  source : d'.source = d.source

/-- A literal whose layout changes declares the same but for places, and the same is reported about it; or it
exceeds the same limit. -/
theorem parseDeclaration_layout {text text' : String} (same : solidTokens text' = solidTokens text) (source : Nat)
    (limits : ParseLimits) :
    (∃ limit, parseDeclaration text source limits = .error limit ∧
      parseDeclaration text' source limits = .error limit) ∨
    ∃ result result', parseDeclaration text source limits = .ok result ∧
      parseDeclaration text' source limits = .ok result' ∧
      Option.Rel Declaration.Relaid result.1 result'.1 ∧
      Diagnostics.unplaced result'.2 = Diagnostics.unplaced result.2 := by
  rcases parseTree_layout same source limits with ⟨limit, run, run'⟩ |
    ⟨built, built', problems, problems', run, run', trees, reports⟩
  · exact .inl ⟨limit, by rw [parseDeclaration, run]; rfl, by rw [parseDeclaration, run']; rfl⟩
  · have parsed : parseDeclaration text source limits = .ok (declarationIn source (.node .root built) problems) := by
      rw [parseDeclaration, run]
      rfl
    have parsed' : parseDeclaration text' source limits =
        .ok (declarationIn source (.node .root built') problems') := by
      rw [parseDeclaration, run']
      rfl
    obtain ⟨declared, reported⟩ := (told_declarationIn source built).trans
      (trees ▸ (told_declarationIn source built').symm) problems problems' reports
    refine .inr ⟨_, _, parsed, parsed', ?_, ?_⟩
    · generalize result : declarationIn source (.node .root built) problems = outcome at parsed declared
      generalize result' : declarationIn source (.node .root built') problems' = outcome' at parsed' declared
      obtain ⟨d, _⟩ := outcome
      obtain ⟨d', _⟩ := outcome'
      cases d with
      | none =>
        obtain rfl := Option.map_eq_none_iff.1 declared
        exact .none
      | some d =>
        obtain ⟨d', rfl, bare⟩ := Option.map_eq_some_iff.1 declared
        refine .some ⟨bare, ?_⟩
        rw [(rooted_of_parseDeclaration parsed').source, (rooted_of_parseDeclaration parsed).source]
    · exact Diagnostics.unplaced_eq_of_plain reported (fun d member => (errors_of_parseDeclaration parsed' d member).2)
        fun d member => (errors_of_parseDeclaration parsed d member).2

/-- Literals whose layouts change are parsed to the same declarations but for places, and the same is reported
about them; or the same limit is exceeded. -/
theorem parseFrom_layout {literals literals' : List Literal}
    (same : List.Forall₂ (fun l l' => solidTokens l'.content = solidTokens l.content) literals literals')
    (limits : ParseLimits) (index : Nat) :
    (∃ limit, parseFrom limits index literals = .error limit ∧ parseFrom limits index literals' = .error limit) ∨
    ∃ parsed parsed', parseFrom limits index literals = .ok parsed ∧ parseFrom limits index literals' = .ok parsed' ∧
      List.Forall₂ Declaration.Relaid parsed.declarations parsed'.declarations ∧
      parsed'.diagnostics.unplaced = parsed.diagnostics.unplaced := by
  induction same generalizing index with
  | nil => exact .inr ⟨⟨[], []⟩, ⟨[], []⟩, rfl, rfl, .nil, rfl⟩
  | @cons literal literal' rest rest' first _ ih =>
    rw [parseFrom, parseFrom]
    rcases parseDeclaration_layout first index limits with ⟨limit, run, run'⟩ |
      ⟨result, result', run, run', declared, reported⟩
    · exact .inl ⟨limit, by rw [run]; rfl, by rw [run']; rfl⟩
    · rw [run, run']
      rcases ih (index + 1) with ⟨limit, others, others'⟩ | ⟨more, more', others, others', relaid, reports⟩
      · exact .inl ⟨limit, by rw [others]; rfl, by rw [others']; rfl⟩
      · rw [others, others']
        refine .inr ⟨_, _, rfl, rfl, ?_, ?_⟩
        · dsimp only
          rw [Diagnostics.hasErrors_eq_of_unplaced reported]
          generalize result.1 = d at declared
          generalize result'.1 = d' at declared
          split
          · exact relaid
          · cases declared with
            | none => exact relaid
            | some here => exact .cons here relaid
        · dsimp only
          rw [Diagnostics.unplaced_append, Diagnostics.unplaced_append, reported, reports]

end IsoLiteral
