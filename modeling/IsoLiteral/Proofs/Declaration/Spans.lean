import IsoLiteral.Proofs.Declaration.Clean
import IsoLiteral.Proofs.Syntax.Acceptance
import IsoLiteral.Proofs.Syntax.Lossless
import IsoLiteral.Proofs.Syntax.Ranges
import Mathlib.Data.List.Forall2

/-!
# The places that a declaration records

A declaration records where its names, types, values, directives and selections stand. A name stands where
the text spells it; everything else covers whole tokens and neither starts nor stops with trivia. A part
stands inside what it is a part of, and the parts of a list stand one after the other. This holds of every
declaration that a literal gives, also of one with errors, since it is read off the order of the tree alone:
dropping a broken or repeated part leaves the others in order.
-/

namespace IsoLiteral

/-! ## Places -/

/-- A name that the text spells where it stands, inside a range. -/
structure Name.Placed (text : String) (outer : TextRange) (name : Name) : Prop where
  spells : name.range.Spells text name.text
  inside : name.range.Inside outer

/-- A range that covers whole tokens, of which the first and the last matter, inside another one. -/
structure TextRange.Placed (r : TextRange) (text : String) (outer : TextRange) : Prop where
  covers : r.Covers text
  inside : r.Inside outer

/-- Whatever is recorded for one of the parts stands before whatever is recorded for a later one. -/
def InOrder {α : Type} (ranges : α → List TextRange) (xs : List α) : Prop :=
  xs.Pairwise fun x y => ∀ r ∈ ranges x, ∀ r' ∈ ranges y, r.Before r'

/-- What is recorded for an argument. -/
def Argument.ranges (a : Argument) : List TextRange := [a.name.range, a.value.range]

structure Argument.Placed (text : String) (outer : TextRange) (a : Argument) : Prop where
  name : a.name.Placed text outer
  value : a.value.range.Placed text outer

/-- The arguments of one list. -/
structure Argument.AllPlaced (text : String) (outer : TextRange) (arguments : List Argument) : Prop where
  each : ∀ a ∈ arguments, a.Placed text outer
  order : InOrder Argument.ranges arguments

structure Directive.Placed (text : String) (outer : TextRange) (d : Directive) : Prop where
  range : d.range.Placed text outer
  name : d.name.Placed text d.range
  arguments : Argument.AllPlaced text d.range d.arguments

/-- The directives of one list. -/
structure Directive.AllPlaced (text : String) (outer : TextRange) (directives : List Directive) : Prop where
  each : ∀ d ∈ directives, d.Placed text outer
  order : InOrder (fun d => [d.range]) directives

/-- A selection with everything in it. -/
inductive Selection.Placed (text : String) : TextRange → Selection → Prop
  | intro {outer : TextRange} {s : Selection} (range : s.range.Placed text outer)
    (label : ∀ label ∈ s.label, label.Placed text s.range) (name : s.name.Placed text s.range)
    (arguments : Argument.AllPlaced text s.range s.arguments)
    (directives : Directive.AllPlaced text s.range s.directives)
    (each : ∀ set ∈ s.selectionSet, ∀ inner ∈ set, Placed text s.range inner)
    (order : ∀ set ∈ s.selectionSet, InOrder (fun inner => [inner.range]) set) : Placed text outer s

/-- The selections of one selection set. -/
structure Selection.AllPlaced (text : String) (outer : TextRange) (selections : List Selection) : Prop where
  each : ∀ s ∈ selections, s.Placed text outer
  order : InOrder (fun s => [s.range]) selections

/-- What is recorded for a variable definition. -/
def VariableDefinition.ranges (d : VariableDefinition) : List TextRange :=
  d.name.range :: d.type.range :: d.defaultValue.toList.map PlacedValue.range

structure VariableDefinition.Placed (text : String) (outer : TextRange) (d : VariableDefinition) : Prop where
  name : d.name.Placed text outer
  type : d.type.range.Placed text outer
  default : ∀ value ∈ d.defaultValue, value.range.Placed text outer

/-- The variable definitions of one list. -/
structure VariableDefinition.AllPlaced (text : String) (outer : TextRange)
    (definitions : List VariableDefinition) : Prop where
  each : ∀ d ∈ definitions, d.Placed text outer
  order : InOrder VariableDefinition.ranges definitions

/-- A declaration with everything in it. -/
structure Declaration.Placed (text : String) (d : Declaration) : Prop where
  range : d.range.Placed text ⟨0, text.utf8ByteSize⟩
  parentType : d.parentType.Placed text d.range
  fieldName : d.fieldName.Placed text d.range
  target : ∀ type ∈ d.target, type.range.Placed text d.range
  definitions : VariableDefinition.AllPlaced text d.range d.variableDefinitions
  directives : Directive.AllPlaced text d.range d.directives
  selections : Selection.AllPlaced text d.range d.selections

section Inside

variable {text : String} {outer outer' r : TextRange}

theorem Name.Placed.within {name : Name} (h : name.Placed text outer) (inside : outer.Inside outer') :
    name.Placed text outer' := ⟨h.spells, h.inside.trans inside⟩

theorem TextRange.Placed.within (h : r.Placed text outer) (inside : outer.Inside outer') :
    r.Placed text outer' := ⟨h.covers, h.inside.trans inside⟩

theorem Argument.Placed.within {a : Argument} (h : a.Placed text outer) (inside : outer.Inside outer') :
    a.Placed text outer' := ⟨h.name.within inside, h.value.within inside⟩

theorem Argument.Placed.ranges {a : Argument} (h : a.Placed text outer) : ∀ r ∈ a.ranges, r.Inside outer :=
  List.forall_mem_cons.2 ⟨h.name.inside, List.forall_mem_singleton.2 h.value.inside⟩

theorem Directive.Placed.ranges {d : Directive} (h : d.Placed text outer) : ∀ r ∈ [d.range], r.Inside outer :=
  List.forall_mem_singleton.2 h.range.inside

theorem Directive.Placed.within {d : Directive} (h : d.Placed text outer) (inside : outer.Inside outer') :
    d.Placed text outer' := { h with range := h.range.within inside }

theorem Selection.Placed.within {s : Selection} (h : s.Placed text outer) (inside : outer.Inside outer') :
    s.Placed text outer' := by
  cases h with
  | intro range label name arguments directives each order =>
    exact .intro (range.within inside) label name arguments directives each order

theorem VariableDefinition.Placed.within {d : VariableDefinition} (h : d.Placed text outer)
    (inside : outer.Inside outer') : d.Placed text outer' :=
  ⟨h.name.within inside, h.type.within inside, fun value member => (h.default value member).within inside⟩

theorem VariableDefinition.Placed.ranges {d : VariableDefinition} (h : d.Placed text outer) :
    ∀ r ∈ d.ranges, r.Inside outer := by
  refine List.forall_mem_cons.2 ⟨h.name.inside, List.forall_mem_cons.2 ⟨h.type.inside, fun r recorded => ?_⟩⟩
  obtain ⟨value, member, rfl⟩ := List.mem_map.1 recorded
  exact (h.default value (Option.mem_toList.1 member)).inside

end Inside

theorem forall_of_picked {α β : Type} {picks : α → β → Prop} {xs : List α} {ys : List β}
    (picked : List.SublistForall₂ picks xs ys) : ∀ x ∈ xs, ∃ y ∈ ys, picks x y := by
  induction picked with
  | nil => exact fun _ none => absurd none List.not_mem_nil
  | cons here _ ih =>
    refine List.forall_mem_cons.2 ⟨⟨_, List.mem_cons_self, here⟩, fun x member => ?_⟩
    obtain ⟨y, member, there⟩ := ih x member
    exact ⟨y, List.mem_cons_of_mem _ member, there⟩
  | cons_right _ ih =>
    intro x member
    obtain ⟨y, member, there⟩ := ih x member
    exact ⟨y, List.mem_cons_of_mem _ member, there⟩

/-- What is picked from a list, one thing for each, is in the order of that list. -/
theorem pairwise_of_picked {α β : Type} {picks : α → β → Prop} {xs : List α} {ys : List β}
    (picked : List.SublistForall₂ picks xs ys) {before : β → β → Prop} (order : ys.Pairwise before)
    {precedes : α → α → Prop}
    (implies : ∀ {x x' y y'}, picks x y → picks x' y' → before y y' → precedes x x') : xs.Pairwise precedes := by
  induction picked with
  | nil => exact .nil
  | cons here rest ih =>
    obtain ⟨first, order⟩ := List.pairwise_cons.1 order
    refine List.pairwise_cons.2 ⟨fun x member => ?_, ih order⟩
    obtain ⟨y, member, there⟩ := forall_of_picked rest x member
    exact implies here there (first y member)
  | cons_right _ ih => exact ih (List.pairwise_cons.1 order).2

namespace Lowering

open IsoLiteral.Tree

/-! ## Parts -/

/-- The second part may rely on what the first one returns. -/
theorem Returns.bind {α β : Type} {p : Lower α} {mid : α → Prop} (first : Returns p mid) {q : α → Lower β}
    {post : β → Prop} (rest : ∀ a, mid a → Returns (q a) post) : Returns (p >>= q) post :=
  fun ds => rest _ (first ds) _

theorem Returns.mono {α : Type} {p : Lower α} {post post' : α → Prop} (h : Returns p post)
    (imp : ∀ a, post a → post' a) : Returns p post' := fun ds => imp _ (h ds)

variable {text : String} {source : Nat} {r : TextRange} {children : List Tree}

theorem placed_nameOf {t : Token} (h : Arranged text r children) (member : Tree.token t ∈ children) :
    (nameOf t).Placed text r := ⟨(h.token member).1, (h.token member).2⟩

theorem isPlain_of_isNodeIn {kinds : List SyntaxKind} (other : kinds.contains .declTarget = false) {tree : Tree}
    (here : tree.isNodeIn kinds = true) : tree.IsPlain := by
  cases tree with
  | token t => cases here
  | node kind children =>
    refine ⟨kind, children, rfl, ?_⟩
    rintro rfl
    rw [isNodeIn_node, other] at here
    cases here

/-- A part that is looked for by the kinds of its node. -/
theorem placed_of_find? {kinds : List SyntaxKind} (other : kinds.contains .declTarget = false)
    (h : Arranged text r children) {tree : Tree} (member : tree ∈ children) (here : tree.isNodeIn kinds = true) :
    tree.range.Placed text r := by
  obtain ⟨covers, inside⟩ := h.plain member (isPlain_of_isNodeIn other here)
  exact ⟨covers, inside⟩

theorem placed_typeRefIn? (h : Arranged text r children) :
    ∀ type ∈ typeRefIn? children, type.range.Placed text r := by
  intro type found
  obtain ⟨tree, here, found⟩ := Option.bind_eq_some_iff.1 found
  obtain ⟨expr, -, same⟩ := Option.bind_eq_some_iff.1 found
  cases same
  exact placed_of_find? rfl h (List.mem_of_find?_eq_some here) (List.find?_some here)

theorem returns_placedValue {tree? : Option Tree} (h : ∀ tree ∈ tree?, tree.range.Placed text r) :
    Returns (placedValue source tree?) fun o => ∀ value ∈ o, value.range.Placed text r := by
  cases tree? with
  | none => exact returns_none
  | some tree =>
    refine returns_bind fun value => returns_pure fun placed same => ?_
    obtain ⟨_, -, rfl⟩ := Option.map_eq_some_iff.1 same
    exact h tree rfl

/-! ## Arguments and directives -/

/-- The nodes of one kind, each with its range. -/
theorem arranged_nodesOfKind {kind : SyntaxKind} (plain : kind ≠ .declTarget) (h : Arranged text r children) :
    ∀ inner ∈ nodesOfKind kind children,
      Arranged text (rangeOf inner) inner ∧ (rangeOf inner).Covers text ∧ (rangeOf inner).Inside r :=
  fun _ member => h.node (mem_nodesOfKind member) plain

/-- What is picked from nodes of one kind, placed inside them, is placed inside what they are part of. -/
theorem inOrder_of_picked {α : Type} {ranges : α → List TextRange} (placed : TextRange → α → Prop)
    (within : ∀ a r r', placed r a → r.Inside r' → placed r' a)
    (recorded : ∀ a r, placed r a → ∀ r' ∈ ranges a, r'.Inside r)
    {kind : SyntaxKind} (plain : kind ≠ .declTarget) (h : Arranged text r children) {xs : List α}
    (picked : List.SublistForall₂ (fun a inner => placed (rangeOf inner) a) xs (nodesOfKind kind children)) :
    (∀ a ∈ xs, placed r a) ∧ InOrder ranges xs := by
  constructor
  · intro a member
    obtain ⟨inner, member, here⟩ := forall_of_picked picked a member
    exact within a _ _ here (arranged_nodesOfKind plain h inner member).2.2
  · refine pairwise_of_picked picked (h.pairwise_nodesOfKind plain) ?_
    intro a a' inner inner' here here' before s member s' member'
    exact before.inside (recorded a _ here s member) (recorded a' _ here' s' member')

theorem returns_argumentsOf (seen : List (String × TextRange)) {nodes : List (List Tree)}
    (h : ∀ inner ∈ nodes, Arranged text (rangeOf inner) inner) :
    Returns (argumentsOf source seen nodes) fun arguments =>
      List.SublistForall₂ (fun a inner => a.Placed text (rangeOf inner)) arguments nodes := by
  induction nodes generalizing seen with
  | nil => exact returns_pure .nil
  | cons inner rest ih =>
    obtain ⟨here, others⟩ := List.forall_mem_cons.1 h
    have skipped (seen : List (String × TextRange)) : Returns (argumentsOf source seen rest) fun arguments =>
        List.SublistForall₂ (fun a inner => a.Placed text (rangeOf inner)) arguments (inner :: rest) :=
      fun ds => .cons_right (ih seen others ds)
    rw [argumentsOf]
    split
    · exact skipped seen
    · rename_i t name
      have value : Returns (placedValue source (inner.find? (·.isNodeIn valueKinds))) fun o =>
          ∀ value ∈ o, value.range.Placed text (rangeOf inner) :=
        returns_placedValue fun tree found =>
          placed_of_find? rfl here (List.mem_of_find?_eq_some found) (List.find?_some found)
      refine value.bind fun o placed => ?_
      split
      · exact skipped seen
      · rename_i value
        split
        · exact returns_bind fun _ => skipped seen
        · refine (ih _ others).bind fun arguments picked => returns_pure (.cons ⟨?_, placed value rfl⟩ picked)
          exact placed_nameOf here (mem_of_tokenOfKind? name)

theorem returns_argumentsIn (h : Arranged text r children) :
    Returns (argumentsIn source children) (Argument.AllPlaced text r) := by
  unfold argumentsIn
  split
  · rename_i inner found
    obtain ⟨list, -, inside⟩ := h.node (mem_of_nodeOfKind? found) (by decide)
    have plain : SyntaxKind.argument ≠ .declTarget := by decide
    refine (returns_argumentsOf [] fun node member => (arranged_nodesOfKind plain list node member).1).mono
      fun arguments picked => ?_
    obtain ⟨each, order⟩ := inOrder_of_picked (Argument.Placed text) (fun _ _ _ => Argument.Placed.within)
      (fun _ _ => Argument.Placed.ranges) plain list picked
    exact ⟨fun a member => (each a member).within inside, order⟩
  · exact returns_pure ⟨fun _ none => absurd none List.not_mem_nil, .nil⟩

theorem returns_directivesOf {nodes : List (List Tree)}
    (h : ∀ inner ∈ nodes, Arranged text (rangeOf inner) inner ∧ (rangeOf inner).Covers text) :
    Returns (directivesOf source nodes) fun directives =>
      List.SublistForall₂ (fun d inner => d.Placed text (rangeOf inner)) directives nodes := by
  induction nodes with
  | nil => exact returns_pure .nil
  | cons inner rest ih =>
    obtain ⟨⟨here, covers⟩, others⟩ := List.forall_mem_cons.1 h
    rw [directivesOf]
    split
    · exact fun ds => .cons_right (ih others ds)
    · rename_i t name
      refine (returns_argumentsIn here).bind fun arguments placed => (ih others).bind fun directives picked =>
        returns_pure (.cons ⟨⟨covers, .refl _⟩, ?_, placed⟩ picked)
      exact placed_nameOf here (mem_of_tokenOfKind? name)

theorem returns_directivesIn (h : Arranged text r children) :
    Returns (directivesIn source children) (Directive.AllPlaced text r) := by
  have plain : SyntaxKind.directive ≠ .declTarget := by decide
  have nodes (inner : List Tree) (member : inner ∈ nodesOfKind .directive children) :
      Arranged text (rangeOf inner) inner ∧ (rangeOf inner).Covers text := by
    obtain ⟨here, covers, -⟩ := arranged_nodesOfKind plain h inner member
    exact ⟨here, covers⟩
  refine (returns_directivesOf nodes).mono fun directives picked => ?_
  obtain ⟨each, order⟩ := inOrder_of_picked (Directive.Placed text) (fun _ _ _ => Directive.Placed.within)
    (fun _ _ => Directive.Placed.ranges) plain h picked
  exact ⟨each, order⟩

/-! ## Selections -/

theorem placed_labelIn? (h : Arranged text r children) : ∀ label ∈ labelIn? children, label.Placed text r := by
  intro label found
  obtain ⟨inner, node, found⟩ := Option.bind_eq_some_iff.1 found
  obtain ⟨t, name, same⟩ := Option.bind_eq_some_iff.1 found
  cases same
  obtain ⟨here, -, inside⟩ := h.node (mem_of_nodeOfKind? node) (by decide)
  exact (placed_nameOf here (mem_of_tokenOfKind? name)).within inside

/-- A selection at its tree. -/
structure SelectionAt (text : String) (r : TextRange) (s : Selection) (tree : Tree) : Prop where
  range : s.range = tree.range
  plain : tree.IsPlain
  placed : s.Placed text r

/-- The selections that trees in a row give. -/
theorem allPlaced_of_picked {selections : List Selection} (h : Arranged text r children)
    (picked : List.SublistForall₂ (SelectionAt text r) selections children) :
    Selection.AllPlaced text r selections where
  each s member := by
    obtain ⟨tree, -, here⟩ := forall_of_picked picked s member
    exact here.placed
  order := by
    refine pairwise_of_picked picked h.pairwise fun {s s' tree tree'} here here' before => ?_
    have before := before here.plain here'.plain
    rw [← here.range, ← here'.range] at before
    exact List.forall_mem_singleton.2 (List.forall_mem_singleton.2 before)

mutual
theorem returns_selectionOf (text : String) (source : Nat) : ∀ (tree : Tree) (r : TextRange) (all : List Tree),
    Arranged text r all → tree ∈ all →
      Returns (selectionOf source tree) fun o => ∀ s ∈ o, SelectionAt text r s tree
  | .token t, _, _, _, _ => by rw [selectionOf]; exacts [returns_none, nofun]
  | .node kind children, r, all, h, member => by
    rw [selectionOf.eq_def]
    split
    · rename_i same
      cases same
      split
      · exact returns_none
      · rename_i t name
        obtain ⟨here, covers, inside⟩ := h.node member (by decide)
        refine (returns_argumentsIn here).bind fun arguments args => (returns_directivesIn here).bind
          fun directives dirs => (returns_selectionSetIn text source children _ children here fun _ => id).bind
            fun set sets => returns_pure ?_
        rintro s ⟨⟩
        refine ⟨(range_node _ _).symm, ⟨_, _, rfl, by decide⟩, ?_⟩
        exact .intro ⟨covers, inside⟩ (placed_labelIn? here) (placed_nameOf here (mem_of_tokenOfKind? name)) args
          dirs (fun set found => (sets set found).each) fun set found => (sets set found).order
    · exact returns_none
termination_by structural tree => tree
theorem returns_selectionSetOf (text : String) (source : Nat) : ∀ (tree : Tree) (r : TextRange) (all : List Tree),
    Arranged text r all → tree ∈ all →
      Returns (selectionSetOf source tree) fun o => ∀ set ∈ o, Selection.AllPlaced text r set
  | .token t, _, _, _, _ => by rw [selectionSetOf]; exacts [returns_none, nofun]
  | .node kind children, r, all, h, member => by
    rw [selectionSetOf.eq_def]
    split
    · rename_i same
      cases same
      obtain ⟨here, -, inside⟩ := h.node member (by decide)
      refine (returns_selectionsOf text source [] children _ children here fun _ => id).bind fun selections picked =>
        returns_pure ?_
      rintro set ⟨⟩
      have placed := allPlaced_of_picked here picked
      exact ⟨fun s member => (placed.each s member).within inside, placed.order⟩
    · exact returns_none
termination_by structural tree => tree
theorem returns_selectionSetIn (text : String) (source : Nat) : ∀ (trees : List Tree) (r : TextRange)
    (all : List Tree), Arranged text r all → (∀ tree ∈ trees, tree ∈ all) →
      Returns (selectionSetIn source trees) fun o => ∀ set ∈ o, Selection.AllPlaced text r set
  | [], _, _, _, _ => by rw [selectionSetIn]; exact returns_none
  | tree :: rest, r, all, h, among => by
    rw [selectionSetIn]
    split
    · exact returns_selectionSetOf text source tree r all h (among tree List.mem_cons_self)
    · exact returns_selectionSetIn text source rest r all h fun tree member =>
        among tree (List.mem_cons_of_mem _ member)
termination_by structural trees => trees
theorem returns_selectionsOf (text : String) (source : Nat) (seen : List (String × TextRange)) :
    ∀ (trees : List Tree) (r : TextRange) (all : List Tree), Arranged text r all → (∀ tree ∈ trees, tree ∈ all) →
      Returns (selectionsOf source seen trees) fun selections =>
        List.SublistForall₂ (SelectionAt text r) selections trees
  | [], _, _, _, _ => by rw [selectionsOf]; exact returns_pure .nil
  | tree :: rest, r, all, h, among => by
    have others : ∀ tree ∈ rest, tree ∈ all := fun tree member => among tree (List.mem_cons_of_mem _ member)
    have skipped (seen : List (String × TextRange)) : Returns (selectionsOf source seen rest) fun selections =>
        List.SublistForall₂ (SelectionAt text r) selections (tree :: rest) :=
      fun ds => .cons_right (returns_selectionsOf text source seen rest r all h others ds)
    rw [selectionsOf]
    refine (returns_selectionOf text source tree r all h (among tree List.mem_cons_self)).bind fun o here => ?_
    split
    · exact skipped seen
    · rename_i s
      dsimp only
      split
      · exact returns_bind fun _ => skipped seen
      · exact (returns_selectionsOf text source _ rest r all h others).bind fun selections picked =>
          returns_pure (.cons (here s rfl) picked)
termination_by structural trees => trees
end

/-! ## Declarations -/

theorem placed_defaultIn? (h : Arranged text r children) :
    ∀ tree ∈ defaultIn? children, tree.range.Placed text r := by
  intro tree found
  obtain ⟨first, after, found⟩ := Option.bind_eq_some_iff.1 found
  obtain ⟨here, same⟩ := Option.ite_none_right_eq_some.1 found
  cases same
  exact placed_of_find? rfl h ((List.dropWhile_sublist _).subset (List.mem_of_find?_eq_some after)) here

theorem placed_variableIn? (h : Arranged text r children) {t : Token} {range : TextRange}
    (found : variableIn? children = some (t, range)) : (nameOf t).Placed text r := by
  obtain ⟨inner, node, found⟩ := Option.bind_eq_some_iff.1 found
  obtain ⟨u, name, same⟩ := Option.bind_eq_some_iff.1 found
  cases same
  obtain ⟨here, -, inside⟩ := h.node (mem_of_nodeOfKind? node) (by decide)
  exact (placed_nameOf here (mem_of_tokenOfKind? name)).within inside

theorem returns_variablesOf (seen : List (String × TextRange)) {nodes : List (List Tree)}
    (h : ∀ inner ∈ nodes, Arranged text (rangeOf inner) inner) :
    Returns (variablesOf source seen nodes) fun definitions =>
      List.SublistForall₂ (fun d inner => d.Placed text (rangeOf inner)) definitions nodes := by
  induction nodes generalizing seen with
  | nil => exact returns_pure .nil
  | cons inner rest ih =>
    obtain ⟨here, others⟩ := List.forall_mem_cons.1 h
    have skipped (seen : List (String × TextRange)) : Returns (variablesOf source seen rest) fun definitions =>
        List.SublistForall₂ (fun d inner => d.Placed text (rangeOf inner)) definitions (inner :: rest) :=
      fun ds => .cons_right (ih seen others ds)
    rw [variablesOf.eq_def]
    dsimp only
    split
    · rename_i t range type name typed
      split
      · exact returns_bind fun _ => skipped seen
      · refine (returns_placedValue (placed_defaultIn? here)).bind fun value placed =>
          (ih _ others).bind fun definitions picked => returns_pure (.cons ⟨?_, ?_, placed⟩ picked)
        · exact placed_variableIn? here name
        · exact placed_typeRefIn? here type typed
    · exact skipped seen

theorem returns_variablesIn (h : Arranged text r children) :
    Returns (variablesIn source children) (VariableDefinition.AllPlaced text r) := by
  unfold variablesIn
  split
  · rename_i inner found
    obtain ⟨list, -, inside⟩ := h.node (mem_of_nodeOfKind? found) (by decide)
    have plain : SyntaxKind.variableDef ≠ .declTarget := by decide
    refine (returns_variablesOf [] fun node member => (arranged_nodesOfKind plain list node member).1).mono
      fun definitions picked => ?_
    obtain ⟨each, order⟩ := inOrder_of_picked (VariableDefinition.Placed text)
      (fun _ _ _ => VariableDefinition.Placed.within) (fun _ _ => VariableDefinition.Placed.ranges) plain list picked
    exact ⟨fun d member => (each d member).within inside, order⟩
  · exact returns_pure ⟨fun _ none => absurd none List.not_mem_nil, .nil⟩

/-- The target has no place of its own, since trivia may stand before it, but its names do. -/
theorem placed_targetIn? (h : Arranged text r children) {names : Name × Name}
    (found : targetIn? children = some names) : names.1.Placed text r ∧ names.2.Placed text r := by
  obtain ⟨inner, node, found⟩ := Option.bind_eq_some_iff.1 found
  obtain ⟨type, first, found⟩ := Option.bind_eq_some_iff.1 found
  obtain ⟨field, second, same⟩ := Option.bind_eq_some_iff.1 found
  cases same
  obtain ⟨r', here, inside⟩ := h.children (mem_of_nodeOfKind? node)
  refine ⟨(placed_nameOf here (mem_of_tokenOfKind? first)).within inside, ?_⟩
  have direct := (List.dropWhile_sublist _).subset (List.mem_of_find?_eq_some second)
  exact (placed_nameOf here (mem_of_directTokens direct)).within inside

theorem returns_selectingDeclaration_placed {kind : DeclarationKind} {names : Name × Name} {target : Option TypeRef}
    {directives : List Directive} (here : Arranged text (rangeOf children) children)
    (range : (rangeOf children).Placed text ⟨0, text.utf8ByteSize⟩)
    (first : names.1.Placed text (rangeOf children)) (second : names.2.Placed text (rangeOf children))
    (type : ∀ type ∈ target, type.range.Placed text (rangeOf children))
    (dirs : Directive.AllPlaced text (rangeOf children) directives) :
    Returns (selectingDeclaration source kind names target directives children) fun o => ∀ d ∈ o, d.Placed text := by
  unfold selectingDeclaration
  refine (returns_selectionSetIn text source children _ children here fun _ => id).bind fun set placed => ?_
  split
  · exact returns_none
  · refine (returns_variablesIn here).bind fun definitions vars => returns_pure ?_
    rintro d ⟨⟩
    exact ⟨range, first, second, type, vars, dirs, placed _ rfl⟩

theorem returns_declarationOf {kind : DeclarationKind} (here : Arranged text (rangeOf children) children)
    (range : (rangeOf children).Placed text ⟨0, text.utf8ByteSize⟩) :
    Returns (declarationOf source kind children) fun o => ∀ d ∈ o, d.Placed text := by
  unfold declarationOf
  split
  · exact returns_none
  · rename_i names found
    obtain ⟨first, second⟩ := placed_targetIn? here found
    refine (returns_directivesIn here).bind fun directives dirs => ?_
    split
    · exact returns_selectingDeclaration_placed here range first second (fun _ none => nomatch none) dirs
    · split
      · rename_i target typed
        refine returns_selectingDeclaration_placed here range first second ?_ dirs
        rintro type ⟨⟩
        exact placed_typeRefIn? here target typed
      · exact returns_none
    · refine returns_pure ?_
      rintro d ⟨⟩
      exact
        { range := range
          parentType := first
          fieldName := second
          target := fun _ none => nomatch none
          definitions := ⟨fun _ none => absurd none List.not_mem_nil, .nil⟩
          directives := dirs
          selections := ⟨fun _ none => absurd none List.not_mem_nil, .nil⟩ }

theorem returns_declarationIn_placed (h : Arranged text ⟨0, text.utf8ByteSize⟩ children) :
    Returns (declarationIn source (.node .root children)) fun o => ∀ d ∈ o, d.Placed text := by
  unfold declarationIn
  split
  · exact returns_none
  · rename_i tree found
    split
    · rename_i kind form
      cases tree with
      | token t => cases form
      | node k inner =>
        have plain : k ≠ .declTarget := by
          rintro rfl
          cases form
        obtain ⟨here, covers, inside⟩ := h.node (List.mem_of_find?_eq_some found) plain
        exact returns_declarationOf here ⟨covers, inside⟩
    · exact returns_none

end Lowering

open IsoLiteral.Parser

/-- The leaves of a whole tree stand at the whole text. -/
theorem arranged_finalState {text : String} {source : Nat} {limits : ParseLimits}
    (within : (finalState text source limits).exceeded = none) :
    Tree.Arranged text ⟨0, text.utf8ByteSize⟩ (finalState text source limits).built where
  stand := ⟨[], lex text, [], (List.append_nil _).symm, leaves_finalState within, rfl, (partition_lex text).contiguous⟩
  trimmed := trimmed_finalState text source limits

/-- The places in a declaration are faithful, also when errors stand beside it. The text spells every name where
the name stands, every other range covers whole tokens that neither start nor end with trivia, every part
stands inside what it is a part of, and the parts of every list stand one after the other. -/
theorem parseDeclaration_placed {text : String} {source : Nat} {limits : ParseLimits} {d : Declaration}
    {ds : Diagnostics} (run : parseDeclaration text source limits = .ok (some d, ds)) : d.Placed text := by
  obtain ⟨within, lowered⟩ := parseDeclaration_eq_ok.1 run
  have placed : ∀ d' ∈ (Lowering.declarationIn source (.node .root (finalState text source limits).built)
      (finalState text source limits).diagnostics).1, d'.Placed text :=
    Lowering.returns_declarationIn_placed (arranged_finalState within) _
  rw [lowered] at placed
  exact placed d rfl

/-- A literal with a variable that has no type, a stray character and a field that is selected twice. -/
def faultyLiteral : String := "field Q.f($x: [Int]! = 3, $y) @e(b: 1) \x7b a: b(c: [§ 2]) # a\n , a d \x7d"

/-- Of the faulty literal one variable definition and two selections are left, each in its place. -/
theorem parseDeclaration_placed_faulty :
    ∃ d ds, parseDeclaration faultyLiteral 0 ⟨none, none⟩ = .ok (some d, ds) ∧ ds ≠ [] ∧
      d.selections.map Selection.range = [⟨41, 56⟩, ⟨66, 67⟩] ∧ d.Placed faultyLiteral := by
  -- one evaluation of the literal gives all three
  obtain ⟨within, left, reported⟩ : (finalState faultyLiteral 0 ⟨none, none⟩).exceeded = none ∧
      (Lowering.declarationIn 0 (.node .root (finalState faultyLiteral 0 ⟨none, none⟩).built)
        (finalState faultyLiteral 0 ⟨none, none⟩).diagnostics).1.map (·.selections.map Selection.range) =
          some [⟨41, 56⟩, ⟨66, 67⟩] ∧
      (Lowering.declarationIn 0 (.node .root (finalState faultyLiteral 0 ⟨none, none⟩).built)
        (finalState faultyLiteral 0 ⟨none, none⟩).diagnostics).2 ≠ [] := by decide +kernel
  generalize lowered : Lowering.declarationIn 0 (.node .root (finalState faultyLiteral 0 ⟨none, none⟩).built)
      (finalState faultyLiteral 0 ⟨none, none⟩).diagnostics = outcome at left reported
  obtain ⟨found, ds⟩ := outcome
  obtain ⟨d, rfl, selections⟩ := Option.map_eq_some_iff.1 left
  have parsed := parseDeclaration_eq_ok.2 ⟨within, lowered⟩
  exact ⟨d, ds, parsed, reported, selections, parseDeclaration_placed parsed⟩

end IsoLiteral
