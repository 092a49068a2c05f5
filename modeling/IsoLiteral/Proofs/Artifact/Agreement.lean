import IsoLiteral.Artifact.Field
import IsoLiteral.Proofs.Artifact.Reader
import Mathlib.Data.List.Forall2

/-!
# Reader tree and parameter agree

The reader tree of a field, the shape of its resolver's parameter and the places that may be written through
it are made from the same selections one by one. They are compared place by place, a place being given by the
index of each item on the way to it. At every place there is a selection, a node and a field of the shape, or
there is none of them, and what is there has one name and is either a record everywhere or nowhere. The
wrappers around a shape spell the type of the selected field.
-/

namespace IsoLiteral

/-! ## Places -/

section Places

variable {α : Type}

/-- The item at a place: at an index, or at a place among the children of the item at an index. -/
def itemAt? (children : α → List α) : List α → Nat → List Nat → Option α
  | items, i, [] => items[i]?
  | items, i, j :: rest => items[i]?.bind fun item => itemAt? children (children item) j rest

end Places

/-- What is selected of the record that a selection leads to. -/
def ResolvedSelection.nested : ResolvedSelection → List ResolvedSelection
  | .linked _ _ _ _ selections | .pointer _ _ selections => selections
  | .scalar _ _ | .resolver _ _ _ | .link _ => []

namespace ReaderNode

/-- The response name of what a node reads. -/
def label : ReaderNode → String
  | .scalar label _ _ _ _ | .linked label _ _ _ _ _ _ _ _ | .resolver label _ _ _ | .link label
  | .loadable label _ _ _ _ => label

/-- The key of the place that a node reads. -/
def storeKey? : ReaderNode → Option String
  | .scalar _ _ _ storeKey _ | .linked _ _ _ storeKey _ _ _ _ _ => some storeKey
  | .resolver _ _ _ _ | .link _ | .loadable _ _ _ _ _ => none

/-- Whether the place that a node reads may be written. -/
def isUpdatable : ReaderNode → Bool
  | .scalar _ _ _ _ isUpdatable | .linked _ _ _ _ _ _ isUpdatable _ _ => isUpdatable
  | .resolver _ _ _ _ | .link _ | .loadable _ _ _ _ _ => false

/-- What a node reads of the record that it leads to, if it leads to one. -/
def record? : ReaderNode → Option (List ReaderNode)
  | .linked _ _ _ _ _ _ _ _ selections => some selections
  | .scalar _ _ _ _ _ | .resolver _ _ _ _ | .link _ | .loadable _ _ _ _ _ => none

/-- The nodes below a node. -/
def children (n : ReaderNode) : List ReaderNode := n.record?.getD []

mutual
/-- A node and those below it in preorder, each with the response names that lead to it. -/
def walk (path : List String) : ReaderNode → List (List String × ReaderNode)
  | .linked label fieldName arguments storeKey condition typeCondition isUpdatable refetchQuery selections =>
    (path ++ [label], .linked label fieldName arguments storeKey condition typeCondition isUpdatable
      refetchQuery selections) :: walkAll (path ++ [label]) selections
  | n => [(path ++ [n.label], n)]
termination_by structural n => n
/-- The nodes of a tree in preorder, each with the response names that lead to it. -/
def walkAll (path : List String) : List ReaderNode → List (List String × ReaderNode)
  | [] => []
  | n :: rest => n.walk path ++ walkAll path rest
termination_by structural ns => ns
end

end ReaderNode

/-! ## Wrappers -/

/-- A layer around the shape of a value. -/
inductive Wrapper where
  | nullable
  | list
deriving DecidableEq, Repr

namespace ParameterType

/-- The layers around a shape, from the outside. -/
def wrappers : ParameterType → List Wrapper
  | .nullable inner => .nullable :: inner.wrappers
  | .list item => .list :: item.wrappers
  | _ => []

/-- The fields of the record inside of all layers, if there is one. -/
def record? : ParameterType → Option (List ParameterField)
  | .nullable inner => inner.record?
  | .list item => item.record?
  | .object fields => some fields
  | _ => none

end ParameterType

/-- The fields of the record that a field of a shape leads to. -/
def ParameterField.children (f : ParameterField) : List ParameterField := f.type.record?.getD []

/-- The layers that spell a type: a name or list may be null, unless there is a `!` behind it. -/
inductive Spelled : TypeExpr → List Wrapper → Prop where
  | named {name : String} : Spelled (.named name) [.nullable]
  | list {item : TypeExpr} {wrappers : List Wrapper} :
    Spelled item wrappers → Spelled (.list item) (.nullable :: .list :: wrappers)
  | nonNull {inner : TypeExpr} {wrappers : List Wrapper} :
    Spelled inner (.nullable :: wrappers) → Spelled (.nonNull inner) wrappers
  | again {inner : TypeExpr} {wrappers : List Wrapper} :
    Spelled (.nonNull inner) wrappers → Spelled (.nonNull (.nonNull inner)) wrappers

variable {leaf : ParameterType}

mutual
theorem spelled_wrapLeaf (bare : leaf.wrappers = []) (type : TypeExpr) :
    Spelled type (wrapLeaf leaf type).wrappers := by
  cases type with
  | named name =>
    rw [wrapLeaf, ParameterType.wrappers, bare]
    exact .named
  | list item =>
    rw [wrapLeaf, ParameterType.wrappers, ParameterType.wrappers]
    exact (spelled_wrapLeaf bare item).list
  | nonNull inner =>
    rw [wrapLeaf]
    exact spelled_wrapNonNull bare inner
theorem spelled_wrapNonNull (bare : leaf.wrappers = []) (type : TypeExpr) :
    Spelled (.nonNull type) (wrapNonNull leaf type).wrappers := by
  cases type with
  | named name =>
    rw [wrapNonNull, bare]
    exact .nonNull .named
  | list item =>
    rw [wrapNonNull, ParameterType.wrappers]
    exact .nonNull (spelled_wrapLeaf bare item).list
  | nonNull inner =>
    rw [wrapNonNull]
    exact (spelled_wrapNonNull bare inner).again
end

mutual
theorem record?_wrapLeaf (leaf : ParameterType) (type : TypeExpr) : (wrapLeaf leaf type).record? = leaf.record? := by
  cases type with
  | named name => rw [wrapLeaf, ParameterType.record?]
  | list item => rw [wrapLeaf, ParameterType.record?, ParameterType.record?, record?_wrapLeaf leaf item]
  | nonNull inner => rw [wrapLeaf, record?_wrapNonNull leaf inner]
theorem record?_wrapNonNull (leaf : ParameterType) (type : TypeExpr) :
    (wrapNonNull leaf type).record? = leaf.record? := by
  cases type with
  | named name => rw [wrapNonNull]
  | list item => rw [wrapNonNull, ParameterType.record?, record?_wrapLeaf leaf item]
  | nonNull inner => rw [wrapNonNull, record?_wrapNonNull leaf inner]
end

theorem record?_wrapOptional (leaf : ParameterType) (type : Option TypeExpr) :
    (wrapOptional leaf type).record? = leaf.record? := by
  cases type with
  | none => rfl
  | some type => exact record?_wrapLeaf leaf type

/-- The layers of an optional type: none where there is no type. -/
def SpelledOptional (wrappers : List Wrapper) : Option TypeExpr → Prop
  | none => wrappers = []
  | some type => Spelled type wrappers

theorem spelledOptional_wrapOptional (bare : leaf.wrappers = []) (type : Option TypeExpr) :
    SpelledOptional (wrapOptional leaf type).wrappers type := by
  cases type with
  | none => exact bare
  | some type => exact spelled_wrapLeaf bare type

theorem leafShape_cases (g : SchemaGraph) (name : String) :
    (∃ values, g.leafShape name = .enum values) ∨ g.leafShape name = .scalar name := by
  unfold SchemaGraph.leafShape
  split
  · split
    · exact .inl ⟨_, rfl⟩
    · exact .inr rfl
  · exact .inr rfl

theorem wrappers_leafShape (g : SchemaGraph) (name : String) : (g.leafShape name).wrappers = [] := by
  obtain ⟨values, same⟩ | same := leafShape_cases g name
  all_goals rw [same]; rfl

theorem record?_leafShape (g : SchemaGraph) (name : String) : (g.leafShape name).record? = none := by
  obtain ⟨values, same⟩ | same := leafShape_cases g name
  all_goals rw [same]; rfl

/-! ## One selection -/

/-- Whether a selection yields data of the selected field, so that its shape has the layers of the field's
type. A resolver hands over what it returns, and a link is no data. -/
def ResolvedSelection.yieldsData : ResolvedSelection → Bool
  | .scalar _ _ | .linked _ _ _ _ _ | .pointer _ _ _ => true
  | .resolver _ _ _ | .link _ => false

/-- What a selection has in common with the node that reads it and the field of the shape that it yields. -/
structure Corresponds (g : SchemaGraph) (s : ResolvedSelection) (n : ReaderNode) (f : ParameterField) : Prop where
  label : n.label = s.head.responseName
  name : f.name = s.head.responseName
  updatable : n.isUpdatable = f.updatable
  record : n.record?.isSome = f.type.record?.isSome
  spelled : SpelledOptional f.type.wrappers (if s.yieldsData then (g.field s.head.field).type else none)

/-- The field of the shape that a selection yields. -/
def shapeField (g : SchemaGraph) (s : ResolvedSelection) : ParameterField :=
  ⟨s.head.responseName, selectionShape g s, s.isUpdatable⟩

theorem corresponds (g : SchemaGraph) (next : Nat) (s : ResolvedSelection) :
    Corresponds g s (readerNode g next s).1 (shapeField g s) := by
  cases s with
  | scalar head updatable =>
    refine ⟨rfl, rfl, rfl, ?_, ?_⟩
    · rw [shapeField, selectionShape, record?_wrapOptional, record?_leafShape]
      rfl
    · rw [shapeField, selectionShape]
      exact spelledOptional_wrapOptional (wrappers_leafShape _ _) _
  | linked head target inlineFragment updatable nested =>
    refine ⟨rfl, rfl, rfl, ?_, ?_⟩
    · rw [shapeField, selectionShape, record?_wrapOptional]
      rfl
    · rw [shapeField, selectionShape]
      exact spelledOptional_wrapOptional rfl _
  | pointer head target nested =>
    refine ⟨rfl, rfl, rfl, ?_, ?_⟩
    · rw [shapeField, selectionShape, record?_wrapOptional]
      rfl
    · rw [shapeField, selectionShape]
      exact spelledOptional_wrapOptional rfl _
  | resolver head kind loadable => cases loadable <;> cases kind <;> exact ⟨rfl, rfl, rfl, rfl, rfl⟩
  | link head => exact ⟨rfl, rfl, rfl, rfl, rfl⟩

/-- What is selected of a record is read below the node and is part of the shape below the field. -/
theorem children_readerNode (g : SchemaGraph) (next : Nat) (s : ResolvedSelection) :
    ∃ after, (readerNode g next s).1.children = (readerNodes g after s.nested).1 := by
  cases s with
  | scalar head updatable => exact ⟨next, rfl⟩
  | linked head target inlineFragment updatable nested => exact ⟨next, rfl⟩
  | pointer head target nested => exact ⟨next + 1, rfl⟩
  | resolver head kind loadable => cases loadable <;> exact ⟨next, rfl⟩
  | link head => exact ⟨next, rfl⟩

theorem children_shapeField (g : SchemaGraph) (s : ResolvedSelection) :
    (shapeField g s).children = selectionShapes g s.nested := by
  rw [ParameterField.children, shapeField]
  cases s with
  | scalar head updatable =>
    rw [selectionShape, record?_wrapOptional, record?_leafShape]
    rfl
  | linked head target inlineFragment updatable nested =>
    rw [selectionShape, record?_wrapOptional]
    rfl
  | pointer head target nested =>
    rw [selectionShape, record?_wrapOptional]
    rfl
  | resolver head kind loadable => cases loadable <;> cases kind <;> rfl
  | link head => rfl

/-! ## Every place -/

/-- What is at one place: a selection, a node and a field that correspond, or nothing. -/
inductive CorrespondAt (g : SchemaGraph) :
    Option ResolvedSelection → Option ReaderNode → Option ParameterField → Prop where
  | none : CorrespondAt g none none none
  | some {s : ResolvedSelection} {n : ReaderNode} {f : ParameterField} :
    Corresponds g s n f → CorrespondAt g (some s) (some n) (some f)

/-- At an index there is a selection with its node and its field, or nothing. -/
theorem item_cases (g : SchemaGraph) (i : Nat) : ∀ (next : Nat) (selections : List ResolvedSelection),
    (selections[i]? = none ∧ (readerNodes g next selections).1[i]? = none ∧ (selectionShapes g selections)[i]? = none) ∨
    ∃ s number, selections[i]? = some s ∧ (readerNodes g next selections).1[i]? = some (readerNode g number s).1 ∧
      (selectionShapes g selections)[i]? = some (shapeField g s) := by
  induction i with
  | zero =>
    intro next selections
    cases selections with
    | nil => exact .inl ⟨rfl, rfl, rfl⟩
    | cons s rest => exact .inr ⟨s, next, rfl, rfl, rfl⟩
  | succ i ih =>
    intro next selections
    cases selections with
    | nil => exact .inl ⟨rfl, rfl, rfl⟩
    | cons s rest => exact ih (readerNode g next s).2 rest

/-- At every place there is a selection with its node and its field, or nothing. By induction on the place. -/
theorem correspondAt_place (g : SchemaGraph) (path : List Nat) : ∀ (i next : Nat) (selections : List ResolvedSelection),
    CorrespondAt g (itemAt? ResolvedSelection.nested selections i path)
      (itemAt? ReaderNode.children (readerNodes g next selections).1 i path)
      (itemAt? ParameterField.children (selectionShapes g selections) i path) := by
  induction path with
  | nil =>
    intro i next selections
    rw [itemAt?, itemAt?, itemAt?]
    obtain ⟨noSelection, noNode, noField⟩ | ⟨s, number, isSelection, isNode, isField⟩ := item_cases g i next selections
    · rw [noSelection, noNode, noField]
      exact .none
    · rw [isSelection, isNode, isField]
      exact .some (corresponds g number s)
  | cons j rest ih =>
    intro i next selections
    rw [itemAt?, itemAt?, itemAt?]
    obtain ⟨noSelection, noNode, noField⟩ | ⟨s, number, isSelection, isNode, isField⟩ := item_cases g i next selections
    · rw [noSelection, noNode, noField]
      exact .none
    · obtain ⟨after, below⟩ := children_readerNode g number s
      rw [isSelection, isNode, isField, Option.bind_some, Option.bind_some, Option.bind_some, below,
        children_shapeField]
      exact ih j after s.nested

/-! ## Places that may be written -/

namespace ReaderNode

/-- The places of nodes that may be written, with their keys. -/
def updatables (entries : List (List String × ReaderNode)) : List (List String × Option String) :=
  (entries.filter (·.2.isUpdatable)).map fun (path, n) => (path, n.storeKey?)

theorem updatables_append (entries others : List (List String × ReaderNode)) :
    updatables (entries ++ others) = updatables entries ++ updatables others := by
  rw [updatables, List.filter_append, List.map_append, updatables, updatables]

end ReaderNode

/-- A place that may be written, as a path and a key. -/
def UpdatableLocation.entry (l : UpdatableLocation) : List String × Option String := (l.path, some l.storeKey)

mutual
theorem entries_updatableLocations (g : SchemaGraph) (next : Nat) (path : List String) (s : ResolvedSelection) :
    (updatableLocations path s).map UpdatableLocation.entry =
      ReaderNode.updatables ((readerNode g next s).1.walk path) := by
  cases s with
  | scalar head updatable => cases updatable <;> rfl
  | linked head target inlineFragment updatable nested =>
    have inside := entries_updatableLocationsIn g next (path ++ [head.responseName]) nested
    rw [updatableLocations, readerNode, ReaderNode.walk, List.map_append, inside]
    cases updatable <;> rfl
  | pointer head target nested =>
    have inside := entries_updatableLocationsIn g (next + 1) (path ++ [head.responseName]) nested
    rw [updatableLocations, readerNode, ReaderNode.walk, inside]
    rfl
  | resolver head kind loadable => cases loadable <;> rfl
  | link head => rfl
/-- The places that may be written through selections are those of the nodes that read them, in preorder. -/
theorem entries_updatableLocationsIn (g : SchemaGraph) (next : Nat) (path : List String)
    (selections : List ResolvedSelection) :
    (updatableLocationsIn path selections).map UpdatableLocation.entry =
      ReaderNode.updatables (ReaderNode.walkAll path (readerNodes g next selections).1) := by
  cases selections with
  | nil => rfl
  | cons s rest =>
    rw [updatableLocationsIn, readerNodes, ReaderNode.walkAll, List.map_append, ReaderNode.updatables_append,
      entries_updatableLocations g next path s, entries_updatableLocationsIn g (readerNode g next s).2 path rest]
end

/-- There is a descriptor when some node may be written, and its places are those of these nodes. -/
theorem updatableDescriptor_eq (g : SchemaGraph) (selections : List ResolvedSelection) :
    (updatableDescriptor g selections).isNone =
        (ReaderNode.walkAll [] (readerTree g selections)).all (!·.2.isUpdatable) ∧
      ((updatableDescriptor g selections).getD []).map UpdatableLocation.entry =
        ReaderNode.updatables (ReaderNode.walkAll [] (readerTree g selections)) := by
  have entries := entries_updatableLocationsIn g 0 [] selections
  rw [updatableDescriptor_eq_locations, readerTree_eq]
  generalize ReaderNode.walkAll [] (readerNodes g 0 selections).1 = nodes at entries ⊢
  cases places : updatableLocationsIn [] selections with
  | nil =>
    rw [places] at entries
    refine ⟨?_, entries⟩
    have unwritten := List.filter_eq_nil_iff.1 (List.map_eq_nil_iff.1 entries.symm)
    refine (List.all_eq_true.2 fun entry among => ?_).symm
    rw [Bool.not_eq_true', ← Bool.not_eq_true]
    exact unwritten entry among
  | cons place more =>
    rw [places] at entries
    refine ⟨?_, entries⟩
    have written : place.entry ∈ ReaderNode.updatables nodes := entries ▸ List.mem_cons_self
    obtain ⟨⟨path, n⟩, among, -⟩ := List.mem_map.1 written
    obtain ⟨member, updatable⟩ := List.mem_filter.1 among
    refine (List.all_eq_false.2 ⟨(path, n), member, ?_⟩).symm
    simpa using updatable

/-- **Reader tree, parameter and descriptor agree.** At every place the reader tree and the parameter of a
selection set have a node and a field for the same selection, or neither has anything: both have the
selection's response name, both or neither may be written, both or neither lead to a record, and the layers
around the field's shape spell the type of the selected field. There is no descriptor exactly when no node may
be written; else it lists, in preorder, each node that may be, with the response names that lead to it and its
key. -/
theorem readerTree_agrees (g : SchemaGraph) (id : ArtifactId) (selections : List ResolvedSelection) :
    (∀ (i : Nat) (path : List Nat),
      CorrespondAt g (itemAt? ResolvedSelection.nested selections i path)
        (itemAt? ReaderNode.children (readerTree g selections) i path)
        (itemAt? ParameterField.children (parameterShape g id selections).fields i path)) ∧
    (updatableDescriptor g selections).isNone =
      (ReaderNode.walkAll [] (readerTree g selections)).all (!·.2.isUpdatable) ∧
    ((updatableDescriptor g selections).getD []).map UpdatableLocation.entry =
      ReaderNode.updatables (ReaderNode.walkAll [] (readerTree g selections)) :=
  ⟨fun i path => readerTree_eq g selections ▸ correspondAt_place g path i 0 selections,
    updatableDescriptor_eq g selections⟩

end IsoLiteral
