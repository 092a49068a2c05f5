import IsoLiteral.Artifact.Reader

/-!
# What the walk over a field's selections makes

The walk hands out numbers, keeps a path and notes places on its way. Taken apart, the tree that it makes depends
on its state only through the next number, and the places that it notes only through the path; it leaves the path
as it was. So the tree and the places are two recursions over the selections.
-/

namespace IsoLiteral

mutual
/-- The node that reads a selection, with `next` for the number of its refetch query; and the number
after the last one used. -/
def readerNode (g : SchemaGraph) (next : Nat) : ResolvedSelection → ReaderNode × Nat
  | .scalar head updatable =>
    (.scalar head.responseName head.fieldName (Value.toArguments head.arguments) head.storeKey
      updatable, next)
  | .linked head target inlineFragment updatable nested =>
    let (selections, after) := readerNodes g next nested
    (.linked head.responseName head.fieldName (Value.toArguments head.arguments) head.storeKey none
      (if inlineFragment then some (g.typeName target) else none) updatable none selections, after)
  | .pointer head _ nested =>
    let (selections, after) := readerNodes g (next + 1) nested
    (.linked head.responseName head.fieldName (Value.toArguments head.arguments) head.storeKey
      (some (g.readerId head.field .eager)) none false (some next) selections, after)
  | .resolver head kind none =>
    let refetches := kind = .refetchAction
    (.resolver head.responseName (Value.toArguments head.arguments) (g.readerId head.field kind)
      (if refetches then some next else none), if refetches then next + 1 else next)
  | .resolver head _ (some _) =>
    (.loadable head.responseName head.fieldName (Value.toArguments head.arguments)
      (g.identityNodes (g.field head.field).parent)
      ⟨g.typeName (g.field head.field).parent, head.fieldName, .entrypoint⟩, next)
  | .link head => (.link head.responseName, next)
termination_by structural s => s
/-- The nodes that read selections, and the number after the last refetch query. -/
def readerNodes (g : SchemaGraph) (next : Nat) : List ResolvedSelection → List ReaderNode × Nat
  | [] => ([], next)
  | s :: rest =>
    let (node, after) := readerNode g next s
    let (nodes, last) := readerNodes g after rest
    (node :: nodes, last)
termination_by structural ss => ss
end

mutual
/-- The places that may be written through a selection below a path. -/
def updatableLocations (path : List String) : ResolvedSelection → List UpdatableLocation
  | .scalar head updatable =>
    if updatable then [⟨path ++ [head.responseName], head.storeKey⟩] else []
  | .linked head _ _ updatable nested =>
    let here := path ++ [head.responseName]
    (if updatable then [⟨here, head.storeKey⟩] else []) ++ updatableLocationsIn here nested
  | .pointer head _ nested => updatableLocationsIn (path ++ [head.responseName]) nested
  | .resolver _ _ _ | .link _ => []
termination_by structural s => s
/-- The places that may be written through selections below a path. -/
def updatableLocationsIn (path : List String) : List ResolvedSelection → List UpdatableLocation
  | [] => []
  | s :: rest => updatableLocations path s ++ updatableLocationsIn path rest
termination_by structural ss => ss
end

namespace ReaderWalk

theorem run_bind {α β : Type} (walk : ReaderWalk α) (next : α → ReaderWalk β) (state : ReaderState) :
    (walk >>= next).run state = (next (walk.run state).1).run (walk.run state).2 := rfl

/-- Below a selection the walk has its response name on the path, and afterwards the path is as before. -/
theorem run_nested {α : Type} (head : SelectionHead) (walk : ReaderWalk α) (state : ReaderState) :
    (nested head walk).run state =
      let (result, after) := walk.run { state with path := state.path ++ [head.responseName] }
      (result, { after with path := after.path.dropLast }) := rfl

theorem run_nextRefetchIf (needed : Bool) (state : ReaderState) :
    (nextRefetchIf needed).run state = (if needed then some state.refetchCount else none,
      { state with refetchCount := if needed then state.refetchCount + 1 else state.refetchCount }) := by
  cases needed <;> rfl

theorem run_markIf (updatable : Bool) (head : SelectionHead) (state : ReaderState) :
    (markIf updatable head).run state = ((), { state with
      updatable := state.updatable ++
        if updatable then [⟨state.path ++ [head.responseName], head.storeKey⟩] else [] }) := by
  cases updatable with
  | true => rfl
  | false => rw [if_neg Bool.false_ne_true, List.append_nil]; rfl

mutual
theorem run_selection (g : SchemaGraph) (state : ReaderState) (s : ResolvedSelection) :
    (selection g s).run state = ((readerNode g state.refetchCount s).1,
      ⟨(readerNode g state.refetchCount s).2, state.path,
        state.updatable ++ updatableLocations state.path s⟩) := by
  cases s with
  | scalar head updatable =>
    rw [selection, run_bind, run_markIf, readerNode, updatableLocations]
    rfl
  | linked head target inlineFragment updatable selections =>
    rw [selection, run_bind, run_markIf, run_bind, run_nested, run_selectionSet, readerNode, updatableLocations,
      ← List.append_assoc]
    simp only [List.dropLast_concat]
    rfl
  | pointer head target selections =>
    have number : nextRefetch.run state =
      (state.refetchCount, { state with refetchCount := state.refetchCount + 1 }) := rfl
    rw [selection, run_bind, number, run_bind, run_nested, run_selectionSet, readerNode, updatableLocations]
    simp only [List.dropLast_concat]
    rfl
  | resolver head kind loadable =>
    rw [updatableLocations, List.append_nil]
    cases loadable with
    | none =>
      rw [selection, run_bind, run_nextRefetchIf, readerNode]
      simp only [decide_eq_true_eq]
      rfl
    | some options => rw [selection, readerNode]; rfl
  | link head => rw [selection, readerNode, updatableLocations, List.append_nil]; rfl
/-- What the walk through selections makes and keeps. -/
theorem run_selectionSet (g : SchemaGraph) (state : ReaderState) (selections : List ResolvedSelection) :
    (selectionSet g selections).run state = ((readerNodes g state.refetchCount selections).1,
      ⟨(readerNodes g state.refetchCount selections).2, state.path,
        state.updatable ++ updatableLocationsIn state.path selections⟩) := by
  cases selections with
  | nil => rw [selectionSet, readerNodes, updatableLocationsIn, List.append_nil]; rfl
  | cons s rest =>
    rw [selectionSet, run_bind, run_selection, run_bind, run_selectionSet, readerNodes, updatableLocationsIn,
      List.append_assoc]
    rfl
end

end ReaderWalk

theorem readField_eq (g : SchemaGraph) (selections : List ResolvedSelection) :
    readField g selections = ((readerNodes g 0 selections).1,
      let locations := updatableLocationsIn [] selections
      if locations.isEmpty then none else some locations) := by
  rw [readField, ReaderWalk.run_selectionSet]
  rfl

theorem readerTree_eq (g : SchemaGraph) (selections : List ResolvedSelection) :
    readerTree g selections = (readerNodes g 0 selections).1 := by
  rw [readerTree, readField_eq]

theorem updatableDescriptor_eq_locations (g : SchemaGraph) (selections : List ResolvedSelection) :
    updatableDescriptor g selections =
      let locations := updatableLocationsIn [] selections
      if locations.isEmpty then none else some locations := by
  rw [updatableDescriptor, readField_eq]

end IsoLiteral
