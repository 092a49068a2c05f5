import IsoLiteral.Artifact.Field
import IsoLiteral.Proofs.Artifact.Reader
import IsoLiteral.Proofs.Graph.Reference
import IsoLiteral.Proofs.Resolution.Form

/-!
# What artifacts refer to

The artifacts of a field name other artifacts: reader trees those of the fields that are read or loaded, shapes
of parameters those whose results are handed over. Whatever is named, at any depth, is named by a selection of
the field.
-/

namespace IsoLiteral

variable {g : SchemaGraph}

/-! ## Reader trees -/

namespace ReaderNode

mutual
/-- Every node below a node, also those that identify what is loaded. -/
def inner : ReaderNode → List ReaderNode
  | .linked _ _ _ _ _ _ _ _ selections => all selections
  | .loadable _ _ _ identity _ => all identity
  | .scalar _ _ _ _ _ | .resolver _ _ _ _ | .link _ => []
termination_by structural n => n
/-- Every node of a tree, at any depth. -/
def all : List ReaderNode → List ReaderNode
  | [] => []
  | n :: rest => n :: (n.inner ++ all rest)
termination_by structural ns => ns
end

/-- The reader of the field that a node reads. -/
def readerArtifact? : ReaderNode → Option ArtifactId
  | .resolver _ _ readerArtifact _ => some readerArtifact
  | _ => none

/-- The reader of the pointer that a link is computed by. -/
def condition? : ReaderNode → Option ArtifactId
  | .linked _ _ _ _ condition _ _ _ _ => condition
  | _ => none

/-- The entrypoint of the field that a node loads. -/
def entrypoint? : ReaderNode → Option ArtifactId
  | .loadable _ _ _ _ entrypoint => some entrypoint
  | _ => none

end ReaderNode

theorem mem_all_identityNodes {parent : TypeId} {node : ReaderNode}
    (member : node ∈ ReaderNode.all (g.identityNodes parent)) : node = .id := by
  unfold SchemaGraph.identityNodes at member
  split at member
  · cases member
  · simpa [ReaderNode.all, ReaderNode.inner, ReaderNode.id] using member

mutual
theorem exists_occurs_of_mem_inner (g : SchemaGraph) (next : Nat) (s : ResolvedSelection) {node : ReaderNode}
    (member : node ∈ (readerNode g next s).1.inner) :
    node = .id ∨ ∃ t number, Occurs t [s] ∧ node = (readerNode g number t).1 := by
  cases s with
  | scalar head updatable => simp [readerNode, ReaderNode.inner] at member
  | link head => simp [readerNode, ReaderNode.inner] at member
  | resolver head kind loadable =>
    cases loadable with
    | none => simp [readerNode, ReaderNode.inner] at member
    | some options => exact .inl (mem_all_identityNodes member)
  | linked head target inlineFragment updatable nested =>
    refine (exists_occurs_of_mem_all g next nested member).imp_right ?_
    rintro ⟨t, number, occurs, same⟩
    exact ⟨t, number, .linked (List.mem_singleton_self _) occurs, same⟩
  | pointer head target nested =>
    refine (exists_occurs_of_mem_all g (next + 1) nested member).imp_right ?_
    rintro ⟨t, number, occurs, same⟩
    exact ⟨t, number, .pointer (List.mem_singleton_self _) occurs, same⟩
theorem exists_occurs_of_mem_all (g : SchemaGraph) (next : Nat) (selections : List ResolvedSelection)
    {node : ReaderNode} (member : node ∈ ReaderNode.all (readerNodes g next selections).1) :
    node = .id ∨ ∃ t number, Occurs t selections ∧ node = (readerNode g number t).1 := by
  cases selections with
  | nil => simp [readerNodes, ReaderNode.all] at member
  | cons s rest =>
    rw [readerNodes] at member
    rcases List.mem_cons.1 member with rfl | deeper
    · exact .inr ⟨s, next, .here List.mem_cons_self, rfl⟩
    · rcases List.mem_append.1 deeper with inside | later
      · refine (exists_occurs_of_mem_inner g next s inside).imp_right ?_
        rintro ⟨t, number, occurs, same⟩
        exact ⟨t, number, occurs.mono (by simp), same⟩
      · refine (exists_occurs_of_mem_all g _ rest later).imp_right ?_
        rintro ⟨t, number, occurs, same⟩
        exact ⟨t, number, occurs.mono (by simp +contextual), same⟩
end

variable {selections : List ResolvedSelection} {node : ReaderNode} {id : ArtifactId}

/-- A reader that is named for a field is named by a selection of it. -/
theorem exists_occurs_of_readerArtifact? (member : node ∈ ReaderNode.all (readerTree g selections))
    (refers : node.readerArtifact? = some id) :
    ∃ head kind, Occurs (.resolver head kind none) selections ∧ id = g.readerId head.field kind := by
  obtain rfl | ⟨t, number, occurs, rfl⟩ :=
    exists_occurs_of_mem_all g 0 selections (readerTree_eq g selections ▸ member)
  · cases refers
  · cases t with
    | resolver head kind loadable =>
      cases loadable with
      | none => exact ⟨head, kind, occurs, (Option.some.inj refers).symm⟩
      | some options => cases refers
    | scalar | linked | pointer | link => cases refers

/-- A reader that is named for a link is named by a selection of the pointer. -/
theorem exists_occurs_of_condition? (member : node ∈ ReaderNode.all (readerTree g selections))
    (refers : node.condition? = some id) :
    ∃ head target nested, Occurs (.pointer head target nested) selections ∧
      id = g.readerId head.field .eager := by
  obtain rfl | ⟨t, number, occurs, rfl⟩ :=
    exists_occurs_of_mem_all g 0 selections (readerTree_eq g selections ▸ member)
  · cases refers
  · cases t with
    | pointer head target nested => exact ⟨head, target, nested, occurs, (Option.some.inj refers).symm⟩
    | resolver head kind loadable => cases loadable <;> cases refers
    | scalar | linked | link => cases refers

/-- An entrypoint is named by a selection that is loadable. -/
theorem exists_occurs_of_entrypoint? (member : node ∈ ReaderNode.all (readerTree g selections))
    (refers : node.entrypoint? = some id) :
    ∃ head kind options, Occurs (.resolver head kind (some options)) selections ∧
      id = ⟨g.typeName (g.field head.field).parent, head.fieldName, .entrypoint⟩ := by
  obtain rfl | ⟨t, number, occurs, rfl⟩ :=
    exists_occurs_of_mem_all g 0 selections (readerTree_eq g selections ▸ member)
  · cases refers
  · cases t with
    | resolver head kind loadable =>
      cases loadable with
      | none => cases refers
      | some options => exact ⟨head, kind, options, occurs, (Option.some.inj refers).symm⟩
    | scalar | linked | pointer | link => cases refers

/-! ## Shapes of parameters -/

mutual
/-- The readers whose results are part of a shape. -/
def ParameterType.outputs : ParameterType → List ArtifactId
  | .nullable inner => inner.outputs
  | .list item => item.outputs
  | .object fields => outputsOfAll fields
  | .resolverOutput artifact => [artifact]
  | .scalar _ | .enum _ | .refetchAction | .loadable _ | .link => []
termination_by structural t => t
/-- The readers whose results are part of the fields of a shape. -/
def outputsOfAll : List (ShapeField ParameterType) → List ArtifactId
  | [] => []
  | f :: rest => outputsOf f ++ outputsOfAll rest
termination_by structural fs => fs
/-- The readers whose results are part of a field of a shape. -/
def outputsOf : ShapeField ParameterType → List ArtifactId
  | ⟨_, type, _⟩ => type.outputs
termination_by structural f => f
end

/-- The readers whose results a resolver receives. -/
def ParameterShape.outputs (shape : ParameterShape) : List ArtifactId := outputsOfAll shape.fields

mutual
theorem outputs_wrapLeaf (leaf : ParameterType) (type : TypeExpr) :
    (wrapLeaf leaf type).outputs = leaf.outputs := by
  cases type with
  | named name => rw [wrapLeaf, ParameterType.outputs]
  | list item => rw [wrapLeaf, ParameterType.outputs, ParameterType.outputs, outputs_wrapLeaf leaf item]
  | nonNull inner => rw [wrapLeaf, outputs_wrapNonNull leaf inner]
theorem outputs_wrapNonNull (leaf : ParameterType) (type : TypeExpr) :
    (wrapNonNull leaf type).outputs = leaf.outputs := by
  cases type with
  | named name => rw [wrapNonNull]
  | list item => rw [wrapNonNull, ParameterType.outputs, outputs_wrapLeaf leaf item]
  | nonNull inner => rw [wrapNonNull, outputs_wrapNonNull leaf inner]
end

theorem outputs_wrapOptional (leaf : ParameterType) (type : Option TypeExpr) :
    (wrapOptional leaf type).outputs = leaf.outputs := by
  cases type with
  | none => rfl
  | some type => exact outputs_wrapLeaf leaf type

theorem outputs_leafShape (g : SchemaGraph) (name : String) : (g.leafShape name).outputs = [] := by
  unfold SchemaGraph.leafShape
  split
  · split <;> rw [ParameterType.outputs]
  · rw [ParameterType.outputs]

mutual
theorem exists_occurs_of_mem_outputs (g : SchemaGraph) (s : ResolvedSelection) {id : ArtifactId}
    (member : id ∈ (selectionShape g s).outputs) :
    ∃ head kind, Occurs (.resolver head kind none) [s] ∧ kind ≠ .refetchAction ∧
      id = g.readerId head.field kind := by
  cases s with
  | scalar head updatable =>
    rw [selectionShape, outputs_wrapOptional, outputs_leafShape] at member
    cases member
  | link head => simp [selectionShape, ParameterType.outputs] at member
  | resolver head kind loadable =>
    cases loadable with
    | some options =>
      have shape : selectionShape g (.resolver head kind (some options)) =
          .loadable (g.readerId head.field kind) := by
        cases kind <;> rfl
      rw [shape, ParameterType.outputs] at member
      cases member
    | none =>
      cases kind with
      | refetchAction => simp [selectionShape, ParameterType.outputs] at member
      | component | eager | loadableAction =>
        refine ⟨head, _, .here (List.mem_singleton_self _), nofun, ?_⟩
        simpa [selectionShape, ParameterType.outputs] using member
  | linked head target inlineFragment updatable nested =>
    rw [selectionShape, outputs_wrapOptional, ParameterType.outputs] at member
    obtain ⟨inner, kind, occurs, rest⟩ := exists_occurs_of_mem_outputsOfAll g nested member
    exact ⟨inner, kind, .linked (List.mem_singleton_self _) occurs, rest⟩
  | pointer head target nested =>
    rw [selectionShape, outputs_wrapOptional, ParameterType.outputs] at member
    obtain ⟨inner, kind, occurs, rest⟩ := exists_occurs_of_mem_outputsOfAll g nested member
    exact ⟨inner, kind, .pointer (List.mem_singleton_self _) occurs, rest⟩
/-- A result that is part of a parameter is that of a selection. -/
theorem exists_occurs_of_mem_outputsOfAll (g : SchemaGraph) (selections : List ResolvedSelection)
    {id : ArtifactId} (member : id ∈ outputsOfAll (selectionShapes g selections)) :
    ∃ head kind, Occurs (.resolver head kind none) selections ∧ kind ≠ .refetchAction ∧
      id = g.readerId head.field kind := by
  cases selections with
  | nil => simp [selectionShapes, outputsOfAll] at member
  | cons s rest =>
    rw [selectionShapes, outputsOfAll, outputsOf] at member
    rcases List.mem_append.1 member with first | later
    · obtain ⟨head, kind, occurs, known⟩ := exists_occurs_of_mem_outputs g s first
      exact ⟨head, kind, occurs.mono (by simp), known⟩
    · obtain ⟨head, kind, occurs, known⟩ := exists_occurs_of_mem_outputsOfAll g rest later
      exact ⟨head, kind, occurs.mono (by simp +contextual), known⟩
end

/-! ## Selections -/

/-- What occurs in selections on a type is a selection on some type. -/
theorem Occurs.selectedOn {s : ResolvedSelection} (occurs : Occurs s selections) :
    ∀ {parent : TypeId}, (∀ t ∈ selections, SelectedOn g parent t) → ∃ type, SelectedOn g type s := by
  induction occurs with
  | here member => exact fun on => ⟨_, on s member⟩
  | linked member _ ih =>
    intro parent on
    cases on _ member with
    | linked _ _ inside => exact ih inside
  | pointer member _ ih =>
    intro parent on
    cases on _ member with
    | pointer _ _ inside => exact ih inside

end IsoLiteral
