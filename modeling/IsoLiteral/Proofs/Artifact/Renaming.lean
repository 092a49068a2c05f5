import IsoLiteral.Artifact.Field
import IsoLiteral.Proofs.Artifact.Reader
import IsoLiteral.Proofs.Resolution.Renaming

/-!
# Artifacts with other numbers

The artifacts of a field name types and fields and never number them, and know nothing of places. Selections
that are the same but for numbers and places, in graphs one of which is part of the other but for numbers, have
the same normalization tree, the same reader tree, the same parameter and the same places that may be
written.
-/

namespace IsoLiteral

open ResolvedSelection

variable {g g' : SchemaGraph} {σ : FieldId → FieldId}

namespace ResolvedSelection

theorem isUpdatable_rename (s : ResolvedSelection) : (s.rename σ).isUpdatable = s.isUpdatable := by
  cases s <;> rfl

theorem responseName_rename (s : ResolvedSelection) :
    (s.rename σ).head.responseName = s.head.responseName := by
  cases s <;> rfl

mutual
theorem updatableLocations_rename (σ : FieldId → FieldId) (path : List String) (s : ResolvedSelection) :
    updatableLocations path (s.rename σ) = updatableLocations path s := by
  cases s with
  | scalar head updatable => rfl
  | resolver head kind loadable => rfl
  | link head => rfl
  | linked head target inlineFragment updatable nested =>
    rw [rename, updatableLocations, updatableLocations, updatableLocationsIn_rename σ _ nested]
    rfl
  | pointer head target nested =>
    rw [rename, updatableLocations, updatableLocations, updatableLocationsIn_rename σ _ nested]
    rfl
termination_by structural s
theorem updatableLocationsIn_rename (σ : FieldId → FieldId) (path : List String) (ss : List ResolvedSelection) :
    updatableLocationsIn path (renameAll σ ss) = updatableLocationsIn path ss := by
  cases ss with
  | nil => rfl
  | cons s rest =>
    rw [renameAll, updatableLocationsIn, updatableLocationsIn, updatableLocations_rename σ path s,
      updatableLocationsIn_rename σ path rest]
termination_by structural ss
end

end ResolvedSelection

namespace SchemaGraph.Embeds

theorem concreteType? (h : g.Embeds g' σ) (id : TypeId) : g'.concreteType? id = g.concreteType? id := by
  rw [SchemaGraph.concreteType?, SchemaGraph.concreteType?, h.kind, h.typeName]

theorem readerId (h : g.Embeds g' σ) (id : FieldId) (kind : ArtifactKind) :
    g'.readerId (σ id) kind = g.readerId id kind := by
  rw [SchemaGraph.readerId, SchemaGraph.readerId, h.fieldParent, h.typeName, h.fieldName]

theorem identityNodes (h : g.Embeds g' σ) (id : TypeId) : g'.identityNodes id = g.identityNodes id := by
  rw [SchemaGraph.identityNodes, SchemaGraph.identityNodes, h.isRootType, h.idField?, Option.isNone_map]

theorem leafShape (h : g.Embeds g' σ) (name : String) : g'.leafShape name = g.leafShape name := by
  rw [SchemaGraph.leafShape, SchemaGraph.leafShape, h.typeByName?]
  cases g.typeByName? name with
  | none => rfl
  | some id => simp only [Option.map_some, h.kind, h.enumValues]

/-! ## Selections with other numbers -/

mutual
theorem normalizationNode?_rename (h : g.Embeds g' σ) (s : ResolvedSelection) :
    normalizationNode? g' (s.rename σ) = normalizationNode? g s := by
  cases s with
  | scalar head updatable => rfl
  | resolver head kind loadable => rfl
  | pointer head target nested => rfl
  | link head => rfl
  | linked head target inlineFragment updatable nested =>
    rw [rename, normalizationNode?, normalizationNode?, h.normalizationNodes_rename nested, h.typeName,
      h.concreteType?]
    rfl
termination_by structural s
theorem normalizationNodes_rename (h : g.Embeds g' σ) (ss : List ResolvedSelection) :
    normalizationNodes g' (renameAll σ ss) = normalizationNodes g ss := by
  cases ss with
  | nil => rfl
  | cons s rest =>
    rw [renameAll, normalizationNodes, normalizationNodes, h.normalizationNode?_rename s,
      h.normalizationNodes_rename rest]
termination_by structural ss
end

mutual
theorem readerNode_rename (h : g.Embeds g' σ) (next : Nat) (s : ResolvedSelection) :
    readerNode g' next (s.rename σ) = readerNode g next s := by
  cases s with
  | scalar head updatable => rfl
  | link head => rfl
  | linked head target inlineFragment updatable nested =>
    rw [rename, readerNode, readerNode, h.readerNodes_rename next nested, h.typeName]
    rfl
  | pointer head target nested =>
    have condition : g'.readerId (head.rename σ).field .eager = g.readerId head.field .eager :=
      h.readerId head.field .eager
    rw [rename, readerNode, readerNode, h.readerNodes_rename (next + 1) nested, condition]
    rfl
  | resolver head kind loadable =>
    have reader : g'.readerId (head.rename σ).field kind = g.readerId head.field kind := h.readerId head.field kind
    have parent : (g'.field (head.rename σ).field).parent = (g.field head.field).parent := h.fieldParent head.field
    cases loadable with
    | none =>
      rw [rename, readerNode, readerNode, reader]
      rfl
    | some options =>
      rw [rename, readerNode, readerNode, parent, h.identityNodes, h.typeName]
      rfl
termination_by structural s
theorem readerNodes_rename (h : g.Embeds g' σ) (next : Nat) (ss : List ResolvedSelection) :
    readerNodes g' next (renameAll σ ss) = readerNodes g next ss := by
  cases ss with
  | nil => rfl
  | cons s rest =>
    rw [renameAll, readerNodes, readerNodes, h.readerNode_rename next s]
    obtain ⟨node, after⟩ := readerNode g next s
    dsimp only
    rw [h.readerNodes_rename after rest]
termination_by structural ss
end

mutual
theorem selectionShape_rename (h : g.Embeds g' σ) (s : ResolvedSelection) :
    selectionShape g' (s.rename σ) = selectionShape g s := by
  have type (head : SelectionHead) : (g'.field (head.rename σ).field).type = (g.field head.field).type :=
    h.fieldType head.field
  have reader (head : SelectionHead) (kind : ArtifactKind) :
      g'.readerId (head.rename σ).field kind = g.readerId head.field kind := h.readerId head.field kind
  cases s with
  | link head => rfl
  | scalar head updatable => rw [rename, selectionShape, selectionShape, type, h.leafShape]
  | linked head target inlineFragment updatable nested =>
    rw [rename, selectionShape, selectionShape, type, h.selectionShapes_rename nested]
  | pointer head target nested =>
    rw [rename, selectionShape, selectionShape, type, h.selectionShapes_rename nested]
  | resolver head kind loadable =>
    cases loadable with
    | some options => rw [rename, selectionShape, selectionShape, reader]
    | none =>
      cases kind with
      | refetchAction => rfl
      | _ => exact congrArg ParameterType.resolverOutput (reader head _)
termination_by structural s
theorem selectionShapes_rename (h : g.Embeds g' σ) (ss : List ResolvedSelection) :
    selectionShapes g' (renameAll σ ss) = selectionShapes g ss := by
  cases ss with
  | nil => rfl
  | cons s rest =>
    rw [renameAll, selectionShapes, selectionShapes, h.selectionShape_rename s, h.selectionShapes_rename rest,
      isUpdatable_rename, responseName_rename]
termination_by structural ss
end

end SchemaGraph.Embeds

/-! ## Fields with other numbers -/

/-- What does not depend on numbers or places is the same for selections that differ in these only. -/
theorem eq_of_renameAll {γ : Type} {view view' : List ResolvedSelection → γ} {ss ss' : List ResolvedSelection}
    (own : ∀ ss, view' (renameAll id ss) = view' ss) (other : ∀ ss, view' (renameAll σ ss) = view ss)
    (same : renameAll id ss' = renameAll σ ss) : view' ss' = view ss := by
  rw [← own, same, other]

namespace ResolvedField

variable {f f' : ResolvedField}

theorem field_of_rename (same : f'.rename id = f.rename σ) : f'.field = σ f.field :=
  congrArg ResolvedField.field same

theorem parent_of_rename (same : f'.rename id = f.rename σ) : f'.parent = f.parent :=
  (congrArg ResolvedField.parent same :)

theorem variableDefinitions_of_rename (same : f'.rename id = f.rename σ) :
    f'.variableDefinitions = f.variableDefinitions :=
  (congrArg ResolvedField.variableDefinitions same :)

theorem selections_of_rename (same : f'.rename id = f.rename σ) :
    renameAll id f'.selections = renameAll σ f.selections :=
  congrArg ResolvedField.selections same

theorem artifactId_eq_of_rename (h : g.Embeds g' σ) (same : f'.rename id = f.rename σ) :
    f'.artifactId g' = f.artifactId g := by
  have kind : f'.artifactKind = f.artifactKind := (congrArg ResolvedField.artifactKind same :)
  rw [artifactId, artifactId, parent_of_rename same, field_of_rename same, kind, h.typeName, h.fieldName]

/-- The artifacts of a field are the same but for its number. -/
theorem artifacts_eq_of_rename (h : g.Embeds g' σ) (same : f'.rename id = f.rename σ) :
    f'.artifacts g' = { f.artifacts g with field := σ f.field } := by
  have selections := selections_of_rename same
  have own := SchemaGraph.Embeds.refl g'
  have normalization := eq_of_renameAll own.normalizationNodes_rename h.normalizationNodes_rename selections
  have reader := eq_of_renameAll (own.readerNodes_rename 0) (h.readerNodes_rename 0) selections
  have shapes := eq_of_renameAll own.selectionShapes_rename h.selectionShapes_rename selections
  have updatable := eq_of_renameAll (updatableLocationsIn_rename id []) (updatableLocationsIn_rename σ []) selections
  simp only [artifacts, normalizationTree, readerTree_eq, parameterShape, updatableDescriptor_eq_locations, normalization, reader,
    shapes, updatable, artifactId_eq_of_rename h same, field_of_rename same]

end ResolvedField

end IsoLiteral
