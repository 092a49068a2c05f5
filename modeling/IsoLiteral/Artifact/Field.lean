import IsoLiteral.Artifact.Normalization
import IsoLiteral.Artifact.Parameters
import IsoLiteral.Artifact.Reader

/-!
# Artifacts of a field

Everything that is generated for one declared field. Both trees come from the same selections and
address the store through the same keys.
-/

namespace IsoLiteral

/-- What is generated for a declared field. -/
structure FieldArtifacts where
  id : ArtifactId
  field : FieldId
  normalization : List NormalizationNode
  reader : List ReaderNode
  parameters : ParameterShape
  updatable : Option (List UpdatableLocation)
deriving Repr

/-- The id of a resolved field's reader artifact. -/
def ResolvedField.artifactId (f : ResolvedField) (g : SchemaGraph) : ArtifactId :=
  ⟨g.typeName f.parent, g.fieldName f.field, .reader f.artifactKind⟩

/-- The artifacts of a resolved field. -/
def ResolvedField.artifacts (f : ResolvedField) (g : SchemaGraph) : FieldArtifacts where
  id := f.artifactId g
  field := f.field
  normalization := normalizationTree g f.selections
  reader := readerTree g f.selections
  parameters := parameterShape g (f.artifactId g) f.selections
  updatable := updatableDescriptor g f.selections

/-- The artifacts of every resolved field, in order. -/
def Resolution.fieldArtifacts (r : Resolution) (g : SchemaGraph) : List FieldArtifacts :=
  r.fields.map (·.artifacts g)

/-- The artifacts of a field as JSON. -/
def FieldArtifacts.toJson (a : FieldArtifacts) : Json :=
  .object ([("id", a.id.toJson), ("normalizationAst", NormalizationNode.treeToJson a.normalization),
      ("readerAst", ReaderNode.treeToJson a.reader), ("parameters", a.parameters.toJson)] ++
    Json.optional "updatable"
      (fun locations => .object [("locations", .array (locations.map UpdatableLocation.toJson))])
      a.updatable)

end IsoLiteral
