import IsoLiteral.Json.Basic
import IsoLiteral.Schema.Basic

/-!
# Names of artifacts

An artifact is known by the type and name of its field and by what it is for: reading the field, or
fetching it as an entrypoint.
-/

namespace IsoLiteral

/-- What an artifact is for. -/
inductive ArtifactRole where
  | reader (kind : ArtifactKind)
  | entrypoint
deriving DecidableEq, Repr

/-- What an artifact is known by. -/
structure ArtifactId where
  typeName : String
  fieldName : String
  role : ArtifactRole
deriving DecidableEq, Repr

namespace ArtifactId

/-- `Type__field`, which the names of generated modules and types start with. -/
def stem (id : ArtifactId) : String := id.typeName ++ "__" ++ id.fieldName

/-- The id as it is shown. -/
def render (id : ArtifactId) : String :=
  match id.role with
  | .reader _ => id.typeName ++ "." ++ id.fieldName
  | .entrypoint => id.typeName ++ "." ++ id.fieldName ++ " (entrypoint)"

/-- The id as JSON. -/
def toJson (id : ArtifactId) : Json :=
  let role : Json :=
    match id.role with
    | .reader kind => .object [("kind", .string "Reader"), ("artifactKind", .string kind.name)]
    | .entrypoint => .object [("kind", .string "Entrypoint")]
  .object [("typeName", .string id.typeName), ("fieldName", .string id.fieldName), ("role", role)]

end ArtifactId

namespace SchemaGraph

/-- The id of the artifact that reads a field. -/
def readerId (g : SchemaGraph) (field : FieldId) (kind : ArtifactKind) : ArtifactId :=
  ⟨g.typeName (g.field field).parent, g.fieldName field, .reader kind⟩

/-- The id of the artifact that fetches a field. -/
def entrypointId (g : SchemaGraph) (field : FieldId) : ArtifactId :=
  ⟨g.typeName (g.field field).parent, g.fieldName field, .entrypoint⟩

end SchemaGraph

end IsoLiteral
