import IsoLiteral.Artifact.Field
import IsoLiteral.Hash.Sha256
import IsoLiteral.Operation.Plan
import IsoLiteral.Operation.QueryText

/-!
# Entrypoint artifacts

For each planned field, the operation that fetches everything its reading takes, and one query for
each refetch site that is come to on the way.
-/

namespace IsoLiteral

/-- An operation: what it is called, takes and selects. -/
structure Operation where
  kind : OperationKind
  name : String
  variableDefinitions : List QueryVariable
  selections : MergedSet
deriving Repr

/-- The text of an operation. -/
def Operation.text (o : Operation) (format : QueryTextFormat) : String :=
  operationText format o.kind o.name o.variableDefinitions o.selections

/-- A query that requests one record again. -/
structure RefetchQuery where
  /-- The reader artifact that refers to the query by its index. -/
  owner : ArtifactId
  index : Nat
  operation : Operation
deriving Repr

/-- What is generated for an entrypoint. -/
structure EntrypointArtifact where
  id : ArtifactId
  operation : Operation
  refetchQueries : List RefetchQuery
  readerArtifact : ArtifactId
  lazyLoad : LazyLoad
deriving Repr

/-- The operation that fetches a field. A field of a type that is no root is fetched through the record
it belongs to. -/
def fetchOperation (g : SchemaGraph) (r : Resolution) (name : String) (f : ResolvedField) :
    Operation :=
  let selections := mergeSelections g r f.parent (.symbolic f.variableDefinitions) f.selections
  let definitions := f.variableDefinitions.map QueryVariable.ofResolved
  match g.operationKind? f.parent with
  | some kind => { kind, name, variableDefinitions := definitions, selections }
  | none =>
    { kind := .query, name, variableDefinitions := .nodeId :: definitions,
      selections := nodeWrapper g f.parent selections }

/-- The query for a refetch site of a field. It takes those of the field's variables that it uses. -/
def refetchOperation (g : SchemaGraph) (r : Resolution) (name : String) (owner : ResolvedField)
    (site : RefetchSite) : Operation :=
  let inner := mergeSelections g r site.type (.symbolic owner.variableDefinitions) site.selections
  let selections := nodeWrapper g site.type inner
  let used := MergedSet.variableNames selections
  let definitions :=
    (owner.variableDefinitions.filter fun v => v.name ∈ used).map QueryVariable.ofResolved
  { kind := .query, name, variableDefinitions := .nodeId :: definitions, selections }

/-- The refetch sites that are come to when a field is read, each with its owner. -/
def sitesFrom (r : Resolution) (field : FieldId) : List (ResolvedField × RefetchSite) :=
  (r.readers field).flatMap fun owner =>
    (refetchSites owner.parent owner.selections).map fun site => (owner, site)

/-- The refetch queries of an entrypoint, numbered in order. -/
def refetchQueries (g : SchemaGraph) (r : Resolution) (name : String) (field : FieldId) :
    List RefetchQuery :=
  (sitesFrom r field).mapIdx fun k (owner, site) =>
    { owner := owner.artifactId g, index := site.index,
      operation := refetchOperation g r (name ++ "__refetch__" ++ toString k) owner site }

/-- The artifact of a plan. -/
def Plan.artifact (p : Plan) (g : SchemaGraph) (r : Resolution) : EntrypointArtifact where
  id := ⟨g.typeName p.field.parent, g.fieldName p.field.field, .entrypoint⟩
  operation := fetchOperation g r p.queryName p.field
  refetchQueries := refetchQueries g r p.queryName p.field.field
  readerArtifact := p.field.artifactId g
  lazyLoad := p.lazyLoad

/-- The artifacts of all planned operations, unless a field refers to itself. -/
def Resolution.entrypointArtifacts (r : Resolution) (g : SchemaGraph) :
    Except CycleError (List EntrypointArtifact) := do
  checkCycles g r
  return (r.plans g).map (·.artifact g r)

/-! ## JSON -/

/-- The name, text, hash, variables and normalization tree of an operation as JSON members. -/
def Operation.members (o : Operation) (config : CompilerConfig) : List (String × Json) :=
  let text := o.text config.queryTextFormat
  let hash := if config.persistedQueries then some (queryHash text) else none
  [("queryName", .string o.name), ("queryText", .string text)] ++
    Json.optional "queryHash" .string hash ++
    [("variables", .array (o.variableDefinitions.map QueryVariable.toJson)),
      ("normalizationAst", NormalizationNode.treeToJson (MergedSet.toNormalization o.selections))]

/-- A refetch query as JSON. -/
def RefetchQuery.toJson (q : RefetchQuery) (config : CompilerConfig) : Json :=
  .object ([("owner", q.owner.toJson), ("index", .int q.index)] ++ q.operation.members config)

/-- The artifact of an entrypoint as JSON. -/
def EntrypointArtifact.toJson (e : EntrypointArtifact) (config : CompilerConfig) : Json :=
  .object ([("id", e.id.toJson), ("operationKind", .string e.operation.kind.text)] ++
    e.operation.members config ++
    [("refetchQueries", .array (e.refetchQueries.map (·.toJson config))),
      ("readerArtifact", e.readerArtifact.toJson),
      ("lazyLoad", .object [("reader", .bool e.lazyLoad.reader),
        ("normalization", .bool e.lazyLoad.normalization)])])

end IsoLiteral
