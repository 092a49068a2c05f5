import IsoLiteral.Schema.Fields

/-!
# The schema graph of a document

The graph is built in stages, types before fields. Every problem is collected, and any error means
that there is no graph.
-/

namespace IsoLiteral

namespace SchemaBuilder

/-- All types of a document, linked with each other. -/
def ofTypes (document : SchemaDocument) : SchemaBuilder :=
  document.types.foldl linkAbstractType
    (document.types.foldl addDocumentType empty.addBuiltinScalars)

/-- Adds the fields of the server and the synthesized ones. -/
def addTypeFields (options : SchemaOptions) (document : SchemaDocument) (b : SchemaBuilder) :
    SchemaBuilder :=
  let b := document.types.foldl addServerFields b
  ((List.range b.types.length).map TypeId.mk).foldl (addSynthesizedFields options) b

end SchemaBuilder

/-- The graph of a document and the declarations of the literals, or everything that is wrong with
them. Declaration `i` is known by its index `i`. -/
def SchemaGraph.ofDocument (options : SchemaOptions) (document : SchemaDocument)
    (declarations : List Declaration) : Except Diagnostics SchemaGraph :=
  let types := SchemaBuilder.ofTypes document
  let (roots, problems) := types.rootTypes document
  let built := ((types.reportAll problems).addTypeFields options document).addDeclaredFields 0
    declarations
  match roots with
  | some (queryType, mutationType) =>
    if built.diagnostics.hasErrors then .error built.diagnostics
    else .ok { toTypeTable := built.toTypeTable, fields := built.fields, queryType, mutationType }
  | none => .error built.diagnostics

/-- What is said about a schema that could not be built. -/
def SchemaGraph.failureMessage (diagnostics : Diagnostics) : String :=
  "schema construction failed with " ++ toString diagnostics.errorCount ++ " errors"

end IsoLiteral
