import IsoLiteral.Operation.Entrypoint
import IsoLiteral.Run.Analysis

/-!
# Output of a run

The artifacts of every field and entrypoint that is free of errors, with the diagnostics of all that
was left out. A field that refers to itself ends the run. Running the stages one by one gives an output
beside its errors; compiling refuses an output with an error.
-/

namespace IsoLiteral

/-- What a run produces. -/
structure CompilationOutput where
  schema : SchemaGraph
  fields : List FieldArtifacts
  entrypoints : List EntrypointArtifact
  diagnostics : Diagnostics
deriving Repr

/-- The artifacts of everything that was resolved. -/
def Analysis.generate (a : Analysis) : Except CompileError CompilationOutput := do
  let entrypoints ←
    (a.resolution.entrypointArtifacts a.schema).mapError fun e => .cyclicSelection e.path e.diagnostics
  return ⟨a.schema, a.resolution.fieldArtifacts a.schema, entrypoints, a.diagnostics⟩

namespace CompilationOutput

/-- The artifacts of the field with the given type and field names. -/
def field? (o : CompilationOutput) (typeName fieldName : String) : Option FieldArtifacts :=
  o.fields.find? fun f => f.id.typeName = typeName && f.id.fieldName = fieldName

/-- The entrypoint whose operation has a name. -/
def entrypoint? (o : CompilationOutput) (queryName : String) : Option EntrypointArtifact :=
  o.entrypoints.find? (·.operation.name = queryName)

/-- An output, unless there is an error among its diagnostics. -/
def accept (o : CompilationOutput) : Except CompileError CompilationOutput :=
  if o.diagnostics.hasErrors then .error (.compilation o.diagnostics) else .ok o

end CompilationOutput

/-- Runs the stages on the literals of a run; the output has the diagnostics of what they left out. -/
def produce (config : CompilerConfig) (document : SchemaDocument) (literals : LiteralMap) :
    Except CompileError CompilationOutput := do
  let parsed ← parseLiterals config literals
  let analysis ← parsed.analyze config document
  analysis.generate

/-- Runs the stages; any error that they report ends the run. -/
def compile (config : CompilerConfig) (document : SchemaDocument) (literals : LiteralMap) :
    Except CompileError CompilationOutput := do
  let output ← produce config document literals
  output.accept

end IsoLiteral
