import IsoLiteral.Declaration.OfTree
import IsoLiteral.Resolution.OfDeclarations
import IsoLiteral.Run.Config
import IsoLiteral.Run.Literals
import IsoLiteral.Schema.OfDocument

/-!
# Analysis of a run's literals

The literals are parsed one by one, the graph is built from the document and the declarations, and
the declarations are resolved against it. A literal with errors is left out; an exceeded limit or a
schema that cannot be built ends the run.
-/

namespace IsoLiteral

/-- What ends a run before it has a result. -/
inductive CompileError where
  | limit (cause : LimitError)
  | schemaBuild (diagnostics : Diagnostics)
  /-- A field needs itself in order to be read. -/
  | cyclicSelection (path : List String) (diagnostics : Diagnostics)
  /-- All stages ran, with errors among the diagnostics. -/
  | compilation (diagnostics : Diagnostics)
deriving Repr

/-- What is said about the end of a run. -/
def CompileError.message : CompileError → String
  | limit cause => cause.message
  | schemaBuild diagnostics => SchemaGraph.failureMessage diagnostics
  | cyclicSelection path _ => "cyclic selection: " ++ Text.joinWith " -> " path
  | compilation diagnostics =>
    "compilation failed with " ++ toString diagnostics.errorCount ++ " errors"

/-- The literals of a run after parsing. -/
structure ParsedLiterals where
  /-- The declarations of the literals without errors; they are known by their place here. -/
  declarations : List Declaration
  diagnostics : Diagnostics
deriving Repr

/-- Parses literals, the first of which has the given index. -/
def parseFrom (limits : ParseLimits) (index : Nat) :
    List Literal → Except LimitError ParsedLiterals
  | [] => .ok ⟨[], []⟩
  | literal :: rest => do
    let (declaration, problems) ← parseDeclaration literal.content index limits
    let more ← parseFrom limits (index + 1) rest
    let kept := if problems.hasErrors then [] else declaration.toList
    return ⟨kept ++ more.declarations, problems ++ more.diagnostics⟩

/-- Parses all literals of a run. -/
def parseLiterals (config : CompilerConfig) (literals : LiteralMap) :
    Except CompileError ParsedLiterals :=
  (parseFrom config.parseLimits 0 literals.entries).mapError .limit

/-- The options for building the graph. -/
def CompilerConfig.schemaOptions (config : CompilerConfig) : SchemaOptions :=
  ⟨config.generateRefetchField⟩

/-- The graph of a run with everything that was resolved against it. -/
structure Analysis where
  schema : SchemaGraph
  resolution : Resolution
  /-- The diagnostics of parsing and of resolution. -/
  diagnostics : Diagnostics
deriving Repr

/-- Builds the graph and resolves the declarations. -/
def ParsedLiterals.analyze (config : CompilerConfig) (document : SchemaDocument)
    (parsed : ParsedLiterals) : Except CompileError Analysis := do
  let schema ←
    (SchemaGraph.ofDocument config.schemaOptions document parsed.declarations).mapError .schemaBuild
  let (resolution, problems) := Resolution.ofDeclarations schema parsed.declarations
  return ⟨schema, resolution, parsed.diagnostics ++ problems⟩

end IsoLiteral
