import IsoLiteral.Proofs.Operation.Emitted
import IsoLiteral.Proofs.Operation.Layout
import IsoLiteral.Proofs.Operation.Plans

/-!
# Layout does not matter

Every token of a literal has a place, and places go along through all stages: the parser reports one problem at
one place, a declaration knows where each of its names stands, and so does a resolved selection. None of this
reaches a decision or an artifact. Where literals keep the kinds and texts of all tokens but whitespace, newlines
and comments, a run ends in the same way, with the same artifacts, and says the same about the same literals.
-/

namespace IsoLiteral

open Diagnostics

/-- The end of a run without the ranges that its diagnostics are about. -/
def CompileError.unplaced : CompileError → CompileError
  | .limit cause => .limit cause
  | .schemaBuild diagnostics => .schemaBuild diagnostics.unplaced
  | .cyclicSelection path diagnostics => .cyclicSelection path diagnostics.unplaced
  | .compilation diagnostics => .compilation diagnostics.unplaced

/-- The output without the ranges that its diagnostics are about. -/
def CompilationOutput.unplaced (out : CompilationOutput) : CompilationOutput :=
  { out with diagnostics := out.diagnostics.unplaced }

/-- How a run went, without the ranges that its diagnostics are about. -/
def unplacedOutcome (outcome : Except CompileError CompilationOutput) : Except CompileError CompilationOutput :=
  (outcome.map CompilationOutput.unplaced).mapError CompileError.unplaced

/-! ## From the analysis on -/

/-- Two analyses of a run differ in places only, and resolve nothing twice. -/
structure Analysis.Relaid (a a' : Analysis) : Prop where
  schema : a'.schema = a.schema
  resolution : a.resolution.Relaid a'.resolution
  distinct : (a.resolution.fields.map (·.field)).Nodup
  unique : (a.resolution.entrypoints.map (·.field)).Nodup
  diagnostics : a'.diagnostics.unplaced = a.diagnostics.unplaced

theorem Analysis.Relaid.generate {a a' : Analysis} (h : a.Relaid a') :
    unplacedOutcome a'.generate = unplacedOutcome a.generate := by
  have entrypoints := h.resolution.entrypointArtifacts h.distinct h.unique a.schema
  rw [Analysis.generate, Analysis.generate, h.schema, h.resolution.fieldArtifacts]
  rcases outcomes_of_mapError entrypoints with ⟨e, e', run, run', same⟩ | ⟨artifacts, run, run'⟩
  · rw [run, run']
    exact congrArg (fun e : CycleError => Except.error (CompileError.cyclicSelection e.path e.diagnostics)) same
  · rw [run, run']
    let output (diagnostics : Diagnostics) : CompilationOutput :=
      ⟨a.schema, a.resolution.fieldArtifacts a.schema, artifacts, diagnostics⟩
    exact congrArg (fun diagnostics => Except.ok (output diagnostics)) h.diagnostics

/-- Declarations that differ in places only come to the same, from the graph to the artifacts. -/
theorem unplacedOutcome_analyze (config : CompilerConfig) (document : SchemaDocument) {p p' : ParsedLiterals}
    (declarations : List.Forall₂ Declaration.Relaid p.declarations p'.declarations)
    (diagnostics : p'.diagnostics.unplaced = p.diagnostics.unplaced) :
    unplacedOutcome (p'.analyze config document >>= Analysis.generate) =
      unplacedOutcome (p.analyze config document >>= Analysis.generate) := by
  rw [ParsedLiterals.analyze, ParsedLiterals.analyze]
  rcases outcomes_of_mapError (SchemaGraph.ofDocument_relaid declarations config.schemaOptions document) with
    ⟨ds, ds', run, run', same⟩ | ⟨g, run, run'⟩
  · rw [run, run']
    exact congrArg (fun ds => Except.error (CompileError.schemaBuild ds)) same
  · rw [run, run']
    obtain ⟨resolution, problems⟩ := resolveFrom_relaid declarations g 0 []
    let analysis (p : ParsedLiterals) : Analysis :=
      ⟨g, (Resolution.ofDeclarations g p.declarations).1,
        p.diagnostics ++ (Resolution.ofDeclarations g p.declarations).2⟩
    have reported : (analysis p').diagnostics.unplaced = (analysis p).diagnostics.unplaced := by
      rw [unplaced_append, unplaced_append, diagnostics]
      exact congrArg _ problems
    have analyses : (analysis p).Relaid (analysis p') :=
      ⟨rfl, resolution, nodup_fields_ofDeclarations g p.declarations,
        Resolution.nodup_entrypoints_ofDeclarations g p.declarations, reported⟩
    exact analyses.generate

/-! ## Whole runs -/

/-- **Layout does not matter.** Literals that keep their tokens but for whitespace, newlines and comments give the
same outcome but for ranges: the same end of the run, or an output with the same artifacts, and the same
diagnostics about the same literals. -/
theorem produce_layout (config : CompilerConfig) (document : SchemaDocument) {literals literals' : LiteralMap}
    (same : List.Forall₂ (fun l l' => solidTokens l'.content = solidTokens l.content) literals.entries
      literals'.entries) :
    unplacedOutcome (produce config document literals') = unplacedOutcome (produce config document literals) := by
  rw [produce, produce, parseLiterals, parseLiterals]
  rcases parseFrom_layout same config.parseLimits 0 with ⟨limit, run, run'⟩ |
    ⟨p, p', run, run', declarations, diagnostics⟩
  · rw [run, run']
  · rw [run, run']
    exact unplacedOutcome_analyze config document declarations diagnostics

/-- Literals of which two have errors, with no blanks that could be left out. -/
def tightTexts : List String :=
  ["field User.badge\x7bname(size:)\x7d", "field Query.home\x7bage\x7d",
    "field Query.start\x7bme\x7bname(size:3)\x7d\x7d", "entrypoint Query.start"]

/-- The same literals, with blanks, newlines and comments. -/
def spacedTexts : List String :=
  ["field User.badge \x7b name(size: ) \x7d ", "field Query.home # by age\n\x7b age \x7d",
    "field Query . start\n\x7b me \x7b name(size: 3) \x7d \x7d", "\nentrypoint Query.start"]

/-- Both runs end with an output, and find the problems in other places. -/
theorem run_spacedTexts :
    (produce .standard (userDocument sizeArgument []) (.ofLiterals tightTexts)).isOk = true ∧
      (produce .standard (userDocument sizeArgument []) (.ofLiterals spacedTexts)).isOk = true ∧
      (outputOf tightTexts).diagnostics.map (fun d => (d.kind, d.span.map (·.source))) =
        [(.expectedValue, some 0), (.unknownField, some 1)] ∧
      (outputOf tightTexts).entrypoints.map (·.operation.name) = ["start"] ∧
      (outputOf spacedTexts).diagnostics ≠ (outputOf tightTexts).diagnostics := by
  decide +kernel

theorem produce_layout_start :
    ∃ out out', produce .standard (userDocument sizeArgument []) (.ofLiterals tightTexts) = .ok out ∧
      produce .standard (userDocument sizeArgument []) (.ofLiterals spacedTexts) = .ok out' ∧
      out.diagnostics.map (fun d => (d.kind, d.span.map (·.source))) =
        [(.expectedValue, some 0), (.unknownField, some 1)] ∧
      out.entrypoints.map (·.operation.name) = ["start"] ∧
      out'.diagnostics ≠ out.diagnostics ∧ out'.unplaced = out.unplaced := by
  obtain ⟨possible, possible', reported, named, apart⟩ := run_spacedTexts
  have run := produce_outputOf tightTexts possible
  have run' := produce_outputOf spacedTexts possible'
  have same : List.Forall₂ (fun l l' => solidTokens l'.content = solidTokens l.content)
      (LiteralMap.ofLiterals tightTexts).entries (LiteralMap.ofLiterals spacedTexts).entries := by
    decide +kernel
  have outcome := produce_layout .standard (userDocument sizeArgument []) same
  rw [run, run'] at outcome
  exact ⟨_, _, run, run', reported, named, apart, Except.ok.inj outcome⟩

end IsoLiteral
