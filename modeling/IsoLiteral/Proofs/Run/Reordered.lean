import IsoLiteral.Proofs.Declaration.Outcome
import IsoLiteral.Proofs.Operation.Emitted
import IsoLiteral.Proofs.Operation.Renaming
import IsoLiteral.Proofs.Schema.Reordered
import Mathlib.Data.List.Perm.Basic

/-!
# The order of literals does not matter

The order in which literals are registered decides which index each of them has, which number each of their
declarations and fields gets, in which order fields are searched for cycles and in which order artifacts are
listed. Nothing else depends on it: of a run without errors, each stage gives the same in every order up to
the numbers of fields, and no artifact shows a number.
-/

namespace IsoLiteral

open Diagnostics

/-! ## Parsing -/

/-- That a literal is parsed without a report, wherever it is registered, and what it declares but for
places. -/
def Literal.Declares (l : Literal) (limits : ParseLimits) (bare : Declaration) : Prop :=
  ∀ index, ∃ d, parseDeclaration l.content index limits = .ok (some d, []) ∧ d.bare = bare

section Parsing

variable {limits : ParseLimits}

/-- A literal that is parsed without errors at one index declares the same at all of them. -/
theorem Literal.declares_of_parseDeclaration {l : Literal} {index : Nat}
    {result : Option Declaration × Diagnostics} (run : parseDeclaration l.content index limits = .ok result)
    (clean : result.2.hasErrors = false) :
    ∃ d, result.1 = some d ∧ l.Declares limits d.bare := by
  have quiet := (hasErrors_of_parseDeclaration run).1 clean
  obtain ⟨declaration, problems⟩ := result
  cases declaration with
  | none => exact absurd quiet (reports_of_parseDeclaration_none run rfl)
  | some d =>
    cases quiet
    exact ⟨d, rfl, parseDeclaration_elsewhere run⟩

/-- Where literals are parsed without errors, each of them declares something. -/
theorem declares_of_parseFrom (literals : List Literal) :
    ∀ index {p : ParsedLiterals}, parseFrom limits index literals = .ok p → p.diagnostics.hasErrors = false →
      List.Forall₂ (·.Declares limits) literals (p.declarations.map Declaration.bare) := by
  induction literals with
  | nil =>
    intro index p run _
    cases run
    exact .nil
  | cons literal rest ih =>
    intro index p run clean
    obtain ⟨result, more, first, others, declarations, diagnostics⟩ := parseFrom_cons_eq_ok run
    rw [diagnostics, hasErrors_append, Bool.or_eq_false_iff] at clean
    obtain ⟨d, given, declares⟩ := Literal.declares_of_parseDeclaration first clean.1
    rw [declarations, clean.1, given]
    exact .cons declares (ih (index + 1) others clean.2)

/-- Literals each of which declares something are parsed without a report. -/
theorem exists_parseFrom {literals : List Literal} {bares : List Declaration}
    (declare : List.Forall₂ (·.Declares limits) literals bares) :
    ∀ index, ∃ p, parseFrom limits index literals = .ok p ∧ p.diagnostics = [] ∧
      p.declarations.map Declaration.bare = bares := by
  induction declare with
  | nil => exact fun _ => ⟨⟨[], []⟩, rfl, rfl, rfl⟩
  | cons declares _ ih =>
    intro index
    obtain ⟨d, first, rfl⟩ := declares index
    obtain ⟨more, others, quiet, rfl⟩ := ih (index + 1)
    refine ⟨⟨d :: more.declarations, more.diagnostics⟩, ?_, quiet, rfl⟩
    simp [parseFrom, first, others, bind, Except.bind, pure, Except.pure, hasErrors]

end Parsing

section Runs

variable {config : CompilerConfig} {document : SchemaDocument} {literals literals' : LiteralMap}
  {out : CompilationOutput} {p : ParsedLiterals} {g : SchemaGraph}

/-- If literals are parsed without errors, so they are in any other order, and declare the same. -/
theorem exists_parseLiterals_of_perm (same : literals.entries.Perm literals'.entries)
    (parsed : parseLiterals config literals = .ok p) (clean : p.diagnostics.hasErrors = false) :
    ∃ p', parseLiterals config literals' = .ok p' ∧ p'.diagnostics = [] ∧
      (p.declarations.map Declaration.bare).Perm (p'.declarations.map Declaration.bare) := by
  have declare := declares_of_parseFrom _ 0 (parseFrom_of_parseLiterals parsed) clean
  obtain ⟨bares, declare', reordered⟩ := List.perm_comp_forall₂ same.symm declare
  obtain ⟨p', run, quiet, rfl⟩ := exists_parseFrom declare' 0
  refine ⟨p', ?_, quiet, reordered.symm⟩
  rw [parseLiterals, run]
  rfl

/-! ## Whole runs -/

/-- A run that ends with an output found no cycle. -/
theorem checkCycles_of_produce (run : produce config document literals = .ok out)
    (parsed : parseLiterals config literals = .ok p) :
    checkCycles out.schema (p.resolution out.schema) = .ok () := by
  have built := (stages_of_produce run parsed).1
  cases cycles : checkCycles out.schema (p.resolution out.schema) with
  | ok _ => rfl
  | error e =>
    rw [ParsedLiterals.resolution] at cycles
    simp [produce, parsed, ParsedLiterals.analyze, built, bind, Except.bind, Except.mapError, pure,
      Except.pure, Analysis.generate, Resolution.entrypointArtifacts, cycles] at run

/-- A run ends with an output if all its stages succeed. -/
theorem produce_eq_ok (parsed : parseLiterals config literals = .ok p)
    (built : SchemaGraph.ofDocument config.schemaOptions document p.declarations = .ok g)
    (acyclic : checkCycles g (p.resolution g) = .ok ()) :
    produce config document literals = .ok
      ⟨g, (p.resolution g).fieldArtifacts g, ((p.resolution g).plans g).map (·.artifact g (p.resolution g)),
        p.diagnostics ++ (Resolution.ofDeclarations g p.declarations).2⟩ := by
  rw [ParsedLiterals.resolution] at acyclic ⊢
  simp [produce, parsed, ParsedLiterals.analyze, built, bind, Except.bind, Except.mapError, pure,
    Except.pure, Analysis.generate, Resolution.entrypointArtifacts, acyclic]

/-- **The order of literals does not matter.** If a run ends without an error, so does every run on the same
literals in another order. Up to their order, the bundles of fields are the same where they are written
out, and the entrypoints are the same altogether: their operations, the queries that fetch again, and what
is loaded lazily. -/
theorem produce_of_perm (same : literals.entries.Perm literals'.entries)
    (run : produce config document literals = .ok out) (clean : out.diagnostics.hasErrors = false) :
    ∃ out', produce config document literals' = .ok out' ∧ out'.diagnostics.hasErrors = false ∧
      (out'.fields.map FieldArtifacts.toJson).Perm (out.fields.map FieldArtifacts.toJson) ∧
      out'.entrypoints.Perm out.entrypoints := by
  obtain ⟨p, parsed⟩ := exists_parseLiterals run
  obtain ⟨built, entrypoints, fields, diagnostics⟩ := stages_of_produce run parsed
  rw [diagnostics, hasErrors_append, Bool.or_eq_false_iff] at clean
  obtain ⟨p', parsed', quiet, reordered⟩ := exists_parseLiterals_of_perm same parsed clean.1
  -- the second graph is the first one with its fields renumbered
  obtain ⟨g', built', shuffles⟩ := SchemaGraph.exists_shuffles built reordered
  have renames := shuffles.renames built built'
  have coherent := SchemaGraph.coherent_of_built built fun d member =>
    (parsed_of_mem_parseLiterals parsed d member).written
  have coherent' := SchemaGraph.coherent_of_built built' fun d member =>
    (parsed_of_mem_parseLiterals parsed' d member).written
  obtain ⟨clean', resolved⟩ := coherent.renames_ofDeclarations coherent' renames reordered clean.2
  have acyclic : checkCycles g' (p'.resolution g') = .ok () :=
    resolved.checkCycles (checkCycles_of_produce run parsed)
  refine ⟨_, produce_eq_ok parsed' built' acyclic, ?_, ?_, ?_⟩
  · rw [quiet, List.nil_append]
    exact clean'
  · rw [fields]
    exact resolved.fieldArtifacts renames
  · rw [entrypoints]
    exact resolved.artifacts_plans renames

end Runs

/-- A card that fetches itself again, and a badge that is loaded later. -/
def badgeTexts : List String :=
  ["field User.card($size: Int!) \x7b name(size: $size) __refetch \x7d",
    "field User.badge \x7b name(size: 3) \x7d",
    "field Query.home($n: Int!) \x7b me \x7b card(size: $n) badge @loadable \x7d \x7d",
    "entrypoint Query.home @lazyLoad(reader: true)"]

theorem produce_of_perm_badge :
    ∃ out out', produce .standard (userDocument sizeArgument []) (.ofLiterals badgeTexts) = .ok out ∧
      produce .standard (userDocument sizeArgument []) (.ofLiterals badgeTexts.reverse) = .ok out' ∧
      out.diagnostics.hasErrors = false ∧ out'.diagnostics.hasErrors = false ∧
      out.fields.map (·.id.fieldName) = ["card", "badge", "home"] ∧
      out.entrypoints.map (fun e => (e.operation.name, e.refetchQueries.length, e.lazyLoad.reader)) =
        [("home", 1, true), ("User__badge", 0, false)] ∧
      (out'.fields.map FieldArtifacts.toJson).Perm (out.fields.map FieldArtifacts.toJson) ∧
      out'.entrypoints.Perm out.entrypoints := by
  have shown : (produce .standard (userDocument sizeArgument []) (.ofLiterals badgeTexts)).isOk = true ∧
      (outputOf badgeTexts).diagnostics.hasErrors = false ∧
      (outputOf badgeTexts).fields.map (·.id.fieldName) = ["card", "badge", "home"] ∧
      (outputOf badgeTexts).entrypoints.map
          (fun e => (e.operation.name, e.refetchQueries.length, e.lazyLoad.reader)) =
        [("home", 1, true), ("User__badge", 0, false)] := by
    decide +kernel
  obtain ⟨possible, clean, fieldNames, queryNames⟩ := shown
  have run := produce_outputOf badgeTexts possible
  have same : (LiteralMap.ofLiterals badgeTexts).entries.Perm
      (LiteralMap.ofLiterals badgeTexts.reverse).entries :=
    badgeTexts.reverse_perm.symm.map _
  obtain ⟨out', run', clean', fields, entrypoints⟩ := produce_of_perm same run clean
  exact ⟨outputOf badgeTexts, out', run, run', clean, clean', fieldNames, queryNames, fields, entrypoints⟩

end IsoLiteral
