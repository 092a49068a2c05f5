import IsoLiteral.Proofs.Operation.Extension
import IsoLiteral.Proofs.Resolution.Extension
import IsoLiteral.Proofs.Run.Reordered

/-!
# More literals

Literals that are registered after others are parsed after them, add their fields to the graph after theirs, and
are resolved after them. A run that ends without an error has looked up nothing in vain, so whatever it found is found
with more fields too, under the same numbers. What it followed from field to field stays within the fields that it
had. Its artifacts are the same with more literals, and those of further fields come after them.
-/

namespace IsoLiteral

open Diagnostics

/-! ## Parsing -/

/-- A literal declares an entrypoint, wherever it is registered. -/
def Literal.DeclaresEntrypoint (l : Literal) (limits : ParseLimits) : Prop :=
  ∃ bare, l.Declares limits bare ∧ bare.kind = .entrypoint

section Parsing

variable {limits : ParseLimits}

/-- Literals are parsed one after another. -/
theorem parseFrom_append (first more : List Literal) :
    ∀ {index : Nat} {p : ParsedLiterals}, parseFrom limits index (first ++ more) = .ok p →
      ∃ q q', parseFrom limits index first = .ok q ∧ parseFrom limits (index + first.length) more = .ok q' ∧
        p.declarations = q.declarations ++ q'.declarations := by
  induction first with
  | nil => exact fun run => ⟨⟨[], []⟩, _, rfl, run, rfl⟩
  | cons literal rest ih =>
    intro index p run
    obtain ⟨result, others, parsed, later, declarations, -⟩ := parseFrom_cons_eq_ok run
    obtain ⟨q, q', run, run', both⟩ := ih later
    refine ⟨⟨(if result.2.hasErrors then [] else result.1.toList) ++ q.declarations, result.2 ++ q.diagnostics⟩, q',
      ?_, ?_, ?_⟩
    · simp [parseFrom, parsed, run, bind, Except.bind, pure, Except.pure]
    · rwa [List.length_cons, Nat.add_comm rest.length, ← Nat.add_assoc]
    · rw [declarations, both, List.append_assoc]

/-- What is kept of literals none of which declares an entrypoint is no entrypoint. -/
theorem kind_ne_of_mem_parseFrom (literals : List Literal) :
    ∀ {index : Nat} {p : ParsedLiterals}, parseFrom limits index literals = .ok p →
      (∀ l ∈ literals, ¬ l.DeclaresEntrypoint limits) → ∀ d ∈ p.declarations, d.kind ≠ .entrypoint := by
  induction literals with
  | nil =>
    intro index p run _ d member
    cases run
    cases member
  | cons literal rest ih =>
    intro index p run plain d member
    obtain ⟨here, others⟩ := List.forall_mem_cons.1 plain
    obtain ⟨result, more, parsed, later, declarations, -⟩ := parseFrom_cons_eq_ok run
    rw [declarations] at member
    rcases List.mem_append.1 member with own | after
    · split at own
      · cases own
      · rename_i clean
        obtain ⟨e, given, declares⟩ := Literal.declares_of_parseDeclaration parsed (by simpa using clean)
        rw [given, Option.toList_some, List.mem_singleton] at own
        subst own
        exact fun entrypoint => here ⟨_, declares, entrypoint⟩
    · exact ih later others d after

end Parsing

section Runs

variable {config : CompilerConfig} {document : SchemaDocument} {first more : List Literal}
  {out out' : CompilationOutput}

/-- **More literals extend a run.** If a run ends without an error, a run on the same literals and further ones that
declare no entrypoints ends, if it ends with an output, with the same artifacts of fields, numbers included, before
those of further fields, and with exactly the same entrypoints. -/
theorem produce_append (run : produce config document ⟨first⟩ = .ok out)
    (clean : out.diagnostics.hasErrors = false) (plain : ∀ l ∈ more, ¬ l.DeclaresEntrypoint config.parseLimits)
    (run' : produce config document ⟨first ++ more⟩ = .ok out') :
    out.fields <+: out'.fields ∧ out'.entrypoints = out.entrypoints := by
  obtain ⟨p, parsed⟩ := exists_parseLiterals run
  obtain ⟨p', parsed'⟩ := exists_parseLiterals run'
  obtain ⟨built, entrypoints, fields, diagnostics⟩ := stages_of_produce run parsed
  obtain ⟨built', entrypoints', fields', -⟩ := stages_of_produce run' parsed'
  have coherent := SchemaGraph.coherent_of_built built fun d member =>
    (parsed_of_mem_parseLiterals parsed d member).written
  have coherent' := SchemaGraph.coherent_of_built built' fun d member =>
    (parsed_of_mem_parseLiterals parsed' d member).written
  rw [diagnostics, hasErrors_append, Bool.or_eq_false_iff] at clean
  -- the declarations of the further literals come last, and none of them is an entrypoint
  obtain ⟨q, q', same, others, declarations⟩ := parseFrom_append first more (parseFrom_of_parseLiterals parsed')
  obtain rfl : p = q := Except.ok.inj ((parseFrom_of_parseLiterals parsed).symm.trans same)
  have unfetched := kind_ne_of_mem_parseFrom more others plain
  rw [ParsedLiterals.resolution] at entrypoints fields entrypoints' fields'
  rw [declarations] at built' coherent' entrypoints' fields'
  have extended := SchemaGraph.extends_ofDocument built built'
  have embeds := extended.embeds built built'
  have embedded := coherent.embeds_ofDeclarations coherent' clean.2 extended embeds unfetched
  have renamed := coherent.map_rename_fields_of_embeds coherent' clean.2 embeds
  have listed := fields_ofDeclarations_append out'.schema p.declarations q'.declarations
  have fewer : (Resolution.ofDeclarations out.schema p.declarations).1.fields.length ≤
      (Resolution.ofDeclarations out'.schema (p.declarations ++ q'.declarations)).1.fields.length := by
    have lengths := congrArg List.length renamed
    rw [List.length_map, List.length_map] at lengths
    rw [listed, List.length_append, lengths]
    exact Nat.le_add_right _ _
  have acyclic := (checkCycles_eq_ok_iff out.schema _).1 (checkCycles_of_produce run parsed)
  have simulated := embedded.simulatedBy acyclic fewer
  have ordered := ResolvedEntrypoint.map_field_of_rename
    (coherent.map_rename_entrypoints_append coherent' clean.2 embeds unfetched)
  constructor
  · rw [fields, fields', Resolution.fieldArtifacts, Resolution.fieldArtifacts, listed, List.map_append,
      map_artifacts_of_rename embeds renamed fun f member => ?_]
    · exact List.prefix_append _ _
    · obtain ⟨d, -, comes⟩ := exists_resolvedFrom member
      exact SchemaGraph.numberBeyond_of_lt ((coherent.fields _ _ _).1 comes.found).1
  · rw [entrypoints, entrypoints']
    exact Resolution.SimulatedBy.artifacts_plans_eq embeds simulated ordered

end Runs

/-- A home page with the card of a user, which can be requested again. -/
def cardPageTexts : List String :=
  ["field User.card($size: Int!) \x7b name(size: $size) __refetch \x7d",
    "field Query.home($n: Int!) \x7b me \x7b card(size: $n) \x7d \x7d", "entrypoint Query.home"]

/-- Two further fields of users, the second of which selects something unknown. -/
def furtherTexts : List String :=
  ["field User.badge \x7b name(size: 3) card(size: 1) \x7d", "field User.broken \x7b card(size: 2) unknown \x7d"]

theorem produce_append_further :
    ∃ out out', produce .standard (userDocument sizeArgument []) (.ofLiterals cardPageTexts) = .ok out ∧
      produce .standard (userDocument sizeArgument []) (.ofLiterals (cardPageTexts ++ furtherTexts)) = .ok out' ∧
      out.diagnostics.hasErrors = false ∧ out'.diagnostics.hasErrors = true ∧
      out.fields.map (·.id.fieldName) = ["card", "home"] ∧
      out'.fields.map (·.id.fieldName) = ["card", "home", "badge"] ∧
      out.entrypoints.map (·.operation.name) = ["home"] ∧
      out.fields <+: out'.fields ∧ out'.entrypoints = out.entrypoints := by
  have shown : (produce .standard (userDocument sizeArgument []) (.ofLiterals cardPageTexts)).isOk = true ∧
      (produce .standard (userDocument sizeArgument [])
        (.ofLiterals (cardPageTexts ++ furtherTexts))).isOk = true ∧
      (outputOf cardPageTexts).diagnostics.hasErrors = false ∧
      (outputOf (cardPageTexts ++ furtherTexts)).diagnostics.hasErrors = true ∧
      (outputOf cardPageTexts).fields.map (·.id.fieldName) = ["card", "home"] ∧
      (outputOf (cardPageTexts ++ furtherTexts)).fields.map (·.id.fieldName) = ["card", "home", "badge"] ∧
      (outputOf cardPageTexts).entrypoints.map (·.operation.name) = ["home"] := by
    decide +kernel
  have kinds : (LiteralMap.ofLiterals furtherTexts).entries.all (fun l =>
      (parseDeclaration l.content 0 CompilerConfig.standard.parseLimits).toOption.all fun result =>
        result.1.all (·.kind ≠ .entrypoint)) = true := by
    decide +kernel
  have plain : ∀ l ∈ (LiteralMap.ofLiterals furtherTexts).entries,
      ¬ l.DeclaresEntrypoint CompilerConfig.standard.parseLimits := by
    rintro l member ⟨bare, declares, entrypoint⟩
    obtain ⟨d, parsed, rfl⟩ := declares 0
    have kind := List.all_eq_true.1 kinds l member
    rw [parsed] at kind
    exact of_decide_eq_true kind entrypoint
  obtain ⟨possible, possible', clean, errors, fields, fields', entrypoints⟩ := shown
  have run := produce_outputOf cardPageTexts possible
  have run' := produce_outputOf (cardPageTexts ++ furtherTexts) possible'
  have both : LiteralMap.ofLiterals (cardPageTexts ++ furtherTexts) =
      ⟨(LiteralMap.ofLiterals cardPageTexts).entries ++ (LiteralMap.ofLiterals furtherTexts).entries⟩ :=
    congrArg LiteralMap.mk List.map_append
  exact ⟨_, _, run, run', clean, errors, fields, fields', entrypoints,
    produce_append run clean plain (both ▸ run')⟩

end IsoLiteral
