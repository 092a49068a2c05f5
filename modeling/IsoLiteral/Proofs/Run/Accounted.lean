import IsoLiteral.Proofs.Declaration.Outcome
import IsoLiteral.Proofs.Operation.Emitted
import IsoLiteral.Proofs.Operation.Planned
import IsoLiteral.Proofs.Resolution.Outcome

/-!
# Every literal is accounted for

Literals are left out of a run at several stages: where nothing can be made of their text, where something
is wrong with it, where the declaration cannot be resolved, and where nothing is fetched for an entrypoint.
None is left out without a word. What a run reports about a literal is reported at its index, so the
diagnostics of the whole run tell for each literal whether it was kept.
-/

namespace IsoLiteral

open Diagnostics

/-! ## Literals and their declarations -/

/-- The declaration that a literal is lowered to, with or without errors. -/
def Literal.declaration? (l : Literal) (limits : ParseLimits) (index : Nat) : Option Declaration :=
  (parseDeclaration l.content index limits).toOption.bind Prod.fst

/-- The declaration that the literal with an index is lowered to, with or without errors. -/
def LiteralMap.declaration? (m : LiteralMap) (limits : ParseLimits) (index : Nat) : Option Declaration :=
  (m.get? index).bind (·.declaration? limits index)

variable {limits : ParseLimits}

theorem declaration?_of_parseDeclaration {l : Literal} {index : Nat}
    {result : Option Declaration × Diagnostics}
    (run : parseDeclaration l.content index limits = .ok result) : l.declaration? limits index = result.1 := by
  rw [Literal.declaration?, run]
  rfl

/-- All that is reported while literals are parsed is about one of them. -/
theorem exists_isIn_of_mem_parseFrom (literals : List Literal) :
    ∀ index {p : ParsedLiterals}, parseFrom limits index literals = .ok p →
      ∀ problem ∈ p.diagnostics, ∃ i ≥ index, problem.isIn i = true := by
  induction literals with
  | nil =>
    intro index p run problem member
    cases run
    cases member
  | cons literal rest ih =>
    intro index p run problem member
    obtain ⟨result, more, first, others, -, diagnostics⟩ := parseFrom_cons_eq_ok run
    rw [diagnostics] at member
    rcases List.mem_append.1 member with own | later
    · exact ⟨index, le_rfl, (errors_of_parseDeclaration first problem own).2⟩
    · obtain ⟨i, after, here⟩ := ih (index + 1) others problem later
      exact ⟨i, by omega, here⟩

/-- What is reported in a literal is what parsing it alone reports. -/
theorem hasErrorsIn_parseFrom (literals : List Literal) :
    ∀ index {p : ParsedLiterals}, parseFrom limits index literals = .ok p →
      ∀ k l, literals[k]? = some l → ∃ result, parseDeclaration l.content (index + k) limits = .ok result ∧
        p.diagnostics.hasErrorsIn (index + k) = result.2.hasErrors := by
  induction literals with
  | nil =>
    intro index p run k l here
    cases here
  | cons literal rest ih =>
    intro index p run k l here
    obtain ⟨result, more, first, others, -, diagnostics⟩ := parseFrom_cons_eq_ok run
    have own : AreIn index result.2 := fun d member => (errors_of_parseDeclaration first d member).2
    rw [diagnostics, hasErrorsIn_append]
    cases k with
    | zero =>
      obtain rfl : literal = l := Option.some.inj here
      have quiet : more.diagnostics.hasErrorsIn index = false := by
        refine hasErrorsIn_of_elsewhere fun problem member => ?_
        obtain ⟨i, after, there⟩ := exists_isIn_of_mem_parseFrom rest _ others problem member
        exact ⟨i, by omega, there⟩
      refine ⟨result, first, ?_⟩
      rw [Nat.add_zero, quiet, Bool.or_false, own.hasErrorsIn]
    | succ k =>
      have quiet : result.2.hasErrorsIn (index + (k + 1)) = false :=
        hasErrorsIn_of_elsewhere fun problem member => ⟨index, by omega, own problem member⟩
      obtain ⟨result', parsed, same⟩ := ih (index + 1) others k l here
      have place : index + 1 + k = index + (k + 1) := by omega
      rw [place] at parsed same
      exact ⟨result', parsed, by rw [quiet, Bool.false_or, same]⟩

/-- The declarations of a run are those of its literals in order, as far as they are kept. -/
theorem declarations_parseFrom {kept : Nat → Option Declaration} (literals : List Literal) :
    ∀ index {p : ParsedLiterals}, parseFrom limits index literals = .ok p →
      (∀ k l result, literals[k]? = some l → parseDeclaration l.content (index + k) limits = .ok result →
        kept (index + k) = if result.2.hasErrors then none else result.1) →
      p.declarations = (List.range' index literals.length).filterMap kept := by
  induction literals with
  | nil =>
    intro index p run _
    cases run
    rfl
  | cons literal rest ih =>
    intro index p run same
    obtain ⟨result, more, first, others, declarations, -⟩ := parseFrom_cons_eq_ok run
    have own : kept index = if result.2.hasErrors then none else result.1 := same 0 literal result rfl first
    rw [declarations, List.length_cons, List.range'_succ, List.filterMap_cons, own,
      ih (index + 1) others fun k l result' here parsed => ?_]
    · split
      · rfl
      · cases result.1 <;> rfl
    · have place : index + 1 + k = index + (k + 1) := by omega
      rw [place] at parsed ⊢
      exact same (k + 1) l result' here parsed

section Parsed

variable {config : CompilerConfig} {literals : LiteralMap} {p : ParsedLiterals} {index : Nat}
  {d : Declaration}

theorem source_of_declaration? (lowered : literals.declaration? limits index = some d) :
    d.source = index := by
  obtain ⟨l, -, given⟩ := Option.bind_eq_some_iff.1 lowered
  rw [Literal.declaration?] at given
  cases run : parseDeclaration l.content index limits with
  | error e =>
    rw [run] at given
    cases given
  | ok result =>
    rw [run] at given
    obtain ⟨declaration, problems⟩ := result
    obtain rfl : declaration = some d := given
    exact (rooted_of_parseDeclaration run).source

/-- Every registered literal was parsed, and what is reported in it is what parsing it reports. -/
theorem exists_of_parseLiterals (parsed : parseLiterals config literals = .ok p) {l : Literal}
    (here : literals.get? index = some l) :
    ∃ result, parseDeclaration l.content index config.parseLimits = .ok result ∧
      literals.declaration? config.parseLimits index = result.1 ∧
      p.diagnostics.hasErrorsIn index = result.2.hasErrors := by
  obtain ⟨result, run, errors⟩ := hasErrorsIn_parseFrom _ 0 (parseFrom_of_parseLiterals parsed) index l here
  rw [Nat.zero_add] at run errors
  refine ⟨result, run, ?_, errors⟩
  rw [LiteralMap.declaration?, here, Option.bind_some, declaration?_of_parseDeclaration run]

/-- A literal that declares nothing has an error. -/
theorem hasErrorsIn_of_declaration?_none (parsed : parseLiterals config literals = .ok p)
    (registered : index < literals.size)
    (nothing : literals.declaration? config.parseLimits index = none) :
    p.diagnostics.hasErrorsIn index = true := by
  obtain ⟨l, here⟩ : ∃ l, literals.get? index = some l := ⟨_, List.getElem?_eq_getElem registered⟩
  obtain ⟨result, run, lowered, errors⟩ := exists_of_parseLiterals parsed here
  by_contra clean
  rw [errors, Bool.not_eq_true, hasErrors_of_parseDeclaration run] at clean
  exact reports_of_parseDeclaration_none run (lowered.symm.trans nothing) clean

/-- The declaration of a literal about which nothing is reported. -/
def LiteralMap.kept? (m : LiteralMap) (limits : ParseLimits) (reported : Diagnostics) (index : Nat) :
    Option Declaration :=
  if reported.hasErrorsIn index then none else m.declaration? limits index

theorem declarations_parseLiterals (parsed : parseLiterals config literals = .ok p) :
    p.declarations =
      (List.range literals.size).filterMap (literals.kept? config.parseLimits p.diagnostics) := by
  rw [List.range_eq_range']
  refine declarations_parseFrom _ 0 (parseFrom_of_parseLiterals parsed) fun k l result here run => ?_
  rw [Nat.zero_add] at run ⊢
  obtain ⟨result', again, lowered, errors⟩ := exists_of_parseLiterals parsed here
  obtain rfl : result = result' := Except.ok.inj (run.symm.trans again)
  rw [LiteralMap.kept?, errors, lowered]

theorem source_of_kept? {reported : Diagnostics}
    (kept : literals.kept? limits reported index = some d) : d.source = index := by
  unfold LiteralMap.kept? at kept
  split at kept
  · cases kept
  · exact source_of_declaration? kept

/-- No two declarations come from one literal. -/
theorem nodup_sources (parsed : parseLiterals config literals = .ok p) :
    (p.declarations.map (·.source)).Nodup := by
  rw [declarations_parseLiterals parsed, List.map_filterMap]
  refine List.Nodup.filterMap (fun i j source here there => ?_) List.nodup_range
  obtain ⟨d, kept, rfl⟩ := Option.map_eq_some_iff.1 here
  obtain ⟨d', kept', same⟩ := Option.map_eq_some_iff.1 there
  rw [← source_of_kept? kept, ← source_of_kept? kept', same]

end Parsed

/-! ## Runs -/

/-- The literal that declares a field of the graph. -/
def ParsedLiterals.owner? (p : ParsedLiterals) (g : SchemaGraph) (field : FieldId) : Option Nat := do
  let index ← (g.field field).declaration?
  let d ← p.declarations[index]?
  return d.source

/-- The literals that declare a field or a pointer and in which a run reports no error. -/
def CompilationOutput.bundled (o : CompilationOutput) (limits : ParseLimits) (literals : LiteralMap) :
    List Nat :=
  (List.range literals.size).filter fun i =>
    (literals.declaration? limits i).any (·.kind ≠ .entrypoint) && !o.diagnostics.hasErrorsIn i

/-- A bundle is that of a literal: its field is declared by the literal and named as there. -/
structure ParsedLiterals.IsBundle (p : ParsedLiterals) (g : SchemaGraph) (d : Declaration)
    (bundle : FieldArtifacts) : Prop where
  owner : p.owner? g bundle.field = some d.source
  typeName : bundle.id.typeName = d.parentType.text
  fieldName : bundle.id.fieldName = d.fieldName.text

/-- Everything that becomes of the literals of a run. -/
structure CompilationOutput.Accounts (o : CompilationOutput) (config : CompilerConfig)
    (document : SchemaDocument) (literals : LiteralMap) (p : ParsedLiterals) : Prop where
  /-- The bundles are those of the literals that should have one, in order. -/
  bundles : List.Forall₂
    (fun i bundle => ∃ d, literals.declaration? config.parseLimits i = some d ∧ p.IsBundle o.schema d bundle)
    (o.bundled config.parseLimits literals) o.fields
  /-- A literal that declares nothing has an error. -/
  undeclared : ∀ i < literals.size, literals.declaration? config.parseLimits i = none →
    o.diagnostics.hasErrorsIn i = true
  /-- An entrypoint has an error, or names a field whose literal has one, or is fetched once. -/
  entrypoints : ∀ i d, literals.declaration? config.parseLimits i = some d → d.kind = .entrypoint →
    o.diagnostics.hasErrorsIn i = true ∨
      ∃ field, o.schema.fieldByName? d.parentType.text d.fieldName.text = some field ∧
        ((∃ j, p.owner? o.schema field = some j ∧ o.diagnostics.hasErrorsIn j = true) ∨
          (o.entrypoints.map (·.id)).count (o.schema.entrypointId field) = 1)
  /-- Compiling gives the output exactly if no error is reported. -/
  accepted : compile config document literals = .ok o ↔ ∀ d ∈ o.diagnostics, d.isError = false
  /-- Compiling fails with all that is reported exactly if there is an error in it. -/
  refused : compile config document literals = .error (.compilation o.diagnostics) ↔
    ∃ d ∈ o.diagnostics, d.isError = true

theorem forall₂_filter_filterMap {α β : Type} {keep : α → Bool} {f : α → Option β} {R : α → β → Prop}
    {xs : List α} (kept : ∀ a ∈ xs, keep a = true → ∃ b, f a = some b ∧ R a b)
    (dropped : ∀ a ∈ xs, keep a = false → f a = none) : List.Forall₂ R (xs.filter keep) (xs.filterMap f) := by
  induction xs with
  | nil => exact .nil
  | cons a rest ih =>
    have later := ih (fun b member => kept b (List.mem_cons_of_mem a member))
      fun b member => dropped b (List.mem_cons_of_mem a member)
    cases keeps : keep a with
    | true =>
      obtain ⟨b, given, related⟩ := kept a List.mem_cons_self keeps
      rw [List.filter_cons_of_pos keeps, List.filterMap_cons_some given]
      exact .cons related later
    | false =>
      rw [List.filter_cons_of_neg (by simp [keeps]),
        List.filterMap_cons_none (dropped a List.mem_cons_self keeps)]
      exact later

section Compiled

variable {config : CompilerConfig} {document : SchemaDocument} {literals : LiteralMap}
  {out : CompilationOutput} {p : ParsedLiterals} {index : Nat} {d : Declaration}

/-- A declaration of a run is that of its literal, in which parsing reports nothing. -/
theorem of_mem_declarations (parsed : parseLiterals config literals = .ok p) (member : d ∈ p.declarations) :
    d.source < literals.size ∧ p.diagnostics.hasErrorsIn d.source = false ∧
      literals.declaration? config.parseLimits d.source = some d := by
  rw [declarations_parseLiterals parsed] at member
  obtain ⟨i, listed, kept⟩ := List.mem_filterMap.1 member
  obtain rfl := source_of_kept? kept
  unfold LiteralMap.kept? at kept
  split at kept
  · cases kept
  · rename_i clean
    exact ⟨List.mem_range.1 listed, by simpa using clean, kept⟩

/-- The errors in the literal of a declaration are those of resolving it. -/
theorem hasErrorsIn_produce (run : produce config document literals = .ok out)
    (parsed : parseLiterals config literals = .ok p) (member : d ∈ p.declarations) :
    out.diagnostics.hasErrorsIn d.source =
      (Resolution.ofDeclarations out.schema p.declarations).2.hasErrorsIn d.source := by
  obtain ⟨-, clean, -⟩ := of_mem_declarations parsed member
  rw [(stages_of_produce run parsed).2.2.2, hasErrorsIn_append, clean, Bool.false_or]

theorem settles_produce (run : produce config document literals = .ok out)
    (parsed : parseLiterals config literals = .ok p) (known : p.declarations[index]? = some d) :
    Settles out.schema index d (p.resolution out.schema, out.diagnostics) := by
  have settles := settles_resolveFrom out.schema (nodup_sources parsed) 0 [] index d known
  rw [Nat.zero_add] at settles
  have same := hasErrorsIn_produce run parsed (List.mem_of_getElem? known)
  exact ⟨fun kind => same.trans (settles.ofField kind),
    fun kind clean => settles.ofEntrypoint kind (same.symm.trans clean)⟩

theorem coherent_produce (run : produce config document literals = .ok out)
    (parsed : parseLiterals config literals = .ok p) : out.schema.Coherent p.declarations :=
  SchemaGraph.coherent_of_built (stages_of_produce run parsed).1 fun d member =>
    (parsed_of_mem_parseLiterals parsed d member).written

/-- A declaration of a field or pointer is resolved, to the field that it owns, exactly if there is no error
in its literal. -/
theorem resolved?_produce (run : produce config document literals = .ok out)
    (parsed : parseLiterals config literals = .ok p) (known : p.declarations[index]? = some d)
    (kind : d.kind ≠ .entrypoint) :
    ∃ f, (resolveField out.schema index d).1 = some f ∧
      d.resolved? out.schema index = (if out.diagnostics.hasErrorsIn d.source then none else some f) ∧
      out.schema.fieldByName? d.parentType.text d.fieldName.text = some f.field ∧
      p.owner? out.schema f.field = some d.source := by
  obtain ⟨f, resolved, found, own, -⟩ := (coherent_produce run parsed).exists_resolveField known kind
  refine ⟨f, resolved, ?_, found, ?_⟩
  · rw [Declaration.resolved?, if_neg kind, withoutErrors, resolved,
      (settles_produce run parsed known).ofField kind]
  · rw [ParsedLiterals.owner?, own, Option.bind_eq_bind, Option.bind_some, known]
    rfl

/-- Whether a declaration should have a bundle. -/
def CompilationOutput.bundles (o : CompilationOutput) (d : Declaration) : Bool :=
  decide (d.kind ≠ .entrypoint) && !o.diagnostics.hasErrorsIn d.source

/-- The literals that should have a bundle, by their declarations. -/
theorem bundled_eq (run : produce config document literals = .ok out)
    (parsed : parseLiterals config literals = .ok p) :
    out.bundled config.parseLimits literals =
      ((p.declarations.zipIdx).filter fun x => out.bundles x.1).map (·.1.source) := by
  have enumerated : (p.declarations.filter out.bundles).map (·.source) =
      ((p.declarations.zipIdx).filter fun x => out.bundles x.1).map (·.1.source) := by
    conv_lhs => rw [← List.zipIdx_map_fst 0 p.declarations, List.filter_map, List.map_map]
    rfl
  have judged (i : Nat) (lowered : Option Declaration) (source : ∀ d, lowered = some d → d.source = i) :
      (lowered.filter out.bundles).map (·.source) =
        if lowered.any (·.kind ≠ .entrypoint) && !out.diagnostics.hasErrorsIn i then some i else none := by
    cases lowered with
    | none => rfl
    | some d =>
      obtain rfl := source d rfl
      rw [Option.filter_some, Option.any_some, CompilationOutput.bundles]
      split <;> rfl
  rw [← enumerated, declarations_parseLiterals parsed, List.filter_filterMap, List.map_filterMap,
    CompilationOutput.bundled, ← List.filterMap_eq_filter]
  refine List.filterMap_congr fun i listed => ?_
  rw [LiteralMap.kept?]
  split
  · rename_i reported
    have still : out.diagnostics.hasErrorsIn i = true := by
      rw [(stages_of_produce run parsed).2.2.2, hasErrorsIn_append, reported, Bool.true_or]
    simp [Option.guard, still]
  · exact (judged i _ fun d => source_of_declaration?).symm

theorem bundles_produce (run : produce config document literals = .ok out)
    (parsed : parseLiterals config literals = .ok p) :
    List.Forall₂ (fun i bundle => ∃ d, literals.declaration? config.parseLimits i = some d ∧
        p.IsBundle out.schema d bundle)
      (out.bundled config.parseLimits literals) out.fields := by
  obtain ⟨built, -, fields, -⟩ := stages_of_produce run parsed
  rw [bundled_eq run parsed, fields, Resolution.fieldArtifacts, ParsedLiterals.resolution,
    Resolution.ofDeclarations, fields_resolveFrom, List.forall₂_map_left_iff, List.forall₂_map_right_iff]
  refine forall₂_filter_filterMap (fun x member keeps => ?_) fun x member drops => ?_
  · obtain ⟨d, index⟩ := x
    have known := List.mem_zipIdx_iff_getElem?.1 member
    rw [CompilationOutput.bundles, Bool.and_eq_true, decide_eq_true_eq, Bool.not_eq_true'] at keeps
    obtain ⟨f, resolved, given, found, owner⟩ := resolved?_produce run parsed known keeps.1
    rw [keeps.2, if_neg Bool.false_ne_true] at given
    obtain ⟨-, -, lowered⟩ := of_mem_declarations parsed (List.mem_of_getElem? known)
    obtain ⟨-, typeName, fieldName⟩ := (SchemaGraph.fieldByName?_iff built).1 found
    have parent := (resolvedOn_resolveField _ _ _ f resolved).parent
    exact ⟨f, given, d, lowered, owner, by rw [← typeName, ← parent]; rfl, fieldName⟩
  · obtain ⟨d, index⟩ := x
    have known := List.mem_zipIdx_iff_getElem?.1 member
    by_cases kind : d.kind = .entrypoint
    · exact if_pos kind
    · obtain ⟨f, -, given, -⟩ := resolved?_produce run parsed known kind
      have errors : out.diagnostics.hasErrorsIn d.source = true := by
        simpa [CompilationOutput.bundles, kind] using drops
      rw [given, errors, if_pos rfl]

/-- A declared field is resolved, or there is an error in the literal that declares it. -/
theorem field?_produce (run : produce config document literals = .ok out)
    (parsed : parseLiterals config literals = .ok p) {field : FieldId}
    (valid : field.index < out.schema.fields.length)
    (declared : (out.schema.field field).declaration?.isSome = true) :
    ((p.resolution out.schema).field? field).isSome = true ∨
      ∃ j, p.owner? out.schema field = some j ∧ out.diagnostics.hasErrorsIn j = true := by
  have coherent := coherent_produce run parsed
  obtain ⟨index, own⟩ := Option.isSome_iff_exists.1 declared
  obtain ⟨d, known, kind⟩ := coherent.owners _ (List.mem_of_getElem? (SchemaGraph.getElem?_fields valid))
    index (FieldDefinition.declaration?_eq_some.1 own)
  obtain ⟨f, resolved, -, -, only⟩ := coherent.exists_resolveField known kind
  obtain ⟨f', resolved', given, -, owner⟩ := resolved?_produce run parsed known kind
  obtain rfl : f = f' := Option.some.inj (resolved.symm.trans resolved')
  obtain rfl := only field valid own
  by_cases errors : out.diagnostics.hasErrorsIn d.source = true
  · exact .inr ⟨d.source, owner, errors⟩
  · rw [if_neg errors] at given
    have listed : f ∈ (p.resolution out.schema).fields := by
      rw [ParsedLiterals.resolution, Resolution.ofDeclarations, fields_resolveFrom]
      exact List.mem_filterMap.2 ⟨(d, index), List.mem_zipIdx_iff_getElem?.2 known, given⟩
    exact .inl (List.find?_isSome.2 ⟨f, listed, by simp⟩)

theorem entrypoints_produce (run : produce config document literals = .ok out)
    (parsed : parseLiterals config literals = .ok p)
    (lowered : literals.declaration? config.parseLimits index = some d) (kind : d.kind = .entrypoint) :
    out.diagnostics.hasErrorsIn index = true ∨
      ∃ field, out.schema.fieldByName? d.parentType.text d.fieldName.text = some field ∧
        ((∃ j, p.owner? out.schema field = some j ∧ out.diagnostics.hasErrorsIn j = true) ∨
          (out.entrypoints.map (·.id)).count (out.schema.entrypointId field) = 1) := by
  obtain ⟨built, entrypoints, -, diagnostics⟩ := stages_of_produce run parsed
  by_cases errors : out.diagnostics.hasErrorsIn index = true
  · exact .inl errors
  · refine .inr ?_
    rw [Bool.not_eq_true] at errors
    -- the declaration is kept
    have member : d ∈ p.declarations := by
      have quiet : p.diagnostics.hasErrorsIn index = false := by
        rw [diagnostics, hasErrorsIn_append, Bool.or_eq_false_iff] at errors
        exact errors.1
      obtain ⟨l, here, -⟩ := Option.bind_eq_some_iff.1 lowered
      rw [declarations_parseLiterals parsed]
      refine List.mem_filterMap.2 ⟨index, List.mem_range.2 (List.getElem?_eq_some_iff.1 here).1, ?_⟩
      rw [LiteralMap.kept?, quiet, if_neg Bool.false_ne_true, lowered]
    obtain ⟨k, known⟩ := List.mem_iff_getElem?.1 member
    obtain rfl := source_of_declaration? lowered
    obtain ⟨e, listed, found, declared⟩ := (settles_produce run parsed known).ofEntrypoint kind errors
    refine ⟨e.field, found, ?_⟩
    rcases field?_produce run parsed ((SchemaGraph.fieldByName?_iff built).1 found).1 declared with
      resolved | broken
    · refine .inr ?_
      rw [entrypoints, List.map_map]
      exact count_entrypointId_plans built rfl listed resolved
    · exact .inl broken

/-- A run with an output compiles exactly if the output is accepted. -/
theorem compile_of_produce (run : produce config document literals = .ok out) :
    compile config document literals = out.accept := by
  rw [compile, run]
  rfl

theorem CompilationOutput.accept_eq_ok_iff (o : CompilationOutput) :
    o.accept = .ok o ↔ ∀ d ∈ o.diagnostics, d.isError = false := by
  unfold accept
  split <;> rename_i errors
  · obtain ⟨d, member, error⟩ := List.any_eq_true.1 errors
    constructor
    · intro same
      cases same
    · intro clean
      rw [clean d member] at error
      cases error
  · simpa [hasErrors] using errors

theorem CompilationOutput.accept_eq_error_iff (o : CompilationOutput) :
    o.accept = .error (.compilation o.diagnostics) ↔ ∃ d ∈ o.diagnostics, d.isError = true := by
  unfold accept
  split <;> rename_i errors
  · exact iff_of_true rfl (List.any_eq_true.1 errors)
  · constructor
    · intro same
      cases same
    · exact fun reported => absurd (List.any_eq_true.2 reported) errors

/-- **Nothing is dropped silently.** In every run that ends with an output, the bundles of artifacts are those
of the literals that declare a field or a pointer and in which no error is reported, one for each and in
order. A literal that declares nothing has an error, and so has an entrypoint, or the literal of its field,
unless exactly one artifact fetches that field. Compiling gives the output exactly if no error is reported at
all, and fails with the reports otherwise. -/
theorem accounts_of_produce (run : produce config document literals = .ok out) :
    ∃ p, parseLiterals config literals = .ok p ∧ out.Accounts config document literals p := by
  obtain ⟨p, parsed⟩ := exists_parseLiterals run
  have compiled := compile_of_produce run
  refine ⟨p, parsed, bundles_produce run parsed, fun i registered nothing => ?_, fun i d lowered kind => ?_,
    compiled ▸ out.accept_eq_ok_iff, compiled ▸ out.accept_eq_error_iff⟩
  · rw [(stages_of_produce run parsed).2.2.2, hasErrorsIn_append,
      hasErrorsIn_of_declaration?_none parsed registered nothing, Bool.true_or]
  · exact entrypoints_produce run parsed lowered kind

end Compiled

/-- A card with an entrypoint for the page that shows it, among literals that are cut short, select what does
not exist or fetch what was not kept. -/
def mixedTexts : List String :=
  ["field User.card($size: Int!) \x7b name(size: $size) \x7d", "field User.name \x7b",
    "field Query.home($n: Int!) \x7b me \x7b card(size: $n) \x7d \x7d", "field Query.lost \x7b nothing \x7d",
    "entrypoint Query.home", "entrypoint Query.lost"]

theorem accounts_of_produce_mixed :
    ∃ out p, produce .standard (userDocument sizeArgument []) (.ofLiterals mixedTexts) = .ok out ∧
      out.bundled CompilerConfig.standard.parseLimits (.ofLiterals mixedTexts) = [0, 2] ∧
      out.fields.length = 2 ∧ out.entrypoints.length = 1 ∧
      out.Accounts .standard (userDocument sizeArgument []) (.ofLiterals mixedTexts) p := by
  have kept : (produce .standard (userDocument sizeArgument []) (.ofLiterals mixedTexts)).isOk = true ∧
      (outputOf mixedTexts).bundled CompilerConfig.standard.parseLimits (.ofLiterals mixedTexts) = [0, 2] ∧
      (outputOf mixedTexts).fields.length = 2 ∧ (outputOf mixedTexts).entrypoints.length = 1 := by
    decide +kernel
  obtain ⟨possible, bundled, fields, entrypoints⟩ := kept
  have run := produce_outputOf mixedTexts possible
  obtain ⟨p, -, accounts⟩ := accounts_of_produce run
  exact ⟨outputOf mixedTexts, p, run, bundled, fields, entrypoints, accounts⟩

end IsoLiteral
