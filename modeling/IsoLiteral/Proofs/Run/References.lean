import IsoLiteral.Proofs.Artifact.References
import IsoLiteral.Proofs.Operation.Plans
import IsoLiteral.Proofs.Resolution.Reordered
import IsoLiteral.Proofs.Run.Accounted
import IsoLiteral.Proofs.Schema.Stages

/-!
# References between the artifacts of a run

Where a run reports no error, what literals give to the graph is resolved, and nothing else is. So a reader that
some artifact of the run names is among its artifacts, once. An entrypoint that is named by a field that is read
for another entrypoint is among them too, unless what is loaded is the field that requests a record again: it is
found in the graph, but no literal declares it.
-/

namespace IsoLiteral

variable {config : CompilerConfig} {document : SchemaDocument} {literals : LiteralMap} {out : CompilationOutput}
  {p : ParsedLiterals} {id : FieldId}

/-! ## Runs without errors -/

theorem hasErrorsIn_eq_false {ds : Diagnostics} (clean : ds.hasErrors = false) (source : Nat) :
    ds.hasErrorsIn source = false := by
  rw [Diagnostics.hasErrors, List.any_eq_false] at clean
  refine List.any_eq_false.2 fun d member error => clean d member ?_
  exact (Bool.and_eq_true_iff.1 error).1

/-- In a run without errors, the fields that literals give to the graph are resolved, and no others. -/
theorem isSome_field?_produce_iff (run : produce config document literals = .ok out)
    (parsed : parseLiterals config literals = .ok p) (clean : out.diagnostics.hasErrors = false)
    (valid : id.index < out.schema.fields.length) :
    ((p.resolution out.schema).field? id).isSome = true ↔
      SchemaBuilder.IsDeclaredKind (out.schema.field id).kind := by
  have built := (stages_of_produce run parsed).1
  have inside := List.mem_of_getElem? (SchemaGraph.getElem?_fields valid)
  rw [← SchemaGraph.isDeclaredKind_iff built inside]
  constructor
  · intro resolved
    obtain ⟨f, found⟩ := Option.isSome_iff_exists.1 resolved
    obtain ⟨listed, rfl⟩ := Resolution.field_of_field? found
    obtain ⟨d, -, comes⟩ := exists_resolvedFrom listed
    exact ⟨f.declaration, FieldDefinition.declaration?_eq_some.1 comes.origin⟩
  · rintro ⟨index, origin⟩
    have declared : (out.schema.field id).declaration?.isSome = true := by
      rw [FieldDefinition.declaration?_eq_some.2 origin]
      rfl
    refine (field?_produce run parsed valid declared).resolve_right ?_
    rintro ⟨j, -, errors⟩
    rw [hasErrorsIn_eq_false clean] at errors
    cases errors

theorem id_artifacts {g : SchemaGraph} {f : ResolvedField} (on : ResolvedOn g f) :
    (f.artifacts g).id = g.readerId f.field f.artifactKind := by
  rw [ResolvedField.artifacts, ResolvedField.artifactId, SchemaGraph.readerId, on.parent]

/-- No two artifacts of fields have one name. -/
theorem nodup_id_fields (run : produce config document literals = .ok out) :
    (out.fields.map (·.id)).Nodup := by
  obtain ⟨p, parsed⟩ := exists_parseLiterals run
  obtain ⟨built, -, fields, -⟩ := stages_of_produce run parsed
  -- the names of the type and the field tell which field it is
  refine List.Nodup.of_map (fun name => out.schema.fieldByName? name.typeName name.fieldName) ?_
  have found : ∀ f ∈ (p.resolution out.schema).fields, out.schema.fieldByName?
      (f.artifacts out.schema).id.typeName (f.artifacts out.schema).id.fieldName = some f.field := by
    intro f listed
    obtain ⟨d, -, comes⟩ := exists_resolvedFrom listed
    obtain ⟨valid, -⟩ := (SchemaGraph.fieldByName?_iff built).1 comes.found
    rw [id_artifacts (resolvedOn_resolveFrom _ _ 0 [] f listed)]
    exact (SchemaGraph.fieldByName?_iff built).2 ⟨valid, rfl, rfl⟩
  rw [fields, Resolution.fieldArtifacts, List.map_map, List.map_map]
  refine (List.map_congr_left found : _ = _) ▸ ?_
  have distinct := (nodup_fields_ofDeclarations out.schema p.declarations).map (Option.some_injective FieldId)
  rwa [List.map_map] at distinct

/-- In a run without errors, the reader of a field that a literal gives is an artifact of the run. -/
theorem count_readerId_produce (run : produce config document literals = .ok out)
    (clean : out.diagnostics.hasErrors = false) {type : TypeId} {name : String}
    (found : out.schema.lookupField? type name = some id)
    (declared : SchemaBuilder.IsDeclaredKind (out.schema.field id).kind) {kind : ArtifactKind}
    {target : Option TypeId} (form : declaredForm? (out.schema.field id).kind = some (kind, target)) :
    (out.fields.map (·.id)).count (out.schema.readerId id kind) = 1 := by
  obtain ⟨p, parsed⟩ := exists_parseLiterals run
  obtain ⟨built, -, fields, -⟩ := stages_of_produce run parsed
  obtain ⟨valid, -⟩ := (SchemaGraph.lookupField?_iff built).1 found
  have resolved := (isSome_field?_produce_iff run parsed clean valid).2 declared
  obtain ⟨f, found⟩ := Option.isSome_iff_exists.1 resolved
  obtain ⟨on, rfl⟩ := resolvedOn_ofDeclarations _ _ found
  obtain ⟨rfl, -⟩ : f.artifactKind = kind ∧ f.pointerTarget = target := by
    simpa using on.form.symm.trans form
  refine List.count_eq_one_of_mem (nodup_id_fields run) ?_
  rw [fields, Resolution.fieldArtifacts, List.map_map]
  exact List.mem_map.2 ⟨f, List.mem_of_find?_eq_some found, id_artifacts on⟩

/-! ## Readers -/

/-- Every reader that the artifacts of a field name is, once, among the artifacts of the run; only those that
request a record again are none. -/
structure CompilationOutput.HoldsReaders (out : CompilationOutput) (a : FieldArtifacts) : Prop where
  read : ∀ node ∈ ReaderNode.all a.reader, ∀ id, node.readerArtifact? = some id →
    id.role ≠ .reader .refetchAction → (out.fields.map (·.id)).count id = 1
  computed : ∀ node ∈ ReaderNode.all a.reader, ∀ id, node.condition? = some id →
    (out.fields.map (·.id)).count id = 1
  received : ∀ id ∈ a.parameters.outputs, (out.fields.map (·.id)).count id = 1

/-- The artifacts of a run come from fields that are resolved on its graph. -/
theorem exists_artifacts_of_mem (run : produce config document literals = .ok out)
    (parsed : parseLiterals config literals = .ok p) {a : FieldArtifacts} (member : a ∈ out.fields) :
    ∃ f ∈ (p.resolution out.schema).fields, a = f.artifacts out.schema ∧ ResolvedOn out.schema f := by
  rw [(stages_of_produce run parsed).2.2.1] at member
  obtain ⟨f, listed, rfl⟩ := List.mem_map.1 member
  exact ⟨f, listed, rfl, resolvedOn_resolveFrom _ _ 0 [] f listed⟩

/-- **Readers that are named are there.** In a run without errors, every reader that an artifact names is the
name of exactly one artifact of the run: in reader trees, at any depth, that of a field that is read, unless it
requests a record again, and that of a pointer that is followed; and in parameters those of fields whose results
are received. -/
theorem holdsReaders_of_produce (run : produce config document literals = .ok out)
    (clean : out.diagnostics.hasErrors = false) : ∀ a ∈ out.fields, out.HoldsReaders a := by
  intro a member
  obtain ⟨p, parsed⟩ := exists_parseLiterals run
  obtain ⟨f, -, rfl, on⟩ := exists_artifacts_of_mem run parsed member
  have resolver : ∀ head kind, Occurs (.resolver head kind none) f.selections → kind ≠ .refetchAction →
      (out.fields.map (·.id)).count (out.schema.readerId head.field kind) = 1 := by
    intro head kind occurs other
    obtain ⟨type, selected⟩ := occurs.selectedOn on.selections
    cases selected with
    | resolver found form =>
      refine count_readerId_produce run clean found ?_ (by rw [form]; rfl)
      exact .inr ⟨kind, other, form⟩
  refine ⟨fun node inside id refers other => ?_, fun node inside id refers => ?_, fun id inside => ?_⟩
  · obtain ⟨head, kind, occurs, rfl⟩ := exists_occurs_of_readerArtifact? inside refers
    exact resolver head kind occurs fun same => other (by rw [same]; rfl)
  · obtain ⟨head, target, nested, occurs, rfl⟩ := exists_occurs_of_condition? inside refers
    obtain ⟨type, selected⟩ := occurs.selectedOn on.selections
    cases selected with
    | pointer found form =>
      exact count_readerId_produce run clean found (.inl ⟨target, form⟩) (by rw [form]; rfl)
  · obtain ⟨head, kind, occurs, other, rfl⟩ := exists_occurs_of_mem_outputsOfAll _ _ inside
    exact resolver head kind occurs other

/-- A card is shown for a user and for a friend of the user, who can be requested again. -/
def friendTexts : List String :=
  ["field User.card @component \x7b id \x7d", "pointer User.friend to User \x7b id card \x7d",
    "field Query.home \x7b me \x7b card friend \x7b card __refetch \x7d \x7d \x7d", "entrypoint Query.home"]

theorem holdsReaders_of_produce_friend :
    ∃ out, produce .standard (userDocument sizeArgument []) (.ofLiterals friendTexts) = .ok out ∧
      (∀ a ∈ out.fields, out.HoldsReaders a) ∧
      (out.fields.any fun a => ⟨"User", "card", .reader .component⟩ ∈ a.parameters.outputs &&
        (ReaderNode.all a.reader).any (·.condition? = some ⟨"User", "friend", .reader .eager⟩) &&
        (ReaderNode.all a.reader).any (·.readerArtifact? = some ⟨"User", "card", .reader .component⟩)) = true := by
  have facts : (produce .standard (userDocument sizeArgument []) (.ofLiterals friendTexts)).isOk = true ∧
      (outputOf friendTexts).diagnostics.hasErrors = false ∧
      ((outputOf friendTexts).fields.any fun a => ⟨"User", "card", .reader .component⟩ ∈ a.parameters.outputs &&
        (ReaderNode.all a.reader).any (·.condition? = some ⟨"User", "friend", .reader .eager⟩) &&
        (ReaderNode.all a.reader).any
          (·.readerArtifact? = some ⟨"User", "card", .reader .component⟩)) = true := by
    decide +kernel
  have run := produce_outputOf friendTexts facts.1
  exact ⟨_, run, holdsReaders_of_produce run facts.2.1, facts.2.2⟩

/-! ## Entrypoints -/

/-- The entrypoints of a run are those of the planned fields. -/
theorem mem_map_id_entrypoints_iff (run : produce config document literals = .ok out)
    (parsed : parseLiterals config literals = .ok p) {name : ArtifactId} :
    name ∈ out.entrypoints.map (·.id) ↔
      ∃ x ∈ (p.resolution out.schema).plannedFields, out.schema.entrypointId x = name := by
  obtain ⟨built, entrypoints, -⟩ := stages_of_produce run parsed
  rw [entrypoints, List.map_map]
  have names := (p.resolution out.schema).map_id_plans out.schema
    fun id f found => (valid_of_field? built rfl found).2
  rw [show (fun e : EntrypointArtifact => e.id) ∘ (·.artifact out.schema (p.resolution out.schema)) =
    fun plan : Plan => (plan.artifact out.schema (p.resolution out.schema)).id from rfl, names, List.mem_filterMap]
  constructor
  · rintro ⟨x, planned, named⟩
    obtain ⟨f, -, rfl⟩ := Option.map_eq_some_iff.1 named
    exact ⟨x, planned, rfl⟩
  · rintro ⟨x, planned, rfl⟩
    obtain ⟨f, found⟩ := Option.isSome_iff_exists.1 (resolved_of_mem_plannedFields planned)
    exact ⟨x, planned, by rw [found, Option.map_some]⟩

/-- A field with a name that is that of an entrypoint is planned. -/
theorem mem_plannedFields_of_entrypointId (run : produce config document literals = .ok out)
    (parsed : parseLiterals config literals = .ok p) (valid : id.index < out.schema.fields.length)
    (emitted : out.schema.entrypointId id ∈ out.entrypoints.map (·.id)) :
    id ∈ (p.resolution out.schema).plannedFields := by
  obtain ⟨built, -⟩ := stages_of_produce run parsed
  obtain ⟨x, planned, same⟩ := (mem_map_id_entrypoints_iff run parsed).1 emitted
  obtain ⟨f, found⟩ := Option.isSome_iff_exists.1 (resolved_of_mem_plannedFields planned)
  rwa [← SchemaGraph.entrypointId_injective built (valid_of_field? built rfl found).1 valid same]

theorem ParsedLiterals.field?_of_mem {g : SchemaGraph} {f : ResolvedField}
    (listed : f ∈ (p.resolution g).fields) : (p.resolution g).field? f.field = some f := by
  obtain ⟨other, found⟩ : ∃ other, (p.resolution g).field? f.field = some other :=
    Option.isSome_iff_exists.1 (List.find?_isSome.2 ⟨f, listed, by simp⟩)
  obtain ⟨listed', same⟩ := Resolution.field_of_field? found
  rw [found, List.inj_on_of_nodup_map (nodup_fields_ofDeclarations g p.declarations) listed' listed same]

/-- **Entrypoints that are named.** In a run without errors, let a field be read for an entrypoint of the run.
An entrypoint that its reader tree names, at any depth, is one of the run exactly if the field that is loaded is
not the one that requests its record again. -/
theorem mem_entrypoints_iff_of_produce (run : produce config document literals = .ok out)
    (parsed : parseLiterals config literals = .ok p) (clean : out.diagnostics.hasErrors = false)
    {e : EntrypointArtifact} (emitted : e ∈ out.entrypoints) {root : FieldId}
    (fetched : out.schema.fieldByName? e.id.typeName e.id.fieldName = some root)
    {a : FieldArtifacts} (member : a ∈ out.fields)
    (read : a.field ∈ (p.resolution out.schema).references.readerClosure root)
    {node : ReaderNode} (inside : node ∈ ReaderNode.all a.reader) {name : ArtifactId}
    (refers : node.entrypoint? = some name) :
    name ∈ out.entrypoints.map (·.id) ↔
      ∃ x, out.schema.fieldByName? name.typeName name.fieldName = some x ∧
        (out.schema.field x).kind ≠ .resolver .refetchAction := by
  obtain ⟨built, -⟩ := stages_of_produce run parsed
  obtain ⟨f, listed, rfl, on⟩ := exists_artifacts_of_mem run parsed member
  obtain ⟨head, kind, options, occurs, rfl⟩ := exists_occurs_of_entrypoint? inside refers
  obtain ⟨type, selected⟩ := occurs.selectedOn on.selections
  cases selected with
  | resolver found form =>
    obtain ⟨valid, parent, named⟩ := (SchemaGraph.lookupField?_iff built).1 found
    have own : out.schema.fieldByName? (out.schema.typeName (out.schema.field head.field).parent)
        head.fieldName = some head.field := (SchemaGraph.fieldByName?_iff built).2 ⟨valid, rfl, named⟩
    have declared : SchemaBuilder.IsDeclaredKind (out.schema.field head.field).kind ↔
        (out.schema.field head.field).kind ≠ .resolver .refetchAction := by
      simp [SchemaBuilder.IsDeclaredKind, form]
    have sameName : (⟨out.schema.typeName (out.schema.field head.field).parent, head.fieldName,
        .entrypoint⟩ : ArtifactId) = out.schema.entrypointId head.field := by
      rw [SchemaGraph.entrypointId, named]
    simp only [own, Option.some.injEq, exists_eq_left']
    rw [sameName, ← declared, ← isSome_field?_produce_iff run parsed clean valid]
    constructor
    · intro emitted
      exact resolved_of_mem_plannedFields (mem_plannedFields_of_entrypointId run parsed valid emitted)
    · intro resolved
      refine (mem_map_id_entrypoints_iff run parsed).2 ⟨head.field, ?_, rfl⟩
      -- the entrypoint is that of a planned field, which leads to the field that loads this one
      obtain ⟨x, planned, same⟩ := (mem_map_id_entrypoints_iff run parsed).1 (List.mem_map_of_mem emitted)
      have known := resolved_of_mem_plannedFields planned
      obtain ⟨g, found⟩ := Option.isSome_iff_exists.1 known
      have byName := (SchemaGraph.fieldByName?_iff built).2 ⟨(valid_of_field? built rfl found).1, rfl, rfl⟩
      obtain rfl : x = root := by
        rw [← same] at fetched
        exact Option.some.inj (byName.symm.trans fetched)
      have closed : ClosedPlan (p.resolution out.schema) _ := (isLeast_plannedFields _).1
      exact closed.loaded x planned f.field ((mem_readerClosure_iff known).1 read) head.field options
        ⟨resolved, f, head, kind, ParsedLiterals.field?_of_mem listed, occurs, rfl⟩

/-- A card is loaded for a user, and requesting the user again is to be loaded too. -/
def deferredTexts : List String :=
  ["field User.card \x7b id \x7d", "field User.row \x7b card @loadable \x7d",
    "field Query.home \x7b me \x7b row __refetch @loadable \x7d \x7d", "entrypoint Query.home"]

/-- Whether a field that is read for an entrypoint of a run names an entrypoint. -/
def namesEntrypoint (texts : List String) (name : ArtifactId) : Bool :=
  let out := outputOf texts
  out.entrypoints.any fun e =>
    (out.schema.fieldByName? e.id.typeName e.id.fieldName).any fun root =>
      out.fields.any fun a =>
        a.field ∈ ((parsedOf texts).resolution out.schema).references.readerClosure root &&
          (ReaderNode.all a.reader).any (·.entrypoint? = some name)

theorem exists_of_namesEntrypoint {texts : List String} {name : ArtifactId}
    (names : namesEntrypoint texts name = true) :
    ∃ e ∈ (outputOf texts).entrypoints, ∃ root,
      (outputOf texts).schema.fieldByName? e.id.typeName e.id.fieldName = some root ∧
      ∃ a ∈ (outputOf texts).fields,
        a.field ∈ ((parsedOf texts).resolution (outputOf texts).schema).references.readerClosure root ∧
        ∃ node ∈ ReaderNode.all a.reader, node.entrypoint? = some name := by
  obtain ⟨e, emitted, names⟩ := List.any_eq_true.1 names
  obtain ⟨root, fetched, names⟩ := (Option.any_eq_true _ _).1 names
  obtain ⟨a, member, names⟩ := List.any_eq_true.1 names
  rw [Bool.and_eq_true, decide_eq_true_eq] at names
  obtain ⟨node, inside, refers⟩ := List.any_eq_true.1 names.2
  exact ⟨e, emitted, root, fetched, a, member, names.1, node, inside, of_decide_eq_true refers⟩

/-- The run on these literals has no errors, and names the entrypoints of the card and of the request. -/
theorem run_deferredTexts :
    (produce .standard (userDocument sizeArgument []) (.ofLiterals deferredTexts)).isOk = true ∧
      (parseLiterals .standard (.ofLiterals deferredTexts)).isOk = true ∧
      (outputOf deferredTexts).diagnostics.hasErrors = false ∧
      namesEntrypoint deferredTexts ⟨"User", "card", .entrypoint⟩ = true ∧
      namesEntrypoint deferredTexts ⟨"User", "__refetch", .entrypoint⟩ = true ∧
      ((outputOf deferredTexts).schema.fieldByName? "User" "card").any (fun x =>
        ((outputOf deferredTexts).schema.field x).kind ≠ .resolver .refetchAction) = true ∧
      ⟨"User", "__refetch", .entrypoint⟩ ∉ (outputOf deferredTexts).entrypoints.map (·.id) := by
  decide +kernel

theorem mem_entrypoints_iff_of_produce_card :
    ∃ out, produce .standard (userDocument sizeArgument []) (.ofLiterals deferredTexts) = .ok out ∧
      (∃ a ∈ out.fields, ∃ node ∈ ReaderNode.all a.reader,
        node.entrypoint? = some ⟨"User", "card", .entrypoint⟩) ∧
      ⟨"User", "card", .entrypoint⟩ ∈ out.entrypoints.map (·.id) := by
  obtain ⟨possible, readable, clean, names, -, declared, -⟩ := run_deferredTexts
  have run := produce_outputOf deferredTexts possible
  obtain ⟨e, emitted, root, fetched, a, member, read, node, inside, refers⟩ := exists_of_namesEntrypoint names
  obtain ⟨x, found, kind⟩ := (Option.any_eq_true _ _).1 declared
  exact ⟨_, run, ⟨a, member, node, inside, refers⟩,
    (mem_entrypoints_iff_of_produce run (parseLiterals_parsedOf deferredTexts readable) clean emitted fetched
      member read inside refers).2 ⟨x, found, of_decide_eq_true kind⟩⟩

/-- A run without errors names, for an entrypoint, an entrypoint that it does not have. -/
theorem refetch_entrypoint_missing :
    ∃ out p, produce .standard (userDocument sizeArgument []) (.ofLiterals deferredTexts) = .ok out ∧
      parseLiterals .standard (.ofLiterals deferredTexts) = .ok p ∧ out.diagnostics.hasErrors = false ∧
      ∃ e ∈ out.entrypoints, ∃ root, out.schema.fieldByName? e.id.typeName e.id.fieldName = some root ∧
        ∃ a ∈ out.fields, a.field ∈ (p.resolution out.schema).references.readerClosure root ∧
          ∃ node ∈ ReaderNode.all a.reader, ∃ name, node.entrypoint? = some name ∧
            name ∉ out.entrypoints.map (·.id) := by
  obtain ⟨possible, readable, clean, -, names, -, missing⟩ := run_deferredTexts
  obtain ⟨e, emitted, root, fetched, a, member, read, node, inside, refers⟩ := exists_of_namesEntrypoint names
  exact ⟨_, _, produce_outputOf deferredTexts possible, parseLiterals_parsedOf deferredTexts readable, clean, e,
    emitted, root, fetched, a, member, read, node, inside, _, refers, missing⟩

end IsoLiteral
