import IsoLiteral.Proofs.Schema.Registry

/-!
# The graph before and after declarations

The types and fields of the server, and those that every type of some sort gets, are added before any
declaration is looked at. Up to there a field of type `ID!` is one of the server, so that a record gets a link
or a refetch only if the server identifies it (`Identifying`). What is declared afterwards is of other kinds.
-/

namespace IsoLiteral

namespace SchemaBuilder

/-- The graph before the first declaration is added. -/
def beforeDeclarations (options : SchemaOptions) (document : SchemaDocument) : SchemaBuilder :=
  ((ofTypes document).reportAll ((ofTypes document).rootTypes document).2).addTypeFields options document

/-- A declaration sees the types and fields of the server. -/
theorem steps_beforeDeclarations (options : SchemaOptions) (document : SchemaDocument) :
    FieldSteps [] ((ofTypes document).reportAll ((ofTypes document).rootTypes document).2)
      (beforeDeclarations options document) ∧ AllNamed (beforeDeclarations options document) :=
  steps_addTypeFields [] _ options document

end SchemaBuilder

open SchemaBuilder in
/-- **A graph is built** exactly if there are root types and no errors are left after the last declaration. -/
theorem SchemaGraph.ofDocument_eq_ok_iff {options : SchemaOptions} {document : SchemaDocument}
    {declarations : List Declaration} {g : SchemaGraph} :
    ofDocument options document declarations = .ok g ↔
      ((ofTypes document).rootTypes document).1 = some (g.queryType, g.mutationType) ∧
      ((beforeDeclarations options document).addDeclaredFields 0 declarations).diagnostics.hasErrors =
        false ∧
      g.toTypeTable = ((beforeDeclarations options document).addDeclaredFields 0 declarations).toTypeTable ∧
      g.fields = ((beforeDeclarations options document).addDeclaredFields 0 declarations).fields := by
  have unfolded : ofDocument options document declarations =
      ((ofTypes document).rootTypes document).1.elim
        (.error ((beforeDeclarations options document).addDeclaredFields 0 declarations).diagnostics)
        fun roots =>
          let built := (beforeDeclarations options document).addDeclaredFields 0 declarations
          if built.diagnostics.hasErrors then .error built.diagnostics
          else .ok ⟨built.toTypeTable, built.fields, roots.1, roots.2⟩ := by
    rw [ofDocument, beforeDeclarations]
    generalize (ofTypes document).rootTypes document = outcome
    obtain ⟨roots, problems⟩ := outcome
    cases roots <;> rfl
  rw [unfolded]
  generalize (beforeDeclarations options document).addDeclaredFields 0 declarations = built
  cases ((ofTypes document).rootTypes document).1 with
  | none => simp
  | some roots =>
    obtain ⟨queryType, mutationType⟩ := roots
    obtain ⟨table, fields, query, mutation⟩ := g
    by_cases errors : built.diagnostics.hasErrors = true
    · simp [errors]
    · simp only [Option.elim_some, errors, Bool.false_eq_true, reduceIte, Except.ok.injEq, SchemaGraph.mk.injEq,
        Option.some.injEq, Prod.mk.injEq, true_and]
      grind

namespace SchemaBuilder

variable {b b' : SchemaBuilder}

/-! ## Records that can be identified -/

/-- The server has a field `id: ID!` for a type. -/
def Identifies (b : SchemaBuilder) (id : TypeId) : Prop :=
  ∃ x f, (b.type id).fields.lookup "id" = some x ∧ b.fields[x.index]? = some f ∧ f.origin = .server ∧
    f.type = some idType

theorem Identifies.grows {id : TypeId} (h : b.Identifies id) (grows : Grows b b') : b'.Identifies id := by
  obtain ⟨x, f, found, here, origin, type⟩ := h
  exact ⟨x, f, grows.lookup id _ x found, grows.fields _ f here, origin, type⟩

/-- The kinds of fields that only records have which can be identified. -/
def IsRecordKind (kind : FieldKind) : Prop := kind = .link ∨ kind = .resolver .refetchAction

/-- Links and refetches are on types that the server identifies. -/
def RecordsIdentified (b : SchemaBuilder) : Prop :=
  ∀ f ∈ b.fields, IsRecordKind f.kind → b.Identifies f.parent

/-- What holds before declarations are added. -/
structure Identifying (b : SchemaBuilder) : Prop where
  typed : ∀ f ∈ b.fields, f.type = some idType → f.origin = .server
  records : b.RecordsIdentified

theorem Identifying.identifies (h : Identifying b) {id : TypeId} (identified : b.hasIdField id = true) :
    b.Identifies id := by
  obtain ⟨x, found, typed⟩ := (Option.any_eq_true _ _).1 identified
  obtain ⟨f, here, type⟩ := Option.bind_eq_some_iff.1 (of_decide_eq_true typed)
  exact ⟨x, f, found, here, h.typed f (List.mem_of_getElem? here) type, type⟩

theorem RecordsIdentified.grows (h : RecordsIdentified b) (grows : Grows b b') (same : b'.fields = b.fields) :
    RecordsIdentified b' := by
  intro f member kind
  exact (h f (same ▸ member) kind).grows grows

/-- A field may be added that is no link or refetch, or is on a type that is identified. -/
theorem RecordsIdentified.addField? (h : RecordsIdentified b) {field : PendingField}
    (added : b.addField? field = some b') (new : IsRecordKind field.kind → b.Identifies field.parent) :
    RecordsIdentified b' := by
  intro f member kind
  have grows := grows_addField? added
  rcases mem_fields_addField? added member with earlier | rfl
  · exact (h f earlier kind).grows grows
  · exact (new kind).grows grows

/-- **Every step before declarations** keeps records identified. -/
theorem Identifying.step (h : Identifying b) (step : FieldStep [] b b') : Identifying b' := by
  have grows := (Step.field step).grows
  cases step with
  | report ds => exact ⟨h.typed, h.records.grows grows rfl⟩
  | setInputs id inputs _ => exact ⟨h.typed, h.records.grows grows rfl⟩
  | addField owner admissible added =>
    constructor
    · intro f member type
      rcases mem_fields_addField? added member with earlier | rfl
      · exact h.typed f earlier type
      · cases admissible with
        | server origin _ _ => exact origin
        | typename _ _ _ _ other => exact absurd type other
        | fragment _ _ _ _ _ other => exact absurd type other
        | record _ _ _ other _ => exact absurd type other
        | declared known _ _ => cases known
    · refine h.records.addField? added fun kind => ?_
      cases admissible with
      | record _ _ _ _ identified => exact h.identifies identified
      | server _ other _ => rcases other with other | ⟨_, other, _⟩ <;> rcases kind with kind | kind <;> simp_all
      | typename _ _ other _ _ => rcases kind with kind | kind <;> simp_all
      | fragment _ _ _ _ other _ => rcases kind with kind | kind <;> simp_all
      | declared known _ _ => cases known

theorem Identifying.steps (h : Identifying b) (steps : FieldSteps [] b b') : Identifying b' := by
  induction steps with
  | refl => exact h
  | tail _ step ih => exact ih.step step

theorem fields_foldl {α : Type} {treat : SchemaBuilder → α → SchemaBuilder}
    (each : ∀ b x, (treat b x).fields = b.fields) (items : List α) (b : SchemaBuilder) :
    (items.foldl treat b).fields = b.fields := by
  induction items generalizing b with
  | nil => rfl
  | cons x rest ih => rw [List.foldl_cons, ih, each]

theorem fields_linkAbstractType (b : SchemaBuilder) (doc : TypeDocument) :
    (b.linkAbstractType doc).fields = b.fields := by
  have member (owner : TypeId) (name : String) (b : SchemaBuilder) (text : String) :
      (linkMember owner name b text).fields = b.fields := by
    unfold linkMember
    grind [modifyType, report]
  have interface (owner : TypeId) (name : String) (b : SchemaBuilder) (text : String) :
      (linkInterface owner name b text).fields = b.fields := by
    unfold linkInterface
    grind [modifyType, report]
  rw [linkAbstractType]
  split
  · rw [fields_foldl (interface _ _), fields_foldl (member _ _)]
  · rfl

/-- The stages for types add no fields. -/
theorem fields_ofTypes (document : SchemaDocument) : (ofTypes document).fields = [] := by
  have documentType (b : SchemaBuilder) (doc : TypeDocument) : (b.addDocumentType doc).fields = b.fields := by
    rw [addDocumentType]
    grind [addType, report]
  rw [ofTypes, fields_foldl fields_linkAbstractType, fields_foldl documentType]
  rfl

theorem identifying_beforeDeclarations (options : SchemaOptions) (document : SchemaDocument) :
    Identifying (beforeDeclarations options document) := by
  refine Identifying.steps ⟨?_, ?_⟩ (steps_beforeDeclarations options document).1
  · intro f member
    rw [SchemaBuilder.reportAll, fields_ofTypes] at member
    cases member
  · intro f member
    rw [SchemaBuilder.reportAll, fields_ofTypes] at member
    cases member

/-! ## Declared fields -/

theorem not_isRecordKind_of_declared {d : Declaration} {kind : FieldKind} (declared : DeclaredKind b d kind) :
    ¬ IsRecordKind kind := by
  rintro (rfl | rfl)
  · cases declared
  · generalize form : FieldKind.resolver .refetchAction = kind at declared
    cases declared with
    | pointer => cases form
    | resolver =>
      rw [Declaration.artifactKind] at form
      split at form
      · cases form
      · split at form <;> cases form

/-- The kinds of fields that only a literal gives: pointers, and resolvers other than those that request their
record again. -/
def IsDeclaredKind (kind : FieldKind) : Prop :=
  (∃ target, kind = .pointer target) ∨ ∃ artifact, artifact ≠ .refetchAction ∧ kind = .resolver artifact

/-- A field that may be added is declared exactly if it is of such a kind. -/
theorem Admissible.isDeclaredKind_iff {declarations : List Declaration} {field : PendingField}
    (h : Admissible declarations b field) :
    (∃ index, field.origin = .declared index) ↔ IsDeclaredKind field.kind := by
  cases h with
  | server origin kind _ =>
    rcases kind with kind | ⟨_, kind, _⟩ <;> simp [origin, kind, IsDeclaredKind]
  | typename origin _ kind _ _ => simp [origin, kind, IsDeclaredKind]
  | fragment origin _ _ _ kind _ => simp [origin, kind, IsDeclaredKind]
  | record origin _ kind _ _ => rcases kind with kind | kind <;> simp [origin, kind, IsDeclaredKind]
  | declared known declared named =>
    refine ⟨fun _ => ?_, fun _ => ⟨_, declared.origin⟩⟩
    have declared := declared.kind
    have other := not_isRecordKind_of_declared declared
    generalize field.kind = kind at declared other ⊢
    cases declared with
    | pointer => exact .inl ⟨_, rfl⟩
    | resolver => exact .inr ⟨_, fun requests => other (.inr (congrArg FieldKind.resolver requests)), rfl⟩

/-- Every field that is added was admissible when it was added. -/
theorem Steps.admissible {declarations : List Declaration} (steps : Steps declarations empty b) :
    ∀ f ∈ b.fields, ∃ b₀, Admissible declarations b₀ f.toPendingField := by
  refine steps.keeps (motive := fun b => ∀ f ∈ b.fields, ∃ b₀, Admissible declarations b₀ f.toPendingField)
    (by simp [empty]) fun before step f member => ?_
  cases step with
  | addType | addMember => exact before f member
  | field step =>
    cases step with
    | report | setInputs => exact before f member
    | addField owner admissible added =>
      rcases mem_fields_addField? added member with earlier | rfl
      · exact before f earlier
      · exact ⟨_, admissible⟩

theorem grows_report (b : SchemaBuilder) (d : Diagnostic) : Grows b (b.report d) :=
  @Step.grows [] b _ (.field (.report [d]))

theorem RecordsIdentified.addDeclaredField (h : RecordsIdentified b) (d : Declaration) (index : Nat) :
    RecordsIdentified (b.addDeclaredField d index) := by
  rw [SchemaBuilder.addDeclaredField]
  split
  · exact h
  · rename_i form
    split
    · exact h.grows (grows_report b _) rfl
    · rename_i field declared
      have kind := (declaredField_eq_ok form declared).2.kind
      cases added : b.addField? field with
      | some b' =>
        exact h.addField? added fun record => absurd record (not_isRecordKind_of_declared kind)
      | none => exact h.grows (grows_report b _) rfl

theorem RecordsIdentified.addDeclaredFields (declarations : List Declaration) :
    ∀ {b : SchemaBuilder} (index : Nat), RecordsIdentified b →
      RecordsIdentified (b.addDeclaredFields index declarations) := by
  induction declarations with
  | nil => exact fun _ h => h
  | cons d rest ih => exact fun index h => ih (index + 1) (h.addDeclaredField d index)

end SchemaBuilder

namespace SchemaGraph

variable {options : SchemaOptions} {document : SchemaDocument} {declarations : List Declaration}
  {g : SchemaGraph}

/-- **Links and refetches are on records with an id.** -/
theorem isSome_idField?_of_isRecordKind (built : ofDocument options document declarations = .ok g)
    {parent : TypeId} {name : String} {id : FieldId} (found : g.lookupField? parent name = some id)
    (kind : SchemaBuilder.IsRecordKind (g.field id).kind) : (g.idField? parent).isSome := by
  obtain ⟨-, -, types, fields⟩ := ofDocument_eq_ok_iff.1 built
  have records := (SchemaBuilder.identifying_beforeDeclarations options document).records.addDeclaredFields
    declarations 0
  obtain ⟨member, own, -⟩ := field_of_lookupField? built found
  obtain ⟨x, f, known, here, origin, type⟩ := records (g.field id) (fields ▸ member) kind
  rw [own] at known
  have listed : g.lookupField? parent "id" = some x := by
    rw [lookupField?, SchemaGraph.type_eq, types]
    exact known
  have whole : g.field x = f := by
    rw [SchemaGraph.field, fields, here, Option.getD_some]
  rw [idField?, listed]
  simp [whole, origin, type]

/-- **Declared fields** are the pointers, and the resolvers that do not request their record again. -/
theorem isDeclaredKind_iff (built : ofDocument options document declarations = .ok g)
    {f : FieldDefinition} (member : f ∈ g.fields) :
    (∃ index, f.origin = .declared index) ↔ SchemaBuilder.IsDeclaredKind f.kind := by
  obtain ⟨b, completes⟩ := exists_completes built
  rw [completes.fields] at member
  obtain ⟨b₀, admissible⟩ := completes.steps.admissible f member
  exact admissible.isDeclaredKind_iff

end SchemaGraph

end IsoLiteral
