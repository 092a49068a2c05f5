import IsoLiteral.Proofs.Schema.Construction

/-!
# Completing a graph

The last stage adds a field for every declaration that is no entrypoint, and where a field cannot be
added an error is reported, which is never taken back. So a graph that comes out of building has the field
of every declaration, and its root types are object types (`Completes`); and where no graph comes out there
is an error that says why.
-/

namespace IsoLiteral

open Relation

namespace SchemaBuilder

variable {declarations : List Declaration} {b b' : SchemaBuilder}

/-! ## Declared fields -/

/-- The field of a declaration is in the graph, under its own name on its parent. -/
def HasDeclared (b : SchemaBuilder) (index : Nat) (d : Declaration) : Prop :=
  ∃ x field, (b.type field.parent).fields.lookup field.name = some x ∧
    b.fields[x.index]? = some field ∧ DeclaredField b index d field.toPendingField

theorem HasDeclared.grows {index : Nat} {d : Declaration} (h : HasDeclared b index d)
    (grows : Grows b b') : HasDeclared b' index d := by
  obtain ⟨x, field, found, here, declared⟩ := h
  exact ⟨x, field, grows.lookup _ _ x found, grows.fields _ _ here, declared.grows grows⟩

theorem isError_of_declaredField {index : Nat} {d : Declaration} {e : Diagnostic}
    (failed : b.declaredField index d = .error e) : e.isError = true := by
  rw [declaredField] at failed
  split at failed
  · cases failed
    rfl
  · split at failed
    · cases kind : b.declaredKind d with
      | ok pair => rw [kind] at failed; cases failed
      | error problem =>
        rw [kind] at failed
        cases failed
        rw [declaredKind] at kind
        split at kind
        · split at kind
          · split at kind
            · cases kind
            · cases kind
              rfl
          · cases kind
            rfl
        · cases kind
    · cases failed
      rfl

theorem hasErrors_report {d : Diagnostic} (error : d.isError = true) :
    (b.report d).diagnostics.hasErrors = true := by
  rw [report, Diagnostics.hasErrors_append, Diagnostics.hasErrors, Diagnostics.hasErrors, List.any_cons,
    error, Bool.true_or, Bool.or_true]

/-- The field of a declaration is added, or an error says why it is not. -/
theorem hasDeclared_addDeclaredField {d : Declaration} (form : d.kind ≠ .entrypoint) (index : Nat) :
    HasDeclared (b.addDeclaredField d index) index d ∨
      (b.addDeclaredField d index).diagnostics.hasErrors = true := by
  rw [addDeclaredField, if_neg form]
  split
  · rename_i e failed
    exact .inr (hasErrors_report (isError_of_declaredField failed))
  · rename_i field declared
    obtain ⟨owner, own⟩ := declaredField_eq_ok form declared
    cases added : b.addField? field with
    | none => exact .inr (hasErrors_report rfl)
    | some b' =>
      refine .inl ⟨⟨b.fields.length⟩, ⟨field, ⟨b.fields.length⟩⟩, ?_, ?_,
        own.grows (grows_addField? added)⟩
      · exact lookup_addField? added owner.valid
      · obtain ⟨-, rfl⟩ := addField?_eq_some added
        simp [modifyType, withField]

theorem Grows.hasErrors (grows : Grows b b') (errors : b.diagnostics.hasErrors = true) :
    b'.diagnostics.hasErrors = true := by
  obtain ⟨d, member, error⟩ := List.any_eq_true.1 errors
  exact List.any_eq_true.2 ⟨d, grows.diagnostics d member, error⟩

/-- Where no error is reported, every declaration but an entrypoint has its field. -/
theorem hasDeclared_addDeclaredFields (rest : List Declaration) :
    ∀ {b : SchemaBuilder} {index : Nat}, AllNamed b →
      (∀ (n : Nat) d, rest[n]? = some d → declarations[index + n]? = some d) →
      (b.addDeclaredFields index rest).diagnostics.hasErrors = false →
      ∀ (n : Nat) d, rest[n]? = some d → d.kind ≠ .entrypoint →
        HasDeclared (b.addDeclaredFields index rest) (index + n) d := by
  induction rest with
  | nil => exact fun _ _ _ n d here => nomatch here
  | cons first rest ih =>
    intro b index named known clean n d here form
    have step : FieldSteps declarations b (b.addDeclaredField first index) :=
      steps_addDeclaredField named (known 0 first rfl)
    have others (n : Nat) d (here : rest[n]? = some d) : declarations[index + 1 + n]? = some d := by
      have later := known (n + 1) d here
      rwa [← Nat.add_assoc, Nat.add_right_comm] at later
    have later : FieldSteps declarations _ ((b.addDeclaredField first index).addDeclaredFields (index + 1) rest) :=
      steps_addDeclaredFields rest (named.fieldSteps step) others
    cases n with
    | zero =>
      obtain rfl := Option.some.inj here
      rcases hasDeclared_addDeclaredField form index with declared | errors
      · exact declared.grows later.steps.grows
      · rw [addDeclaredFields, later.steps.grows.hasErrors errors] at clean
        cases clean
    | succ n =>
      have declared := ih (named.fieldSteps step) others clean n d here form
      rwa [Nat.add_assoc, Nat.add_comm 1] at declared

/-! ## Root types -/

theorem object_of_rootType? {name : String} {id : TypeId} (root : b.rootType? name = .ok id) :
    id.index < b.types.length ∧ b.kindOf id = .object := by
  rw [rootType?] at root
  split at root
  · rename_i found
    split at root
    · rename_i object
      cases root
      exact ⟨typeId?_lt found, object⟩
    · cases root
  · cases root

theorem isError_of_rootType? {name : String} {d : Diagnostic} (failed : b.rootType? name = .error d) :
    d.isError = true := by
  rw [rootType?] at failed
  split at failed
  · split at failed
    · cases failed
    · cases failed
      rfl
  · cases failed
    rfl

/-- The root types are object types of the graph, or an error says that they are not. -/
theorem rootTypes_spec (b : SchemaBuilder) (document : SchemaDocument) :
    match b.rootTypes document with
    | (some (query, mutation), _) =>
      ∀ id ∈ query :: mutation.toList, id.index < b.types.length ∧ b.kindOf id = .object
    | (none, problems) => problems.hasErrors = true := by
  rw [rootTypes]
  cases query : b.rootType? document.queryType with
  | ok q =>
    have object := object_of_rootType? query
    cases mutation : document.mutationType.map b.rootType? with
    | none => simpa using object
    | some result =>
      obtain ⟨name, -, found⟩ := Option.map_eq_some_iff.1 mutation
      cases result with
      | ok m => simpa using ⟨object, object_of_rootType? found⟩
      | error e => simpa [Diagnostics.hasErrors] using isError_of_rootType? found
  | error d =>
    have error := isError_of_rootType? query
    cases mutation : document.mutationType.map b.rootType? with
    | none => simpa [Diagnostics.hasErrors] using error
    | some result => cases result <;> simp [Diagnostics.hasErrors, error]

end SchemaBuilder

/-! ## The graph of a document -/

/-- What the last step leaves is the graph: without errors, with the root types and with every declared
field. -/
structure SchemaBuilder.Completes (declarations : List Declaration) (b : SchemaBuilder)
    (g : SchemaGraph) : Prop where
  steps : Steps declarations .empty b
  named : b.AllNamed
  table : g.toTypeTable = b.toTypeTable
  fields : g.fields = b.fields
  roots : ∀ id ∈ g.queryType :: g.mutationType.toList, id.index < b.types.length ∧ b.kindOf id = .object
  declared : ∀ (index : Nat) d, declarations[index]? = some d → d.kind ≠ .entrypoint →
    HasDeclared b index d

theorem SchemaBuilder.Completes.types {declarations : List Declaration} {b : SchemaBuilder} {g : SchemaGraph}
    (completes : Completes declarations b g) : g.types = b.types := congrArg TypeTable.types completes.table

open SchemaBuilder in
/-- **A graph is built by steps**, or there is an error. -/
theorem SchemaGraph.completes_ofDocument (options : SchemaOptions) (document : SchemaDocument)
    (declarations : List Declaration) :
    match ofDocument options document declarations with
    | .ok g => ∃ b, Completes declarations b g
    | .error problems => problems.hasErrors = true := by
  have types : Steps declarations .empty (.ofTypes document) := steps_ofTypes document
  have roots := rootTypes_spec (.ofTypes document) document
  rw [ofDocument]
  generalize (SchemaBuilder.ofTypes document).rootTypes document = result at roots
  obtain ⟨roots?, problems⟩ := result
  have reported : Step declarations (.ofTypes document) ((ofTypes document).reportAll problems) :=
    .field (.report _)
  obtain ⟨fields, named⟩ := steps_addTypeFields declarations ((ofTypes document).reportAll problems)
    options document
  have declared : FieldSteps declarations _ (addDeclaredFields _ 0 declarations) :=
    steps_addDeclaredFields declarations named (by simp)
  have afterwards : Steps declarations _ _ := FieldSteps.steps (fields.trans declared)
  cases roots? with
  | none =>
    refine afterwards.grows.hasErrors ?_
    rw [SchemaBuilder.reportAll, Diagnostics.hasErrors_append, roots, Bool.or_true]
  | some pair =>
    dsimp only
    by_cases errors : (addDeclaredFields
        (addTypeFields options document ((ofTypes document).reportAll problems)) 0
        declarations).diagnostics.hasErrors = true
    · rw [if_pos errors]
      exact errors
    · rw [if_neg errors]
      refine ⟨_, types.trans (.head reported afterwards), named.fieldSteps declared, rfl, rfl,
        fun id root => ?_, fun index d here form => ?_⟩
      · obtain ⟨valid, object⟩ := roots id root
        have grows := reported.grows.trans afterwards.grows
        exact ⟨Nat.lt_of_lt_of_le valid grows.length, by rw [grows.kind id valid, object]⟩
      · have known (n : Nat) (d : Declaration) (here : declarations[n]? = some d) :
            declarations[0 + n]? = some d := by rwa [Nat.zero_add]
        have own := hasDeclared_addDeclaredFields declarations named known (Bool.not_eq_true _ ▸ errors)
          index d here form
        rwa [Nat.zero_add] at own

theorem SchemaGraph.exists_completes {options : SchemaOptions} {document : SchemaDocument}
    {declarations : List Declaration} {g : SchemaGraph}
    (built : ofDocument options document declarations = .ok g) :
    ∃ b, SchemaBuilder.Completes declarations b g := by
  have completes := completes_ofDocument options document declarations
  rwa [built] at completes

end IsoLiteral
