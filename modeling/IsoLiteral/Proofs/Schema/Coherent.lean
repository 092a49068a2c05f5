import IsoLiteral.Proofs.Resolution.Faithful

/-!
# Coherent graphs

A graph keeps its types and fields in two lists and refers to them by number; each type has a table of its
fields by name. Building changes all of them in many stages, collects errors and carries on. What comes out
fits together all the same (`Coherent`): numbers are positions, every number that is stored anywhere is one
of the list it is for, names lead to exactly one type and one field, whatever leads on leads to a type that
has fields, and the declared fields are those of the declarations, one for each. Most of this is kept by
every step (`Numbered`, `Indexed`); that no declared field is missing takes the end of building, where any
error means that there is no graph.
-/

namespace IsoLiteral

namespace SchemaBuilder

variable {declarations : List Declaration} {b b' : SchemaBuilder}

/-! ## Numbers -/

/-- Every type and every field has the number of its position. -/
structure Numbered (b : SchemaBuilder) : Prop where
  types : ∀ (index : Nat) t, b.types[index]? = some t → t.id = ⟨index⟩
  fields : ∀ (index : Nat) f, b.fields[index]? = some f → f.id = ⟨index⟩

theorem numbered_empty : Numbered empty := by
  constructor <;> simp [empty, TypeTable.empty]

theorem Numbered.of_modify (h : Numbered b) {change : TypeDefinition → TypeDefinition} {i index : Nat}
    {t : TypeDefinition} (here : (b.types.modify i change)[index]? = some t)
    (same : ∀ t, (change t).id = t.id) : t.id = ⟨index⟩ := by
  obtain ⟨old, earlier, rfl⟩ := getElem?_modify_eq_some here
  split
  · rw [same, h.types index old earlier]
  · exact h.types index old earlier

/-- Every step keeps the numbers as they should be. -/
theorem Numbered.step (h : Numbered b) (step : Step declarations b b') : Numbered b' := by
  cases step with
  | addType new kind enumValues description =>
    refine ⟨fun index t here => ?_, h.fields⟩
    rcases getElem?_concat_eq_some here with earlier | ⟨rfl, rfl⟩
    · exact h.types index t earlier
    · rfl
  | addMember owner valid object => exact ⟨fun _ _ here => h.of_modify here fun _ => rfl, h.fields⟩
  | field step =>
    cases step with
    | report ds => exact ⟨h.types, h.fields⟩
    | setInputs id inputs _ => exact ⟨fun _ _ here => h.of_modify here fun _ => rfl, h.fields⟩
    | addField owner admissible added =>
      refine ⟨fun index t here => ?_, fun index f here => ?_⟩
      · obtain ⟨-, rfl⟩ := addField?_eq_some added
        exact h.of_modify here fun _ => rfl
      · rcases getElem?_fields_addField? added here with earlier | ⟨rfl, rfl⟩
        · exact h.fields index f earlier
        · rfl

/-! ## Tables -/

/-- What every step keeps of the tables of fields, the types that fields refer to and the declarations
that they come from. -/
structure Indexed (declarations : List Declaration) (b : SchemaBuilder) : Prop where
  keys : ∀ t ∈ b.types, (t.fields.map Prod.fst).Nodup
  found : ∀ (index : Nat) f, b.fields[index]? = some f →
    (b.type f.parent).fields.lookup f.name = some ⟨index⟩
  owners : ∀ f ∈ b.fields, b.Composite f.parent
  targets : ∀ f ∈ b.fields, ∀ target, f.kind = .linked target false ∨ f.kind = .pointer target →
    b.Composite target
  arguments : ∀ f ∈ b.fields, f.origin = .server → ∀ a ∈ f.arguments, b.Typed a
  inputs : ∀ t ∈ b.types, ∀ a ∈ t.inputFields, b.Typed a
  declared : ∀ f ∈ b.fields, ∀ index, f.origin = .declared index →
    ∃ d, declarations[index]? = some d ∧ DeclaredField b index d f.toPendingField

theorem indexed_empty : Indexed declarations empty := by
  constructor <;> simp [empty, TypeTable.empty]

/-- Where no field is added, only the tables of the types matter. -/
theorem Indexed.grows (h : Indexed declarations b) (grows : Grows b b') (same : b'.fields = b.fields)
    (keys : ∀ t ∈ b'.types, (t.fields.map Prod.fst).Nodup)
    (inputs : ∀ t ∈ b'.types, ∀ a ∈ t.inputFields, b'.Typed a) : Indexed declarations b' where
  keys := keys
  found index f here := grows.lookup _ _ _ (h.found index f (same ▸ here))
  owners f member := (h.owners f (same ▸ member)).grows grows
  targets f member target leads := (h.targets f (same ▸ member) target leads).grows grows
  arguments f member server a listed := (h.arguments f (same ▸ member) server a listed).grows grows
  inputs := inputs
  declared f member index origin := by
    obtain ⟨d, known, declared⟩ := h.declared f (same ▸ member) index origin
    exact ⟨d, known, declared.grows grows⟩

theorem forall_mem_modifyType {holds : TypeDefinition → Prop} {id : TypeId}
    {change : TypeDefinition → TypeDefinition} {keeps : ∀ t, (change t).name = t.name}
    (all : ∀ t ∈ b.types, holds t) (changed : ∀ t, b.types[id.index]? = some t → holds (change t)) :
    ∀ t ∈ (b.modifyType id change keeps).types, holds t := by
  intro t member
  obtain ⟨n, found⟩ := List.mem_iff_getElem?.1 member
  obtain ⟨old, here, rfl⟩ := getElem?_modify_eq_some found
  split
  · rename_i own
    exact changed old (own ▸ here)
  · exact all old (List.mem_of_getElem? here)

theorem forall_mem_addType {holds : TypeDefinition → Prop} {name : String} {kind : TypeKind}
    {enumValues : List String} {description : Option String} (all : ∀ t ∈ b.types, holds t)
    (new : ∀ t, t.fields = [] → t.inputFields = [] → holds t) :
    ∀ t ∈ (b.addType name kind enumValues description).types, holds t := by
  refine List.forall_mem_append.2 ⟨all, fun t member => ?_⟩
  rw [List.mem_singleton.1 member]
  exact new _ rfl rfl

theorem notMem_keys_of_lookup {fields : List (String × FieldId)} {name : String}
    (absent : fields.lookup name = none) : name ∉ fields.map Prod.fst := by
  intro member
  obtain ⟨entry, listed, rfl⟩ := List.mem_map.1 member
  have apart := List.lookup_eq_none_iff.1 absent entry listed
  simp at apart

/-- A field that may be added is put into the table of its type. -/
theorem Indexed.addField? (h : Indexed declarations b) {field : PendingField}
    (owner : b.Composite field.parent) (admissible : Admissible declarations b field)
    (added : b.addField? field = some b') : Indexed declarations b' := by
  have grows := grows_addField? added
  obtain ⟨absent, same⟩ := addField?_eq_some added
  have typed : ∀ t ∈ b.types, ∀ a ∈ t.inputFields, b'.Typed a := fun t member a listed =>
    (h.inputs t member a listed).grows grows
  refine ⟨?_, fun index f here => ?_, fun f member => ?_, fun f member target leads => ?_,
    fun f member server a listed => ?_, ?_, fun f member index origin => ?_⟩
  · rw [same]
    refine forall_mem_modifyType h.keys fun t here => ?_
    have table : b.type field.parent = t := by
      rw [type_eq, show b.types[field.parent.index]? = some t from here, Option.getD_some]
    have distinct := h.keys t (List.mem_of_getElem? here)
    have fresh : field.name ∉ t.fields.map Prod.fst := notMem_keys_of_lookup (table ▸ absent)
    rw [List.map_append]
    exact List.nodup_append.2 ⟨distinct, List.nodup_singleton _, by grind⟩
  · rcases getElem?_fields_addField? added here with earlier | ⟨rfl, rfl⟩
    · exact grows.lookup _ _ _ (h.found index f earlier)
    · exact lookup_addField? added owner.valid
  · rcases mem_fields_addField? added member with earlier | rfl
    · exact (h.owners f earlier).grows grows
    · exact owner.grows grows
  · rcases mem_fields_addField? added member with earlier | rfl
    · exact (h.targets f earlier target leads).grows grows
    · refine Composite.grows ?_ grows
      rcases leads with linked | pointer
      · rcases admissible.of_linked linked with ⟨-, -, composite⟩ | ⟨other, -⟩
        · exact composite
        · cases other
      · exact admissible.of_pointer pointer
  · rcases mem_fields_addField? added member with earlier | rfl
    · exact (h.arguments f earlier server a listed).grows grows
    · exact (admissible.of_server server a listed).grows grows
  · rw [same] at typed ⊢
    refine forall_mem_modifyType typed fun t here => ?_
    exact typed t (List.mem_of_getElem? here)
  · rcases mem_fields_addField? added member with earlier | rfl
    · obtain ⟨d, known, declared⟩ := h.declared f earlier index origin
      exact ⟨d, known, declared.grows grows⟩
    · obtain ⟨d, known, declared⟩ := admissible.of_declared origin
      exact ⟨d, known, declared.grows grows⟩

/-- Every step keeps the tables as they should be. -/
theorem Indexed.step (h : Indexed declarations b) (step : Step declarations b b') :
    Indexed declarations b' := by
  have grows := step.grows
  have typed : ∀ t ∈ b.types, ∀ a ∈ t.inputFields, b'.Typed a := fun t member a listed =>
    (h.inputs t member a listed).grows grows
  cases step with
  | addType new kind enumValues description =>
    refine h.grows grows rfl ?_ ?_
    · exact forall_mem_addType h.keys fun t none _ => by simp [none]
    · exact forall_mem_addType typed fun t _ none a listed => by simp [none] at listed
  | addMember owner valid object =>
    refine h.grows grows rfl ?_ ?_
    · exact forall_mem_modifyType h.keys fun t here => h.keys t (List.mem_of_getElem? here)
    · exact forall_mem_modifyType typed fun t here => typed t (List.mem_of_getElem? here)
  | field step =>
    cases step with
    | report ds => exact h.grows grows rfl h.keys typed
    | setInputs id inputs accepted =>
      refine h.grows grows rfl ?_ ?_
      · exact forall_mem_modifyType h.keys fun t here => h.keys t (List.mem_of_getElem? here)
      · exact forall_mem_modifyType typed fun t _ a listed => (accepted a listed).grows grows
    | addField owner admissible added => exact h.addField? owner admissible added

end SchemaBuilder

/-! ## Built graphs -/

namespace SchemaGraph

/-- A number of a type of the graph whose kind is as it should be. -/
def IsType (g : SchemaGraph) (kinds : TypeKind → Prop) (id : TypeId) : Prop :=
  id.index < g.types.length ∧ kinds (g.type id).kind

/-- The name at the core of an annotation is that of an input type. -/
def IsInput (g : SchemaGraph) (type : TypeExpr) : Prop :=
  ∃ id, g.typeByName? type.innerName = some id ∧ g.IsType (·.isInput = true) id

/-- The kind of field that a declaration asks for. -/
def Declares (g : SchemaGraph) (d : Declaration) (kind : FieldKind) : Prop :=
  match d.kind with
  | .pointer => ∃ target id, d.target = some target ∧
      g.typeByName? target.annotation.innerName = some id ∧ kind = .pointer id
  | _ => kind = .resolver d.artifactKind

/-- Everything in the graph fits together, and the declared fields are those of the declarations. -/
structure Coherent (declarations : List Declaration) (g : SchemaGraph) : Prop where
  /-- A type has the number of its position. -/
  typeIds : ∀ (index : Nat) t, g.types[index]? = some t → t.id = ⟨index⟩
  /-- A field has the number of its position. -/
  fieldIds : ∀ (index : Nat) f, g.fields[index]? = some f → f.id = ⟨index⟩
  /-- A type is found under its own name, and nothing else is. -/
  types : ∀ name id, g.typeByName? name = some id ↔ id.index < g.types.length ∧ g.typeName id = name
  /-- A field is found under the name of its type and its own, and nothing else is. -/
  fields : ∀ typeName fieldName id, g.fieldByName? typeName fieldName = some id ↔
    id.index < g.fields.length ∧ g.typeName (g.field id).parent = typeName ∧ g.fieldName id = fieldName
  /-- The table of a type has each of its fields, once and under its own name, and no others. -/
  tables : ∀ type : TypeId, type.index < g.types.length →
    ((g.type type).fields.map Prod.fst).Nodup ∧ ∀ name id, (name, id) ∈ (g.type type).fields ↔
      id.index < g.fields.length ∧ (g.field id).parent = type ∧ g.fieldName id = name
  parents : ∀ f ∈ g.fields, g.IsType (·.isComposite = true) f.parent
  targets : ∀ f ∈ g.fields, ∀ target, (∃ inlineFragment, f.kind = .linked target inlineFragment) ∨
    f.kind = .pointer target → g.IsType (·.isComposite = true) target
  fragments : ∀ f ∈ g.fields, ∀ target, f.kind = .linked target true →
    g.IsType (·.isAbstract = true) f.parent ∧ g.IsType (· = .object) target
  members : ∀ t ∈ g.types, ∀ m ∈ t.concreteTypes, g.IsType (· = .object) m
  roots : ∀ id ∈ g.queryType :: g.mutationType.toList, g.IsType (· = .object) id
  arguments : ∀ f ∈ g.fields, f.origin = .server → ∀ a ∈ f.arguments, g.IsInput a.type
  inputFields : ∀ t ∈ g.types, ∀ a ∈ t.inputFields, g.IsInput a.type
  /-- A declaration that is no entrypoint owns the field that it names, and only that one. -/
  owned : ∀ (index : Nat) d, declarations[index]? = some d → d.kind ≠ .entrypoint →
    ∃ id, g.fieldByName? d.parentType.text d.fieldName.text = some id ∧
      g.Declares d (g.field id).kind ∧ ∀ other : FieldId, other.index < g.fields.length →
        ((g.field other).origin = .declared index ↔ other = id)
  /-- Every declared field is owned by such a declaration. -/
  owners : ∀ f ∈ g.fields, ∀ index, f.origin = .declared index →
    ∃ d, declarations[index]? = some d ∧ d.kind ≠ .entrypoint

end SchemaGraph

/-- In a graph whose tables are as they should be, a field is found under its own names and no other. -/
theorem SchemaBuilder.Indexed.lookup_iff {declarations : List Declaration} {b : SchemaBuilder}
    (indexed : Indexed declarations b) (sound : Sound b) {type : TypeId} {name : String} {id : FieldId} :
    (b.type type).fields.lookup name = some id ↔
      ∃ f, b.fields[id.index]? = some f ∧ f.parent = type ∧ f.name = name := by
  constructor
  · intro found
    have valid := lt_of_lookup found
    obtain ⟨before, after, eq, -⟩ := List.lookup_eq_some_iff.1 found
    have here : b.types[type.index]? = some (b.type type) := by
      rw [SchemaBuilder.type_eq, List.getElem?_eq_getElem valid, Option.getD_some]
    exact sound.registered type.index _ here (name, id) (by simp [eq])
  · rintro ⟨f, here, rfl, rfl⟩
    exact indexed.found id.index f here

namespace SchemaGraph

open SchemaBuilder

variable {options : SchemaOptions} {document : SchemaDocument} {declarations : List Declaration}
  {g : SchemaGraph}

/-- The tables of a built graph are those of the last step. -/
theorem indexed_ofDocument (built : ofDocument options document declarations = .ok g) :
    ∃ reported, Indexed declarations ⟨g.toTypeTable, g.fields, reported⟩ ∧
      Sound ⟨g.toTypeTable, g.fields, reported⟩ := by
  obtain ⟨b, completes⟩ := exists_completes built
  rw [completes.table, completes.fields]
  exact ⟨b.diagnostics, completes.steps.keeps indexed_empty fun indexed step => indexed.step step,
    completes.steps.keeps sound_empty fun sound step => sound.step step⟩

theorem field_of_getElem? {id : FieldId} {f : FieldDefinition} (here : g.fields[id.index]? = some f) :
    id.index < g.fields.length ∧ g.field id = f := by
  obtain ⟨valid, -⟩ := List.getElem?_eq_some_iff.1 here
  rw [field, here]
  exact ⟨valid, rfl⟩

theorem getElem?_fields {id : FieldId} (valid : id.index < g.fields.length) :
    g.fields[id.index]? = some (g.field id) := by
  rw [field, List.getElem?_eq_getElem valid, Option.getD_some]

/-- A field is found on its type under its own name, and nothing else is. -/
theorem lookupField?_iff (built : ofDocument options document declarations = .ok g) {type : TypeId}
    {name : String} {id : FieldId} :
    g.lookupField? type name = some id ↔
      id.index < g.fields.length ∧ (g.field id).parent = type ∧ g.fieldName id = name := by
  obtain ⟨reported, indexed, sound⟩ := indexed_ofDocument built
  constructor
  · intro found
    obtain ⟨f, here, parent, named⟩ := (indexed.lookup_iff sound).1 found
    obtain ⟨valid, same⟩ := field_of_getElem? here
    rw [fieldName, same]
    exact ⟨valid, parent, named⟩
  · rintro ⟨valid, parent, named⟩
    exact (indexed.lookup_iff sound).2 ⟨_, getElem?_fields valid, parent, named⟩

/-- The table of a type has each of its fields, once and under its own name, and no others. -/
theorem table_ofDocument (built : ofDocument options document declarations = .ok g) {type : TypeId}
    (valid : type.index < g.types.length) :
    ((g.type type).fields.map Prod.fst).Nodup ∧ ∀ name id, (name, id) ∈ (g.type type).fields ↔
      id.index < g.fields.length ∧ (g.field id).parent = type ∧ g.fieldName id = name := by
  obtain ⟨reported, indexed, sound⟩ := indexed_ofDocument built
  have here : g.types[type.index]? = some (g.type type) := by
    rw [SchemaGraph.type_eq, List.getElem?_eq_getElem valid, Option.getD_some]
  refine ⟨indexed.keys _ (List.mem_of_getElem? here), fun name id => ?_⟩
  rw [← lookupField?_iff built]
  constructor
  · intro listed
    exact (indexed.lookup_iff sound).2 (sound.registered type.index _ here _ listed)
  · intro found
    obtain ⟨before, after, eq, -⟩ := List.lookup_eq_some_iff.1 found
    simp [eq]

/-- A type is found under its own name, and nothing else is. -/
theorem typeByName?_iff (built : ofDocument options document declarations = .ok g) {name : String}
    {id : TypeId} : g.typeByName? name = some id ↔ id.index < g.types.length ∧ g.typeName id = name := by
  constructor
  · intro found
    have here : typeId? ⟨g.toTypeTable, g.fields, []⟩ name = some id := found
    exact ⟨typeId?_lt here, name_of_typeId? here⟩
  · rintro ⟨valid, rfl⟩
    exact typeByName?_typeName built valid

/-- A field is found under the name of its type and its own, and nothing else is. -/
theorem fieldByName?_iff (built : ofDocument options document declarations = .ok g)
    {typeName fieldName : String} {id : FieldId} :
    g.fieldByName? typeName fieldName = some id ↔ id.index < g.fields.length ∧
      g.typeName (g.field id).parent = typeName ∧ g.fieldName id = fieldName := by
  rw [fieldByName?, Option.bind_eq_bind, Option.bind_eq_some_iff]
  simp only [lookupField?_iff built, typeByName?_iff built]
  constructor
  · rintro ⟨type, ⟨-, named⟩, valid, rfl, own⟩
    exact ⟨valid, named, own⟩
  · rintro ⟨valid, named, own⟩
    obtain ⟨reported, indexed, -⟩ := indexed_ofDocument built
    have owner := indexed.owners _ (List.mem_of_getElem? (getElem?_fields valid))
    exact ⟨(g.field id).parent, ⟨owner.valid, named⟩, valid, rfl, own⟩

/-- What a declaration declares is a pointer to its target or a resolver. -/
theorem declares_of_declaredKind {b : SchemaBuilder} (table : g.toTypeTable = b.toTypeTable) {d : Declaration}
    {kind : FieldKind} (written : d.Written) (declared : DeclaredKind b d kind) : g.Declares d kind := by
  have found (name : String) : g.typeByName? name = b.typeId? name := by
    rw [typeByName?, typeId?, table]
  rw [Declares]
  cases declared with
  | pointer form given named composite =>
    rw [form]
    exact ⟨_, _, given, (found _).trans named, rfl⟩
  | resolver plain =>
    split
    · rename_i pointer
      obtain ⟨target, given⟩ := written.target pointer
      rw [plain pointer] at given
      cases given
    · rfl

/-- The field of a declaration is the one that it names, and no other field is declared by it. -/
theorem owned_ofDocument (built : ofDocument options document declarations = .ok g) {index : Nat}
    {d : Declaration} (known : declarations[index]? = some d) (form : d.kind ≠ .entrypoint)
    (written : d.Written) :
    ∃ id, g.fieldByName? d.parentType.text d.fieldName.text = some id ∧
      g.Declares d (g.field id).kind ∧ ∀ other : FieldId, other.index < g.fields.length →
        ((g.field other).origin = .declared index ↔ other = id) := by
  obtain ⟨b, completes⟩ := exists_completes built
  obtain ⟨id, f, found, there, declared⟩ := completes.declared index d known form
  have here : g.fields[id.index]? = some f := completes.fields ▸ there
  obtain ⟨valid, rfl⟩ := field_of_getElem? here
  have parent : g.typeByName? d.parentType.text = some (g.field id).parent := by
    rw [typeByName?, completes.table]
    exact declared.parent
  have named : g.fieldByName? d.parentType.text d.fieldName.text = some id := by
    rw [fieldByName?, parent]
    exact (lookupField?_iff built).2 ⟨valid, rfl, declared.name⟩
  refine ⟨id, named, declares_of_declaredKind completes.table written declared.kind, fun other inside => ?_⟩
  constructor
  · intro origin
    have member := List.mem_of_getElem? (getElem?_fields inside)
    obtain ⟨reported, indexed, -⟩ := indexed_ofDocument built
    obtain ⟨e, same, own⟩ := indexed.declared _ member index origin
    rw [known] at same
    cases same
    -- both are the field with the names that the declaration gives
    have otherParent : g.typeByName? d.parentType.text = some (g.field other).parent := own.parent
    have again : g.fieldByName? d.parentType.text d.fieldName.text = some other := by
      rw [fieldByName?, otherParent]
      exact (lookupField?_iff built).2 ⟨inside, rfl, own.name⟩
    rw [named] at again
    exact (Option.some.inj again).symm
  · rintro rfl
    exact declared.origin

/-- Whatever a graph is built from, it fits together. -/
theorem coherent_of_built (built : ofDocument options document declarations = .ok g)
    (written : ∀ d ∈ declarations, d.Written) : g.Coherent declarations := by
  obtain ⟨reported, indexed, -⟩ := indexed_ofDocument built
  obtain ⟨regular, -⟩ := regular_ofDocument built
  obtain ⟨b, completes⟩ := exists_completes built
  have numbered : b.Numbered :=
    completes.steps.keeps numbered_empty fun numbered step => numbered.step step
  have composite {id : TypeId} (h : SchemaBuilder.Composite ⟨g.toTypeTable, g.fields, reported⟩ id) :
      g.IsType (·.isComposite = true) id := ⟨h.valid, h.kind⟩
  have input {a : ArgumentDefinition} (h : SchemaBuilder.Typed ⟨g.toTypeTable, g.fields, reported⟩ a) :
      g.IsInput a.type := by
    obtain ⟨id, found, kind⟩ := h
    exact ⟨id, found, typeId?_lt found, kind⟩
  have object (id : TypeId) {m : TypeId} (listed : m ∈ (g.type id).concreteTypes) :
      g.IsType (· = .object) m :=
    object_of_mem_concreteTypes built listed
  have narrows {f : FieldDefinition} (member : f ∈ g.fields) {target : TypeId}
      (leads : f.kind = .linked target true) :
      g.IsType (·.isAbstract = true) f.parent ∧ g.IsType (· = .object) target := by
    obtain ⟨isAbstract, listed, -⟩ := regular.fragments f member target leads
    exact ⟨⟨lt_of_mem_concreteTypes listed, isAbstract⟩, object f.parent listed⟩
  exact
    { typeIds := completes.types ▸ numbered.types
      fieldIds := completes.fields ▸ numbered.fields
      types := fun name id => typeByName?_iff built
      fields := fun typeName fieldName id => fieldByName?_iff built
      tables := fun type valid => table_ofDocument built valid
      parents := fun f member => composite (indexed.owners f member)
      targets := fun f member target leads => by
        rcases leads with ⟨_ | _, linked⟩ | pointer
        · exact composite (indexed.targets f member target (.inl linked))
        · obtain ⟨-, valid, kind⟩ := narrows member linked
          exact ⟨valid, by rw [kind]; rfl⟩
        · exact composite (indexed.targets f member target (.inr pointer))
      fragments := fun f member target leads => narrows member leads
      members := fun t member m listed => by
        obtain ⟨index, here⟩ := List.mem_iff_getElem?.1 member
        refine object ⟨index⟩ ?_
        rwa [SchemaGraph.type_eq, here]
      roots := fun id root => by
        rw [IsType, SchemaGraph.type_eq, completes.types]
        exact completes.roots id root
      arguments := fun f member server a listed => input (indexed.arguments f member server a listed)
      inputFields := fun t member a listed => input (indexed.inputs t member a listed)
      owned := fun index d known form =>
        owned_ofDocument built known form (written d (List.mem_of_getElem? known))
      owners := fun f member index origin => by
        obtain ⟨d, known, declared⟩ := indexed.declared f member index origin
        exact ⟨d, known, declared.form⟩ }

/-- **A built graph is coherent**, and where there is no graph there is an error. -/
theorem coherent_ofDocument (options : SchemaOptions) (document : SchemaDocument)
    {declarations : List Declaration} (written : ∀ d ∈ declarations, d.Written) :
    (∀ g, ofDocument options document declarations = .ok g → g.Coherent declarations) ∧
      ∀ problems, ofDocument options document declarations = .error problems →
        problems.hasErrors = true := by
  refine ⟨fun g built => ?_, fun problems failed => ?_⟩
  · exact coherent_of_built built written
  · have outcome := completes_ofDocument options document declarations
    rwa [failed] at outcome

theorem coherent_ofDocument_home :
    (∀ d ∈ declarationsOf homeTexts, d.Written) ∧
      (userGraph sizeArgument [] homeTexts).Coherent (declarationsOf homeTexts) := by
  have written : ∀ d ∈ declarationsOf homeTexts, d.Written := fun d member =>
    (parsed_declarationsOf homeTexts d member).written
  exact ⟨written, (coherent_ofDocument ⟨true⟩ (userDocument sizeArgument []) written).1 _
    (built_userGraph possible_homeGraph)⟩

end SchemaGraph

end IsoLiteral
