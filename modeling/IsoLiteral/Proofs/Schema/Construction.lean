import IsoLiteral.Schema.OfDocument
import Mathlib.Logic.Relation
import Mathlib.Tactic

/-!
# Building a graph step by step

A graph is built in small steps: something is reported, a type is added, a type gets a member or its
input fields, or a field is added. `Step` says which steps there are and what is known when they are made,
so that an invariant has to be shown for these few steps only, and holds of every graph that is built. A
step never takes anything away (`Grows`).
-/

namespace IsoLiteral

open Relation

namespace SchemaBuilder

/-- A type of the graph that has fields to select. -/
structure Composite (b : SchemaBuilder) (id : TypeId) : Prop where
  valid : id.index < b.types.length
  kind : (b.kindOf id).isComposite = true

/-- An argument or input field whose type is an input type of the graph. -/
def Typed (b : SchemaBuilder) (a : ArgumentDefinition) : Prop :=
  ∃ id, b.typeId? a.type.innerName = some id ∧ (b.kindOf id).isInput = true

/-- What a declaration declares: a pointer to the type that it names, or a resolver. -/
inductive DeclaredKind (b : SchemaBuilder) (d : Declaration) : FieldKind → Prop where
  | pointer {target id} (form : d.kind = .pointer) (given : d.target = some target)
      (named : b.typeId? target.annotation.innerName = some id) (composite : b.Composite id) :
      DeclaredKind b d (.pointer id)
  | resolver (form : d.kind = .pointer → d.target = none) : DeclaredKind b d (.resolver d.artifactKind)

/-- The field that a declaration with an index declares, on a type that exists. -/
structure DeclaredField (b : SchemaBuilder) (index : Nat) (d : Declaration) (field : PendingField) :
    Prop where
  form : d.kind ≠ .entrypoint
  parent : b.typeId? d.parentType.text = some field.parent
  name : field.name = d.fieldName.text
  kind : DeclaredKind b d field.kind
  arguments : field.arguments = d.variableDefinitions.map argumentOfVariable
  origin : field.origin = .declared index

/-- A field that may be added: one of the server, one that every type of some sort gets, or one that a
literal declares. -/
inductive Admissible (declarations : List Declaration) (b : SchemaBuilder) (field : PendingField) :
    Prop where
  | server (origin : field.origin = .server)
      (kind : field.kind = .scalar ∨ ∃ target, field.kind = .linked target false ∧ b.Composite target)
      (arguments : ∀ a ∈ field.arguments, b.Typed a)
  | typename (origin : field.origin = .synthesized) (name : field.name = typenameField)
      (kind : field.kind = .scalar) (arguments : field.arguments = []) (type : field.type ≠ some idType)
  | fragment {member} (origin : field.origin = .synthesized) (name : field.name = "as" ++ (b.type member).name)
      (isAbstract : (b.kindOf field.parent).isAbstract = true)
      (listed : member ∈ (b.type field.parent).concreteTypes) (kind : field.kind = .linked member true)
      (type : field.type ≠ some idType)
  | record (origin : field.origin = .synthesized) (name : field.name ≠ typenameField)
      (kind : field.kind = .link ∨ field.kind = .resolver .refetchAction)
      (type : field.type ≠ some idType) (identified : b.hasIdField field.parent = true)
  | declared {index d} (known : declarations[index]? = some d) (declared : DeclaredField b index d field)
      (named : ((b.type field.parent).fields.lookup typenameField).isSome)

/-- A field that leads on is one of the server, or a fragment that narrows an abstract type. -/
theorem Admissible.of_linked {declarations : List Declaration} {b : SchemaBuilder}
    {field : PendingField} (h : Admissible declarations b field) {target : TypeId}
    {inlineFragment : Bool} (leads : field.kind = .linked target inlineFragment) :
    inlineFragment = false ∧ field.origin = .server ∧ b.Composite target ∨
      inlineFragment = true ∧ (b.kindOf field.parent).isAbstract = true ∧
        target ∈ (b.type field.parent).concreteTypes ∧ field.name = "as" ++ (b.type target).name := by
  cases h with
  | server origin kind _ =>
    rcases kind with kind | ⟨_, kind, composite⟩ <;> rw [kind] at leads <;> cases leads
    exact .inl ⟨rfl, origin, composite⟩
  | fragment _ name isAbstract listed kind _ =>
    rw [kind] at leads
    cases leads
    exact .inr ⟨rfl, isAbstract, listed, name⟩
  | typename _ _ kind _ _ => rw [kind] at leads; cases leads
  | record _ _ kind _ _ => rcases kind with kind | kind <;> rw [kind] at leads <;> cases leads
  | declared _ declared _ =>
    have kind := declared.kind
    rw [leads] at kind
    cases kind

/-- A field that points somewhere is declared to point to a type with fields. -/
theorem Admissible.of_pointer {declarations : List Declaration} {b : SchemaBuilder}
    {field : PendingField} (h : Admissible declarations b field) {target : TypeId}
    (points : field.kind = .pointer target) : b.Composite target := by
  cases h with
  | declared _ declared _ =>
    have kind := declared.kind
    rw [points] at kind
    cases kind with
    | pointer _ _ _ composite => exact composite
  | server _ kind _ => rcases kind with kind | ⟨_, kind, _⟩ <;> rw [kind] at points <;> cases points
  | typename _ _ kind _ _ => rw [kind] at points; cases points
  | fragment _ _ _ _ kind _ => rw [kind] at points; cases points
  | record _ _ kind _ _ => rcases kind with kind | kind <;> rw [kind] at points <;> cases points

/-- The arguments of a field of the server have input types. -/
theorem Admissible.of_server {declarations : List Declaration} {b : SchemaBuilder}
    {field : PendingField} (h : Admissible declarations b field) (origin : field.origin = .server) :
    ∀ a ∈ field.arguments, b.Typed a := by
  cases h with
  | server _ _ arguments => exact arguments
  | typename other _ _ _ _ => rw [origin] at other; cases other
  | fragment other _ _ _ _ _ => rw [origin] at other; cases other
  | record other _ _ _ _ => rw [origin] at other; cases other
  | declared _ declared _ =>
    have other := declared.origin
    rw [origin] at other
    cases other

/-- A declared field is the field of its declaration. -/
theorem Admissible.of_declared {declarations : List Declaration} {b : SchemaBuilder}
    {field : PendingField} (h : Admissible declarations b field) {index : Nat}
    (origin : field.origin = .declared index) :
    ∃ d, declarations[index]? = some d ∧ DeclaredField b index d field := by
  cases h with
  | declared known declared _ =>
    have own := declared.origin
    rw [origin] at own
    cases own
    exact ⟨_, known, declared⟩
  | server other _ _ => rw [origin] at other; cases other
  | typename other _ _ _ _ => rw [origin] at other; cases other
  | fragment other _ _ _ _ _ => rw [origin] at other; cases other
  | record other _ _ _ _ => rw [origin] at other; cases other

/-- The steps of the stages for fields. -/
inductive FieldStep (declarations : List Declaration) : SchemaBuilder → SchemaBuilder → Prop where
  | report {b} (ds : Diagnostics) : FieldStep declarations b (b.reportAll ds)
  | setInputs {b} (id : TypeId) (inputs : List ArgumentDefinition) (typed : ∀ a ∈ inputs, b.Typed a) :
      FieldStep declarations b (b.modifyType id (fun t => { t with inputFields := inputs }) fun _ => rfl)
  | addField {b b' field} (owner : b.Composite field.parent)
      (admissible : Admissible declarations b field) (added : b.addField? field = some b') :
      FieldStep declarations b b'

/-- The steps in which a graph is built. -/
inductive Step (declarations : List Declaration) : SchemaBuilder → SchemaBuilder → Prop where
  | addType {b name} (new : ∀ t ∈ b.types, t.name ≠ name) (kind : TypeKind) (enumValues : List String)
      (description : Option String) : Step declarations b (b.addType name kind enumValues description)
  | addMember {b member} (owner : TypeId) (valid : member.index < b.types.length)
      (object : b.kindOf member = .object) :
      Step declarations b
        (b.modifyType owner (fun t => { t with concreteTypes := t.concreteTypes ++ [member] }) fun _ => rfl)
  | field {b b'} (step : FieldStep declarations b b') : Step declarations b b'

/-- Any number of steps of the stages for fields. -/
abbrev FieldSteps (declarations : List Declaration) : SchemaBuilder → SchemaBuilder → Prop :=
  ReflTransGen (FieldStep declarations)

/-- Any number of steps. -/
abbrev Steps (declarations : List Declaration) : SchemaBuilder → SchemaBuilder → Prop :=
  ReflTransGen (Step declarations)

variable {declarations : List Declaration} {b b' : SchemaBuilder}

theorem FieldSteps.steps (steps : FieldSteps declarations b b') : Steps declarations b b' := by
  induction steps with
  | refl => exact .refl
  | tail _ step ih => exact ih.tail (.field step)

/-- What every step keeps holds after any number of them. -/
theorem Steps.keeps {motive : SchemaBuilder → Prop} (steps : Steps declarations b b') (start : motive b)
    (step : ∀ {b b'}, motive b → Step declarations b b' → motive b') : motive b' := by
  induction steps with
  | refl => exact start
  | tail _ last ih => exact step ih last

/-- A stage that treats items one by one consists of steps if the treatment of each item does. -/
theorem steps_foldl {α : Type} {Step : SchemaBuilder → SchemaBuilder → Prop}
    {treat : SchemaBuilder → α → SchemaBuilder} (items : List α)
    (each : ∀ b', ReflTransGen Step b b' → ∀ x ∈ items, ReflTransGen Step b' (treat b' x)) :
    ReflTransGen Step b (items.foldl treat b) :=
  List.foldlRecOn (motive := ReflTransGen Step b) items treat .refl fun b' earlier x member =>
    earlier.trans (each b' earlier x member)

/-! ## Nothing is taken away -/

/-- A type that is in the graph stays there with its name and kind, and keeps its fields and members; a
field and a diagnostic stay as they are. -/
structure Grows (b b' : SchemaBuilder) : Prop where
  length : b.types.length ≤ b'.types.length
  names : ∀ id : TypeId, id.index < b.types.length → (b'.type id).name = (b.type id).name
  kind : ∀ id : TypeId, id.index < b.types.length → b'.kindOf id = b.kindOf id
  typeId? : ∀ {name id}, b.typeId? name = some id → b'.typeId? name = some id
  members : ∀ id, ∀ m ∈ (b.type id).concreteTypes, m ∈ (b'.type id).concreteTypes
  lookup : ∀ id name x, (b.type id).fields.lookup name = some x → (b'.type id).fields.lookup name = some x
  fields : ∀ (index : Nat) f, b.fields[index]? = some f → b'.fields[index]? = some f
  diagnostics : ∀ d ∈ b.diagnostics, d ∈ b'.diagnostics

theorem Grows.refl (b : SchemaBuilder) : Grows b b :=
  ⟨Nat.le_refl _, fun _ _ => rfl, fun _ _ => rfl, fun found => found, fun _ _ listed => listed,
    fun _ _ _ found => found, fun _ _ here => here, fun _ member => member⟩

theorem Grows.trans {b'' : SchemaBuilder} (first : Grows b b') (second : Grows b' b'') : Grows b b'' where
  length := first.length.trans second.length
  names id valid := by
    rw [second.names id (Nat.lt_of_lt_of_le valid first.length), first.names id valid]
  kind id valid := by
    rw [second.kind id (Nat.lt_of_lt_of_le valid first.length), first.kind id valid]
  typeId? found := second.typeId? (first.typeId? found)
  members id m listed := second.members id m (first.members id m listed)
  lookup id name x found := second.lookup id name x (first.lookup id name x found)
  fields index f here := second.fields index f (first.fields index f here)
  diagnostics d member := second.diagnostics d (first.diagnostics d member)

theorem type_modifyType (b : SchemaBuilder) (id other : TypeId)
    (change : TypeDefinition → TypeDefinition) (keeps : ∀ t, (change t).name = t.name) :
    (b.modifyType id change keeps).type other =
      if id = other ∧ id.index < b.types.length then change (b.type other) else b.type other := by
  rw [type_eq, type_eq, modifyType, TypeTable.modify, List.getElem?_modify]
  by_cases same : id = other
  · subst same
    by_cases valid : id.index < b.types.length
    · simp [valid]
    · simp [valid]
  · have apart : id.index ≠ other.index := by
      intro eq
      cases id
      cases other
      exact same (congrArg TypeId.mk eq)
    simp [same, apart]

/-- A change of a type that keeps its name, kind, fields and members. -/
theorem grows_modifyType (b : SchemaBuilder) (id : TypeId) (change : TypeDefinition → TypeDefinition)
    (name : ∀ t, (change t).name = t.name) (kind : ∀ t, (change t).kind = t.kind)
    (members : ∀ t, ∀ m ∈ t.concreteTypes, m ∈ (change t).concreteTypes)
    (lookup : ∀ t name x, t.fields.lookup name = some x → (change t).fields.lookup name = some x) :
    Grows b (b.modifyType id change name) where
  length := (List.length_modify ..).ge
  names other _ := by
    rw [type_modifyType]
    split
    · rw [name]
    · rfl
  kind other _ := by
    rw [kindOf, kindOf, type_modifyType]
    split
    · rw [kind]
    · rfl
  typeId? found := found
  members other m listed := by
    rw [type_modifyType]
    split
    · exact members _ m listed
    · exact listed
  lookup other name x found := by
    rw [type_modifyType]
    split
    · exact lookup _ name x found
    · exact found
  fields _ _ here := here
  diagnostics _ member := member

theorem type_addType_of_lt {name : String} {kind : TypeKind} {enumValues : List String}
    {description : Option String} {id : TypeId} (valid : id.index < b.types.length) :
    (b.addType name kind enumValues description).type id = b.type id := by
  rw [type_eq, type_eq, addType, TypeTable.add, List.getElem?_append_left valid]

theorem type_addType_length (b : SchemaBuilder) (name : String) (kind : TypeKind)
    (enumValues : List String) (description : Option String) :
    (b.addType name kind enumValues description).type ⟨b.types.length⟩ =
      { id := ⟨b.types.length⟩, name, kind, fields := [],
        concreteTypes := if kind = .object then [⟨b.types.length⟩] else [], enumValues,
        inputFields := [], description } := by
  simp [type_eq, addType, TypeTable.add]

theorem length_types_addType (b : SchemaBuilder) (name : String) (kind : TypeKind)
    (enumValues : List String) (description : Option String) :
    (b.addType name kind enumValues description).types.length = b.types.length + 1 := List.length_append

theorem length_types_modifyType (b : SchemaBuilder) (id : TypeId) (change : TypeDefinition → TypeDefinition)
    (keeps : ∀ t, (change t).name = t.name) :
    (b.modifyType id change keeps).types.length = b.types.length := List.length_modify ..

theorem lt_of_mem_concreteTypes {id m : TypeId} (listed : m ∈ (b.type id).concreteTypes) :
    id.index < b.types.length := by
  by_contra outside
  rw [type_eq, List.getElem?_eq_none (Nat.le_of_not_lt outside)] at listed
  cases listed

theorem lt_of_lookup {id : TypeId} {name : String} {x : FieldId}
    (found : (b.type id).fields.lookup name = some x) : id.index < b.types.length := by
  by_contra outside
  rw [type_eq, List.getElem?_eq_none (Nat.le_of_not_lt outside)] at found
  cases found

theorem lookup_append_of_eq_some {fields more : List (String × FieldId)} {name : String} {x : FieldId}
    (found : fields.lookup name = some x) : (fields ++ more).lookup name = some x := by
  rw [List.lookup_append, found]
  rfl

/-- The graph with one more field, which its parent does not list yet. -/
def withField (b : SchemaBuilder) (field : PendingField) : SchemaBuilder :=
  { b with toTypeTable := b.toTypeTable.intern field.name, fields := b.fields ++ [⟨field, ⟨b.fields.length⟩⟩] }

theorem type_withField (b : SchemaBuilder) (field : PendingField) (id : TypeId) :
    (b.withField field).type id = b.type id := rfl

/-- What is known of a field that was added. -/
theorem addField?_eq_some {field : PendingField} (added : b.addField? field = some b') :
    (b.type field.parent).fields.lookup field.name = none ∧
      b' = (b.withField field).modifyType field.parent
        (fun t => { t with fields := t.fields ++ [(field.name, ⟨b.fields.length⟩)] }) fun _ => rfl := by
  rw [addField?] at added
  split at added
  · cases added
  · rename_i absent
    exact ⟨Option.not_isSome_iff_eq_none.1 absent, (Option.some.inj added).symm⟩

theorem getElem?_concat_eq_some {α : Type} {items : List α} {new x : α} {i : Nat}
    (found : (items ++ [new])[i]? = some x) : items[i]? = some x ∨ i = items.length ∧ x = new := by
  rcases Nat.lt_trichotomy i items.length with inside | rfl | outside
  · rw [List.getElem?_append_left inside] at found
    exact .inl found
  · rw [List.getElem?_concat_length] at found
    exact .inr ⟨rfl, (Option.some.inj found).symm⟩
  · rw [List.getElem?_eq_none (by simpa using outside)] at found
    cases found

/-- A field of the graph is one from before, or the one that was added, under the next number. -/
theorem getElem?_fields_addField? {field : PendingField} (added : b.addField? field = some b')
    {index : Nat} {f : FieldDefinition} (here : b'.fields[index]? = some f) :
    b.fields[index]? = some f ∨ index = b.fields.length ∧ f = ⟨field, ⟨b.fields.length⟩⟩ := by
  obtain ⟨-, rfl⟩ := addField?_eq_some added
  exact getElem?_concat_eq_some here

theorem mem_fields_addField? {field : PendingField} (added : b.addField? field = some b')
    {f : FieldDefinition} (member : f ∈ b'.fields) :
    f ∈ b.fields ∨ f = ⟨field, ⟨b.fields.length⟩⟩ := by
  obtain ⟨index, here⟩ := List.mem_iff_getElem?.1 member
  rcases getElem?_fields_addField? added here with earlier | ⟨-, new⟩
  · exact .inl (List.mem_of_getElem? earlier)
  · exact .inr new

/-- A field that was added is found under its name. -/
theorem lookup_addField? {field : PendingField} (added : b.addField? field = some b')
    (valid : field.parent.index < b.types.length) :
    (b'.type field.parent).fields.lookup field.name = some ⟨b.fields.length⟩ := by
  obtain ⟨absent, rfl⟩ := addField?_eq_some added
  rw [type_modifyType, if_pos ⟨rfl, valid⟩, List.lookup_append, type_withField, absent]
  simp

theorem grows_addField? {field : PendingField} (added : b.addField? field = some b') :
    Grows b b' := by
  obtain ⟨-, rfl⟩ := addField?_eq_some added
  have grows := grows_modifyType (b.withField field) field.parent
    (fun t => { t with fields := t.fields ++ [(field.name, ⟨b.fields.length⟩)] }) (fun _ => rfl)
    (fun _ => rfl) (fun _ _ listed => listed) fun _ _ _ found => lookup_append_of_eq_some found
  refine ⟨grows.length, grows.names, grows.kind, fun found => grows.typeId? ?_, grows.members, grows.lookup,
    fun index f here => grows.fields index f ?_, grows.diagnostics⟩
  · exact (TypeTable.find?_intern ..).trans found
  · rw [withField, List.getElem?_append_left (List.getElem?_eq_some_iff.1 here).1, here]

theorem Step.grows (step : Step declarations b b') : Grows b b' := by
  cases step with
  | addType new kind enumValues description =>
    refine ⟨by rw [length_types_addType]; omega, fun id valid => ?_, fun id valid => ?_,
      fun {name id} found => ?_, fun id m listed => ?_, fun id name x found => ?_, fun _ _ here => here,
      fun _ member => member⟩
    · rw [type_addType_of_lt valid]
    · rw [kindOf, type_addType_of_lt valid]
      rfl
    · -- the new name led nowhere before
      have apart : _ ≠ name := fun same => by
        obtain ⟨definition, here, own⟩ := TypeTable.getElem?_of_find? found
        exact new definition (List.mem_of_getElem? here) (own.trans same.symm)
      exact (TypeTable.find?_add ..).trans ((if_neg apart).trans found)
    · rwa [type_addType_of_lt (lt_of_mem_concreteTypes listed)]
    · rwa [type_addType_of_lt (lt_of_lookup found)]
  | addMember owner valid object =>
    exact grows_modifyType b owner (fun t => { t with concreteTypes := t.concreteTypes ++ [_] })
      (fun _ => rfl) (fun _ => rfl)
      (fun _ _ listed => List.mem_append_left _ listed) fun _ _ _ found => found
  | field step =>
    cases step with
    | report ds => exact { Grows.refl b with diagnostics := fun d member => List.mem_append_left _ member }
    | setInputs id inputs _ =>
      exact grows_modifyType b id (fun t => { t with inputFields := inputs }) (fun _ => rfl) (fun _ => rfl)
        (fun _ _ listed => listed)
        fun _ _ _ found => found
    | addField owner admissible added => exact grows_addField? added

theorem Steps.grows (steps : Steps declarations b b') : Grows b b' :=
  steps.keeps (.refl b) fun earlier step => earlier.trans step.grows

/-- The stages for fields add no types. -/
theorem FieldSteps.length_types (steps : FieldSteps declarations b b') :
    b'.types.length = b.types.length := by
  induction steps with
  | refl => rfl
  | tail _ step ih =>
    rw [← ih]
    cases step with
    | report ds => rfl
    | setInputs id inputs _ => exact length_types_modifyType ..
    | addField owner admissible added =>
      obtain ⟨-, rfl⟩ := addField?_eq_some added
      exact length_types_modifyType ..

/-! ## Stages for types -/

theorem typeId?_lt {name : String} {id : TypeId} (found : b.typeId? name = some id) :
    id.index < b.types.length := by
  obtain ⟨_, here, -⟩ := TypeTable.getElem?_of_find? found
  exact (List.getElem?_eq_some_iff.1 here).1

theorem name_of_typeId? {name : String} {id : TypeId} (found : b.typeId? name = some id) :
    (b.type id).name = name := by
  obtain ⟨_, here, own⟩ := TypeTable.getElem?_of_find? found
  rw [type_eq, here]
  exact own

theorem Composite.grows {id : TypeId} (h : b.Composite id) (grows : Grows b b') : b'.Composite id :=
  ⟨Nat.lt_of_lt_of_le h.valid grows.length, by rw [grows.kind id h.valid]; exact h.kind⟩

theorem Typed.grows {a : ArgumentDefinition} (h : b.Typed a) (grows : Grows b b') : b'.Typed a := by
  obtain ⟨id, found, input⟩ := h
  exact ⟨id, grows.typeId? found, by rwa [grows.kind id (typeId?_lt found)]⟩

theorem DeclaredKind.grows {d : Declaration} {kind : FieldKind} (h : DeclaredKind b d kind)
    (grows : Grows b b') : DeclaredKind b' d kind := by
  cases h with
  | pointer form target named composite =>
    exact .pointer form target (grows.typeId? named) (composite.grows grows)
  | resolver form => exact .resolver form

theorem DeclaredField.grows {index : Nat} {d : Declaration} {field : PendingField}
    (h : DeclaredField b index d field) (grows : Grows b b') : DeclaredField b' index d field :=
  { h with parent := grows.typeId? h.parent, kind := h.kind.grows grows }

theorem ne_of_typeId?_eq_none {name : String} (found : b.typeId? name = none) :
    ∀ t ∈ b.types, t.name ≠ name := TypeTable.find?_eq_none_iff.1 found

theorem steps_addBuiltinScalars : Steps declarations empty empty.addBuiltinScalars := by
  have add {b : SchemaBuilder} {name : String} (new : (b.types.map (·.name)).contains name = false) :
      Step declarations b (b.addType name .scalar [] none) := by
    refine .addType (fun t member same => ?_) ..
    have known : (b.types.map (·.name)).contains name = true := by
      simpa using ⟨t, member, same⟩
    rw [new] at known
    cases known
  refine ReflTransGen.head (add rfl) (.head (add rfl) (.head (add ?_) (.head (add ?_) (.single (add ?_)))))
  all_goals decide

theorem steps_addDocumentType (doc : TypeDocument) :
    Steps declarations b (b.addDocumentType doc) := by
  rw [addDocumentType]
  split
  · split
    · exact .refl
    · exact .single (.field (.report _))
  · rename_i absent
    exact .single (.addType (ne_of_typeId?_eq_none absent) ..)

theorem steps_linkMember (owner : TypeId) (ownerName member : String) :
    Steps declarations b (linkMember owner ownerName b member) := by
  rw [linkMember]
  split
  · rename_i id found
    split
    · rename_i object
      exact .single (.addMember owner (typeId?_lt found) object)
    · exact .single (.field (.report _))
  · exact .single (.field (.report _))

theorem steps_linkInterface {owner : TypeId} (valid : owner.index < b.types.length)
    (ownerName interface : String) : Steps declarations b (linkInterface owner ownerName b interface) := by
  rw [linkInterface]
  split
  · split
    · split
      · rename_i object
        exact .single (.addMember _ valid object)
      · exact .refl
    · exact .single (.field (.report _))
  · exact .single (.field (.report _))

theorem steps_linkAbstractType (doc : TypeDocument) :
    Steps declarations b (b.linkAbstractType doc) := by
  rw [linkAbstractType]
  split
  · rename_i id found
    have members : Steps declarations b (doc.members.foldl (linkMember id doc.name) b) :=
      steps_foldl doc.members fun _ _ member _ => steps_linkMember id doc.name member
    have valid := Nat.lt_of_lt_of_le (typeId?_lt found) members.grows.length
    refine members.trans (steps_foldl doc.interfaces fun b' earlier interface _ => ?_)
    exact steps_linkInterface (Nat.lt_of_lt_of_le valid (Steps.grows earlier).length) doc.name interface
  · exact .refl

theorem steps_ofTypes (document : SchemaDocument) : Steps declarations empty (ofTypes document) := by
  refine .trans (b := empty.addBuiltinScalars) steps_addBuiltinScalars ?_
  refine .trans (b := document.types.foldl addDocumentType empty.addBuiltinScalars) ?_ ?_
  · exact steps_foldl document.types fun _ _ doc _ => steps_addDocumentType doc
  · exact steps_foldl document.types fun _ _ doc _ => steps_linkAbstractType doc

/-! ## Stages for fields -/

theorem steps_getD_addField? {field : PendingField} {other : SchemaBuilder}
    (owner : b.Composite field.parent) (admissible : Admissible declarations b field) (otherwise : FieldSteps declarations b other) :
    FieldSteps declarations b ((b.addField? field).getD other) := by
  cases added : b.addField? field with
  | none => exact otherwise
  | some b' => exact .single (.addField owner admissible added)

/-- An input definition that is accepted has an input type of the graph. -/
theorem typed_of_inputDefinition {owner name typeText : String} {defaultValue : Option Json}
    {a : ArgumentDefinition} (accepted : b.inputDefinition owner name typeText defaultValue = .ok a) :
    b.Typed a := by
  rw [inputDefinition] at accepted
  cases written : annotationOf typeText owner with
  | error d => rw [written] at accepted; cases accepted
  | ok type =>
    rw [written] at accepted
    dsimp only [bind, Except.bind] at accepted
    split at accepted
    · rename_i id found
      split at accepted
      · rename_i input
        cases accepted
        exact ⟨id, found, input⟩
      · cases accepted
    · cases accepted

theorem mem_successes {α : Type} {results : List (Except Diagnostic α)} {a : α} :
    a ∈ successes results ↔ .ok a ∈ results := by
  rw [successes, List.mem_filterMap]
  constructor
  · rintro ⟨result, member, same⟩
    split at same
    · cases same
      exact member
    · cases same
  · exact fun member => ⟨.ok a, member, rfl⟩

/-- The input definitions that are accepted all have input types of the graph. -/
theorem typed_of_mem_successes {α : Type} {items : List α}
    {define : α → Except Diagnostic ArgumentDefinition}
    (each : ∀ x a, define x = .ok a → b.Typed a) : ∀ a ∈ successes (items.map define), b.Typed a := by
  intro a member
  obtain ⟨x, -, accepted⟩ := List.mem_map.1 (mem_successes.1 member)
  exact each x a accepted

theorem steps_addServerField {parent : TypeId} (owner : b.Composite parent) (parentName : String)
    (doc : FieldDocument) : FieldSteps declarations b (addServerField parent parentName b doc) := by
  rw [addServerField]
  split
  · exact .single (.report _)
  · split
    · exact .single (.report _)
    · rename_i target found
      refine .head (.report _) (steps_getD_addField? ⟨owner.valid, owner.kind⟩ (.server rfl ?_ ?_)
        (.single (.report _)))
      · simp only [serverFieldKind]
        split
        · rename_i composite
          exact .inr ⟨target, rfl, typeId?_lt found, composite⟩
        · exact .inl rfl
      · exact typed_of_mem_successes fun _ _ => typed_of_inputDefinition

theorem steps_addServerFields (doc : TypeDocument) :
    FieldSteps declarations b (b.addServerFields doc) := by
  rw [addServerFields]
  split
  · exact .refl
  · rename_i parent found
    have each (composite : (b.kindOf parent).isComposite = true) :
        FieldSteps declarations b (doc.fields.foldl (addServerField parent doc.name) b) :=
      steps_foldl doc.fields fun b' earlier f _ => by
        have owner : b.Composite parent := ⟨typeId?_lt found, composite⟩
        exact steps_addServerField (owner.grows (FieldSteps.steps earlier).grows) doc.name f
    split
    · refine .head (.report _) (.single (.setInputs parent _ ?_))
      exact typed_of_mem_successes fun _ _ => typed_of_inputDefinition
    · rename_i object
      exact each (by rw [object]; rfl)
    · rename_i interface
      exact each (by rw [interface]; rfl)
    · exact .refl

/-- The name of a fragment is not the one that names a record's type. -/
theorem fragmentName_ne_typenameField (name : String) : "as" ++ name ≠ typenameField := by
  intro same
  have letters := congrArg String.toList same
  simp [typenameField] at letters

theorem steps_addMemberField {parent member : TypeId} (owner : b.Composite parent)
    (isAbstract : (b.kindOf parent).isAbstract = true) (listed : member ∈ (b.type parent).concreteTypes) :
    FieldSteps declarations b (addMemberField parent b member) :=
  steps_getD_addField? owner (.fragment rfl rfl isAbstract listed rfl (by simp [idType])) .refl

/-- A type keeps its field `id: ID!`. -/
theorem Grows.hasIdField (grows : Grows b b') {id : TypeId} (identified : b.hasIdField id = true) :
    b'.hasIdField id = true := by
  obtain ⟨x, found, typed⟩ := (Option.any_eq_true _ _).1 identified
  obtain ⟨f, here, type⟩ := Option.bind_eq_some_iff.1 (of_decide_eq_true typed)
  rw [SchemaBuilder.hasIdField, grows.lookup id _ x found, Option.any_some, grows.fields _ f here,
    Option.bind_some]
  exact decide_eq_true type

theorem steps_addRecordFields (options : SchemaOptions) {id : TypeId} (owner : b.Composite id) :
    FieldSteps declarations b (b.addRecordFields options id) := by
  rw [addRecordFields]
  split
  · rename_i identified
    have apart : linkField ≠ typenameField := by decide
    have link : FieldSteps declarations b (b.synthesize id linkField .link none) :=
      steps_getD_addField? owner (.record rfl apart (.inl rfl) nofun identified) .refl
    dsimp only
    split
    · have apart : refetchField ≠ typenameField := by decide
      have grows := link.steps.grows
      exact link.trans (steps_getD_addField? (owner.grows grows)
        (.record rfl apart (.inr rfl) nofun (grows.hasIdField identified)) .refl)
    · exact link
  · exact .refl

theorem steps_typename {id : TypeId} (owner : b.Composite id) : FieldSteps declarations b
    (b.synthesize id typenameField .scalar (some (.nonNull (.named "String")))) :=
  steps_getD_addField? owner (.typename rfl rfl rfl rfl (by simp [idType])) .refl

/-- What a type with fields gets besides the field that names its records' type. -/
theorem steps_afterTypename (options : SchemaOptions) {id : TypeId} (owner : b.Composite id) :
    FieldSteps declarations b
      (if (b.kindOf id).isAbstract then (b.type id).concreteTypes.foldl (addMemberField id) b
      else b.addRecordFields options id) := by
  split
  · rename_i isAbstract
    refine steps_foldl _ fun b' earlier member listed => ?_
    have grows := (FieldSteps.steps earlier).grows
    refine steps_addMemberField (owner.grows grows) ?_ (grows.members id member listed)
    rwa [grows.kind id owner.valid]
  · exact steps_addRecordFields options owner

theorem steps_addSynthesizedFields (options : SchemaOptions) {id : TypeId}
    (valid : id.index < b.types.length) : FieldSteps declarations b (b.addSynthesizedFields options id) := by
  rw [addSynthesizedFields]
  split
  · rename_i composite
    have owner : b.Composite id := ⟨valid, composite⟩
    have typename : FieldSteps declarations b _ := steps_typename owner
    exact typename.trans (steps_afterTypename options (owner.grows typename.steps.grows))
  · exact .refl

/-! ## Names of types -/

/-- Whether a type, if it has fields, has one that names a record's type. -/
def Named (b : SchemaBuilder) (id : TypeId) : Prop :=
  (b.kindOf id).isComposite = true → ((b.type id).fields.lookup typenameField).isSome

theorem Named.grows {id : TypeId} (h : Named b id) (valid : id.index < b.types.length)
    (grows : Grows b b') : Named b' id := by
  intro composite
  rw [grows.kind id valid] at composite
  obtain ⟨x, found⟩ := Option.isSome_iff_exists.1 (h composite)
  rw [grows.lookup id _ x found]
  rfl

theorem isSome_lookup_synthesize {id : TypeId} (valid : id.index < b.types.length) (name : String)
    (kind : FieldKind) (type : Option TypeExpr) :
    (((b.synthesize id name kind type).type id).fields.lookup name).isSome := by
  rw [synthesize]
  generalize added : b.addField? _ = result
  cases result with
  | none =>
    rw [addField?] at added
    split at added
    · assumption
    · cases added
  | some b' =>
    rw [Option.getD_some, lookup_addField? added valid]
    rfl

theorem named_addSynthesizedFields (options : SchemaOptions) {id : TypeId}
    (valid : id.index < b.types.length) : Named (b.addSynthesizedFields options id) id := by
  rw [addSynthesizedFields]
  split
  · rename_i composite
    have owner : b.Composite id := ⟨valid, composite⟩
    have typename : FieldSteps [] b _ := steps_typename owner
    have named : Named (b.synthesize id typenameField .scalar (some (.nonNull (.named "String")))) id :=
      fun _ => isSome_lookup_synthesize valid ..
    have still := owner.grows typename.steps.grows
    have rest : FieldSteps [] _ _ := steps_afterTypename options still
    exact named.grows still.valid rest.steps.grows
  · rename_i simple
    exact fun composite => absurd composite simple

/-- Every type of the graph is named, if it has fields. -/
def AllNamed (b : SchemaBuilder) : Prop := ∀ id : TypeId, id.index < b.types.length → Named b id

theorem AllNamed.fieldSteps (h : AllNamed b) (steps : FieldSteps declarations b b') : AllNamed b' := by
  intro id valid
  rw [steps.length_types] at valid
  exact (h id valid).grows valid steps.steps.grows

theorem steps_synthesizedFields (options : SchemaOptions) (ids : List TypeId)
    (valid : ∀ id ∈ ids, id.index < b.types.length) :
    FieldSteps declarations b (ids.foldl (addSynthesizedFields options) b) :=
  steps_foldl ids fun _ earlier id member =>
    steps_addSynthesizedFields options (by rw [FieldSteps.length_types earlier]; exact valid id member)

theorem named_synthesizedFields (options : SchemaOptions) (ids : List TypeId) :
    ∀ {b : SchemaBuilder}, (∀ id ∈ ids, id.index < b.types.length) →
      ∀ id ∈ ids, Named (ids.foldl (addSynthesizedFields options) b) id := by
  induction ids with
  | nil => exact fun _ id member => nomatch member
  | cons first rest ih =>
    intro b valid id member
    have step : FieldSteps [] b _ := steps_addSynthesizedFields options (valid first List.mem_cons_self)
    have still : ∀ id ∈ rest, id.index < (b.addSynthesizedFields options first).types.length := by
      intro id later
      rw [step.length_types]
      exact valid id (List.mem_cons_of_mem _ later)
    rcases List.mem_cons.1 member with rfl | later
    · have named : Named (b.addSynthesizedFields options id) id :=
        named_addSynthesizedFields options (valid id member)
      have others : FieldSteps [] _ _ := steps_synthesizedFields options rest still
      exact named.grows (by rw [step.length_types]; exact valid id member) others.steps.grows
    · exact ih still id later

/-- The fields of the server and the synthesized ones are added by steps, after which all types are
named. -/
theorem steps_addTypeFields (declarations : List Declaration) (b : SchemaBuilder)
    (options : SchemaOptions) (document : SchemaDocument) :
    FieldSteps declarations b (b.addTypeFields options document) ∧
      AllNamed (b.addTypeFields options document) := by
  have server : FieldSteps declarations b (document.types.foldl addServerFields b) :=
    steps_foldl document.types fun _ _ doc _ => steps_addServerFields doc
  have valid : ∀ id ∈ (List.range (document.types.foldl addServerFields b).types.length).map TypeId.mk,
      id.index < (document.types.foldl addServerFields b).types.length := by
    intro id member
    obtain ⟨n, inside, rfl⟩ := List.mem_map.1 member
    exact List.mem_range.1 inside
  have synthesized : FieldSteps declarations _ (b.addTypeFields options document) :=
    steps_synthesizedFields options _ valid
  refine ⟨server.trans synthesized, fun id inside => named_synthesizedFields options _ valid id ?_⟩
  rw [synthesized.length_types] at inside
  exact List.mem_map.2 ⟨id.index, List.mem_range.2 inside, rfl⟩

/-! ## Declared fields -/

theorem declaredKind_of_eq_ok {d : Declaration} {kind : FieldKind} {type : Option TypeExpr}
    (declared : b.declaredKind d = .ok (kind, type)) : DeclaredKind b d kind := by
  rw [declaredKind] at declared
  split at declared
  · rename_i target form given
    split at declared
    · rename_i id found
      split at declared
      · rename_i composite
        cases declared
        exact .pointer form given found ⟨typeId?_lt found, composite⟩
      · cases declared
    · cases declared
  · rename_i other
    cases declared
    refine .resolver fun form => ?_
    cases given : d.target with
    | none => rfl
    | some target => exact absurd given (other target form)

/-- A field that is declared is a resolver or a pointer, on a type with fields, and takes the declared
variables. -/
theorem declaredField_eq_ok {index : Nat} {d : Declaration} {field : PendingField}
    (form : d.kind ≠ .entrypoint) (declared : b.declaredField index d = .ok field) :
    b.Composite field.parent ∧ DeclaredField b index d field := by
  rw [declaredField] at declared
  split at declared
  · cases declared
  · rename_i parent found
    split at declared
    · rename_i composite
      cases kind : b.declaredKind d with
      | error e => rw [kind] at declared; cases declared
      | ok pair =>
        rw [kind] at declared
        cases declared
        exact ⟨⟨typeId?_lt found, composite⟩, form, found, rfl, declaredKind_of_eq_ok kind, rfl, rfl⟩
    · cases declared

theorem steps_addDeclaredField (named : AllNamed b) {d : Declaration} {index : Nat}
    (known : declarations[index]? = some d) : FieldSteps declarations b (b.addDeclaredField d index) := by
  rw [addDeclaredField]
  split
  · exact .refl
  · rename_i form
    split
    · exact .single (.report _)
    · rename_i field declared
      obtain ⟨owner, own⟩ := declaredField_eq_ok form declared
      exact steps_getD_addField? owner (.declared known own (named _ owner.valid owner.kind))
        (.single (.report _))

theorem steps_addDeclaredFields (rest : List Declaration) :
    ∀ {b : SchemaBuilder} {index : Nat}, AllNamed b →
      (∀ (n : Nat) d, rest[n]? = some d → declarations[index + n]? = some d) →
      FieldSteps declarations b (b.addDeclaredFields index rest) := by
  induction rest with
  | nil => exact fun _ _ => .refl
  | cons d rest ih =>
    intro b index named known
    have first : FieldSteps declarations b (b.addDeclaredField d index) :=
      steps_addDeclaredField named (known 0 d rfl)
    refine first.trans (ih (named.fieldSteps first) fun n e here => ?_)
    have later := known (n + 1) e here
    rwa [← Nat.add_assoc, Nat.add_right_comm] at later

end SchemaBuilder

end IsoLiteral
