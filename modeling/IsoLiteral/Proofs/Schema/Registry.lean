import IsoLiteral.Proofs.Schema.Completion
import Mathlib.Data.List.Nodup

/-!
# What a built graph keeps

However a graph is built, its types have different names, a type lists its fields under their own
names, and every field that leads on leads to a type of the graph (`Sound`). What a field is depends on
where it comes from: only the server has scalars besides `__typename`, fragments narrow an abstract type
to one of its object types, and a declared field takes the variables of its declaration (`Regular`). Both
are kept by every step in which a graph is built.
-/

namespace IsoLiteral

namespace SchemaBuilder

/-- What every stage of building a graph keeps. -/
structure Sound (b : SchemaBuilder) : Prop where
  names : (b.types.map TypeDefinition.name).Nodup
  members : ∀ t ∈ b.types, ∀ id ∈ t.concreteTypes, id.index < b.types.length
  registered : ∀ (index : Nat) (t : TypeDefinition), b.types[index]? = some t → ∀ entry ∈ t.fields,
    ∃ f, b.fields[entry.2.index]? = some f ∧ f.parent = ⟨index⟩ ∧ f.name = entry.1
  targets : ∀ f ∈ b.fields, ∀ target inlineFragment, f.kind = .linked target inlineFragment →
    target.index < b.types.length
  linked : ∀ f ∈ b.fields, ∀ target, f.kind = .linked target false → f.origin = .server

variable {b : SchemaBuilder}

/-! ## The operations -/

theorem Sound.reportAll (h : Sound b) (ds : Diagnostics) : Sound (b.reportAll ds) :=
  ⟨h.names, h.members, h.registered, h.targets, h.linked⟩

/-- A type whose name is new may be added. -/
theorem Sound.addType (h : Sound b) {name : String} (new : ∀ t ∈ b.types, t.name ≠ name)
    (kind : TypeKind) (enumValues : List String) (description : Option String) :
    Sound (b.addType name kind enumValues description) where
  names := by
    have apart : name ∉ b.types.map TypeDefinition.name := by simpa using new
    have single : [name].Nodup := List.nodup_singleton name
    simp only [SchemaBuilder.addType, TypeTable.add, List.map_append, List.map_cons, List.map_nil]
    refine List.nodup_append.2 ⟨h.names, single, fun a left b right same => apart ?_⟩
    rwa [← List.mem_singleton.1 right, ← same]
  members t member id listed := by
    rw [length_types_addType]
    rcases List.mem_append.1 member with old | new
    · exact Nat.lt_succ_of_lt (h.members t old id listed)
    · rw [List.mem_singleton.1 new] at listed
      by_cases object : kind = .object
      · have self : id = ⟨b.types.length⟩ := by simpa [object] using listed
        simp [self]
      · simp [object] at listed
  registered index t found entry listed := by
    rcases getElem?_concat_eq_some found with earlier | ⟨-, rfl⟩
    · exact h.registered index t earlier entry listed
    · cases listed
  targets f member target inlineFragment kind := by
    have old := h.targets f member target inlineFragment kind
    rw [length_types_addType]
    omega
  linked := h.linked

theorem getElem?_modify_eq_some {α : Type} {change : α → α} {items : List α} {i n : Nat} {new : α}
    (found : (items.modify i change)[n]? = some new) :
    ∃ old, items[n]? = some old ∧ new = if i = n then change old else old := by
  rw [List.getElem?_modify] at found
  obtain ⟨old, here, rfl⟩ := Option.map_eq_some_iff.1 found
  exact ⟨old, here, rfl⟩

/-- A change of a type that keeps its name and fields, and adds only types of the graph to those it
stands for. -/
theorem Sound.modifyType (h : Sound b) (id : TypeId) (change : TypeDefinition → TypeDefinition)
    (name : ∀ t, (change t).name = t.name) (fields : ∀ t, (change t).fields = t.fields)
    (members : ∀ t, ∀ m ∈ (change t).concreteTypes, m ∈ t.concreteTypes ∨ m.index < b.types.length) :
    Sound (b.modifyType id change name) where
  names := TypeTable.names_modify change name b.types id.index ▸ h.names
  members t member m listed := by
    obtain ⟨n, found⟩ := List.mem_iff_getElem?.1 member
    obtain ⟨old, here, rfl⟩ := getElem?_modify_eq_some found
    have inside := h.members old (List.mem_of_getElem? here) m
    rw [length_types_modifyType]
    split at listed
    · exact (members old m listed).elim inside fun valid => valid
    · exact inside listed
  registered index t found entry listed := by
    obtain ⟨old, here, rfl⟩ := getElem?_modify_eq_some found
    have kept : entry ∈ old.fields := by
      split at listed
      · rwa [fields] at listed
      · exact listed
    exact h.registered index old here entry kept
  targets f member target inlineFragment kind := by
    rw [length_types_modifyType]
    exact h.targets f member target inlineFragment kind
  linked := h.linked

/-- A field may be added that leads to a type of the graph, if to any, and leads on only by being a
field of the server or a fragment. -/
theorem Sound.addField? (h : Sound b) {field : PendingField} {b' : SchemaBuilder}
    (added : b.addField? field = some b')
    (target : ∀ id inlineFragment, field.kind = .linked id inlineFragment → id.index < b.types.length)
    (server : ∀ id, field.kind = .linked id false → field.origin = .server) : Sound b' := by
  have grows := grows_addField? added
  refine ⟨?_, fun t member m listed => ?_, fun index t found entry listed => ?_,
    fun f member id inlineFragment kind => ?_, fun f member id kind => ?_⟩
  · obtain ⟨-, rfl⟩ := addField?_eq_some added
    have same := TypeTable.names_modify
      (fun t => { t with fields := t.fields ++ [(field.name, ⟨b.fields.length⟩)] })
      (fun _ => rfl) b.types field.parent.index
    exact same ▸ h.names
  · obtain ⟨-, rfl⟩ := addField?_eq_some added
    obtain ⟨n, found⟩ := List.mem_iff_getElem?.1 member
    obtain ⟨old, here, rfl⟩ := getElem?_modify_eq_some found
    refine Nat.lt_of_lt_of_le (h.members old (List.mem_of_getElem? here) m ?_) grows.length
    split at listed <;> exact listed
  · have kept {old : TypeDefinition} (here : b.types[index]? = some old) (earlier : entry ∈ old.fields) :
        ∃ f, b'.fields[entry.2.index]? = some f ∧ f.parent = ⟨index⟩ ∧ f.name = entry.1 := by
      obtain ⟨f, there, own⟩ := h.registered index old here entry earlier
      exact ⟨f, grows.fields _ f there, own⟩
    obtain ⟨-, rfl⟩ := addField?_eq_some added
    obtain ⟨old, here, rfl⟩ := getElem?_modify_eq_some found
    split at listed
    · rename_i own
      rcases List.mem_append.1 listed with earlier | new
      · exact kept here earlier
      · rw [List.mem_singleton.1 new]
        exact ⟨⟨field, ⟨b.fields.length⟩⟩, by simp [SchemaBuilder.modifyType, withField], by rw [← own], rfl⟩
    · exact kept here listed
  · rcases mem_fields_addField? added member with earlier | rfl
    · exact Nat.lt_of_lt_of_le (h.targets f earlier id inlineFragment kind) grows.length
    · exact Nat.lt_of_lt_of_le (target id inlineFragment kind) grows.length
  · rcases mem_fields_addField? added member with earlier | rfl
    · exact h.linked f earlier id kind
    · exact server id kind

theorem type_mem_types {id : TypeId} (valid : id.index < b.types.length) : b.type id ∈ b.types := by
  rw [SchemaBuilder.type_eq, List.getElem?_eq_getElem valid]
  exact List.getElem_mem valid

theorem sound_empty : Sound empty := by
  constructor <;> simp [empty, TypeTable.empty]

/-- Every step keeps a graph sound. -/
theorem Sound.step {declarations : List Declaration} {b' : SchemaBuilder} (h : Sound b)
    (step : Step declarations b b') : Sound b' := by
  cases step with
  | addType new kind enumValues description => exact h.addType new ..
  | addMember owner valid object =>
    refine h.modifyType owner (fun t => { t with concreteTypes := t.concreteTypes ++ [_] }) (fun _ => rfl)
      (fun _ => rfl) fun t m listed => ?_
    rcases List.mem_append.1 listed with old | new
    · exact .inl old
    · exact .inr (List.mem_singleton.1 new ▸ valid)
  | field step =>
    cases step with
    | report ds => exact h.reportAll ds
    | setInputs id inputs _ =>
      exact h.modifyType id (fun t => { t with inputFields := inputs }) (fun _ => rfl) (fun _ => rfl)
        fun _ _ => .inl
    | addField owner admissible added =>
      refine h.addField? added (fun target inlineFragment leads => ?_) fun target leads => ?_
      · rcases admissible.of_linked leads with ⟨-, -, composite⟩ | ⟨-, -, listed, -⟩
        · exact composite.valid
        · exact h.members _ (type_mem_types (lt_of_mem_concreteTypes listed)) _ listed
      · rcases admissible.of_linked leads with ⟨-, origin, -⟩ | ⟨fragment, -⟩
        · exact origin
        · cases fragment

/-! ## Where fields come from -/

/-- What fields are, by where they come from, and which types an abstract type stands for. -/
structure Regular (declarations : List Declaration) (b : SchemaBuilder) : Prop where
  members : ∀ id, ∀ m ∈ (b.type id).concreteTypes, m.index < b.types.length ∧ b.kindOf m = .object
  scalars : ∀ f ∈ b.fields, f.kind = .scalar → f.origin = .server ∨ f.name = typenameField
  fragments : ∀ f ∈ b.fields, ∀ m, f.kind = .linked m true → (b.kindOf f.parent).isAbstract = true ∧
    m ∈ (b.type f.parent).concreteTypes ∧ f.name = "as" ++ (b.type m).name
  typenames : ∀ f ∈ b.fields, f.name = typenameField →
    f.origin = .server ∨ f.kind = .scalar ∧ f.arguments = []
  declared : ∀ f ∈ b.fields, ∀ index, f.origin = .declared index → ∃ d, declarations[index]? = some d ∧
    f.arguments = d.variableDefinitions.map argumentOfVariable

variable {declarations : List Declaration} {b' : SchemaBuilder}

theorem regular_empty : Regular declarations empty where
  members _ _ listed := absurd (lt_of_mem_concreteTypes listed) (Nat.not_lt_zero _)
  scalars _ member := nomatch member
  fragments _ member := nomatch member
  typenames _ member := nomatch member
  declared _ member := nomatch member

/-- Where a graph grows by types and members, its fields stay regular. -/
theorem Regular.grows (h : Regular declarations b) (grows : Grows b b') (same : b'.fields = b.fields)
    (members : ∀ id, ∀ m ∈ (b'.type id).concreteTypes,
      m ∈ (b.type id).concreteTypes ∨ m.index < b'.types.length ∧ b'.kindOf m = .object) :
    Regular declarations b' where
  members id m listed := by
    rcases members id m listed with old | new
    · obtain ⟨valid, object⟩ := h.members id m old
      exact ⟨Nat.lt_of_lt_of_le valid grows.length, by rw [grows.kind m valid, object]⟩
    · exact new
  scalars := same ▸ h.scalars
  fragments f member m kind := by
    obtain ⟨isAbstract, listed, name⟩ := h.fragments f (same ▸ member) m kind
    refine ⟨?_, grows.members _ m listed, ?_⟩
    · rwa [grows.kind _ (lt_of_mem_concreteTypes listed)]
    · rwa [grows.names m (h.members _ m listed).1]
  typenames := same ▸ h.typenames
  declared := same ▸ h.declared

/-- A field that may be added is regular by itself. -/
theorem Regular.addField? (h : Regular declarations b) {field : PendingField}
    (admissible : Admissible declarations b field) (added : b.addField? field = some b') :
    Regular declarations b' := by
  have grows := grows_addField? added
  obtain ⟨absent, same⟩ := addField?_eq_some added
  have concrete (id : TypeId) : (b'.type id).concreteTypes = (b.type id).concreteTypes := by
    rw [same, type_modifyType]
    split <;> rfl
  refine ⟨fun id m listed => ?_, fun f member kind => ?_, fun f member m kind => ?_,
    fun f member name => ?_, fun f member index origin => ?_⟩
  · rw [concrete] at listed
    obtain ⟨valid, object⟩ := h.members id m listed
    exact ⟨Nat.lt_of_lt_of_le valid grows.length, by rw [grows.kind m valid, object]⟩
  · rcases mem_fields_addField? added member with earlier | rfl
    · exact h.scalars f earlier kind
    · cases admissible with
      | server origin _ _ => exact .inl origin
      | typename _ name _ _ _ => exact .inr name
      | fragment _ _ _ _ other _ => rw [kind] at other; cases other
      | record _ _ other _ _ => rcases other with other | other <;> rw [kind] at other <;> cases other
      | declared _ declared _ =>
        have other := declared.kind
        rw [kind] at other
        cases other
  · have before : (b.kindOf f.parent).isAbstract = true ∧ m ∈ (b.type f.parent).concreteTypes ∧
        f.name = "as" ++ (b.type m).name := by
      rcases mem_fields_addField? added member with earlier | rfl
      · exact h.fragments f earlier m kind
      · rcases admissible.of_linked kind with ⟨other, -⟩ | ⟨-, narrows⟩
        · cases other
        · exact narrows
    rw [concrete, grows.kind _ (lt_of_mem_concreteTypes before.2.1),
      grows.names m (h.members _ m before.2.1).1]
    exact before
  · rcases mem_fields_addField? added member with earlier | rfl
    · exact h.typenames f earlier name
    · cases admissible with
      | server origin _ _ => exact .inl origin
      | typename _ _ kind arguments _ => exact .inr ⟨kind, arguments⟩
      | fragment _ other _ _ _ _ => exact absurd (other.symm.trans name) (fragmentName_ne_typenameField _)
      | record _ apart _ _ _ => exact absurd name apart
      | declared _ _ named =>
        -- the type has such a field already, so that the declared one is not added
        rw [← name, absent] at named
        cases named
  · rcases mem_fields_addField? added member with earlier | rfl
    · exact h.declared f earlier index origin
    · obtain ⟨d, known, declared⟩ := admissible.of_declared origin
      exact ⟨d, known, declared.arguments⟩

/-- Every step keeps a graph regular. -/
theorem Regular.step (h : Regular declarations b) (step : Step declarations b b') :
    Regular declarations b' := by
  have grows := step.grows
  cases step with
  | addType new kind enumValues description =>
    refine h.grows grows rfl fun id m listed => ?_
    by_cases old : id.index < b.types.length
    · rw [type_addType_of_lt old] at listed
      exact .inl listed
    · have last : id = ⟨b.types.length⟩ := by
        have valid := lt_of_mem_concreteTypes listed
        rw [length_types_addType] at valid
        have index : id.index = b.types.length := by omega
        cases id
        exact congrArg TypeId.mk index
      subst last
      rw [type_addType_length] at listed
      dsimp only at listed
      split at listed
      · rename_i object
        obtain rfl := List.mem_singleton.1 listed
        refine .inr ⟨by rw [length_types_addType]; exact Nat.lt_succ_self _, ?_⟩
        rw [kindOf, type_addType_length, object]
      · cases listed
  | addMember owner valid object =>
    refine h.grows grows rfl fun id m listed => ?_
    rw [type_modifyType] at listed
    split at listed
    · rcases List.mem_append.1 listed with old | new
      · exact .inl old
      · obtain rfl := List.mem_singleton.1 new
        exact .inr ⟨Nat.lt_of_lt_of_le valid grows.length, by rw [grows.kind m valid, object]⟩
    · exact .inl listed
  | field step =>
    cases step with
    | report ds => exact h.grows grows rfl fun _ _ => .inl
    | setInputs id inputs _ =>
      refine h.grows grows rfl fun id m listed => .inl ?_
      rw [type_modifyType] at listed
      split at listed <;> exact listed
    | addField owner admissible added => exact h.addField? admissible added

end SchemaBuilder

/-! ## Built graphs -/

namespace SchemaGraph

open SchemaBuilder

variable {options : SchemaOptions} {document : SchemaDocument} {declarations : List Declaration}
  {g : SchemaGraph}

/-- The types and fields of a built graph are those of the last step. -/
theorem sound_ofDocument (built : ofDocument options document declarations = .ok g) :
    Sound ⟨g.toTypeTable, g.fields, []⟩ := by
  obtain ⟨b, completes⟩ := exists_completes built
  have last : Sound b := completes.steps.keeps sound_empty fun sound step => sound.step step
  rw [completes.table, completes.fields]
  exact ⟨last.names, last.members, last.registered, last.targets, last.linked⟩

/-- A field that is found under a name on a type is a field of the graph with that name and parent. -/
theorem field_of_lookupField? (built : ofDocument options document declarations = .ok g)
    {parent : TypeId} {name : String} {id : FieldId} (found : g.lookupField? parent name = some id) :
    g.field id ∈ g.fields ∧ (g.field id).parent = parent ∧ (g.field id).name = name := by
  rw [lookupField?, SchemaGraph.type_eq] at found
  cases here : g.types[parent.index]? with
  | none => rw [here] at found; cases found
  | some t =>
    rw [here, Option.getD_some] at found
    have listed : (name, id) ∈ t.fields := by
      obtain ⟨before, after, eq, -⟩ := List.lookup_eq_some_iff.1 found
      simp [eq]
    obtain ⟨f, there, own, same⟩ := (sound_ofDocument built).registered parent.index t here _ listed
    have inside : g.fields[id.index]? = some f := there
    have whole : g.field id = f := by
      rw [SchemaGraph.field, inside, Option.getD_some]
    rw [whole]
    exact ⟨List.mem_of_getElem? inside, own, same⟩

/-- A field that is found under a name on a type has that name and that parent. -/
theorem lookupField?_eq_some (built : ofDocument options document declarations = .ok g)
    {parent : TypeId} {name : String} {id : FieldId} (found : g.lookupField? parent name = some id) :
    (g.field id).parent = parent ∧ (g.field id).name = name :=
  (field_of_lookupField? built found).2

/-- Different types of a built graph have different names. -/
theorem typeName_injective (built : ofDocument options document declarations = .ok g) {s t : TypeId}
    (inS : s.index < g.types.length) (inT : t.index < g.types.length)
    (same : g.typeName s = g.typeName t) : s = t := by
  have names : (g.types.map TypeDefinition.name).Nodup := (sound_ofDocument built).names
  rw [typeName, typeName, SchemaGraph.type_eq, SchemaGraph.type_eq, List.getElem?_eq_getElem inS,
    List.getElem?_eq_getElem inT] at same
  have inS' : s.index < (g.types.map TypeDefinition.name).length := by simpa using inS
  have inT' : t.index < (g.types.map TypeDefinition.name).length := by simpa using inT
  have entries : (g.types.map TypeDefinition.name)[s.index] =
      (g.types.map TypeDefinition.name)[t.index] := by simpa using same
  have index : s.index = t.index := names.getElem_inj_iff.1 entries
  cases s
  cases t
  exact congrArg TypeId.mk index

/-- A type of a built graph is found by its name. -/
theorem typeByName?_typeName (built : ofDocument options document declarations = .ok g) {target : TypeId}
    (valid : target.index < g.types.length) : g.typeByName? (g.typeName target) = some target := by
  have self : g.types[target.index].name = g.typeName target := by
    rw [typeName, SchemaGraph.type_eq, List.getElem?_eq_getElem valid, Option.getD_some]
  cases found : g.typeByName? (g.typeName target) with
  | none => exact absurd self (TypeTable.find?_eq_none_iff.1 found _ (List.getElem_mem valid))
  | some id =>
    obtain ⟨definition, here, name⟩ := TypeTable.getElem?_of_find? found
    have inside := (List.getElem?_eq_some_iff.1 here).1
    refine congrArg some (g.typeName_injective built inside valid ?_)
    rw [typeName, SchemaGraph.type_eq, here, Option.getD_some]
    exact name

theorem field_mem_of_kind {id : FieldId} {target : TypeId} {inlineFragment : Bool}
    (kind : (g.field id).kind = .linked target inlineFragment) : g.field id ∈ g.fields := by
  rw [SchemaGraph.field] at kind ⊢
  cases found : g.fields[id.index]? with
  | none => rw [found] at kind; cases kind
  | some f => exact List.mem_of_getElem? found

/-- A field that leads on leads to a type of the graph. -/
theorem target_lt (built : ofDocument options document declarations = .ok g) {id : FieldId}
    {target : TypeId} {inlineFragment : Bool}
    (kind : (g.field id).kind = .linked target inlineFragment) : target.index < g.types.length :=
  (sound_ofDocument built).targets _ (field_mem_of_kind kind) target inlineFragment kind

/-- A field that leads to another record is one of the server. -/
theorem origin_eq_server (built : ofDocument options document declarations = .ok g) {id : FieldId}
    {target : TypeId} (kind : (g.field id).kind = .linked target false) :
    (g.field id).origin = .server :=
  (sound_ofDocument built).linked _ (field_mem_of_kind kind) target kind

/-- The fields and types of a built graph are regular, and its types are named. -/
theorem regular_ofDocument (built : ofDocument options document declarations = .ok g) :
    Regular declarations ⟨g.toTypeTable, g.fields, []⟩ ∧ AllNamed ⟨g.toTypeTable, g.fields, []⟩ := by
  obtain ⟨b, completes⟩ := exists_completes built
  have last : Regular declarations b :=
    completes.steps.keeps regular_empty fun regular step => regular.step step
  rw [completes.table, completes.fields]
  exact ⟨⟨last.members, last.scalars, last.fragments, last.typenames, last.declared⟩, completes.named⟩

theorem lt_of_lookupField? {parent : TypeId} {name : String} {id : FieldId}
    (found : g.lookupField? parent name = some id) : parent.index < g.types.length := by
  have here : ((⟨g.toTypeTable, g.fields, []⟩ : SchemaBuilder).type parent).fields.lookup name = some id :=
    found
  exact lt_of_lookup here

/-- A scalar of a type is one of the server, or names a record's type. -/
theorem origin_of_scalar (built : ofDocument options document declarations = .ok g) {parent : TypeId}
    {name : String} {id : FieldId} (found : g.lookupField? parent name = some id)
    (kind : (g.field id).kind = .scalar) : (g.field id).origin = .server ∨ name = typenameField := by
  obtain ⟨member, -, same⟩ := field_of_lookupField? built found
  rw [← same]
  exact (regular_ofDocument built).1.scalars _ member kind

/-- A fragment narrows an abstract type to one of the object types it stands for. -/
theorem narrows_of_fragment (built : ofDocument options document declarations = .ok g)
    {parent target : TypeId} {name : String} {id : FieldId}
    (found : g.lookupField? parent name = some id) (kind : (g.field id).kind = .linked target true) :
    (g.type parent).kind.isAbstract = true ∧ target ∈ (g.type parent).concreteTypes := by
  obtain ⟨member, own, -⟩ := field_of_lookupField? built found
  obtain ⟨isAbstract, listed, -⟩ := (regular_ofDocument built).1.fragments _ member target kind
  rw [own] at isAbstract listed
  exact ⟨isAbstract, listed⟩

/-- A fragment is named for the type that it narrows to. -/
theorem fieldName_of_fragment (built : ofDocument options document declarations = .ok g)
    {parent target : TypeId} {name : String} {id : FieldId}
    (found : g.lookupField? parent name = some id) (kind : (g.field id).kind = .linked target true) :
    name = "as" ++ g.typeName target := by
  obtain ⟨member, -, same⟩ := field_of_lookupField? built found
  rw [← same]
  exact ((regular_ofDocument built).1.fragments _ member target kind).2.2

/-- What an abstract type stands for is an object type of the graph. -/
theorem object_of_mem_concreteTypes (built : ofDocument options document declarations = .ok g)
    {id target : TypeId} (listed : target ∈ (g.type id).concreteTypes) :
    target.index < g.types.length ∧ (g.type target).kind = .object :=
  (regular_ofDocument built).1.members id target listed

/-- Where the server has no field of that name, every type with fields has a scalar without arguments that
names a record's type. -/
theorem lookupField?_typename (built : ofDocument options document declarations = .ok g)
    (unreserved : ∀ f ∈ g.fields, f.origin = .server → f.name ≠ typenameField) {type : TypeId}
    (valid : type.index < g.types.length) (composite : (g.type type).kind.isComposite = true) :
    ∃ id, g.lookupField? type typenameField = some id ∧ (g.field id).kind = .scalar ∧
      (g.field id).arguments = [] := by
  obtain ⟨regular, named⟩ := regular_ofDocument built
  obtain ⟨id, here⟩ := Option.isSome_iff_exists.1 (named type valid composite)
  have found : g.lookupField? type typenameField = some id := here
  obtain ⟨member, -, name⟩ := field_of_lookupField? built found
  refine ⟨id, found, ?_⟩
  exact (regular.typenames _ member name).resolve_left fun server => unreserved _ member server name

/-- A declared field takes the variables of its declaration as arguments. -/
theorem arguments_of_declaration? (built : ofDocument options document declarations = .ok g)
    {id : FieldId} {index : Nat} (origin : (g.field id).declaration? = some index) :
    ∃ d, declarations[index]? = some d ∧
      (g.field id).arguments = d.variableDefinitions.map argumentOfVariable := by
  have declared : (g.field id).origin = .declared index := by
    rw [FieldDefinition.declaration?] at origin
    split at origin
    · rename_i same
      rw [same, Option.some.inj origin]
    · cases origin
  have member : g.field id ∈ g.fields := by
    rw [SchemaGraph.field] at declared ⊢
    cases found : g.fields[id.index]? with
    | none => rw [found] at declared; cases declared
    | some f => exact List.mem_of_getElem? found
  exact (regular_ofDocument built).1.declared _ member index declared

end SchemaGraph

end IsoLiteral
