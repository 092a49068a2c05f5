import IsoLiteral.Proofs.Declaration.Plain
import IsoLiteral.Proofs.Schema.Coherent
import IsoLiteral.Proofs.Schema.Renaming
import IsoLiteral.Proofs.Schema.Stages

/-!
# Declared fields in another order

What a declaration adds to the graph depends on the types of the server only. The declarations of a graph can
be added exactly if each can be by itself and no two of them, nor one of them and a field of the server, are
of one name on one type; that does not depend on their order. So a graph can be built from declarations in
another order too, and it is the same but for the numbers of the declared fields.
-/

namespace IsoLiteral

namespace SchemaBuilder

variable {b b' : SchemaBuilder} {d : Declaration} {p : PendingField} {declarations declarations' : List Declaration}

/-! ## What a declaration adds -/

/-- The field that a declaration adds, whatever its index. -/
def pending? (b : SchemaBuilder) (d : Declaration) : Option PendingField := (b.declaredField 0 d).toOption

theorem toOption_declaredField (b : SchemaBuilder) (index : Nat) (d : Declaration) :
    (b.declaredField index d).toOption = (b.pending? d).map fun p => { p with origin := .declared index } := by
  rw [pending?, declaredField, declaredField]
  cases b.typeId? d.parentType.text with
  | none => rfl
  | some parent =>
    dsimp only
    split
    · cases b.declaredKind d <;> rfl
    · rfl

/-- What is asked of the types of the graph for a declaration, and what is added. -/
theorem pending?_eq (b : SchemaBuilder) (d : Declaration) :
    b.pending? d = (b.typeId? d.parentType.text).bind fun parent =>
      if (b.kindOf parent).isComposite then
        (b.declaredKind d).toOption.map fun form =>
          { parent, name := d.fieldName.text, kind := form.1, type := form.2,
            arguments := d.variableDefinitions.map argumentOfVariable, origin := .declared 0,
            description := d.description }
      else none := by
  rw [pending?, declaredField]
  cases b.typeId? d.parentType.text with
  | none => rfl
  | some parent =>
    dsimp only [Option.bind_some]
    split
    · cases b.declaredKind d <;> rfl
    · rfl

theorem toOption_declaredKind (b : SchemaBuilder) (d : Declaration) :
    (b.declaredKind d).toOption =
      if d.kind = .pointer ∧ d.target.isSome then
        (d.target.map fun ref => ref.annotation).bind fun target => (b.typeId? target.innerName).bind fun id =>
          if (b.kindOf id).isComposite then some (.pointer id, some target) else none
      else some (.resolver d.artifactKind, none) := by
  rw [declaredKind]
  cases d.kind with
  | field => rfl
  | entrypoint => rfl
  | pointer =>
    cases d.target with
    | none => rfl
    | some target =>
      simp only [Option.isSome_some, and_self, if_true, Option.map_some, Option.bind_some]
      cases b.typeId? target.annotation.innerName with
      | none => rfl
      | some id =>
        dsimp only [Option.bind_some]
        split <;> rfl

theorem artifactKind_bare (d : Declaration) : d.bare.artifactKind = d.artifactKind := by
  simp only [Declaration.artifactKind, Declaration.hasDirective, Declaration.bare, List.any_map]
  rfl

theorem map_argumentOfVariable_bare (d : Declaration) :
    d.bare.variableDefinitions.map argumentOfVariable = d.variableDefinitions.map argumentOfVariable := by
  simp [Declaration.bare, argumentOfVariable, VariableDefinition.bare, Name.plain, TypeRef.plain,
    PlacedValue.plain, Function.comp_def]

/-- Places do not matter for what is added. -/
theorem pending?_bare (b : SchemaBuilder) (d : Declaration) : b.pending? d.bare = b.pending? d := by
  have target : (d.bare.target.map fun ref => ref.annotation) = d.target.map fun ref => ref.annotation := by
    simp only [Declaration.bare, Option.map_map]
    rfl
  have given : d.bare.target.isSome = d.target.isSome := by simp [Declaration.bare]
  rw [pending?_eq, pending?_eq, toOption_declaredKind, toOption_declaredKind, target, given, artifactKind_bare,
    map_argumentOfVariable_bare]
  rfl

theorem typeId?_of_unnumbered
    (same : b'.types.map TypeDefinition.unnumbered = b.types.map TypeDefinition.unnumbered) (name : String) :
    b'.typeId? name = b.typeId? name := by
  have names (b : SchemaBuilder) : b.typeId? name =
      (lastPlace? name ((b.types.map TypeDefinition.unnumbered).map (·.name))).map TypeId.mk := by
    rw [List.map_map]
    exact b.toTypeTable.find?_eq name
  rw [names, names, same]

theorem type_of_unnumbered
    (same : b'.types.map TypeDefinition.unnumbered = b.types.map TypeDefinition.unnumbered) (id : TypeId) :
    (b'.type id).unnumbered = (b.type id).unnumbered := by
  have listed (b : SchemaBuilder) : (b.type id).unnumbered =
      (b.types.map TypeDefinition.unnumbered)[id.index]?.getD (default : TypeDefinition).unnumbered := by
    rw [List.getElem?_map, Option.getD_map]
    rfl
  rw [listed, listed, same]

theorem pending?_of_unnumbered
    (same : b'.types.map TypeDefinition.unnumbered = b.types.map TypeDefinition.unnumbered) (d : Declaration) :
    b'.pending? d = b.pending? d := by
  have kind (id : TypeId) : b'.kindOf id = b.kindOf id :=
    (congrArg TypeDefinition.kind (type_of_unnumbered same id) :)
  simp only [pending?_eq, toOption_declaredKind, typeId?_of_unnumbered same, kind]

/-! ## One declaration -/

/-- One field was added to a graph under construction, and its number does not matter. -/
structure Adds (b : SchemaBuilder) (p : PendingField) (b' : SchemaBuilder) : Prop where
  diagnostics : b'.diagnostics = b.diagnostics
  types : b'.types.map TypeDefinition.unnumbered = b.types.map TypeDefinition.unnumbered
  fields : b'.fields.map FieldDefinition.unnumbered = b.fields.map FieldDefinition.unnumbered ++ [p]
  lookup : ∀ type name, (b'.type type).fields.lookup name = none ↔
    (b.type type).fields.lookup name = none ∧ (type, name) ≠ (p.parent, p.name)

theorem adds_of_addField? {field : PendingField} (added : b.addField? field = some b')
    (valid : field.parent.index < b.types.length) :
    Adds b { field with origin := field.origin.unnumbered } b' := by
  obtain ⟨-, rfl⟩ := addField?_eq_some added
  refine ⟨rfl, ?_, ?_, fun type name => ?_⟩
  · refine List.ext_getElem? fun n => ?_
    rw [List.getElem?_map, List.getElem?_map, modifyType, TypeTable.modify, List.getElem?_modify, withField,
      TypeTable.intern]
    cases b.types[n]? with
    | none => rfl
    | some t => by_cases here : field.parent.index = n <;> simp [here, TypeDefinition.unnumbered]
  · simp [modifyType, withField, FieldDefinition.unnumbered]
  · have valid : field.parent.index < (b.withField field).types.length := valid
    rw [type_modifyType, type_withField]
    by_cases own : field.parent = type
    · subst own
      simp only [valid, and_self, if_true, List.lookup_append, Option.or_eq_none_iff, List.lookup_cons,
        List.lookup_nil]
      by_cases named : name = field.name
      · simp [named]
      · have apart : (name == field.name) = false := by simpa using named
        simp [apart, named]
    · have other : type ≠ field.parent := fun h => own h.symm
      simp [own, other]

/-- **Adding a declared field** succeeds exactly if the declaration has one by itself and its name is free. -/
theorem addDeclaredField_cases (form : d.kind ≠ .entrypoint) (index : Nat) :
    (∃ p, b.pending? d = some p ∧ (b.type p.parent).fields.lookup p.name = none ∧
        Adds b p (b.addDeclaredField d index)) ∨
      (∀ p, b.pending? d = some p → (b.type p.parent).fields.lookup p.name ≠ none) ∧
        (b.addDeclaredField d index).diagnostics.hasErrors = true := by
  have known := b.toOption_declaredField index d
  rw [addDeclaredField, if_neg form]
  cases declared : b.declaredField index d with
  | error e =>
    rw [declared] at known
    refine .inr ⟨fun p pending => ?_, hasErrors_report (isError_of_declaredField declared)⟩
    rw [pending] at known
    cases known
  | ok field =>
    rw [declared] at known
    obtain ⟨p, pending, same⟩ := Option.map_eq_some_iff.1 known.symm
    -- the declaration adds its field under its index, which is left out of what is added
    have origin : { p with origin := FieldOrigin.declared 0 } = p := by
      have own := b.toOption_declaredField 0 d
      rw [← pending?, pending] at own
      exact (Option.some.inj own).symm
    have unnumbered : { field with origin := field.origin.unnumbered } = p := by
      rw [← same]
      exact origin
    have lookup : (b.type p.parent).fields.lookup p.name = (b.type field.parent).fields.lookup field.name := by
      rw [← same]
    dsimp only
    cases added : b.addField? field with
    | some b' =>
      refine .inl ⟨p, pending, lookup.trans (addField?_eq_some added).1, ?_⟩
      have adds := adds_of_addField? added (declaredField_eq_ok form declared).1.valid
      rwa [unnumbered] at adds
    | none =>
      refine .inr ⟨fun q other => ?_, hasErrors_report rfl⟩
      obtain rfl := Option.some.inj (pending.symm.trans other)
      rw [lookup]
      rw [addField?] at added
      split at added
      · rename_i taken
        exact Option.isSome_iff_ne_none.1 taken
      · cases added

/-! ## All declarations -/

/-- The fields that declarations add, in order. -/
def pendingFields (b : SchemaBuilder) (declarations : List Declaration) : List PendingField :=
  declarations.filterMap fun d => if d.kind = .entrypoint then none else b.pending? d

/-- Declarations can be added to a graph: each has a field by itself, and their names are free. -/
structure Admits (b : SchemaBuilder) (declarations : List Declaration) : Prop where
  clean : b.diagnostics.hasErrors = false
  declared : ∀ d ∈ declarations, d.kind ≠ .entrypoint → (b.pending? d).isSome = true
  distinct : ((b.pendingFields declarations).map fun p => (p.parent, p.name)).Nodup
  fresh : ∀ p ∈ b.pendingFields declarations, (b.type p.parent).fields.lookup p.name = none

theorem pendingFields_cons (form : d.kind ≠ .entrypoint) (pending : b.pending? d = some p) :
    b.pendingFields (d :: declarations) = p :: b.pendingFields declarations := by
  rw [pendingFields, List.filterMap_cons_some]
  · rfl
  · rw [if_neg form, pending]

theorem Adds.pendingFields (adds : Adds b p b') (declarations : List Declaration) :
    b'.pendingFields declarations = b.pendingFields declarations := by
  rw [SchemaBuilder.pendingFields, funext (pending?_of_unnumbered adds.types)]
  rfl

/-- What an added declaration leaves of the others. -/
theorem admits_cons_iff (form : d.kind ≠ .entrypoint) (pending : b.pending? d = some p) (adds : Adds b p b')
    (free : (b.type p.parent).fields.lookup p.name = none) :
    b.Admits (d :: declarations) ↔ b'.Admits declarations := by
  have fields : b.pendingFields (d :: declarations) = p :: b.pendingFields declarations :=
    pendingFields_cons form pending
  have rest := adds.pendingFields declarations
  have later : b'.pending? = b.pending? := funext (pending?_of_unnumbered adds.types)
  constructor
  · intro admits
    have distinct := admits.distinct
    have fresh := admits.fresh
    rw [fields, List.map_cons, List.nodup_cons] at distinct
    rw [fields] at fresh
    refine ⟨?_, ?_, ?_, fun q member => (adds.lookup _ _).2 ⟨?_, fun same => distinct.1 ?_⟩⟩
    · rw [adds.diagnostics]
      exact admits.clean
    · rw [later]
      exact fun d member => admits.declared d (List.mem_cons_of_mem _ member)
    · rw [rest]
      exact distinct.2
    · exact fresh q (List.mem_cons_of_mem p (rest ▸ member))
    · exact List.mem_map.2 ⟨q, rest ▸ member, same⟩
  · intro admits
    have other (q : PendingField) (member : q ∈ b.pendingFields declarations) :=
      (adds.lookup _ _).1 (admits.fresh q (rest ▸ member))
    refine ⟨adds.diagnostics ▸ admits.clean, ?_, ?_, ?_⟩
    · refine List.forall_mem_cons.2 ⟨fun _ => by rw [pending]; rfl, fun d member form => ?_⟩
      rw [← later]
      exact admits.declared d member form
    · rw [fields, List.map_cons, List.nodup_cons]
      refine ⟨fun member => ?_, rest ▸ admits.distinct⟩
      obtain ⟨q, listed, same⟩ := List.mem_map.1 member
      exact (other q listed).2 same
    · rw [fields]
      exact List.forall_mem_cons.2 ⟨free, fun q member => (other q member).1⟩

theorem admits_cons_entrypoint (kind : d.kind = .entrypoint) :
    b.Admits (d :: declarations) ↔ b.Admits declarations := by
  have fields : b.pendingFields (d :: declarations) = b.pendingFields declarations := by
    rw [pendingFields, List.filterMap_cons_none]
    · rfl
    · rw [if_pos kind]
  constructor
  · intro admits
    exact ⟨admits.clean, fun d member => admits.declared d (List.mem_cons_of_mem _ member),
      fields ▸ admits.distinct, fields ▸ admits.fresh⟩
  · intro admits
    exact ⟨admits.clean, List.forall_mem_cons.2 ⟨fun other => absurd kind other, admits.declared⟩,
      fields ▸ admits.distinct, fields ▸ admits.fresh⟩

/-- **Declarations are added without errors** exactly if the graph admits them. -/
theorem hasErrors_addDeclaredFields (declarations : List Declaration) :
    ∀ (b : SchemaBuilder) (index : Nat),
      (b.addDeclaredFields index declarations).diagnostics.hasErrors = false ↔ b.Admits declarations := by
  induction declarations with
  | nil =>
    intro b index
    exact ⟨fun clean => ⟨clean, by simp, by simp [pendingFields], by simp [pendingFields]⟩, Admits.clean⟩
  | cons d rest ih =>
    intro b index
    rw [addDeclaredFields, ih]
    by_cases form : d.kind = .entrypoint
    · rw [addDeclaredField, if_pos form, admits_cons_entrypoint form]
    · rcases addDeclaredField_cases (b := b) form index with ⟨p, pending, free, adds⟩ | ⟨taken, errors⟩
      · exact (admits_cons_iff form pending adds free).symm
      · constructor
        · intro admits
          cases errors.symm.trans admits.clean
        · intro admits
          obtain ⟨p, pending⟩ := Option.isSome_iff_exists.1 (admits.declared d List.mem_cons_self form)
          refine absurd (admits.fresh p ?_) (taken p pending)
          rw [pendingFields_cons form pending]
          exact List.mem_cons_self

/-- The fields of admitted declarations are added, and nothing else is changed but for numbers. -/
theorem unnumbered_addDeclaredFields (declarations : List Declaration) :
    ∀ (b : SchemaBuilder) (index : Nat), b.Admits declarations →
      (b.addDeclaredFields index declarations).types.map TypeDefinition.unnumbered =
          b.types.map TypeDefinition.unnumbered ∧
        (b.addDeclaredFields index declarations).fields.map FieldDefinition.unnumbered =
          b.fields.map FieldDefinition.unnumbered ++ b.pendingFields declarations := by
  induction declarations with
  | nil =>
    intro b index _
    exact ⟨rfl, (List.append_nil _).symm⟩
  | cons d rest ih =>
    intro b index admits
    rw [addDeclaredFields]
    by_cases form : d.kind = .entrypoint
    · obtain ⟨types, fields⟩ := ih b (index + 1) ((admits_cons_entrypoint form).1 admits)
      rw [addDeclaredField, if_pos form, types, fields, pendingFields, pendingFields, List.filterMap_cons_none]
      · exact ⟨rfl, rfl⟩
      · rw [if_pos form]
    · rcases addDeclaredField_cases (b := b) form index with ⟨p, pending, free, adds⟩ | ⟨taken, -⟩
      · obtain ⟨types, fields⟩ := ih _ (index + 1) ((admits_cons_iff form pending adds free).1 admits)
        rw [types, fields, adds.types, adds.fields, adds.pendingFields, pendingFields_cons form pending,
          List.append_assoc]
        exact ⟨rfl, rfl⟩
      · obtain ⟨p, pending⟩ := Option.isSome_iff_exists.1 (admits.declared d List.mem_cons_self form)
        refine absurd (admits.fresh p ?_) (taken p pending)
        rw [pendingFields_cons form pending]
        exact List.mem_cons_self

/-- Neither places nor the order of declarations matter for what they add. -/
theorem perm_pendingFields (b : SchemaBuilder)
    (same : (declarations.map Declaration.bare).Perm (declarations'.map Declaration.bare)) :
    (b.pendingFields declarations').Perm (b.pendingFields declarations) := by
  have through (declarations : List Declaration) :
      b.pendingFields declarations = b.pendingFields (declarations.map Declaration.bare) := by
    rw [pendingFields, pendingFields, List.filterMap_map]
    refine List.filterMap_congr fun d _ => ?_
    rw [Function.comp_apply, b.pending?_bare d]
    rfl
  rw [through declarations, through declarations']
  exact (same.filterMap _).symm

theorem Admits.perm (h : b.Admits declarations)
    (same : (declarations.map Declaration.bare).Perm (declarations'.map Declaration.bare)) :
    b.Admits declarations' := by
  have fields := b.perm_pendingFields same
  refine ⟨h.clean, fun d member form => ?_, ((fields.map _).nodup_iff).2 h.distinct, fun p member => ?_⟩
  · obtain ⟨e, listed, alike⟩ := List.mem_map.1 (same.mem_iff.2 (List.mem_map_of_mem member))
    have kind : e.kind = d.kind := (congrArg Declaration.kind alike :)
    rw [← b.pending?_bare, ← alike, b.pending?_bare]
    exact h.declared e listed (kind ▸ form)
  · exact h.fresh p (fields.mem_iff.1 member)

end SchemaBuilder

/-! ## Graphs -/

namespace SchemaGraph

variable {options : SchemaOptions} {document : SchemaDocument} {declarations declarations' : List Declaration}
  {g g' : SchemaGraph}

/-- The number of a field in another graph; where there is no such field, a number stays as it is. -/
def numberIn (g g' : SchemaGraph) (id : FieldId) : FieldId :=
  if id.index < g.fields.length then (g'.lookupField? (g.field id).parent (g.fieldName id)).getD id else id

/-- Two graphs that differ in the order of their fields only. -/
structure Shuffles (g g' : SchemaGraph) : Prop where
  types : g'.types.map TypeDefinition.unnumbered = g.types.map TypeDefinition.unnumbered
  fields : (g'.fields.map FieldDefinition.unnumbered).Perm (g.fields.map FieldDefinition.unnumbered)
  queryType : g'.queryType = g.queryType
  mutationType : g'.mutationType = g.mutationType

/-- Declarations in another order, without regard to places, can be added to the same graph. -/
theorem exists_shuffles (built : ofDocument options document declarations = .ok g)
    (same : (declarations.map Declaration.bare).Perm (declarations'.map Declaration.bare)) :
    ∃ g', ofDocument options document declarations' = .ok g' ∧ g.Shuffles g' := by
  obtain ⟨roots, clean, table, fields⟩ := ofDocument_eq_ok_iff.1 built
  let b := SchemaBuilder.beforeDeclarations options document
  have admits := (SchemaBuilder.hasErrors_addDeclaredFields declarations b 0).1 clean
  have admits' := admits.perm same
  obtain ⟨ownTypes, ownFields⟩ := SchemaBuilder.unnumbered_addDeclaredFields declarations b 0 admits
  obtain ⟨otherTypes, otherFields⟩ := SchemaBuilder.unnumbered_addDeclaredFields declarations' b 0 admits'
  let built' := b.addDeclaredFields 0 declarations'
  refine ⟨⟨built'.toTypeTable, built'.fields, g.queryType, g.mutationType⟩, ofDocument_eq_ok_iff.2
    ⟨roots, (SchemaBuilder.hasErrors_addDeclaredFields declarations' b 0).2 admits', rfl, rfl⟩, ?_, ?_, rfl, rfl⟩
  · rw [congrArg TypeTable.types table, ownTypes]
    exact otherTypes
  · rw [fields, ownFields]
    exact (List.Perm.of_eq otherFields).trans ((b.perm_pendingFields same).append_left _)

/-- A field of the one graph has its other number in the other. -/
theorem Shuffles.exists_field (h : g.Shuffles g') {id : FieldId} (valid : id.index < g.fields.length) :
    ∃ id' : FieldId, id'.index < g'.fields.length ∧ (g'.field id').unnumbered = (g.field id).unnumbered := by
  have member : (g.field id).unnumbered ∈ g.fields.map FieldDefinition.unnumbered :=
    List.mem_map_of_mem (List.mem_of_getElem? (getElem?_fields valid))
  obtain ⟨f, listed, same⟩ := List.mem_map.1 (h.fields.mem_iff.2 member)
  obtain ⟨index, here⟩ := List.mem_iff_getElem?.1 listed
  have found : index < g'.fields.length ∧ g'.field ⟨index⟩ = f := field_of_getElem? here
  exact ⟨⟨index⟩, found.1, found.2 ▸ same⟩

theorem Shuffles.symm (h : g.Shuffles g') : g'.Shuffles g :=
  ⟨h.types.symm, h.fields.symm, h.queryType.symm, h.mutationType.symm⟩

theorem Shuffles.length (h : g.Shuffles g') : g'.fields.length = g.fields.length := by
  simpa using h.fields.length_eq

section Numbers

variable {options' : SchemaOptions} {document' : SchemaDocument}
  (built : ofDocument options document declarations = .ok g)
  (built' : ofDocument options' document' declarations' = .ok g')

include built' in
theorem Shuffles.field_numberIn (h : g.Shuffles g') {id : FieldId} (valid : id.index < g.fields.length) :
    (g.numberIn g' id).index < g'.fields.length ∧
      (g'.field (g.numberIn g' id)).unnumbered = (g.field id).unnumbered := by
  obtain ⟨id', inside, same⟩ := h.exists_field valid
  have parent : (g'.field id').parent = (g.field id).parent := (congrArg PendingField.parent same :)
  have name : g'.fieldName id' = g.fieldName id := (congrArg PendingField.name same :)
  have found := (lookupField?_iff built').2 ⟨inside, parent, name⟩
  rw [numberIn, if_pos valid, found, Option.getD_some]
  exact ⟨inside, same⟩

include built

/-- A field of a built graph is known by its type and name. -/
theorem eq_of_unnumbered {a b : FieldId} (validA : a.index < g.fields.length) (validB : b.index < g.fields.length)
    (same : (g.field a).unnumbered = (g.field b).unnumbered) : a = b := by
  have parent : (g.field a).parent = (g.field b).parent := (congrArg PendingField.parent same :)
  have name : g.fieldName a = g.fieldName b := (congrArg PendingField.name same :)
  have foundA := (lookupField?_iff built).2 ⟨validA, parent, name⟩
  have foundB := (lookupField?_iff built).2 ⟨validB, rfl, rfl⟩
  exact Option.some.inj (foundA.symm.trans foundB)

include built'

/-- **Graphs up to the order of fields** are the same but for the numbers of fields. -/
theorem Shuffles.renames (h : g.Shuffles g') : g.Renames g' (g.numberIn g') := by
  have outside {id : FieldId} (invalid : ¬ id.index < g.fields.length) : g.numberIn g' id = id := if_neg invalid
  have field (id : FieldId) : (g'.field (g.numberIn g' id)).unnumbered = (g.field id).unnumbered := by
    by_cases valid : id.index < g.fields.length
    · exact (h.field_numberIn built' valid).2
    · have invalid' : ¬ id.index < g'.fields.length := h.length ▸ valid
      rw [outside valid, SchemaGraph.field, SchemaGraph.field, List.getElem?_eq_none (Nat.le_of_not_lt valid),
        List.getElem?_eq_none (Nat.le_of_not_lt invalid')]
  -- a number is one of a field exactly if the other number is
  have validIff (id : FieldId) : (g.numberIn g' id).index < g.fields.length ↔ id.index < g.fields.length := by
    by_cases valid : id.index < g.fields.length
    · have inside := (h.field_numberIn built' valid).1
      rw [h.length] at inside
      exact iff_of_true inside valid
    · rw [outside valid]
  let b : SchemaBuilder := ⟨g.toTypeTable, g.fields, []⟩
  let b' : SchemaBuilder := ⟨g'.toTypeTable, g'.fields, []⟩
  have types : b'.types.map TypeDefinition.unnumbered = b.types.map TypeDefinition.unnumbered := h.types
  have injective : Function.Injective (g.numberIn g') := by
    intro x y same
    by_cases valid : x.index < g.fields.length
    · have valid' : y.index < g.fields.length := by rwa [← validIff, ← same, validIff]
      refine eq_of_unnumbered built valid valid' ?_
      rw [← field, ← field, same]
    · have invalid' : ¬ y.index < g.fields.length := by rwa [← validIff, ← same, validIff]
      rwa [outside valid, outside invalid'] at same
  have lookup (type : TypeId) (name : String) :
      g'.lookupField? type name = (g.lookupField? type name).map (g.numberIn g') := by
    cases found : g.lookupField? type name with
    | some id =>
      obtain ⟨valid, parent, named⟩ := (lookupField?_iff built).1 found
      have inside := (validIff id).2 valid
      rw [← h.length] at inside
      refine (lookupField?_iff built').2 ⟨inside, ?_, ?_⟩
      · exact (congrArg PendingField.parent (field id) :).trans parent
      · exact (congrArg PendingField.name (field id) :).trans named
    | none =>
      refine Option.eq_none_iff_forall_ne_some.2 fun id' found' => ?_
      obtain ⟨inside, parent, named⟩ := (lookupField?_iff built').1 found'
      obtain ⟨id, valid, same⟩ := h.symm.exists_field inside
      have listed := (lookupField?_iff built).2 ⟨valid, (congrArg PendingField.parent same :).trans parent,
        (congrArg PendingField.name same :).trans named⟩
      cases found.symm.trans listed
  exact
    { injective
      type := SchemaBuilder.type_of_unnumbered types
      typeByName? := SchemaBuilder.typeId?_of_unnumbered types
      queryType := h.queryType
      mutationType := h.mutationType
      field
      lookupField? := lookup }

end Numbers

end SchemaGraph

end IsoLiteral
