import IsoLiteral.Proofs.Resolution.Checking
import Mathlib.Tactic

/-!
# Renumbered fields

Two graphs may be the same but for the numbers that their fields have. Everything that can be asked of such
graphs without looking at numbers is answered alike, and a field that is looked up has the other number. Most
of this needs less: that the one graph is part of the other, which may have more fields as long as the server
has no part in these.
-/

namespace IsoLiteral

/-- Where a field comes from, whichever the declaration. -/
def FieldOrigin.unnumbered : FieldOrigin → FieldOrigin
  | .declared _ => .declared 0
  | origin => origin

/-- A field without its number and that of its declaration. -/
def FieldDefinition.unnumbered (f : FieldDefinition) : PendingField :=
  { f.toPendingField with origin := f.origin.unnumbered }

/-- A type without the numbers of its fields. -/
def TypeDefinition.unnumbered (t : TypeDefinition) : TypeDefinition := { t with fields := [] }

/-- The server has a part in a field: it is one of its own, or one that leads to a record that it gives. -/
def PendingField.IsServed (f : PendingField) : Prop :=
  f.origin = .server ∨ ∃ target inlineFragment, f.kind = .linked target inlineFragment

/-- One graph is part of another, where its fields have other numbers. What else is found in the other graph is
not served. -/
structure SchemaGraph.Embeds (g g' : SchemaGraph) (σ : FieldId → FieldId) : Prop where
  injective : Function.Injective σ
  type : ∀ id, (g'.type id).unnumbered = (g.type id).unnumbered
  typeByName? : ∀ name, g'.typeByName? name = g.typeByName? name
  queryType : g'.queryType = g.queryType
  mutationType : g'.mutationType = g.mutationType
  field : ∀ id, (g'.field (σ id)).unnumbered = (g.field id).unnumbered
  found : ∀ {type name id}, g.lookupField? type name = some id → g'.lookupField? type name = some (σ id)
  fresh : ∀ {type name id}, g.lookupField? type name = none → g'.lookupField? type name = some id →
    ¬ (g'.field id).IsServed

/-- One graph is the other with the numbers of its fields changed. -/
structure SchemaGraph.Renames (g g' : SchemaGraph) (σ : FieldId → FieldId) : Prop extends g.Embeds g' σ where
  lookupField? : ∀ type name, g'.lookupField? type name = (g.lookupField? type name).map σ
  found := fun known => by rw [lookupField?, known, Option.map_some]
  fresh := fun unknown known => by simp [lookupField?, unknown] at known

namespace SchemaGraph

theorem Renames.refl (g : SchemaGraph) : g.Renames g id where
  injective := Function.injective_id
  type _ := rfl
  typeByName? _ := rfl
  queryType := rfl
  mutationType := rfl
  lookupField? _ _ := Option.map_id_apply.symm
  field _ := rfl

theorem Embeds.refl (g : SchemaGraph) : g.Embeds g id := (Renames.refl g).toEmbeds

namespace Embeds

variable {g g' : SchemaGraph} {σ : FieldId → FieldId}

theorem typeName (h : g.Embeds g' σ) (id : TypeId) : g'.typeName id = g.typeName id :=
  (congrArg TypeDefinition.name (h.type id) :)

theorem kind (h : g.Embeds g' σ) (id : TypeId) : (g'.type id).kind = (g.type id).kind :=
  (congrArg TypeDefinition.kind (h.type id) :)

theorem enumValues (h : g.Embeds g' σ) (id : TypeId) : (g'.type id).enumValues = (g.type id).enumValues :=
  (congrArg TypeDefinition.enumValues (h.type id) :)

theorem inputFields (h : g.Embeds g' σ) (id : TypeId) : (g'.type id).inputFields = (g.type id).inputFields :=
  (congrArg TypeDefinition.inputFields (h.type id) :)

theorem fieldParent (h : g.Embeds g' σ) (id : FieldId) : (g'.field (σ id)).parent = (g.field id).parent :=
  (congrArg PendingField.parent (h.field id) :)

theorem fieldName (h : g.Embeds g' σ) (id : FieldId) : g'.fieldName (σ id) = g.fieldName id :=
  (congrArg PendingField.name (h.field id) :)

theorem qualifiedName (h : g.Embeds g' σ) (id : FieldId) : g'.qualifiedName (σ id) = g.qualifiedName id := by
  rw [SchemaGraph.qualifiedName, SchemaGraph.qualifiedName, h.fieldParent, h.typeName, h.fieldName]

theorem fieldKind (h : g.Embeds g' σ) (id : FieldId) : (g'.field (σ id)).kind = (g.field id).kind :=
  (congrArg PendingField.kind (h.field id) :)

theorem fieldType (h : g.Embeds g' σ) (id : FieldId) : (g'.field (σ id)).type = (g.field id).type :=
  (congrArg PendingField.type (h.field id) :)

theorem fieldArguments (h : g.Embeds g' σ) (id : FieldId) :
    (g'.field (σ id)).arguments = (g.field id).arguments :=
  (congrArg PendingField.arguments (h.field id) :)

theorem fieldOrigin (h : g.Embeds g' σ) (id : FieldId) :
    (g'.field (σ id)).origin.unnumbered = (g.field id).origin.unnumbered :=
  (congrArg PendingField.origin (h.field id) :)

theorem origin_eq_server (h : g.Embeds g' σ) (id : FieldId) :
    (g'.field (σ id)).origin = .server ↔ (g.field id).origin = .server := by
  have same := h.fieldOrigin id
  cases origin : (g.field id).origin <;> cases origin' : (g'.field (σ id)).origin <;>
    simp [origin, origin', FieldOrigin.unnumbered] at same ⊢

theorem isSome_declaration? (h : g.Embeds g' σ) (id : FieldId) :
    (g'.field (σ id)).declaration?.isSome = (g.field id).declaration?.isSome := by
  have same := h.fieldOrigin id
  cases origin : (g.field id).origin <;> cases origin' : (g'.field (σ id)).origin <;>
    simp [origin, origin', FieldOrigin.unnumbered, FieldDefinition.declaration?] at same ⊢

theorem operationKind? (h : g.Embeds g' σ) (id : TypeId) : g'.operationKind? id = g.operationKind? id := by
  rw [SchemaGraph.operationKind?, SchemaGraph.operationKind?, h.queryType, h.mutationType]

theorem isRootType (h : g.Embeds g' σ) (id : TypeId) : g'.isRootType id = g.isRootType id := by
  rw [SchemaGraph.isRootType, SchemaGraph.isRootType, h.operationKind?]

theorem idField? (h : g.Embeds g' σ) (id : TypeId) : g'.idField? id = (g.idField? id).map σ := by
  rw [SchemaGraph.idField?, SchemaGraph.idField?]
  cases own : g.lookupField? id "id" with
  | some field =>
    rw [h.found own]
    simp only [Option.bind_eq_bind, Option.bind_some, h.fieldType,
      decide_eq_decide.2 (h.origin_eq_server field)]
    split <;> rfl
  | none =>
    cases other : g'.lookupField? id "id" with
    | none => rfl
    | some field =>
      have apart : (g'.field field).origin ≠ .server := fun origin => h.fresh own other (.inl origin)
      simp [apart]

theorem foundByName (h : g.Embeds g' σ) {typeName fieldName : String} {id : FieldId}
    (known : g.fieldByName? typeName fieldName = some id) : g'.fieldByName? typeName fieldName = some (σ id) := by
  obtain ⟨parent, named, found⟩ := Option.bind_eq_some_iff.1 known
  rw [SchemaGraph.fieldByName?, h.typeByName?, named]
  exact h.found found

theorem isSome_idField? (h : g.Embeds g' σ) (id : TypeId) :
    (g'.idField? id).isSome = (g.idField? id).isSome := by
  rw [h.idField?, Option.isSome_map]

theorem argument? (h : g.Embeds g' σ) (id : FieldId) (name : String) :
    (g'.field (σ id)).argument? name = (g.field id).argument? name := by
  rw [FieldDefinition.argument?, FieldDefinition.argument?, h.fieldArguments]

/-! ## Values -/

theorem acceptsLeaf (h : g.Embeds g' σ) (id : TypeId) (v : Value) :
    SchemaGraph.acceptsLeaf (g'.type id) v = SchemaGraph.acceptsLeaf (g.type id) v := by
  have name : (g'.type id).name = (g.type id).name := h.typeName id
  simp only [SchemaGraph.acceptsLeaf, h.kind, name, h.enumValues]

theorem checkLeaf (h : g.Embeds g' σ) (expected : TypeExpr) (v : Value) :
    g'.checkLeaf expected v = g.checkLeaf expected v := by
  rw [SchemaGraph.checkLeaf, SchemaGraph.checkLeaf, h.typeByName?]
  split
  · rfl
  · rw [h.acceptsLeaf]

theorem checkMissing (h : g.Embeds g' σ) (id : TypeId) (fields : List (String × Value)) :
    SchemaGraph.checkMissing (g'.type id) fields = SchemaGraph.checkMissing (g.type id) fields := by
  have name : (g'.type id).name = (g.type id).name := h.typeName id
  simp only [SchemaGraph.checkMissing, missingField?, h.inputFields, name]

mutual
theorem checkValue (h : g.Embeds g' σ) (judge : String → TypeExpr → Option ValueError) (expected : TypeExpr)
    (v : Value) : g'.checkValue judge expected v = g.checkValue judge expected v := by
  cases v with
  | «variable» name => rfl
  | null => rw [SchemaGraph.checkValue_null, SchemaGraph.checkValue_null]
  | list items =>
    rw [SchemaGraph.checkValue_list, SchemaGraph.checkValue_list]
    split
    · exact h.checkItems judge _ items
    · rfl
  | object fields =>
    rw [SchemaGraph.checkValue_object, SchemaGraph.checkValue_object, h.typeByName?]
    split
    · rfl
    · rw [h.kind, h.checkFields, h.checkMissing, h.acceptsLeaf]
  | int i => rw [SchemaGraph.checkValue_int, SchemaGraph.checkValue_int, h.checkLeaf]
  | float text => rw [SchemaGraph.checkValue_float, SchemaGraph.checkValue_float, h.checkLeaf]
  | string s => rw [SchemaGraph.checkValue_string, SchemaGraph.checkValue_string, h.checkLeaf]
  | boolean b => rw [SchemaGraph.checkValue_boolean, SchemaGraph.checkValue_boolean, h.checkLeaf]
  | enum name => rw [SchemaGraph.checkValue_enum, SchemaGraph.checkValue_enum, h.checkLeaf]
termination_by structural v
theorem checkItems (h : g.Embeds g' σ) (judge : String → TypeExpr → Option ValueError) (expected : TypeExpr)
    (items : List Value) : g'.checkItems judge expected items = g.checkItems judge expected items := by
  cases items with
  | nil => rfl
  | cons v rest =>
    rw [SchemaGraph.checkItems_cons, SchemaGraph.checkItems_cons, h.checkValue, h.checkItems]
termination_by structural items
theorem checkFields (h : g.Embeds g' σ) (judge : String → TypeExpr → Option ValueError) (id : TypeId)
    (fields : List (String × Value)) :
    g'.checkFields judge (g'.type id) fields = g.checkFields judge (g.type id) fields := by
  cases fields with
  | nil => rfl
  | cons field rest =>
    obtain ⟨key, v⟩ := field
    have name : (g'.type id).name = (g.type id).name := h.typeName id
    rw [SchemaGraph.checkFields_cons, SchemaGraph.checkFields_cons, h.inputFields, name]
    split
    · rfl
    · rw [h.checkValue, h.checkFields]
termination_by structural fields
end

end Embeds

theorem Renames.fieldByName? {g g' : SchemaGraph} {σ : FieldId → FieldId} (h : g.Renames g' σ)
    (typeName fieldName : String) :
    g'.fieldByName? typeName fieldName = (g.fieldByName? typeName fieldName).map σ := by
  rw [SchemaGraph.fieldByName?, SchemaGraph.fieldByName?, h.typeByName?]
  cases g.typeByName? typeName with
  | none => rfl
  | some parent => exact h.lookupField? parent fieldName

end SchemaGraph

end IsoLiteral
