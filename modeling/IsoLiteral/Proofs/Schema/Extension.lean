import IsoLiteral.Proofs.Schema.Reordered

/-!
# More declarations

Declarations that come after others add their fields at the end. The graph of the first ones is then part of the
graph of all: its types and fields are the same and have the same numbers. What more is found in the larger graph
is declared, so the server has no part in it. Numbers of no field are moved behind the last field of the larger
graph, so that no number of the smaller graph is that of a field that only the larger one has.
-/

namespace IsoLiteral

namespace SchemaBuilder

variable {b : SchemaBuilder}

theorem addDeclaredFields_append (declarations more : List Declaration) :
    ∀ (b : SchemaBuilder) (index : Nat), b.addDeclaredFields index (declarations ++ more) =
      (b.addDeclaredFields index declarations).addDeclaredFields (index + declarations.length) more := by
  induction declarations with
  | nil => exact fun _ _ => rfl
  | cons d rest ih =>
    intro b index
    rw [List.cons_append, addDeclaredFields, ih, addDeclaredFields, List.length_cons, Nat.add_right_comm, Nat.add_assoc]

/-- The server has no part in a declared field. -/
theorem not_isServed_of_declaredField {index : Nat} {d : Declaration} {field : PendingField}
    (form : d.kind ≠ .entrypoint) (declared : b.declaredField index d = .ok field) : ¬ field.IsServed := by
  obtain ⟨-, declared⟩ := declaredField_eq_ok form declared
  have kind := declared.kind
  rintro (origin | ⟨target, inlineFragment, linked⟩)
  · cases declared.origin.symm.trans origin
  · rw [linked] at kind
    cases kind

/-- Fields are added at the end that the server has no part in. -/
def Appends (b b' : SchemaBuilder) : Prop :=
  ∃ more, b'.fields = b.fields ++ more ∧ ∀ f ∈ more, ¬ f.IsServed

theorem Appends.of_eq {b' : SchemaBuilder} (same : b'.fields = b.fields) : Appends b b' :=
  ⟨[], by rw [same, List.append_nil], nofun⟩

theorem Appends.trans {b' b'' : SchemaBuilder} (first : Appends b b') (second : Appends b' b'') : Appends b b'' := by
  obtain ⟨more, fields, declared⟩ := first
  obtain ⟨last, fields', declared'⟩ := second
  exact ⟨more ++ last, by rw [fields', fields, List.append_assoc], List.forall_mem_append.2 ⟨declared, declared'⟩⟩

theorem appends_addDeclaredField (b : SchemaBuilder) (d : Declaration) (index : Nat) :
    Appends b (b.addDeclaredField d index) := by
  rw [addDeclaredField]
  split
  · exact .of_eq rfl
  · rename_i form
    split
    · exact .of_eq rfl
    · rename_i field declared
      cases added : b.addField? field with
      | none => exact .of_eq rfl
      | some b' =>
        obtain ⟨-, rfl⟩ := addField?_eq_some added
        exact ⟨[⟨field, ⟨b.fields.length⟩⟩], rfl,
          List.forall_mem_singleton.2 (not_isServed_of_declaredField form declared)⟩

theorem appends_addDeclaredFields (declarations : List Declaration) :
    ∀ (b : SchemaBuilder) (index : Nat), Appends b (b.addDeclaredFields index declarations) := by
  induction declarations with
  | nil => exact fun _ _ => .of_eq rfl
  | cons d rest ih => exact fun b index => (b.appends_addDeclaredField d index).trans (ih _ _)

end SchemaBuilder

namespace SchemaGraph

variable {options : SchemaOptions} {document : SchemaDocument} {declarations more : List Declaration}
  {g g' : SchemaGraph}

/-- One graph is another with more fields at the end, which the server has no part in. -/
structure Extends (g g' : SchemaGraph) : Prop where
  types : g'.types.map TypeDefinition.unnumbered = g.types.map TypeDefinition.unnumbered
  fields : ∃ more, g'.fields = g.fields ++ more ∧ ∀ f ∈ more, ¬ f.IsServed
  queryType : g'.queryType = g.queryType
  mutationType : g'.mutationType = g.mutationType

/-- Later declarations extend the graph. -/
theorem extends_ofDocument (built : ofDocument options document declarations = .ok g)
    (built' : ofDocument options document (declarations ++ more) = .ok g') : g.Extends g' := by
  obtain ⟨roots, -, table, fields⟩ := ofDocument_eq_ok_iff.1 built
  obtain ⟨roots', clean', table', fields'⟩ := ofDocument_eq_ok_iff.1 built'
  rw [SchemaBuilder.addDeclaredFields_append] at clean' table' fields'
  obtain ⟨query, mutation⟩ := Prod.mk.inj (Option.some.inj (roots'.symm.trans roots))
  have admits := (SchemaBuilder.hasErrors_addDeclaredFields more _ _).1 clean'
  obtain ⟨unnumbered, -⟩ := SchemaBuilder.unnumbered_addDeclaredFields more _ (0 + declarations.length) admits
  refine ⟨?_, ?_, query, mutation⟩
  · rw [congrArg TypeTable.types table', unnumbered, congrArg TypeTable.types table]
  · rw [fields', fields]
    exact SchemaBuilder.appends_addDeclaredFields more _ _

namespace Extends

theorem length_le (h : g.Extends g') : g.fields.length ≤ g'.fields.length := by
  obtain ⟨more, fields, -⟩ := h.fields
  rw [fields, List.length_append]
  exact Nat.le_add_right _ _

/-- A field of the smaller graph is the same in the larger one. -/
theorem field_eq (h : g.Extends g') {id : FieldId} (valid : id.index < g.fields.length) :
    g'.field id = g.field id := by
  obtain ⟨more, fields, -⟩ := h.fields
  rw [SchemaGraph.field, SchemaGraph.field, fields, List.getElem?_append_left valid]

/-- The server has no part in what only the larger graph has. -/
theorem not_isServed (h : g.Extends g') {id : FieldId} (valid : id.index < g'.fields.length)
    (new : g.fields.length ≤ id.index) : ¬ (g'.field id).IsServed := by
  obtain ⟨more, fields, declared⟩ := h.fields
  have here := getElem?_fields valid
  rw [fields, List.getElem?_append_right new] at here
  exact declared _ (List.mem_of_getElem? here)

end Extends

/-- The number of a field in a larger graph is the same. A number of no field is one of no field there. -/
def numberBeyond (g g' : SchemaGraph) (id : FieldId) : FieldId :=
  if id.index < g.fields.length then id else ⟨g'.fields.length + id.index⟩

theorem numberBeyond_of_lt {id : FieldId} (valid : id.index < g.fields.length) : g.numberBeyond g' id = id :=
  if_pos valid

theorem numberBeyond_of_le {id : FieldId} (invalid : g.fields.length ≤ id.index) :
    g.numberBeyond g' id = ⟨g'.fields.length + id.index⟩ :=
  if_neg (Nat.not_lt.2 invalid)

/-- No number becomes that of a field that only the larger graph has. -/
theorem numberBeyond_ne {x : FieldId} (valid : x.index < g'.fields.length)
    (new : g.fields.length ≤ x.index) (id : FieldId) : g.numberBeyond g' id ≠ x := by
  rcases Nat.lt_or_ge id.index g.fields.length with known | unknown
  · rw [numberBeyond_of_lt known]
    rintro rfl
    exact Nat.not_lt.2 new known
  · rw [numberBeyond_of_le unknown]
    rintro rfl
    exact Nat.not_lt.2 (Nat.le_add_right _ _) valid

theorem Extends.numberBeyond_injective (h : g.Extends g') : Function.Injective (g.numberBeyond g') := by
  rintro ⟨n⟩ ⟨m⟩ same
  have few := h.length_le
  simp only [numberBeyond] at same
  split at same <;> split at same <;> simp only [FieldId.mk.injEq] at same ⊢ <;> omega

/-- **A graph is part of every graph that extends it**, and its fields keep their numbers. -/
theorem Extends.embeds {options' : SchemaOptions} {document' : SchemaDocument} {declarations' : List Declaration}
    (built : ofDocument options document declarations = .ok g)
    (built' : ofDocument options' document' declarations' = .ok g') (h : g.Extends g') :
    g.Embeds g' (g.numberBeyond g') := by
  let b : SchemaBuilder := ⟨g.toTypeTable, g.fields, []⟩
  let b' : SchemaBuilder := ⟨g'.toTypeTable, g'.fields, []⟩
  have types : b'.types.map TypeDefinition.unnumbered = b.types.map TypeDefinition.unnumbered := h.types
  refine
    { injective := h.numberBeyond_injective
      type := SchemaBuilder.type_of_unnumbered types
      typeByName? := SchemaBuilder.typeId?_of_unnumbered types
      queryType := h.queryType
      mutationType := h.mutationType
      field := fun id => ?_
      found := fun {type name id} known => ?_
      fresh := fun {type name id} unknown known => ?_ }
  · rcases Nat.lt_or_ge id.index g.fields.length with valid | invalid
    · rw [numberBeyond_of_lt valid, h.field_eq valid]
    · rw [numberBeyond_of_le invalid, SchemaGraph.field, SchemaGraph.field, List.getElem?_eq_none invalid,
        List.getElem?_eq_none (Nat.le_add_right _ _)]
  · obtain ⟨valid, parent, named⟩ := (lookupField?_iff built).1 known
    rw [numberBeyond_of_lt valid]
    refine (lookupField?_iff built').2 ⟨Nat.lt_of_lt_of_le valid h.length_le, ?_⟩
    rw [fieldName, h.field_eq valid]
    exact ⟨parent, named⟩
  · obtain ⟨inside, parent, named⟩ := (lookupField?_iff built').1 known
    refine h.not_isServed inside (Nat.le_of_not_lt fun valid => ?_)
    rw [fieldName, h.field_eq valid] at named
    rw [h.field_eq valid] at parent
    cases unknown.symm.trans ((lookupField?_iff built).2 ⟨valid, parent, named⟩)

end SchemaGraph

end IsoLiteral
