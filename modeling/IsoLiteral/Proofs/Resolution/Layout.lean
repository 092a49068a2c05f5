import IsoLiteral.Proofs.Declaration.Layout
import IsoLiteral.Proofs.Graph.Reference
import IsoLiteral.Proofs.Resolution.Renaming

/-!
# Resolving literals that are laid out otherwise

Declarations that differ in places only are resolved to fields and entrypoints that differ in places only, each
with its own literal still, and the same is reported about them. Both are compared with the declaration that has
no places: what is left out there is the literal too, but everything that resolving a declaration says or selects
is placed in the literal of that declaration.
-/

namespace IsoLiteral

open Diagnostics ResolvedSelection

/-! ## The literal of a reference -/

/-- Every reference of the selections is placed in one literal. -/
def ReferIn (source : Nat) (selections : List ResolvedSelection) : Prop :=
  ∀ reference ∈ referencesOfAll selections, reference.2.source = source

namespace SelectionScope

variable {source : Nat} {xs ys : List ResolvedSelection}

theorem referIn_nil : ReferIn source [] := fun _ none => absurd none (by simp [referencesOfAll])

theorem referIn_append (first : ReferIn source xs) (later : ReferIn source ys) : ReferIn source (xs ++ ys) := by
  rw [ReferIn, referencesOfAll_eq_flatMap] at first later ⊢
  rw [List.flatMap_append]
  exact List.forall_mem_append.2 ⟨first, later⟩

theorem referIn_nestedFindings (c : SelectionScope) (field : FieldId) (name : Name) (hasBraces : Bool)
    {form : List ResolvedSelection → ResolvedSelection} {findings : Option Findings}
    (fits : ∀ nested, ReferIn c.source nested → ReferIn c.source [form nested])
    (inside : ∀ found, findings = some found → ReferIn c.source found.selections) :
    ReferIn c.source (c.nestedFindings field name hasBraces form findings).selections := by
  cases findings with
  | none => exact referIn_nil
  | some found => exact fits _ (inside found rfl)

mutual
theorem referIn_resolveSelection (c : SelectionScope) (parent : TypeId) (selection : Selection) :
    ReferIn c.source (c.resolveSelection parent selection).selections := by
  obtain ⟨label, name, arguments, directives, selectionSet, range⟩ := selection
  rw [resolveSelection]
  split
  · exact referIn_nil
  · rename_i id found
    simp only [Findings.selections_append, List.nil_append]
    split
    · simp [ReferIn, referencesOfAll, referencesOf]
    · simp [ReferIn, referencesOfAll, referencesOf]
    · cases (appliedDirectives (positionOf (c.schema.field id).kind) directives).loadable <;>
        simp [ReferIn, referencesOfAll, referencesOf]
    · refine c.referIn_nestedFindings id name _ (fun nested inside => ?_)
        (c.referIn_resolveSelectionSet? _ selectionSet)
      simpa [ReferIn, referencesOfAll, referencesOf] using inside
    · simp only [Findings.selections_append, List.nil_append]
      refine c.referIn_nestedFindings id name _ (fun nested inside => ?_)
        (c.referIn_resolveSelectionSet? _ selectionSet)
      simpa [ReferIn, referencesOfAll, referencesOf] using inside
theorem referIn_resolveSelectionSet? (c : SelectionScope) (parent : TypeId) (set : Option (List Selection))
    (findings : Findings) (found : c.resolveSelectionSet? parent set = some findings) :
    ReferIn c.source findings.selections := by
  cases set with
  | none => simp [resolveSelectionSet?] at found
  | some selections =>
    rw [resolveSelectionSet?] at found
    have inside := c.referIn_resolveSelections parent selections
    split at found
    · cases found
    · obtain rfl := Option.some.inj found
      exact inside
theorem referIn_resolveSelections (c : SelectionScope) (parent : TypeId) (selections : List Selection) :
    ReferIn c.source (c.resolveSelections parent selections).selections := by
  cases selections with
  | nil => exact referIn_nil
  | cons selection rest =>
    have first := c.referIn_resolveSelection parent selection
    have others := c.referIn_resolveSelections parent rest
    exact referIn_append first others
end

end SelectionScope

theorem referIn_of_resolveField {g : SchemaGraph} {index : Nat} {d : Declaration} {f : ResolvedField}
    (resolved : (resolveField g index d).1 = some f) : ReferIn d.source f.selections := by
  rw [resolveField_eq] at resolved
  split at resolved
  · cases resolved
  · dsimp only at resolved
    split at resolved
    · split at resolved
      · cases resolved
      · obtain rfl := Option.some.inj resolved
        exact SelectionScope.referIn_resolveSelections _ _ _
    · cases resolved

/-! ## One declaration -/

/-- Two resolved fields from one literal differ in places only. -/
structure ResolvedField.Relaid (f f' : ResolvedField) : Prop where
  renamed : f'.rename id = f.rename id
  literal : ∃ source, ReferIn source f.selections ∧ ReferIn source f'.selections

/-- Two resolved entrypoints differ in places only. -/
def ResolvedEntrypoint.Relaid (e e' : ResolvedEntrypoint) : Prop := e'.rename id = e.rename id

variable {g : SchemaGraph} {d d' : Declaration}

theorem rel_of_map_eq {α β : Type} {f : α → β} {a a' : Option α} (same : a'.map f = a.map f) :
    Option.Rel (fun x x' => f x' = f x) a a' := by
  cases a with
  | none =>
    rw [Option.map_none, Option.map_eq_none_iff] at same
    subst same
    exact .none
  | some x =>
    rw [Option.map_some, Option.map_eq_some_iff] at same
    obtain ⟨x', rfl, same⟩ := same
    exact .some same

theorem resolveField_relaid (same : d.Relaid d') (g : SchemaGraph) (index : Nat) :
    Option.Rel ResolvedField.Relaid (resolveField g index d).1 (resolveField g index d').1 ∧
      (resolveField g index d').2.unplaced = (resolveField g index d).2.unplaced := by
  have owns (field : FieldId) : (g.field (id field)).declaration? = some index ↔
      (g.field field).declaration? = some index := .rfl
  have named (typeName name : String) : g.fieldByName? typeName name = (g.fieldByName? typeName name).map id :=
    Option.map_id_apply.symm
  obtain ⟨field, reports⟩ := d.resolveField_bare (.refl g) (named _ _) (fun field _ => owns field) (.inl (.refl g))
  obtain ⟨field', reports'⟩ := d'.resolveField_bare (.refl g) (named _ _) (fun field _ => owns field) (.inl (.refl g))
  rw [same.bare] at field' reports'
  have here : AreIn d.source (resolveField g index d').2 := same.source ▸ areIn_resolveField g index d'
  refine ⟨?_, unplaced_eq_of_plain (reports'.symm.trans reports) here (areIn_resolveField g index d)⟩
  have renamed := rel_of_map_eq (field'.symm.trans field)
  cases resolved : (resolveField g index d).1 <;> cases resolved' : (resolveField g index d').1 <;>
    rw [resolved, resolved'] at renamed <;> cases renamed
  case none.none => exact .none
  case some.some f f' renamed =>
    have there : ReferIn d.source f'.selections := same.source ▸ referIn_of_resolveField resolved'
    exact .some ⟨renamed, d.source, referIn_of_resolveField resolved, there⟩

theorem resolveEntrypoint_relaid (same : d.Relaid d') (g : SchemaGraph) (index : Nat) :
    Option.Rel ResolvedEntrypoint.Relaid (resolveEntrypoint g index d).1 (resolveEntrypoint g index d').1 ∧
      (resolveEntrypoint g index d').2.unplaced = (resolveEntrypoint g index d).2.unplaced := by
  obtain ⟨entrypoint, reports⟩ := d.resolveEntrypoint_bare (.refl g) index index (.inl (.refl g))
  obtain ⟨entrypoint', reports'⟩ := d'.resolveEntrypoint_bare (.refl g) index index (.inl (.refl g))
  rw [same.bare] at entrypoint' reports'
  have here : AreIn d.source (resolveEntrypoint g index d').2 := same.source ▸ areIn_resolveEntrypoint g index d'
  exact ⟨rel_of_map_eq (entrypoint'.symm.trans entrypoint),
    unplaced_eq_of_plain (reports'.symm.trans reports) here (areIn_resolveEntrypoint g index d)⟩

/-- What is left out for its errors is left out in both. -/
theorem rel_withoutErrors {α : Type} {related : α → α → Prop} {x x' : Option α × Diagnostics}
    (results : Option.Rel related x.1 x'.1) (reports : x'.2.unplaced = x.2.unplaced) :
    Option.Rel related (withoutErrors x).1 (withoutErrors x').1 := by
  rw [withoutErrors, withoutErrors, hasErrors_eq_of_unplaced reports]
  split
  · exact .none
  · exact results

theorem unplaced_duplicateEntrypoint (same : d.Relaid d') (g : SchemaGraph) (field : FieldId) :
    (duplicateEntrypoint g d' field).unplaced = (duplicateEntrypoint g d field).unplaced := by
  rw [duplicateEntrypoint, same.source]
  rfl

/-! ## All declarations -/

/-- Two resolutions differ in places only. -/
structure Resolution.Relaid (r r' : Resolution) : Prop where
  fields : List.Forall₂ ResolvedField.Relaid r.fields r'.fields
  entrypoints : List.Forall₂ ResolvedEntrypoint.Relaid r.entrypoints r'.entrypoints

/-- Declarations that differ in places only are resolved to the same but for places, and the same is reported
about them. -/
theorem resolveFrom_relaid {declarations declarations' : List Declaration}
    (same : List.Forall₂ Declaration.Relaid declarations declarations') (g : SchemaGraph) (index : Nat)
    (taken : List FieldId) :
    (resolveFrom g index taken declarations).1.Relaid (resolveFrom g index taken declarations').1 ∧
      (resolveFrom g index taken declarations').2.unplaced = (resolveFrom g index taken declarations).2.unplaced := by
  induction same generalizing index taken with
  | nil => exact ⟨⟨.nil, .nil⟩, rfl⟩
  | @cons d d' rest rest' first _ ih =>
    have kind : d'.kind = d.kind := (congrArg Declaration.kind first.bare :)
    rw [resolveFrom, resolveFrom, kind]
    split
    · obtain ⟨renamed, reports⟩ := resolveEntrypoint_relaid first g index
      have kept := rel_withoutErrors renamed reports
      have problems (outcome : Option ResolvedEntrypoint × Diagnostics) : (withoutErrors outcome).2 = outcome.2 := rfl
      simp only [problems]
      generalize (withoutErrors (resolveEntrypoint g index d)).1 = result at kept ⊢
      generalize (withoutErrors (resolveEntrypoint g index d')).1 = result' at kept ⊢
      cases kept with
      | none =>
        obtain ⟨others, later⟩ := ih (index + 1) taken
        exact ⟨others, by simp only [unplaced_append, reports, later]⟩
      | @some e e' same =>
        have field : e'.field = e.field := (congrArg ResolvedEntrypoint.field same :)
        simp only [field]
        split
        · obtain ⟨others, later⟩ := ih (index + 1) taken
          refine ⟨others, ?_⟩
          simp only [unplaced_append, unplaced_singleton, reports, later, unplaced_duplicateEntrypoint first]
        · obtain ⟨others, later⟩ := ih (index + 1) (e.field :: taken)
          exact ⟨⟨others.fields, .cons same others.entrypoints⟩, by simp only [unplaced_append, reports, later]⟩
    · obtain ⟨renamed, reports⟩ := resolveField_relaid first g index
      have kept := rel_withoutErrors renamed reports
      have problems (outcome : Option ResolvedField × Diagnostics) : (withoutErrors outcome).2 = outcome.2 := rfl
      obtain ⟨others, later⟩ := ih (index + 1) taken
      refine ⟨⟨?_, others.entrypoints⟩, by simp only [problems, unplaced_append, reports, later]⟩
      dsimp only
      generalize (withoutErrors (resolveField g index d)).1 = result at kept ⊢
      generalize (withoutErrors (resolveField g index d')).1 = result' at kept ⊢
      cases kept with
      | none => exact others.fields
      | some same => exact .cons same others.fields

end IsoLiteral
