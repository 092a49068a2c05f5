import IsoLiteral.Proofs.Declaration.Layout
import IsoLiteral.Proofs.Schema.Reordered
import IsoLiteral.Schema.OfDocument

/-!
# Graphs of literals that are laid out otherwise

Declarations that differ in places only add the same fields to a graph, and where one of them cannot be added
the same is reported.
-/

namespace IsoLiteral

open Diagnostics

/-- Two attempts that differ in what is erased from their errors both fail, or both give the same. -/
theorem outcomes_of_mapError {ε α : Type} {erase : ε → ε} {x x' : Except ε α}
    (same : x'.mapError erase = x.mapError erase) :
    (∃ e e', x = .error e ∧ x' = .error e' ∧ erase e' = erase e) ∨ ∃ a, x = .ok a ∧ x' = .ok a := by
  cases x with
  | error e =>
    cases x' with
    | error e' => exact .inl ⟨e, e', rfl, rfl, Except.error.inj same⟩
    | ok a' => cases same
  | ok a =>
    cases x' with
    | error e' => cases same
    | ok a' => exact .inr ⟨a, rfl, congrArg Except.ok (Except.ok.inj same)⟩

/-- The declaration without the places in it. It keeps its literal. -/
def Declaration.unplaced (d : Declaration) : Declaration := { d.bare with source := d.source }

theorem Declaration.Relaid.unplaced {d d' : Declaration} (same : d.Relaid d') : d'.unplaced = d.unplaced := by
  rw [Declaration.unplaced, Declaration.unplaced, same.bare, same.source]

namespace SchemaBuilder

variable {b b' : SchemaBuilder} {d d' : Declaration}

/-- The graph under construction without the ranges that its diagnostics are about. -/
def unplaced (b : SchemaBuilder) : SchemaBuilder := { b with diagnostics := b.diagnostics.unplaced }

/-! ## What a declaration adds -/

theorem declaredKind_unplaced (b : SchemaBuilder) (d : Declaration) :
    (b.declaredKind d.unplaced).mapError Diagnostic.unplaced = (b.declaredKind d).mapError Diagnostic.unplaced := by
  have resolver : d.unplaced.artifactKind = d.artifactKind := artifactKind_bare d
  have kind : d.unplaced.kind = d.kind := rfl
  have target : d.unplaced.target = d.target.map fun ref => .plain ref.annotation := rfl
  rw [declaredKind, declaredKind, resolver, kind, target]
  cases d.kind with
  | entrypoint => rfl
  | field => rfl
  | pointer =>
    cases d.target with
    | none => rfl
    | some ref =>
      dsimp only [Option.map_some, TypeRef.plain]
      split
      · split <;> rfl
      · rfl

theorem declaredField_unplaced (b : SchemaBuilder) (d : Declaration) (index : Nat) :
    (b.declaredField index d.unplaced).mapError Diagnostic.unplaced =
      (b.declaredField index d).mapError Diagnostic.unplaced := by
  have arguments : d.unplaced.variableDefinitions.map argumentOfVariable =
      d.variableDefinitions.map argumentOfVariable := map_argumentOfVariable_bare d
  have parent : d.unplaced.parentType.text = d.parentType.text := rfl
  rw [declaredField, declaredField, arguments, parent]
  split
  · rfl
  · split
    · rcases outcomes_of_mapError (b.declaredKind_unplaced d) with ⟨e, e', run, run', same⟩ | ⟨kind, run, run'⟩
      · rw [run, run']
        exact congrArg Except.error same
      · rw [run, run']
        rfl
    · rfl

/-! ## One declaration, then all of them -/

theorem unplaced_report {e e' : Diagnostic} (start : b'.unplaced = b.unplaced) (same : e'.unplaced = e.unplaced) :
    (b'.report e').unplaced = (b.report e).unplaced := by
  have reports : b'.diagnostics.unplaced ++ [e'.unplaced] = b.diagnostics.unplaced ++ [e.unplaced] := by
    rw [same]
    exact congrArg (· ++ [e.unplaced]) (congrArg diagnostics start)
  simp only [unplaced, report, Diagnostics.unplaced, List.map_append, List.map_cons, List.map_nil] at start reports ⊢
  rw [reports]
  simp only [SchemaBuilder.mk.injEq] at start
  rw [start.1, start.2.1]

theorem unplaced_addField? (start : b'.unplaced = b.unplaced) (field : PendingField) :
    (b'.addField? field).map unplaced = (b.addField? field).map unplaced := by
  have erased (b : SchemaBuilder) : (b.addField? field).map unplaced = b.unplaced.addField? field := by
    simp only [addField?]
    rw [apply_ite (Option.map unplaced)]
    rfl
  rw [erased, erased, start]

theorem unplaced_addDeclaredField (start : b'.unplaced = b.unplaced) (same : d.Relaid d') (index : Nat) :
    (b'.addDeclaredField d' index).unplaced = (b.addDeclaredField d index).unplaced := by
  have kind : d'.kind = d.kind := (congrArg Declaration.kind same.bare :)
  have name : d'.qualifiedName = d.qualifiedName := (congrArg Declaration.qualifiedName same.bare :)
  -- A graph under construction answers from its types, which stay.
  have here : b'.declaredField index d' = b.declaredField index d' :=
    (congrArg (fun b : SchemaBuilder => b.declaredField index d') start :)
  have fields : (b'.declaredField index d').mapError Diagnostic.unplaced =
      (b.declaredField index d).mapError Diagnostic.unplaced := by
    rw [here, ← declaredField_unplaced, same.unplaced, declaredField_unplaced]
  rw [addDeclaredField, addDeclaredField, kind]
  split
  · exact start
  · rcases outcomes_of_mapError fields with ⟨e, e', run, run', reported⟩ | ⟨field, run, run'⟩
    · rw [run, run']
      exact unplaced_report start reported
    · have taken : ((Diagnostic.located d'.source .duplicateField d'.fieldName.range).withDetail
          d'.qualifiedName).unplaced =
          ((Diagnostic.located d.source .duplicateField d.fieldName.range).withDetail d.qualifiedName).unplaced := by
        rw [same.source, name]
        rfl
      rw [run, run']
      dsimp only
      rw [← Option.getD_map unplaced, ← Option.getD_map unplaced, unplaced_addField? start,
        unplaced_report start taken]

theorem unplaced_addDeclaredFields {declarations declarations' : List Declaration}
    (same : List.Forall₂ Declaration.Relaid declarations declarations') (start : b'.unplaced = b.unplaced)
    (index : Nat) :
    (b'.addDeclaredFields index declarations').unplaced = (b.addDeclaredFields index declarations).unplaced := by
  induction same generalizing b b' index with
  | nil => exact start
  | cons first _ ih => exact ih (unplaced_addDeclaredField start first index) (index + 1)

end SchemaBuilder

/-- Declarations that differ in places only give the same graph, or the same is wrong with them. -/
theorem SchemaGraph.ofDocument_relaid {declarations declarations' : List Declaration}
    (same : List.Forall₂ Declaration.Relaid declarations declarations') (options : SchemaOptions)
    (document : SchemaDocument) :
    (ofDocument options document declarations').mapError Diagnostics.unplaced =
      (ofDocument options document declarations).mapError Diagnostics.unplaced := by
  simp only [ofDocument]
  generalize (SchemaBuilder.ofTypes document).rootTypes document = roots
  obtain ⟨roots, problems⟩ := roots
  generalize ((SchemaBuilder.ofTypes document).reportAll problems).addTypeFields options document = start
  have built := SchemaBuilder.unplaced_addDeclaredFields same (rfl : start.unplaced = start.unplaced) 0
  generalize start.addDeclaredFields 0 declarations' = after' at built ⊢
  generalize start.addDeclaredFields 0 declarations = after at built ⊢
  have reports : after'.diagnostics.unplaced = after.diagnostics.unplaced :=
    congrArg SchemaBuilder.diagnostics built
  have table : after'.toTypeTable = after.toTypeTable := (congrArg SchemaBuilder.toTypeTable built :)
  have fields : after'.fields = after.fields := (congrArg SchemaBuilder.fields built :)
  have errors := hasErrors_eq_of_unplaced reports
  cases roots with
  | none => exact congrArg Except.error reports
  | some pair =>
    obtain ⟨queryType, mutationType⟩ := pair
    dsimp only
    rw [errors, table, fields]
    split
    · exact congrArg Except.error reports
    · rfl

end IsoLiteral
