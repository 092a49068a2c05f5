import IsoLiteral.Proofs.Schema.Registry
import IsoLiteral.Proofs.Resolution.Findings

/-!
# The form of resolved selections

A resolved selection is tied to the graph: its field is the one that its type lists under its name, it
has the form of that field's kind, and what it selects further is on the type it leads to. A resolved
field is on the type that lists it. Everything that resolving yields is of this form.
-/

namespace IsoLiteral

/-- A selection on a type, of the form that the kind of its field asks for. -/
inductive SelectedOn (g : SchemaGraph) : TypeId → ResolvedSelection → Prop where
  | scalar {parent head updatable} (found : g.lookupField? parent head.fieldName = some head.field)
      (kind : (g.field head.field).kind = .scalar) : SelectedOn g parent (.scalar head updatable)
  | linked {parent head target inlineFragment updatable nested}
      (found : g.lookupField? parent head.fieldName = some head.field)
      (kind : (g.field head.field).kind = .linked target inlineFragment)
      (inside : ∀ s ∈ nested, SelectedOn g target s) :
      SelectedOn g parent (.linked head target inlineFragment updatable nested)
  | resolver {parent head artifact loadable}
      (found : g.lookupField? parent head.fieldName = some head.field)
      (kind : (g.field head.field).kind = .resolver artifact) :
      SelectedOn g parent (.resolver head artifact loadable)
  | pointer {parent head target nested}
      (found : g.lookupField? parent head.fieldName = some head.field)
      (kind : (g.field head.field).kind = .pointer target)
      (inside : ∀ s ∈ nested, SelectedOn g target s) :
      SelectedOn g parent (.pointer head target nested)
  | link {parent head} (found : g.lookupField? parent head.fieldName = some head.field)
      (kind : (g.field head.field).kind = .link) : SelectedOn g parent (.link head)

theorem SelectedOn.found {g : SchemaGraph} {parent : TypeId} {s : ResolvedSelection}
    (h : SelectedOn g parent s) : g.lookupField? parent s.head.fieldName = some s.head.field := by
  cases h <;> assumption

namespace SelectionScope

theorem selectedOn_nestedFindings (c : SelectionScope) {parent target : TypeId} (field : FieldId)
    (name : Name) (hasBraces : Bool) {form : List ResolvedSelection → ResolvedSelection}
    {findings : Option Findings}
    (fits : ∀ nested, (∀ s ∈ nested, SelectedOn c.schema target s) →
      SelectedOn c.schema parent (form nested))
    (inside : ∀ found, findings = some found → ∀ s ∈ found.selections, SelectedOn c.schema target s) :
    ∀ s ∈ (c.nestedFindings field name hasBraces form findings).selections,
      SelectedOn c.schema parent s := by
  cases findings with
  | none => simp [nestedFindings]
  | some found =>
    intro s member
    rw [show s = form found.selections by simpa [nestedFindings] using member]
    exact fits _ (inside found rfl)

mutual
theorem selectedOn_resolveSelection (c : SelectionScope) (parent : TypeId) (selection : Selection) :
    ∀ s ∈ (c.resolveSelection parent selection).selections, SelectedOn c.schema parent s := by
  obtain ⟨label, name, arguments, directives, selectionSet, range⟩ := selection
  rw [resolveSelection]
  split
  · simp
  · rename_i id found
    simp only [Findings.selections_append, List.nil_append]
    split
    · rename_i kind
      simp only [List.mem_singleton, forall_eq]
      exact .scalar found kind
    · rename_i kind
      simp only [List.mem_singleton, forall_eq]
      exact .link found kind
    · rename_i kind
      simp only [List.mem_singleton, forall_eq]
      exact .resolver found kind
    · rename_i kind
      exact c.selectedOn_nestedFindings id name _ (fun _ => .linked found kind)
        (c.selectedOn_resolveSelectionSet? _ selectionSet)
    · rename_i kind
      simp only [Findings.selections_append, List.nil_append]
      exact c.selectedOn_nestedFindings id name _ (fun _ => .pointer found kind)
        (c.selectedOn_resolveSelectionSet? _ selectionSet)
theorem selectedOn_resolveSelectionSet? (c : SelectionScope) (parent : TypeId)
    (set : Option (List Selection)) (findings : Findings)
    (found : c.resolveSelectionSet? parent set = some findings) :
    ∀ s ∈ findings.selections, SelectedOn c.schema parent s := by
  cases set with
  | none => simp [resolveSelectionSet?] at found
  | some selections =>
    rw [resolveSelectionSet?] at found
    have inside := c.selectedOn_resolveSelections parent selections
    split at found
    · cases found
    · obtain rfl := Option.some.inj found
      exact inside
theorem selectedOn_resolveSelections (c : SelectionScope) (parent : TypeId)
    (selections : List Selection) :
    ∀ s ∈ (c.resolveSelections parent selections).selections, SelectedOn c.schema parent s := by
  cases selections with
  | nil => simp [resolveSelections, Findings.empty]
  | cons selection rest =>
    have first := c.selectedOn_resolveSelection parent selection
    have others := c.selectedOn_resolveSelections parent rest
    intro s member
    rw [resolveSelections, Findings.selections_append] at member
    exact (List.mem_append.1 member).elim (first s) (others s)
end

end SelectionScope

/-! ## Resolved fields -/

/-- A resolved field of the form that its kind asks for, whose selections are on the type that lists it. -/
structure ResolvedOn (g : SchemaGraph) (f : ResolvedField) : Prop where
  parent : f.parent = (g.field f.field).parent
  form : declaredForm? (g.field f.field).kind = some (f.artifactKind, f.pointerTarget)
  selections : ∀ s ∈ f.selections, SelectedOn g f.parent s

theorem resolvedOn_resolveField (g : SchemaGraph) (index : Nat) (d : Declaration) :
    ∀ f, (resolveField g index d).1 = some f → ResolvedOn g f := by
  intro f found
  rw [resolveField_eq] at found
  split at found
  · cases found
  · dsimp only at found
    split at found
    · split at found
      · cases found
      · rename_i form
        obtain rfl := Option.some.inj found
        exact ⟨rfl, form, SelectionScope.selectedOn_resolveSelections _ _ _⟩
    · cases found

theorem resolvedOn_resolveFrom (g : SchemaGraph) (declarations : List Declaration) :
    ∀ index taken, ∀ f ∈ (resolveFrom g index taken declarations).1.fields, ResolvedOn g f := by
  induction declarations with
  | nil => simp [resolveFrom]
  | cons d rest ih =>
    intro index taken f member
    rw [resolveFrom] at member
    split at member
    · dsimp only at member
      split at member
      · exact ih _ _ f member
      · split at member
        · exact ih _ _ f member
        · exact ih _ _ f member
    · rcases List.mem_append.1 member with first | later
      · refine resolvedOn_resolveField g index d f ?_
        simp only [withoutErrors, Option.mem_toList] at first
        split at first
        · cases first
        · exact first
      · exact ih _ _ f later

/-- Every field of a resolution is of this form. -/
theorem resolvedOn_ofDeclarations (g : SchemaGraph) (declarations : List Declaration) {id : FieldId}
    {f : ResolvedField} (found : (Resolution.ofDeclarations g declarations).1.field? id = some f) :
    ResolvedOn g f ∧ f.field = id := by
  have member := List.mem_of_find?_eq_some found
  exact ⟨resolvedOn_resolveFrom g declarations 0 [] f member, by simpa using List.find?_some found⟩

end IsoLiteral
