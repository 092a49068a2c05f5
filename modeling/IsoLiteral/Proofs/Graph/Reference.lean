import IsoLiteral.Operation.Reference
import IsoLiteral.Proofs.Graph.Cycle

/-!
# References and their cycles

A resolved field refers to another if a selection of the first, at any depth, runs the reader of the
second. The check for cycles looks at exactly these references: it passes if no field refers to itself
through any number of steps, and otherwise reports one closed walk for every class of fields that
refer to each other, placed at a selection that makes its first step.
-/

namespace IsoLiteral

open Relation IsoLiteral.Cycle

/-! ## Selections that refer -/

/-- A selection is among others or inside one of them. -/
inductive Occurs (s : ResolvedSelection) : List ResolvedSelection → Prop where
  | here {selections} (member : s ∈ selections) : Occurs s selections
  | linked {selections head target inlineFragment updatable nested}
      (member : .linked head target inlineFragment updatable nested ∈ selections)
      (inside : Occurs s nested) : Occurs s selections
  | pointer {selections head target nested} (member : .pointer head target nested ∈ selections)
      (inside : Occurs s nested) : Occurs s selections

theorem Occurs.mono {s : ResolvedSelection} {selections more : List ResolvedSelection}
    (h : Occurs s selections) (grows : ∀ t ∈ selections, t ∈ more) : Occurs s more := by
  cases h with
  | here member => exact .here (grows _ member)
  | linked member inside => exact .linked (grows _ member) inside
  | pointer member inside => exact .pointer (grows _ member) inside

theorem Occurs.inside_linked {s : ResolvedSelection} {selections nested : List ResolvedSelection}
    {head : SelectionHead} {target : TypeId} {inlineFragment updatable : Bool}
    (outer : Occurs (.linked head target inlineFragment updatable nested) selections)
    (inner : s ∈ nested) : Occurs s selections := by
  induction outer with
  | here member => exact .linked member (.here inner)
  | linked member _ ih => exact .linked member ih
  | pointer member _ ih => exact .pointer member ih

theorem Occurs.inside_pointer {s : ResolvedSelection} {selections nested : List ResolvedSelection}
    {head : SelectionHead} {target : TypeId} (outer : Occurs (.pointer head target nested) selections)
    (inner : s ∈ nested) : Occurs s selections := by
  induction outer with
  | here member => exact .pointer member (.here inner)
  | linked member _ ih => exact .linked member ih
  | pointer member _ ih => exact .pointer member ih

/-- Whether reading a selection runs the reader of its field. -/
def ResolvedSelection.isReference : ResolvedSelection → Bool
  | .resolver _ _ loadable => loadable.isNone
  | .pointer _ _ _ => true
  | _ => false

theorem referencesOfAll_eq_flatMap (selections : List ResolvedSelection) :
    referencesOfAll selections = selections.flatMap referencesOf := by
  induction selections with
  | nil => rw [referencesOfAll, List.flatMap_nil]
  | cons s rest ih => rw [referencesOfAll, List.flatMap_cons, ih]

mutual
theorem occurs_of_mem_referencesOf (s : ResolvedSelection) {g : FieldId} {span : Span}
    (member : (g, span) ∈ referencesOf s) :
    ∃ t, Occurs t [s] ∧ t.isReference = true ∧ t.head.field = g ∧ t.head.span = span := by
  cases s with
  | scalar head updatable => simp [referencesOf] at member
  | link head => simp [referencesOf] at member
  | resolver head kind loadable =>
    cases loadable with
    | some options => simp [referencesOf] at member
    | none =>
      obtain ⟨rfl, rfl⟩ : g = head.field ∧ span = head.span := by simpa [referencesOf] using member
      exact ⟨.resolver head kind none, .here (by simp), rfl, rfl, rfl⟩
  | linked head target inlineFragment updatable nested =>
    obtain ⟨t, inside, refers⟩ := occurs_of_mem_referencesOfAll nested
      (by rwa [referencesOf] at member)
    exact ⟨t, .linked (List.mem_singleton_self _) inside, refers⟩
  | pointer head target nested =>
    rw [referencesOf] at member
    rcases List.mem_cons.1 member with same | inner
    · obtain ⟨rfl, rfl⟩ := Prod.mk.inj same
      exact ⟨.pointer head target nested, .here (by simp), rfl, rfl, rfl⟩
    · obtain ⟨t, inside, refers⟩ := occurs_of_mem_referencesOfAll nested inner
      exact ⟨t, .pointer (List.mem_singleton_self _) inside, refers⟩
theorem occurs_of_mem_referencesOfAll (selections : List ResolvedSelection) {g : FieldId}
    {span : Span} (member : (g, span) ∈ referencesOfAll selections) :
    ∃ t, Occurs t selections ∧ t.isReference = true ∧ t.head.field = g ∧ t.head.span = span := by
  cases selections with
  | nil => simp [referencesOfAll] at member
  | cons s rest =>
    rw [referencesOfAll] at member
    rcases List.mem_append.1 member with first | later
    · obtain ⟨t, occurs, refers⟩ := occurs_of_mem_referencesOf s first
      exact ⟨t, occurs.mono (by simp), refers⟩
    · obtain ⟨t, occurs, refers⟩ := occurs_of_mem_referencesOfAll rest later
      exact ⟨t, occurs.mono (by simp +contextual), refers⟩
end

/-- The references of selections are those of the referring selections among and inside them. -/
theorem mem_referencesOfAll_iff {selections : List ResolvedSelection} {g : FieldId} {span : Span} :
    (g, span) ∈ referencesOfAll selections ↔
      ∃ s, Occurs s selections ∧ s.isReference = true ∧ s.head.field = g ∧ s.head.span = span := by
  refine ⟨occurs_of_mem_referencesOfAll selections, ?_⟩
  rintro ⟨s, occurs, refers, rfl, rfl⟩
  induction occurs with
  | here member =>
    rw [referencesOfAll_eq_flatMap]
    refine List.mem_flatMap.2 ⟨s, member, ?_⟩
    match s, refers with
    | .resolver head kind none, _ => simp [referencesOf, ResolvedSelection.head]
    | .pointer head target nested, _ => simp [referencesOf, ResolvedSelection.head]
  | linked member _ ih =>
    rw [referencesOfAll_eq_flatMap]
    exact List.mem_flatMap.2 ⟨_, member, by rwa [referencesOf]⟩
  | pointer member _ ih =>
    rw [referencesOfAll_eq_flatMap]
    exact List.mem_flatMap.2 ⟨_, member, by rw [referencesOf]; exact List.mem_cons_of_mem _ ih⟩

/-! ## References between fields -/

/-- A selection of one field, at any depth, whose reading runs the reader of another. -/
def Selects (r : Resolution) (f g : FieldId) (s : ResolvedSelection) : Prop :=
  ∃ field, r.field? f = some field ∧ Occurs s field.selections ∧ s.isReference = true ∧
    s.head.field = g

/-- One resolved field selects another so that reading the first reads the second. -/
def Refers (r : Resolution) (f g : FieldId) : Prop := (r.field? g).isSome ∧ ∃ s, Selects r f g s

theorem lookup_map_field {β : Type} (value : ResolvedField → β) (f : FieldId)
    (fields : List ResolvedField) :
    (fields.map fun field => (field.field, value field)).lookup f =
      (fields.find? (·.field = f)).map value := by
  induction fields with
  | nil => rfl
  | cons field rest ih =>
    rw [List.map_cons, List.lookup_cons, List.find?_cons]
    by_cases same : field.field = f
    · simp [same]
    · have apart : (f == field.field) = false := by simpa using fun h => same h.symm
      simpa [apart, same] using ih

theorem lookup_references (r : Resolution) (f : FieldId) :
    r.references.edges.lookup f = (r.field? f).map fun field =>
      (referencesOfAll field.selections).filter fun (id, _) => (r.field? id).isSome :=
  lookup_map_field _ f r.fields

/-- What the graph of references lists for a field. -/
theorem mem_referencesFrom_iff {r : Resolution} {f g : FieldId} {span : Span} :
    (g, span) ∈ r.references.referencesFrom f ↔
      (r.field? g).isSome ∧ ∃ s, Selects r f g s ∧ s.head.span = span := by
  rw [ReferenceGraph.referencesFrom, lookup_references]
  cases found : r.field? f with
  | none => simp [Selects, found]
  | some field =>
    rw [Option.map_some, Option.getD_some, List.mem_filter, mem_referencesOfAll_iff, and_comm]
    refine and_congr_right fun _ => exists_congr fun s => ?_
    simp only [Selects, found, Option.some.injEq, exists_eq_left']
    tauto

theorem edge_references (r : Resolution) : Edge r.references.successors = Refers r := by
  funext f g
  simp only [Edge, ReferenceGraph.successors, List.mem_map, Prod.exists, exists_and_right,
    exists_eq_right, mem_referencesFrom_iff, Refers, exists_and_left]
  refine propext (and_congr_right fun _ => ⟨?_, ?_⟩)
  · rintro ⟨_, s, selects, -⟩
    exact ⟨s, selects⟩
  · rintro ⟨s, selects⟩
    exact ⟨s.head.span, s, selects, rfl⟩

/-- One resolved field refers to another if that is among its references. -/
theorem refers_iff_mem_references {r : Resolution} {f g : FieldId} :
    Refers r f g ↔ (r.field? g).isSome ∧
      ∃ field, r.field? f = some field ∧ g ∈ (referencesOfAll field.selections).map Prod.fst := by
  simp only [Refers, Selects, List.mem_map, Prod.exists, exists_and_right, exists_eq_right,
    mem_referencesOfAll_iff]
  refine and_congr_right fun _ => ⟨?_, ?_⟩
  · rintro ⟨s, field, found, occurs, refers, own⟩
    exact ⟨field, found, s.head.span, s, occurs, refers, own, rfl⟩
  · rintro ⟨field, found, _, s, occurs, refers, own, -⟩
    exact ⟨s, field, found, occurs, refers, own⟩

theorem mem_fields_iff {r : Resolution} {f : FieldId} :
    f ∈ r.references.fields ↔ (r.field? f).isSome := by
  simp [ReferenceGraph.fields, Resolution.references, Resolution.field?, List.find?_isSome]

@[simp] theorem length_fields_references (r : Resolution) : r.references.fields.length = r.fields.length := by
  simp [ReferenceGraph.fields, Resolution.references]

/-- What is read with a field is looked for as deep as there are fields. -/
theorem readerClosure_references (r : Resolution) (x : FieldId) :
    r.references.readerClosure x = Traversal.preorder r.references.successors r.fields.length x := by
  rw [ReferenceGraph.readerClosure, ← List.length_map Prod.fst, ← ReferenceGraph.fields, length_fields_references]

/-- There are no more different resolved fields than resolved declarations of them. -/
theorem length_le_of_resolved {r : Resolution} {ids : List FieldId} (distinct : ids.Nodup)
    (resolved : ∀ f ∈ ids, (r.field? f).isSome) : ids.length ≤ r.fields.length := by
  have subset : ids ⊆ r.references.fields := fun f member => mem_fields_iff.2 (resolved f member)
  rw [← length_fields_references]
  exact (List.subperm_of_subset distinct subset).length_le

/-- Every reference leads to a field of the graph. -/
theorem closed_references (r : Resolution) :
    ∀ f ∈ r.references.fields, ∀ g ∈ r.references.successors f, g ∈ r.references.fields := by
  intro f _ g step
  have refers : Refers r f g := edge_references r ▸ step
  exact mem_fields_iff.2 refers.1

theorem Refers.mem_fields {r : Resolution} {f g : FieldId} (h : Refers r f g) :
    f ∈ r.references.fields := by
  obtain ⟨-, s, field, found, -⟩ := h
  exact mem_fields_iff.2 (by rw [found]; rfl)

/-! ## The check for cycles -/

/-- The cycles of the graph of references: each is a closed walk, no two of them are in one component,
and every field that refers to itself is in the component of one. -/
theorem cycles_spec (r : Resolution) :
    (∀ cycle ∈ r.references.cycles, IsCycle (Refers r) cycle) ∧
    r.references.cycles.Pairwise (fun c d => ∀ f ∈ c, ∀ g ∈ d, ¬ OnCycle (Refers r) f g) ∧
    ∀ f, TransGen (Refers r) f f →
      ∃ cycle ∈ r.references.cycles, ∀ g ∈ cycle, OnCycle (Refers r) f g := by
  obtain ⟨isCycle, apart, every⟩ := Cycle.cycles_spec (closed_references r)
  rw [edge_references] at isCycle apart every
  refine ⟨isCycle, apart, fun f around => ?_⟩
  obtain ⟨_, first, -⟩ := TransGen.head'_iff.1 around
  exact every f first.mem_fields around

/-- The check passes exactly when no field refers to itself. -/
theorem checkCycles_eq_ok_iff (schema : SchemaGraph) (r : Resolution) :
    checkCycles schema r = .ok () ↔ ∀ f, ¬ TransGen (Refers r) f f := by
  obtain ⟨isCycle, -, every⟩ := cycles_spec r
  rw [checkCycles]
  cases found : r.references.cycles with
  | nil =>
    refine ⟨fun _ f around => ?_, fun _ => rfl⟩
    obtain ⟨c, member, -⟩ := every f around
    simp [found] at member
  | cons c rest =>
    refine ⟨fun passed => by simp at passed, fun none => ?_⟩
    have closed := isCycle c (by simp [found])
    obtain ⟨f, others, rfl⟩ := List.exists_cons_of_ne_nil closed.nonempty
    exact absurd (closed.onCycle f (by simp)).1 (none f)

theorem checkCycles_of_isOk {g : SchemaGraph} {r : Resolution} (possible : (checkCycles g r).isOk = true) :
    checkCycles g r = .ok () := by
  cases outcome : checkCycles g r with
  | ok _ => rfl
  | error e =>
    rw [outcome] at possible
    cases possible

/-- What the diagnostic for a cycle says: the walk, at a selection that makes its first step. -/
structure Reports (schema : SchemaGraph) (r : Resolution) (cycle : List FieldId) (d : Diagnostic) :
    Prop where
  kind : d.kind = .cyclicSelection
  message : d.message = "cyclic selection: " ++ Text.joinWith " -> " (cyclePath schema cycle)
  place : ∃ f g s, (cycle ++ cycle.take 1).take 2 = [f, g] ∧ Selects r f g s ∧
    d.span = some s.head.span

theorem exists_lookup_of_mem {α β : Type} [DecidableEq α] {a : α} {b : β} {pairs : List (α × β)}
    (member : (a, b) ∈ pairs) : ∃ b', pairs.lookup a = some b' ∧ (a, b') ∈ pairs := by
  induction pairs with
  | nil => cases member
  | cons pair rest ih =>
    obtain ⟨a', b'⟩ := pair
    rw [List.lookup_cons]
    by_cases same : a = a'
    · exact ⟨b', by simp [same], by simp [same]⟩
    · have different : (a == a') = false := by simpa using same
      obtain ⟨b'', found, inside⟩ := ih (by simpa [same] using member)
      exact ⟨b'', by rw [different]; exact found, List.mem_cons_of_mem _ inside⟩

theorem reports_cycleDiagnostic (schema : SchemaGraph) {r : Resolution} {cycle : List FieldId}
    (closed : IsCycle (Refers r) cycle) :
    Reports schema r cycle (cycleDiagnostic schema r.references cycle) := by
  obtain ⟨f, g, two, step⟩ : ∃ f g, (cycle ++ cycle.take 1).take 2 = [f, g] ∧
      r.references.firstStep? cycle = (r.references.referencesFrom f).lookup g := by
    match cycle, closed.nonempty with
    | [f], _ => exact ⟨f, f, rfl, rfl⟩
    | f :: g :: rest, _ => exact ⟨f, g, rfl, rfl⟩
  have refers : Refers r f g := by
    have walk := closed.closed.take 2
    rwa [two, List.isChain_pair] at walk
  rw [← edge_references] at refers
  obtain ⟨⟨g', span⟩, listed, rfl⟩ := List.mem_map.1 refers
  obtain ⟨span', found, listed'⟩ := exists_lookup_of_mem listed
  obtain ⟨-, s, selects, rfl⟩ := mem_referencesFrom_iff.1 listed'
  refine ⟨rfl, ?_, f, g', s, two, selects, step.trans found⟩
  simp [cycleDiagnostic, Diagnostic.withDetail, Diagnostic.ofKind, DiagnosticKind.message,
    DiagnosticKind.template]

/-- **Cycle detection is exact.** The check passes exactly when no field refers to itself. Otherwise
there are closed walks of distinct fields, one for every component with a cycle and inside it; the
first is the path of the error, and there is one diagnostic for each. Whatever the graph is asked for
on the way, the references of the root of a component, of a field of it or of a field referred to, is in the
graph. -/
theorem checkCycles_exact (schema : SchemaGraph) (r : Resolution) :
    (checkCycles schema r = .ok () ↔ ∀ f, ¬ TransGen (Refers r) f f) ∧
    (∀ e, checkCycles schema r = .error e → ∃ first rest,
      e.path = ((first ++ first.take 1).map schema.qualifiedName) ∧
      (∀ cycle ∈ first :: rest, IsCycle (Refers r) cycle ∧
        ∀ f ∈ cycle, ∀ g ∈ cycle, OnCycle (Refers r) f g) ∧
      (first :: rest).Pairwise (fun c d => ∀ f ∈ c, ∀ g ∈ d, ¬ OnCycle (Refers r) f g) ∧
      (∀ f, TransGen (Refers r) f f → ∃ cycle ∈ first :: rest, ∀ g ∈ cycle, OnCycle (Refers r) f g) ∧
      List.Forall₂ (Reports schema r) (first :: rest) e.diagnostics) ∧
    (∀ c ∈ ComponentSearch.allComponents r.references.successors r.references.fields,
      ∃ root others, c = root :: others ∧ (r.references.edges.lookup root).isSome) ∧
    ∀ f, (r.field? f).isSome → (r.references.edges.lookup f).isSome ∧
      ∀ g, Refers r f g → (r.references.edges.lookup g).isSome ∧
        ((r.references.referencesFrom f).lookup g).isSome := by
  have listed {f : FieldId} (resolved : (r.field? f).isSome) : (r.references.edges.lookup f).isSome := by
    simpa [lookup_references] using resolved
  obtain ⟨isCycle, apart, every⟩ := cycles_spec r
  refine ⟨checkCycles_eq_ok_iff schema r, ?_, ?_, ?_⟩
  · intro e failed
    rw [checkCycles] at failed
    cases found : r.references.cycles with
    | nil => simp [found] at failed
    | cons first rest =>
      rw [found] at isCycle apart every
      obtain rfl : _ = e := by simpa [found] using failed
      refine ⟨first, rest, rfl, fun cycle member => ⟨isCycle cycle member, ?_⟩, apart, every, ?_⟩
      · obtain ⟨u, others, rfl⟩ := List.exists_cons_of_ne_nil (isCycle cycle member).nonempty
        have onCycle := (isCycle _ member).onCycle
        exact fun f inside g inside' => (onCycle f inside).symm.trans (onCycle g inside')
      · refine List.forall₂_map_right_iff.2 (List.forall₂_same.2 fun cycle member => ?_)
        exact reports_cycleDiagnostic schema (isCycle cycle member)
  · intro c member
    obtain ⟨complete, every⟩ := ComponentSearch.complete_allComponents (closed_references r)
    obtain ⟨root, others, rfl⟩ := List.exists_cons_of_ne_nil (complete.nonempty c member)
    have inside := (every root).1 (List.mem_flatten.2 ⟨_, member, List.mem_cons_self⟩)
    exact ⟨root, others, rfl, listed (mem_fields_iff.1 inside)⟩
  · intro f resolved
    refine ⟨listed resolved, fun g refers => ?_⟩
    have step := refers
    rw [← edge_references] at step
    obtain ⟨⟨_, span⟩, isStep, rfl⟩ := List.mem_map.1 step
    obtain ⟨_, found, -⟩ := exists_lookup_of_mem isStep
    exact ⟨listed refers.1, by rw [found]; rfl⟩

/-- Field 0 selects field 1, and field 1 selects field 0 inside a link and field 2, which selects
itself. -/
def ring : Resolution :=
  let place (id : Nat) : SelectionHead := ⟨"", "", ⟨id⟩, [], "", ⟨0, ⟨id, id⟩⟩⟩
  let field (id : Nat) (selections : List ResolvedSelection) : ResolvedField :=
    ⟨⟨id⟩, id, 0, ⟨0⟩, .eager, none, [], selections⟩
  ⟨[field 0 [.resolver (place 1) .eager none],
    field 1 [.linked (place 7) ⟨0⟩ false false [.pointer (place 0) ⟨0⟩ [.scalar (place 8) false]],
      .resolver (place 2) .eager none],
    field 2 [.resolver (place 2) .eager none]], []⟩

theorem checkCycles_ring :
    ∃ e, checkCycles default ring = .error e ∧ e.diagnostics.length = 2 ∧
      (∃ first rest, e.path = ((first ++ first.take 1).map (default : SchemaGraph).qualifiedName) ∧
        List.Forall₂ (Reports default ring) (first :: rest) e.diagnostics) ∧
      (ring.field? ⟨2⟩).isSome ∧ Refers ring ⟨2⟩ ⟨2⟩ ∧
      ((ring.references.referencesFrom ⟨2⟩).lookup ⟨2⟩).isSome := by
  have refers : Refers ring ⟨2⟩ ⟨2⟩ := ⟨rfl, _, _, rfl, .here (List.mem_singleton_self _), rfl, rfl⟩
  obtain ⟨-, failed, -, closed⟩ := checkCycles_exact default ring
  obtain ⟨first, rest, path, -, -, -, reports⟩ := failed _ rfl
  exact ⟨_, rfl, rfl, ⟨first, rest, path, reports⟩, rfl, refers, ((closed ⟨2⟩ rfl).2 _ refers).2⟩

end IsoLiteral
