import IsoLiteral.Proofs.Artifact.StorePath
import IsoLiteral.Proofs.StoreKey.Fields

/-!
# Which selections are written by one node

Selections of one type share a store key exactly if they select one field with arguments of the same words,
or if one of them has no arguments and its field is named like the key of the other. Where no field has such
a name, everything that merging brings together in one node of a normalization tree, at any depth, selects
the field that the node writes.
-/

namespace IsoLiteral

namespace SchemaGraph

/-- A selection that some literal resolves on a type. -/
def Resolves (g : SchemaGraph) (type : TypeId) (s : ResolvedSelection) : Prop :=
  ∃ (c : SelectionScope) (written : Selection), c.schema = g ∧
    s ∈ (c.resolveSelection type written).selections

/-- No field has four underscores in a row in its name. -/
def PlainNames (g : SchemaGraph) : Prop := ∀ f ∈ g.fields, PlainName f.name

instance (g : SchemaGraph) : Decidable g.PlainNames :=
  inferInstanceAs (Decidable (∀ f ∈ g.fields, PlainName f.name))

end SchemaGraph

/-- The field of a selection is named like the key of another selection. -/
def SelectionHead.NamedLike (head other : SelectionHead) : Prop :=
  NamedLikeKey head.fieldName head.arguments other.fieldName other.arguments

/-! ## Selections of one type -/

section Resolved

variable {options : SchemaOptions} {document : SchemaDocument} {declarations : List Declaration}
  {g : SchemaGraph} {type : TypeId} {s t : ResolvedSelection}

namespace SelectionScope

theorem exists_of_mem_nestedFindings {c : SelectionScope} {field : FieldId} {name : Name} {braces : Bool}
    {form : List ResolvedSelection → ResolvedSelection} {findings : Option Findings}
    (member : s ∈ (c.nestedFindings field name braces form findings).selections) :
    ∃ found, findings = some found ∧ s = form found.selections := by
  cases findings with
  | none => cases member
  | some found => exact ⟨found, rfl, List.mem_singleton.1 member⟩

/-- Every selection has the key of its field and arguments. -/
theorem storeKey_of_mem_resolveSelection {c : SelectionScope} {written : Selection}
    (member : s ∈ (c.resolveSelection type written).selections) :
    s.head.storeKey = storeKey s.head.fieldName s.head.arguments := by
  obtain ⟨label, name, arguments, directives, selectionSet, range⟩ := written
  rw [resolveSelection] at member
  split at member
  · cases member
  · simp only [Findings.selections_append, List.nil_append] at member
    split at member
    · rw [List.mem_singleton.1 member]
      rfl
    · rw [List.mem_singleton.1 member]
      rfl
    · rw [List.mem_singleton.1 member]
      rfl
    · obtain ⟨found, -, rfl⟩ := exists_of_mem_nestedFindings member
      rfl
    · rw [Findings.selections_append, List.nil_append] at member
      obtain ⟨found, -, rfl⟩ := exists_of_mem_nestedFindings member
      rfl

theorem resolves_of_mem_resolveSelections {c : SelectionScope} {written : List Selection}
    (member : s ∈ (c.resolveSelections type written).selections) : c.schema.Resolves type s := by
  induction written with
  | nil => cases member
  | cons w rest ih =>
    rw [resolveSelections, Findings.selections_append] at member
    rcases List.mem_append.1 member with first | later
    · exact ⟨c, w, rfl, first⟩
    · exact ih later

end SelectionScope

namespace SchemaGraph

theorem Resolves.selectedOn (h : g.Resolves type s) : SelectedOn g type s := by
  obtain ⟨c, written, rfl, member⟩ := h
  exact c.selectedOn_resolveSelection type written s member

theorem Resolves.found (h : g.Resolves type s) :
    g.lookupField? type s.head.fieldName = some s.head.field :=
  h.selectedOn.found

theorem Resolves.storeKey (h : g.Resolves type s) :
    s.head.storeKey = IsoLiteral.storeKey s.head.fieldName s.head.arguments := by
  obtain ⟨c, written, -, member⟩ := h
  exact SelectionScope.storeKey_of_mem_resolveSelection member

/-- What is selected inside is resolved on the type that the selection leads to. -/
theorem Resolves.inside_linked {head : SelectionHead} {target : TypeId} {inlineFragment updatable : Bool}
    {nested : List ResolvedSelection}
    (h : g.Resolves type (.linked head target inlineFragment updatable nested)) :
    ∀ n ∈ nested, g.Resolves target n := by
  obtain ⟨c, written, rfl, member⟩ := h
  obtain ⟨label, name, arguments, directives, selectionSet, range⟩ := written
  rw [SelectionScope.resolveSelection] at member
  split at member
  · cases member
  · simp only [Findings.selections_append, List.nil_append] at member
    split at member
    · cases List.mem_singleton.1 member
    · cases List.mem_singleton.1 member
    · cases List.mem_singleton.1 member
    · obtain ⟨found, inner, same⟩ := SelectionScope.exists_of_mem_nestedFindings member
      cases same
      cases selectionSet with
      | none => simp [SelectionScope.resolveSelectionSet?] at inner
      | some selections =>
        rw [SelectionScope.resolveSelectionSet?] at inner
        split at inner
        · cases inner
        · obtain rfl := Option.some.inj inner
          exact fun n => SelectionScope.resolves_of_mem_resolveSelections
    · rw [Findings.selections_append, List.nil_append] at member
      obtain ⟨found, -, same⟩ := SelectionScope.exists_of_mem_nestedFindings member
      cases same

theorem Resolves.field_eq (h : g.Resolves type s) (h' : g.Resolves type t)
    (names : s.head.fieldName = t.head.fieldName) : s.head.field = t.head.field := by
  have found := h.found
  rw [names, h'.found] at found
  exact (Option.some.inj found).symm

/-- **When two selections of a type share a key but not the field**: exactly if one of them has no arguments
and its field is named like the key of the other. -/
theorem Resolves.shares_key_iff
    (built : SchemaGraph.ofDocument options document declarations = .ok g) (h : g.Resolves type s)
    (h' : g.Resolves type t) :
    s.head.storeKey = t.head.storeKey ∧ s.head.field ≠ t.head.field ↔
      s.head.NamedLike t.head ∨ t.head.NamedLike s.head := by
  have name : s.head.field = t.head.field → s.head.fieldName = t.head.fieldName := by
    intro same
    rw [← (g.lookupField?_eq_some built h.found).2, same, (g.lookupField?_eq_some built h'.found).2]
  rw [h.storeKey, h'.storeKey]
  constructor
  · rintro ⟨same, apart⟩
    rcases storeKey_eq_iff.1 same with ⟨equal, -⟩ | named
    · exact absurd (h.field_eq h' equal) apart
    · exact named
  · rintro (named | named)
    · exact ⟨named.storeKey_eq, fun same => named.ne (name same)⟩
    · exact ⟨named.storeKey_eq.symm, fun same => named.ne (name same).symm⟩

theorem PlainNames.of_lookupField? (plain : g.PlainNames)
    (built : SchemaGraph.ofDocument options document declarations = .ok g) {name : String} {id : FieldId}
    (found : g.lookupField? type name = some id) : PlainName name := by
  obtain ⟨member, -, rfl⟩ := g.field_of_lookupField? built found
  exact plain _ member

end SchemaGraph

end Resolved

/-! ## Places of selections and of nodes -/

mutual
/-- A selection of server data and those inside it, each with the keys on the way, its own one last. -/
def ResolvedSelection.places (g : SchemaGraph) : ResolvedSelection → List (List MergeKey × SelectionHead)
  | .scalar head _ => [([.field head.storeKey], head)]
  | .linked head target inlineFragment _ nested =>
    let key : MergeKey := if inlineFragment then .fragment (g.typeName target) else .field head.storeKey
    ([key], head) :: (selectionPlaces g nested).map fun p => (key :: p.1, p.2)
  | .resolver _ _ _ | .pointer _ _ _ | .link _ => []
termination_by structural s => s
/-- The selections of server data in a selection set, each with the keys on the way. -/
def selectionPlaces (g : SchemaGraph) : List ResolvedSelection → List (List MergeKey × SelectionHead)
  | [] => []
  | s :: rest => s.places g ++ selectionPlaces g rest
termination_by structural ss => ss
end

/-- The key by which the node of a selection of server data is merged. -/
def ResolvedSelection.mergeKey? (g : SchemaGraph) : ResolvedSelection → Option MergeKey
  | .scalar head _ => some (.field head.storeKey)
  | .linked head target inlineFragment _ _ =>
    some (if inlineFragment then .fragment (g.typeName target) else .field head.storeKey)
  | .resolver _ _ _ | .pointer _ _ _ | .link _ => none

namespace NormalizationNode

mutual
/-- The fields that a node writes, each with the keys on the way. -/
def places : NormalizationNode → List (List MergeKey × String)
  | .scalar fieldName _ storeKey => [([.field storeKey], fieldName)]
  | .linked fieldName _ storeKey _ selections =>
    ([.field storeKey], fieldName) ::
      (placesOfAll selections).map fun p => (.field storeKey :: p.1, p.2)
  | .inlineFragment typeName selections =>
    (placesOfAll selections).map fun p => (.fragment typeName :: p.1, p.2)
termination_by structural n => n
/-- The fields that a tree writes, each with the keys on the way. -/
def placesOfAll : List NormalizationNode → List (List MergeKey × String)
  | [] => []
  | n :: rest => n.places ++ placesOfAll rest
termination_by structural ns => ns
end

/-- The name of the field that the node itself writes. -/
def fieldName? : NormalizationNode → Option String
  | .scalar fieldName _ _ => some fieldName
  | .linked fieldName _ _ _ _ => some fieldName
  | .inlineFragment _ _ => none

@[simp] theorem fieldName?_mapChildren (n : NormalizationNode)
    (change : List NormalizationNode → List NormalizationNode) :
    (n.mapChildren change).fieldName? = n.fieldName? := by
  cases n <;> rfl

variable {tree ns : List NormalizationNode} {n node : NormalizationNode} {p : List MergeKey × String}

theorem mem_placesOfAll : p ∈ placesOfAll tree ↔ ∃ n ∈ tree, p ∈ n.places := by
  induction tree with
  | nil => simp [placesOfAll]
  | cons n rest ih => simp [placesOfAll, ih]

/-- What a node writes is its own field or inside it. -/
theorem mem_places : p ∈ n.places ↔ p.1 = [n.mergeKey] ∧ n.fieldName? = some p.2 ∨
    ∃ q ∈ placesOfAll n.children, p = (n.mergeKey :: q.1, q.2) := by
  obtain ⟨path, name⟩ := p
  cases n with
  | scalar => simp [places, mergeKey, fieldName?, children, placesOfAll, eq_comm]
  | linked => simp [places, mergeKey, fieldName?, children, eq_comm]
  | inlineFragment => simp [places, mergeKey, fieldName?, children, eq_comm]

/-- A tree that absorbs a node writes nothing else than both, if the same holds of the children. -/
theorem mem_placesOfAll_absorb {change : List NormalizationNode → List NormalizationNode}
    (inside : ∀ n, ∀ q ∈ placesOfAll (change n), q ∈ placesOfAll n ∨ q ∈ placesOfAll node.children)
    (member : p ∈ placesOfAll (absorb node change tree)) : p ∈ placesOfAll tree ∨ p ∈ node.places := by
  obtain ⟨m, listed, here⟩ := mem_placesOfAll.1 member
  rcases mem_absorb listed with old | rfl | ⟨n, old, key, rfl⟩
  · exact .inl (mem_placesOfAll.2 ⟨m, old, here⟩)
  · exact .inr here
  · rcases mem_places.1 here with own | ⟨q, below, rfl⟩
    · rw [mergeKey_mapChildren, fieldName?_mapChildren] at own
      exact .inl (mem_placesOfAll.2 ⟨n, old, mem_places.2 (.inl own)⟩)
    · rw [mergeKey_mapChildren]
      rcases children_mapChildren n change with none | changed
      · rw [none] at below
        cases below
      · rw [changed] at below
        rcases inside n.children q below with earlier | new
        · exact .inl (mem_placesOfAll.2 ⟨n, old, mem_places.2 (.inr ⟨q, earlier, rfl⟩)⟩)
        · exact .inr (mem_places.2 (.inr ⟨q, new, by rw [key]⟩))

mutual
/-- **Merging a node** into a tree makes no node write another field. -/
theorem mem_placesOfAll_mergeInto (n : NormalizationNode) {tree : List NormalizationNode}
    {p : List MergeKey × String} (member : p ∈ placesOfAll (n.mergeInto tree)) :
    p ∈ placesOfAll tree ∨ p ∈ n.places := by
  cases n with
  | scalar fieldName arguments storeKey =>
    rw [mergeInto] at member
    exact mem_placesOfAll_absorb (fun _ _ kept => .inl kept) member
  | linked fieldName arguments storeKey concreteType selections =>
    rw [mergeInto] at member
    exact mem_placesOfAll_absorb (fun _ _ => mem_placesOfAll_mergeAllInto selections) member
  | inlineFragment typeName selections =>
    rw [mergeInto] at member
    exact mem_placesOfAll_absorb (fun _ _ => mem_placesOfAll_mergeAllInto selections) member
/-- Merging nodes one after another makes no node write another field. -/
theorem mem_placesOfAll_mergeAllInto (ns : List NormalizationNode) {tree : List NormalizationNode}
    {p : List MergeKey × String} (member : p ∈ placesOfAll (mergeAllInto ns tree)) :
    p ∈ placesOfAll tree ∨ p ∈ placesOfAll ns := by
  cases ns with
  | nil =>
    rw [mergeAllInto] at member
    exact .inl member
  | cons n rest =>
    rw [mergeAllInto] at member
    rw [placesOfAll, List.mem_append]
    rcases mem_placesOfAll_mergeAllInto rest member with earlier | later
    · exact (mem_placesOfAll_mergeInto n earlier).imp_right .inl
    · exact .inr (.inr later)
end

theorem mem_placesOfAll_merged (member : p ∈ placesOfAll (merged ns)) : p ∈ placesOfAll ns := by
  rcases mem_placesOfAll_mergeAllInto ns member with none | here
  · cases none
  · exact here

end NormalizationNode

open NormalizationNode

mutual
/-- The node of a selection writes the fields of the selections there. -/
theorem exists_of_mem_placesOfAll_node {g : SchemaGraph} (s : ResolvedSelection)
    {p : List MergeKey × String} (member : p ∈ placesOfAll (normalizationNode? g s).toList) :
    ∃ head, (p.1, head) ∈ s.places g ∧ head.fieldName = p.2 := by
  cases s with
  | scalar head updatable =>
    rw [normalizationNode?] at member
    have same : p = ([.field head.storeKey], head.fieldName) := by
      simpa [placesOfAll, NormalizationNode.places] using member
    exact ⟨head, by simp [ResolvedSelection.places, same], by rw [same]⟩
  | linked head target inlineFragment updatable nested =>
    have inner {q} (inside : q ∈ placesOfAll (merged (normalizationNodes g nested))) :=
      exists_of_mem_placesOfAll_nodes nested (mem_placesOfAll_merged inside)
    rw [normalizationNode?] at member
    rw [ResolvedSelection.places]
    cases inlineFragment with
    | true =>
      simp only [if_true, Option.toList_some, placesOfAll, List.append_nil] at member ⊢
      rcases mem_places.1 member with ⟨-, none⟩ | ⟨q, inside, rfl⟩
      · cases none
      · obtain ⟨h, here, named⟩ := inner inside
        exact ⟨h, List.mem_cons_of_mem _ (List.mem_map.2 ⟨(q.1, h), here, rfl⟩), named⟩
    | false =>
      simp only [Bool.false_eq_true, if_false, Option.toList_some, placesOfAll, List.append_nil] at member ⊢
      rcases mem_places.1 member with ⟨own, named⟩ | ⟨q, inside, rfl⟩
      · exact ⟨head, by rw [own]; exact List.mem_cons_self, Option.some.inj named⟩
      · obtain ⟨h, here, named⟩ := inner inside
        exact ⟨h, List.mem_cons_of_mem _ (List.mem_map.2 ⟨(q.1, h), here, rfl⟩), named⟩
  | resolver => cases member
  | pointer => cases member
  | link => cases member
theorem exists_of_mem_placesOfAll_nodes {g : SchemaGraph} (ss : List ResolvedSelection)
    {p : List MergeKey × String} (member : p ∈ placesOfAll (normalizationNodes g ss)) :
    ∃ head, (p.1, head) ∈ selectionPlaces g ss ∧ head.fieldName = p.2 := by
  cases ss with
  | nil => cases member
  | cons s rest =>
    rw [normalizationNodes] at member
    rw [selectionPlaces]
    obtain ⟨n, listed, here⟩ := mem_placesOfAll.1 member
    rcases List.mem_append.1 listed with first | later
    · obtain ⟨head, place, named⟩ :=
        exists_of_mem_placesOfAll_node s (mem_placesOfAll.2 ⟨n, first, here⟩)
      exact ⟨head, List.mem_append_left _ place, named⟩
    · obtain ⟨head, place, named⟩ :=
        exists_of_mem_placesOfAll_nodes rest (mem_placesOfAll.2 ⟨n, later, here⟩)
      exact ⟨head, List.mem_append_right _ place, named⟩
end

/-- Whatever the tree of a selection set writes, some selection selects there. -/
theorem exists_of_mem_placesOfAll {g : SchemaGraph} {selections : List ResolvedSelection}
    {p : List MergeKey × String} (member : p ∈ placesOfAll (normalizationTree g selections)) :
    ∃ head, (p.1, head) ∈ selectionPlaces g selections ∧ head.fieldName = p.2 :=
  exists_of_mem_placesOfAll_nodes selections (mem_placesOfAll_merged member)

/-! ## One field at a place -/

/-- A place is that of a selection of the set, or inside one that leads on. -/
theorem exists_of_mem_selectionPlaces {g : SchemaGraph} {selections : List ResolvedSelection}
    {key : MergeKey} {path : List MergeKey} {head : SelectionHead}
    (member : (key :: path, head) ∈ selectionPlaces g selections) :
    ∃ s ∈ selections, s.mergeKey? g = some key ∧ (path = [] ∧ head = s.head ∨
      ∃ h target inlineFragment updatable nested, s = .linked h target inlineFragment updatable nested ∧
        (path, head) ∈ selectionPlaces g nested) := by
  induction selections with
  | nil => simp [selectionPlaces] at member
  | cons s rest ih =>
    rw [selectionPlaces, List.mem_append] at member
    rcases member with here | later
    · refine ⟨s, List.mem_cons_self, ?_⟩
      cases s with
      | scalar h updatable =>
        simp only [ResolvedSelection.places, List.mem_singleton, Prod.mk.injEq, List.cons.injEq] at here
        obtain ⟨⟨rfl, rfl⟩, rfl⟩ := here
        exact ⟨rfl, .inl ⟨rfl, rfl⟩⟩
      | linked h target inlineFragment updatable nested =>
        rw [ResolvedSelection.places] at here
        rcases List.mem_cons.1 here with own | inside
        · cases own
          exact ⟨rfl, .inl ⟨rfl, rfl⟩⟩
        · obtain ⟨q, below, same⟩ := List.mem_map.1 inside
          cases same
          exact ⟨rfl, .inr ⟨h, target, inlineFragment, updatable, nested, rfl, below⟩⟩
      | resolver => simp [ResolvedSelection.places] at here
      | pointer => simp [ResolvedSelection.places] at here
      | link => simp [ResolvedSelection.places] at here
    · obtain ⟨t, listed, fact⟩ := ih later
      exact ⟨t, List.mem_cons_of_mem s listed, fact⟩

theorem notMem_selectionPlaces_nil {g : SchemaGraph} {head : SelectionHead}
    (selections : List ResolvedSelection) : ([], head) ∉ selectionPlaces g selections := by
  induction selections with
  | nil => simp [selectionPlaces]
  | cons s rest ih =>
    rw [selectionPlaces, List.mem_append]
    rintro (here | later)
    · cases s <;> simp [ResolvedSelection.places] at here
    · exact ih later

section Plain

variable {options : SchemaOptions} {document : SchemaDocument} {declarations : List Declaration}
  {g : SchemaGraph}

/-- A selection is merged by its store key, or as a fragment by the type that it narrows to. -/
theorem SchemaGraph.Resolves.mergeKey?_cases {type : TypeId} {s : ResolvedSelection} {key : MergeKey}
    (h : g.Resolves type s) (own : s.mergeKey? g = some key) :
    key = .field s.head.storeKey ∨
      ∃ target, key = .fragment (g.typeName target) ∧ (g.field s.head.field).kind = .linked target true := by
  cases h.selectedOn with
  | scalar found kind => exact .inl (Option.some.inj own).symm
  | @linked _ head target fragment updatable nested found kind inside =>
    have same := (Option.some.inj own).symm
    cases fragment with
    | true => exact .inr ⟨target, same, kind⟩
    | false => exact .inl same
  | resolver => cases own
  | pointer => cases own
  | link => cases own

/-- Selections of one type with one key select one field. -/
theorem SchemaGraph.PlainNames.fieldName_eq_of_storeKey (plain : g.PlainNames)
    (built : SchemaGraph.ofDocument options document declarations = .ok g) {type : TypeId}
    {s t : ResolvedSelection} (h : g.Resolves type s) (h' : g.Resolves type t)
    (same : s.head.storeKey = t.head.storeKey) : s.head.fieldName = t.head.fieldName := by
  rw [h.storeKey, h'.storeKey] at same
  exact eq_of_storeKey_eq (plain.of_lookupField? built h.found) (plain.of_lookupField? built h'.found) same

/-- Selections of one type whose nodes are merged select one field. -/
theorem SchemaGraph.PlainNames.fieldName_eq_of_mergeKey? (plain : g.PlainNames)
    (built : SchemaGraph.ofDocument options document declarations = .ok g) {type : TypeId}
    {s t : ResolvedSelection} (h : g.Resolves type s) (h' : g.Resolves type t) {key : MergeKey}
    (own : s.mergeKey? g = some key) (own' : t.mergeKey? g = some key) :
    s.head.fieldName = t.head.fieldName := by
  rcases h.mergeKey?_cases own with rfl | ⟨target, rfl, kind⟩
  · rcases h'.mergeKey?_cases own' with same | ⟨_, other, -⟩
    · exact plain.fieldName_eq_of_storeKey built h h' (MergeKey.field.inj same)
    · cases other
  · rcases h'.mergeKey?_cases own' with other | ⟨target', same, kind'⟩
    · cases other
    · rw [g.fieldName_of_fragment built h.found kind, g.fieldName_of_fragment built h'.found kind',
        MergeKey.fragment.inj same]

/-- **One field at a place.** Where names are plain, all selections that lead to one place select one
field. -/
theorem SchemaGraph.PlainNames.field_eq_of_mem_places (plain : g.PlainNames)
    (built : SchemaGraph.ofDocument options document declarations = .ok g) (path : List MergeKey) :
    ∀ {type : TypeId} {ss ts : List ResolvedSelection} {head head' : SelectionHead},
      (∀ s ∈ ss, g.Resolves type s) → (∀ t ∈ ts, g.Resolves type t) →
      (path, head) ∈ selectionPlaces g ss → (path, head') ∈ selectionPlaces g ts →
      head.fieldName = head'.fieldName ∧ head.field = head'.field := by
  induction path with
  | nil =>
    intro type ss ts head head' _ _ here _
    exact absurd here (notMem_selectionPlaces_nil ss)
  | cons key path ih =>
    intro type ss ts head head' all all' here here'
    obtain ⟨s, listed, own, place⟩ := exists_of_mem_selectionPlaces here
    obtain ⟨t, listed', own', place'⟩ := exists_of_mem_selectionPlaces here'
    have names := plain.fieldName_eq_of_mergeKey? built (all s listed) (all' t listed') own own'
    have same := (all s listed).field_eq (all' t listed') names
    rcases place with ⟨rfl, rfl⟩ | ⟨h, target, fragment, updatable, nested, rfl, inside⟩
    · rcases place' with ⟨-, rfl⟩ | ⟨_, _, _, _, nested', -, inside'⟩
      · exact ⟨names, same⟩
      · exact absurd inside' (notMem_selectionPlaces_nil nested')
    · rcases place' with ⟨rfl, -⟩ | ⟨h', target', fragment', updatable', nested', rfl, inside'⟩
      · exact absurd inside (notMem_selectionPlaces_nil nested)
      · -- the field is the same, so that both lead to the same type
        have leads : (g.field h.field).kind = .linked target fragment := by
          cases (all _ listed).selectedOn with
          | linked _ kind _ => exact kind
        have leads' : (g.field h'.field).kind = .linked target' fragment' := by
          cases (all' _ listed').selectedOn with
          | linked _ kind _ => exact kind
        rw [show h.field = h'.field from same, leads'] at leads
        cases leads
        exact ih (all _ listed).inside_linked (all' _ listed').inside_linked inside inside'

end Plain

end IsoLiteral
