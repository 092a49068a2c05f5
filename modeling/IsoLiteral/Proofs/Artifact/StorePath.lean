import IsoLiteral.Artifact.Normalization
import IsoLiteral.Proofs.Artifact.Reader
import IsoLiteral.Proofs.Resolution.Faithful

/-!
# Paths in the store

A normalization tree writes places of the store and a reader tree reads them. A place is known by the
store keys on the way to it; fragments stay in the record that they are in. Reading keeps every selection
for itself, writing merges those that lead to the same place, at every depth. The two trees of a
selection set address the same places all the same, unless somewhere a scalar and a record claim the
same place: then one of the two is lost in merging, with all that is below it.

Both trees are compared with the sites of the selections: what leads where, before anything is merged.
-/

namespace IsoLiteral

/-! ## Places written and read -/

mutual
/-- The paths of store keys that a node writes. -/
def NormalizationNode.writtenPaths : NormalizationNode → List (List String)
  | .scalar _ _ storeKey => [[storeKey]]
  | .linked _ _ storeKey _ selections =>
    [storeKey] :: (NormalizationNode.writtenPathsOfAll selections).map (storeKey :: ·)
  | .inlineFragment _ selections => NormalizationNode.writtenPathsOfAll selections
termination_by structural n => n
/-- The paths of store keys that a tree writes. -/
def NormalizationNode.writtenPathsOfAll : List NormalizationNode → List (List String)
  | [] => []
  | n :: rest => n.writtenPaths ++ NormalizationNode.writtenPathsOfAll rest
termination_by structural ns => ns
end

mutual
/-- The paths of store keys that a node reads. A pointer's record is found by its own reader, and what
resolvers, links and loadable fields need is no place of this record. -/
def ReaderNode.readPaths : ReaderNode → List (List String)
  | .scalar _ _ _ storeKey _ => [[storeKey]]
  | .linked _ _ _ _ (some _) _ _ _ _ => []
  | .linked _ _ _ _ none (some _) _ _ selections => ReaderNode.readPathsOfAll selections
  | .linked _ _ _ storeKey none none _ _ selections =>
    [storeKey] :: (ReaderNode.readPathsOfAll selections).map (storeKey :: ·)
  | .resolver _ _ _ _ | .link _ | .loadable _ _ _ _ _ => []
termination_by structural n => n
/-- The paths of store keys that a tree reads. -/
def ReaderNode.readPathsOfAll : List ReaderNode → List (List String)
  | [] => []
  | n :: rest => n.readPaths ++ ReaderNode.readPathsOfAll rest
termination_by structural ns => ns
end

/-! ## Sites -/

/-- Where a selection of server data leads, and what it takes to be there. -/
structure Site where
  /-- The keys of the selections on the way, its own one last. -/
  path : List MergeKey
  /-- Whether it selects a record or records; else a scalar. -/
  isRecord : Bool
deriving DecidableEq, Repr

namespace Site

/-- The site seen from outside a selection with a key. -/
def below (key : MergeKey) (s : Site) : Site := { s with path := key :: s.path }

/-- The store keys on the way. -/
def storePath (s : Site) : List String :=
  s.path.filterMap fun
    | .field storeKey => some storeKey
    | .fragment _ => none

@[simp] theorem storePath_below_field (storeKey : String) (s : Site) :
    (s.below (.field storeKey)).storePath = storeKey :: s.storePath := rfl

@[simp] theorem storePath_below_fragment (typeName : String) (s : Site) :
    (s.below (.fragment typeName)).storePath = s.storePath := rfl

@[simp] theorem storePath_field (storeKey : String) (isRecord : Bool) :
    storePath ⟨[.field storeKey], isRecord⟩ = [storeKey] := rfl

/-- No scalar claims the place of a record. -/
def Consistent (sites : List Site) : Prop :=
  ∀ s ∈ sites, ∀ t ∈ sites, s.path = t.path → s.isRecord = t.isRecord

instance (sites : List Site) : Decidable (Consistent sites) :=
  inferInstanceAs (Decidable (∀ s ∈ sites, ∀ t ∈ sites, s.path = t.path → s.isRecord = t.isRecord))

theorem Consistent.mono {sites fewer : List Site} (consistent : Consistent sites)
    (sub : ∀ s ∈ fewer, s ∈ sites) : Consistent fewer :=
  fun s inS t inT => consistent s (sub s inS) t (sub t inT)

/-- What is consistent outside a selection is so inside it. -/
theorem Consistent.inside {sites fewer : List Site} (consistent : Consistent sites) (key : MergeKey)
    (sub : ∀ s ∈ fewer, s.below key ∈ sites) : Consistent fewer := by
  intro s inS t inT same
  exact consistent (s.below key) (sub s inS) (t.below key) (sub t inT) (congrArg (key :: ·) same)

end Site

mutual
/-- The sites of a selection of server data, its own and those inside it. -/
def ResolvedSelection.sites (g : SchemaGraph) : ResolvedSelection → List Site
  | .scalar head _ => [⟨[.field head.storeKey], false⟩]
  | .linked head target inlineFragment _ nested =>
    if inlineFragment then (selectionSites g nested).map (.below (.fragment (g.typeName target)))
    else
      ⟨[.field head.storeKey], true⟩ :: (selectionSites g nested).map (.below (.field head.storeKey))
  | .resolver _ _ _ | .pointer _ _ _ | .link _ => []
termination_by structural s => s
/-- The sites of a selection set. -/
def selectionSites (g : SchemaGraph) : List ResolvedSelection → List Site
  | [] => []
  | s :: rest => s.sites g ++ selectionSites g rest
termination_by structural ss => ss
end

namespace NormalizationNode

/-- The site of the node itself; a fragment stays in its record. -/
def ownSites : NormalizationNode → List Site
  | .scalar _ _ storeKey => [⟨[.field storeKey], false⟩]
  | .linked _ _ storeKey _ _ => [⟨[.field storeKey], true⟩]
  | .inlineFragment _ _ => []

mutual
/-- The sites of a node, its own and those of the nodes inside it. -/
def sites : NormalizationNode → List Site
  | .scalar _ _ storeKey => [⟨[.field storeKey], false⟩]
  | .linked _ _ storeKey _ selections =>
    ⟨[.field storeKey], true⟩ :: (sitesOfAll selections).map (.below (.field storeKey))
  | .inlineFragment typeName selections => (sitesOfAll selections).map (.below (.fragment typeName))
termination_by structural n => n
/-- The sites of a tree. -/
def sitesOfAll : List NormalizationNode → List Site
  | [] => []
  | n :: rest => n.sites ++ sitesOfAll rest
termination_by structural ns => ns
end

theorem sites_eq (n : NormalizationNode) :
    n.sites = n.ownSites ++ (sitesOfAll n.children).map (.below n.mergeKey) := by
  cases n with
  | scalar => rw [sites, ownSites, children, sitesOfAll, List.map_nil, List.append_nil]
  | linked => rw [sites, ownSites, children, mergeKey, List.singleton_append]
  | inlineFragment => rw [sites, ownSites, children, mergeKey, List.nil_append]

theorem sitesOfAll_append (xs ys : List NormalizationNode) :
    sitesOfAll (xs ++ ys) = sitesOfAll xs ++ sitesOfAll ys := by
  induction xs with
  | nil => rw [List.nil_append, sitesOfAll, List.nil_append]
  | cons n rest ih => rw [List.cons_append, sitesOfAll, ih, sitesOfAll, List.append_assoc]

theorem mem_sitesOfAll {tree : List NormalizationNode} {n : NormalizationNode} (member : n ∈ tree)
    {s : Site} (here : s ∈ n.sites) : s ∈ sitesOfAll tree := by
  induction tree with
  | nil => cases member
  | cons m rest ih =>
    rw [sitesOfAll, List.mem_append]
    rcases List.mem_cons.1 member with rfl | later
    · exact .inl here
    · exact .inr (ih later)

theorem below_mem_sites {n : NormalizationNode} {s : Site} (inside : s ∈ sitesOfAll n.children) :
    s.below n.mergeKey ∈ n.sites := by
  rw [sites_eq]
  exact List.mem_append_right _ (List.mem_map_of_mem inside)

mutual
theorem writtenPaths_eq (n : NormalizationNode) : n.writtenPaths = n.sites.map Site.storePath := by
  cases n with
  | scalar => rw [writtenPaths, sites]; rfl
  | linked =>
    rw [writtenPaths, sites, writtenPathsOfAll_eq, List.map_cons, List.map_map, List.map_map]
    rfl
  | inlineFragment =>
    rw [writtenPaths, sites, writtenPathsOfAll_eq, List.map_map]
    rfl
/-- A tree writes the places of its sites. -/
theorem writtenPathsOfAll_eq (tree : List NormalizationNode) :
    writtenPathsOfAll tree = (sitesOfAll tree).map Site.storePath := by
  cases tree with
  | nil => rw [writtenPathsOfAll, sitesOfAll, List.map_nil]
  | cons n rest =>
    rw [writtenPathsOfAll, sitesOfAll, writtenPaths_eq n, writtenPathsOfAll_eq rest, List.map_append]
end

/-! ## Merging keeps the sites -/

/-- Two consistent nodes with the same key are two scalars, two links or two fragments. -/
theorem ownSites_eq {n m : NormalizationNode} (key : n.mergeKey = m.mergeKey)
    (consistent : Site.Consistent (n.sites ++ m.sites)) : n.ownSites = m.ownSites := by
  have same : ∀ s ∈ n.ownSites, ∀ t ∈ m.ownSites, s.path = t.path → s.isRecord = t.isRecord := by
    intro s inS t inT
    refine consistent s ?_ t ?_
    · rw [sites_eq n]
      exact List.mem_append_left _ (List.mem_append_left _ inS)
    · rw [sites_eq m]
      exact List.mem_append_right _ (List.mem_append_left _ inT)
  cases n <;> cases m <;> simp_all [ownSites, mergeKey]

/-- A node with changed children keeps its own site, and its key over the sites of the children. -/
theorem mem_sites_mapChildren {n m : NormalizationNode} (own : n.ownSites = m.ownSites)
    (key : n.mergeKey = m.mergeKey) {change : List NormalizationNode → List NormalizationNode}
    (inside : ∀ s, s ∈ sitesOfAll (change n.children) ↔
      s ∈ sitesOfAll n.children ∨ s ∈ sitesOfAll m.children) (s : Site) :
    s ∈ (n.mapChildren change).sites ↔ s ∈ n.sites ∨ s ∈ m.sites := by
  have joined : s ∈ n.ownSites ++ (sitesOfAll (change n.children)).map (.below n.mergeKey) ↔
      s ∈ n.sites ∨ s ∈ m.sites := by
    rw [sites_eq n, sites_eq m, ← own, ← key]
    simp only [List.mem_append, List.mem_map, inside]
    grind
  cases n with
  | scalar =>
    -- a scalar has no children to change, and neither has the node that it stands for
    cases m with
    | scalar => rw [mapChildren, sites_eq, sites_eq (.scalar ..), ← own, ← key]; simp [children]
    | linked => cases own
    | inlineFragment => cases own
  | linked => rw [mapChildren, sites_eq]; exact joined
  | inlineFragment => rw [mapChildren, sites_eq]; exact joined

/-- A node that is absorbed by a consistent tree brings its sites, if the change of the children of
the one with its key does. -/
theorem mem_sitesOfAll_absorb {node : NormalizationNode}
    {change : List NormalizationNode → List NormalizationNode} {tree : List NormalizationNode}
    (consistent : Site.Consistent (sitesOfAll tree ++ node.sites))
    (inside : ∀ n ∈ tree, n.mergeKey = node.mergeKey → ∀ s, s ∈ sitesOfAll (change n.children) ↔
      s ∈ sitesOfAll n.children ∨ s ∈ sitesOfAll node.children) (s : Site) :
    s ∈ sitesOfAll (absorb node change tree) ↔ s ∈ sitesOfAll tree ∨ s ∈ node.sites := by
  induction tree with
  | nil => simp [absorb, sitesOfAll]
  | cons n rest ih =>
    rw [absorb]
    split
    · rename_i key
      have pair : Site.Consistent (n.sites ++ node.sites) :=
        consistent.mono fun s member => by
          rw [sitesOfAll]
          simp only [List.mem_append] at member ⊢
          tauto
      rw [sitesOfAll, sitesOfAll, List.mem_append, List.mem_append,
        mem_sites_mapChildren (ownSites_eq key pair) key (inside n List.mem_cons_self key)]
      tauto
    · have later := ih
        (consistent.mono fun s member => by
          rw [sitesOfAll]
          simp only [List.mem_append] at member ⊢
          tauto)
        fun n member => inside n (List.mem_cons_of_mem _ member)
      rw [sitesOfAll, sitesOfAll, List.mem_append, List.mem_append, later]
      tauto

/-- The children of a node and of a tree's node with its key are consistent if node and tree are. -/
theorem consistent_children {tree : List NormalizationNode} {n node : NormalizationNode}
    (consistent : Site.Consistent (sitesOfAll tree ++ node.sites)) (member : n ∈ tree)
    (key : n.mergeKey = node.mergeKey) :
    Site.Consistent (sitesOfAll n.children ++ sitesOfAll node.children) := by
  refine consistent.inside node.mergeKey fun s inside => ?_
  rcases List.mem_append.1 inside with left | right
  · exact List.mem_append_left _ (mem_sitesOfAll member (key ▸ below_mem_sites left))
  · exact List.mem_append_right _ (below_mem_sites right)

mutual
/-- **Merging a node** into a tree that it is consistent with adds its sites and loses none. -/
theorem mem_sitesOfAll_mergeInto (n : NormalizationNode) {tree : List NormalizationNode}
    (consistent : Site.Consistent (sitesOfAll tree ++ n.sites)) (s : Site) :
    s ∈ sitesOfAll (n.mergeInto tree) ↔ s ∈ sitesOfAll tree ∨ s ∈ n.sites := by
  cases n with
  | scalar fieldName arguments storeKey =>
    rw [mergeInto]
    refine mem_sitesOfAll_absorb consistent (fun n _ _ s => ?_) s
    rw [id, children, sitesOfAll]
    simp
  | linked fieldName arguments storeKey concreteType selections =>
    rw [mergeInto]
    exact mem_sitesOfAll_absorb consistent (fun n member key s => mem_sitesOfAll_mergeAllInto selections
      (consistent_children consistent member key) s) s
  | inlineFragment typeName selections =>
    rw [mergeInto]
    exact mem_sitesOfAll_absorb consistent (fun n member key s => mem_sitesOfAll_mergeAllInto selections
      (consistent_children consistent member key) s) s
/-- Merging nodes one after another adds their sites. -/
theorem mem_sitesOfAll_mergeAllInto (ns : List NormalizationNode) {tree : List NormalizationNode}
    (consistent : Site.Consistent (sitesOfAll tree ++ sitesOfAll ns)) (s : Site) :
    s ∈ sitesOfAll (mergeAllInto ns tree) ↔ s ∈ sitesOfAll tree ∨ s ∈ sitesOfAll ns := by
  cases ns with
  | nil => rw [mergeAllInto]; simp [sitesOfAll]
  | cons n rest =>
    have fits : Site.Consistent (sitesOfAll tree ++ n.sites) := consistent.mono fun s member => by
      rw [sitesOfAll]
      simp only [List.mem_append] at member ⊢
      tauto
    have first := mem_sitesOfAll_mergeInto n fits
    have still : Site.Consistent (sitesOfAll (n.mergeInto tree) ++ sitesOfAll rest) :=
      consistent.mono fun s member => by
        rw [sitesOfAll]
        simp only [List.mem_append, first] at member ⊢
        tauto
    have others := mem_sitesOfAll_mergeAllInto rest still
    rw [mergeAllInto, others, first, sitesOfAll, List.mem_append, or_assoc]
end

/-- Merging keeps the sites of nodes if these are consistent. -/
theorem mem_sitesOfAll_merged {ns : List NormalizationNode} {all : List Site}
    (consistent : Site.Consistent all) (same : ∀ s, s ∈ sitesOfAll ns ↔ s ∈ all) (s : Site) :
    s ∈ sitesOfAll (merged ns) ↔ s ∈ all := by
  have fits : Site.Consistent (sitesOfAll [] ++ sitesOfAll ns) := consistent.mono fun s member => by
    rw [sitesOfAll, List.nil_append] at member
    exact (same s).1 member
  rw [merged, mem_sitesOfAll_mergeAllInto ns fits, sitesOfAll, same]
  simp

/-! ## Siblings -/

/-- No two siblings write the same place, at any depth. -/
inductive DistinctSiblings : List NormalizationNode → Prop where
  | intro {tree : List NormalizationNode} (keys : (tree.map mergeKey).Nodup)
      (inside : ∀ n ∈ tree, DistinctSiblings n.children) : DistinctSiblings tree

theorem DistinctSiblings.inside {tree : List NormalizationNode} (distinct : DistinctSiblings tree) :
    ∀ n ∈ tree, DistinctSiblings n.children := by
  cases distinct with
  | intro _ inside => exact inside

theorem DistinctSiblings.nil : DistinctSiblings [] :=
  .intro List.nodup_nil fun _ member => nomatch member

@[simp] theorem mergeKey_mapChildren (n : NormalizationNode)
    (change : List NormalizationNode → List NormalizationNode) :
    (n.mapChildren change).mergeKey = n.mergeKey := by
  cases n <;> rfl

/-- A tree that absorbs a node has the key of the node, at the end if it is new. -/
theorem keys_absorb (node : NormalizationNode)
    (change : List NormalizationNode → List NormalizationNode) (tree : List NormalizationNode) :
    (absorb node change tree).map mergeKey =
      if node.mergeKey ∈ tree.map mergeKey then tree.map mergeKey
      else tree.map mergeKey ++ [node.mergeKey] := by
  induction tree with
  | nil => simp [absorb]
  | cons n rest ih =>
    rw [absorb]
    split
    · rename_i key
      simp [key]
    · rename_i other
      rw [List.map_cons, ih, List.map_cons]
      by_cases later : node.mergeKey ∈ rest.map mergeKey
      · rw [if_pos later, if_pos (List.mem_cons_of_mem _ later)]
      · rw [if_neg later, if_neg (by simpa [Ne.symm other] using later), List.cons_append]

/-- Whatever a tree absorbs, its nodes are those of before, the new one, or one with changed children. -/
theorem mem_absorb {node m : NormalizationNode}
    {change : List NormalizationNode → List NormalizationNode} {tree : List NormalizationNode}
    (member : m ∈ absorb node change tree) :
    m ∈ tree ∨ m = node ∨ ∃ n ∈ tree, n.mergeKey = node.mergeKey ∧ m = n.mapChildren change := by
  induction tree with
  | nil => exact .inr (.inl (by simpa [absorb] using member))
  | cons n rest ih =>
    rw [absorb] at member
    split at member
    · rename_i key
      rcases List.mem_cons.1 member with rfl | later
      · exact .inr (.inr ⟨n, List.mem_cons_self, key, rfl⟩)
      · exact .inl (List.mem_cons_of_mem _ later)
    · rcases List.mem_cons.1 member with rfl | later
      · exact .inl List.mem_cons_self
      · rcases ih later with old | new | ⟨k, inRest, changed⟩
        · exact .inl (List.mem_cons_of_mem _ old)
        · exact .inr (.inl new)
        · exact .inr (.inr ⟨k, List.mem_cons_of_mem _ inRest, changed⟩)

theorem children_mapChildren (n : NormalizationNode)
    (change : List NormalizationNode → List NormalizationNode) :
    (n.mapChildren change).children = [] ∨
      (n.mapChildren change).children = change n.children := by
  cases n with
  | scalar => exact .inl rfl
  | linked => exact .inr rfl
  | inlineFragment => exact .inr rfl

theorem distinctSiblings_absorb {node : NormalizationNode}
    {change : List NormalizationNode → List NormalizationNode} {tree : List NormalizationNode}
    (distinct : DistinctSiblings tree) (new : DistinctSiblings node.children)
    (kept : ∀ children, DistinctSiblings children → DistinctSiblings (change children)) :
    DistinctSiblings (absorb node change tree) := by
  obtain ⟨keys, inside⟩ := distinct
  refine .intro ?_ fun m member => ?_
  · rw [keys_absorb]
    split
    · exact keys
    · rename_i fresh
      exact List.nodup_append.2 ⟨keys, List.nodup_singleton _, by grind⟩
  · rcases mem_absorb member with old | rfl | ⟨n, here, -, rfl⟩
    · exact inside m old
    · exact new
    · rcases children_mapChildren n change with none | changed
      · rw [none]
        exact .nil
      · rw [changed]
        exact kept _ (inside n here)

mutual
/-- Merging a node keeps siblings distinct. -/
theorem distinctSiblings_mergeInto (n : NormalizationNode) (own : DistinctSiblings n.children)
    {tree : List NormalizationNode} (distinct : DistinctSiblings tree) :
    DistinctSiblings (n.mergeInto tree) := by
  cases n with
  | scalar =>
    rw [mergeInto]
    exact distinctSiblings_absorb distinct own fun _ kept => kept
  | linked _ _ _ _ selections =>
    rw [mergeInto]
    have inside : ∀ n ∈ selections, DistinctSiblings n.children := own.inside
    exact distinctSiblings_absorb distinct own fun _ => distinctSiblings_mergeAllInto selections inside
  | inlineFragment _ selections =>
    rw [mergeInto]
    have inside : ∀ n ∈ selections, DistinctSiblings n.children := own.inside
    exact distinctSiblings_absorb distinct own fun _ => distinctSiblings_mergeAllInto selections inside
/-- Merging nodes one after another keeps siblings distinct. -/
theorem distinctSiblings_mergeAllInto (ns : List NormalizationNode)
    (own : ∀ n ∈ ns, DistinctSiblings n.children) {tree : List NormalizationNode}
    (distinct : DistinctSiblings tree) : DistinctSiblings (mergeAllInto ns tree) := by
  cases ns with
  | nil =>
    rw [mergeAllInto]
    exact distinct
  | cons n rest =>
    rw [mergeAllInto]
    exact distinctSiblings_mergeAllInto rest (fun m member => own m (List.mem_cons_of_mem _ member))
      (distinctSiblings_mergeInto n (own n List.mem_cons_self) distinct)
end

end NormalizationNode

open NormalizationNode

/-! ## The two trees of a selection set -/

mutual
theorem distinctSiblings_of_normalizationNode? {g : SchemaGraph} (s : ResolvedSelection)
    {n : NormalizationNode} (node : n ∈ normalizationNode? g s) : DistinctSiblings n.children := by
  cases s with
  | scalar =>
    rw [normalizationNode?] at node
    obtain rfl := Option.some.inj node
    exact .nil
  | linked head target inlineFragment updatable nested =>
    have inside : DistinctSiblings (merged (normalizationNodes g nested)) :=
      distinctSiblings_mergeAllInto _ (distinctSiblings_of_mem_normalizationNodes nested) .nil
    rw [normalizationNode?] at node
    cases inlineFragment <;>
    · obtain rfl := Option.some.inj node
      exact inside
  | resolver => cases node
  | pointer => cases node
  | link => cases node
theorem distinctSiblings_of_mem_normalizationNodes {g : SchemaGraph} (ss : List ResolvedSelection) :
    ∀ n ∈ normalizationNodes g ss, DistinctSiblings n.children := by
  cases ss with
  | nil => exact fun n member => nomatch member
  | cons s rest =>
    intro n member
    rw [normalizationNodes, List.mem_append, Option.mem_toList] at member
    rcases member with here | later
    · exact distinctSiblings_of_normalizationNode? s here
    · exact distinctSiblings_of_mem_normalizationNodes rest n later
end

mutual
/-- The node of a selection has the sites of the selection. -/
theorem mem_sites_normalizationNode? {g : SchemaGraph} (s : ResolvedSelection)
    (consistent : Site.Consistent (s.sites g)) (t : Site) :
    t ∈ sitesOfAll (normalizationNode? g s).toList ↔ t ∈ s.sites g := by
  cases s with
  | scalar => rw [normalizationNode?, ResolvedSelection.sites]; simp [sitesOfAll, sites]
  | linked head target inlineFragment updatable nested =>
    rw [ResolvedSelection.sites] at consistent ⊢
    rw [normalizationNode?]
    cases inlineFragment with
    | true =>
      have fits : Site.Consistent (selectionSites g nested) :=
        consistent.inside (.fragment (g.typeName target)) fun s member => List.mem_map_of_mem member
      have inner := mem_sitesOfAll_merged fits (mem_sites_normalizationNodes nested fits)
      simp [sitesOfAll, sites, inner]
    | false =>
      have fits : Site.Consistent (selectionSites g nested) :=
        consistent.inside (.field head.storeKey) fun s member =>
          List.mem_cons_of_mem _ (List.mem_map_of_mem member)
      have inner := mem_sitesOfAll_merged fits (mem_sites_normalizationNodes nested fits)
      simp [sitesOfAll, sites, inner]
  | resolver => rw [normalizationNode?, ResolvedSelection.sites]; simp [sitesOfAll]
  | pointer => rw [normalizationNode?, ResolvedSelection.sites]; simp [sitesOfAll]
  | link => rw [normalizationNode?, ResolvedSelection.sites]; simp [sitesOfAll]
/-- The nodes of selections have the sites of the selections, also those merged before. -/
theorem mem_sites_normalizationNodes {g : SchemaGraph} (ss : List ResolvedSelection)
    (consistent : Site.Consistent (selectionSites g ss)) (t : Site) :
    t ∈ sitesOfAll (normalizationNodes g ss) ↔ t ∈ selectionSites g ss := by
  cases ss with
  | nil => simp [normalizationNodes, sitesOfAll, selectionSites]
  | cons s rest =>
    rw [selectionSites] at consistent ⊢
    have first := mem_sites_normalizationNode? s
      (consistent.mono fun s member => List.mem_append_left _ member) t
    have others := mem_sites_normalizationNodes rest
      (consistent.mono fun s member => List.mem_append_right _ member) t
    rw [normalizationNodes, sitesOfAll_append, List.mem_append, List.mem_append, first, others]
end

mutual
/-- The node that reads a selection reads its sites, whichever number comes next. -/
theorem readPaths_readerNode (g : SchemaGraph) (next : Nat) (s : ResolvedSelection) :
    (readerNode g next s).1.readPaths = (s.sites g).map Site.storePath := by
  cases s with
  | scalar => rw [readerNode, ReaderNode.readPaths, ResolvedSelection.sites]; rfl
  | linked head target inlineFragment updatable nested =>
    rw [readerNode, ResolvedSelection.sites]
    cases inlineFragment <;>
      simp [ReaderNode.readPaths, readPathsOfAll_readerNodes g next nested]
  | resolver head kind loadable =>
    cases loadable <;> rw [readerNode, ReaderNode.readPaths, ResolvedSelection.sites, List.map_nil]
  | pointer => rw [readerNode, ReaderNode.readPaths, ResolvedSelection.sites, List.map_nil]
  | link => rw [readerNode, ReaderNode.readPaths, ResolvedSelection.sites, List.map_nil]
/-- Selections are read where their sites are. -/
theorem readPathsOfAll_readerNodes (g : SchemaGraph) (next : Nat) (ss : List ResolvedSelection) :
    ReaderNode.readPathsOfAll (readerNodes g next ss).1 = (selectionSites g ss).map Site.storePath := by
  cases ss with
  | nil => rw [readerNodes, ReaderNode.readPathsOfAll, selectionSites, List.map_nil]
  | cons s rest =>
    rw [readerNodes, ReaderNode.readPathsOfAll, selectionSites, List.map_append,
      readPaths_readerNode g next s, readPathsOfAll_readerNodes g _ rest]
end

/-- **The two trees of a selection set address the same places.** No two siblings of the normalization
tree have one key, at any depth; and if no scalar claims the place of a record, the paths that the
normalization tree writes are those that the reader tree reads. -/
theorem mem_writtenPaths_iff_mem_readPaths (g : SchemaGraph) (selections : List ResolvedSelection) :
    DistinctSiblings (normalizationTree g selections) ∧
      (Site.Consistent (selectionSites g selections) → ∀ path,
        path ∈ writtenPathsOfAll (normalizationTree g selections) ↔
          path ∈ ReaderNode.readPathsOfAll (readerTree g selections)) := by
  refine ⟨distinctSiblings_mergeAllInto _ (distinctSiblings_of_mem_normalizationNodes selections) .nil,
    fun consistent path => ?_⟩
  have same := mem_sitesOfAll_merged consistent (mem_sites_normalizationNodes selections consistent)
  rw [writtenPathsOfAll_eq, readerTree_eq, readPathsOfAll_readerNodes, List.mem_map, List.mem_map]
  simp only [normalizationTree, same]

/-- The same record is selected twice, and one of its names under two aliases. -/
def twiceTexts : List String :=
  ["field Query.twice \x7b me \x7b first: name(size: 1) again: name(size: 1) \x7d " ++
    "also: me \x7b id name(size: 2) \x7d \x7d"]

theorem mem_writtenPaths_iff_mem_readPaths_twice :
    ∃ f ∈ (Resolution.ofDeclarations (userGraph sizeArgument [] twiceTexts)
        (declarationsOf twiceTexts)).1.fields,
      Site.Consistent (selectionSites (userGraph sizeArgument [] twiceTexts) f.selections) ∧
      ["me", "id"] ∈ ReaderNode.readPathsOfAll
        (readerTree (userGraph sizeArgument [] twiceTexts) f.selections) ∧
      ∀ path, path ∈ writtenPathsOfAll
          (normalizationTree (userGraph sizeArgument [] twiceTexts) f.selections) ↔
        path ∈ ReaderNode.readPathsOfAll
          (readerTree (userGraph sizeArgument [] twiceTexts) f.selections) := by
  have resolved : (Resolution.ofDeclarations (userGraph sizeArgument [] twiceTexts)
      (declarationsOf twiceTexts)).1.fields.any (fun f =>
        Site.Consistent (selectionSites (userGraph sizeArgument [] twiceTexts) f.selections) ∧
        ["me", "id"] ∈ ReaderNode.readPathsOfAll
          (readerTree (userGraph sizeArgument [] twiceTexts) f.selections)) = true := by
    decide +kernel
  obtain ⟨f, member, holds⟩ := List.any_eq_true.1 resolved
  obtain ⟨consistent, read⟩ := of_decide_eq_true holds
  exact ⟨f, member, consistent, read,
    (mem_writtenPaths_iff_mem_readPaths _ f.selections).2 consistent⟩

end IsoLiteral
