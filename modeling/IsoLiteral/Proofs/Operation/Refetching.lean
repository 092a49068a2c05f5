import IsoLiteral.Proofs.Artifact.References
import IsoLiteral.Proofs.Operation.Identity
import IsoLiteral.Proofs.Operation.Planned

/-!
# Refetch sites and the nodes that carry their numbers

The reader of a field and the list of its refetch sites are made by two walks over the same selections. The
first hands out numbers on its way, the second lists sites whose numbers are their places. Both come to the
same selections in the same order (`standings`), so the numbers in a reader tree count up from zero, and each is
the place of the site that its selection is. The queries of an entrypoint follow from that: there is one for each
number that a reader which runs carries.
-/

namespace IsoLiteral

open Relation

variable {g : SchemaGraph}

/-! ## Selections where they stand -/

/-- A selection with the set it stands in and the type that the set is on. -/
structure Standing where
  type : TypeId
  set : List ResolvedSelection
  selection : ResolvedSelection

/-- The refetch site that a selection is, for its number: through a pointer the target is requested, and
`__refetch` requests the record that its set is on. -/
def Standing.site? (s : Standing) : Option (Nat → RefetchSite) :=
  match s.selection with
  | .pointer _ target nested => some fun index => ⟨index, .pointer, target, nested⟩
  | .resolver _ .refetchAction none => some fun index => ⟨index, .refetch, s.type, s.set⟩
  | _ => none

mutual
/-- The selections inside a selection. -/
def standingsInside : ResolvedSelection → List Standing
  | .linked _ target _ _ nested => standings target nested nested
  | .pointer _ target nested => standings target nested nested
  | .resolver _ _ _ | .scalar _ _ | .link _ => []
termination_by structural s => s
/-- Some selections of a set and all selections inside them, each before what is inside it. -/
def standings (type : TypeId) (set : List ResolvedSelection) : List ResolvedSelection → List Standing
  | [] => []
  | s :: rest => ⟨type, set, s⟩ :: (standingsInside s ++ standings type set rest)
termination_by structural ss => ss
end

namespace ReaderNode

/-- The number of the refetch query that a node refers to. -/
def refetchQuery? : ReaderNode → Option Nat
  | .linked _ _ _ _ _ _ _ refetchQuery _ => refetchQuery
  | .resolver _ _ _ refetchQuery => refetchQuery
  | .scalar _ _ _ _ _ | .link _ | .loadable _ _ _ _ _ => none

mutual
/-- The nodes below a node that read selections. -/
def selectedInside : ReaderNode → List ReaderNode
  | .linked _ _ _ _ _ _ _ _ selections => selected selections
  | .scalar _ _ _ _ _ | .resolver _ _ _ _ | .link _ | .loadable _ _ _ _ _ => []
termination_by structural n => n
/-- The nodes of a tree that read selections, each before those below it. Those that identify what is loaded
are not among them. -/
def selected : List ReaderNode → List ReaderNode
  | [] => []
  | n :: rest => n :: (n.selectedInside ++ selected rest)
termination_by structural ns => ns
end

/-- The numbers that the nodes of a tree carry, each node before those below it. -/
def refetchIndices (tree : List ReaderNode) : List Nat := (all tree).filterMap refetchQuery?

theorem refetchIndices_cons (n : ReaderNode) (rest : List ReaderNode) :
    refetchIndices (n :: rest) = refetchIndices [n] ++ refetchIndices rest := by
  rw [refetchIndices, all, ← List.cons_append, List.filterMap_append, refetchIndices, refetchIndices, all, all,
    List.append_nil]

@[simp] theorem refetchIndices_linked (label fieldName storeKey : String)
    (arguments : List (String × ArgumentValue)) (condition : Option ArtifactId) (typeCondition : Option String)
    (isUpdatable : Bool) (refetchQuery : Option Nat) (selections : List ReaderNode) :
    refetchIndices [.linked label fieldName arguments storeKey condition typeCondition isUpdatable refetchQuery
      selections] = refetchQuery.toList ++ refetchIndices selections := by
  cases refetchQuery <;> simp [refetchIndices, all, inner, List.filterMap_cons, refetchQuery?]

@[simp] theorem refetchIndices_loadable (label fieldName : String)
    (queryArguments : List (String × ArgumentValue)) (identity : List ReaderNode) (entrypoint : ArtifactId) :
    refetchIndices [.loadable label fieldName queryArguments identity entrypoint] = refetchIndices identity := by
  simp [refetchIndices, all, inner, List.filterMap_cons, refetchQuery?]

theorem refetchIndices_identityNodes (g : SchemaGraph) (parent : TypeId) :
    refetchIndices (g.identityNodes parent) = [] := by
  refine List.filterMap_eq_nil_iff.2 fun node member => ?_
  rw [mem_all_identityNodes member]
  rfl

end ReaderNode

/-! ## Numbers -/

mutual
theorem refetchIndices_readerNode (g : SchemaGraph) (parent : TypeId) (whole : List ResolvedSelection)
    (next : Nat) (s : ResolvedSelection) :
    ReaderNode.refetchIndices [(readerNode g next s).1] =
        List.range' next (sitesOfSelection parent whole next s).length ∧
      (readerNode g next s).2 = next + (sitesOfSelection parent whole next s).length := by
  cases s with
  | scalar head updatable => exact ⟨rfl, rfl⟩
  | link head => exact ⟨rfl, rfl⟩
  | linked head target inlineFragment updatable nested =>
    obtain ⟨indices, last⟩ := refetchIndices_readerNodes g target nested next nested
    rw [readerNode, sitesOfSelection, ReaderNode.refetchIndices_linked]
    exact ⟨indices, last⟩
  | pointer head target nested =>
    obtain ⟨indices, last⟩ := refetchIndices_readerNodes g target nested (next + 1) nested
    rw [readerNode, sitesOfSelection, ReaderNode.refetchIndices_linked, List.length_cons, List.range'_succ]
    exact ⟨congrArg (next :: ·) indices, by rw [last]; omega⟩
  | resolver head kind loadable =>
    cases loadable with
    | some options =>
      have none : sitesOfSelection parent whole next (.resolver head kind (some options)) = [] := by
        cases kind <;> rfl
      rw [none, readerNode, ReaderNode.refetchIndices_loadable]
      exact ⟨ReaderNode.refetchIndices_identityNodes g _, rfl⟩
    | none => cases kind <;> exact ⟨rfl, rfl⟩
/-- The numbers in a reader tree count up, one for each site. -/
theorem refetchIndices_readerNodes (g : SchemaGraph) (parent : TypeId) (whole : List ResolvedSelection)
    (next : Nat) (selections : List ResolvedSelection) :
    ReaderNode.refetchIndices (readerNodes g next selections).1 =
        List.range' next (sitesOfSelections parent whole next selections).length ∧
      (readerNodes g next selections).2 = next + (sitesOfSelections parent whole next selections).length := by
  cases selections with
  | nil => exact ⟨rfl, rfl⟩
  | cons s rest =>
    obtain ⟨here, after⟩ := refetchIndices_readerNode g parent whole next s
    obtain ⟨later, last⟩ := refetchIndices_readerNodes g parent whole (readerNode g next s).2 rest
    rw [readerNodes, sitesOfSelections, List.length_append, ← after]
    refine ⟨?_, by rw [last, after]; omega⟩
    rw [ReaderNode.refetchIndices_cons, here, later, after, List.range'_append_1]
end

/-! ## Places -/

/-- A node reads a selection, and its number, if it has one, is the number and the place of the site that the
selection is. -/
structure Carries (g : SchemaGraph) (sites : List RefetchSite) (s : Standing) (node : ReaderNode) : Prop where
  reads : ∃ next, node = (readerNode g next s.selection).1
  site : Option.Rel (fun index site => sites[index]? = some (site index)) node.refetchQuery? s.site?

theorem prefix_drop_append {α : Type} {first later all : List α} {next : Nat}
    (h : first ++ later <+: all.drop next) :
    first <+: all.drop next ∧ later <+: all.drop (next + first.length) := by
  obtain ⟨rest, same⟩ := h
  refine ⟨⟨later ++ rest, by rw [← same, List.append_assoc]⟩, rest, ?_⟩
  rw [← List.drop_drop, ← same, List.append_assoc, List.drop_left]

theorem getElem?_of_prefix_drop {α : Type} {a : α} {later all : List α} {next : Nat}
    (h : a :: later <+: all.drop next) : all[next]? = some a := by
  obtain ⟨rest, same⟩ := h
  rw [← Nat.add_zero next, ← List.getElem?_drop, ← same]
  rfl

mutual
theorem carries_readerNode (g : SchemaGraph) {sites : List RefetchSite} (parent : TypeId)
    (whole : List ResolvedSelection) (next : Nat) (s : ResolvedSelection)
    (listed : sitesOfSelection parent whole next s <+: sites.drop next) :
    Carries g sites ⟨parent, whole, s⟩ (readerNode g next s).1 ∧
      List.Forall₂ (Carries g sites) (standingsInside s) (readerNode g next s).1.selectedInside := by
  cases s with
  | scalar head updatable => exact ⟨⟨⟨next, rfl⟩, .none⟩, .nil⟩
  | link head => exact ⟨⟨⟨next, rfl⟩, .none⟩, .nil⟩
  | linked head target inlineFragment updatable nested =>
    rw [sitesOfSelection] at listed
    exact ⟨⟨⟨next, rfl⟩, .none⟩, carries_readerNodes g target nested next nested listed⟩
  | pointer head target nested =>
    rw [sitesOfSelection] at listed
    refine ⟨⟨⟨next, rfl⟩, .some (getElem?_of_prefix_drop listed)⟩, ?_⟩
    rw [← List.singleton_append] at listed
    exact carries_readerNodes g target nested (next + 1) nested (prefix_drop_append listed).2
  | resolver head kind loadable =>
    refine ⟨⟨⟨next, rfl⟩, ?_⟩, by cases loadable <;> exact .nil⟩
    cases loadable with
    | some options => cases kind <;> exact .none
    | none =>
      cases kind with
      | refetchAction => exact .some (getElem?_of_prefix_drop listed)
      | component | eager | loadableAction => exact .none
/-- Selections and the nodes that read them, one by one: the sites from `next` on are those of the
selections. -/
theorem carries_readerNodes (g : SchemaGraph) {sites : List RefetchSite} (parent : TypeId)
    (whole : List ResolvedSelection) (next : Nat) (selections : List ResolvedSelection)
    (listed : sitesOfSelections parent whole next selections <+: sites.drop next) :
    List.Forall₂ (Carries g sites) (standings parent whole selections)
      (ReaderNode.selected (readerNodes g next selections).1) := by
  cases selections with
  | nil => exact .nil
  | cons s rest =>
    rw [sitesOfSelections] at listed
    obtain ⟨first, later⟩ := prefix_drop_append listed
    have after := (refetchIndices_readerNode g parent whole next s).2
    rw [← after] at later
    obtain ⟨here, inside⟩ := carries_readerNode g parent whole next s first
    rw [standings, readerNodes, ReaderNode.selected]
    exact .cons here (List.rel_append inside (carries_readerNodes g parent whole _ rest later))
end

/-- The numbers in a reader tree are the places of the refetch sites: they count up from zero to the number of
sites, and selection by selection they tell the site that the selection is. -/
structure Numbered (g : SchemaGraph) (parent : TypeId) (selections : List ResolvedSelection)
    (tree : List ReaderNode) : Prop where
  indices : ReaderNode.refetchIndices tree = List.range (refetchSites parent selections).length
  carried : List.Forall₂ (Carries g (refetchSites parent selections)) (standings parent selections selections)
    (ReaderNode.selected tree)

theorem numbered_readerTree (g : SchemaGraph) (parent : TypeId) (selections : List ResolvedSelection) :
    Numbered g parent selections (readerTree g selections) where
  indices := by
    rw [readerTree_eq, refetchSites_eq, (refetchIndices_readerNodes g parent selections 0 selections).1,
      List.range_eq_range']
  carried := by
    rw [readerTree_eq]
    exact carries_readerNodes g parent selections 0 selections
      (refetchSites_eq parent selections ▸ List.prefix_refl _)

/-! ## Queries -/

/-- The queries of an entrypoint, each for a reader that runs when the field is read and a number that this
reader carries. No two are for the same, and none is missing. -/
structure Queried (g : SchemaGraph) (r : Resolution) (field : FieldId) (name : String)
    (pairs : List (ResolvedField × Nat)) (queries : List RefetchQuery) : Prop where
  distinct : (pairs.map fun pair => (pair.1.field, pair.2)).Nodup
  mem_iff : ∀ owner index, (owner, index) ∈ pairs ↔ r.field? owner.field = some owner ∧
    ReflTransGen (Refers r) field owner.field ∧
      index ∈ ReaderNode.refetchIndices (owner.artifacts g).reader
  length : queries.length = pairs.length
  /-- The query for a number requests what the site at that place selects. -/
  query : ∀ (k : Nat) owner index, pairs[k]? = some (owner, index) →
    ∃ site, (refetchSites owner.parent owner.selections)[index]? = some site ∧
      queries[k]? = some ⟨owner.artifactId g, index,
        refetchOperation g r (name ++ "__refetch__" ++ toString k) owner site⟩

variable {r : Resolution}

theorem mem_readers_iff {field : FieldId} (resolved : (r.field? field).isSome = true) {owner : ResolvedField} :
    owner ∈ r.readers field ↔ r.field? owner.field = some owner ∧ ReflTransGen (Refers r) field owner.field := by
  simp only [Resolution.readers, List.mem_filterMap, mem_readerClosure_iff resolved]
  constructor
  · rintro ⟨x, leads, found⟩
    obtain ⟨-, rfl⟩ := Resolution.field_of_field? found
    exact ⟨found, leads⟩
  · rintro ⟨found, leads⟩
    exact ⟨owner.field, leads, found⟩

/-- No reader runs as two owners. -/
theorem nodup_readers (r : Resolution) (field : FieldId) : ((r.readers field).map (·.field)).Nodup := by
  rw [Resolution.readers, List.map_filterMap]
  refine (Traversal.nodup_preorder _ _ field).filterMap fun x y id here there => ?_
  obtain ⟨f, found, rfl⟩ := Option.map_eq_some_iff.1 here
  obtain ⟨f', found', same⟩ := Option.map_eq_some_iff.1 there
  rw [← (Resolution.field_of_field? found).2, ← (Resolution.field_of_field? found').2, same]

/-- Every site that is come to, as its owner and its number there. -/
def pairsFrom (r : Resolution) (field : FieldId) : List (ResolvedField × Nat) :=
  (sitesFrom r field).map fun site => (site.1, site.2.index)

theorem pairsFrom_eq (r : Resolution) (field : FieldId) :
    pairsFrom r field = (r.readers field).flatMap fun owner =>
      (List.range (refetchSites owner.parent owner.selections).length).map (owner, ·) := by
  rw [pairsFrom, sitesFrom, List.map_flatMap]
  refine List.flatMap_congr fun owner _ => ?_
  rw [← map_index_refetchSites, List.map_map, List.map_map]
  rfl

theorem nodup_pairsFrom (r : Resolution) (field : FieldId) :
    ((pairsFrom r field).map fun pair => (pair.1.field, pair.2)).Nodup := by
  rw [pairsFrom_eq, List.map_flatMap]
  refine List.nodup_flatMap.2 ⟨fun owner _ => ?_, ?_⟩
  · rw [List.map_map]
    exact List.nodup_range.map fun a b same => (Prod.mk.inj same).2
  · refine (List.pairwise_map.1 (nodup_readers r field)).imp fun {a b} apart => ?_
    simp only [Function.onFun, List.map_map, List.disjoint_left, List.mem_map]
    rintro _ ⟨i, -, rfl⟩ ⟨j, -, same⟩
    exact apart (Prod.mk.inj same).1.symm

theorem queried_refetchQueries {field : FieldId} {f : ResolvedField} (found : r.field? field = some f)
    (name : String) : Queried g r field name (pairsFrom r field) (refetchQueries g r name field) where
  distinct := nodup_pairsFrom r field
  mem_iff owner index := by
    have indices : ReaderNode.refetchIndices (owner.artifacts g).reader = _ :=
      (numbered_readerTree g owner.parent owner.selections).indices
    rw [indices, ← and_assoc, ← mem_readers_iff (Option.isSome_of_eq_some found), pairsFrom_eq]
    simp
  length := by rw [refetchQueries, List.length_mapIdx, pairsFrom, List.length_map]
  query k owner index here := by
    rw [pairsFrom, List.getElem?_map, Option.map_eq_some_iff] at here
    obtain ⟨⟨owner', site⟩, listed, same⟩ := here
    obtain ⟨rfl, rfl⟩ := Prod.mk.inj same
    refine ⟨site, ?_, by rw [refetchQueries, List.getElem?_mapIdx, listed]; rfl⟩
    have member := List.mem_of_getElem? listed
    rw [sitesFrom, List.mem_flatMap] at member
    obtain ⟨reader, -, owned⟩ := member
    obtain ⟨site', inside, same⟩ := List.mem_map.1 owned
    obtain ⟨rfl, rfl⟩ := Prod.mk.inj same
    exact getElem?_index_of_mem_refetchSites inside

/-- In a built graph, queries for different readers or numbers also differ in what they are known by. -/
theorem Queried.nodup {options : SchemaOptions} {document : SchemaDocument}
    {declarations literals : List Declaration} {field : FieldId} {name : String}
    {pairs : List (ResolvedField × Nat)} {queries : List RefetchQuery}
    (built : SchemaGraph.ofDocument options document declarations = .ok g)
    (resolution : r = (Resolution.ofDeclarations g literals).1)
    (queried : Queried g r field name pairs queries) : (queries.map fun q => (q.owner, q.index)).Nodup := by
  have known : queries.map (fun q => (q.owner, q.index)) =
      pairs.map fun pair => (pair.1.artifactId g, pair.2) := by
    refine List.ext_getElem? fun k => ?_
    rw [List.getElem?_map, List.getElem?_map]
    cases here : pairs[k]? with
    | none =>
      have ended := List.getElem?_eq_none_iff.1 here
      rw [List.getElem?_eq_none (queried.length.trans_le ended)]
      rfl
    | some pair =>
      obtain ⟨site, -, there⟩ := queried.query k pair.1 pair.2 here
      rw [there]
      rfl
  rw [known]
  -- the names of the type and the field tell which field the reader belongs to
  refine List.Nodup.of_map (fun p => (g.fieldByName? p.1.typeName p.1.fieldName, p.2)) ?_
  have found : ∀ pair ∈ pairs, (g.fieldByName? (pair.1.artifactId g).typeName (pair.1.artifactId g).fieldName,
      pair.2) = (some pair.1.field, pair.2) := by
    intro pair member
    obtain ⟨own, -⟩ := (queried.mem_iff pair.1 pair.2).1 member
    obtain ⟨valid, parent⟩ := valid_of_field? built resolution own
    rw [ResolvedField.artifactId, parent, (SchemaGraph.fieldByName?_iff built).2 ⟨valid, rfl, rfl⟩]
  have distinct := queried.distinct.map ((Option.some_injective FieldId).prodMap Function.injective_id)
  rw [List.map_map] at distinct ⊢
  exact (List.map_congr_left found : _ = _) ▸ distinct

/-- **Refetch numbers and refetch queries match.** In the reader tree of every field the numbers count up from
zero, and the node that carries a number reads the selection whose site has that place among the refetch sites
of the field. If the check for cycles passes, the artifact of every plan has one query for each reader that runs
when the planned field is read and each number that this reader carries, no other, and the queries are named in
order. In a built graph no two queries of an artifact agree in their owner and number. -/
theorem queried_of_checkCycles (acyclic : checkCycles g r = .ok ()) :
    (∀ f ∈ r.fields, Numbered g f.parent f.selections (f.artifacts g).reader) ∧
    ∃ artifacts, r.entrypointArtifacts g = .ok artifacts ∧
      List.Forall₂ (fun plan e => ∃ pairs,
          Queried g r plan.field.field e.operation.name pairs e.refetchQueries) (r.plans g) artifacts ∧
      ∀ options document declarations literals,
        SchemaGraph.ofDocument options document declarations = .ok g →
        r = (Resolution.ofDeclarations g literals).1 →
        ∀ e ∈ artifacts, (e.refetchQueries.map fun q => (q.owner, q.index)).Nodup := by
  refine ⟨fun f _ => numbered_readerTree g f.parent f.selections, (r.plans g).map (·.artifact g r),
    entrypointArtifacts_eq_ok_iff.2 ⟨acyclic, rfl⟩, ?_, ?_⟩
  · refine List.forall₂_map_right_iff.2 (List.forall₂_same.2 fun plan planned => ⟨pairsFrom r plan.field.field, ?_⟩)
    rw [Plan.artifact, name_fetchOperation]
    exact queried_refetchQueries (field?_of_mem_plans planned) plan.queryName
  · intro options document declarations literals built resolution e member
    obtain ⟨plan, planned, rfl⟩ := List.mem_map.1 member
    exact (queried_refetchQueries (field?_of_mem_plans planned) plan.queryName).nodup built resolution

/-- A card that can be requested again is shown for a user and for a friend of the user. -/
def refetchedTexts : List String :=
  ["field User.card @component \x7b id __refetch \x7d", "pointer User.friend to User \x7b id card \x7d",
    "field Query.home \x7b me \x7b card friend \x7b card __refetch \x7d \x7d \x7d", "entrypoint Query.home"]

theorem queried_of_checkCycles_cards :
    ∃ artifacts,
      (Resolution.ofDeclarations (userGraph sizeArgument [] refetchedTexts)
        (declarationsOf refetchedTexts)).1.entrypointArtifacts (userGraph sizeArgument [] refetchedTexts) = .ok artifacts ∧
      (∀ e ∈ artifacts, (e.refetchQueries.map fun q => (q.owner, q.index)).Nodup) ∧
      artifacts.map (fun e => e.refetchQueries.map fun q => (q.owner.render, q.index, q.operation.name)) =
        [[("Query.home", 0, "home__refetch__0"), ("Query.home", 1, "home__refetch__1"),
          ("User.card", 0, "home__refetch__2")]] := by
  have facts : (SchemaGraph.ofDocument ⟨true⟩ (userDocument sizeArgument [])
        (declarationsOf refetchedTexts)).isOk = true ∧
      (checkCycles (userGraph sizeArgument [] refetchedTexts) (Resolution.ofDeclarations
        (userGraph sizeArgument [] refetchedTexts) (declarationsOf refetchedTexts)).1).isOk = true ∧
      ((Resolution.ofDeclarations (userGraph sizeArgument [] refetchedTexts)
        (declarationsOf refetchedTexts)).1.entrypointArtifacts
          (userGraph sizeArgument [] refetchedTexts)).toOption.map
        (·.map fun e => e.refetchQueries.map fun q => (q.owner.render, q.index, q.operation.name)) =
      some [[("Query.home", 0, "home__refetch__0"), ("Query.home", 1, "home__refetch__1"),
        ("User.card", 0, "home__refetch__2")]] := by
    decide +kernel
  obtain ⟨possible, acyclic, queries⟩ := facts
  obtain ⟨-, artifacts, run, -, distinct⟩ := queried_of_checkCycles (checkCycles_of_isOk acyclic)
  rw [run] at queries
  exact ⟨artifacts, run, distinct _ _ _ _ (built_userGraph possible) rfl, Option.some.inj queries⟩

end IsoLiteral
