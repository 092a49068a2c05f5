import IsoLiteral.Proofs.Operation.Sets

/-!
# Keys in order

Keys compare in a total order, however their arguments are nested, and an update puts its key where that order
wants it. So every set lists its keys once each (`InKeyOrder`): `id` first, then the fields of the server by name
and arguments, then the fragments by type. Which keys came first makes no difference, neither to a set by itself
nor to the sets inside the sets that merging gives.
-/

namespace IsoLiteral

open MergedSet

/-! ## A total order -/

/-- A comparison by a total order, in which only equal things compare as equal. -/
structure IsTotalOrder {α : Type} (cmp : α → α → Ordering) : Prop where
  same_iff : ∀ a b, cmp a b = .eq ↔ a = b
  swap : ∀ a b, (cmp a b).swap = cmp b a
  antisymm : ∀ a b, (cmp a b).isLE = true → (cmp b a).isLE = true → a = b
  trans : ∀ a b c, (cmp a b).isLE = true → (cmp b c).isLE = true → (cmp a c).isLE = true
  total : ∀ a b, (cmp a b).isLE = true ∨ (cmp b a).isLE = true

namespace SelectionKey

theorem isTotalOrder_compare : IsTotalOrder compare := by
  constructor
  case same_iff => exact compare_eq_iff
  case swap => exact swap_compare
  case antisymm =>
    intro a b first second
    apply (compare_eq_iff a b).1
    exact Std.OrientedCmp.isLE_antisymm first second
  case trans =>
    intro a b c first second
    exact Std.TransCmp.isLE_trans first second
  case total =>
    intro a b
    rw [← swap_compare a b]
    cases compare a b with
    | lt => exact .inl rfl
    | eq => exact .inl rfl
    | gt => exact .inr rfl

theorem ne_of_lt {a b : SelectionKey} (less : a.compare b = .lt) : a ≠ b := by
  rintro rfl
  rw [(compare_eq_iff a a).2 rfl] at less
  cases less

end SelectionKey

/-! ## Listed keys -/

/-- Keys are listed once each: `id`, the fields of the server by name and arguments, and the fragments by type. -/
structure InKeyOrder (keys : List SelectionKey) : Prop where
  once : keys.Nodup
  listed : ∃ fields : List (String × List (String × Value)), ∃ fragments : List String,
    keys = (if .id ∈ keys then [.id] else []) ++ fields.map (fun f => .serverField f.1 f.2) ++
        fragments.map .inlineFragment ∧
      (fields.Pairwise fun f f' =>
        compare f.1 f'.1 = .lt ∨ f.1 = f'.1 ∧ Value.compareFields f.2 f'.2 = .lt) ∧
      fragments.Pairwise fun s t => compare s t = .lt

/-- Keys that each come before all later ones are listed in order. -/
theorem inKeyOrder_of_pairwise {keys : List SelectionKey}
    (sorted : keys.Pairwise fun a b => a.compare b = .lt) : InKeyOrder keys := by
  refine ⟨sorted.imp SelectionKey.ne_of_lt, ?_⟩
  induction keys with
  | nil => exact ⟨[], [], rfl, .nil, .nil⟩
  | cons key rest ih =>
    obtain ⟨first, later⟩ := List.pairwise_cons.1 sorted
    obtain ⟨fields, fragments, split, byName, byType⟩ := ih later
    -- nothing comes before `id`, so it is not among the later keys
    have noId : .id ∉ rest := by
      intro member
      have less := first _ member
      cases key <;> cases less
    rw [if_neg noId, List.nil_append] at split
    have isField : ∀ f ∈ fields, SelectionKey.serverField f.1 f.2 ∈ rest := by
      intro f member
      rw [split]
      exact List.mem_append_left _ (List.mem_map.2 ⟨f, member, rfl⟩)
    have isFragment : ∀ t ∈ fragments, SelectionKey.inlineFragment t ∈ rest := by
      intro t member
      rw [split]
      exact List.mem_append_right _ (List.mem_map.2 ⟨t, member, rfl⟩)
    cases key with
    | id =>
      refine ⟨fields, fragments, ?_, byName, byType⟩
      rw [if_pos List.mem_cons_self, List.append_assoc, ← split, List.singleton_append]
    | serverField name arguments =>
      refine ⟨(name, arguments) :: fields, fragments, ?_, ?_, byType⟩
      · have absent : .id ∉ SelectionKey.serverField name arguments :: rest := by simp [noId]
        rw [if_neg absent, List.nil_append, List.map_cons, List.cons_append, ← split]
      · refine List.pairwise_cons.2 ⟨fun f member => ?_, byName⟩
        have less := first _ (isField f member)
        rwa [SelectionKey.compare, Ordering.then_eq_lt, Std.LawfulEqOrd.compare_eq_iff_eq] at less
    | inlineFragment typeName =>
      -- no field comes after a fragment
      have noField : fields = [] := by
        rw [List.eq_nil_iff_forall_not_mem]
        intro f member
        cases first _ (isField f member)
      rw [noField, List.map_nil, List.nil_append] at split
      refine ⟨[], typeName :: fragments, ?_, .nil, ?_⟩
      · have absent : .id ∉ SelectionKey.inlineFragment typeName :: rest := by simp [noId]
        rw [if_neg absent, List.map_nil, List.nil_append, List.nil_append, List.map_cons, ← split]
      · exact List.pairwise_cons.2 ⟨fun t member => first _ (isFragment t member), byType⟩

namespace MergedSet

variable {set : MergedSet} {key : SelectionKey} {fresh : MergedSelection}
  {change : MergedSelection → MergedSelection}

theorem Sorted.pairwise_keys (sorted : set.Sorted) :
    (set.map Prod.fst).Pairwise fun a b => a.compare b = .lt :=
  List.pairwise_map.2 sorted

theorem Sorted.inKeyOrder (sorted : set.Sorted) : InKeyOrder (set.map Prod.fst) :=
  inKeyOrder_of_pairwise sorted.pairwise_keys

/-! ## Insertions in any order -/

/-- One update of a set: what stands under the key, or else a fresh selection, is changed. -/
structure Insertion where
  key : SelectionKey
  fresh : MergedSelection
  change : MergedSelection → MergedSelection

/-- The set that some updates come to, one after another. -/
def ofInsertions (insertions : List Insertion) : MergedSet :=
  insertions.foldl (fun set i => MergedSet.update i.key i.fresh i.change set) []

theorem ofInsertions_concat (insertions : List Insertion) (i : Insertion) :
    ofInsertions (insertions ++ [i]) = MergedSet.update i.key i.fresh i.change (ofInsertions insertions) := by
  rw [ofInsertions, List.foldl_append]
  rfl

theorem sorted_ofInsertions (insertions : List Insertion) : (ofInsertions insertions).Sorted := by
  induction insertions using List.reverseRecOn with
  | nil => exact .nil
  | append_singleton insertions i ih =>
    rw [ofInsertions_concat]
    exact ih.update

theorem mem_keys_ofInsertions_iff (insertions : List Insertion) (key : SelectionKey) :
    key ∈ (ofInsertions insertions).map Prod.fst ↔ key ∈ insertions.map Insertion.key := by
  induction insertions using List.reverseRecOn with
  | nil => rfl
  | append_singleton insertions i ih =>
    rw [ofInsertions_concat, mem_keys_update, ih, List.map_append, List.mem_append, List.map_singleton,
      List.mem_singleton, or_comm]

/-- Sets in order that have the same keys list them in the same way. -/
theorem Sorted.keys_eq {other : MergedSet} (sorted : set.Sorted) (sorted' : other.Sorted)
    (same : ∀ key, key ∈ set.map Prod.fst ↔ key ∈ other.map Prod.fst) :
    set.map Prod.fst = other.map Prod.fst := by
  have alike : (set.map Prod.fst).Perm (other.map Prod.fst) :=
    (List.perm_ext_iff_of_nodup sorted.inKeyOrder.once sorted'.inKeyOrder.once).2 same
  refine alike.eq_of_pairwise (fun a b _ _ less more => ?_) sorted.pairwise_keys sorted'.pairwise_keys
  rw [Std.OrientedCmp.gt_of_lt less] at more
  cases more

theorem keys_ofInsertions_eq {insertions others : List Insertion}
    (same : ∀ key, key ∈ insertions.map Insertion.key ↔ key ∈ others.map Insertion.key) :
    (ofInsertions insertions).map Prod.fst = (ofInsertions others).map Prod.fst := by
  apply (sorted_ofInsertions insertions).keys_eq (sorted_ofInsertions others)
  intro key
  rw [mem_keys_ofInsertions_iff, mem_keys_ofInsertions_iff]
  exact same key

/-! ## Sets that merging gives -/

/-- A set and all sets inside it are in order. -/
def SortedThroughout (set : MergedSet) : Prop := ∀ p found, SetAt set p found → found.Sorted

theorem sortedThroughout_iff : SortedThroughout set ↔
    set.Sorted ∧ ∀ entry ∈ set, ∀ inner, entry.2.inner? = some inner → SortedThroughout inner := by
  constructor
  · intro all
    exact ⟨all [] set .here, fun entry member inner leads p found deeper =>
      all _ found (.inside member leads deeper)⟩
  · rintro ⟨sorted, inside⟩ p found at_
    cases at_ with
    | here => exact sorted
    | inside member leads deeper => exact inside _ member _ leads _ found deeper

theorem sortedThroughout_nil : SortedThroughout [] :=
  sortedThroughout_iff.2 ⟨.nil, by simp⟩

/-- An update keeps everything in order, if what it changes stays in order inside. -/
theorem SortedThroughout.update (all : SortedThroughout set)
    (new : ∀ inner, (change fresh).inner? = some inner → SortedThroughout inner)
    (old : ∀ m, (∀ inner, m.inner? = some inner → SortedThroughout inner) →
      ∀ inner, (change m).inner? = some inner → SortedThroughout inner) :
    SortedThroughout (MergedSet.update key fresh change set) := by
  obtain ⟨sorted, inside⟩ := sortedThroughout_iff.1 all
  apply sortedThroughout_iff.2
  refine ⟨sorted.update, ?_⟩
  apply sorted.forall_mem_update fun _ m => ∀ inner, m.inner? = some inner → SortedThroughout inner
  · exact fun entry member _ => inside entry member
  · exact fun _ => new
  · exact fun m member => old m (inside _ member)

/-- A change of the sets inside selections keeps them in order, if it keeps every set in order. -/
theorem SortedThroughout.updateSets {grow : MergedSet → MergedSet} (all : SortedThroughout set)
    (empty : ∀ inner, fresh.inner? = some inner → inner = [])
    (grows : ∀ inner, SortedThroughout inner → SortedThroughout (grow inner)) :
    SortedThroughout (MergedSet.update key fresh (MergedSelection.mapSelections grow) set) := by
  apply all.update
  · intro inner leads
    rw [MergedSelection.inner?_mapSelections, Option.map_eq_some_iff] at leads
    obtain ⟨before, leads, rfl⟩ := leads
    rw [empty before leads]
    exact grows [] sortedThroughout_nil
  · intro m inside inner leads
    rw [MergedSelection.inner?_mapSelections, Option.map_eq_some_iff] at leads
    obtain ⟨before, leads, rfl⟩ := leads
    exact grows before (inside before leads)

theorem SortedThroughout.insertScalar (all : SortedThroughout set) (key : SelectionKey) (fieldName : String)
    (arguments : List (String × Value)) :
    SortedThroughout (insertNew key (.scalar fieldName arguments) set) := by
  apply all.update
  · intro inner leads
    cases leads
  · exact fun _ inside => inside

theorem SortedThroughout.complete (all : SortedThroughout set) (g : SchemaGraph) (type : TypeId)
    (withTypename : Bool) : SortedThroughout (complete g type withTypename set) := by
  have withId : SortedThroughout
      (if (g.idField? type).isSome then insertNew .id (.plain "id") set else set) := by
    split
    · exact all.insertScalar _ _ _
    · exact all
  rw [MergedSet.complete]
  cases withTypename with
  | false => exact withId
  | true => exact withId.insertScalar _ _ _

mutual
/-- **Merging a request** keeps all sets in order. -/
theorem sortedThroughout_mergeInto (g : SchemaGraph) (r : Request) {set : MergedSet}
    (all : SortedThroughout set) : SortedThroughout (r.mergeInto g set) := by
  cases r with
  | scalar key fieldName arguments =>
    rw [Request.mergeInto]
    exact all.insertScalar key fieldName arguments
  | linked fieldName arguments target nested =>
    rw [Request.mergeInto]
    apply all.updateSets
    · rintro inner ⟨⟩
      rfl
    · intro inner sorted
      exact (sortedThroughout_mergeRequestsInto g nested sorted).complete g target _
  | fragment target nested =>
    rw [Request.mergeInto]
    apply all.updateSets
    · rintro inner ⟨⟩
      rfl
    · intro inner sorted
      exact (sortedThroughout_mergeRequestsInto g nested sorted).complete g target _
/-- Merging requests one after another keeps all sets in order. -/
theorem sortedThroughout_mergeRequestsInto (g : SchemaGraph) (rs : List Request) {set : MergedSet}
    (all : SortedThroughout set) : SortedThroughout (mergeRequestsInto g rs set) := by
  cases rs with
  | nil =>
    rw [mergeRequestsInto]
    exact all
  | cons r rest =>
    rw [mergeRequestsInto]
    exact sortedThroughout_mergeRequestsInto g rest (sortedThroughout_mergeInto g r all)
end

theorem sortedThroughout_mergeSelections (g : SchemaGraph) (r : Resolution) (parent : TypeId)
    (c : VariableContext) (selections : List ResolvedSelection) :
    SortedThroughout (mergeSelections g r parent c selections) :=
  sortedThroughout_mergeRequestsInto g _ sortedThroughout_nil

/-- A single selection is in order, if the set inside it is. -/
theorem sortedThroughout_singleton {m : MergedSelection}
    (inside : ∀ inner, m.inner? = some inner → SortedThroughout inner) : SortedThroughout [(key, m)] :=
  sortedThroughout_iff.2 ⟨List.pairwise_singleton _ _, List.forall_mem_singleton.2 inside⟩

theorem SortedThroughout.nodeWrapper (all : SortedThroughout set) (g : SchemaGraph) (target : TypeId) :
    SortedThroughout (nodeWrapper g target set) := by
  apply sortedThroughout_singleton
  rintro node ⟨⟩
  apply SortedThroughout.complete
  apply sortedThroughout_singleton
  rintro inner ⟨⟩
  exact all.complete g target true

/-- A set and all sets inside it list their keys in order. -/
def ListsKeysInOrder (set : MergedSet) : Prop :=
  ∀ p found, SetAt set p found → InKeyOrder (found.map Prod.fst)

theorem SortedThroughout.listsKeysInOrder (all : SortedThroughout set) : ListsKeysInOrder set :=
  fun p found at_ => (all p found at_).inKeyOrder

end MergedSet

/-- **Keys are listed in a total order.** Whatever is inserted in whatever order, a set lists exactly the keys that
were inserted, in one way, and so does every set inside the sets that selections are merged into. -/
theorem keys_listed_in_order :
    IsTotalOrder SelectionKey.compare ∧
      (∀ insertions : List Insertion, InKeyOrder ((ofInsertions insertions).map Prod.fst) ∧
        ∀ key, key ∈ (ofInsertions insertions).map Prod.fst ↔ key ∈ insertions.map Insertion.key) ∧
      (∀ insertions others : List Insertion,
        (∀ key, key ∈ insertions.map Insertion.key ↔ key ∈ others.map Insertion.key) →
          (ofInsertions insertions).map Prod.fst = (ofInsertions others).map Prod.fst) ∧
      ∀ (g : SchemaGraph) (r : Resolution) (parent : TypeId) (c : VariableContext)
        (selections : List ResolvedSelection),
        ListsKeysInOrder (mergeSelections g r parent c selections) ∧
          ∀ target, ListsKeysInOrder (nodeWrapper g target (mergeSelections g r parent c selections)) := by
  refine ⟨SelectionKey.isTotalOrder_compare, fun insertions => ⟨?_, ?_⟩, fun insertions others same => ?_,
    fun g r parent c selections => ?_⟩
  · exact (sorted_ofInsertions insertions).inKeyOrder
  · exact mem_keys_ofInsertions_iff insertions
  · exact keys_ofInsertions_eq same
  · have merged := sortedThroughout_mergeSelections g r parent c selections
    exact ⟨merged.listsKeysInOrder, fun target => (merged.nodeWrapper g target).listsKeysInOrder⟩

/-- Insertions of four keys, in the reverse of their order. -/
def cardInsertions : List Insertion :=
  [.inlineFragment "User", .serverField "name" [("size", .int 1)], .serverField "name" [], .id].map
    fun key => ⟨key, .plain "name", id⟩

theorem keys_listed_in_order_card :
    (∀ key, key ∈ cardInsertions.map Insertion.key ↔ key ∈ cardInsertions.reverse.map Insertion.key) ∧
      (ofInsertions cardInsertions).map Prod.fst = (ofInsertions cardInsertions.reverse).map Prod.fst ∧
      (ofInsertions cardInsertions).map Prod.fst =
        [.id, .serverField "name" [], .serverField "name" [("size", .int 1)], .inlineFragment "User"] := by
  have same : ∀ key, key ∈ cardInsertions.map Insertion.key ↔
      key ∈ cardInsertions.reverse.map Insertion.key := by
    intro key
    rw [List.map_reverse, List.mem_reverse]
  exact ⟨same, keys_listed_in_order.2.2.1 _ _ same, by decide⟩

end IsoLiteral
