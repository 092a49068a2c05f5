import IsoLiteral.Proofs.Operation.Path
import IsoLiteral.Proofs.Value.Order

/-!
# Sets of selections

A set of an operation holds selections, and selections hold further sets, each found at the end of a path
(`SetAt`): the paths of a set are those to the selections of the sets inside it. The entries of a set stand in the
order of their keys (`Sorted`), no key twice, and an update keeps them so: it puts its key where the order wants
it, makes a fresh entry only if the key is new, and leaves all other entries as they are.
-/

namespace IsoLiteral

open MergedSet

/-! ## Sets inside sets -/

/-- What is selected inside, if anything can be. -/
def MergedSelection.inner? : MergedSelection → Option MergedSet
  | .scalar _ _ => none
  | .linked _ _ _ selections => some selections
  | .inlineFragment _ selections => some selections

namespace MergedSelection

/-- The step that a selection makes. -/
def segment : MergedSelection → Segment
  | .scalar fieldName arguments => .scalar fieldName arguments
  | .linked fieldName arguments _ _ => .linked fieldName arguments
  | .inlineFragment typeName _ => .fragment typeName

@[simp] theorem segment_mapSelections (change : MergedSet → MergedSet) (m : MergedSelection) :
    (m.mapSelections change).segment = m.segment := by
  cases m <;> rfl

@[simp] theorem inner?_mapSelections (change : MergedSet → MergedSet) (m : MergedSelection) :
    (m.mapSelections change).inner? = m.inner?.map change := by
  cases m <;> rfl

theorem mem_paths_iff {m : MergedSelection} {p : List Segment} :
    p ∈ m.paths ↔ p = [m.segment] ∨ ∃ inner, m.inner? = some inner ∧ ∃ q ∈ MergedSet.paths inner,
      p = m.segment :: q := by
  cases m <;> simp [paths, segment, inner?, eq_comm]

end MergedSelection

/-- The key under which a step into a set is found. A value has no set. -/
def Segment.key? : Segment → Option SelectionKey
  | .scalar _ _ => none
  | .linked fieldName arguments => some (.serverField fieldName arguments)
  | .fragment typeName => some (.inlineFragment typeName)

theorem Segment.eq_of_key? {s t : Segment} {key : SelectionKey} (h : s.key? = some key)
    (h' : t.key? = some key) : s = t := by
  cases s <;> cases t <;> cases h <;> cases h' <;> rfl

theorem MergedSelection.isSome_inner? (m : MergedSelection) : m.inner?.isSome = m.segment.key?.isSome := by
  cases m <;> rfl

namespace MergedSet

/-- The set at the end of a path. -/
inductive SetAt : MergedSet → List Segment → MergedSet → Prop where
  | here {set} : SetAt set [] set
  | inside {set key m inner p found} (member : (key, m) ∈ set) (leads : m.inner? = some inner)
      (deeper : SetAt inner p found) : SetAt set (m.segment :: p) found

variable {set found inner : MergedSet} {p : List Segment}

theorem SetAt.snoc (h : SetAt set p found) {key : SelectionKey} {m : MergedSelection} (member : (key, m) ∈ found)
    (leads : m.inner? = some inner) : SetAt set (p ++ [m.segment]) inner := by
  induction h with
  | here => exact .inside member leads .here
  | inside outer into _ ih => exact .inside outer into (ih member)

/-- A path to a set steps into a set each time. -/
theorem SetAt.isSome_key? (h : SetAt set p found) : ∀ s ∈ p, s.key?.isSome = true := by
  induction h with
  | here => simp
  | inside _ leads _ ih =>
    refine List.forall_mem_cons.2 ⟨?_, ih⟩
    rw [← MergedSelection.isSome_inner?, leads]
    rfl

theorem mem_paths_iff_exists_mem : p ∈ paths set ↔ ∃ entry ∈ set, p ∈ entry.2.paths := by
  induction set with
  | nil => simp [paths]
  | cons entry rest ih => simp [paths, ih]

/-- The paths of a set are those to the selections of the sets inside it. -/
theorem mem_paths_iff_setAt :
    p ∈ paths set ↔ ∃ q found, SetAt set q found ∧ ∃ entry ∈ found, p = q ++ [entry.2.segment] := by
  constructor
  · intro member
    induction p generalizing set with
    | nil =>
      obtain ⟨entry, -, listed⟩ := mem_paths_iff_exists_mem.1 member
      rcases MergedSelection.mem_paths_iff.1 listed with none | ⟨_, _, _, _, none⟩ <;> cases none
    | cons s rest ih =>
      obtain ⟨entry, here, listed⟩ := mem_paths_iff_exists_mem.1 member
      rcases MergedSelection.mem_paths_iff.1 listed with same | ⟨inner, leads, q, deeper, same⟩
      · exact ⟨[], set, .here, entry, here, same⟩
      · obtain ⟨rfl, rfl⟩ := List.cons.inj same
        obtain ⟨q, found, at_, last, inside, rfl⟩ := ih deeper
        exact ⟨_, found, .inside here leads at_, last, inside, rfl⟩
  · rintro ⟨q, found, at_, entry, inside, rfl⟩
    induction at_ with
    | here => exact mem_paths_iff_exists_mem.2 ⟨entry, inside, MergedSelection.mem_paths_iff.2 (.inl rfl)⟩
    | inside here leads _ ih =>
      refine mem_paths_iff_exists_mem.2 ⟨_, here, MergedSelection.mem_paths_iff.2 (.inr ⟨_, leads, _, ih inside, rfl⟩)⟩

/-! ## Entries in the order of their keys -/

/-- The entries are in the order of their keys, so no key is there twice. -/
def Sorted (set : MergedSet) : Prop := set.Pairwise fun a b => a.1.compare b.1 = .lt

variable {key : SelectionKey} {fresh : MergedSelection} {change : MergedSelection → MergedSelection}

/-- An update adds its key and takes none away. -/
theorem mem_keys_update {k : SelectionKey} :
    k ∈ (MergedSet.update key fresh change set).map Prod.fst ↔ k = key ∨ k ∈ set.map Prod.fst := by
  induction set with
  | nil => simp [MergedSet.update]
  | cons entry rest ih =>
    obtain ⟨other, m⟩ := entry
    rw [MergedSet.update]
    split
    · simp
    · rename_i same
      obtain rfl := (SelectionKey.compare_eq_iff key other).1 same
      simp
    · rw [List.map_cons, List.mem_cons, ih, List.map_cons, List.mem_cons]
      tauto

theorem update_ne_nil : MergedSet.update key fresh change set ≠ [] := by
  intro none
  have here : key ∈ (MergedSet.update key fresh change set).map Prod.fst := mem_keys_update.2 (.inl rfl)
  rw [none] at here
  cases here

theorem Sorted.update (sorted : set.Sorted) : (update key fresh change set).Sorted := by
  induction set with
  | nil => simp [MergedSet.update, Sorted]
  | cons entry rest ih =>
    obtain ⟨k, m⟩ := entry
    obtain ⟨first, later⟩ := List.pairwise_cons.1 sorted
    rw [MergedSet.update]
    split
    · rename_i less
      refine List.pairwise_cons.2 ⟨List.forall_mem_cons.2 ⟨less, fun e member => ?_⟩, sorted⟩
      exact Std.TransCmp.lt_trans less (first e member)
    · exact List.pairwise_cons.2 ⟨first, later⟩
    · rename_i more
      refine List.pairwise_cons.2 ⟨fun e member => ?_, ih later⟩
      rcases mem_keys_update.1 (List.mem_map_of_mem member) with same | old
      · rw [same]
        exact Std.OrientedCmp.lt_of_gt more
      · obtain ⟨old, listed, same⟩ := List.mem_map.1 old
        rw [← same]
        exact first old listed

/-- An update of sorted entries makes a fresh one only if the key is new, and leaves those with other keys as
they are. -/
theorem Sorted.forall_mem_update (sorted : set.Sorted) (holds : SelectionKey → MergedSelection → Prop)
    (others : ∀ entry ∈ set, entry.1 ≠ key → holds entry.1 entry.2)
    (new : key ∉ set.map Prod.fst → holds key (change fresh))
    (old : ∀ m, (key, m) ∈ set → holds key (change m)) :
    ∀ entry ∈ MergedSet.update key fresh change set, holds entry.1 entry.2 := by
  have irreflexive {k : SelectionKey} : k.compare k ≠ .lt := by
    rw [(SelectionKey.compare_eq_iff k k).2 rfl]
    exact nofun
  induction set with
  | nil => exact List.forall_mem_singleton.2 (new (by simp))
  | cons entry rest ih =>
    obtain ⟨k, m⟩ := entry
    obtain ⟨first, later⟩ := List.pairwise_cons.1 sorted
    rw [MergedSet.update]
    split
    · rename_i less
      have absent : ∀ e ∈ (k, m) :: rest, e.1 ≠ key := by
        refine List.forall_mem_cons.2 ⟨?_, fun e member => ?_⟩
        · rintro rfl
          exact irreflexive less
        · rintro rfl
          exact irreflexive (Std.TransCmp.lt_trans less (first e member))
      refine List.forall_mem_cons.2 ⟨new fun known => ?_, fun e member => others e member (absent e member)⟩
      obtain ⟨e, member, same⟩ := List.mem_map.1 known
      exact absent e member same
    · rename_i same
      obtain rfl := (SelectionKey.compare_eq_iff key k).1 same
      refine List.forall_mem_cons.2 ⟨old m List.mem_cons_self, fun e member => ?_⟩
      refine others e (List.mem_cons_of_mem _ member) ?_
      rintro rfl
      exact irreflexive (first e member)
    · rename_i more
      have apart : k ≠ key := by
        rintro rfl
        rw [(SelectionKey.compare_eq_iff k k).2 rfl] at more
        cases more
      refine List.forall_mem_cons.2 ⟨others _ List.mem_cons_self apart, ?_⟩
      refine ih later (fun e member => others e (List.mem_cons_of_mem _ member)) (fun absent => new ?_)
        fun m member => old m (List.mem_cons_of_mem _ member)
      simpa [apart.symm] using absent

end MergedSet

end IsoLiteral
