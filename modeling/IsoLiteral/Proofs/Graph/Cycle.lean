import IsoLiteral.Graph.Cycle
import IsoLiteral.Proofs.Graph.Component

/-!
# Components and cycles

The components with cycles are the classes of vertices that lie on a common cycle. The search for a way back
to the root of one succeeds: it stops early only if it has tried everything that the root leads to, and the
vertex before the root on any cycle is among that.
-/

namespace IsoLiteral.Cycle

open Relation Traversal

variable {α : Type} {successors : α → List α} {vertices : List α}

/-- Each of two vertices leads to the other along a relation. -/
def OnCycle (step : α → α → Prop) (a b : α) : Prop := TransGen step a b ∧ TransGen step b a

section OnCycle

variable {step : α → α → Prop} {a b c : α}

theorem OnCycle.symm (h : OnCycle step a b) : OnCycle step b a := ⟨h.2, h.1⟩

theorem OnCycle.trans (h : OnCycle step a b) (h' : OnCycle step b c) : OnCycle step a c :=
  ⟨h.1.trans h'.1, h'.2.trans h.2⟩

theorem OnCycle.self (h : OnCycle step a b) : TransGen step a a := h.1.trans h.2

end OnCycle

/-! ## Components -/

section Components

variable [DecidableEq α]

/-- **The components that have cycles** are the classes of vertices on a common cycle, each listed from its root
on. -/
theorem cyclicComponents_spec (closed : ∀ a ∈ vertices, ∀ b ∈ successors a, b ∈ vertices) :
    (∀ c ∈ cyclicComponents successors vertices, ∃ root others, c = root :: others ∧ root ∈ vertices ∧
      TransGen (Edge successors) root root ∧
        ∀ u, u ∈ c ↔ u ∈ vertices ∧ OnCycle (Edge successors) root u) ∧
    (cyclicComponents successors vertices).Pairwise
      (fun c d => ∀ a ∈ c, ∀ b ∈ d, ¬ OnCycle (Edge successors) a b) ∧
    ∀ v ∈ vertices, TransGen (Edge successors) v v → ∃ c ∈ cyclicComponents successors vertices, v ∈ c := by
  obtain ⟨complete, every⟩ := ComponentSearch.complete_allComponents closed
  have listed {c : List α} (member : c ∈ cyclicComponents successors vertices) :
      c ∈ ComponentSearch.allComponents successors vertices := List.mem_of_mem_filter member
  refine ⟨fun c member => ?_, ?_, fun v member around => ?_⟩
  · obtain ⟨root, others, rfl⟩ := List.exists_cons_of_ne_nil (complete.nonempty c (listed member))
    have around := (complete.hasCycle_iff (listed member)).1 (List.mem_filter.1 member).2
    have inside {u : α} (other : u ∈ root :: others) : u ∈ vertices :=
      (every u).1 (List.mem_flatten.2 ⟨_, listed member, other⟩)
    refine ⟨root, others, rfl, inside List.mem_cons_self, around, fun u => ?_⟩
    rw [complete.mem_iff (listed member) List.mem_cons_self]
    constructor
    · rintro ⟨out, back⟩
      refine ⟨inside ((complete.mem_iff (listed member) List.mem_cons_self).2 ⟨out, back⟩), ?_⟩
      exact ⟨around.trans_left out, TransGen.trans_right back around⟩
    · exact fun other => ⟨other.2.1.to_reflTransGen, other.2.2.to_reflTransGen⟩
  · refine (complete.pairwise.filter _).imp_of_mem fun {c d} first _ apart a inC b inD onCycle => ?_
    have same := (complete.mem_iff (listed first) inC).2
      ⟨onCycle.1.to_reflTransGen, onCycle.2.to_reflTransGen⟩
    exact apart b same inD
  · obtain ⟨c, found, inside⟩ := List.mem_flatten.1 ((every v).2 member)
    obtain ⟨root, others, rfl⟩ := List.exists_cons_of_ne_nil (complete.nonempty c found)
    obtain ⟨out, back⟩ := (complete.mem_iff found List.mem_cons_self).1 inside
    have cyclic := (complete.hasCycle_iff found).2 ((TransGen.trans_right out around).trans_left back)
    exact ⟨_, List.mem_filter.2 ⟨found, cyclic⟩, inside⟩

end Components

/-! ## Ways back -/

section Search

variable {goal : α}

/-- A way from a vertex to the goal, past vertices that were not tried before; the goal ends it and is
not listed. -/
structure IsWay (successors : α → List α) (goal : α) (tried : List α) (v : α) (way : List α) :
    Prop where
  head : (way ++ [goal]).head? = some v
  chain : (way ++ [goal]).IsChain (Edge successors)
  nodup : way.Nodup
  untried : ∀ u ∈ way, u ∉ tried

theorem IsWay.mono {tried more : List α} {v : α} {way : List α} (h : IsWay successors goal more v way)
    (grows : ∀ u ∈ tried, u ∈ more) : IsWay successors goal tried v way :=
  ⟨h.head, h.chain, h.nodup, fun u member known => h.untried u member (grows u known)⟩

/-- A way goes on backwards along an edge. -/
theorem IsWay.cons {tried : List α} {v u : α} {way : List α} (step : u ∈ successors v)
    (new : v ∉ tried) (h : IsWay successors goal (v :: tried) u way) :
    IsWay successors goal tried v (v :: way) where
  head := rfl
  chain := by
    have first := h.head
    rw [List.cons_append]
    cases rest : way ++ [goal] with
    | nil => simp at rest
    | cons w ws =>
      rw [rest, List.head?_cons, Option.some.injEq] at first
      subst first
      exact .cons_cons step (rest ▸ h.chain)
  nodup := List.nodup_cons.2 ⟨fun member => h.untried v member List.mem_cons_self, h.nodup⟩
  untried w member := by
    rcases List.mem_cons.1 member with rfl | member
    · exact new
    · exact fun known => h.untried w member (List.mem_cons_of_mem v known)

/-- Everything tried beyond `tried` has only successors that were tried too, none of them the goal. -/
def Exhausted (successors : α → List α) (goal : α) (tried all : List α) : Prop :=
  ∀ a ∈ all, a ∉ tried → ∀ b ∈ successors a, b ∈ all ∧ b ≠ goal

theorem Exhausted.trans {tried more all : List α} (first : Exhausted successors goal tried more)
    (second : Exhausted successors goal more all) (grows : ∀ u ∈ more, u ∈ all) :
    Exhausted successors goal tried all := by
  intro a member new b step
  by_cases known : a ∈ more
  · exact ⟨grows b (first a known new b step).1, (first a known new b step).2⟩
  · exact second a member known b step

/-- What a search from some starting points comes to: a way from one of them, or none and everything
they lead to tried in vain. -/
structure Searched (successors : α → List α) (goal : α) (starts tried : List α)
    (result : Search α) : Prop where
  grows : ∀ u ∈ tried, u ∈ result.tried
  found : ∀ way, result.way = some way → ∃ v ∈ starts, IsWay successors goal tried v way
  failed : result.way = none → Exhausted successors goal tried result.tried ∧
    ∀ v ∈ starts, v ∈ result.tried ∧ (v ∈ tried → v ≠ goal)

variable [DecidableEq α]

/-- A search of starting points one after another, each of which is searched as specified. -/
theorem searched_searchAny {searchOne : List α → α → Search α} {bound : Nat}
    (one : ∀ tried, goal ∈ tried → unseen vertices tried < bound → ∀ v ∈ vertices,
      Searched successors goal [v] tried (searchOne tried v)) :
    ∀ starts, (∀ v ∈ starts, v ∈ vertices) → ∀ tried, goal ∈ tried → unseen vertices tried < bound →
      Searched successors goal starts tried (searchAny searchOne tried starts) := by
  intro starts
  induction starts with
  | nil =>
    intro _ tried _ _
    exact ⟨fun u known => known, by simp [searchAny],
      fun _ => ⟨fun a known new => absurd known new, by simp⟩⟩
  | cons v rest ih =>
    intro inside tried goalTried enough
    have first := one tried goalTried enough v (inside v (by simp))
    rw [searchAny]
    cases result : (searchOne tried v).way with
    | some way =>
      refine ⟨first.grows, ?_, by simp⟩
      rintro _ ⟨⟩
      obtain ⟨u, start, isWay⟩ := first.found way result
      rw [List.mem_singleton.1 start] at isWay
      exact ⟨v, by simp, isWay⟩
    | none =>
      obtain ⟨exhausted, starts⟩ := first.failed result
      have fewer : unseen vertices (searchOne tried v).tried ≤ unseen vertices tried :=
        unseen_le_of_subset first.grows
      have others := ih (fun u member => inside u (by simp [member])) (searchOne tried v).tried
        (first.grows goal goalTried) (by omega)
      refine ⟨fun u known => others.grows u (first.grows u known), ?_, ?_⟩
      · intro way found
        obtain ⟨u, start, isWay⟩ := others.found way found
        exact ⟨u, by simp [start], isWay.mono first.grows⟩
      · intro failed
        obtain ⟨exhausted', starts'⟩ := others.failed failed
        refine ⟨exhausted.trans exhausted' others.grows, ?_⟩
        intro u member
        rcases List.mem_cons.1 member with rfl | member
        · exact ⟨others.grows u (starts u (by simp)).1, (starts u (by simp)).2⟩
        · obtain ⟨tried', apart⟩ := starts' u member
          exact ⟨tried', fun known => apart (first.grows u known)⟩

/-- **The search** from a vertex of a closed list, if the depth is more than the number of vertices not
tried yet. The goal has been tried, or the search starts at it. -/
theorem searched_search (closed : ∀ a ∈ vertices, ∀ b ∈ successors a, b ∈ vertices) (depth : Nat) :
    ∀ tried v, goal ∈ v :: tried → unseen vertices tried < depth → v ∈ vertices →
      Searched successors goal [v] tried (search successors goal depth tried v) := by
  induction depth with
  | zero => intro tried v _ enough; omega
  | succ depth ih =>
    intro tried v goalTried enough member
    rw [search]
    split
    · rename_i known
      refine ⟨fun u old => old, ?_, ?_⟩
      · intro way found
        split at found
        · rename_i same
          cases found
          exact ⟨v, by simp, ⟨by simp [same], by simp, by simp, by simp⟩⟩
        · cases found
      · intro failed
        split at failed
        · cases failed
        · rename_i apart
          exact ⟨fun a old new => absurd old new, by simpa [known] using apart⟩
    · rename_i new
      have fewer := unseen_cons_lt member new
      have inner := searched_searchAny
        (fun tried' goalTried' enough' u inside =>
          ih tried' u (List.mem_cons_of_mem u goalTried') enough' inside)
        (successors v) (closed v member) (v :: tried) goalTried (by omega)
      refine ⟨fun u old => inner.grows u (List.mem_cons_of_mem v old), ?_, ?_⟩
      · intro way found
        obtain ⟨rest, inside, rfl⟩ := Option.map_eq_some_iff.1 found
        obtain ⟨u, step, isWay⟩ := inner.found rest inside
        exact ⟨v, by simp, isWay.cons step new⟩
      · intro failed
        obtain ⟨exhausted, starts⟩ := inner.failed (Option.map_eq_none_iff.1 failed)
        have self : v ∈ (searchAny (search successors goal depth) (v :: tried) (successors v)).tried :=
          inner.grows v List.mem_cons_self
        refine ⟨?_, by simpa using ⟨self, fun known => absurd known new⟩⟩
        intro a old unknown b step
        by_cases same : a = v
        · subst same
          obtain ⟨tried', apart⟩ := starts b step
          refine ⟨tried', ?_⟩
          rintro rfl
          exact apart goalTried rfl
        · exact exhausted a old (by simp [same, unknown]) b step

end Search

/-! ## Cycles -/

/-- A closed walk along a relation, without its last entry, which is the first again. -/
structure IsCycle (step : α → α → Prop) (cycle : List α) : Prop where
  nonempty : cycle ≠ []
  nodup : cycle.Nodup
  closed : (cycle ++ cycle.take 1).IsChain step

/-- The entries of a closed walk lead to each other. -/
theorem IsCycle.onCycle {step : α → α → Prop} {first : α} {rest : List α}
    (h : IsCycle step (first :: rest)) : ∀ u ∈ first :: rest, OnCycle step first u := by
  have walk : (first :: (rest ++ [first])).Pairwise (TransGen step) :=
    List.isChain_iff_pairwise.1 (h.closed.imp fun a b => TransGen.single)
  obtain ⟨out, others⟩ := List.pairwise_cons.1 walk
  have back := (List.pairwise_append.1 others).2.2
  have around : TransGen step first first := out first (by simp)
  intro u member
  rcases List.mem_cons.1 member with rfl | member
  · exact ⟨around, around⟩
  · exact ⟨out u (by simp [member]), back u member first (by simp)⟩

/-- A search that tried everything in vain has met no way to the goal. -/
theorem Exhausted.not_transGen {goal : α} {all : List α}
    (exhausted : Exhausted successors goal [] all) {v : α} (start : v ∈ all) :
    ¬ TransGen (Edge successors) v goal := by
  have tried {a : α} (path : TransGen (Edge successors) v a) : a ∈ all ∧ a ≠ goal := by
    induction path with
    | single step => exact exhausted _ start (by simp) _ step
    | tail _ step ih => exact exhausted _ ih.1 (by simp) _ step
  exact fun path => (tried path).2 rfl

section Found

variable [DecidableEq α] {root : α} {members : List α}

omit [DecidableEq α] in
/-- What is reached from a vertex of a closed list is in the list. -/
theorem mem_of_transGen (closed : ∀ a ∈ vertices, ∀ b ∈ successors a, b ∈ vertices) {a b : α}
    (inside : a ∈ vertices) (path : TransGen (Edge successors) a b) : b ∈ vertices := by
  induction path with
  | single step => exact closed _ inside _ step
  | tail _ step ih => exact closed _ ih _ step

/-- A way around from the root of a component stays inside it. -/
theorem transGen_inside (component : ∀ u, u ∈ members ↔ u ∈ vertices ∧ OnCycle (Edge successors) root u)
    (closed : ∀ a ∈ vertices, ∀ b ∈ successors a, b ∈ vertices) (inside : root ∈ vertices) {a : α}
    (out : TransGen (Edge successors) root a) (back : TransGen (Edge successors) a root) :
    TransGen (Edge fun v => (successors v).filter (· ∈ members)) root a := by
  induction out with
  | single step =>
    have member := (component _).2 ⟨closed _ inside _ step, .single step, back⟩
    exact .single (List.mem_filter.2 ⟨step, by simpa using member⟩)
  | tail path step ih =>
    have member := (component _).2 ⟨mem_of_transGen closed inside (path.tail step), path.tail step, back⟩
    exact (ih (back.head step)).tail (List.mem_filter.2 ⟨step, by simpa using member⟩)

/-- **The cycle of a component** starts at its root and stays inside it. -/
theorem cycleFrom_spec (component : ∀ u, u ∈ members ↔ u ∈ vertices ∧ OnCycle (Edge successors) root u)
    (closed : ∀ a ∈ vertices, ∀ b ∈ successors a, b ∈ vertices) (inside : root ∈ vertices)
    (around : TransGen (Edge successors) root root) :
    IsCycle (Edge successors) (cycleFrom successors root members) ∧
      (cycleFrom successors root members).head? = some root := by
  let within (v : α) : List α := (successors v).filter (· ∈ members)
  have member : root ∈ members := (component root).2 ⟨inside, around, around⟩
  have searched : Searched within root [root] []
      (search within root (members.length + 1) [] root) :=
    searched_search (fun a _ b step => of_decide_eq_true (List.mem_filter.1 step).2) _ _ _
      (by simp) (Nat.lt_succ_of_le List.countP_le_length) member
  cases result : (search within root (members.length + 1) [] root).way with
  | none =>
    obtain ⟨exhausted, starts⟩ := searched.failed result
    exact absurd (transGen_inside component closed inside around around)
      (exhausted.not_transGen (starts root (by simp)).1)
  | some way =>
    have found : cycleFrom successors root members = way := by
      change (search within root (members.length + 1) [] root).way.getD [] = way
      rw [result, Option.getD_some]
    obtain ⟨rest, rfl⟩ : ∃ rest, way = root :: rest := by
      rw [search, if_neg (by simp)] at result
      obtain ⟨rest, -, rfl⟩ := Option.map_eq_some_iff.1 result
      exact ⟨rest, rfl⟩
    obtain ⟨v, start, isWay⟩ := searched.found _ result
    rw [found]
    refine ⟨⟨by simp, isWay.nodup, ?_⟩, rfl⟩
    exact isWay.chain.imp fun a b step => (List.mem_filter.1 step).1

/-- **One cycle for each component that has any**: every cycle found is a closed walk, no two of them are in one
component, and every vertex on a cycle is in the component of one. -/
theorem cycles_spec (closed : ∀ a ∈ vertices, ∀ b ∈ successors a, b ∈ vertices) :
    (∀ cycle ∈ cycles successors vertices, IsCycle (Edge successors) cycle) ∧
    (cycles successors vertices).Pairwise (fun c d => ∀ a ∈ c, ∀ b ∈ d, ¬ OnCycle (Edge successors) a b) ∧
    ∀ v ∈ vertices, TransGen (Edge successors) v v →
      ∃ cycle ∈ cycles successors vertices, ∀ u ∈ cycle, OnCycle (Edge successors) v u := by
  obtain ⟨forms, apart, every⟩ := cyclicComponents_spec closed
  have found {c : List α} (member : c ∈ cyclicComponents successors vertices) :
      IsCycle (Edge successors) (cycleOf successors c) ∧ ∀ u ∈ cycleOf successors c, u ∈ c := by
    obtain ⟨root, others, rfl, inside, around, members⟩ := forms c member
    obtain ⟨isCycle, head⟩ := cycleFrom_spec members closed inside around
    refine ⟨isCycle, fun u onWalk => (members u).2 ?_⟩
    obtain ⟨rest, eq⟩ := List.head?_eq_some_iff.1 head
    rw [cycleOf, eq] at onWalk
    rw [eq] at isCycle
    have onCycle := isCycle.onCycle u onWalk
    exact ⟨mem_of_transGen closed inside onCycle.1, onCycle⟩
  have together {c : List α} (member : c ∈ cyclicComponents successors vertices) {a b : α} (first : a ∈ c)
      (second : b ∈ c) : OnCycle (Edge successors) a b := by
    obtain ⟨root, others, -, -, -, members⟩ := forms c member
    exact ((members a).1 first).2.symm.trans ((members b).1 second).2
  have all : cycles successors vertices = (cyclicComponents successors vertices).map (cycleOf successors) := by
    refine List.filter_eq_self.2 fun cycle member => ?_
    obtain ⟨c, listed, rfl⟩ := List.mem_map.1 member
    exact decide_eq_true (found listed).1.nonempty
  rw [all]
  refine ⟨fun cycle member => ?_, ?_, fun v member around => ?_⟩
  · obtain ⟨c, listed, rfl⟩ := List.mem_map.1 member
    exact (found listed).1
  · rw [List.pairwise_map]
    refine apart.imp_of_mem fun {c d} first second apart a inC b inD => ?_
    exact apart a ((found first).2 a inC) b ((found second).2 b inD)
  · obtain ⟨c, listed, inside⟩ := every v member around
    exact ⟨_, List.mem_map_of_mem listed, fun u onWalk => together listed inside ((found listed).2 u onWalk)⟩

end Found

end IsoLiteral.Cycle
