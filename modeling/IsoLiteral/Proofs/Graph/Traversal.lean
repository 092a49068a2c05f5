import IsoLiteral.Graph.Traversal
import Mathlib.Logic.Relation
import Mathlib.Tactic

/-!
# What a traversal visits

A traversal that starts inside a closed list of vertices enters exactly what its starting points lead
to. `Covers` says this for a stretch of a traversal
between two points of it; stretches compose, so a visit is covered by its inner visits, and the
induction is on the depth that is left. The depth is enough as long as no more vertices than that are
still to be entered.
-/

namespace IsoLiteral

/-- One vertex is a successor of another. -/
def Edge {α : Type} (successors : α → List α) (a b : α) : Prop := b ∈ successors a

namespace Traversal

open Relation

variable {α : Type} {successors : α → List α} {vertices : List α}

/-- The traversal with the vertices renamed. -/
def map {β : Type} (name : α → β) (t : Traversal α) : Traversal β :=
  ⟨t.entered.map name⟩

/-- What happens between two points of a traversal that goes through `starts`: `fresh` are the vertices
entered in between. -/
structure Covers (successors : α → List α) (starts : List α) (before after : Traversal α)
    (fresh : List α) : Prop where
  entered : ∀ a, a ∈ after.entered ↔ a ∈ before.entered ∨ a ∈ fresh
  started : ∀ v ∈ starts, v ∈ after.entered
  closed : ∀ a ∈ fresh, ∀ b ∈ successors a, b ∈ after.entered
  reached : ∀ a ∈ fresh, ∃ v ∈ starts, ReflTransGen (Edge successors) v a

namespace Covers

theorem refl {starts : List α} {t : Traversal α} (known : ∀ v ∈ starts, v ∈ t.entered) :
    Covers successors starts t t [] where
  entered := by simp
  started := known
  closed := by simp
  reached := by simp

/-- Two stretches one after the other. -/
theorem trans {starts others : List α} {t u w : Traversal α} {fresh fresh' : List α}
    (first : Covers successors starts t u fresh) (second : Covers successors others u w fresh') :
    Covers successors (starts ++ others) t w (fresh ++ fresh') where
  entered a := by rw [second.entered, first.entered, List.mem_append, or_assoc]
  started v member := by
    rcases List.mem_append.1 member with left | right
    · exact (second.entered v).2 (.inl (first.started v left))
    · exact second.started v right
  closed a member b step := by
    rcases List.mem_append.1 member with left | right
    · exact (second.entered b).2 (.inl (first.closed a left b step))
    · exact second.closed a right b step
  reached a member := by
    rcases List.mem_append.1 member with left | right
    · obtain ⟨v, start, path⟩ := first.reached a left
      exact ⟨v, List.mem_append_left _ start, path⟩
    · obtain ⟨v, start, path⟩ := second.reached a right
      exact ⟨v, List.mem_append_right _ start, path⟩

/-- Everything that the starting points lead to has been entered, if what was entered before is closed
under successors. -/
theorem mem_of_reached {starts : List α} {before after : Traversal α} {fresh : List α}
    (covers : Covers successors starts before after fresh)
    (old : ∀ a ∈ before.entered, ∀ b ∈ successors a, b ∈ after.entered) {v a : α}
    (start : v ∈ starts) (path : ReflTransGen (Edge successors) v a) : a ∈ after.entered := by
  induction path with
  | refl => exact covers.started v start
  | tail _ step ih =>
    rcases (covers.entered _).1 ih with known | new
    · exact old _ known _ step
    · exact covers.closed _ new _ step

end Covers

/-- Entering a vertex and everything it leads to. -/
theorem Covers.enter {t inner : Traversal α} {v : α} {fresh : List α}
    (covers : Covers successors (successors v) ⟨v :: t.entered⟩ inner fresh) :
    Covers successors [v] t inner (fresh ++ [v]) where
  entered a := by
    simp only [covers.entered, List.mem_cons, List.mem_append, List.not_mem_nil]
    tauto
  started u member := by
    rw [List.mem_singleton.1 member]
    exact (covers.entered v).2 (.inl List.mem_cons_self)
  closed a member b step := by
    rcases List.mem_append.1 member with inner | last
    · exact covers.closed a inner b step
    · rw [List.mem_singleton.1 last] at step
      exact covers.started b step
  reached a member := by
    rcases List.mem_append.1 member with inner | last
    · obtain ⟨u, step, path⟩ := covers.reached a inner
      exact ⟨v, by simp, .head step path⟩
    · exact ⟨v, by simp, by rw [List.mem_singleton.1 last]⟩

theorem countP_lt_countP {p q : α → Bool} {items : List α} (weaker : ∀ a, p a = true → q a = true)
    {v : α} (member : v ∈ items) (holds : q v = true) (fails : p v = false) :
    items.countP p < items.countP q := by
  induction items with
  | nil => cases member
  | cons u rest ih =>
    have tail : rest.countP p ≤ rest.countP q := List.countP_mono_left fun a _ => weaker a
    have head : (if p u then 1 else 0) ≤ (if q u then 1 else 0) := by
      split
      · rename_i true
        rw [if_pos (weaker u true)]
      · omega
    rw [List.countP_cons, List.countP_cons]
    rcases List.mem_cons.1 member with rfl | member
    · rw [holds, fails]
      simp only [reduceIte, Bool.false_eq_true]
      omega
    · have := ih member
      omega

variable [DecidableEq α]

/-- How many of the vertices have not been seen. -/
def unseen (vertices seen : List α) : Nat := vertices.countP (· ∉ seen)

theorem unseen_le_of_subset {seen more : List α} (grows : ∀ a ∈ seen, a ∈ more) :
    unseen vertices more ≤ unseen vertices seen := by
  apply List.countP_mono_left
  intro a _ unknown
  simp only [decide_eq_true_eq] at unknown ⊢
  exact fun known => unknown (grows a known)

theorem mem_of_unseen_eq_zero {seen : List α} (none : unseen vertices seen = 0) {v : α}
    (member : v ∈ vertices) : v ∈ seen := by
  simpa using List.countP_eq_zero.1 none v member

/-- Seeing one more vertex leaves fewer unseen. -/
theorem unseen_cons_lt {seen : List α} {v : α} (member : v ∈ vertices) (new : v ∉ seen) :
    unseen vertices (v :: seen) < unseen vertices seen := by
  refine countP_lt_countP (fun a unknown => ?_) member (by simpa using new) (by simp)
  simp only [decide_eq_true_eq] at unknown ⊢
  exact fun known => unknown (List.mem_cons_of_mem v known)

/-- Visits one after another, each of which covers its vertex. -/
theorem covers_foldl {visitOne : Traversal α → α → Traversal α} {bound : Nat}
    (one : ∀ t, unseen vertices t.entered ≤ bound → ∀ v ∈ vertices,
      ∃ fresh, Covers successors [v] t (visitOne t v) fresh) :
    ∀ starts, (∀ v ∈ starts, v ∈ vertices) → ∀ t, unseen vertices t.entered ≤ bound →
      ∃ fresh, Covers successors starts t (starts.foldl visitOne t) fresh := by
  intro starts
  induction starts with
  | nil => exact fun _ t _ => ⟨[], .refl (by simp)⟩
  | cons v rest ih =>
    intro inside t enough
    obtain ⟨fresh, first⟩ := one t enough v (inside v (by simp))
    have fewer : unseen vertices (visitOne t v).entered ≤ unseen vertices t.entered :=
      unseen_le_of_subset fun a known => (first.entered a).2 (.inl known)
    obtain ⟨fresh', others⟩ := ih (fun u member => inside u (by simp [member])) (visitOne t v)
      (fewer.trans enough)
    exact ⟨fresh ++ fresh', first.trans others⟩

/-- **A visit covers its vertex**, if the depth is enough for all vertices still to be entered. -/
theorem covers_visit (closed : ∀ a ∈ vertices, ∀ b ∈ successors a, b ∈ vertices) (depth : Nat) :
    ∀ t, unseen vertices t.entered ≤ depth → ∀ v ∈ vertices,
      ∃ fresh, Covers successors [v] t (visit successors depth t v) fresh := by
  induction depth with
  | zero =>
    intro t enough v member
    have known := mem_of_unseen_eq_zero (Nat.le_zero.1 enough) member
    exact ⟨[], .refl (by simpa using known)⟩
  | succ depth ih =>
    intro t enough v member
    rw [visit]
    split
    · rename_i known
      exact ⟨[], .refl (by simpa using known)⟩
    · rename_i new
      have fewer := unseen_cons_lt member new
      obtain ⟨fresh, inner⟩ := covers_foldl ih (successors v) (closed v member)
        ⟨v :: t.entered⟩ (Nat.le_of_lt_succ (fewer.trans_le enough))
      exact ⟨fresh ++ [v], inner.enter⟩

theorem foldl_visit_depth (closed : ∀ a ∈ vertices, ∀ b ∈ successors a, b ∈ vertices) {depth depth' : Nat}
    (one : ∀ t, unseen vertices t.entered ≤ depth → unseen vertices t.entered ≤ depth' → ∀ v ∈ vertices,
      visit successors depth t v = visit successors depth' t v) :
    ∀ starts : List α, (∀ v ∈ starts, v ∈ vertices) → ∀ t : Traversal α, unseen vertices t.entered ≤ depth →
      unseen vertices t.entered ≤ depth' →
        starts.foldl (visit successors depth) t = starts.foldl (visit successors depth') t := by
  intro starts
  induction starts with
  | nil => exact fun _ _ _ _ => rfl
  | cons v rest ih =>
    intro inside t enough enough'
    obtain ⟨member, others⟩ := List.forall_mem_cons.1 inside
    obtain ⟨fresh, first⟩ := covers_visit closed depth' t enough' v member
    have fewer : unseen vertices (visit successors depth' t v).entered ≤ unseen vertices t.entered :=
      unseen_le_of_subset fun a known => (first.entered a).2 (.inl known)
    rw [List.foldl_cons, List.foldl_cons, one t enough enough' v member]
    exact ih others _ (fewer.trans enough) (fewer.trans enough')

/-- **More depth than there are vertices to enter** makes no difference. -/
theorem visit_depth (closed : ∀ a ∈ vertices, ∀ b ∈ successors a, b ∈ vertices) (depth : Nat) :
    ∀ {depth' : Nat} t, unseen vertices t.entered ≤ depth → unseen vertices t.entered ≤ depth' →
      ∀ v ∈ vertices, visit successors depth t v = visit successors depth' t v := by
  have settled (depth : Nat) {t : Traversal α} {v : α} (known : v ∈ t.entered) :
      visit successors depth t v = t := by
    cases depth with
    | zero => rfl
    | succ depth => rw [visit, if_pos known]
  induction depth with
  | zero =>
    intro depth' t enough _ v member
    have known := mem_of_unseen_eq_zero (Nat.le_zero.1 enough) member
    rw [settled 0 known, settled depth' known]
  | succ depth ih =>
    intro depth' t enough enough' v member
    by_cases known : v ∈ t.entered
    · rw [settled _ known, settled _ known]
    · have fewer := unseen_cons_lt member known
      obtain ⟨depth', rfl⟩ := Nat.exists_eq_add_one_of_ne_zero (Nat.ne_zero_of_lt (fewer.trans_le enough'))
      rw [visit, visit, if_neg known, if_neg known, foldl_visit_depth closed (fun t => ih t) _ (closed v member) _
        (Nat.le_of_lt_succ (fewer.trans_le enough)) (Nat.le_of_lt_succ (fewer.trans_le enough'))]

/-! ## Whole traversals -/

theorem preorder_depth (closed : ∀ a ∈ vertices, ∀ b ∈ successors a, b ∈ vertices) {v : α} (member : v ∈ vertices)
    {depth : Nat} (enough : vertices.length ≤ depth) :
    preorder successors depth v = preorder successors vertices.length v := by
  have few : unseen vertices (start : Traversal α).entered ≤ vertices.length := List.countP_le_length
  rw [preorder, preorder, visitAll, visitAll, List.foldl_cons, List.foldl_cons,
    visit_depth closed depth start (few.trans enough) few v member]
  rfl

/-- Traversing a closed list of vertices, from any of them, covers the starting points. -/
theorem covers_visitAll (closed : ∀ a ∈ vertices, ∀ b ∈ successors a, b ∈ vertices) {starts : List α}
    (inside : ∀ v ∈ starts, v ∈ vertices) :
    ∃ fresh, Covers successors starts start (visitAll successors vertices.length starts) fresh :=
  covers_foldl (covers_visit closed vertices.length) starts inside start List.countP_le_length

/-- What a traversal of a closed list of vertices enters is what its starting points lead to. -/
theorem mem_visitAll_iff (closed : ∀ a ∈ vertices, ∀ b ∈ successors a, b ∈ vertices) {starts : List α}
    (inside : ∀ v ∈ starts, v ∈ vertices) {a : α} :
    a ∈ (visitAll successors vertices.length starts).entered ↔
      ∃ v ∈ starts, ReflTransGen (Edge successors) v a := by
  obtain ⟨fresh, covers⟩ := covers_visitAll closed inside
  constructor
  · intro entered
    rcases (covers.entered a).1 entered with old | new
    · simp [start] at old
    · exact covers.reached a new
  · rintro ⟨v, member, path⟩
    exact covers.mem_of_reached (by simp [start]) member path

/-! ## No vertex twice -/

omit [DecidableEq α] in
theorem nodup_entered_foldl {visitOne : Traversal α → α → Traversal α}
    (one : ∀ t v, t.entered.Nodup → (visitOne t v).entered.Nodup) (starts : List α) :
    ∀ t : Traversal α, t.entered.Nodup → (starts.foldl visitOne t).entered.Nodup := by
  induction starts with
  | nil => exact fun _ distinct => distinct
  | cons v rest ih => exact fun t distinct => ih _ (one t v distinct)

theorem nodup_entered_visit (successors : α → List α) (depth : Nat) :
    ∀ t v, t.entered.Nodup → (visit successors depth t v).entered.Nodup := by
  induction depth with
  | zero => exact fun _ _ distinct => distinct
  | succ depth ih =>
    intro t v distinct
    rw [visit]
    split
    · exact distinct
    · rename_i new
      exact nodup_entered_foldl ih _ _ (List.nodup_cons.2 ⟨new, distinct⟩)

/-- Whatever the depth, no vertex is entered twice. -/
theorem nodup_preorder (successors : α → List α) (depth : Nat) (v : α) :
    (preorder successors depth v).Nodup :=
  List.nodup_reverse.2 (nodup_entered_foldl (nodup_entered_visit successors depth) [v] start List.nodup_nil)

/-! ## Renamed vertices -/

section Renamed

variable {β : Type} [DecidableEq β] {successors' : β → List β} {name : α → β}

/-- A traversal of a renamed graph enters and leaves the renamed vertices in the same order. -/
theorem visit_map (injective : Function.Injective name)
    (renamed : ∀ v, successors' (name v) = (successors v).map name) (depth : Nat) :
    ∀ t v, visit successors' depth (t.map name) (name v) = (visit successors depth t v).map name := by
  induction depth with
  | zero => exact fun _ _ => rfl
  | succ depth ih =>
    intro t v
    have inner (u : Traversal α) : ((successors v).map name).foldl (visit successors' depth) (u.map name) =
        ((successors v).foldl (visit successors depth) u).map name := by
      rw [List.foldl_map]
      exact List.foldl_hom (map name) fun u w => ih u w
    have entered : name v ∈ (t.map name).entered ↔ v ∈ t.entered := List.mem_map_of_injective injective
    rw [visit, visit]
    by_cases known : v ∈ t.entered
    · rw [if_pos known, if_pos (entered.2 known)]
    · have start : { t.map name with entered := name v :: (t.map name).entered } =
          (⟨v :: t.entered⟩ : Traversal α).map name := rfl
      rw [if_neg known, if_neg (known ∘ entered.1), renamed, start, inner]

theorem preorder_map (injective : Function.Injective name)
    (renamed : ∀ v, successors' (name v) = (successors v).map name) (depth : Nat) (v : α) :
    preorder successors' depth (name v) = (preorder successors depth v).map name := by
  have visited := visit_map injective renamed depth start v
  rw [preorder, preorder, List.map_reverse]
  exact congrArg List.reverse (congrArg entered visited)

end Renamed

end Traversal

end IsoLiteral
