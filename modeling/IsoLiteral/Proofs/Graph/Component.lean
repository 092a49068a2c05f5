import IsoLiteral.Graph.Component
import IsoLiteral.Proofs.Graph.Traversal

/-!
# The search for components is exact

At any moment the stack of the search holds vertices in the order of their numbers, each of which leads to
those entered after it, and the complete components are closed under edges one after another. A visit adds
vertices on top of the stack or completes components. What it leaves on the stack leads back to what stood
there before; so when the low link of a vertex is its own number, nothing above it leads below it, and what
is taken off the stack is a component. `Scans` says what is known while the edges of a vertex are followed,
`Visits` what is known when it has been left; the induction is on the depth that is left.
-/

namespace IsoLiteral.ComponentSearch

open Relation Traversal

variable {α : Type} {successors : α → List α} {vertices : List α}

/-- One vertex leads to another by any number of edges. -/
abbrev Leads (successors : α → List α) : α → α → Prop := ReflTransGen (Edge successors)

/-! ## Single steps -/

section Steps

variable [DecidableEq α] {t : ComponentSearch α} {v u : α}

omit [DecidableEq α] in
theorem entered_enter : (t.enter v).entered = v :: t.entered := rfl

theorem number_enter_self : (t.enter v).number v = t.next := by
  simp [number, enter]

theorem number_enter_of_ne (apart : u ≠ v) : (t.enter v).number u = t.number u := by
  have different : (u == v) = false := by simpa using apart
  rw [number, number, enter, List.lookup_cons, different]

theorem lowLink_enter_self : (t.enter v).lowLink v = t.next := by
  simp [lowLink, enter]

theorem lowLink_enter_of_ne (apart : u ≠ v) : (t.enter v).lowLink u = t.lowLink u := by
  have different : (u == v) = false := by simpa using apart
  rw [lowLink, lowLink, enter, List.lookup_cons, different]

theorem lowLink_lower_self (n : Nat) : (t.lower v n).lowLink v = min n (t.lowLink v) := by
  simp [lowLink, lower]

theorem lowLink_lower_of_ne (n : Nat) (apart : u ≠ v) : (t.lower v n).lowLink u = t.lowLink u := by
  have different : (u == v) = false := by simpa using apart
  rw [lowLink, lowLink, lower, List.lookup_cons, different]

/-- What stands on the stack above a vertex is taken off with it. -/
theorem complete_eq {above below : List α} (stack : t.stack = above ++ v :: below) (new : v ∉ above) :
    t.complete v = { t with
      stack := below
      onStack := t.onStack.filter (· ∉ above ++ [v])
      components := t.components ++ [(above ++ [v]).reverse] } := by
  have others : ∀ u ∈ above, decide (u ≠ v) = true := by
    intro u member
    exact decide_eq_true fun same => new (same ▸ member)
  have taken : t.stack.takeWhile (· ≠ v) = above := by
    rw [stack, List.takeWhile_append_of_pos others, List.takeWhile_cons_of_neg (by simp), List.append_nil]
  have left : t.stack.dropWhile (· ≠ v) = v :: below := by
    rw [stack, List.dropWhile_append_of_pos others, List.dropWhile_cons_of_neg (by simp)]
  rw [complete, taken, left]
  rfl

end Steps

/-! ## Complete components -/

/-- Components that are complete: the members of each lead to each other, and what they lead to is in that
component or in one before it. -/
structure Complete (successors : α → List α) (components : List (List α)) : Prop where
  nonempty : ∀ c ∈ components, c ≠ []
  nodup : components.flatten.Nodup
  strong : ∀ c ∈ components, ∀ a ∈ c, ∀ b ∈ c, Leads successors a b
  closed : ∀ n, ∀ a ∈ (components.take n).flatten, ∀ b ∈ successors a, b ∈ (components.take n).flatten

theorem Complete.nil : Complete successors [] where
  nonempty := by simp
  nodup := by simp
  strong := by simp
  closed := by simp

/-- One more component, which leads nowhere else but to those before it. -/
theorem Complete.concat {components : List (List α)} (h : Complete successors components) {c : List α}
    (nonempty : c ≠ []) (nodup : c.Nodup) (new : ∀ a ∈ c, a ∉ components.flatten)
    (strong : ∀ a ∈ c, ∀ b ∈ c, Leads successors a b)
    (closed : ∀ a ∈ c, ∀ b ∈ successors a, b ∈ components.flatten ∨ b ∈ c) :
    Complete successors (components ++ [c]) where
  nonempty d member := by
    rcases List.mem_append.1 member with old | last
    · exact h.nonempty d old
    · rwa [List.mem_singleton.1 last]
  nodup := by
    rw [List.flatten_append, List.flatten_singleton]
    exact h.nodup.append nodup fun a old last => new a last old
  strong d member := by
    rcases List.mem_append.1 member with old | last
    · exact h.strong d old
    · rwa [List.mem_singleton.1 last]
  closed n a member b step := by
    by_cases few : n ≤ components.length
    · rw [List.take_append_of_le_length few] at member ⊢
      exact h.closed n a member b step
    · have all : (components ++ [c]).take n = components ++ [c] := by
        apply List.take_of_length_le
        rw [List.length_append, List.length_singleton]
        omega
      rw [all, List.flatten_append, List.flatten_singleton, List.mem_append] at member ⊢
      rcases member with old | last
      · have before := h.closed components.length
        rw [List.take_length] at before
        exact .inl (before a old b step)
      · exact closed a last b step

section Members

variable {components : List (List α)} {c : List α} {a b : α}

/-- What is reached from a complete component is in it or in one before it. -/
theorem Complete.mem_of_reached (h : Complete successors components) (n : Nat)
    (member : a ∈ (components.take n).flatten) (path : Leads successors a b) :
    b ∈ (components.take n).flatten := by
  induction path with
  | refl => exact member
  | tail _ step ih => exact h.closed n _ ih _ step

/-- **Components are exact**: a vertex is in the component of another if each leads to the other. -/
theorem Complete.mem_iff (h : Complete successors components) (listed : c ∈ components) (member : a ∈ c) :
    b ∈ c ↔ Leads successors a b ∧ Leads successors b a := by
  refine ⟨fun other => ⟨h.strong c listed a member b other, h.strong c listed b other a member⟩, ?_⟩
  rintro ⟨out, back⟩
  obtain ⟨before, after, rfl⟩ := List.append_of_mem listed
  have upTo : (before ++ c :: after).take (before.length + 1) = before ++ [c] := by
    rw [List.take_length_add_append, List.take_succ_cons, List.take_zero]
  have reached := h.mem_of_reached (before.length + 1) (a := a) (by simp [upTo, member]) out
  rw [upTo, List.flatten_append, List.flatten_singleton, List.mem_append] at reached
  refine reached.resolve_left fun early => ?_
  have returned := h.mem_of_reached before.length (a := b) (by simpa using early) back
  rw [List.take_left] at returned
  have distinct := h.nodup
  rw [List.flatten_append, List.flatten_cons, List.nodup_append] at distinct
  exact distinct.2.2 a returned a (List.mem_append_left _ member) rfl

/-- No vertex is in two components. -/
theorem Complete.pairwise (h : Complete successors components) :
    components.Pairwise fun c d => ∀ a ∈ c, a ∉ d := by
  refine (List.nodup_flatten.1 h.nodup).2.imp fun {c d} apart a first second => ?_
  exact apart first second

end Members

/-! ## States of the search -/

variable [DecidableEq α] {t : ComponentSearch α} {v u : α}

/-- The parts of a search fit together. -/
structure Sound (successors : α → List α) (vertices : List α) (t : ComponentSearch α) : Prop where
  inside : ∀ v ∈ t.entered, v ∈ vertices
  below : ∀ v ∈ t.entered, t.number v < t.next
  sorted : t.stack.Pairwise fun a b => t.number b < t.number a
  onStack : ∀ v, v ∈ t.onStack ↔ v ∈ t.stack
  entered : ∀ v, v ∈ t.entered ↔ v ∈ t.stack ∨ v ∈ t.components.flatten
  apart : ∀ v ∈ t.stack, v ∉ t.components.flatten
  components : Complete successors t.components

namespace Sound

theorem start : Sound successors vertices (start : ComponentSearch α) where
  inside := by simp [ComponentSearch.start, ComponentSearch.entered]
  below := by simp [ComponentSearch.start, ComponentSearch.entered]
  sorted := .nil
  onStack := by simp [ComponentSearch.start]
  entered := by simp [ComponentSearch.start, ComponentSearch.entered]
  apart := by simp [ComponentSearch.start]
  components := .nil

theorem enteredOfStack (h : Sound successors vertices t) (member : u ∈ t.stack) : u ∈ t.entered :=
  (h.entered u).2 (.inl member)

/-- No vertex stands on the stack twice. -/
theorem nodup (h : Sound successors vertices t) : t.stack.Nodup := by
  refine h.sorted.imp fun {a b} less same => ?_
  rw [same] at less
  exact Nat.lt_irrefl _ less

theorem lower (h : Sound successors vertices t) (v : α) (n : Nat) : Sound successors vertices (t.lower v n) :=
  ⟨h.inside, h.below, h.sorted, h.onStack, h.entered, h.apart, h.components⟩

theorem enter (h : Sound successors vertices t) (member : v ∈ vertices) (new : v ∉ t.entered) :
    Sound successors vertices (t.enter v) := by
  have other {u : α} (old : u ∈ t.entered) : (t.enter v).number u = t.number u :=
    number_enter_of_ne fun same => new (same ▸ old)
  have less {u : α} (old : u ∈ t.entered) : (t.enter v).number u < t.next := by
    rw [other old]
    exact h.below u old
  refine ⟨?_, ?_, ?_, ?_, ?_, ?_, h.components⟩
  · intro u entered
    rcases List.mem_cons.1 entered with rfl | old
    · exact member
    · exact h.inside u old
  · intro u entered
    rcases List.mem_cons.1 entered with rfl | old
    · rw [number_enter_self]
      exact Nat.lt_succ_self _
    · exact (less old).trans (Nat.lt_succ_self _)
  · refine List.pairwise_cons.2 ⟨fun u below => ?_, ?_⟩
    · rw [number_enter_self]
      exact less (h.enteredOfStack below)
    · refine h.sorted.imp_of_mem fun {a b} upper lower order => ?_
      rwa [other (h.enteredOfStack upper), other (h.enteredOfStack lower)]
  · intro u
    simp [ComponentSearch.enter, h.onStack]
  · intro u
    rw [entered_enter, List.mem_cons, h.entered]
    simp [ComponentSearch.enter, or_assoc]
  · intro u above
    rcases List.mem_cons.1 above with rfl | old
    · exact fun complete => new ((h.entered u).2 (.inr complete))
    · exact h.apart u old

/-- Taking a component off the stack: its members lead to each other and, apart from that, only to complete
components. -/
theorem complete (h : Sound successors vertices t) {above below : List α}
    (stack : t.stack = above ++ v :: below)
    (strong : ∀ a ∈ above ++ [v], ∀ b ∈ above ++ [v], Leads successors a b)
    (closed : ∀ a ∈ above ++ [v], ∀ b ∈ successors a, b ∈ t.components.flatten ∨ b ∈ above ++ [v]) :
    Sound successors vertices (t.complete v) := by
  have split : t.stack = (above ++ [v]) ++ below := by rw [stack]; simp
  have distinct := h.nodup
  rw [split, List.nodup_append] at distinct
  obtain ⟨upper, -, different⟩ := distinct
  have new : v ∉ above := (List.nodup_append_comm.1 upper).notMem
  have onStack {u : α} (member : u ∈ above ++ [v]) : u ∈ t.stack := by
    rw [split]
    exact List.mem_append_left _ member
  rw [complete_eq stack new]
  refine ⟨h.inside, h.below, ?_, ?_, ?_, ?_, ?_⟩
  · have sorted := h.sorted
    rw [split] at sorted
    exact (List.pairwise_append.1 sorted).2.1
  · intro u
    simp only [List.mem_filter, h.onStack, decide_eq_true_eq]
    rw [split, List.mem_append]
    constructor
    · rintro ⟨taken | left, kept⟩
      · exact absurd taken kept
      · exact left
    · exact fun left => ⟨.inr left, fun taken => different u taken u left rfl⟩
  · intro u
    show u ∈ t.entered ↔ _
    rw [h.entered u, split]
    simp only [List.mem_append, List.flatten_append, List.flatten_singleton, List.mem_reverse]
    tauto
  · intro u left
    rw [List.flatten_append, List.flatten_singleton, List.mem_append, List.mem_reverse]
    rintro (old | taken)
    · refine h.apart u ?_ old
      rw [split]
      exact List.mem_append_right _ left
    · exact different u taken u left rfl
  · refine h.components.concat (by simp) (List.nodup_reverse.2 upper) ?_ ?_ ?_
    · intro a member
      exact h.apart a (onStack (List.mem_reverse.1 member))
    · intro a first b second
      exact strong a (List.mem_reverse.1 first) b (List.mem_reverse.1 second)
    · intro a member b step
      rw [List.mem_reverse]
      exact closed a (List.mem_reverse.1 member) b step

end Sound

/-! ## Visits -/

/-- A successor has been entered, and if it is still on the stack, a low link knows of it. -/
def Followed (t : ComponentSearch α) (lowLink : Nat) (successor : α) : Prop :=
  successor ∈ t.entered ∧ (successor ∈ t.stack → lowLink ≤ t.number successor)

/-- What a search keeps of what it had before. -/
structure Keeps (before after : ComponentSearch α) : Prop where
  entered : ∀ u ∈ before.entered, u ∈ after.entered
  number : ∀ u ∈ before.entered, after.number u = before.number u
  lowLink : ∀ u ∈ before.entered, after.lowLink u = before.lowLink u

/-- A vertex has been visited. The visit has left `fresh` on the stack: either nothing, or the vertex with
others that lead back to what stood there before. -/
structure Visits (successors : α → List α) (vertices : List α) (v : α) (before after : ComponentSearch α)
    (fresh : List α) : Prop where
  sound : after.Sound successors vertices
  keeps : Keeps before after
  entered : v ∈ after.entered
  stack : after.stack = fresh ++ before.stack
  new : ∀ u ∈ fresh, u ∉ before.entered
  number : after.number v = before.next
  lowLink_le : after.lowLink v ≤ before.next
  reached : ∀ u ∈ fresh, Leads successors v u
  returns : ∀ u ∈ fresh, ∃ w ∈ before.stack, Leads successors u w
  followed : ∀ u ∈ fresh, ∀ w ∈ successors u, after.Followed (after.lowLink v) w
  /-- The low link is the vertex's own number if the vertex was the root of a component. -/
  least : after.lowLink v = before.next ∨
    ∃ w ∈ before.stack, after.number w = after.lowLink v ∧ Leads successors v w

/-- Some edges of a vertex have been followed. Above the vertex stand `fresh` on the stack, which lead to it
and from it. -/
structure Scans (successors : α → List α) (vertices : List α) (v : α) (before current : ComponentSearch α)
    (fresh scanned : List α) : Prop where
  sound : current.Sound successors vertices
  keeps : Keeps before current
  entered : v ∈ current.entered
  stack : current.stack = fresh ++ v :: before.stack
  new : ∀ u ∈ fresh, u ∉ before.entered
  number : current.number v = before.next
  lowLink_le : current.lowLink v ≤ before.next
  reached : ∀ u ∈ fresh, Leads successors v u
  returns : ∀ u ∈ fresh, Leads successors u v
  followed : ∀ u ∈ fresh, ∀ w ∈ successors u, current.Followed (current.lowLink v) w
  scanned : ∀ w ∈ scanned, current.Followed (current.lowLink v) w
  least : ∃ w ∈ current.stack, current.number w = current.lowLink v ∧ Leads successors v w

section Visits

variable {before current after : ComponentSearch α} {fresh fresh' scanned : List α} {next : α} {n m : Nat}

theorem Keeps.trans {s t w : ComponentSearch α} (first : Keeps s t) (second : Keeps t w) : Keeps s w where
  entered u member := second.entered u (first.entered u member)
  number u member := (second.number u (first.entered u member)).trans (first.number u member)
  lowLink u member := (second.lowLink u (first.entered u member)).trans (first.lowLink u member)

/-- A lower low link of a new vertex does not concern the old ones. -/
theorem Keeps.lower (keeps : Keeps before current) (new : v ∉ before.entered) (n : Nat) :
    Keeps before (current.lower v n) where
  entered := keeps.entered
  number := keeps.number
  lowLink u member := by
    have apart : u ≠ v := fun same => new (same ▸ member)
    rw [lowLink_lower_of_ne n apart]
    exact keeps.lowLink u member

theorem Followed.mono (h : t.Followed n u) (less : m ≤ n) : t.Followed m u :=
  ⟨h.1, fun member => less.trans (h.2 member)⟩

/-- Vertices that come onto the stack later do not matter to an edge that has been followed. -/
theorem Followed.visits (h : current.Followed n u)
    (visits : Visits successors vertices v current after fresh) : after.Followed n u := by
  refine ⟨visits.keeps.entered u h.1, fun member => ?_⟩
  rw [visits.keeps.number u h.1]
  rw [visits.stack] at member
  rcases List.mem_append.1 member with late | early
  · exact absurd h.1 (visits.new u late)
  · exact h.2 early

/-- Before any edge has been followed. -/
theorem Scans.enter (sound : before.Sound successors vertices) (member : v ∈ vertices)
    (new : v ∉ before.entered) : Scans successors vertices v before (before.enter v) [] [] where
  sound := sound.enter member new
  keeps :=
    { entered := fun u old => List.mem_cons_of_mem v old
      number := fun u old => number_enter_of_ne fun same => new (same ▸ old)
      lowLink := fun u old => lowLink_enter_of_ne fun same => new (same ▸ old) }
  entered := List.mem_cons_self
  stack := rfl
  new := by simp
  number := number_enter_self
  lowLink_le := lowLink_enter_self.le
  reached := by simp
  returns := by simp
  followed := by simp
  scanned := by simp
  least := ⟨v, List.mem_cons_self, number_enter_self.trans lowLink_enter_self.symm, .refl⟩

/-- A way to a vertex on the stack has been found. -/
theorem Scans.lower (scans : Scans successors vertices v before current fresh scanned)
    (new : v ∉ before.entered)
    (found : n < current.lowLink v →
      ∃ w ∈ current.stack, current.number w = n ∧ Leads successors v w) :
    Scans successors vertices v before (current.lower v n) fresh scanned where
  sound := scans.sound.lower v n
  keeps := scans.keeps.lower new n
  entered := scans.entered
  stack := scans.stack
  new := scans.new
  number := scans.number
  lowLink_le := by
    rw [lowLink_lower_self]
    exact (min_le_right _ _).trans scans.lowLink_le
  reached := scans.reached
  returns := scans.returns
  followed u member w step := by
    rw [lowLink_lower_self]
    exact (scans.followed u member w step).mono (min_le_right _ _)
  scanned w member := by
    rw [lowLink_lower_self]
    exact (scans.scanned w member).mono (min_le_right _ _)
  least := by
    rw [lowLink_lower_self]
    rcases Nat.lt_or_ge n (current.lowLink v) with less | more
    · rw [min_eq_left less.le]
      exact found less
    · rw [min_eq_right more]
      exact scans.least

/-- One more edge has been followed. -/
theorem Scans.concat (scans : Scans successors vertices v before current fresh scanned)
    (followed : current.Followed (current.lowLink v) next) :
    Scans successors vertices v before current fresh (scanned ++ [next]) :=
  { scans with
    scanned := fun w member => by
      rcases List.mem_append.1 member with old | last
      · exact scans.scanned w old
      · rwa [List.mem_singleton.1 last] }

/-- Everything on the stack leads to the vertex whose edges are followed. -/
theorem Scans.leads (scans : Scans successors vertices v before current fresh scanned)
    (back : ∀ w ∈ before.stack, Leads successors w v) :
    ∀ w ∈ current.stack, Leads successors w v := by
  intro w member
  rw [scans.stack] at member
  rcases List.mem_append.1 member with above | below
  · exact scans.returns w above
  · rcases List.mem_cons.1 below with rfl | below
    · exact .refl
    · exact back w below

/-- After the visit of a successor, the lesser of the two low links is the number of a vertex on the stack. -/
theorem Scans.least_of_visits (scans : Scans successors vertices v before current fresh scanned)
    (step : next ∈ successors v) (visits : Visits successors vertices next current after fresh') :
    ∃ w ∈ after.stack, after.number w = min (after.lowLink next) (current.lowLink v) ∧ Leads successors v w := by
  have onStack {w : α} (member : w ∈ current.stack) : w ∈ after.stack := by
    rw [visits.stack]
    exact List.mem_append_right _ member
  have old : ∃ w ∈ after.stack, after.number w = current.lowLink v ∧ Leads successors v w := by
    obtain ⟨w, member, number, path⟩ := scans.least
    have same := visits.keeps.number w (scans.sound.enteredOfStack member)
    exact ⟨w, onStack member, same.trans number, path⟩
  rcases visits.least with root | ⟨w, member, number, path⟩
  · -- the vertex has been entered before its successor, which was the root of a component
    have less : current.lowLink v < current.next :=
      (scans.lowLink_le.trans scans.number.ge).trans_lt (scans.sound.below v scans.entered)
    rwa [root, min_eq_right less.le]
  · rcases Nat.lt_or_ge (after.lowLink next) (current.lowLink v) with lower | higher
    · rw [min_eq_left lower.le]
      exact ⟨w, onStack member, number, path.head step⟩
    · rwa [min_eq_right higher]

/-- An edge to a vertex that has not been entered, which is visited. -/
theorem Scans.visit (scans : Scans successors vertices v before current fresh scanned)
    (new : v ∉ before.entered) (back : ∀ w ∈ before.stack, Leads successors w v)
    (step : next ∈ successors v) (visits : Visits successors vertices next current after fresh') :
    Scans successors vertices v before (after.lower v (after.lowLink next)) (fresh' ++ fresh)
      (scanned ++ [next]) := by
  have low : (after.lower v (after.lowLink next)).lowLink v = min (after.lowLink next) (current.lowLink v) := by
    rw [lowLink_lower_self, visits.keeps.lowLink v scans.entered]
  exact
    { sound := visits.sound.lower v _
      keeps := (scans.keeps.trans visits.keeps).lower new _
      entered := visits.keeps.entered v scans.entered
      stack := by
        show after.stack = _
        rw [visits.stack, scans.stack, List.append_assoc]
      new := fun u member => by
        rcases List.mem_append.1 member with late | early
        · exact fun old => visits.new u late (scans.keeps.entered u old)
        · exact scans.new u early
      number := (visits.keeps.number v scans.entered).trans scans.number
      lowLink_le := by
        rw [low]
        exact (min_le_right _ _).trans scans.lowLink_le
      reached := fun u member => by
        rcases List.mem_append.1 member with late | early
        · exact (visits.reached u late).head step
        · exact scans.reached u early
      returns := fun u member => by
        rcases List.mem_append.1 member with late | early
        · obtain ⟨w, below, path⟩ := visits.returns u late
          exact path.trans (scans.leads back w below)
        · exact scans.returns u early
      followed := fun u member w edge => by
        rw [low]
        rcases List.mem_append.1 member with late | early
        · exact (visits.followed u late w edge).mono (min_le_left _ _)
        · exact ((scans.followed u early w edge).visits visits).mono (min_le_right _ _)
      scanned := fun w member => by
        rw [low]
        rcases List.mem_append.1 member with old | last
        · exact ((scans.scanned w old).visits visits).mono (min_le_right _ _)
        · rw [List.mem_singleton.1 last]
          refine ⟨visits.entered, fun _ => (min_le_left _ _).trans ?_⟩
          exact visits.lowLink_le.trans visits.number.ge
      least := by
        rw [low]
        exact scans.least_of_visits step visits }

/-- What stands on the stack below a vertex has a lower number, and nothing else does. -/
theorem Scans.mem_below_iff (scans : Scans successors vertices v before current fresh scanned) {w : α}
    (member : w ∈ current.stack) : w ∈ before.stack ↔ current.number w < current.number v := by
  have sorted := scans.sound.sorted
  rw [scans.stack] at sorted member
  obtain ⟨-, lower, above⟩ := List.pairwise_append.1 sorted
  refine ⟨fun below => (List.pairwise_cons.1 lower).1 w below, fun less => ?_⟩
  rcases List.mem_append.1 member with late | early
  · exact absurd (above w late v List.mem_cons_self) less.asymm
  · rcases List.mem_cons.1 early with rfl | below
    · exact absurd less (Nat.lt_irrefl _)
    · exact below

/-- The stack from the vertex on, and what is below. -/
theorem Scans.stack_eq (scans : Scans successors vertices v before current fresh scanned) :
    current.stack = (fresh ++ [v]) ++ before.stack := by
  rw [scans.stack, List.append_assoc, List.singleton_append]

/-- What stands on the stack from the vertex on is reached from it and leads back to it. -/
theorem Scans.around (scans : Scans successors vertices v before current fresh scanned) {u : α}
    (member : u ∈ fresh ++ [v]) : Leads successors v u ∧ Leads successors u v := by
  rcases List.mem_append.1 member with above | last
  · exact ⟨scans.reached u above, scans.returns u above⟩
  · rw [List.mem_singleton.1 last]
    exact ⟨.refl, .refl⟩

/-- When all edges of the vertex have been followed, all edges from there on have been. -/
theorem Scans.followed_of_mem (scans : Scans successors vertices v before current fresh (successors v)) {u w : α}
    (member : u ∈ fresh ++ [v]) (step : w ∈ successors u) : current.Followed (current.lowLink v) w := by
  rcases List.mem_append.1 member with above | last
  · exact scans.followed u above w step
  · rw [List.mem_singleton.1 last] at step
    exact scans.scanned w step

/-- A vertex whose low link is its own number is the root of a component, which is taken off the stack. -/
theorem Scans.complete (scans : Scans successors vertices v before current fresh (successors v))
    (root : current.lowLink v = current.number v) :
    Visits successors vertices v before (current.complete v) [] := by
  have apart : v ∉ fresh := by
    have distinct := scans.sound.nodup
    rw [scans.stack] at distinct
    exact (List.nodup_middle.1 distinct).notMem ∘ List.mem_append_left _
  have sound : (current.complete v).Sound successors vertices := by
    refine scans.sound.complete scans.stack ?_ fun a member b step => ?_
    · exact fun a first b second => (scans.around first).2.trans (scans.around second).1
    · obtain ⟨entered, known⟩ := scans.followed_of_mem member step
      rcases (scans.sound.entered b).1 entered with onStack | complete
      · have higher := Nat.not_lt.2 (root ▸ known onStack)
        rw [← scans.mem_below_iff onStack] at higher
        rw [scans.stack_eq] at onStack
        exact .inr ((List.mem_append.1 onStack).resolve_right higher)
      · exact .inl complete
  rw [complete_eq scans.stack apart] at sound ⊢
  exact
    { sound := sound
      keeps := ⟨scans.keeps.entered, scans.keeps.number, scans.keeps.lowLink⟩
      entered := scans.entered
      stack := rfl
      new := by simp
      number := scans.number
      lowLink_le := scans.lowLink_le
      reached := by simp
      returns := by simp
      followed := by simp
      least := .inl (root.trans scans.number) }

/-- A vertex whose low link is another number leads to a vertex below it, and stays on the stack. -/
theorem Scans.stay (scans : Scans successors vertices v before current fresh (successors v))
    (new : v ∉ before.entered) (other : current.lowLink v ≠ current.number v) :
    Visits successors vertices v before current (fresh ++ [v]) := by
  obtain ⟨w, onStack, number, path⟩ := scans.least
  have below : w ∈ before.stack := by
    rw [scans.mem_below_iff onStack, number, scans.number]
    exact lt_of_le_of_ne scans.lowLink_le fun same => other (same.trans scans.number.symm)
  exact
    { sound := scans.sound
      keeps := scans.keeps
      entered := scans.entered
      stack := scans.stack_eq
      new := fun u member => by
        rcases List.mem_append.1 member with above | last
        · exact scans.new u above
        · rwa [List.mem_singleton.1 last]
      number := scans.number
      lowLink_le := scans.lowLink_le
      reached := fun u member => (scans.around member).1
      returns := fun u member => ⟨w, below, (scans.around member).2.trans path⟩
      followed := fun u member w step => scans.followed_of_mem member step
      least := .inr ⟨w, below, number, path⟩ }

/-- All edges of a vertex have been followed, and it is left: it is the root of a component, or it leads to a
vertex with a lower number. -/
theorem Scans.leave (scans : Scans successors vertices v before current fresh (successors v))
    (new : v ∉ before.entered) : ∃ left, Visits successors vertices v before (current.leave v) left := by
  rw [ComponentSearch.leave]
  split
  · rename_i root
    exact ⟨[], scans.complete root⟩
  · rename_i other
    exact ⟨fresh ++ [v], scans.stay new other⟩

/-- Following edges one after another, where a visit does what it should. -/
theorem exists_scans {visitOne : ComponentSearch α → α → ComponentSearch α} {depth : Nat}
    (one : ∀ t, unseen vertices t.entered ≤ depth → t.Sound successors vertices → ∀ w ∈ vertices,
      w ∉ t.entered → (∀ u ∈ t.stack, Leads successors u w) →
        ∃ fresh, Visits successors vertices w t (visitOne t w) fresh)
    (new : v ∉ before.entered) (back : ∀ w ∈ before.stack, Leads successors w v) (rest : List α) :
    ∀ current fresh scanned, (∀ w ∈ rest, w ∈ vertices ∧ w ∈ successors v) →
      unseen vertices current.entered ≤ depth → Scans successors vertices v before current fresh scanned →
        ∃ fresh, Scans successors vertices v before (rest.foldl (follow vertices visitOne v) current) fresh
          (scanned ++ rest) := by
  induction rest with
  | nil =>
    intro current fresh scanned _ _ scans
    exact ⟨fresh, by rwa [List.append_nil]⟩
  | cons next rest ih =>
    intro current fresh scanned edges enough scans
    obtain ⟨⟨inside, step⟩, edges⟩ := List.forall_mem_cons.1 edges
    have onwards {current' : ComponentSearch α} {fresh' : List α}
        (grows : ∀ u ∈ current.entered, u ∈ current'.entered)
        (scans' : Scans successors vertices v before current' fresh' (scanned ++ [next])) :
        ∃ fresh, Scans successors vertices v before (rest.foldl (follow vertices visitOne v) current') fresh
          (scanned ++ next :: rest) := by
      have fewer : unseen vertices current'.entered ≤ depth := (unseen_le_of_subset grows).trans enough
      have later := ih current' fresh' (scanned ++ [next]) edges fewer scans'
      rwa [List.append_assoc] at later
    rw [List.foldl_cons, follow, if_neg (not_not_intro inside)]
    by_cases entered : next ∈ current.entered
    · rw [if_neg (not_not_intro entered)]
      by_cases onStack : next ∈ current.onStack
      · rw [if_pos onStack]
        have stacked := (scans.sound.onStack next).1 onStack
        have lowered := scans.lower new fun _ => ⟨next, stacked, rfl, .single step⟩
        refine onwards (fun u old => old) (lowered.concat ⟨entered, fun _ => ?_⟩)
        rw [lowLink_lower_self]
        exact min_le_left _ _
      · rw [if_neg onStack]
        exact onwards (fun u old => old)
          (scans.concat ⟨entered, fun stacked => absurd ((scans.sound.onStack next).2 stacked) onStack⟩)
    · rw [if_pos entered]
      have ways : ∀ u ∈ current.stack, Leads successors u next :=
        fun u member => (scans.leads back u member).tail step
      obtain ⟨late, visits⟩ := one current enough scans.sound next inside entered ways
      exact onwards visits.keeps.entered (scans.visit new back step visits)

/-- **A visit** of a vertex to which everything on the stack leads, if the depth is enough for all vertices that
have not been entered. -/
theorem exists_visits (closed : ∀ a ∈ vertices, ∀ b ∈ successors a, b ∈ vertices) (depth : Nat) :
    ∀ t, unseen vertices t.entered ≤ depth → t.Sound successors vertices → ∀ v ∈ vertices, v ∉ t.entered →
      (∀ u ∈ t.stack, Leads successors u v) →
        ∃ fresh, Visits successors vertices v t (visit successors vertices depth t v) fresh := by
  induction depth with
  | zero =>
    intro t enough _ v member new
    exact absurd (mem_of_unseen_eq_zero (Nat.le_zero.1 enough) member) new
  | succ depth ih =>
    intro t enough sound v member new back
    have fewer := unseen_cons_lt member new
    obtain ⟨fresh, scans⟩ := exists_scans ih new back (successors v) (t.enter v) [] []
      (fun w step => ⟨closed v member w step, step⟩) (Nat.le_of_lt_succ (fewer.trans_le enough))
      (.enter sound member new)
    exact scans.leave new

/-! ## The whole search -/

/-- Visiting vertices one after another leaves nothing on the stack. -/
theorem sound_foldl_visitNew (closed : ∀ a ∈ vertices, ∀ b ∈ successors a, b ∈ vertices) (starts : List α) :
    ∀ t : ComponentSearch α, (∀ v ∈ starts, v ∈ vertices) → t.Sound successors vertices → t.stack = [] →
      (starts.foldl (visitNew successors vertices) t).Sound successors vertices ∧
        (starts.foldl (visitNew successors vertices) t).stack = [] ∧
        ∀ v, v ∈ t.entered ∨ v ∈ starts → v ∈ (starts.foldl (visitNew successors vertices) t).entered := by
  induction starts with
  | nil => exact fun t _ sound empty => ⟨sound, empty, by simp⟩
  | cons v rest ih =>
    intro t inside sound empty
    obtain ⟨member, inside⟩ := List.forall_mem_cons.1 inside
    rw [List.foldl_cons, visitNew]
    by_cases entered : v ∈ t.entered
    · rw [if_pos entered]
      obtain ⟨sound', empty', all⟩ := ih t inside sound empty
      refine ⟨sound', empty', fun u known => all u ?_⟩
      rcases known with old | start
      · exact .inl old
      · rcases List.mem_cons.1 start with rfl | later
        · exact .inl entered
        · exact .inr later
    · rw [if_neg entered]
      obtain ⟨fresh, visits⟩ := exists_visits closed vertices.length t List.countP_le_length sound v member
        entered (by simp [empty])
      have none : fresh = [] := by
        refine List.eq_nil_iff_forall_not_mem.2 fun u left => ?_
        obtain ⟨w, onStack, -⟩ := visits.returns u left
        rw [empty] at onStack
        cases onStack
      have cleared : (visit successors vertices vertices.length t v).stack = [] := by
        rw [visits.stack, none, empty, List.append_nil]
      obtain ⟨sound', empty', all⟩ := ih _ inside visits.sound cleared
      refine ⟨sound', empty', fun u known => all u ?_⟩
      rcases known with old | start
      · exact .inl (visits.keeps.entered u old)
      · rcases List.mem_cons.1 start with rfl | later
        · exact .inl visits.entered
        · exact .inr later

/-- **The components of a graph** are complete, and every vertex is in one of them. -/
theorem complete_allComponents (closed : ∀ a ∈ vertices, ∀ b ∈ successors a, b ∈ vertices) :
    Complete successors (allComponents successors vertices) ∧
      ∀ v, v ∈ (allComponents successors vertices).flatten ↔ v ∈ vertices := by
  obtain ⟨sound, empty, all⟩ := sound_foldl_visitNew closed vertices start (fun _ member => member) .start rfl
  refine ⟨sound.components, fun v => ⟨fun member => ?_, fun member => ?_⟩⟩
  · exact sound.inside v ((sound.entered v).2 (.inr member))
  · refine ((sound.entered v).1 (all v (.inr member))).resolve_left fun onStack => ?_
    rw [empty] at onStack
    cases onStack

end Visits

/-! ## Components with cycles -/

/-- A component has a cycle if there is a way around from its root. -/
theorem Complete.hasCycle_iff {components : List (List α)} (h : Complete successors components) {a : α}
    {others : List α} (listed : a :: others ∈ components) :
    hasCycle successors (a :: others) = true ↔ TransGen (Edge successors) a a := by
  have distinct := (List.nodup_flatten.1 h.nodup).1 _ listed
  constructor
  · intro cyclic
    rw [hasCycle, Bool.or_eq_true] at cyclic
    rcases cyclic with second | loop
    · obtain ⟨u, rest, rfl⟩ : ∃ u rest, others = u :: rest :=
        List.exists_cons_of_length_pos (by simpa using second)
      have apart : a ≠ u := fun same => (List.nodup_cons.1 distinct).1 (by simp [same])
      have out := h.strong _ listed a (by simp) u (by simp)
      have back := h.strong _ listed u (by simp) a (by simp)
      exact ((reflTransGen_iff_eq_or_transGen.1 out).resolve_left apart.symm).trans_left back
    · exact .single (show a ∈ successors a by simpa using loop)
  · intro around
    rw [hasCycle, Bool.or_eq_true]
    obtain ⟨u, step, back⟩ := TransGen.head'_iff.1 around
    have inside : u ∈ a :: others := (h.mem_iff listed List.mem_cons_self).2 ⟨.single step, back⟩
    rcases List.mem_cons.1 inside with rfl | second
    · have loop : u ∈ successors u := step
      exact .inr (by simpa using loop)
    · exact .inl (by simpa using List.length_pos_of_mem second)

end IsoLiteral.ComponentSearch
