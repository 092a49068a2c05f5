import IsoLiteral.Operation.Key
import Mathlib.Order.Defs.Unbundled
import Mathlib.Tactic

/-!
# Values and keys in order

The order of values is one of all values, however they are nested: comparing the other way round gives the
opposite, and the order is transitive. Where the sorts of two values differ, their ranks decide, so that only
values of one sort have to be looked into. The order of keys is the same with names and sorts of its own.
-/

namespace IsoLiteral

/-- A comparison that swaps, is transitive and tells different things apart is lawful. -/
theorem transCmp_of_lt_trans {α : Type} {cmp : α → α → Ordering} (swap : ∀ a b, (cmp a b).swap = cmp b a)
    (same : ∀ a b, cmp a b = .eq ↔ a = b)
    (trans : ∀ a b c, cmp a b = .lt → cmp b c = .lt → cmp a c = .lt) : Std.TransCmp cmp where
  eq_swap {a b} := (swap b a).symm
  isLE_trans {a b c} first second := by
    rcases Ordering.isLE_iff_eq_lt_or_eq_eq.1 first with less | eq
    · rcases Ordering.isLE_iff_eq_lt_or_eq_eq.1 second with less' | eq
      · rw [trans a b c less less']
        rfl
      · rwa [← (same b c).1 eq]
    · rwa [(same a b).1 eq]

namespace Value

/-- Values of different sorts are in the order of their ranks. -/
theorem compare_of_rank_ne {a b : Value} (apart : a.rank ≠ b.rank) :
    compare a b = Ord.compare a.rank b.rank := by
  cases a <;> cases b <;> first | rfl | exact absurd rfl apart

mutual
theorem swap_compare (a b : Value) : (compare a b).swap = compare b a := by
  by_cases same : a.rank = b.rank
  · cases a with
    | list as =>
      cases b with
      | list bs =>
        rw [compare, compare]
        exact swap_compareItems as bs
      | _ => cases same
    | object as =>
      cases b with
      | object bs =>
        rw [compare, compare]
        exact swap_compareFields as bs
      | _ => cases same
    | _ =>
      cases b <;> cases same
      all_goals simp only [compare, Ordering.swap_eq, ← Std.OrientedOrd.eq_swap]
  · rw [compare_of_rank_ne same, compare_of_rank_ne (Ne.symm same), ← Std.OrientedOrd.eq_swap]
theorem swap_compareItems (as bs : List Value) : (compareItems as bs).swap = compareItems bs as := by
  cases as with
  | nil => cases bs <;> rfl
  | cons a as =>
    cases bs with
    | nil => rfl
    | cons b bs => rw [compareItems, Ordering.swap_then, swap_compare, swap_compareItems, compareItems]
theorem swap_compareFields (as bs : List (String × Value)) :
    (compareFields as bs).swap = compareFields bs as := by
  cases as with
  | nil => cases bs <;> rfl
  | cons field as =>
    cases bs with
    | nil => rfl
    | cons other bs =>
      obtain ⟨k, a⟩ := field
      obtain ⟨l, b⟩ := other
      rw [compareFields, Ordering.swap_then, Ordering.swap_then, swap_compare, swap_compareFields,
        ← Std.OrientedOrd.eq_swap, compareFields]
end

theorem rank_le_of_lt {a b : Value} (less : compare a b = .lt) : a.rank ≤ b.rank := by
  by_contra more
  rw [compare_of_rank_ne (by omega), Nat.compare_eq_gt.2 (by omega)] at less
  cases less

mutual
theorem compare_lt_trans (a b c : Value) (first : compare a b = .lt) (second : compare b c = .lt) :
    compare a c = .lt := by
  by_cases same : a.rank = b.rank ∧ b.rank = c.rank
  · obtain ⟨same, same'⟩ := same
    cases a with
    | list as =>
      cases b with
      | list bs =>
        cases c with
        | list cs =>
          rw [compare] at first second ⊢
          exact compareItems_lt_trans as bs cs first second
        | _ => cases same'
      | _ => cases same
    | object as =>
      cases b with
      | object bs =>
        cases c with
        | object cs =>
          rw [compare] at first second ⊢
          exact compareFields_lt_trans as bs cs first second
        | _ => cases same'
      | _ => cases same
    | null =>
      cases b <;> cases same
      cases first
    | _ =>
      cases b <;> cases same
      all_goals
        cases c <;> cases same'
        simp only [compare] at first second ⊢
        exact Std.TransCmp.lt_trans first second
  · -- the sorts are in order, and not all the same
    have le : a.rank ≤ b.rank := rank_le_of_lt first
    have le' : b.rank ≤ c.rank := rank_le_of_lt second
    have less : a.rank < c.rank := by omega
    rw [compare_of_rank_ne (Nat.ne_of_lt less), Nat.compare_eq_lt.2 less]
termination_by structural a
theorem compareItems_lt_trans (as bs cs : List Value) (first : compareItems as bs = .lt)
    (second : compareItems bs cs = .lt) : compareItems as cs = .lt := by
  cases as with
  | nil =>
    cases cs with
    | nil => cases bs <;> cases second
    | cons _ _ => rfl
  | cons a as =>
    cases bs with
    | nil => cases first
    | cons b bs =>
      cases cs with
      | nil => cases second
      | cons c cs =>
        simp only [compareItems, Ordering.then_eq_lt, compare_eq_iff] at first second ⊢
        rcases first with less | ⟨rfl, less⟩
        · rcases second with less' | ⟨rfl, -⟩
          · exact .inl (compare_lt_trans a b c less less')
          · exact .inl less
        · rcases second with less' | ⟨rfl, less'⟩
          · exact .inl less'
          · exact .inr ⟨rfl, compareItems_lt_trans as bs cs less less'⟩
termination_by structural as
theorem compareFields_lt_trans (as bs cs : List (String × Value)) (first : compareFields as bs = .lt)
    (second : compareFields bs cs = .lt) : compareFields as cs = .lt := by
  cases as with
  | nil =>
    cases cs with
    | nil => cases bs <;> cases second
    | cons _ _ => rfl
  | cons field as =>
    cases bs with
    | nil => cases first
    | cons field' bs =>
      cases cs with
      | nil => cases second
      | cons field'' cs =>
        obtain ⟨k, a⟩ := field
        obtain ⟨l, b⟩ := field'
        obtain ⟨m, c⟩ := field''
        simp only [compareFields, Ordering.then_eq_lt, Ordering.then_eq_eq, compare_eq_iff,
          Std.LawfulEqOrd.compare_eq_iff_eq] at first second ⊢
        rcases first with (less | ⟨rfl, less⟩) | ⟨⟨rfl, rfl⟩, less⟩
        · rcases second with (less' | ⟨rfl, -⟩) | ⟨⟨rfl, rfl⟩, -⟩
          · exact .inl (.inl (Std.TransCmp.lt_trans less less'))
          · exact .inl (.inl less)
          · exact .inl (.inl less)
        · rcases second with (less' | ⟨rfl, less'⟩) | ⟨⟨rfl, rfl⟩, -⟩
          · exact .inl (.inl less')
          · exact .inl (.inr ⟨rfl, compare_lt_trans a b c less less'⟩)
          · exact .inl (.inr ⟨rfl, less⟩)
        · rcases second with different | ⟨same, less'⟩
          · exact .inl different
          · exact .inr ⟨same, compareFields_lt_trans as bs cs less less'⟩
termination_by structural as
end

instance : Std.TransCmp compareFields :=
  transCmp_of_lt_trans swap_compareFields compareFields_eq_iff compareFields_lt_trans

end Value

namespace SelectionKey

/-- Keys of different sorts are in the order of their ranks. -/
theorem compare_of_rank_ne {a b : SelectionKey} (apart : a.rank ≠ b.rank) :
    compare a b = Ord.compare a.rank b.rank := by
  cases a <;> cases b <;> first | rfl | exact absurd rfl apart

theorem swap_compare (a b : SelectionKey) : (compare a b).swap = compare b a := by
  cases a <;> cases b
  case serverField.serverField n as m bs =>
    rw [compare, compare, Ordering.swap_then, Value.swap_compareFields, ← Std.OrientedOrd.eq_swap]
  case inlineFragment.inlineFragment s t => rw [compare, compare, ← Std.OrientedOrd.eq_swap]
  all_goals rfl

theorem rank_le_of_lt {a b : SelectionKey} (less : compare a b = .lt) : a.rank ≤ b.rank := by
  by_contra more
  rw [compare_of_rank_ne (by omega), Nat.compare_eq_gt.2 (by omega)] at less
  cases less

theorem compare_lt_trans (a b c : SelectionKey) (first : compare a b = .lt) (second : compare b c = .lt) :
    compare a c = .lt := by
  by_cases same : a.rank = b.rank ∧ b.rank = c.rank
  · obtain ⟨same, same'⟩ := same
    cases a with
    | id =>
      cases b <;> cases same
      cases first
    | serverField n as =>
      cases b with
      | serverField m bs =>
        cases c with
        | serverField k cs =>
          simp only [compare, Ordering.then_eq_lt, Std.LawfulEqOrd.compare_eq_iff_eq] at first second ⊢
          rcases first with less | ⟨rfl, less⟩
          · rcases second with less' | ⟨rfl, -⟩
            · exact .inl (Std.TransCmp.lt_trans less less')
            · exact .inl less
          · rcases second with less' | ⟨same, less'⟩
            · exact .inl less'
            · exact .inr ⟨same, Std.TransCmp.lt_trans less less'⟩
        | _ => cases same'
      | _ => cases same
    | inlineFragment s =>
      cases b with
      | inlineFragment t =>
        cases c with
        | inlineFragment u =>
          rw [compare] at first second ⊢
          exact Std.TransCmp.lt_trans first second
        | _ => cases same'
      | _ => cases same
  · have le : a.rank ≤ b.rank := rank_le_of_lt first
    have le' : b.rank ≤ c.rank := rank_le_of_lt second
    have less : a.rank < c.rank := by omega
    rw [compare_of_rank_ne (Nat.ne_of_lt less), Nat.compare_eq_lt.2 less]

/-- **Keys are in a lawful total order.** -/
instance : Std.TransCmp compare := transCmp_of_lt_trans swap_compare compare_eq_iff compare_lt_trans

instance : Std.LawfulEqCmp compare where
  eq_of_compare {a b} := (compare_eq_iff a b).1

end SelectionKey

end IsoLiteral
