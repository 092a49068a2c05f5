import IsoLiteral.Declaration.Value

/-!
# The order of values

Values are ordered by their sort first: variables, integers, floats, strings, booleans, null, enum
values, lists, objects. Within a sort the contents decide; texts compare by code point, floats as
texts, lists item by item with the shorter one first. Two values compare equal exactly when they are
the same, which also decides their equality.
-/

namespace IsoLiteral.Value

/-- The place of a value's sort in the order. -/
def rank : Value → Nat
  | .variable _ => 0
  | .int _ => 1
  | .float _ => 2
  | .string _ => 3
  | .boolean _ => 4
  | .null => 5
  | .enum _ => 6
  | .list _ => 7
  | .object _ => 8

mutual
/-- Compares two values. -/
def compare : Value → Value → Ordering
  | .variable a, .variable b => Ord.compare a b
  | .int a, .int b => Ord.compare a b
  | .float a, .float b => Ord.compare a b
  | .string a, .string b => Ord.compare a b
  | .boolean a, .boolean b => Ord.compare a b
  | .null, .null => .eq
  | .enum a, .enum b => Ord.compare a b
  | .list a, .list b => compareItems a b
  | .object a, .object b => compareFields a b
  | a, b => Ord.compare a.rank b.rank
termination_by structural a => a
/-- Compares two lists item by item. -/
def compareItems : List Value → List Value → Ordering
  | [], [] => .eq
  | [], _ :: _ => .lt
  | _ :: _, [] => .gt
  | a :: as, b :: bs => (compare a b).then (compareItems as bs)
termination_by structural a => a
/-- Compares two lists of fields, each by its key and then by its value. -/
def compareFields : List (String × Value) → List (String × Value) → Ordering
  | [], [] => .eq
  | [], _ :: _ => .lt
  | _ :: _, [] => .gt
  | (k, a) :: as, (l, b) :: bs =>
    ((Ord.compare k l).then (compare a b)).then (compareFields as bs)
termination_by structural a => a
end

mutual
theorem compare_eq_iff : ∀ a b : Value, compare a b = .eq ↔ a = b
  | .variable a, b => by cases b <;> simp [compare, rank]
  | .int a, b => by cases b <;> simp [compare, rank]
  | .float a, b => by cases b <;> simp [compare, rank]
  | .string a, b => by cases b <;> simp [compare, rank]
  | .boolean a, b => by cases b <;> simp [compare, rank]
  | .null, b => by cases b <;> simp [compare, rank]
  | .enum a, b => by cases b <;> simp [compare, rank]
  | .list a, b => by
    cases b
    case list b => simpa [compare] using compareItems_eq_iff a b
    all_goals simp [compare, rank]
  | .object a, b => by
    cases b
    case object b => simpa [compare] using compareFields_eq_iff a b
    all_goals simp [compare, rank]
theorem compareItems_eq_iff : ∀ as bs : List Value, compareItems as bs = .eq ↔ as = bs
  | [], [] => by simp [compareItems]
  | [], _ :: _ => by simp [compareItems]
  | _ :: _, [] => by simp [compareItems]
  | a :: as, b :: bs => by
    simp [compareItems, Ordering.then_eq_eq, compare_eq_iff a b, compareItems_eq_iff as bs]
theorem compareFields_eq_iff :
    ∀ as bs : List (String × Value), compareFields as bs = .eq ↔ as = bs
  | [], [] => by simp [compareFields]
  | [], _ :: _ => by simp [compareFields]
  | _ :: _, [] => by simp [compareFields]
  | (k, a) :: as, (l, b) :: bs => by
    simp [compareFields, Ordering.then_eq_eq, compare_eq_iff a b, compareFields_eq_iff as bs]
end

instance : DecidableEq Value := fun a b => decidable_of_iff _ (compare_eq_iff a b)

end IsoLiteral.Value
