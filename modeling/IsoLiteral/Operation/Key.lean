import IsoLiteral.Declaration.ValueOrder

/-!
# Keys of requested selections

Within one selection set a request is identified by its key: the record's `id`, a field of the server
with its arguments, or a fragment on a type. The order of the keys is the order in which a query
lists its selections: `id` first, then fields by name and arguments, then fragments by type.
-/

namespace IsoLiteral

/-- What identifies a selection within its set. -/
inductive SelectionKey where
  | id
  | serverField (name : String) (arguments : List (String × Value))
  | inlineFragment (typeName : String)
deriving DecidableEq, Repr

namespace SelectionKey

/-- The place of a key's sort in the order. -/
def rank : SelectionKey → Nat
  | .id => 0
  | .serverField _ _ => 1
  | .inlineFragment _ => 2

/-- Compares two keys. -/
def compare : SelectionKey → SelectionKey → Ordering
  | .serverField n as, .serverField m bs => (Ord.compare n m).then (Value.compareFields as bs)
  | .inlineFragment s, .inlineFragment t => Ord.compare s t
  | a, b => Ord.compare a.rank b.rank

theorem compare_eq_iff (a b : SelectionKey) : compare a b = .eq ↔ a = b := by
  cases a <;> cases b <;>
    simp [compare, rank, Ordering.then_eq_eq, Value.compareFields_eq_iff]

end SelectionKey

end IsoLiteral
