/-!
# Flags

One flag for each place of a list, none of them raised at first. A flag that is raised stays raised.
-/

namespace IsoLiteral

/-- A flag for each of `n` places. -/
abbrev Flags (n : Nat) := Vector Bool n

namespace Flags

variable {n : Nat}

/-- No flag is raised. -/
def none (n : Nat) : Flags n := .replicate n false

/-- Raises the flag of a place. -/
def raise (flags : Flags n) (place : Fin n) : Flags n := flags.set place true

@[simp] theorem get_none (place : Fin n) : (none n).get place = false :=
  Vector.getElem_replicate place.isLt

@[simp] theorem get_raise (flags : Flags n) (place other : Fin n) :
    (flags.raise place).get other = (flags.get other || decide (other = place)) := by
  by_cases same : other = place
  · subst same
    rw [decide_eq_true rfl, Bool.or_true]
    exact Vector.getElem_set_self other.isLt
  · rw [decide_eq_false same, Bool.or_false]
    exact Vector.getElem_set_ne place.isLt other.isLt fun equal => same (Fin.ext equal.symm)

end Flags

end IsoLiteral
