/-!
# Interned strings

An interner numbers strings in the order in which they are first seen. A symbol is such a number, kept
in 32 bits; it means something only to the interner that gave it out, and symbols compare by number.
-/

namespace IsoLiteral

/-- The handle of an interned string. -/
structure Symbol where
  number : UInt32
deriving DecidableEq, Repr, Inhabited

namespace Symbol

/-- The symbol with a number. Numbers beyond 32 bits wrap around. -/
def ofIndex (n : Nat) : Symbol := ⟨UInt32.ofNat n⟩

/-- The place of a symbol's string among all strings. -/
def index (x : Symbol) : Nat := x.number.toNat

theorem index_ofIndex {n : Nat} (small : n < UInt32.size) : (ofIndex n).index = n :=
  UInt32.toNat_ofNat_of_lt' small

@[simp] theorem ofIndex_index (x : Symbol) : ofIndex x.index = x := by
  rw [ofIndex, index, UInt32.ofNat_toNat]

end Symbol

/-- Symbols are ordered by the moment they were given out. -/
instance : Ord Symbol := ⟨fun a b => compare a.index b.index⟩

/-- The strings seen so far, each once and in the order of their first appearance. -/
structure Interner where
  strings : List String
deriving Repr, Inhabited

namespace Interner

/-- The interner that has seen nothing. -/
def empty : Interner := ⟨[]⟩

/-- The place of a string that has been seen. -/
def place? (i : Interner) (s : String) : Option Nat := i.strings.idxOf? s

/-- The place of a string, with the interner that has seen it. -/
def insert (i : Interner) (s : String) : Nat × Interner :=
  match i.place? s with
  | some place => (place, i)
  | none => (i.strings.length, ⟨i.strings ++ [s]⟩)

/-- The symbol of a string that has been seen. -/
def get? (i : Interner) (s : String) : Option Symbol := (i.place? s).map Symbol.ofIndex

/-- The symbol of a string, with the interner that has seen it. -/
def intern (i : Interner) (s : String) : Symbol × Interner :=
  let (place, next) := i.insert s
  (.ofIndex place, next)

/-- The string of a symbol; a symbol of another interner may have none. -/
def resolve? (i : Interner) (symbol : Symbol) : Option String := i.strings[symbol.index]?

/-- What is said about a symbol that has no string here. -/
def foreignMessage (symbol : Symbol) : String :=
  "symbol " ++ toString symbol.index ++ " does not belong to this interner"

/-- The string of a symbol that has to belong to this interner. -/
def resolve (i : Interner) (symbol : Symbol) : Except String String :=
  match i.resolve? symbol with
  | some s => .ok s
  | none => .error (foreignMessage symbol)

/-- How many strings have been seen. -/
def size (i : Interner) : Nat := i.strings.length

/-- Whether no string has been seen. -/
def isEmpty (i : Interner) : Bool := i.strings.isEmpty

/-- Every symbol given out with its string, in order. -/
def toList (i : Interner) : List (Symbol × String) := i.strings.mapIdx fun n s => (.ofIndex n, s)

/-! ## Places -/

section Places

variable {i : Interner} {s other : String} {place : Nat}

theorem place?_eq_none_iff : i.place? s = none ↔ s ∉ i.strings := List.idxOf?_eq_none_iff

theorem place?_eq_some_iff : i.place? s = some place ↔
    ∃ inside : place < i.strings.length, i.strings[place] = s ∧ ∀ k, (before : k < place) → i.strings[k] ≠ s :=
  List.idxOf?_eq_some_iff

theorem lt_of_place? (known : i.place? s = some place) : place < i.strings.length :=
  (place?_eq_some_iff.1 known).1

theorem eq_of_place? (known : i.place? s = some place) (same : i.place? other = some place) : s = other := by
  obtain ⟨_, here, -⟩ := place?_eq_some_iff.1 known
  obtain ⟨_, there, -⟩ := place?_eq_some_iff.1 same
  exact here.symm.trans there

theorem insert_of_place? (known : i.place? s = some place) : i.insert s = (place, i) := by
  rw [insert, known]

theorem insert_of_new (new : i.place? s = none) : i.insert s = (i.strings.length, ⟨i.strings ++ [s]⟩) := by
  rw [insert, new]

theorem place?_concat (i : Interner) (s other : String) :
    (⟨i.strings ++ [s]⟩ : Interner).place? other =
      (i.place? other).or (if s = other then some i.strings.length else none) := by
  rw [place?, List.idxOf?, List.findIdx?_append, List.findIdx?_singleton, place?, List.idxOf?]
  by_cases same : s = other <;> simp [same]

/-- A string is found at the place that it was given. -/
theorem place?_insert_self (i : Interner) (s : String) : (i.insert s).2.place? s = some (i.insert s).1 := by
  cases known : i.place? s with
  | some place =>
    rw [insert_of_place? known]
    exact known
  | none => rw [insert_of_new known, place?_concat, known, if_pos rfl, Option.none_or]

/-- Other strings stay where they are. -/
theorem place?_insert_of_ne (apart : s ≠ other) : (i.insert s).2.place? other = i.place? other := by
  cases known : i.place? s with
  | some place => rw [insert_of_place? known]
  | none => rw [insert_of_new known, place?_concat, if_neg apart, Option.or_none]

theorem length_le_insert (i : Interner) (s : String) : i.strings.length ≤ (i.insert s).2.strings.length := by
  cases known : i.place? s with
  | some place => simp [insert_of_place? known]
  | none => simp [insert_of_new known]

end Places

end Interner

end IsoLiteral
