import IsoLiteral.Interner
import Mathlib.Data.List.Induction
import Mathlib.Tactic

/-!
# Symbols stay what they are

An interner only ever appends, and appends what it has not seen, so that after any calls it holds the
distinct strings of these calls in the order of their first appearance. A string's symbol is its place among
them, and later calls change neither: as long as the places fit a symbol, strings and the symbols that were
given out for them determine each other.
-/

namespace IsoLiteral

namespace Interner

/-! ## One call -/

section Call

variable {i j : Interner} {s : String} {x : Symbol}

theorem isSome_get?_iff : (i.get? s).isSome = true ↔ s ∈ i.strings := by
  rw [get?, place?, Option.isSome_map, List.isSome_idxOf?]

theorem mem_of_get? (found : i.get? s = some x) : s ∈ i.strings := by
  apply isSome_get?_iff.1
  rw [found]
  rfl

theorem get?_eq_none_iff : i.get? s = none ↔ s ∉ i.strings := by
  rw [get?, Option.map_eq_none_iff, place?_eq_none_iff]

/-- A call appends a string that is new. -/
theorem strings_intern (i : Interner) (s : String) :
    (i.intern s).2.strings = if s ∈ i.strings then i.strings else i.strings ++ [s] := by
  rw [intern]
  cases known : i.place? s with
  | some place =>
    have seen : s ∈ i.strings := by
      obtain ⟨inside, rfl, -⟩ := place?_eq_some_iff.1 known
      exact List.getElem_mem inside
    rw [insert_of_place? known, if_pos seen]
  | none => rw [insert_of_new known, if_neg (place?_eq_none_iff.1 known)]

theorem prefix_intern (i : Interner) (s : String) : i.strings <+: (i.intern s).2.strings := by
  rw [strings_intern]
  split
  · exact List.prefix_rfl
  · apply List.prefix_append

/-- A string keeps its symbol while strings are appended. -/
theorem get?_of_prefix (grows : i.strings <+: j.strings) (known : i.get? s = some x) : j.get? s = some x := by
  rw [get?, Option.map_eq_some_iff] at known ⊢
  obtain ⟨n, place, numbered⟩ := known
  refine ⟨n, ?_, numbered⟩
  rw [place?_eq_some_iff] at place ⊢
  obtain ⟨inside, here, first⟩ := place
  have longer : i.strings.length ≤ j.strings.length := grows.length_le
  refine ⟨by omega, ?_, fun k before => ?_⟩
  · rw [← grows.getElem inside]
    exact here
  · rw [← grows.getElem (by omega)]
    exact first k before

/-- The symbol that a call returns is the string's symbol from then on. -/
theorem get?_intern_self (i : Interner) (s : String) : (i.intern s).2.get? s = some (i.intern s).1 := by
  rw [get?, intern]
  exact congrArg (Option.map Symbol.ofIndex) (place?_insert_self i s)

/-- Where every place fits a symbol, strings and symbols determine each other. -/
theorem get?_eq_some_iff (distinct : i.strings.Nodup) (few : i.strings.length ≤ UInt32.size) :
    i.get? s = some x ↔ i.strings[x.index]? = some s := by
  rw [get?, Option.map_eq_some_iff]
  constructor
  · rintro ⟨n, place, rfl⟩
    obtain ⟨inside, here, -⟩ := place?_eq_some_iff.1 place
    rw [Symbol.index_ofIndex (Nat.lt_of_lt_of_le inside few), List.getElem?_eq_some_iff]
    exact ⟨inside, here⟩
  · intro here
    obtain ⟨inside, here⟩ := List.getElem?_eq_some_iff.1 here
    refine ⟨x.index, ?_, x.ofIndex_index⟩
    rw [place?_eq_some_iff]
    refine ⟨inside, here, fun k before same => ?_⟩
    have again : k = x.index := distinct.getElem_inj_iff.1 (same.trans here.symm)
    omega

end Call

/-! ## Any number of calls -/

/-- The interner after some calls, one for each of the strings. -/
def afterCalls (calls : List String) : Interner := calls.foldl (fun i s => (i.intern s).2) empty

/-- One of the calls was for the string and returned the symbol. Whatever calls follow are further ones. -/
def Returned (calls : List String) (s : String) (x : Symbol) : Prop :=
  ∃ before further, calls = before ++ s :: further ∧ ((afterCalls before).intern s).1 = x

section Calls

variable {calls : List String} {s : String} {x : Symbol}

theorem afterCalls_concat (calls : List String) (s : String) :
    afterCalls (calls ++ [s]) = ((afterCalls calls).intern s).2 := by
  rw [afterCalls, List.foldl_append]
  rfl

theorem prefix_afterCalls (before further : List String) :
    (afterCalls before).strings <+: (afterCalls (before ++ further)).strings := by
  induction further using List.reverseRecOn with
  | nil => rw [List.append_nil]
  | append_singleton further s ih =>
    rw [← List.append_assoc, afterCalls_concat]
    exact ih.trans (prefix_intern _ s)

/-- **After any calls** there are the distinct strings, in the order of their first appearance. -/
theorem strings_afterCalls (calls : List String) : (afterCalls calls).strings = calls.eraseDups := by
  induction calls using List.reverseRecOn with
  | nil => rfl
  | append_singleton before s ih =>
    rw [afterCalls_concat, strings_intern, ih, List.eraseDups_append]
    by_cases seen : s ∈ before
    · rw [if_pos (List.mem_eraseDups.2 seen)]
      simp [List.removeAll, seen]
    · rw [if_neg (mt List.mem_eraseDups.1 seen)]
      simp [List.removeAll, List.eraseDups_cons, seen]

theorem nodup_afterCalls (calls : List String) : (afterCalls calls).strings.Nodup := by
  induction calls using List.reverseRecOn with
  | nil => apply List.nodup_nil
  | append_singleton before s ih =>
    rw [afterCalls_concat, strings_intern]
    split
    · exact ih
    · rename_i new
      rw [← List.concat_eq_append]
      exact ih.concat new

theorem get?_afterCalls_of_returned (returned : Returned calls s x) :
    (afterCalls calls).get? s = some x := by
  obtain ⟨before, further, rfl, rfl⟩ := returned
  have given := get?_intern_self (afterCalls before) s
  rw [← afterCalls_concat] at given
  have grows := prefix_afterCalls (before ++ [s]) further
  rw [List.append_assoc, List.singleton_append] at grows
  exact get?_of_prefix grows given

/-- **What is found for a string** is what a call for it has returned. -/
theorem get?_afterCalls_iff : (afterCalls calls).get? s = some x ↔ Returned calls s x := by
  constructor
  · intro found
    have known : s ∈ (afterCalls calls).strings := mem_of_get? found
    rw [strings_afterCalls, List.mem_eraseDups] at known
    obtain ⟨before, further, split⟩ := List.append_of_mem known
    refine ⟨before, further, split, ?_⟩
    have returned := get?_afterCalls_of_returned ⟨before, further, split, rfl⟩
    rw [found] at returned
    exact (Option.some.inj returned).symm
  · exact get?_afterCalls_of_returned

end Calls

/-! ## Strings and symbols -/

theorem resolve_eq_ok_iff {i : Interner} {x : Symbol} {s : String} :
    i.resolve x = .ok s ↔ i.resolve? x = some s := by
  rw [resolve]
  cases i.resolve? x <;> simp

theorem resolve_eq_error_iff {i : Interner} {x : Symbol} :
    i.resolve x = .error (foreignMessage x) ↔ i.resolve? x = none := by
  rw [resolve]
  cases i.resolve? x <;> simp

/-- Strings and their symbols, after calls that any further ones may have followed. -/
structure StableBijection (calls : List String) : Prop where
  /-- Two symbols are the same exactly if they were returned for the same string. -/
  same_iff : ∀ s t x y, Returned calls s x → Returned calls t y → (x = y ↔ s = t)
  /-- A symbol that has been returned leads back to its string. -/
  resolves : ∀ s x, Returned calls s x →
    (afterCalls calls).resolve? x = some s ∧ (afterCalls calls).resolve x = .ok s
  /-- A string is known exactly if it has been interned. -/
  known_iff : ∀ s, ((afterCalls calls).get? s).isSome = true ↔ s ∈ calls
  /-- What is found for a string is the symbol that was returned. -/
  found_iff : ∀ s x, (afterCalls calls).get? s = some x ↔ Returned calls s x
  /-- Symbols are the places of the distinct strings in the order of their first appearance. -/
  numbered : ∀ s x, Returned calls s x ↔ calls.eraseDups[x.index]? = some s
  /-- A symbol has no string exactly if it is beyond the number of distinct strings. -/
  foreign_iff : ∀ x, (afterCalls calls).resolve? x = none ↔ calls.eraseDups.length ≤ x.index
  /-- Such a symbol cannot be resolved. -/
  rejected_iff : ∀ x,
    (afterCalls calls).resolve x = .error (foreignMessage x) ↔ calls.eraseDups.length ≤ x.index

/-- **The interner is a stable bijection**, as long as the distinct strings can be numbered. -/
theorem stableBijection_afterCalls (calls : List String) (few : calls.eraseDups.length < 2 ^ 32) :
    StableBijection calls := by
  have fits : (afterCalls calls).strings.length ≤ UInt32.size := by
    rw [strings_afterCalls, UInt32.size]
    omega
  have numbered (s : String) (x : Symbol) : Returned calls s x ↔ calls.eraseDups[x.index]? = some s := by
    rw [← get?_afterCalls_iff, get?_eq_some_iff (nodup_afterCalls calls) fits, strings_afterCalls]
  have resolve?_eq (x : Symbol) : (afterCalls calls).resolve? x = calls.eraseDups[x.index]? := by
    rw [resolve?, strings_afterCalls]
  have foreign (x : Symbol) : (afterCalls calls).resolve? x = none ↔ calls.eraseDups.length ≤ x.index := by
    rw [resolve?_eq, List.getElem?_eq_none_iff]
  constructor
  case same_iff =>
    intro s t x y first second
    constructor
    · rintro rfl
      rw [numbered] at first second
      rw [first] at second
      exact Option.some.inj second
    · rintro rfl
      rw [← get?_afterCalls_iff] at first second
      rw [first] at second
      exact Option.some.inj second
  case resolves =>
    intro s x returned
    have found : (afterCalls calls).resolve? x = some s := by
      rw [resolve?_eq]
      exact (numbered s x).1 returned
    exact ⟨found, resolve_eq_ok_iff.2 found⟩
  case known_iff =>
    intro s
    rw [isSome_get?_iff, strings_afterCalls, List.mem_eraseDups]
  case found_iff =>
    intro s x
    exact get?_afterCalls_iff
  case numbered => exact numbered
  case foreign_iff => exact foreign
  case rejected_iff =>
    intro x
    rw [resolve_eq_error_iff]
    exact foreign x

/-- A string that is interned twice, with another in between and one after it. -/
theorem stableBijection_afterCalls_repeated :
    (["z", "a", "z", "b"].eraseDups.length < 2 ^ 32) ∧ Returned ["z", "a", "z", "b"] "z" ⟨0⟩ ∧
      (afterCalls ["z", "a", "z", "b"]).resolve ⟨0⟩ = .ok "z" ∧
      (afterCalls ["z", "a", "z", "b"]).resolve? ⟨3⟩ = none := by
  have few : ["z", "a", "z", "b"].eraseDups.length < 2 ^ 32 := by decide
  have returned : Returned ["z", "a", "z", "b"] "z" ⟨0⟩ := ⟨["z", "a"], ["b"], rfl, by decide⟩
  have stable := stableBijection_afterCalls ["z", "a", "z", "b"] few
  exact ⟨few, returned, (stable.resolves "z" ⟨0⟩ returned).2, (stable.foreign_iff ⟨3⟩).2 (by decide)⟩

end Interner

end IsoLiteral
