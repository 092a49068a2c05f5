import IsoLiteral.Interner
import IsoLiteral.Schema.Definition

/-!
# Types by number and by name

The types of a graph stand in the order in which they were added. Their names are interned, together
with those of fields, and a second table leads from the place of a name to the type. A type that is
added under a name takes it over, so what is found under a name is the last type of that name.
-/

namespace IsoLiteral

/-- Where a name stands for the last time. -/
def lastPlace? (name : String) : List String → Option Nat
  | [] => none
  | first :: rest =>
    match lastPlace? name rest with
    | some place => some (place + 1)
    | none => if first = name then some 0 else none

theorem lastPlace?_concat (name new : String) (names : List String) :
    lastPlace? name (names ++ [new]) = if new = name then some names.length else lastPlace? name names := by
  induction names with
  | nil => rfl
  | cons first rest ih =>
    rw [List.cons_append, lastPlace?, ih, lastPlace?]
    by_cases same : new = name
    · rw [if_pos same, if_pos same]
      rfl
    · rw [if_neg same, if_neg same]

theorem getElem?_of_lastPlace? {name : String} {names : List String} {place : Nat}
    (found : lastPlace? name names = some place) : names[place]? = some name := by
  induction names generalizing place with
  | nil => cases found
  | cons first rest ih =>
    rw [lastPlace?] at found
    cases later : lastPlace? name rest with
    | some before =>
      rw [later] at found
      cases found
      exact ih later
    | none =>
      rw [later] at found
      by_cases same : first = name
      · rw [if_pos same] at found
        cases found
        exact congrArg some same
      · rw [if_neg same] at found
        cases found

theorem lastPlace?_eq_none_iff {name : String} {names : List String} :
    lastPlace? name names = none ↔ name ∉ names := by
  induction names with
  | nil => simp [lastPlace?]
  | cons first rest ih =>
    rw [lastPlace?, List.mem_cons, not_or]
    cases later : lastPlace? name rest with
    | some before =>
      have known := List.mem_of_getElem? (getElem?_of_lastPlace? later)
      simp [known]
    | none =>
      rw [later] at ih
      simp [← ih, eq_comm]

/-- The types of a graph. -/
structure TypeTable where
  /-- The names of types and fields. -/
  interner : Interner
  types : List TypeDefinition
  /-- The types by the places of their names, the latest first. -/
  typesByName : List (Nat × TypeId)
  /-- Only a name that has been seen has a type. -/
  seen : ∀ entry ∈ typesByName, entry.1 < interner.strings.length
  /-- A name leads to the last type of that name. -/
  registered : ∀ name, (interner.place? name).bind (typesByName.lookup ·) =
    (lastPlace? name (types.map (·.name))).map TypeId.mk
deriving Repr

namespace TypeTable

/-- The table before the first type. -/
def empty : TypeTable where
  interner := .empty
  types := []
  typesByName := []
  seen := nofun
  registered _ := rfl

instance : Inhabited TypeTable := ⟨empty⟩

/-- The type with a number. -/
def type (t : TypeTable) (id : TypeId) : TypeDefinition := t.types[id.index]?.getD default

/-- The number of the type with a name. -/
def find? (t : TypeTable) (name : String) : Option TypeId := do
  t.typesByName.lookup (← t.interner.place? name)

theorem find?_eq (t : TypeTable) (name : String) :
    t.find? name = (lastPlace? name (t.types.map (·.name))).map TypeId.mk := t.registered name

/-- The table after a name has been seen. -/
def intern (t : TypeTable) (name : String) : TypeTable where
  interner := (t.interner.insert name).2
  types := t.types
  typesByName := t.typesByName
  seen entry member := Nat.lt_of_lt_of_le (t.seen entry member) (Interner.length_le_insert t.interner name)
  registered other := by
    rw [← t.registered other]
    by_cases same : name = other
    · subst same
      cases known : t.interner.place? name with
      | some place => rw [Interner.insert_of_place? known, known]
      | none =>
        -- the place that a new name gets is beyond those of all types
        rw [Interner.place?_insert_self, Interner.insert_of_new known, Option.bind_some, Option.bind_none]
        refine List.lookup_eq_none_iff.2 fun entry member => ?_
        exact bne_iff_ne.2 (Nat.ne_of_gt (t.seen entry member))
    · rw [Interner.place?_insert_of_ne same]

/-- Adds a type. An object type stands for itself. -/
def add (t : TypeTable) (name : String) (kind : TypeKind) (enumValues : List String)
    (description : Option String) : TypeTable :=
  let id : TypeId := ⟨t.types.length⟩
  let place := (t.interner.insert name).1
  let definition : TypeDefinition :=
    { id, name, kind, fields := [], concreteTypes := if kind = .object then [id] else [], enumValues,
      inputFields := [], description }
  { interner := (t.interner.insert name).2
    types := t.types ++ [definition]
    typesByName := (place, id) :: t.typesByName
    seen := by
      rintro entry (_ | ⟨_, member⟩)
      · exact Interner.lt_of_place? (Interner.place?_insert_self t.interner name)
      · exact (t.intern name).seen entry member
    registered := fun other => by
      rw [List.map_append, List.map_singleton, lastPlace?_concat]
      by_cases same : name = other
      · subst same
        rw [if_pos rfl, Interner.place?_insert_self, Option.bind_some, List.lookup_cons_self,
          List.length_map, Option.map_some]
      · rw [if_neg same, ← t.registered other, Interner.place?_insert_of_ne same]
        cases known : t.interner.place? other with
        | none => rfl
        | some elsewhere =>
          have apart : (elsewhere == place) = false := by
            rw [beq_eq_false_iff_ne]
            rintro rfl
            exact same (Interner.eq_of_place? (Interner.place?_insert_self t.interner name)
              ((Interner.place?_insert_of_ne same).trans known))
          rw [Option.bind_some, Option.bind_some, List.lookup_cons, apart] }

theorem names_modify (change : TypeDefinition → TypeDefinition) (keeps : ∀ t, (change t).name = t.name)
    (types : List TypeDefinition) (place : Nat) :
    (types.modify place change).map TypeDefinition.name = types.map TypeDefinition.name := by
  refine List.ext_getElem (by simp) fun other _ _ => ?_
  rw [List.getElem_map, List.getElem_map, List.getElem_modify]
  split
  · exact keeps _
  · rfl

/-- Changes the type with a number, which keeps its name. -/
def modify (t : TypeTable) (id : TypeId) (change : TypeDefinition → TypeDefinition)
    (keeps : ∀ t, (change t).name = t.name) : TypeTable where
  interner := t.interner
  types := t.types.modify id.index change
  typesByName := t.typesByName
  seen := t.seen
  registered name := by
    rw [t.registered, names_modify change keeps]

/-! ## What is found -/

theorem find?_intern (t : TypeTable) (seen name : String) : (t.intern seen).find? name = t.find? name := by
  rw [find?_eq, find?_eq]
  rfl

theorem find?_add (t : TypeTable) (new name : String) (kind : TypeKind) (enumValues : List String)
    (description : Option String) : (t.add new kind enumValues description).find? name =
      if new = name then some ⟨t.types.length⟩ else t.find? name := by
  rw [find?_eq, find?_eq, add, List.map_append, List.map_singleton, lastPlace?_concat, List.length_map]
  by_cases same : new = name
  · rw [if_pos same, if_pos same]
    rfl
  · rw [if_neg same, if_neg same]

theorem find?_modify (t : TypeTable) (id : TypeId) (change : TypeDefinition → TypeDefinition)
    (keeps : ∀ t, (change t).name = t.name) (name : String) :
    (t.modify id change keeps).find? name = t.find? name := rfl

theorem getElem?_of_find? {t : TypeTable} {name : String} {id : TypeId} (found : t.find? name = some id) :
    ∃ definition, t.types[id.index]? = some definition ∧ definition.name = name := by
  rw [find?_eq] at found
  obtain ⟨place, last, rfl⟩ := Option.map_eq_some_iff.1 found
  have here := getElem?_of_lastPlace? last
  rwa [List.getElem?_map, Option.map_eq_some_iff] at here

theorem find?_eq_none_iff {t : TypeTable} {name : String} :
    t.find? name = none ↔ ∀ definition ∈ t.types, definition.name ≠ name := by
  rw [find?_eq, Option.map_eq_none_iff, lastPlace?_eq_none_iff, List.mem_map]
  simp

end TypeTable

end IsoLiteral
