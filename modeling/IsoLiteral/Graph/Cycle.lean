import IsoLiteral.Graph.Component

/-!
# Cycles

One cycle is given for each component of a graph that has any: the way around that a search from the root
of the component comes to first, inside the component.
-/

namespace IsoLiteral.Cycle

variable {α : Type} [DecidableEq α]

/-- The outcome of a search for a way back: the vertices tried, and the way if it was found. -/
structure Search (α : Type) where
  tried : List α
  way : Option (List α)
deriving Repr

/-- Tries one vertex after another until a way is found. -/
def searchAny (search : List α → α → Search α) (tried : List α) : List α → Search α
  | [] => ⟨tried, none⟩
  | v :: rest =>
    let result := search tried v
    match result.way with
    | some way => ⟨result.tried, some way⟩
    | none => searchAny search result.tried rest

/-- Searches a way from a vertex back to the goal that tries no vertex twice. The way lists the
vertices from this one up to the goal, which is not repeated. -/
def search (successors : α → List α) (goal : α) : Nat → List α → α → Search α
  | 0, tried, _ => ⟨tried, none⟩
  | depth + 1, tried, v =>
    if v ∈ tried then ⟨tried, if v = goal then some [] else none⟩
    else
      let result := searchAny (search successors goal depth) (v :: tried) (successors v)
      { result with way := result.way.map (v :: ·) }

/-- A cycle through the root of a component that stays inside it, as the vertices from the root on. -/
def cycleFrom (successors : α → List α) (root : α) (members : List α) : List α :=
  let inside (v : α) : List α := (successors v).filter (· ∈ members)
  (search inside root (members.length + 1) [] root).way.getD []

/-- A cycle through the first member of a component. -/
def cycleOf (successors : α → List α) : List α → List α
  | [] => []
  | root :: others => cycleFrom successors root (root :: others)

/-- One cycle for each component of a graph that has any. -/
def cycles (successors : α → List α) (vertices : List α) : List (List α) :=
  ((cyclicComponents successors vertices).map (cycleOf successors)).filter (· ≠ [])

end IsoLiteral.Cycle
