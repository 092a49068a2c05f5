/-!
# Depth-first traversal

Vertices of a finite graph, given by the list of each vertex's successors, are entered one inside
another. A bound on the depth keeps the traversal total;
the number of vertices is enough, since no vertex is entered twice.
-/

namespace IsoLiteral

/-- How far a traversal has come. -/
structure Traversal (α : Type) where
  /-- The vertices entered so far, the latest first. -/
  entered : List α
deriving Repr

namespace Traversal

variable {α : Type} [DecidableEq α]

/-- The traversal before the first vertex. -/
def start : Traversal α := ⟨[]⟩

/-- Goes through a vertex and everything it leads to that has not been entered. -/
def visit (successors : α → List α) : Nat → Traversal α → α → Traversal α
  | 0, t, _ => t
  | depth + 1, t, v =>
    if v ∈ t.entered then t
    else (successors v).foldl (visit successors depth) ⟨v :: t.entered⟩

/-- Goes through vertices one after another. -/
def visitAll (successors : α → List α) (depth : Nat) (vertices : List α) : Traversal α :=
  vertices.foldl (visit successors depth) start

/-- A vertex and everything it leads to, in the order of entering. -/
def preorder (successors : α → List α) (depth : Nat) (v : α) : List α :=
  (visitAll successors depth [v]).entered.reverse

end Traversal

end IsoLiteral
