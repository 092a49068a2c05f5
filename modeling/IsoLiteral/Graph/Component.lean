/-!
# Strongly connected components

A depth-first search numbers the vertices of a graph in the order in which it enters them, and keeps those
whose component is not complete yet on a stack. The low link of a vertex is the least number of a vertex on
the stack that the search has found a way to from there. A vertex whose low link is still its own number
when it is left is the root of a component: the component is what stands on the stack from there on.
-/

namespace IsoLiteral

/-- How far a search for components has come. -/
structure ComponentSearch (α : Type) where
  /-- The number of the vertex that is entered next. -/
  next : Nat
  /-- The vertices whose components are not complete, the latest first. -/
  stack : List α
  /-- The same vertices, as a set. -/
  onStack : List α
  /-- The numbers of the vertices entered so far. -/
  numbers : List (α × Nat)
  /-- The low links; of several entries for a vertex the first one holds. -/
  lowLinks : List (α × Nat)
  /-- The complete components, each from its root on. -/
  components : List (List α)
deriving Repr

namespace ComponentSearch

variable {α : Type} [DecidableEq α]

/-- The search before the first vertex. -/
def start : ComponentSearch α := ⟨0, [], [], [], [], []⟩

/-- The vertices entered so far, the latest first. -/
def entered (t : ComponentSearch α) : List α := t.numbers.map Prod.fst

/-- The number of a vertex that has been entered. -/
def number (t : ComponentSearch α) (v : α) : Nat := (t.numbers.lookup v).getD 0

/-- The low link of a vertex that has been entered. -/
def lowLink (t : ComponentSearch α) (v : α) : Nat := (t.lowLinks.lookup v).getD 0

/-- Enters a vertex. Its low link is its own number at first. -/
def enter (t : ComponentSearch α) (v : α) : ComponentSearch α where
  next := t.next + 1
  stack := v :: t.stack
  onStack := v :: t.onStack
  numbers := (v, t.next) :: t.numbers
  lowLinks := (v, t.next) :: t.lowLinks
  components := t.components

/-- Takes note of a way from a vertex to the vertex with a number. -/
def lower (t : ComponentSearch α) (v : α) (number : Nat) : ComponentSearch α :=
  { t with lowLinks := (v, min number (t.lowLink v)) :: t.lowLinks }

/-- Takes vertices off the stack until a given one has been taken off. These are a component. -/
def complete (t : ComponentSearch α) (v : α) : ComponentSearch α :=
  let above := t.stack.takeWhile (· ≠ v)
  let below := t.stack.dropWhile (· ≠ v)
  let members := above ++ below.take 1
  { t with
    stack := below.drop 1
    onStack := t.onStack.filter (· ∉ members)
    components := t.components ++ [members.reverse] }

/-- Leaves a vertex, which may be the root of a component. -/
def leave (t : ComponentSearch α) (v : α) : ComponentSearch α :=
  if t.lowLink v = t.number v then t.complete v else t

/-- Follows an edge from a vertex to a successor, which is visited unless it has been entered. -/
def follow (vertices : List α) (visit : ComponentSearch α → α → ComponentSearch α) (v : α)
    (t : ComponentSearch α) (successor : α) : ComponentSearch α :=
  if successor ∉ vertices then t
  else if successor ∉ t.entered then
    let inner := visit t successor
    inner.lower v (inner.lowLink successor)
  else if successor ∈ t.onStack then t.lower v (t.number successor)
  else t

/-- Visits a vertex that has not been entered and everything it leads to. No vertex is entered twice, so the
number of vertices is enough as a bound on the depth. -/
def visit (successors : α → List α) (vertices : List α) :
    Nat → ComponentSearch α → α → ComponentSearch α
  | 0, t, _ => t
  | depth + 1, t, v =>
    ((successors v).foldl (follow vertices (visit successors vertices depth) v) (t.enter v)).leave v

/-- Visits a vertex unless it has been entered. -/
def visitNew (successors : α → List α) (vertices : List α) (t : ComponentSearch α) (v : α) :
    ComponentSearch α :=
  if v ∈ t.entered then t else visit successors vertices vertices.length t v

/-- All components of a graph, in the order in which they are complete. -/
def allComponents (successors : α → List α) (vertices : List α) : List (List α) :=
  (vertices.foldl (visitNew successors vertices) start).components

/-- Whether a component has a cycle: it has a second member, or an edge from its root to itself. -/
def hasCycle (successors : α → List α) (component : List α) : Bool :=
  component.length > 1 || component.head?.any fun v => v ∈ successors v

end ComponentSearch

/-- The components of a graph that have cycles, each from its root on. -/
def cyclicComponents {α : Type} [DecidableEq α] (successors : α → List α) (vertices : List α) :
    List (List α) :=
  (ComponentSearch.allComponents successors vertices).filter (ComponentSearch.hasCycle successors)

end IsoLiteral
