import IsoLiteral.Diagnostic.Basic
import IsoLiteral.Graph.Cycle
import IsoLiteral.Graph.Traversal
import IsoLiteral.Resolution.Basic
import IsoLiteral.Text.Join

/-!
# References between fields

Reading a field runs the readers of the resolvers and pointers that it selects, so a field must not
refer to itself, not even through others. A loadable selection is fetched and read on its own and is
no reference.
-/

namespace IsoLiteral

mutual
/-- The fields whose readers run when a selection is read, each with the place of its selection. -/
def referencesOf : ResolvedSelection → List (FieldId × Span)
  | .resolver head _ none => [(head.field, head.span)]
  | .pointer head _ nested => (head.field, head.span) :: referencesOfAll nested
  | .linked _ _ _ _ nested => referencesOfAll nested
  | .resolver _ _ (some _) | .scalar _ _ | .link _ => []
termination_by structural s => s
/-- The fields whose readers run when selections are read. -/
def referencesOfAll : List ResolvedSelection → List (FieldId × Span)
  | [] => []
  | s :: rest => referencesOf s ++ referencesOfAll rest
termination_by structural ss => ss
end

/-- Each resolved field with the resolved fields it refers to. -/
structure ReferenceGraph where
  edges : List (FieldId × List (FieldId × Span))
deriving Repr

/-- The references between the resolved fields. -/
def Resolution.references (r : Resolution) : ReferenceGraph :=
  ⟨r.fields.map fun f =>
    (f.field, (referencesOfAll f.selections).filter fun (id, _) => (r.field? id).isSome)⟩

namespace ReferenceGraph

/-- The fields of the graph. -/
def fields (g : ReferenceGraph) : List FieldId := g.edges.map Prod.fst

/-- The references of a field. -/
def referencesFrom (g : ReferenceGraph) (field : FieldId) : List (FieldId × Span) :=
  (g.edges.lookup field).getD []

/-- The fields that a field refers to. -/
def successors (g : ReferenceGraph) (field : FieldId) : List FieldId :=
  (g.referencesFrom field).map Prod.fst

/-- A field and all fields whose readers run when it is read, in the order in which they are come
to. -/
def readerClosure (g : ReferenceGraph) (field : FieldId) : List FieldId :=
  Traversal.preorder g.successors g.edges.length field

/-- One cycle for each component of fields that refer to each other. -/
def cycles (g : ReferenceGraph) : List (List FieldId) := Cycle.cycles g.successors g.fields

/-- The place of the selection that makes the first step of a cycle. -/
def firstStep? (g : ReferenceGraph) : List FieldId → Option Span
  | [] => none
  | [first] => (g.referencesFrom first).lookup first
  | first :: second :: _ => (g.referencesFrom first).lookup second

end ReferenceGraph

/-- The names of the fields of a cycle, the first again at the end. -/
def cyclePath (schema : SchemaGraph) (cycle : List FieldId) : List String :=
  (cycle ++ cycle.take 1).map schema.qualifiedName

/-- The diagnostic for a cycle. -/
def cycleDiagnostic (schema : SchemaGraph) (g : ReferenceGraph) (cycle : List FieldId) :
    Diagnostic :=
  (Diagnostic.ofKind .cyclicSelection (g.firstStep? cycle)).withDetail
    (Text.joinWith " -> " (cyclePath schema cycle))

/-- The cycles that keep fields from being read. -/
structure CycleError where
  /-- The names of the fields of the first cycle. -/
  path : List String
  diagnostics : Diagnostics
deriving Repr

/-- Checks that no field refers to itself. -/
def checkCycles (schema : SchemaGraph) (r : Resolution) : Except CycleError Unit :=
  let g := r.references
  match g.cycles with
  | [] => .ok ()
  | first :: rest =>
    .error ⟨cyclePath schema first, (first :: rest).map (cycleDiagnostic schema g)⟩

end IsoLiteral
