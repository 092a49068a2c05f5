import IsoLiteral.Operation.Context
import IsoLiteral.Operation.Key

/-!
# Requested data

What has to be asked of the server in order to read a field: its own selections, with every resolver
and pointer replaced by what reading it takes, and all variables replaced by their values. What is
selected through a pointer lives on another record and has a query of its own, and a loadable field
is fetched on its own.
-/

namespace IsoLiteral

/-- One piece of data to ask for. -/
inductive Request where
  | scalar (key : SelectionKey) (fieldName : String) (arguments : List (String × Value))
  | linked (fieldName : String) (arguments : List (String × Value)) (target : TypeId)
      (selections : List Request)
  /-- The same record, if it is of the given type. -/
  | fragment (target : TypeId) (selections : List Request)
deriving Repr

/-- The key of a scalar field of a type; the field `id` has one of its own. -/
def SchemaGraph.scalarKey (g : SchemaGraph) (parent : TypeId) (head : SelectionHead)
    (arguments : List (String × Value)) : SelectionKey :=
  if arguments.isEmpty && g.idField? parent = some head.field then .id
  else .serverField head.fieldName arguments

/-- What reading a resolver or pointer of a type takes, for a selection of it. -/
abbrev Expansion := TypeId → VariableContext → SelectionHead → List Request

mutual
/-- What a selection on a type asks for. -/
def requestsOf (g : SchemaGraph) (expand : Expansion) (parent : TypeId) (c : VariableContext) :
    ResolvedSelection → List Request
  | .scalar head _ =>
    let arguments := c.bindArguments head.arguments
    [.scalar (g.scalarKey parent head arguments) head.fieldName arguments]
  | .linked head target inlineFragment _ nested =>
    let selections := requestsOfAll g expand target c nested
    if inlineFragment then [.fragment target selections]
    else [.linked head.fieldName (c.bindArguments head.arguments) target selections]
  | .resolver head _ none => expand parent c head
  | .pointer head _ _ => expand parent c head
  | .resolver _ _ (some _) | .link _ => []
termination_by structural s => s
/-- What selections on a type ask for. -/
def requestsOfAll (g : SchemaGraph) (expand : Expansion) (parent : TypeId) (c : VariableContext) :
    List ResolvedSelection → List Request
  | [] => []
  | s :: rest => requestsOf g expand parent c s ++ requestsOfAll g expand parent c rest
termination_by structural ss => ss
end

/-- What reading a selected field takes, through at most `depth` fields one inside another. -/
def expandField (g : SchemaGraph) (r : Resolution) : Nat → Expansion
  | 0, _, _, _ => []
  | depth + 1, parent, c, head =>
    match r.field? head.field with
    | none => []
    | some f =>
      requestsOfAll g (expandField g r depth) parent (c.child f.variableDefinitions head.arguments)
        f.selections

/-- Everything that a selection set on a type asks for. Without cycles no field is inside itself, so
the number of fields bounds the depth. -/
def requests (g : SchemaGraph) (r : Resolution) (parent : TypeId) (c : VariableContext)
    (selections : List ResolvedSelection) : List Request :=
  requestsOfAll g (expandField g r r.fields.length) parent c selections

end IsoLiteral
