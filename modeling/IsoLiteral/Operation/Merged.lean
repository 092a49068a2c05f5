import IsoLiteral.Artifact.Normalization
import IsoLiteral.Operation.Request
import IsoLiteral.Resolution.RefetchSite

/-!
# Merged selections

The selections of an operation: each piece of data is asked for once, in the order of the keys, and
`id` and `__typename` are added wherever the store needs them to tell records apart.
-/

namespace IsoLiteral

/-- A selection of an operation. -/
inductive MergedSelection where
  | scalar (fieldName : String) (arguments : List (String × Value))
  | linked (fieldName : String) (arguments : List (String × Value)) (concreteType : Option String)
      (selections : List (SelectionKey × MergedSelection))
  | inlineFragment (typeName : String) (selections : List (SelectionKey × MergedSelection))
deriving Repr

/-- The selections of a set by their keys, in the order of the keys. -/
abbrev MergedSet := List (SelectionKey × MergedSelection)

namespace MergedSelection

/-- A scalar field without arguments. -/
def plain (fieldName : String) : MergedSelection := .scalar fieldName []

/-- The selection with its own selections changed; a scalar has none. -/
def mapSelections (change : MergedSet → MergedSet) : MergedSelection → MergedSelection
  | .scalar fieldName arguments => .scalar fieldName arguments
  | .linked fieldName arguments concreteType selections =>
    .linked fieldName arguments concreteType (change selections)
  | .inlineFragment typeName selections => .inlineFragment typeName (change selections)

end MergedSelection

namespace MergedSet

/-- Changes the selection with a key, after putting a fresh one in its place if there is none. -/
def update (key : SelectionKey) (fresh : MergedSelection)
    (change : MergedSelection → MergedSelection) : MergedSet → MergedSet
  | [] => [(key, change fresh)]
  | (k, m) :: rest =>
    match key.compare k with
    | .lt => (key, change fresh) :: (k, m) :: rest
    | .eq => (k, change m) :: rest
    | .gt => (k, m) :: update key fresh change rest

/-- Puts a selection under a key, unless there is one. -/
def insertNew (key : SelectionKey) (fresh : MergedSelection) (set : MergedSet) : MergedSet :=
  update key fresh id set

/-- Adds what tells records of a type apart: their `id` if they have one, and their type if it is only
known from the response. -/
def complete (g : SchemaGraph) (type : TypeId) (withTypename : Bool) (set : MergedSet) : MergedSet :=
  let set := if (g.idField? type).isSome then insertNew .id (.plain "id") set else set
  if withTypename then insertNew (.serverField typenameField []) (.plain typenameField) set else set

end MergedSet

open MergedSet

mutual
/-- Adds a request to a set. -/
def Request.mergeInto (g : SchemaGraph) : Request → MergedSet → MergedSet
  | .scalar key fieldName arguments, set => insertNew key (.scalar fieldName arguments) set
  | .linked fieldName arguments target nested, set =>
    update (.serverField fieldName arguments)
      (.linked fieldName arguments (g.concreteType? target) [])
      (MergedSelection.mapSelections fun inner =>
        complete g target (g.type target).kind.isAbstract (mergeRequestsInto g nested inner))
      set
  | .fragment target nested, set =>
    update (.inlineFragment (g.typeName target)) (.inlineFragment (g.typeName target) [])
      (MergedSelection.mapSelections fun inner =>
        complete g target true (mergeRequestsInto g nested inner))
      set
termination_by structural r => r
/-- Adds requests to a set, one after another. -/
def mergeRequestsInto (g : SchemaGraph) : List Request → MergedSet → MergedSet
  | [], set => set
  | r :: rest, set => mergeRequestsInto g rest (r.mergeInto g set)
termination_by structural rs => rs
end

/-- The merged selections of a selection set on a type. -/
def mergeSelections (g : SchemaGraph) (r : Resolution) (parent : TypeId) (c : VariableContext)
    (selections : List ResolvedSelection) : MergedSet :=
  mergeRequestsInto g (requests g r parent c selections) []

/-- The argument that names the record to request. -/
def nodeIdArgument : List (String × Value) := [("id", .variable refetchIdVariable)]

/-- The type that the root field `node` leads to. -/
def SchemaGraph.nodeType? (g : SchemaGraph) : Option TypeId :=
  match (g.lookupField? g.queryType "node").map fun id => (g.field id).kind with
  | some (.linked target _) => some target
  | _ => none

/-- `node(id: $id) { ... on Target { selections } }` -/
def nodeWrapper (g : SchemaGraph) (target : TypeId) (inner : MergedSet) : MergedSet :=
  let typeName := g.typeName target
  let fragment : MergedSet :=
    [(.inlineFragment typeName, .inlineFragment typeName (complete g target true inner))]
  let node := complete g (g.nodeType?.getD target) true fragment
  [(.serverField "node" nodeIdArgument,
    .linked "node" nodeIdArgument (g.nodeType?.bind g.concreteType?) node)]

/-! ## Views -/

mutual
/-- The variables that occur in the arguments of a selection and below it, in order. -/
def MergedSelection.variableNames : MergedSelection → List String
  | .scalar _ arguments => Value.variableNamesOfFields arguments
  | .linked _ arguments _ selections =>
    Value.variableNamesOfFields arguments ++ MergedSet.variableNames selections
  | .inlineFragment _ selections => MergedSet.variableNames selections
termination_by structural m => m
/-- The variables that occur in the arguments of selections and below them, in order. -/
def MergedSet.variableNames : List (SelectionKey × MergedSelection) → List String
  | [] => []
  | (_, m) :: rest => m.variableNames ++ MergedSet.variableNames rest
termination_by structural ms => ms
end

mutual
/-- The instruction for writing what a selection asks for. -/
def MergedSelection.toNormalization : MergedSelection → NormalizationNode
  | .scalar fieldName arguments =>
    .scalar fieldName (Value.toArguments arguments) (storeKey fieldName arguments)
  | .linked fieldName arguments concreteType selections =>
    .linked fieldName (Value.toArguments arguments) (storeKey fieldName arguments) concreteType
      (MergedSet.toNormalization selections)
  | .inlineFragment typeName selections =>
    .inlineFragment typeName (MergedSet.toNormalization selections)
termination_by structural m => m
/-- The normalization tree of an operation. -/
def MergedSet.toNormalization : List (SelectionKey × MergedSelection) → List NormalizationNode
  | [] => []
  | (_, m) :: rest => m.toNormalization :: MergedSet.toNormalization rest
termination_by structural ms => ms
end

end IsoLiteral
