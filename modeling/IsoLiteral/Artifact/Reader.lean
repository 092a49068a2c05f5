import IsoLiteral.Artifact.Argument
import IsoLiteral.Artifact.Id
import IsoLiteral.Resolution.Basic
import IsoLiteral.Text.Join

/-!
# Reader trees

How to read a field out of the store: one node for each selection, in order. Selections that have a
query of their own to be requested again carry its number.
-/

namespace IsoLiteral

/-- One instruction for reading from the store. Each has a label, under which its result appears. -/
inductive ReaderNode where
  | scalar (label fieldName : String) (arguments : List (String × ArgumentValue))
      (storeKey : String) (isUpdatable : Bool)
  /-- A record or list of records. A condition is the reader of the pointer that computes the link,
  a type condition reads the same record if it is of that type. -/
  | linked (label fieldName : String) (arguments : List (String × ArgumentValue))
      (storeKey : String) (condition : Option ArtifactId) (typeCondition : Option String)
      (isUpdatable : Bool) (refetchQuery : Option Nat) (selections : List ReaderNode)
  | resolver (label : String) (arguments : List (String × ArgumentValue))
      (readerArtifact : ArtifactId) (refetchQuery : Option Nat)
  | link (label : String)
  /-- A field with a request of its own, for which the identity of the record is read. -/
  | loadable (label fieldName : String) (queryArguments : List (String × ArgumentValue))
      (identity : List ReaderNode) (entrypoint : ArtifactId)
deriving Repr, Inhabited

/-- The node that reads a record's `id`. -/
def ReaderNode.id : ReaderNode := .scalar "id" "id" [] "id" false

/-- The nodes that read what identifies a record of a type; the record of a root type needs nothing. -/
def SchemaGraph.identityNodes (g : SchemaGraph) (parent : TypeId) : List ReaderNode :=
  if g.isRootType parent || (g.idField? parent).isNone then [] else [.id]

/-- A place in the store that may be written, with the response names that lead there. -/
structure UpdatableLocation where
  path : List String
  storeKey : String
deriving DecidableEq, Repr

/-! ## The walk over a field's selections -/

/-- What the walk keeps. -/
structure ReaderState where
  /-- How many selections have a query of their own, as far as they were come to. -/
  refetchCount : Nat
  /-- The response names that lead to where the walk is. -/
  path : List String
  /-- The places that may be written, as far as they were come to. -/
  updatable : List UpdatableLocation
deriving Repr

/-- A part of the walk. -/
abbrev ReaderWalk := StateM ReaderState

namespace ReaderWalk

/-- The number of the next refetch query. -/
def nextRefetch : ReaderWalk Nat :=
  modifyGet fun state => (state.refetchCount, { state with refetchCount := state.refetchCount + 1 })

/-- The number of the next refetch query, if one is needed. -/
def nextRefetchIf (needed : Bool) : ReaderWalk (Option Nat) :=
  if needed then some <$> nextRefetch else pure none

/-- Notes that what a selection reads may be written, if so. -/
def markIf (updatable : Bool) (head : SelectionHead) : ReaderWalk Unit :=
  if updatable then
    modify fun state =>
      { state with
        updatable := state.updatable ++ [⟨state.path ++ [head.responseName], head.storeKey⟩] }
  else pure ()

/-- Walks through what is selected below a selection. -/
def nested {α : Type} (head : SelectionHead) (walk : ReaderWalk α) : ReaderWalk α := do
  modify fun state => { state with path := state.path ++ [head.responseName] }
  let result ← walk
  modify fun state => { state with path := state.path.dropLast }
  return result

mutual
/-- Makes the node that reads a selection. -/
def selection (g : SchemaGraph) : ResolvedSelection → ReaderWalk ReaderNode
  | .scalar head updatable => do
    markIf updatable head
    return .scalar head.responseName head.fieldName (Value.toArguments head.arguments) head.storeKey
      updatable
  | .linked head target inlineFragment updatable selections => do
    markIf updatable head
    let nodes ← nested head (selectionSet g selections)
    return .linked head.responseName head.fieldName (Value.toArguments head.arguments) head.storeKey
      none (if inlineFragment then some (g.typeName target) else none) updatable none nodes
  | .pointer head _ selections => do
    let refetchQuery ← nextRefetch
    let nodes ← nested head (selectionSet g selections)
    return .linked head.responseName head.fieldName (Value.toArguments head.arguments) head.storeKey
      (some (g.readerId head.field .eager)) none false (some refetchQuery) nodes
  | .resolver head kind none => do
    let refetchQuery ← nextRefetchIf (kind = .refetchAction)
    return .resolver head.responseName (Value.toArguments head.arguments) (g.readerId head.field kind)
      refetchQuery
  | .resolver head _ (some _) =>
    return .loadable head.responseName head.fieldName (Value.toArguments head.arguments)
      (g.identityNodes (g.field head.field).parent)
      ⟨g.typeName (g.field head.field).parent, head.fieldName, .entrypoint⟩
  | .link head => return .link head.responseName
termination_by structural s => s
/-- Makes the nodes that read selections. -/
def selectionSet (g : SchemaGraph) : List ResolvedSelection → ReaderWalk (List ReaderNode)
  | [] => return []
  | s :: rest => do
    let node ← selection g s
    let nodes ← selectionSet g rest
    return node :: nodes
termination_by structural ss => ss
end

end ReaderWalk

/-- How a field's selections are read, and the places that may be written through them, if there are
any. -/
def readField (g : SchemaGraph) (selections : List ResolvedSelection) :
    List ReaderNode × Option (List UpdatableLocation) :=
  let (tree, state) := (ReaderWalk.selectionSet g selections).run ⟨0, [], []⟩
  (tree, if state.updatable.isEmpty then none else some state.updatable)

/-- The reader tree of a selection set. -/
def readerTree (g : SchemaGraph) (selections : List ResolvedSelection) : List ReaderNode :=
  (readField g selections).1

/-- The places that may be written through a field, if there are any. -/
def updatableDescriptor (g : SchemaGraph) (selections : List ResolvedSelection) :
    Option (List UpdatableLocation) :=
  (readField g selections).2

/-- A place that may be written as JSON. -/
def UpdatableLocation.toJson (l : UpdatableLocation) : Json :=
  .object [("path", Json.strings l.path), ("storeKey", .string l.storeKey)]

namespace ReaderNode

/-! ## Text and JSON -/

/-- A label with the store key, if that is another. -/
def keyText (label storeKey : String) : String :=
  if label = storeKey then label else label ++ " = " ++ storeKey

/-- The mark of a place that may be written. -/
def updatableText (isUpdatable : Bool) : String := if isUpdatable then " @updatable" else ""

/-- The number of a refetch query, if there is one. -/
def refetchText (refetchQuery : Option Nat) : String :=
  refetchQuery.elim "" fun index => " refetch #" ++ toString index

mutual
/-- The node and what is below it as text, one node a line. -/
def dumpNode (depth : Nat) : ReaderNode → String
  | .scalar label _ _ storeKey isUpdatable =>
    Text.indentation depth ++ "Scalar " ++ keyText label storeKey ++ updatableText isUpdatable ++
      "\n"
  | .linked label _ _ storeKey condition typeCondition isUpdatable refetchQuery selections =>
    Text.indentation depth ++ "Linked " ++ keyText label storeKey ++
      condition.elim "" (" via " ++ ·.render) ++ typeCondition.elim "" (" on " ++ ·) ++
      updatableText isUpdatable ++ refetchText refetchQuery ++ "\n" ++
      dumpNodes (depth + 1) selections
  | .resolver label _ readerArtifact refetchQuery =>
    Text.indentation depth ++ "Resolver " ++ label ++ " -> " ++ readerArtifact.render ++
      refetchText refetchQuery ++ "\n"
  | .link label => Text.indentation depth ++ "Link " ++ label ++ "\n"
  | .loadable label _ _ identity entrypoint =>
    Text.indentation depth ++ "Loadable " ++ label ++ " -> " ++ entrypoint.render ++ "\n" ++
      dumpNodes (depth + 1) identity
termination_by structural n => n
/-- Nodes as text. -/
def dumpNodes (depth : Nat) : List ReaderNode → String
  | [] => ""
  | n :: rest => n.dumpNode depth ++ dumpNodes depth rest
termination_by structural ns => ns
end

/-- A reader tree as text. -/
def dump (tree : List ReaderNode) : String := dumpNodes 0 tree

/-- A number as JSON. -/
def indexToJson (index : Nat) : Json := .int index

mutual
/-- The node as JSON. -/
def toJson : ReaderNode → Json
  | .scalar label fieldName arguments storeKey isUpdatable =>
    .object [("kind", .string "Scalar"), ("alias", .string label),
      ("fieldName", .string fieldName), ("arguments", ArgumentValue.argumentsToJson arguments),
      ("storeKey", .string storeKey), ("isUpdatable", .bool isUpdatable)]
  | .linked label fieldName arguments storeKey condition typeCondition isUpdatable refetchQuery
      selections =>
    .object [("kind", .string "Linked"), ("alias", .string label),
      ("fieldName", .string fieldName), ("arguments", ArgumentValue.argumentsToJson arguments),
      ("storeKey", .string storeKey), ("condition", Json.orNull ArtifactId.toJson condition),
      ("typeCondition", Json.orNull .string typeCondition), ("isUpdatable", .bool isUpdatable),
      ("refetchQuery", Json.orNull indexToJson refetchQuery),
      ("selections", .array (nodesToJson selections))]
  | .resolver label arguments readerArtifact refetchQuery =>
    .object [("kind", .string "Resolver"), ("alias", .string label),
      ("arguments", ArgumentValue.argumentsToJson arguments),
      ("readerArtifact", readerArtifact.toJson),
      ("refetchQuery", Json.orNull indexToJson refetchQuery)]
  | .link label => .object [("kind", .string "Link"), ("alias", .string label)]
  | .loadable label fieldName queryArguments identity entrypoint =>
    .object [("kind", .string "LoadablySelectedField"), ("alias", .string label),
      ("fieldName", .string fieldName),
      ("queryArguments", ArgumentValue.argumentsToJson queryArguments),
      ("refetchReaderAst", .array (nodesToJson identity)), ("entrypoint", entrypoint.toJson)]
termination_by structural n => n
/-- Each node as JSON. -/
def nodesToJson : List ReaderNode → List Json
  | [] => []
  | n :: rest => n.toJson :: nodesToJson rest
termination_by structural ns => ns
end

/-- A reader tree as JSON. -/
def treeToJson (tree : List ReaderNode) : Json := .array (nodesToJson tree)

end ReaderNode

end IsoLiteral
