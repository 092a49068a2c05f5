import IsoLiteral.Artifact.Argument
import IsoLiteral.Resolution.Basic
import IsoLiteral.Text.Join

/-!
# Normalization trees

What to write to the store when a response arrives. Only data of the server is written. Siblings that
write the same place are one node with the children of both.
-/

namespace IsoLiteral

/-- One instruction for writing a response. -/
inductive NormalizationNode where
  | scalar (fieldName : String) (arguments : List (String × ArgumentValue)) (storeKey : String)
  /-- A record or list of records. Its type is known in advance unless it is abstract. -/
  | linked (fieldName : String) (arguments : List (String × ArgumentValue)) (storeKey : String)
      (concreteType : Option String) (selections : List NormalizationNode)
  | inlineFragment (typeName : String) (selections : List NormalizationNode)
deriving Repr, Inhabited

/-- The place that a node writes, by which siblings are merged. -/
inductive MergeKey where
  | field (storeKey : String)
  | fragment (typeName : String)
deriving DecidableEq, Repr

namespace NormalizationNode

/-- The place that the node writes. -/
def mergeKey : NormalizationNode → MergeKey
  | .scalar _ _ storeKey => .field storeKey
  | .linked _ _ storeKey _ _ => .field storeKey
  | .inlineFragment typeName _ => .fragment typeName

/-- The children of the node. -/
def children : NormalizationNode → List NormalizationNode
  | .scalar _ _ _ => []
  | .linked _ _ _ _ selections => selections
  | .inlineFragment _ selections => selections

/-- The node with its children changed; a scalar has none. -/
def mapChildren (change : List NormalizationNode → List NormalizationNode) :
    NormalizationNode → NormalizationNode
  | .scalar fieldName arguments storeKey => .scalar fieldName arguments storeKey
  | .linked fieldName arguments storeKey concreteType selections =>
    .linked fieldName arguments storeKey concreteType (change selections)
  | .inlineFragment typeName selections => .inlineFragment typeName (change selections)

/-- Puts a node at the end of a tree, unless a node of the tree writes the same place; then that
node's children are changed instead. -/
def absorb (node : NormalizationNode)
    (change : List NormalizationNode → List NormalizationNode) :
    List NormalizationNode → List NormalizationNode
  | [] => [node]
  | n :: rest =>
    if n.mergeKey = node.mergeKey then n.mapChildren change :: rest
    else n :: absorb node change rest

mutual
/-- Adds a node to a tree, merged with the node that writes the same place. -/
def mergeInto : NormalizationNode → List NormalizationNode → List NormalizationNode
  | .scalar fieldName arguments storeKey, tree =>
    absorb (.scalar fieldName arguments storeKey) id tree
  | .linked fieldName arguments storeKey concreteType selections, tree =>
    absorb (.linked fieldName arguments storeKey concreteType selections)
      (mergeAllInto selections) tree
  | .inlineFragment typeName selections, tree =>
    absorb (.inlineFragment typeName selections) (mergeAllInto selections) tree
termination_by structural n => n
/-- Adds nodes to a tree, one after another. -/
def mergeAllInto : List NormalizationNode → List NormalizationNode → List NormalizationNode
  | [], tree => tree
  | n :: rest, tree => mergeAllInto rest (n.mergeInto tree)
termination_by structural ns => ns
end

/-- The nodes with those merged that write the same place. -/
def merged (nodes : List NormalizationNode) : List NormalizationNode := mergeAllInto nodes []

end NormalizationNode

/-- The name of a type whose records are all of that type. -/
def SchemaGraph.concreteType? (g : SchemaGraph) (id : TypeId) : Option String :=
  if (g.type id).kind = .object then some (g.typeName id) else none

mutual
/-- The node that writes what a selection selects on the server, if it does. -/
def normalizationNode? (g : SchemaGraph) : ResolvedSelection → Option NormalizationNode
  | .scalar head _ => some (.scalar head.fieldName (Value.toArguments head.arguments) head.storeKey)
  | .linked head target inlineFragment _ nested =>
    let selections := NormalizationNode.merged (normalizationNodes g nested)
    if inlineFragment then some (.inlineFragment (g.typeName target) selections)
    else
      some (.linked head.fieldName (Value.toArguments head.arguments) head.storeKey
        (g.concreteType? target) selections)
  | .resolver _ _ _ | .pointer _ _ _ | .link _ => none
termination_by structural s => s
/-- The nodes of the selections that select data of the server. -/
def normalizationNodes (g : SchemaGraph) : List ResolvedSelection → List NormalizationNode
  | [] => []
  | s :: rest => (normalizationNode? g s).toList ++ normalizationNodes g rest
termination_by structural ss => ss
end

/-- The normalization tree of a selection set. -/
def normalizationTree (g : SchemaGraph) (selections : List ResolvedSelection) :
    List NormalizationNode :=
  NormalizationNode.merged (normalizationNodes g selections)

namespace NormalizationNode

/-! ## Text and JSON -/

mutual
/-- The node and its children as text, one node a line. -/
def dumpNode (depth : Nat) : NormalizationNode → String
  | .scalar _ _ storeKey => Text.indentation depth ++ "Scalar " ++ storeKey ++ "\n"
  | .linked _ _ storeKey concreteType selections =>
    Text.indentation depth ++ "Linked " ++ storeKey ++ concreteType.elim "" (": " ++ ·) ++ "\n" ++
      dumpNodes (depth + 1) selections
  | .inlineFragment typeName selections =>
    Text.indentation depth ++ "InlineFragment " ++ typeName ++ "\n" ++
      dumpNodes (depth + 1) selections
termination_by structural n => n
/-- Nodes as text. -/
def dumpNodes (depth : Nat) : List NormalizationNode → String
  | [] => ""
  | n :: rest => n.dumpNode depth ++ dumpNodes depth rest
termination_by structural ns => ns
end

/-- A normalization tree as text. -/
def dump (tree : List NormalizationNode) : String := dumpNodes 0 tree

mutual
/-- The node as JSON. -/
def toJson : NormalizationNode → Json
  | .scalar fieldName arguments storeKey =>
    .object [("kind", .string "Scalar"), ("fieldName", .string fieldName),
      ("arguments", ArgumentValue.argumentsToJson arguments), ("storeKey", .string storeKey)]
  | .linked fieldName arguments storeKey concreteType selections =>
    .object [("kind", .string "Linked"), ("fieldName", .string fieldName),
      ("arguments", ArgumentValue.argumentsToJson arguments), ("storeKey", .string storeKey),
      ("concreteType", Json.orNull .string concreteType),
      ("selections", .array (nodesToJson selections))]
  | .inlineFragment typeName selections =>
    .object [("kind", .string "InlineFragment"), ("typeName", .string typeName),
      ("selections", .array (nodesToJson selections))]
termination_by structural n => n
/-- Each node as JSON. -/
def nodesToJson : List NormalizationNode → List Json
  | [] => []
  | n :: rest => n.toJson :: nodesToJson rest
termination_by structural ns => ns
end

/-- A normalization tree as JSON. -/
def treeToJson (tree : List NormalizationNode) : Json := .array (nodesToJson tree)

end NormalizationNode

end IsoLiteral
