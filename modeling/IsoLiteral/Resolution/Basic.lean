import IsoLiteral.Declaration.StoreKey
import IsoLiteral.Resolution.Directives
import IsoLiteral.Schema.Basic

/-!
# Resolved declarations

A declaration whose selections have all been found in the schema graph. A resolved selection knows its
field and the key of its place in the store, and its form is that of the field.
-/

namespace IsoLiteral

/-- What every resolved selection has. -/
structure SelectionHead where
  /-- The name under which the result appears. -/
  responseName : String
  fieldName : String
  field : FieldId
  arguments : List (String × Value)
  /-- The field with its arguments, as a key of the store. -/
  storeKey : String
  span : Span
deriving Repr

/-- A selection by the kind of its field. -/
inductive ResolvedSelection where
  | scalar (head : SelectionHead) (updatable : Bool)
  | linked (head : SelectionHead) (target : TypeId) (inlineFragment updatable : Bool)
      (selections : List ResolvedSelection)
  | resolver (head : SelectionHead) (kind : ArtifactKind) (loadable : Option LoadableOptions)
  | pointer (head : SelectionHead) (target : TypeId) (selections : List ResolvedSelection)
  | link (head : SelectionHead)
deriving Repr

namespace ResolvedSelection

/-- What the selection has whatever its form. -/
def head : ResolvedSelection → SelectionHead
  | scalar head _ | linked head _ _ _ _ | resolver head _ _ | pointer head _ _ | link head => head

/-- Whether the selected place may be written. -/
def isUpdatable : ResolvedSelection → Bool
  | scalar _ updatable => updatable
  | linked _ _ _ updatable _ => updatable
  | _ => false

/-- Whether the selection is fetched by a request of its own. -/
def isLoadable : ResolvedSelection → Bool
  | resolver _ _ loadable => loadable.isSome
  | _ => false

end ResolvedSelection

/-- A variable of a resolved field. -/
structure ResolvedVariable where
  name : String
  type : TypeExpr
  defaultValue : Option Value
deriving Repr

/-- A declared field or pointer without errors. -/
structure ResolvedField where
  field : FieldId
  /-- Index of the declaration. -/
  declaration : Nat
  /-- Index of the literal. -/
  source : Nat
  parent : TypeId
  /-- A pointer computes its link on reading, so it counts as eager. -/
  artifactKind : ArtifactKind
  pointerTarget : Option TypeId
  variableDefinitions : List ResolvedVariable
  selections : List ResolvedSelection
deriving Repr

/-- A declared entrypoint without errors. -/
structure ResolvedEntrypoint where
  /-- Index of the declaration. -/
  declaration : Nat
  field : FieldId
  parent : TypeId
  lazyLoad : LazyLoad
  span : Span
deriving Repr

/-- Everything that resolved without errors, in the order of the declarations. -/
structure Resolution where
  fields : List ResolvedField
  entrypoints : List ResolvedEntrypoint
deriving Repr

/-- The resolved field with a number. -/
def Resolution.field? (r : Resolution) (id : FieldId) : Option ResolvedField :=
  r.fields.find? (·.field = id)

end IsoLiteral
