import IsoLiteral.Schema.TypeTable

/-!
# The schema graph

The server's types together with the fields that literals declare, and what is looked up in them by
number and by name.
-/

namespace IsoLiteral

/-- The operation that a root type answers. -/
inductive OperationKind where
  | query
  | mutation
deriving DecidableEq, Repr, Inhabited

/-- The keyword of an operation. -/
def OperationKind.text : OperationKind → String
  | query => "query"
  | mutation => "mutation"

/-- All types and fields, by number, the types also by name, and the root types. -/
structure SchemaGraph extends TypeTable where
  fields : List FieldDefinition
  queryType : TypeId
  mutationType : Option TypeId
deriving Repr, Inhabited

/-- The field that names a record's type. -/
def typenameField : String := "__typename"

/-- The field for a record's own place in the store. -/
def linkField : String := "link"

/-- The field that requests a record again. -/
def refetchField : String := "__refetch"

/-- The type `ID!` of the field that identifies a record. -/
def idType : TypeExpr := .nonNull (.named "ID")

namespace SchemaGraph

/-- The type with a number. -/
def type (g : SchemaGraph) (id : TypeId) : TypeDefinition := g.toTypeTable.type id

theorem type_eq (g : SchemaGraph) (id : TypeId) : g.type id = g.types[id.index]?.getD default := rfl

/-- The field with a number. -/
def field (g : SchemaGraph) (id : FieldId) : FieldDefinition := g.fields[id.index]?.getD default

/-- The number of the type with a name. -/
def typeByName? (g : SchemaGraph) (name : String) : Option TypeId := g.toTypeTable.find? name

/-- The name of a type. -/
def typeName (g : SchemaGraph) (id : TypeId) : String := (g.type id).name

/-- The name of a field. -/
def fieldName (g : SchemaGraph) (id : FieldId) : String := (g.field id).name

/-- `Type.field` -/
def qualifiedName (g : SchemaGraph) (id : FieldId) : String :=
  g.typeName (g.field id).parent ++ "." ++ g.fieldName id

/-- The field of a type with a name. -/
def lookupField? (g : SchemaGraph) (parent : TypeId) (name : String) : Option FieldId :=
  (g.type parent).fields.lookup name

/-- The field with the given type and field names. -/
def fieldByName? (g : SchemaGraph) (typeName fieldName : String) : Option FieldId := do
  g.lookupField? (← g.typeByName? typeName) fieldName

/-- The server's field `id: ID!` of a type, if it has one. -/
def idField? (g : SchemaGraph) (id : TypeId) : Option FieldId := do
  let field ← g.lookupField? id "id"
  if (g.field field).origin = .server && (g.field field).type = some idType then some field
  else none

/-- The operation that a type is the root of. -/
def operationKind? (g : SchemaGraph) (id : TypeId) : Option OperationKind :=
  if id = g.queryType then some .query
  else if some id = g.mutationType then some .mutation
  else none

/-- Whether a type is the root of an operation. -/
def isRootType (g : SchemaGraph) (id : TypeId) : Bool := (g.operationKind? id).isSome

/-- The numbers of the fields that literals declare, in order. -/
def declaredFields (g : SchemaGraph) : List FieldId :=
  (List.range g.fields.length).filterMap fun n =>
    if (g.field ⟨n⟩).declaration?.isSome then some ⟨n⟩ else none

end SchemaGraph

end IsoLiteral
