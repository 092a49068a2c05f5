import IsoLiteral.Diagnostic.Basic
import IsoLiteral.Schema.Basic

/-!
# Types of the schema graph

A graph under construction holds the types and fields so far and every problem found. This module has
the stages for types: the built-in scalars, the types of a document, the object types behind
interfaces and unions, and the root types.
-/

namespace IsoLiteral

/-- The scalars that need no definition. -/
def builtinScalars : List String := ["ID", "String", "Int", "Float", "Boolean"]

/-- Options for building a graph. -/
structure SchemaOptions where
  generateRefetchField : Bool
deriving DecidableEq, Repr

/-- A graph under construction. -/
structure SchemaBuilder extends TypeTable where
  fields : List FieldDefinition
  diagnostics : Diagnostics
deriving Repr

namespace SchemaBuilder

/-- The builder before the first stage. -/
def empty : SchemaBuilder := ⟨.empty, [], []⟩

/-- Adds a diagnostic. -/
def report (b : SchemaBuilder) (d : Diagnostic) : SchemaBuilder :=
  { b with diagnostics := b.diagnostics ++ [d] }

/-- Adds diagnostics. -/
def reportAll (b : SchemaBuilder) (ds : Diagnostics) : SchemaBuilder :=
  { b with diagnostics := b.diagnostics ++ ds }

/-- The number of the type with a name. -/
def typeId? (b : SchemaBuilder) (name : String) : Option TypeId := b.toTypeTable.find? name

/-- The type with a number. -/
def type (b : SchemaBuilder) (id : TypeId) : TypeDefinition := b.toTypeTable.type id

theorem type_eq (b : SchemaBuilder) (id : TypeId) : b.type id = b.types[id.index]?.getD default := rfl

/-- The kind of a type. -/
def kindOf (b : SchemaBuilder) (id : TypeId) : TypeKind := (b.type id).kind

/-- Changes the type with a number, which keeps its name. -/
def modifyType (b : SchemaBuilder) (id : TypeId) (change : TypeDefinition → TypeDefinition)
    (keeps : ∀ t, (change t).name = t.name) : SchemaBuilder :=
  { b with toTypeTable := b.toTypeTable.modify id change keeps }

/-- Adds a type. -/
def addType (b : SchemaBuilder) (name : String) (kind : TypeKind) (enumValues : List String)
    (description : Option String) : SchemaBuilder :=
  { b with toTypeTable := b.toTypeTable.add name kind enumValues description }

/-- Adds a field to its parent type, unless that has a field of this name already. -/
def addField? (b : SchemaBuilder) (pending : PendingField) : Option SchemaBuilder :=
  let types := b.toTypeTable.intern pending.name
  if ((types.type pending.parent).fields.lookup pending.name).isSome then none
  else
    let field : FieldDefinition := { pending with id := ⟨b.fields.length⟩ }
    some ({ b with toTypeTable := types, fields := b.fields ++ [field] }.modifyType field.parent
      (fun t => { t with fields := t.fields ++ [(field.name, field.id)] }) fun _ => rfl)

/-! ## Types -/

/-- Adds the built-in scalars. -/
def addBuiltinScalars (b : SchemaBuilder) : SchemaBuilder :=
  builtinScalars.foldl (fun b name => b.addType name .scalar [] none) b

/-- Adds a type of the document. A document may list the built-in scalars again. -/
def addDocumentType (b : SchemaBuilder) (doc : TypeDocument) : SchemaBuilder :=
  match b.typeId? doc.name with
  | some existing =>
    if existing.index < builtinScalars.length && doc.kind = .scalar then b
    else b.report ((Diagnostic.unlocated .duplicateType).withDetail doc.name)
  | none => b.addType doc.name doc.kind doc.values doc.description

/-- A type that something refers to does not exist. -/
def unknownType (name referencedBy : String) : Diagnostic :=
  ((Diagnostic.unlocated .unknownType).withDetail name).withHint ("referenced by " ++ referencedBy)

/-- Makes an object type one of those that a union stands for. -/
def linkMember (owner : TypeId) (ownerName : String) (b : SchemaBuilder) (member : String) :
    SchemaBuilder :=
  let referencedBy := "union `" ++ ownerName ++ "`"
  match b.typeId? member with
  | some id =>
    if b.kindOf id = .object then
      b.modifyType owner (fun t => { t with concreteTypes := t.concreteTypes ++ [id] }) fun _ => rfl
    else
      b.report ((Diagnostic.unlocated .invalidType).withDetail
        ("`" ++ member ++ "` is not an object type, used by " ++ referencedBy))
  | none => b.report (unknownType member referencedBy)

/-- Makes an object type one of those that an interface stands for. -/
def linkInterface (owner : TypeId) (ownerName : String) (b : SchemaBuilder)
    (interface : String) : SchemaBuilder :=
  let referencedBy := "type `" ++ ownerName ++ "`"
  match b.typeId? interface with
  | some id =>
    if b.kindOf id = .interface then
      if b.kindOf owner = .object then
        b.modifyType id (fun t => { t with concreteTypes := t.concreteTypes ++ [owner] }) fun _ => rfl
      else b
    else
      b.report ((Diagnostic.unlocated .invalidType).withDetail
        ("`" ++ interface ++ "` is not an interface, implemented by " ++ referencedBy))
  | none => b.report (unknownType interface referencedBy)

/-- Links a type of the document with its members and interfaces. -/
def linkAbstractType (b : SchemaBuilder) (doc : TypeDocument) : SchemaBuilder :=
  match b.typeId? doc.name with
  | some id =>
    doc.interfaces.foldl (linkInterface id doc.name)
      (doc.members.foldl (linkMember id doc.name) b)
  | none => b

/-- The root type with a name, which has to be an object type. -/
def rootType? (b : SchemaBuilder) (name : String) : Except Diagnostic TypeId :=
  match b.typeId? name with
  | some id =>
    if b.kindOf id = .object then .ok id
    else .error ((Diagnostic.unlocated .unknownRootType).withDetail ("`" ++ name ++ "`"))
  | none => .error ((Diagnostic.unlocated .unknownRootType).withDetail ("`" ++ name ++ "`"))

/-- The root types of the document, with the problems found. -/
def rootTypes (b : SchemaBuilder) (document : SchemaDocument) :
    Option (TypeId × Option TypeId) × Diagnostics :=
  match b.rootType? document.queryType, document.mutationType.map b.rootType? with
  | .ok query, none => (some (query, none), [])
  | .ok query, some (.ok mutation) => (some (query, some mutation), [])
  | .ok _, some (.error e) => (none, [e])
  | .error d, some (.error e) => (none, [d, e])
  | .error d, _ => (none, [d])

end SchemaBuilder

end IsoLiteral
