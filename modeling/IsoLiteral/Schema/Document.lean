import IsoLiteral.Json.Decode

/-!
# The schema document

The types of the server as a document lists them. Names and type texts are taken as they are; whether
they fit together is only seen when the schema is built. The document can be written back, with empty
lists and missing parts left out.
-/

namespace IsoLiteral

/-- The kinds of types. -/
inductive TypeKind where
  | object
  | interface
  | union
  | scalar
  | enum
  | inputObject
deriving DecidableEq, Repr, Inhabited

/-- An argument of a field. -/
structure ArgumentDocument where
  name : String
  type : String
  defaultValue : Option Json
deriving Repr, Inhabited

/-- A field of an object, interface or input object. -/
structure FieldDocument where
  name : String
  type : String
  arguments : List ArgumentDocument
  defaultValue : Option Json
  description : Option String
deriving Repr, Inhabited

/-- A type. Which of the lists matter depends on its kind. -/
structure TypeDocument where
  name : String
  kind : TypeKind
  interfaces : List String
  fields : List FieldDocument
  members : List String
  values : List String
  description : Option String
deriving Repr, Inhabited

/-- All types, and the names of the root types. -/
structure SchemaDocument where
  queryType : String
  mutationType : Option String
  types : List TypeDocument
deriving Repr, Inhabited

/-! ## Reading -/

open Json Decoder

/-- The kinds by the names they have in a document. -/
def TypeKind.documentNames : List (String × TypeKind) :=
  [("object", .object), ("interface", .interface), ("union", .union), ("scalar", .scalar),
   ("enum", .enum), ("inputObject", .inputObject)]

/-- Reads an argument. -/
def ArgumentDocument.decode : Decoder ArgumentDocument := fun depth raw => do
  let [name, type, defaultValue] ← record ["name", "type", "defaultValue"] depth raw | none
  return {
    name := ← required text (depth + 1) name
    type := ← required text (depth + 1) type
    defaultValue := ← orElse (nullable any) none (depth + 1) defaultValue }

/-- Reads a field. -/
def FieldDocument.decode : Decoder FieldDocument := fun depth raw => do
  let keys := ["name", "type", "arguments", "defaultValue", "description"]
  let [name, type, arguments, defaultValue, description] ← record keys depth raw | none
  return {
    name := ← required text (depth + 1) name
    type := ← required text (depth + 1) type
    arguments := ← orElse (list ArgumentDocument.decode) [] (depth + 1) arguments
    defaultValue := ← orElse (nullable any) none (depth + 1) defaultValue
    description := ← orElse (nullable text) none (depth + 1) description }

/-- Reads a type. -/
def TypeDocument.decode : Decoder TypeDocument := fun depth raw => do
  let keys := ["name", "kind", "implements", "fields", "members", "values", "description"]
  let [name, kind, interfaces, fields, members, values, description] ← record keys depth raw
    | none
  return {
    name := ← required text (depth + 1) name
    kind := ← required (oneOf TypeKind.documentNames) (depth + 1) kind
    interfaces := ← orElse (list text) [] (depth + 1) interfaces
    fields := ← orElse (list FieldDocument.decode) [] (depth + 1) fields
    members := ← orElse (list text) [] (depth + 1) members
    values := ← orElse (list text) [] (depth + 1) values
    description := ← orElse (nullable text) none (depth + 1) description }

namespace SchemaDocument

/-- Reads a schema document. -/
def decode : Decoder SchemaDocument := fun depth raw => do
  let [queryType, mutationType, types] ←
    record ["queryType", "mutationType", "types"] depth raw | none
  return {
    queryType := ← orElse text "Query" (depth + 1) queryType
    mutationType := ← orElse (nullable text) none (depth + 1) mutationType
    types := ← orElse (list TypeDocument.decode) [] (depth + 1) types }

/-- The document that a text holds. -/
def ofString? (text : String) : Option SchemaDocument := (Raw.ofString? text).bind (decode 0)

end SchemaDocument

/-! ## Writing -/

/-- The name of a kind in a document. -/
def TypeKind.documentName (kind : TypeKind) : String :=
  match kind with
  | .object => "object"
  | .interface => "interface"
  | .union => "union"
  | .scalar => "scalar"
  | .enum => "enum"
  | .inputObject => "inputObject"

/-- Writes an argument. -/
def ArgumentDocument.toJson (a : ArgumentDocument) : Json :=
  .object ([("name", .string a.name), ("type", .string a.type)] ++
    optional "defaultValue" (fun v => v) a.defaultValue)

/-- Writes a field. -/
def FieldDocument.toJson (f : FieldDocument) : Json :=
  .object ([("name", .string f.name), ("type", .string f.type)] ++
    optionalList "arguments" ArgumentDocument.toJson f.arguments ++
    optional "defaultValue" (fun v => v) f.defaultValue ++
    optional "description" .string f.description)

/-- Writes a type. -/
def TypeDocument.toJson (t : TypeDocument) : Json :=
  .object ([("name", .string t.name), ("kind", .string t.kind.documentName)] ++
    optionalList "implements" .string t.interfaces ++
    optionalList "fields" FieldDocument.toJson t.fields ++
    optionalList "members" .string t.members ++ optionalList "values" .string t.values ++
    optional "description" .string t.description)

/-- Writes a schema document. -/
def SchemaDocument.toJson (d : SchemaDocument) : Json :=
  .object ([("queryType", .string d.queryType)] ++
    optional "mutationType" .string d.mutationType ++
    [("types", .array (d.types.map TypeDocument.toJson))])

end IsoLiteral
