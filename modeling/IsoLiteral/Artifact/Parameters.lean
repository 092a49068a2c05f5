import IsoLiteral.Artifact.Id
import IsoLiteral.Resolution.Basic
import IsoLiteral.Text.Join

/-!
# Parameters of resolvers

The shape of the value that the resolver of a field receives: one field for each selection, wrapped
in lists and nullability as the schema says. The shape can be written as a TypeScript type.
-/

namespace IsoLiteral

/-- A field of a shape. An updatable field may be assigned to. -/
structure ShapeField (α : Type) where
  name : String
  type : α
  updatable : Bool
deriving Repr, Inhabited

/-- The shape of a value. -/
inductive ParameterType where
  | scalar (name : String)
  | enum (values : List String)
  | nullable (inner : ParameterType)
  | list (item : ParameterType)
  | object (fields : List (ShapeField ParameterType))
  /-- What the resolver of another field returns. -/
  | resolverOutput (artifact : ArtifactId)
  /-- A function that requests the record again. -/
  | refetchAction
  /-- A field with a request of its own. -/
  | loadable (artifact : ArtifactId)
  | link
deriving Repr, Inhabited

/-- A field of a resolver's parameter. -/
abbrev ParameterField := ShapeField ParameterType

/-- The shape of a resolver's parameter. -/
structure ParameterShape where
  typeName : String
  fields : List ParameterField
deriving Repr

mutual
/-- The shape of a value whose type is written so, around a leaf. -/
def wrapLeaf (leaf : ParameterType) : TypeExpr → ParameterType
  | .nonNull inner => wrapNonNull leaf inner
  | .list item => .nullable (.list (wrapLeaf leaf item))
  | .named _ => .nullable leaf
termination_by structural t => t
/-- The shape of a value that cannot be null. -/
def wrapNonNull (leaf : ParameterType) : TypeExpr → ParameterType
  | .nonNull inner => wrapNonNull leaf inner
  | .list item => .list (wrapLeaf leaf item)
  | .named _ => leaf
termination_by structural t => t
end

/-- The shape of a leaf wrapped as the type says, if there is one. -/
def wrapOptional (leaf : ParameterType) : Option TypeExpr → ParameterType
  | none => leaf
  | some type => wrapLeaf leaf type

/-- The shape of a scalar or enum with a name. -/
def SchemaGraph.leafShape (g : SchemaGraph) (name : String) : ParameterType :=
  match (g.typeByName? name).map g.type with
  | some t => if t.kind = .enum then .enum t.enumValues else .scalar name
  | none => .scalar name

mutual
/-- The shape of what a selection yields. -/
def selectionShape (g : SchemaGraph) : ResolvedSelection → ParameterType
  | .scalar head _ =>
    let type := (g.field head.field).type
    wrapOptional (g.leafShape (type.elim "String" TypeExpr.innerName)) type
  | .linked head _ _ _ nested =>
    wrapOptional (.object (selectionShapes g nested)) (g.field head.field).type
  | .pointer head _ nested =>
    wrapOptional (.object (selectionShapes g nested)) (g.field head.field).type
  | .resolver _ .refetchAction none => .refetchAction
  | .resolver head kind none => .resolverOutput (g.readerId head.field kind)
  | .resolver head kind (some _) => .loadable (g.readerId head.field kind)
  | .link _ => .link
termination_by structural s => s
/-- The shapes of what selections yield, each with its name. -/
def selectionShapes (g : SchemaGraph) : List ResolvedSelection → List ParameterField
  | [] => []
  | s :: rest => ⟨s.head.responseName, selectionShape g s, s.isUpdatable⟩ :: selectionShapes g rest
termination_by structural ss => ss
end

/-- The shape of the parameter of a field's resolver. -/
def parameterShape (g : SchemaGraph) (id : ArtifactId) (selections : List ResolvedSelection) :
    ParameterShape :=
  ⟨id.stem ++ "__param", selectionShapes g selections⟩

/-! ## TypeScript -/

/-- The TypeScript type of a scalar. -/
def scalarTypeScript (name : String) : String :=
  if name = "ID" || name = "String" then "string"
  else if name = "Int" || name = "Float" then "number"
  else if name = "Boolean" then "boolean"
  else "unknown"

/-- The TypeScript type of an object from its fields, each on a line of its own. -/
def objectTypeScript (indent : Nat) (fields : List String) : String :=
  if fields.isEmpty then "\x7b\x7d"
  else "\x7b\n" ++ Text.concat fields ++ Text.indentation indent ++ "\x7d"

/-- The TypeScript type of what a field's resolver returns. -/
def resolverTypeScript (artifact : ArtifactId) : String :=
  "ReturnType<typeof " ++ artifact.stem ++ "__resolver>"

mutual
/-- The TypeScript type of a shape that starts on a line with the given indentation. -/
def ParameterType.typeScriptAt (indent : Nat) : ParameterType → String
  | .scalar name => scalarTypeScript name
  | .enum values => Text.joinWith " | " (values.map fun v => "\"" ++ v ++ "\"")
  | .nullable inner => "(" ++ inner.typeScriptAt indent ++ " | null)"
  | .list item => "ReadonlyArray<" ++ item.typeScriptAt indent ++ ">"
  | .object fields => objectTypeScript indent (fieldLines indent fields)
  | .resolverOutput artifact => resolverTypeScript artifact
  | .refetchAction => "() => void"
  | .loadable artifact => "LoadableField<" ++ resolverTypeScript artifact ++ ">"
  | .link => "Link"
termination_by structural t => t
/-- The line of each field of an object. -/
def fieldLines (indent : Nat) : List (ShapeField ParameterType) → List String
  | [] => []
  | f :: rest => fieldLine indent f :: fieldLines indent rest
termination_by structural fs => fs
/-- The line of a field of an object. -/
def fieldLine (indent : Nat) : ShapeField ParameterType → String
  | ⟨name, type, updatable⟩ =>
    Text.indentation (indent + 1) ++ (if updatable then "" else "readonly ") ++ name ++ ": " ++
      type.typeScriptAt (indent + 1) ++ ",\n"
termination_by structural f => f
end

/-- The TypeScript type of a shape. -/
def ParameterType.toTypeScript (t : ParameterType) : String := t.typeScriptAt 0

/-- The TypeScript definition of a parameter's type. -/
def ParameterShape.toTypeScript (shape : ParameterShape) : String :=
  "export type " ++ shape.typeName ++ " = " ++ objectTypeScript 0 (fieldLines 0 shape.fields) ++ ";\n"

/-! ## JSON -/

mutual
/-- A shape as JSON. -/
def ParameterType.toJson : ParameterType → Json
  | .scalar name => .object [("kind", .string "Scalar"), ("name", .string name)]
  | .enum values => .object [("kind", .string "Enum"), ("values", Json.strings values)]
  | .nullable inner => .object [("kind", .string "Nullable"), ("inner", inner.toJson)]
  | .list item => .object [("kind", .string "List"), ("item", item.toJson)]
  | .object fields => .object [("kind", .string "Object"), ("fields", .array (shapesToJson fields))]
  | .resolverOutput artifact =>
    .object [("kind", .string "ResolverOutput"), ("artifact", artifact.toJson)]
  | .refetchAction => .object [("kind", .string "RefetchAction")]
  | .loadable artifact => .object [("kind", .string "Loadable"), ("artifact", artifact.toJson)]
  | .link => .object [("kind", .string "Link")]
termination_by structural t => t
/-- Each field of an object as JSON. -/
def shapesToJson : List (ShapeField ParameterType) → List Json
  | [] => []
  | f :: rest => shapeToJson f :: shapesToJson rest
termination_by structural fs => fs
/-- A field of an object as JSON. -/
def shapeToJson : ShapeField ParameterType → Json
  | ⟨name, type, updatable⟩ =>
    .object [("name", .string name), ("type", type.toJson), ("updatable", .bool updatable)]
termination_by structural f => f
end

/-- The shape of a parameter as JSON. -/
def ParameterShape.toJson (shape : ParameterShape) : Json :=
  .object [("typeName", .string shape.typeName), ("fields", .array (shapesToJson shape.fields))]

end IsoLiteral
