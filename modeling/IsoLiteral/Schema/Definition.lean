import IsoLiteral.Declaration.Basic
import IsoLiteral.Schema.Document

/-!
# Types and fields

The server's types and the fields that they own. Types and fields are numbered, and refer to each other
by number.
-/

namespace IsoLiteral

/-- The number of a type. -/
structure TypeId where
  index : Nat
deriving DecidableEq, Repr, Inhabited

/-- The number of a field. -/
structure FieldId where
  index : Nat
deriving DecidableEq, Repr, Inhabited

namespace TypeKind

/-- The name under which a kind is reported. -/
def name : TypeKind → String
  | object => "Object"
  | interface => "Interface"
  | union => "Union"
  | scalar => "Scalar"
  | enum => "Enum"
  | inputObject => "InputObject"

/-- Kinds whose types have fields to select. -/
def isComposite : TypeKind → Bool
  | object | interface | union => true
  | _ => false

/-- Kinds whose types stand for several object types. -/
def isAbstract : TypeKind → Bool
  | interface | union => true
  | _ => false

/-- Kinds whose types an argument or variable may have. -/
def isInput : TypeKind → Bool
  | scalar | enum | inputObject => true
  | _ => false

end TypeKind

/-- What the artifact of a resolver field is for. -/
inductive ArtifactKind where
  /-- Renders something on the screen. -/
  | component
  /-- A derived value, computed on reading. -/
  | eager
  /-- Requests its record again. -/
  | refetchAction
  /-- Fetched by a request of its own. -/
  | loadableAction
deriving DecidableEq, Repr, Inhabited

/-- The name of an artifact kind. -/
def ArtifactKind.name : ArtifactKind → String
  | component => "Component"
  | eager => "Eager"
  | refetchAction => "RefetchAction"
  | loadableAction => "LoadableAction"

/-- What a field is. -/
inductive FieldKind where
  | scalar
  /-- A field of the server with selections of its own. An inline fragment stays on its record and
  only narrows its type. -/
  | linked (target : TypeId) (inlineFragment : Bool)
  | resolver (kind : ArtifactKind)
  | pointer (target : TypeId)
  /-- The record's own place in the store. -/
  | link
deriving DecidableEq, Repr, Inhabited

/-- Where a field comes from. -/
inductive FieldOrigin where
  | server
  | synthesized
  /-- The declaration with the given index. -/
  | declared (declaration : Nat)
deriving DecidableEq, Repr, Inhabited

/-- An argument of a field or a field of an input object. -/
structure ArgumentDefinition where
  name : String
  type : TypeExpr
  defaultValue : Option Value
deriving Repr, Inhabited

/-- Whether a value has to be given: the type is non-null and there is no default. -/
def ArgumentDefinition.isRequired (a : ArgumentDefinition) : Bool :=
  a.type.isNonNull && a.defaultValue.isNone

/-- A type of the graph. -/
structure TypeDefinition where
  id : TypeId
  name : String
  kind : TypeKind
  /-- The fields by name, in the order they were added. -/
  fields : List (String × FieldId)
  /-- The object types that a record of this type may have. -/
  concreteTypes : List TypeId
  enumValues : List String
  inputFields : List ArgumentDefinition
  description : Option String
deriving Repr, Inhabited

/-- A field that has no number yet. -/
structure PendingField where
  parent : TypeId
  name : String
  kind : FieldKind
  /-- The type of a field of the server or the target of a pointer. -/
  type : Option TypeExpr
  arguments : List ArgumentDefinition
  origin : FieldOrigin
  description : Option String
deriving Repr, Inhabited

/-- A field of the graph. -/
structure FieldDefinition extends PendingField where
  id : FieldId
deriving Repr, Inhabited

namespace FieldDefinition

/-- The argument with a name. -/
def argument? (f : FieldDefinition) (name : String) : Option ArgumentDefinition :=
  f.arguments.find? (·.name = name)

/-- The index of the declaration that a field comes from. -/
def declaration? (f : FieldDefinition) : Option Nat :=
  match f.origin with
  | .declared index => some index
  | _ => none

end FieldDefinition

end IsoLiteral
