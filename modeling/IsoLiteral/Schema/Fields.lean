import IsoLiteral.Decimal.Shortest
import IsoLiteral.Json.Basic
import IsoLiteral.Schema.Builder

/-!
# Fields of the schema graph

The stages for fields: those of the server, those that every type of some sort gets, and those that
literals declare.
-/

namespace IsoLiteral

namespace SchemaBuilder

/-! ## Fields of the server -/

mutual
/-- The value that a default of the document stands for where a type is expected. A text stands for
an enum value where an enum is expected. -/
def defaultOf (isEnum : String → Bool) (expected : TypeExpr) : Json → Value
  | .null => .null
  | .bool b => .boolean b
  | .int i =>
    if -9223372036854775808 ≤ i && i ≤ 9223372036854775807 then .int i else .float (toString i)
  | .float x => .float x.render
  | .string s => if isEnum expected.innerName then .enum s else .string s
  | .array items => .list (defaultsOf isEnum (expected.listItem?.getD expected) items)
  | .object members => .object (defaultFieldsOf isEnum members)
termination_by structural json => json
/-- The values of the items of a default. -/
def defaultsOf (isEnum : String → Bool) (expected : TypeExpr) : List Json → List Value
  | [] => []
  | json :: rest => defaultOf isEnum expected json :: defaultsOf isEnum expected rest
termination_by structural jsons => jsons
/-- The values of the members of a default; nothing is known about their types. -/
def defaultFieldsOf (isEnum : String → Bool) : List (String × Json) → List (String × Value)
  | [] => []
  | (key, json) :: rest =>
    (key, defaultOf isEnum (.named "String") json) :: defaultFieldsOf isEnum rest
termination_by structural members => members
end

/-- Whether a name is that of an enum. -/
def isEnum (b : SchemaBuilder) (name : String) : Bool :=
  (b.typeId? name).any (b.kindOf · = .enum)

/-- The annotation that a type text of the document gives. -/
def annotationOf (text owner : String) : Except Diagnostic TypeExpr :=
  match TypeExpr.ofString? text with
  | some type => .ok type
  | none =>
    .error ((Diagnostic.unlocated .invalidType).withDetail
      (TypeExpr.invalidMessage text ++ " on " ++ owner))

/-- The definition of an argument or input field, whose type has to be an input type. -/
def inputDefinition (b : SchemaBuilder) (owner name typeText : String)
    (defaultValue : Option Json) : Except Diagnostic ArgumentDefinition := do
  let type ← annotationOf typeText owner
  match b.typeId? type.innerName with
  | some id =>
    if (b.kindOf id).isInput then
      .ok { name, type, defaultValue := defaultValue.map (defaultOf b.isEnum type) }
    else
      .error ((Diagnostic.unlocated .invalidType).withDetail
        ("`" ++ type.innerName ++ "` is not an input type, used by " ++ owner))
  | none => .error (unknownType type.innerName owner)

/-- The definition of an argument of a field. -/
def argumentDefinition (b : SchemaBuilder) (fieldOwner : String) (arg : ArgumentDocument) :
    Except Diagnostic ArgumentDefinition :=
  b.inputDefinition ("argument `" ++ arg.name ++ "` of `" ++ fieldOwner ++ "`") arg.name arg.type
    arg.defaultValue

/-- The results that succeeded, in order. -/
def successes {α : Type} (results : List (Except Diagnostic α)) : List α :=
  results.filterMap fun
    | .ok a => some a
    | .error _ => none

/-- The problems of the results that failed, in order. -/
def failures {α : Type} (results : List (Except Diagnostic α)) : Diagnostics :=
  results.filterMap fun
    | .ok _ => none
    | .error d => some d

/-- The kind of a server field whose type has the given name at its core. -/
def serverFieldKind (b : SchemaBuilder) (target : TypeId) : FieldKind :=
  if (b.kindOf target).isComposite then .linked target false else .scalar

/-- Adds a field of the server. -/
def addServerField (parent : TypeId) (parentName : String) (b : SchemaBuilder)
    (doc : FieldDocument) : SchemaBuilder :=
  let owner := parentName ++ "." ++ doc.name
  match annotationOf doc.type owner with
  | .error d => b.report d
  | .ok type =>
    match b.typeId? type.innerName with
    | none => b.report (unknownType type.innerName ("field `" ++ owner ++ "`"))
    | some target =>
      let arguments := doc.arguments.map (b.argumentDefinition owner)
      let field : PendingField :=
        { parent, name := doc.name, kind := b.serverFieldKind target, type := some type,
          arguments := successes arguments, origin := .server, description := doc.description }
      let b := b.reportAll (failures arguments)
      (b.addField? field).getD
        (b.report ((Diagnostic.unlocated .duplicateField).withDetail owner))

/-- Adds the fields of a type of the document. -/
def addServerFields (b : SchemaBuilder) (doc : TypeDocument) : SchemaBuilder :=
  match b.typeId? doc.name with
  | none => b
  | some parent =>
    match b.kindOf parent with
    | .inputObject =>
      let results := doc.fields.map fun f =>
        b.inputDefinition (doc.name ++ "." ++ f.name) f.name f.type f.defaultValue
      (b.reportAll (failures results)).modifyType parent
        (fun t => { t with inputFields := successes results }) fun _ => rfl
    | .object | .interface => doc.fields.foldl (addServerField parent doc.name) b
    | _ => b

/-! ## Synthesized fields -/

/-- Adds a field that every type of some sort gets. A field of the server wins over it. -/
def synthesize (b : SchemaBuilder) (parent : TypeId) (name : String) (kind : FieldKind)
    (type : Option TypeExpr) : SchemaBuilder :=
  let field : PendingField :=
    { parent, name, kind, type, arguments := [], origin := .synthesized, description := none }
  (b.addField? field).getD b

/-- Whether a type has a field `id: ID!`. -/
def hasIdField (b : SchemaBuilder) (id : TypeId) : Bool :=
  ((b.type id).fields.lookup "id").any fun field =>
    (b.fields[field.index]?.bind (·.type)) = some idType

/-- Adds the field that narrows an abstract type to one of its object types. -/
def addMemberField (parent : TypeId) (b : SchemaBuilder) (member : TypeId) : SchemaBuilder :=
  let name := (b.type member).name
  b.synthesize parent ("as" ++ name) (.linked member true) (some (.named name))

/-- Adds the fields for records that can be identified. -/
def addRecordFields (options : SchemaOptions) (b : SchemaBuilder) (id : TypeId) : SchemaBuilder :=
  if b.hasIdField id then
    let b := b.synthesize id linkField .link none
    if options.generateRefetchField then
      b.synthesize id refetchField (.resolver .refetchAction) none
    else b
  else b

/-- Adds the synthesized fields of a type. -/
def addSynthesizedFields (options : SchemaOptions) (b : SchemaBuilder) (id : TypeId) :
    SchemaBuilder :=
  if (b.kindOf id).isComposite then
    let b := b.synthesize id typenameField .scalar (some (.nonNull (.named "String")))
    if (b.kindOf id).isAbstract then (b.type id).concreteTypes.foldl (addMemberField id) b
    else b.addRecordFields options id
  else b

end SchemaBuilder

/-! ## Declared fields -/

/-- The artifact kind that a declaration's directives ask for. -/
def Declaration.artifactKind (d : Declaration) : ArtifactKind :=
  if d.hasDirective "component" then .component
  else if d.hasDirective "loadable" then .loadableAction
  else .eager

namespace SchemaBuilder

/-- The kind and type of a declared field. The target of a pointer has to exist and to have fields. -/
def declaredKind (b : SchemaBuilder) (d : Declaration) :
    Except Diagnostic (FieldKind × Option TypeExpr) :=
  match d.kind, d.target with
  | .pointer, some target =>
    let unknown := (Diagnostic.located d.source .unknownPointerTarget target.range).withDetail
      ("`" ++ target.annotation.innerName ++ "`")
    match b.typeId? target.annotation.innerName with
    | some id =>
      if (b.kindOf id).isComposite then .ok (.pointer id, some target.annotation)
      else .error unknown
    | none => .error unknown
  | _, _ => .ok (.resolver d.artifactKind, none)

/-- A variable of a declaration as an argument of the declared field. -/
def argumentOfVariable (v : VariableDefinition) : ArgumentDefinition :=
  ⟨v.name.text, v.type.annotation, v.defaultValue.map PlacedValue.value⟩

/-- The field that a declaration adds to the graph. -/
def declaredField (b : SchemaBuilder) (index : Nat) (d : Declaration) :
    Except Diagnostic PendingField :=
  match b.typeId? d.parentType.text with
  | none =>
    .error ((Diagnostic.located d.source .unknownParentType d.parentType.range).withDetail
      d.qualifiedName)
  | some parent =>
    if (b.kindOf parent).isComposite then do
      let (kind, type) ← b.declaredKind d
      return { parent, name := d.fieldName.text, kind, type,
               arguments := d.variableDefinitions.map argumentOfVariable, origin := .declared index,
               description := d.description }
    else .error (Diagnostic.located d.source .invalidParentType d.parentType.range)

/-- Adds the field of a declaration; an entrypoint has none. -/
def addDeclaredField (b : SchemaBuilder) (d : Declaration) (index : Nat) : SchemaBuilder :=
  if d.kind = .entrypoint then b
  else
    match b.declaredField index d with
    | .error e => b.report e
    | .ok field =>
      (b.addField? field).getD
        (b.report ((Diagnostic.located d.source .duplicateField d.fieldName.range).withDetail
          d.qualifiedName))

/-- Adds the fields of declarations, the first of which has the given index. -/
def addDeclaredFields (b : SchemaBuilder) (index : Nat) : List Declaration → SchemaBuilder
  | [] => b
  | d :: rest => (b.addDeclaredField d index).addDeclaredFields (index + 1) rest

end SchemaBuilder

end IsoLiteral
