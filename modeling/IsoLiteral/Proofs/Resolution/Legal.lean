import IsoLiteral.Proofs.Resolution.Substitution
import IsoLiteral.Proofs.Resolution.Variables
import IsoLiteral.Proofs.Schema.Coherent

/-!
# Constants that are legal for a type

`Legal` gives the rules by which a constant may be given for an input type, one for each form of a type and
of a value. The check of values follows these rules with one exception: how a scalar that is not built in
writes its values is unknown, so every literal is legal for it, but the check takes none that is a list.
-/

namespace IsoLiteral

/-- The literals that a scalar takes. -/
inductive ScalarTakes : String → Value → Prop where
  | int (i : Int) : ScalarTakes "Int" (.int i)
  | floatInt (i : Int) : ScalarTakes "Float" (.int i)
  | float (text : String) : ScalarTakes "Float" (.float text)
  | string (s : String) : ScalarTakes "String" (.string s)
  | boolean (b : Bool) : ScalarTakes "Boolean" (.boolean b)
  | idString (s : String) : ScalarTakes "ID" (.string s)
  | idInt (i : Int) : ScalarTakes "ID" (.int i)
  | custom {name : String} (v : Value) (own : name ∉ builtinScalars) : ScalarTakes name v

theorem scalarTakes_iff {name : String} {v : Value} : ScalarTakes name v ↔ acceptsLiteral name v = true := by
  constructor
  · rintro (_ | _ | _ | _ | _ | _ | _ | ⟨v, own⟩)
    case custom =>
      unfold acceptsLiteral
      split <;> simp_all [builtinScalars]
    all_goals rfl
  · intro accepted
    by_cases own : name ∈ builtinScalars
    · simp only [builtinScalars, List.mem_cons, List.not_mem_nil, or_false] at own
      rcases own with rfl | rfl | rfl | rfl | rfl <;> cases v <;>
        first
          | exact .int _
          | exact .floatInt _
          | exact .float _
          | exact .string _
          | exact .boolean _
          | exact .idString _
          | exact .idInt _
          | simp [acceptsLiteral] at accepted
    · exact .custom v own

/-- A scalar that takes a list is not built in. -/
theorem ScalarTakes.of_list {name : String} {items : List Value} (takes : ScalarTakes name (.list items)) :
    name ∉ builtinScalars := by
  cases takes with
  | custom _ own => exact own

/-- The literals that have no parts. -/
def Value.IsLeaf : Value → Prop
  | .int _ | .float _ | .string _ | .boolean _ | .enum _ => True
  | _ => False

namespace SchemaGraph

/-- The constants that may be given for a type. -/
inductive Legal (g : SchemaGraph) : TypeExpr → Value → Prop where
  | null {t} (nullable : t.isNonNull = false) : Legal g t .null
  | nonNull {t v} (given : v ≠ .null) (inner : Legal g t v) : Legal g (.nonNull t) v
  | items {t items} (each : ∀ v ∈ items, Legal g t v) : Legal g (.list t) (.list items)
  /-- A value that is no list stands for a list of itself. -/
  | single {t v} (given : v ≠ .null) (alone : ∀ items, v ≠ .list items) (inner : Legal g t v) :
      Legal g (.list t) v
  | scalar {name id v} (named : g.typeByName? name = some id) (kind : (g.type id).kind = .scalar)
      (takes : ScalarTakes (g.type id).name v) : Legal g (.named name) v
  | enum {name id value} (named : g.typeByName? name = some id) (kind : (g.type id).kind = .enum)
      (among : value ∈ (g.type id).enumValues) : Legal g (.named name) (.enum value)
  | inputObject {name id fields} (named : g.typeByName? name = some id)
      (kind : (g.type id).kind = .inputObject)
      (declared : ∀ f ∈ fields, ∃ d ∈ (g.type id).inputFields, d.name = f.1)
      (each : ∀ f ∈ fields, ∀ d, (g.type id).inputFields.find? (·.name = f.1) = some d → Legal g d.type f.2)
      (complete : ∀ d ∈ (g.type id).inputFields, d.isRequired = true → ∃ f ∈ fields, f.1 = d.name) :
      Legal g (.named name) (.object fields)

/-- A list is given where a scalar that is not built in is expected. -/
def ListsOpaque (g : SchemaGraph) (expected : TypeExpr) (v : Value) : Prop :=
  ∃ type items, CheckedAt g expected v type (.list items) ∧ (∃ name, type.stripNonNull = .named name) ∧
    g.IsOpaque type

variable {g : SchemaGraph} {judge : String → TypeExpr → Option ValueError} {t expected : TypeExpr} {v : Value}
  {id : TypeId} {name : String} {items : List Value} {fields : List (String × Value)}

/-! ## Forms of types -/

theorem legal_null_iff : Legal g t .null ↔ t.isNonNull = false := by
  constructor
  · intro legal
    cases legal with
    | null nullable => exact nullable
    | nonNull given _ => exact absurd rfl given
    | single _ _ _ => rfl
    | scalar _ _ _ => rfl
  · exact .null

theorem legal_stripNonNull_iff (given : v ≠ .null) : Legal g t v ↔ Legal g t.stripNonNull v := by
  induction t with
  | nonNull inner ih =>
    rw [TypeExpr.stripNonNull, ← ih]
    constructor
    · intro legal
      cases legal with
      | null _ => exact absurd rfl given
      | nonNull _ inside => exact inside
    · exact .nonNull given
  | named _ => rfl
  | list _ => rfl

/-- What is no list stands for a list of itself, at any depth. -/
theorem legal_named_iff (given : v ≠ .null) (alone : ∀ items, v ≠ .list items) :
    Legal g t v ↔ Legal g (.named t.innerName) v := by
  induction t with
  | named _ => rfl
  | nonNull inner ih =>
    rw [legal_stripNonNull_iff given, TypeExpr.stripNonNull, ← legal_stripNonNull_iff given, ih]
    rfl
  | list item ih =>
    rw [show (TypeExpr.list item).innerName = item.innerName from rfl, ← ih]
    constructor
    · intro legal
      cases legal with
      | null _ => exact absurd rfl given
      | items _ => exact absurd rfl (alone _)
      | single _ _ inside => exact inside
    · exact .single given alone

theorem legal_items_iff (list : t.stripNonNull = .list expected) :
    Legal g t (.list items) ↔ ∀ v ∈ items, Legal g expected v := by
  rw [legal_stripNonNull_iff (v := .list items) nofun, list]
  constructor
  · intro legal
    cases legal with
    | items each => exact each
    | single _ alone _ => exact absurd rfl (alone _)
  · exact .items

/-- What is not looked into is legal for a type if the type takes it as it is. -/
theorem legal_leaf_iff (named : g.typeByName? name = some id) (given : v ≠ .null)
    (closed : (g.type id).kind = .inputObject → ∀ fields, v ≠ .object fields) :
    Legal g (.named name) v ↔ acceptsLeaf (g.type id) v = true := by
  constructor
  · intro legal
    cases legal with
    | null _ => exact absurd rfl given
    | scalar named' kind takes =>
      obtain rfl := Option.some.inj (named.symm.trans named')
      unfold acceptsLeaf
      rw [kind]
      exact scalarTakes_iff.1 takes
    | enum named' kind among =>
      obtain rfl := Option.some.inj (named.symm.trans named')
      unfold acceptsLeaf
      rw [kind]
      exact decide_eq_true among
    | inputObject named' kind _ _ _ =>
      obtain rfl := Option.some.inj (named.symm.trans named')
      exact absurd rfl (closed kind _)
  · intro accepted
    unfold acceptsLeaf at accepted
    split at accepted
    · rename_i kind
      exact .scalar named kind (scalarTakes_iff.2 accepted)
    · rename_i kind
      exact .enum named kind (of_decide_eq_true accepted)
    · cases accepted

theorem missingField?_eq_none_iff {t : TypeDefinition} :
    missingField? t fields = none ↔ ∀ d ∈ t.inputFields, d.isRequired = true → ∃ f ∈ fields, f.1 = d.name := by
  simp [missingField?, List.find?_eq_none]

theorem legal_inputObject_iff (named : g.typeByName? name = some id) (kind : (g.type id).kind = .inputObject) :
    Legal g (.named name) (.object fields) ↔
      (∀ f ∈ fields, ∃ d, (g.type id).inputFields.find? (·.name = f.1) = some d ∧ Legal g d.type f.2) ∧
        missingField? (g.type id) fields = none := by
  rw [missingField?_eq_none_iff]
  constructor
  · intro legal
    cases legal with
    | scalar named' other _ =>
      obtain rfl := Option.some.inj (named.symm.trans named')
      rw [kind] at other
      cases other
    | inputObject named' _ declared each complete =>
      obtain rfl := Option.some.inj (named.symm.trans named')
      refine ⟨fun f member => ?_, complete⟩
      obtain ⟨d, listed, same⟩ := declared f member
      have known : ((g.type id).inputFields.find? (·.name = f.1)).isSome := by
        simpa using ⟨d, listed, same⟩
      obtain ⟨d, known⟩ := Option.isSome_iff_exists.1 known
      exact ⟨d, known, each f member d known⟩
  · rintro ⟨each, complete⟩
    refine .inputObject named kind (fun f member => ?_) (fun f member d known => ?_) complete
    · obtain ⟨d, known, -⟩ := each f member
      exact ⟨d, List.mem_of_find?_eq_some known, by simpa using List.find?_some known⟩
    · obtain ⟨d', known', legal⟩ := each f member
      obtain rfl := Option.some.inj (known.symm.trans known')
      exact legal

/-! ## Lists for opaque scalars -/

theorem listsOpaque_items_iff (list : t.stripNonNull = .list expected) :
    ListsOpaque g t (.list items) ↔ ∃ v ∈ items, ListsOpaque g expected v := by
  constructor
  · rintro ⟨type, inner, there, ⟨name, bare⟩, isOpaque⟩
    cases there with
    | here =>
      rw [list] at bare
      cases bare
    | item same member inside =>
      obtain rfl := TypeExpr.list.inj (list.symm.trans same)
      exact ⟨_, member, type, inner, inside, ⟨name, bare⟩, isOpaque⟩
  · rintro ⟨v, member, type, inner, there, bare⟩
    exact ⟨type, inner, .item list member there, bare⟩

theorem listsOpaque_inputObject_iff (named : g.typeByName? t.innerName = some id)
    (kind : (g.type id).kind = .inputObject) :
    ListsOpaque g t (.object fields) ↔ ∃ f ∈ fields, ∃ d,
      (g.type id).inputFields.find? (·.name = f.1) = some d ∧ ListsOpaque g d.type f.2 := by
  constructor
  · rintro ⟨type, inner, there, bare⟩
    cases there with
    | field named' _ member known inside =>
      obtain rfl := Option.some.inj (named.symm.trans named')
      exact ⟨_, member, _, known, type, inner, inside, bare⟩
  · rintro ⟨f, member, d, known, type, inner, there, bare⟩
    exact ⟨type, inner, .field named kind member known there, bare⟩

theorem not_listsOpaque_null : ¬ ListsOpaque g t .null := by
  rintro ⟨type, inner, there, -⟩
  cases there

theorem not_listsOpaque_object (named : g.typeByName? t.innerName = some id)
    (kind : (g.type id).kind ≠ .inputObject) : ¬ ListsOpaque g t (.object fields) := by
  rintro ⟨type, inner, there, -⟩
  cases there with
  | field named' kind' _ _ _ =>
    obtain rfl := Option.some.inj (named.symm.trans named')
    exact kind kind'

/-- A list is legal where no list is expected only for an opaque scalar. -/
theorem listsOpaque_of_legal (bare : t.stripNonNull = .named name) (legal : Legal g t (.list items)) :
    ListsOpaque g t (.list items) := by
  rw [legal_stripNonNull_iff (v := .list items) nofun, bare] at legal
  have same : t.innerName = name := by rw [← t.innerName_stripNonNull, bare]; rfl
  refine ⟨t, items, .here, ⟨name, bare⟩, fun id named => ?_⟩
  rw [same] at named
  cases legal with
  | scalar named' kind takes =>
    obtain rfl := Option.some.inj (named.symm.trans named')
    exact ⟨kind, takes.of_list⟩

/-! ## The check -/

/-- The check takes a value for the input types that it is legal for and for no others, but for lists that are
given for opaque scalars. -/
def ChecksLegality (g : SchemaGraph) (judge : String → TypeExpr → Option ValueError) (v : Value) : Prop :=
  ∀ {t : TypeExpr}, g.IsInput t →
    ((g.checkValue judge t v).error = none ↔ Legal g t v ∧ ¬ ListsOpaque g t v)

theorem checksLegality_null : ChecksLegality g judge .null := by
  intro t _
  rw [legal_null_iff, checkValue_null]
  cases t.isNonNull <;> simp [not_listsOpaque_null]

theorem checksLegality_leaf (leaf : v.IsLeaf) : ChecksLegality g judge v := by
  intro t input
  obtain ⟨id, named, -, -⟩ := input
  have given : v ≠ .null := by rintro rfl; exact leaf
  have alone : ∀ items, v ≠ .list items := by rintro items rfl; exact leaf
  have closed : ∀ fields, v ≠ .object fields := by rintro fields rfl; exact leaf
  have none : ¬ ListsOpaque g t v := by
    rintro ⟨type, inner, there, -⟩
    cases there <;> exact leaf
  have own : g.checkValue judge t v = g.checkLeaf t v := by
    cases v <;> first | exact leaf.elim | simp
  rw [own, legal_named_iff given alone, legal_leaf_iff named given fun _ => closed, checkLeaf, named]
  dsimp only
  split <;> simp [*]

/-- Where a list is expected, a list is checked item by item. -/
theorem accepted_items_iff (list : t.stripNonNull = .list expected) (input : g.IsInput t)
    (each : ∀ v ∈ items, ChecksLegality g judge v) :
    (g.checkItems judge expected items).error = none ↔ Legal g t (.list items) ∧ ¬ ListsOpaque g t (.list items) := by
  have inner : g.IsInput expected := by
    rw [IsInput, ← t.innerName_stripNonNull, list] at input
    exact input
  rw [checkItems_eq_none_iff, legal_items_iff list, listsOpaque_items_iff list]
  constructor
  · intro accepted
    refine ⟨fun v member => ((each v member inner).1 (accepted v member)).1, ?_⟩
    rintro ⟨v, member, lists⟩
    exact ((each v member inner).1 (accepted v member)).2 lists
  · rintro ⟨legal, none⟩ v member
    exact (each v member inner).2 ⟨legal v member, fun lists => none ⟨v, member, lists⟩⟩

theorem checksLegality_list (each : ∀ v ∈ items, ChecksLegality g judge v) :
    ChecksLegality g judge (.list items) := by
  intro t input
  rw [checkValue_list]
  split
  · rename_i item list
    exact accepted_items_iff list input each
  · rename_i other
    have bare : ∃ name, t.stripNonNull = .named name := by
      have nullable := t.isNonNull_stripNonNull
      cases same : t.stripNonNull with
      | named name => exact ⟨name, rfl⟩
      | list item => exact absurd same (other item)
      | nonNull _ => rw [same] at nullable; cases nullable
    obtain ⟨name, bare⟩ := bare
    constructor
    · intro accepted
      cases accepted
    · rintro ⟨legal, none⟩
      exact absurd (listsOpaque_of_legal bare legal) none

/-- An object for an input object is checked field by field, after which no required field may be missing. -/
theorem accepted_fields_iff (named : g.typeByName? t.innerName = some id) (kind : (g.type id).kind = .inputObject)
    (inputs : ∀ d ∈ (g.type id).inputFields, g.IsInput d.type)
    (each : ∀ f ∈ fields, ChecksLegality g judge f.2) :
    ((∀ f ∈ fields, ∃ d, (g.type id).inputFields.find? (·.name = f.1) = some d ∧
        (g.checkValue judge d.type f.2).error = none) ∧ missingField? (g.type id) fields = none) ↔
      Legal g (.named t.innerName) (.object fields) ∧ ¬ ListsOpaque g t (.object fields) := by
  rw [legal_inputObject_iff named kind, listsOpaque_inputObject_iff named kind]
  have checked (f : String × Value) (member : f ∈ fields) {d : ArgumentDefinition}
      (known : (g.type id).inputFields.find? (·.name = f.1) = some d) :=
    each f member (inputs d (List.mem_of_find?_eq_some known))
  constructor
  · rintro ⟨accepted, complete⟩
    refine ⟨⟨fun f member => ?_, complete⟩, ?_⟩
    · obtain ⟨d, known, fine⟩ := accepted f member
      exact ⟨d, known, ((checked f member known).1 fine).1⟩
    · rintro ⟨f, member, d, known, lists⟩
      obtain ⟨d', known', fine⟩ := accepted f member
      obtain rfl := Option.some.inj (known.symm.trans known')
      exact ((checked f member known).1 fine).2 lists
  · rintro ⟨⟨legal, complete⟩, none⟩
    refine ⟨fun f member => ?_, complete⟩
    obtain ⟨d, known, own⟩ := legal f member
    exact ⟨d, known, (checked f member known).2 ⟨own, fun lists => none ⟨f, member, d, known, lists⟩⟩⟩

theorem checksLegality_object (inputs : ∀ name id, g.typeByName? name = some id →
      ∀ d ∈ (g.type id).inputFields, g.IsInput d.type)
    (each : ∀ f ∈ fields, ChecksLegality g judge f.2) : ChecksLegality g judge (.object fields) := by
  intro t input
  obtain ⟨id, named, -, -⟩ := input
  have given : Value.object fields ≠ .null := by simp
  have alone : ∀ items, Value.object fields ≠ .list items := by simp
  rw [checkValue_object, named, legal_named_iff given alone]
  dsimp only
  split
  · rename_i kind
    rw [ValueCheck.error_andThen_eq_none, checkFields_eq_none_iff, checkMissing_eq_none_iff]
    exact accepted_fields_iff named kind (inputs _ id named) each
  · rename_i kind
    have none : ¬ ListsOpaque g t (.object fields) := not_listsOpaque_object named kind
    rw [legal_leaf_iff named given fun input => absurd input kind]
    split <;> simp [*]

/-- The fields of input objects are of input types. -/
theorem isInput_of_mem_inputFields {options : SchemaOptions} {document : SchemaDocument}
    {declarations : List Declaration} (built : ofDocument options document declarations = .ok g)
    (named : g.typeByName? name = some id) {d : ArgumentDefinition} (listed : d ∈ (g.type id).inputFields) :
    g.IsInput d.type := by
  obtain ⟨reported, indexed, -⟩ := indexed_ofDocument built
  have valid : id.index < g.types.length :=
    SchemaBuilder.typeId?_lt (b := ⟨g.toTypeTable, g.fields, reported⟩) named
  have member : g.type id ∈ g.types := SchemaBuilder.type_mem_types (b := ⟨g.toTypeTable, g.fields, reported⟩) valid
  obtain ⟨inner, found, kind⟩ := indexed.inputs _ member d listed
  exact ⟨inner, found, SchemaBuilder.typeId?_lt found, kind⟩

end SchemaGraph

/-- **Literal checking.** For an input type of a built graph, a constant is accepted exactly if it is legal and
gives no list where a scalar is expected that is not built in. -/
theorem accepted_iff_legal {options : SchemaOptions} {document : SchemaDocument} {declarations : List Declaration}
    {g : SchemaGraph} (built : SchemaGraph.ofDocument options document declarations = .ok g)
    (judge : String → TypeExpr → Option ValueError) {t : TypeExpr} (input : g.IsInput t) {v : Value}
    (constant : v.isConstant = true) :
    (g.checkValue judge t v).error = none ↔ g.Legal t v ∧ ¬ g.ListsOpaque t v := by
  suffices checks : g.ChecksLegality judge v from checks input
  clear input
  induction v using Value.memberInduction with
  | var name => cases constant
  | null => exact SchemaGraph.checksLegality_null
  | list items ih =>
    rw [Value.isConstant, Value.areConstant_iff] at constant
    exact SchemaGraph.checksLegality_list fun v member => ih v member (constant v member)
  | object fields ih =>
    rw [Value.isConstant, Value.areConstantFields_iff] at constant
    exact SchemaGraph.checksLegality_object
      (fun _ _ named _ listed => SchemaGraph.isInput_of_mem_inputFields built named listed)
      fun f member => ih f member (constant f member)
  | _ =>
    apply SchemaGraph.checksLegality_leaf
    trivial

theorem possible_opaqueGraph :
    (SchemaGraph.ofDocument ⟨true⟩ (userDocument filterArgument ["JSON"]) (declarationsOf [])).isOk = true := by
  decide +kernel

/-- Identifiers may be numbers, and a list may hold both. -/
theorem accepted_iff_legal_ids :
    (userGraph filterArgument ["JSON"] []).Legal (.list (.nonNull (.named "ID"))) (.list [.int 3, .string "a"]) :=
  have input : (userGraph filterArgument ["JSON"] []).IsInput (.list (.nonNull (.named "ID"))) :=
    ⟨⟨0⟩, by decide +kernel, by decide +kernel, by decide +kernel⟩
  ((accepted_iff_legal (built_userGraph possible_opaqueGraph) (fun _ _ => none) input (by decide +kernel)).1
    (by decide +kernel)).1

/-- A list is legal for a scalar that is not built in, and is not accepted. -/
theorem list_rejected_for_opaque_scalar :
    (userGraph filterArgument ["JSON"] []).IsInput (.named "JSON") ∧
    (userGraph filterArgument ["JSON"] []).Legal (.named "JSON") (.list [.int 1, .int 2]) ∧
    ((userGraph filterArgument ["JSON"] []).checkValue (fun _ _ => none) (.named "JSON")
      (.list [.int 1, .int 2])).error = some (.mismatch "expected `JSON`, found `[1, 2]`") :=
  have named : (userGraph filterArgument ["JSON"] []).typeByName? "JSON" = some ⟨7⟩ := by decide +kernel
  ⟨⟨⟨7⟩, named, by decide +kernel, by decide +kernel⟩,
    .scalar named (by decide +kernel) (.custom _ (by decide +kernel)), by decide +kernel⟩

end IsoLiteral
