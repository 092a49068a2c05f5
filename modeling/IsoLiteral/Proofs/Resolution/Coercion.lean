import IsoLiteral.Proofs.Resolution.Checking
import IsoLiteral.Schema.Builder
import Mathlib.Tactic

/-!
# What the check of a value comes to

Checking a value against a type goes down into the items of lists and the fields of input objects, and
`CheckedAt` says which values it comes to and what is expected of them there. A value is accepted exactly
if everything that the check comes to is fine by itself (`Suits`). An object for a scalar, or for a type
that is not known, is not looked into, whatever is inside.
-/

namespace IsoLiteral

namespace Value

/-- Induction on a value by the members of lists and objects. -/
@[elab_as_elim]
theorem memberInduction {motive : Value → Prop} (var : ∀ name, motive (.variable name))
    (int : ∀ i, motive (.int i)) (float : ∀ text, motive (.float text))
    (string : ∀ s, motive (.string s)) (boolean : ∀ b, motive (.boolean b)) (null : motive .null)
    (enum : ∀ name, motive (.enum name))
    (list : ∀ items, (∀ v ∈ items, motive v) → motive (.list items))
    (object : ∀ fields, (∀ field ∈ fields, motive field.2) → motive (.object fields)) :
    ∀ v, motive v :=
  -- The recursor goes through the lists of items and fields with motives of their own.
  @Value.rec motive (fun items => ∀ v ∈ items, motive v)
    (fun fields => ∀ field ∈ fields, motive field.2) (fun field => motive field.2)
    var int float string boolean null enum list object
    (by simp) (fun v rest first others => List.forall_mem_cons.2 ⟨first, others⟩)
    (by simp) (fun field rest first others => List.forall_mem_cons.2 ⟨first, others⟩)
    (fun _ _ holds => holds)

theorem mem_variableNamesOf {x : String} {items : List Value} :
    x ∈ variableNamesOf items ↔ ∃ v ∈ items, x ∈ v.variableNames := by
  induction items with
  | nil => simp [variableNamesOf]
  | cons v rest ih => simp [variableNamesOf, ih]

theorem mem_variableNamesOfFields {x : String} {fields : List (String × Value)} :
    x ∈ variableNamesOfFields fields ↔ ∃ field ∈ fields, x ∈ field.2.variableNames := by
  induction fields with
  | nil => simp [variableNamesOfFields]
  | cons field rest ih => simp [variableNamesOfFields, ih]

theorem areConstant_iff {items : List Value} :
    areConstant items = true ↔ ∀ v ∈ items, v.isConstant = true := by
  induction items with
  | nil => simp [areConstant]
  | cons v rest ih => simp [areConstant, ih]

theorem areConstantFields_iff {fields : List (String × Value)} :
    areConstantFields fields = true ↔ ∀ field ∈ fields, field.2.isConstant = true := by
  induction fields with
  | nil => simp [areConstantFields]
  | cons field rest ih => simp [areConstantFields, ih]

/-- A constant is a value in which no variable occurs. -/
theorem isConstant_iff (v : Value) : v.isConstant = true ↔ ∀ x, x ∉ v.variableNames := by
  induction v using memberInduction with
  | list items ih =>
    simp only [isConstant, areConstant_iff, variableNames, mem_variableNamesOf, not_exists, not_and]
    constructor
    · intro all x v member
      exact (ih v member).1 (all v member) x
    · intro none v member
      exact (ih v member).2 fun x => none x v member
  | object fields ih =>
    simp only [isConstant, areConstantFields_iff, variableNames, mem_variableNamesOfFields, not_exists,
      not_and]
    constructor
    · intro all x field member
      exact (ih field member).1 (all field member) x
    · intro none field member
      exact (ih field member).2 fun x => none x field member
  | _ => simp [isConstant, variableNames]

end Value

namespace SchemaGraph

variable {g : SchemaGraph}

/-- While a value is checked against a type, another value is checked against another type: the value
itself, an item of a list, or a field of an input object. -/
inductive CheckedAt (g : SchemaGraph) : TypeExpr → Value → TypeExpr → Value → Prop where
  | here {expected v} : CheckedAt g expected v expected v
  | item {expected item items v type w} (list : expected.stripNonNull = .list item)
      (member : v ∈ items) (inside : CheckedAt g item v type w) :
      CheckedAt g expected (.list items) type w
  | field {expected id fields key v f type w} (named : g.typeByName? expected.innerName = some id)
      (input : (g.type id).kind = .inputObject) (member : (key, v) ∈ fields)
      (known : (g.type id).inputFields.find? (·.name = key) = some f)
      (inside : CheckedAt g f.type v type w) : CheckedAt g expected (.object fields) type w

/-- Whether any object is taken for a type without looking into it: the type is not known, or is a scalar
that is not built in. -/
def IsOpaque (g : SchemaGraph) (expected : TypeExpr) : Prop :=
  ∀ id, g.typeByName? expected.innerName = some id →
    (g.type id).kind = .scalar ∧ (g.type id).name ∉ builtinScalars

/-- What has to hold of a value by itself where a type is expected. What holds of variables and nulls is
a parameter. -/
def Suits (g : SchemaGraph) (hole : TypeExpr → Value → Prop) (expected : TypeExpr) : Value → Prop
  | .variable name => hole expected (.variable name)
  | .null => hole expected .null
  | .list _ => ∃ item, expected.stripNonNull = .list item
  | .object fields =>
    ∀ id, g.typeByName? expected.innerName = some id →
      if (g.type id).kind = .inputObject then
        (∀ f ∈ fields, ((g.type id).inputFields.find? (·.name = f.1)).isSome) ∧
          missingField? (g.type id) fields = none
      else acceptsLeaf (g.type id) (.object fields) = true
  | v => (g.checkLeaf expected v).error = none

/-- Everything that the check of a value comes to is fine by itself. -/
def Accepts (g : SchemaGraph) (hole : TypeExpr → Value → Prop) (expected : TypeExpr) (v : Value) : Prop :=
  ∀ type w, CheckedAt g expected v type w → Suits g hole type w

/-- A null may stand for a nullable type, and a variable where it is judged to. -/
def judged (judge : String → TypeExpr → Option ValueError) (expected : TypeExpr) : Value → Prop
  | .variable name => judge name expected = none
  | _ => expected.isNonNull = false

end SchemaGraph

/-! ## One check after another -/

namespace ValueCheck

@[simp] theorem error_accept : accept.error = none := rfl

@[simp] theorem error_reject (e : ValueError) : (reject e).error = some e := rfl

theorem error_andThen_eq_none {a b : ValueCheck} :
    (a.andThen b).error = none ↔ a.error = none ∧ b.error = none := by
  rw [andThen]
  split
  · rename_i e failed
    simp [failed]
  · rename_i fine
    simp [fine]

end ValueCheck

namespace SchemaGraph

variable {g : SchemaGraph} {judge : String → TypeExpr → Option ValueError}

theorem checkItems_eq_none_iff {expected : TypeExpr} {items : List Value} :
    (g.checkItems judge expected items).error = none ↔
      ∀ v ∈ items, (g.checkValue judge expected v).error = none := by
  induction items with
  | nil => simp
  | cons v rest ih =>
    rw [checkItems_cons, ValueCheck.error_andThen_eq_none, ih, List.forall_mem_cons]

theorem checkFields_eq_none_iff {t : TypeDefinition} {fields : List (String × Value)} :
    (g.checkFields judge t fields).error = none ↔
      ∀ field ∈ fields, ∃ f, t.inputFields.find? (·.name = field.1) = some f ∧
        (g.checkValue judge f.type field.2).error = none := by
  induction fields with
  | nil => simp
  | cons field rest ih =>
    obtain ⟨key, v⟩ := field
    rw [checkFields_cons, List.forall_mem_cons]
    split
    · rename_i unknown
      simp [unknown]
    · rename_i f known
      rw [ValueCheck.error_andThen_eq_none, ih]
      simp [known]

theorem checkMissing_eq_none_iff {t : TypeDefinition} {fields : List (String × Value)} :
    (checkMissing t fields).error = none ↔ missingField? t fields = none := by
  rw [checkMissing]
  split <;> simp [*]

/-! ## Acceptance -/

/-- What an accepted value is by itself. -/
theorem suits_of_accepted {expected : TypeExpr} {v : Value}
    (accepted : (g.checkValue judge expected v).error = none) : Suits g (judged judge) expected v := by
  match v with
  | .variable name => simpa [Suits, judged] using accepted
  | .null =>
    rw [checkValue_null] at accepted
    split at accepted
    · cases accepted
    · rename_i nullable
      simpa [Suits, judged] using nullable
  | .list items =>
    rw [checkValue_list] at accepted
    split at accepted
    · rename_i item list
      exact ⟨item, list⟩
    · cases accepted
  | .object fields =>
    intro id named
    rw [checkValue_object, named] at accepted
    dsimp only at accepted
    split at accepted
    · rename_i input
      rw [ValueCheck.error_andThen_eq_none, checkFields_eq_none_iff, checkMissing_eq_none_iff] at accepted
      rw [if_pos input]
      refine ⟨fun f member => ?_, accepted.2⟩
      obtain ⟨d, known, -⟩ := accepted.1 f member
      rw [known]
      rfl
    · rename_i other
      rw [if_neg other]
      split at accepted
      · assumption
      · cases accepted
  | .int i => simpa [Suits] using accepted
  | .float text => simpa [Suits] using accepted
  | .string s => simpa [Suits] using accepted
  | .boolean b => simpa [Suits] using accepted
  | .enum name => simpa [Suits] using accepted

/-- The check accepts whatever it comes to. -/
theorem CheckedAt.accepted {expected type : TypeExpr} {v w : Value} (h : CheckedAt g expected v type w)
    (accepted : (g.checkValue judge expected v).error = none) :
    (g.checkValue judge type w).error = none := by
  induction h with
  | here => exact accepted
  | item list member _ ih =>
    rw [checkValue_list, list] at accepted
    exact ih (checkItems_eq_none_iff.1 accepted _ member)
  | field named input member known _ ih =>
    rw [checkValue_object, named] at accepted
    dsimp only at accepted
    rw [if_pos input, ValueCheck.error_andThen_eq_none, checkFields_eq_none_iff] at accepted
    obtain ⟨f, known', fine⟩ := accepted.1 _ member
    rw [known] at known'
    obtain rfl := Option.some.inj known'
    exact ih fine

theorem accepted_of_accepts (v : Value) :
    ∀ {expected : TypeExpr}, Accepts g (judged judge) expected v →
      (g.checkValue judge expected v).error = none := by
  induction v using Value.memberInduction with
  | var name =>
    intro expected accepts
    simpa [Suits, judged] using accepts _ _ .here
  | null =>
    intro expected accepts
    have nullable : expected.isNonNull = false := accepts _ _ .here
    simp [nullable]
  | list items ih =>
    intro expected accepts
    obtain ⟨item, list⟩ := accepts _ _ .here
    rw [checkValue_list, list]
    exact checkItems_eq_none_iff.2 fun v member =>
      ih v member fun type w inside => accepts type w (.item list member inside)
  | object fields ih =>
    intro expected accepts
    rw [checkValue_object]
    split
    · rfl
    · rename_i id named
      have own := accepts _ _ .here id named
      split
      · rename_i input
        rw [if_pos input] at own
        rw [ValueCheck.error_andThen_eq_none, checkFields_eq_none_iff, checkMissing_eq_none_iff]
        refine ⟨fun field member => ?_, own.2⟩
        obtain ⟨f, known⟩ := Option.isSome_iff_exists.1 (own.1 field member)
        exact ⟨f, known, ih field member fun type w inside =>
          accepts type w (.field named input member known inside)⟩
      · rename_i other
        rw [if_neg other] at own
        rw [if_pos own]
        rfl
  | _ =>
    intro expected accepts
    simpa [Suits] using accepts _ _ .here

/-- **A value is accepted** exactly if everything that its check comes to is fine by itself. -/
theorem checkValue_eq_none_iff {expected : TypeExpr} {v : Value} :
    (g.checkValue judge expected v).error = none ↔ Accepts g (judged judge) expected v :=
  ⟨fun accepted _ _ inside => suits_of_accepted (inside.accepted accepted), accepted_of_accepts v⟩

/-! ## Variables -/

variable {hole : TypeExpr → Value → Prop} {expected type : TypeExpr} {v w : Value}

theorem acceptsLiteral_object {name : String} {fields : List (String × Value)} :
    acceptsLiteral name (.object fields) = true ↔ name ∉ builtinScalars := by
  unfold acceptsLiteral
  split <;> simp_all [builtinScalars]

/-- An object is accepted for an input object, or without looking into it. -/
theorem inputObject_or_isOpaque {fields : List (String × Value)}
    (suits : Suits g hole expected (.object fields)) :
    (∃ id, g.typeByName? expected.innerName = some id ∧ (g.type id).kind = .inputObject) ∨
      g.IsOpaque expected := by
  by_cases looked : ∃ id, g.typeByName? expected.innerName = some id ∧ (g.type id).kind = .inputObject
  · exact .inl looked
  · refine .inr fun id named => ?_
    have own := suits id named
    rw [if_neg fun input => looked ⟨id, named, input⟩] at own
    unfold acceptsLeaf at own
    split at own
    · rename_i kind
      exact ⟨kind, acceptsLiteral_object.1 own⟩
    · rename_i same
      cases same
    · cases own

theorem CheckedAt.variableNames_subset (h : CheckedAt g expected v type w) :
    ∀ x ∈ w.variableNames, x ∈ v.variableNames := by
  induction h with
  | here => exact fun x inside => inside
  | item _ member _ ih =>
    intro x inside
    rw [Value.variableNames, Value.mem_variableNamesOf]
    exact ⟨_, member, ih x inside⟩
  | field _ _ member _ _ ih =>
    intro x inside
    rw [Value.variableNames, Value.mem_variableNamesOfFields]
    exact ⟨_, member, ih x inside⟩

theorem CheckedAt.mem_variableNames {x : String} (h : CheckedAt g expected v type (.variable x)) :
    x ∈ v.variableNames := by
  apply h.variableNames_subset
  simp [Value.variableNames]

/-- A variable of an accepted value is one that the check comes to, or is in an object that it does not
look into. -/
theorem checkedAt_of_mem_variableNames (v : Value) {x : String} :
    ∀ {expected : TypeExpr}, Accepts g hole expected v → x ∈ v.variableNames →
      (∃ type, CheckedAt g expected v type (.variable x)) ∨
      ∃ type fields, CheckedAt g expected v type (.object fields) ∧ g.IsOpaque type ∧
        x ∈ Value.variableNamesOfFields fields := by
  induction v using Value.memberInduction with
  | var name =>
    intro expected _ inside
    obtain rfl : x = name := by simpa [Value.variableNames] using inside
    exact .inl ⟨expected, .here⟩
  | list items ih =>
    intro expected accepts inside
    rw [Value.variableNames, Value.mem_variableNamesOf] at inside
    obtain ⟨v, member, inside⟩ := inside
    obtain ⟨item, list⟩ := accepts _ _ .here
    have inner : Accepts g hole item v := fun type w deeper => accepts type w (.item list member deeper)
    rcases ih v member inner inside with ⟨type, there⟩ | ⟨type, fields, there, rest⟩
    · exact .inl ⟨type, .item list member there⟩
    · exact .inr ⟨type, fields, .item list member there, rest⟩
  | object fields ih =>
    intro expected accepts inside
    rcases inputObject_or_isOpaque (accepts _ _ .here) with ⟨id, named, input⟩ | isOpaque
    · rw [Value.variableNames, Value.mem_variableNamesOfFields] at inside
      obtain ⟨field, member, inside⟩ := inside
      have own := accepts _ _ .here id named
      rw [if_pos input] at own
      obtain ⟨f, known⟩ := Option.isSome_iff_exists.1 (own.1 field member)
      have inner : Accepts g hole f.type field.2 := fun type w deeper =>
        accepts type w (.field named input member known deeper)
      rcases ih field member inner inside with ⟨type, there⟩ | ⟨type, deeper, there, rest⟩
      · exact .inl ⟨type, .field named input member known there⟩
      · exact .inr ⟨type, deeper, .field named input member known there, rest⟩
    · exact .inr ⟨expected, fields, .here, isOpaque, inside⟩
  | _ =>
    intro expected _ inside
    simp [Value.variableNames] at inside

end SchemaGraph

end IsoLiteral
