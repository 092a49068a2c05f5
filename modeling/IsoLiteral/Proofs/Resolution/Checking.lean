import IsoLiteral.Resolution.Coercion

/-!
# The check of a value and the state of its caller

The check of a value hands a state to the judgement on each variable. The outcome does not depend on that
state: if the judgement's does not, the check finds the same error from every state, and changes it by what
the judgements on the variables that it comes to do, in order (`describes_checkValue`). So the check with a
judgement that only keeps the names says everything about the others, and its equations are those of a
function without a state.
-/

namespace IsoLiteral

variable {σ : Type} {judge : String → TypeExpr → Option ValueError} {touch : σ → String → σ}

/-- A judgement that says the same from every state, and changes the state by the name of the variable. -/
def Judge.Touches (judge : String → TypeExpr → Option ValueError) (touch : σ → String → σ)
    (threaded : Judge σ) : Prop :=
  ∀ name expected s, (threaded name expected).run s = (judge name expected, touch s name)

theorem Judge.touches_recording :
    Judge.Touches judge (fun names name => names ++ [name]) (.recording judge) :=
  fun _ _ _ => rfl

namespace ValueCheck

variable {a b : ValueCheck} {first second : StateM σ (Option ValueError)}

/-- A check has this outcome from every state. -/
def Describes (r : ValueCheck) (touch : σ → String → σ) (check : StateM σ (Option ValueError)) : Prop :=
  ∀ s, check.run s = (r.error, r.visited.foldl touch s)

theorem describes_return (error : Option ValueError) : (⟨[], error⟩ : ValueCheck).Describes touch (return error) :=
  fun _ => rfl

/-- After an error nothing more is judged. -/
theorem Describes.andThen (ha : a.Describes touch first) (hb : b.Describes touch second) :
    (a.andThen b).Describes touch (orElseCheck first second) := by
  intro s
  rw [orElseCheck, StateT.run_bind, ha s, ValueCheck.andThen]
  cases failed : a.error with
  | some e =>
    rw [failed]
    rfl
  | none =>
    show second.run (a.visited.foldl touch s) = _
    rw [hb, List.foldl_append]

theorem foldl_record (names start : List String) :
    names.foldl (fun names name => names ++ [name]) start = start ++ names := by
  induction names generalizing start with
  | nil => rw [List.foldl_nil, List.append_nil]
  | cons name rest ih => rw [List.foldl_cons, ih, List.append_assoc, List.singleton_append]

/-- The outcome of a check is what a record of the names says. -/
theorem Describes.ofRecording {r : ValueCheck} {check : StateM (List String) (Option ValueError)}
    (h : r.Describes (fun names name => names ++ [name]) check) : .ofRecording check = r := by
  rw [ValueCheck.ofRecording, h, foldl_record]
  rfl

theorem ofRecording_return (error : Option ValueError) : .ofRecording (return error) = (⟨[], error⟩ : ValueCheck) :=
  (describes_return error).ofRecording

end ValueCheck

namespace SchemaGraph

variable (g : SchemaGraph) (judge)

mutual
/-- Some outcome describes the check of a value, whatever the state is. -/
theorem exists_describes_checkWith (expected : TypeExpr) (v : Value) :
    ∃ r : ValueCheck, ∀ {σ : Type} {touch : σ → String → σ} {threaded : Judge σ},
      threaded.Touches judge touch → r.Describes touch (g.checkWith threaded expected v) := by
  cases v with
  | «variable» name => exact ⟨⟨[name], judge name expected⟩, fun same s => same name expected s⟩
  | list items =>
    cases shape : expected.stripNonNull with
    | list item =>
      obtain ⟨r, described⟩ := exists_describes_checkItemsWith item items
      refine ⟨r, fun same => ?_⟩
      simpa only [checkWith, shape] using described same
    | named name =>
      refine ⟨⟨[], some (.notOfType (.named name) (.list items))⟩, fun same => ?_⟩
      simp only [checkWith, shape]
      exact ValueCheck.describes_return _
    | nonNull inner =>
      refine ⟨⟨[], some (.notOfType (.nonNull inner) (.list items))⟩, fun same => ?_⟩
      simp only [checkWith, shape]
      exact ValueCheck.describes_return _
  | object fields =>
    cases named : g.typeByName? expected.innerName with
    | none =>
      refine ⟨⟨[], none⟩, fun same => ?_⟩
      simp only [checkWith, named]
      exact ValueCheck.describes_return _
    | some id =>
      by_cases input : (g.type id).kind = .inputObject
      · obtain ⟨r, described⟩ := exists_describes_checkFieldsWith (g.type id) fields
        refine ⟨r.andThen ⟨[], (checkMissing (g.type id) fields).error⟩, fun same => ?_⟩
        simp only [checkWith, named, if_pos input]
        exact (described same).andThen (ValueCheck.describes_return _)
      · refine ⟨⟨[], if acceptsLeaf (g.type id) (.object fields) then none
          else some (.notOfType (.named expected.innerName) (.object fields))⟩, fun same => ?_⟩
        simp only [checkWith, named, if_neg input]
        split <;> exact ValueCheck.describes_return _
  | null => exact ⟨⟨[], _⟩, fun same => ValueCheck.describes_return _⟩
  | int i => exact ⟨⟨[], _⟩, fun same => ValueCheck.describes_return _⟩
  | float text => exact ⟨⟨[], _⟩, fun same => ValueCheck.describes_return _⟩
  | string s => exact ⟨⟨[], _⟩, fun same => ValueCheck.describes_return _⟩
  | boolean b => exact ⟨⟨[], _⟩, fun same => ValueCheck.describes_return _⟩
  | enum name => exact ⟨⟨[], _⟩, fun same => ValueCheck.describes_return _⟩
termination_by structural v
theorem exists_describes_checkItemsWith (expected : TypeExpr) (items : List Value) :
    ∃ r : ValueCheck, ∀ {σ : Type} {touch : σ → String → σ} {threaded : Judge σ},
      threaded.Touches judge touch → r.Describes touch (g.checkItemsWith threaded expected items) := by
  cases items with
  | nil => exact ⟨⟨[], _⟩, fun same => ValueCheck.describes_return _⟩
  | cons v rest =>
    obtain ⟨r, first⟩ := exists_describes_checkWith expected v
    obtain ⟨r', others⟩ := exists_describes_checkItemsWith expected rest
    exact ⟨r.andThen r', fun same => (first same).andThen (others same)⟩
termination_by structural items
theorem exists_describes_checkFieldsWith (t : TypeDefinition) (fields : List (String × Value)) :
    ∃ r : ValueCheck, ∀ {σ : Type} {touch : σ → String → σ} {threaded : Judge σ},
      threaded.Touches judge touch → r.Describes touch (g.checkFieldsWith threaded t fields) := by
  match fields with
  | [] => exact ⟨⟨[], _⟩, fun same => ValueCheck.describes_return _⟩
  | (key, v) :: rest =>
    cases known : t.inputFields.find? (·.name = key) with
    | none =>
      refine ⟨⟨[], some (.mismatch ("`" ++ t.name ++ "` has no field `" ++ key ++ "`"))⟩, fun same => ?_⟩
      simp only [checkFieldsWith, known]
      exact ValueCheck.describes_return _
    | some f =>
      obtain ⟨r, first⟩ := exists_describes_checkWith f.type v
      obtain ⟨r', others⟩ := exists_describes_checkFieldsWith t rest
      refine ⟨r.andThen r', fun same => ?_⟩
      simp only [checkFieldsWith, known]
      exact (first same).andThen (others same)
termination_by structural fields
end

variable {g judge} {threaded : Judge σ}

/-- The check of a value finds the same error from every state, and changes the state by the variables that it
comes to. -/
theorem describes_checkValue (same : threaded.Touches judge touch) (expected : TypeExpr) (v : Value) :
    (g.checkValue judge expected v).Describes touch (g.checkWith threaded expected v) := by
  obtain ⟨r, described⟩ := g.exists_describes_checkWith judge expected v
  rw [checkValue, (described Judge.touches_recording).ofRecording]
  exact described same

theorem describes_checkItems (same : threaded.Touches judge touch) (expected : TypeExpr) (items : List Value) :
    (g.checkItems judge expected items).Describes touch (g.checkItemsWith threaded expected items) := by
  obtain ⟨r, described⟩ := g.exists_describes_checkItemsWith judge expected items
  rw [checkItems, (described Judge.touches_recording).ofRecording]
  exact described same

theorem describes_checkFields (same : threaded.Touches judge touch) (t : TypeDefinition)
    (fields : List (String × Value)) :
    (g.checkFields judge t fields).Describes touch (g.checkFieldsWith threaded t fields) := by
  obtain ⟨r, described⟩ := g.exists_describes_checkFieldsWith judge t fields
  rw [checkFields, (described Judge.touches_recording).ofRecording]
  exact described same

/-! ## Equations -/

section Equations

variable {expected : TypeExpr}

@[simp]
theorem checkValue_variable (name : String) :
    g.checkValue judge expected (.variable name) = ⟨[name], judge name expected⟩ := rfl

@[simp]
theorem checkValue_null :
    g.checkValue judge expected .null =
      if expected.isNonNull then .reject (.notOfType expected .null) else .accept := by
  rw [checkValue, checkWith, ValueCheck.ofRecording_return]
  split <;> rfl

theorem checkValue_list (items : List Value) :
    g.checkValue judge expected (.list items) =
      match expected.stripNonNull with
      | .list item => g.checkItems judge item items
      | t => .reject (.notOfType t (.list items)) := by
  rw [checkValue, checkWith]
  cases expected.stripNonNull <;> rfl

theorem checkValue_object (fields : List (String × Value)) :
    g.checkValue judge expected (.object fields) =
      match g.typeByName? expected.innerName with
      | none => .accept
      | some id =>
        if (g.type id).kind = .inputObject then
          (g.checkFields judge (g.type id) fields).andThen (checkMissing (g.type id) fields)
        else if acceptsLeaf (g.type id) (.object fields) then .accept
        else .reject (.notOfType (.named expected.innerName) (.object fields)) := by
  rw [checkValue, checkWith]
  cases g.typeByName? expected.innerName with
  | none => rfl
  | some id =>
    by_cases input : (g.type id).kind = .inputObject
    · have missing : (⟨[], (checkMissing (g.type id) fields).error⟩ : ValueCheck) =
          checkMissing (g.type id) fields := by
        rw [checkMissing]
        split <;> rfl
      simp only [if_pos input]
      rw [((describes_checkFields Judge.touches_recording _ _).andThen
        (ValueCheck.describes_return _)).ofRecording, missing]
    · simp only [if_neg input]
      split <;> rfl

theorem ofRecording_checkLeaf (v : Value) :
    ValueCheck.ofRecording (return (g.checkLeaf expected v).error) = g.checkLeaf expected v := by
  rw [ValueCheck.ofRecording_return, checkLeaf]
  split
  · rfl
  · split <;> rfl

@[simp]
theorem checkValue_int (i : Int) : g.checkValue judge expected (.int i) = g.checkLeaf expected (.int i) :=
  ofRecording_checkLeaf _

@[simp]
theorem checkValue_float (text : String) :
    g.checkValue judge expected (.float text) = g.checkLeaf expected (.float text) :=
  ofRecording_checkLeaf _

@[simp]
theorem checkValue_string (s : String) :
    g.checkValue judge expected (.string s) = g.checkLeaf expected (.string s) :=
  ofRecording_checkLeaf _

@[simp]
theorem checkValue_boolean (b : Bool) :
    g.checkValue judge expected (.boolean b) = g.checkLeaf expected (.boolean b) :=
  ofRecording_checkLeaf _

@[simp]
theorem checkValue_enum (name : String) :
    g.checkValue judge expected (.enum name) = g.checkLeaf expected (.enum name) :=
  ofRecording_checkLeaf _

@[simp]
theorem checkItems_nil : g.checkItems judge expected [] = .accept := rfl

theorem checkItems_cons (v : Value) (rest : List Value) :
    g.checkItems judge expected (v :: rest) =
      (g.checkValue judge expected v).andThen (g.checkItems judge expected rest) := by
  rw [checkItems, checkItemsWith]
  exact ((describes_checkValue Judge.touches_recording _ _).andThen
    (describes_checkItems Judge.touches_recording _ _)).ofRecording

@[simp]
theorem checkFields_nil (t : TypeDefinition) : g.checkFields judge t [] = .accept := rfl

theorem checkFields_cons (t : TypeDefinition) (key : String) (v : Value) (rest : List (String × Value)) :
    g.checkFields judge t ((key, v) :: rest) =
      match t.inputFields.find? (·.name = key) with
      | none => .reject (.mismatch ("`" ++ t.name ++ "` has no field `" ++ key ++ "`"))
      | some f => (g.checkValue judge f.type v).andThen (g.checkFields judge t rest) := by
  rw [checkFields, checkFieldsWith]
  cases t.inputFields.find? (·.name = key) with
  | none => rfl
  | some f =>
    exact ((describes_checkValue Judge.touches_recording _ _).andThen
      (describes_checkFields Judge.touches_recording _ _)).ofRecording

end Equations

end SchemaGraph

end IsoLiteral
