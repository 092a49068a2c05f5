import IsoLiteral.Proofs.Resolution.Coercion

/-!
# Accepted values under substitution

A value that is accepted for a type is accepted for every type that the first one satisfies, and putting
accepted values in the place of variables keeps a value accepted. What is known of variables and nulls is a
parameter in both, so that acceptance may be relaxed there and nowhere else.
-/

namespace IsoLiteral

/-! ## Types that satisfy others -/

namespace TypeExpr

variable {t e : TypeExpr}

theorem satisfies_refl (t : TypeExpr) : t.satisfies t = true := by
  induction t with
  | named name => simp [satisfies]
  | list item ih => simpa [satisfies] using ih
  | nonNull inner ih => simpa [satisfies] using ih

theorem satisfies_trans {a b c : TypeExpr} (first : a.satisfies b = true) (second : b.satisfies c = true) :
    a.satisfies c = true := by
  induction a generalizing b c with
  | named name =>
    cases b with
    | named other =>
      obtain rfl : name = other := by simpa [satisfies] using first
      exact second
    | list _ => cases first
    | nonNull _ => cases first
  | list item ih =>
    cases b with
    | list other =>
      cases c with
      | list third => exact ih (b := other) first second
      | named _ => cases second
      | nonNull _ => cases second
    | named _ => cases first
    | nonNull _ => cases first
  | nonNull inner ih =>
    cases b with
    | nonNull other =>
      cases c with
      | nonNull third => exact ih (b := other) first second
      | named name => exact ih (b := other) first second
      | list item => exact ih (b := other) first second
    | named name =>
      cases c with
      | named other => exact ih (b := .named name) first second
      | list _ => cases second
      | nonNull _ => cases second
    | list item =>
      cases c with
      | list other => exact ih (b := .list item) first second
      | named _ => cases second
      | nonNull _ => cases second

theorem innerName_of_satisfies (satisfies : t.satisfies e = true) : t.innerName = e.innerName := by
  fun_induction t.satisfies e with
  | case1 a b ih => exact ih satisfies
  | case2 a b _ ih => exact ih satisfies
  | case5 a b ih => exact ih satisfies
  | case6 a b => exact of_decide_eq_true satisfies
  | _ => cases satisfies

theorem isNonNull_of_satisfies (satisfies : t.satisfies e = true) (nonNull : e.isNonNull = true) :
    t.isNonNull = true := by
  cases e with
  | nonNull inner =>
    cases t with
    | nonNull _ => rfl
    | named _ => cases satisfies
    | list _ => cases satisfies
  | named _ => cases nonNull
  | list _ => cases nonNull

/-- What satisfies a type may be null only where that type may. -/
theorem nullable_of_satisfies (satisfies : t.satisfies e = true) (nullable : t.isNonNull = false) :
    e.isNonNull = false := by
  by_contra nonNull
  rw [isNonNull_of_satisfies satisfies (by simpa using nonNull)] at nullable
  cases nullable

theorem stripNonNull_of_nullable (nullable : t.isNonNull = false) : t.stripNonNull = t := by
  cases t with
  | nonNull _ => cases nullable
  | named _ => rfl
  | list _ => rfl

theorem isNonNull_stripNonNull (t : TypeExpr) : t.stripNonNull.isNonNull = false := by
  induction t with
  | nonNull inner ih => exact ih
  | named _ => rfl
  | list _ => rfl

theorem innerName_stripNonNull (t : TypeExpr) : t.stripNonNull.innerName = t.innerName := by
  induction t with
  | nonNull inner ih => exact ih
  | named _ => rfl
  | list _ => rfl

/-- Where null is allowed, it does not matter whether the given type allows it. -/
theorem satisfies_iff_of_nullable (nullable : e.isNonNull = false) :
    t.satisfies e = true ↔ t.stripNonNull.satisfies e = true := by
  induction t with
  | nonNull inner ih =>
    rw [stripNonNull, ← ih]
    cases e with
    | nonNull _ => cases nullable
    | named _ => rfl
    | list _ => rfl
  | named _ => rfl
  | list _ => rfl

/-- A type satisfies another also without asking for non-null. -/
theorem satisfies_stripNonNull (satisfies : t.satisfies e = true) :
    t.satisfies e.stripNonNull = true := by
  have self : e.satisfies e.stripNonNull = true := by
    rw [satisfies_iff_of_nullable e.isNonNull_stripNonNull]
    exact satisfies_refl _
  exact satisfies_trans satisfies self

/-- A type satisfies another apart from null if both are lists whose items do, or have the same name. -/
theorem cases_of_satisfies (satisfies : t.satisfies e.stripNonNull = true) :
    (∃ i j, t.stripNonNull = .list i ∧ e.stripNonNull = .list j ∧ i.satisfies j = true) ∨
      ∃ name, t.stripNonNull = .named name ∧ e.stripNonNull = .named name := by
  rw [satisfies_iff_of_nullable e.isNonNull_stripNonNull] at satisfies
  have given := t.isNonNull_stripNonNull
  have wanted := e.isNonNull_stripNonNull
  generalize t.stripNonNull = s at satisfies given
  generalize e.stripNonNull = f at satisfies wanted
  match s, f with
  | .list i, .list j => exact .inl ⟨i, j, rfl, rfl, satisfies⟩
  | .named a, .named b =>
    obtain rfl : a = b := by simpa [TypeExpr.satisfies] using satisfies
    exact .inr ⟨a, rfl, rfl⟩
  | .list _, .named _ => cases satisfies
  | .named _, .list _ => cases satisfies
  | .nonNull _, _ => cases given
  | _, .nonNull _ => cases wanted

end TypeExpr

/-! ## Values -/

namespace Value

/-- The values of which it is a parameter whether they are accepted. -/
def IsHole : Value → Prop
  | .variable _ | .null => True
  | _ => False

theorem IsHole.cases {v : Value} (h : v.IsHole) : v = .null ∨ ∃ x, v = .variable x := by
  match v with
  | .variable x => exact .inr ⟨x, rfl⟩
  | .null => exact .inl rfl

theorem substituteAll_eq_map (lookup : String → Option Value) (items : List Value) :
    substituteAll lookup items = items.map (substitute lookup) := by
  induction items with
  | nil => rfl
  | cons v rest ih => rw [substituteAll, ih, List.map_cons]

theorem substituteFields_eq_map (lookup : String → Option Value) (fields : List (String × Value)) :
    substituteFields lookup fields = fields.map fun f => (f.1, f.2.substitute lookup) := by
  induction fields with
  | nil => rfl
  | cons f rest ih => rw [substituteFields, ih, List.map_cons]

end Value

/-! ## Accepted values -/

namespace SchemaGraph

variable {g : SchemaGraph} {hole hole' : TypeExpr → Value → Prop} {expected : TypeExpr} {v : Value}

/-- Only what is known of variables and nulls depends on the parameter. -/
theorem Suits.mono (suits : Suits g hole expected v)
    (implies : v.IsHole → hole expected v → hole' expected v) : Suits g hole' expected v := by
  match v with
  | .variable x => exact implies trivial suits
  | .null => exact implies trivial suits
  | .list _ | .object _ => exact suits
  | .int _ | .float _ | .string _ | .boolean _ | .enum _ => exact suits

theorem Accepts.mono (accepts : Accepts g hole expected v)
    (implies : ∀ type w, CheckedAt g expected v type w → w.IsHole → hole type w → hole' type w) :
    Accepts g hole' expected v :=
  fun type w inside => (accepts type w inside).mono (implies type w inside)

/-- **Subsumption.** What is accepted for a type is accepted for every type that it satisfies, null at the
outermost level apart. -/
theorem Accepts.cast (mono : ∀ t e w, t.satisfies e = true → hole t w → hole e w) :
    ∀ {t e : TypeExpr}, Accepts g hole t v → t.satisfies e.stripNonNull = true →
      (v.IsHole → hole t v → hole e v) → Accepts g hole e v := by
  induction v using Value.memberInduction with
  | list items ih =>
    intro t e accepts satisfies _
    rcases TypeExpr.cases_of_satisfies satisfies with ⟨i, j, list, list', inner⟩ | ⟨name, leaf, -⟩
    · intro type w inside
      cases inside with
      | here => exact ⟨j, list'⟩
      | item same member deeper =>
        rw [list'] at same
        cases same
        refine ih _ member (t := i) ?_ (TypeExpr.satisfies_stripNonNull inner) (fun _ => mono i j _ inner)
          type w deeper
        exact fun type w deeper => accepts type w (.item list member deeper)
    · obtain ⟨item, list⟩ := accepts _ _ .here
      rw [leaf] at list
      cases list
  | object fields _ =>
    intro t e accepts satisfies _
    have name : t.innerName = e.innerName :=
      (TypeExpr.innerName_of_satisfies satisfies).trans e.innerName_stripNonNull
    intro type w inside
    cases inside with
    | here =>
      have own := accepts _ _ .here
      unfold Suits at own ⊢
      rwa [name] at own
    | field named input member known deeper =>
      exact accepts type w (.field (by rwa [name]) input member known deeper)
  | var x =>
    intro t e accepts _ top type w inside
    cases inside
    exact top trivial (accepts _ _ .here)
  | null =>
    intro t e accepts _ top type w inside
    cases inside
    exact top trivial (accepts _ _ .here)
  | _ =>
    intro t e accepts satisfies _ type w inside
    have name : t.innerName = e.innerName :=
      (TypeExpr.innerName_of_satisfies satisfies).trans e.innerName_stripNonNull
    cases inside
    simpa only [Suits, checkLeaf, name] using accepts _ _ .here

theorem Accepts.of_satisfies (mono : ∀ t e w, t.satisfies e = true → hole t w → hole e w)
    {t : TypeExpr} (accepts : Accepts g hole t v) (satisfies : t.satisfies expected = true) :
    Accepts g hole expected v :=
  accepts.cast mono (TypeExpr.satisfies_stripNonNull satisfies) fun _ => mono t expected v satisfies

/-! ## Substitution -/

/-- Whether an object suits by itself depends on its keys only. -/
theorem suits_object_of_keys {expected : TypeExpr} {fields fields' : List (String × Value)}
    (keys : fields'.map Prod.fst = fields.map Prod.fst) (suits : Suits g hole expected (.object fields)) :
    Suits g hole' expected (.object fields') := by
  intro id named
  have own := suits id named
  have any (name : String) : fields'.any (·.1 = name) = fields.any (·.1 = name) := by
    have mapped := congrArg (List.any · (· = name)) keys
    simpa [List.any_map, Function.comp_def] using mapped
  split at own
  · rename_i input
    rw [if_pos input]
    refine ⟨fun f member => ?_, ?_⟩
    · have key : f.1 ∈ fields.map Prod.fst := keys ▸ List.mem_map_of_mem member
      obtain ⟨f', listed, same⟩ := List.mem_map.1 key
      rw [← same]
      exact own.1 f' listed
    · have missing := own.2
      simp only [missingField?, any] at missing ⊢
      exact missing
  · rename_i other
    rw [if_neg other]
    unfold acceptsLeaf at own ⊢
    cases kind : (g.type id).kind with
    | scalar =>
      rw [kind] at own
      exact acceptsLiteral_object.2 (acceptsLiteral_object.1 own)
    | enum => rw [kind] at own; cases own
    | _ => rw [kind] at own; cases own

/-- **Substitution.** If whatever is put in the place of a variable is accepted there, a value stays
accepted. -/
theorem Accepts.substitute {lookup : String → Option Value} (v : Value)
    (nulls : ∀ type, hole type .null → hole' type .null) :
    ∀ {expected : TypeExpr}, Accepts g hole expected v →
      (∀ type x, CheckedAt g expected v type (.variable x) →
        Accepts g hole' type ((lookup x).getD (.variable x))) →
      Accepts g hole' expected (v.substitute lookup) := by
  induction v using Value.memberInduction with
  | var x =>
    intro expected _ replaced
    rw [Value.substitute]
    exact replaced expected x .here
  | null =>
    intro expected accepts _ type w inside
    rw [Value.substitute] at inside
    cases inside
    exact nulls expected (accepts _ _ .here)
  | list items ih =>
    intro expected accepts replaced type w inside
    rw [Value.substitute, Value.substituteAll_eq_map] at inside
    cases inside with
    | here => exact accepts _ _ .here
    | item list member deeper =>
      obtain ⟨v, listed, rfl⟩ := List.mem_map.1 member
      exact ih v listed (fun type w inner => accepts type w (.item list listed inner))
        (fun type x inner => replaced type x (.item list listed inner)) type w deeper
  | object fields ih =>
    intro expected accepts replaced type w inside
    rw [Value.substitute, Value.substituteFields_eq_map] at inside
    cases inside with
    | here => exact suits_object_of_keys (by simp [Function.comp_def]) (accepts _ _ .here)
    | field named input member known deeper =>
      obtain ⟨⟨key, v⟩, listed, same⟩ := List.mem_map.1 member
      cases same
      exact ih (key, v) listed (fun type w inner => accepts type w (.field named input listed known inner))
        (fun type x inner => replaced type x (.field named input listed known inner)) type w deeper
  | _ =>
    intro expected accepts _ type w inside
    rw [Value.substitute] at inside
    cases inside
    exact accepts _ _ .here

end SchemaGraph

end IsoLiteral
