import IsoLiteral.Proofs.Resolution.Faithful
import IsoLiteral.Proofs.Resolution.Substitution

/-!
# What it means that one type satisfies another

Satisfying is a partial order on type annotations, and one that the check of values agrees with: a constant
that is accepted for a type is accepted for every type it satisfies. A variable may thus be declared with any
type that satisfies the one expected, since whatever it comes to stand for is accepted in its place.
-/

namespace IsoLiteral

theorem TypeExpr.satisfies_antisymm {a b : TypeExpr} (first : a.satisfies b = true)
    (second : b.satisfies a = true) : a = b := by
  induction a generalizing b with
  | named name =>
    cases b with
    | named other => exact congrArg TypeExpr.named (of_decide_eq_true first)
    | list _ => cases first
    | nonNull _ => cases first
  | list item ih =>
    cases b with
    | list other => exact congrArg TypeExpr.list (ih first second)
    | named _ => cases first
    | nonNull _ => cases first
  | nonNull inner ih =>
    cases b with
    | nonNull other => exact congrArg TypeExpr.nonNull (ih first second)
    | named _ => cases second
    | list _ => cases second

namespace SchemaGraph

variable {g : SchemaGraph} {judge judge' : String → TypeExpr → Option ValueError} {t u expected : TypeExpr}
  {v : Value}

/-- How variables are judged does not matter where there are none. -/
theorem Accepts.of_constant (constant : v.isConstant = true) (accepts : Accepts g (judged judge) t v) :
    Accepts g (judged judge') t v := by
  refine accepts.mono fun type w there isHole own => ?_
  rcases isHole.cases with rfl | ⟨x, rfl⟩
  · exact own
  · exact absurd there.mem_variableNames ((Value.isConstant_iff v).1 constant x)

/-- A constant that is accepted for a type is accepted for every type that it satisfies. -/
theorem constant_accepted_of_satisfies (satisfies : t.satisfies u = true) (constant : v.isConstant = true)
    (accepted : (g.checkValue judge t v).error = none) : (g.checkValue judge' u v).error = none := by
  -- for a judge that takes every variable, what is known of variables and nulls carries over
  have mono (t e : TypeExpr) (w : Value) (satisfies : t.satisfies e = true)
      (own : judged (fun _ _ => none) t w) : judged (fun _ _ => none) e w := by
    match w with
    | .variable _ => rfl
    | .int _ | .float _ | .string _ | .boolean _ | .null | .enum _ | .list _ | .object _ =>
      exact TypeExpr.nullable_of_satisfies satisfies own
  have lenient : Accepts g (judged fun _ _ => none) t v :=
    (checkValue_eq_none_iff.1 accepted).of_constant constant
  exact checkValue_eq_none_iff.2 ((lenient.of_satisfies mono satisfies).of_constant constant)

/-- Constants that are accepted for the types of their variables may stand for these variables wherever the
types satisfy what is expected. -/
theorem substitute_accepted {types : String → TypeExpr} {lookup : String → Option Value}
    (accepted : (g.checkValue judge expected v).error = none)
    (supplied : ∀ x c, lookup x = some c → c.isConstant = true ∧ (g.checkValue judge' (types x) c).error = none ∧
      ∀ type, CheckedAt g expected v type (.variable x) → (types x).satisfies type = true) :
    (g.checkValue judge expected (v.substitute lookup)).error = none := by
  have accepts := checkValue_eq_none_iff.1 accepted
  refine checkValue_eq_none_iff.2 (accepts.substitute v (fun _ nullable => nullable) fun type x there => ?_)
  cases known : lookup x with
  | none =>
    rw [Option.getD_none]
    exact checkValue_eq_none_iff.1 (there.accepted accepted)
  | some c =>
    obtain ⟨constant, own, allowed⟩ := supplied x c known
    rw [Option.getD_some]
    exact checkValue_eq_none_iff.1 (constant_accepted_of_satisfies (allowed type there) constant own)

end SchemaGraph

/-- **Type satisfaction.** Satisfying is reflexive, transitive and antisymmetric. A constant that is accepted
for a type is accepted for every type that it satisfies. And an accepted value stays accepted when constants
that are accepted for the types of variables are put in the place of these variables, if each type satisfies
what is expected wherever its variable stands. -/
theorem satisfies_sound (g : SchemaGraph) (judge judge' : String → TypeExpr → Option ValueError) :
    ((∀ t : TypeExpr, t.satisfies t = true) ∧
      (∀ t u w : TypeExpr, t.satisfies u = true → u.satisfies w = true → t.satisfies w = true) ∧
      ∀ t u : TypeExpr, t.satisfies u = true → u.satisfies t = true → t = u) ∧
    (∀ (t u : TypeExpr) (v : Value), t.satisfies u = true → v.isConstant = true →
      (g.checkValue judge t v).error = none → (g.checkValue judge' u v).error = none) ∧
    ∀ (types : String → TypeExpr) (lookup : String → Option Value) (expected : TypeExpr) (v : Value),
      (g.checkValue judge expected v).error = none →
      (∀ x c, lookup x = some c →
        c.isConstant = true ∧ (g.checkValue judge' (types x) c).error = none ∧
          ∀ type, g.CheckedAt expected v type (.variable x) → (types x).satisfies type = true) →
      (g.checkValue judge expected (v.substitute lookup)).error = none :=
  ⟨⟨TypeExpr.satisfies_refl, fun _ _ _ => TypeExpr.satisfies_trans, fun _ _ => TypeExpr.satisfies_antisymm⟩,
    fun _ _ _ => SchemaGraph.constant_accepted_of_satisfies,
    fun _ _ _ _ => SchemaGraph.substitute_accepted⟩

/-- A list of sizes that all have to be given is taken where sizes may be missing, and a size for a variable in
such a list. -/
theorem satisfies_sound_sizes :
    ((userGraph [] [] []).checkValue (fun _ _ => none) (.list (.named "Int")) (.list [.int 3])).error = none ∧
    ((userGraph [] [] []).checkValue (fun _ _ => none) (.list (.named "Int"))
      ((Value.list [.null, .variable "n"]).substitute fun _ => some (.int 3))).error = none := by
  obtain ⟨-, constants, substituted⟩ := satisfies_sound (userGraph [] [] []) (fun _ _ => none) fun _ _ => none
  constructor
  · exact constants (.nonNull (.list (.nonNull (.named "Int")))) _ _ (by decide +kernel) (by decide +kernel)
      (by decide +kernel)
  · refine substituted (fun _ => .nonNull (.named "Int")) _ _ _ (by decide +kernel) ?_
    rintro x c same
    obtain rfl := Option.some.inj same
    refine ⟨by decide +kernel, by decide +kernel, fun type there => ?_⟩
    cases there with
    | item list member inside =>
      cases list
      rcases List.mem_pair.1 member with rfl | rfl
      · cases inside
      · cases inside
        rfl

end IsoLiteral
