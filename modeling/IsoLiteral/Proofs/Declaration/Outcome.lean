import IsoLiteral.Proofs.Declaration.Clean
import IsoLiteral.Proofs.Syntax.Acceptance
import IsoLiteral.Proofs.Syntax.Budget

/-!
# What becomes of a literal

Everything that is reported while a literal is parsed is an error about that literal, and a literal that
declares nothing has such an error: what the grammar found missing was reported there, so that the
construct around it may be dropped without a word. Limits do not matter here, because a run that exceeds
none is a run without limits. Nor does the index of the literal matter for what it declares.
-/

namespace IsoLiteral

open IsoLiteral.Parser IsoLiteral.Lowering

variable {text : String} {source : Nat} {limits : ParseLimits} {result : Option Declaration × Diagnostics}

/-- All that is reported about a literal are errors about it. -/
theorem errors_of_parseDeclaration (run : parseDeclaration text source limits = .ok result) :
    ∀ d ∈ result.2, d.isError = true ∧ d.isIn source = true := by
  obtain ⟨-, lowered⟩ := parseDeclaration_eq_ok.1 run
  obtain ⟨more, reported, errors⟩ := reports_declarationIn source
    (.node .root (finalState text source limits).built) (finalState text source limits).diagnostics
  rw [lowered] at reported
  rw [reported]
  exact List.forall_mem_append.2 ⟨errors_finalState text source limits, errors⟩

/-- A literal that keeps its limits is parsed as without them. -/
theorem parseDeclaration_unlimited (run : parseDeclaration text source limits = .ok result) :
    parseDeclaration text source .unlimited = .ok result := by
  obtain ⟨within, lowered⟩ := parseDeclaration_eq_ok.1 run
  rw [parseDeclaration_eq_ok, finalState_unlimited within, State.unlimited_exceeded, State.unlimited_built,
    State.unlimited_diagnostics]
  exact ⟨within, lowered⟩

/-- What is parsed without a report is read by the grammar. -/
theorem exists_readText (run : parseDeclaration text source limits = .ok result) (quiet : result.2 = []) :
    (finalState text source .unlimited).diagnostics = [] ∧ ∃ w, readText text = some ((), w) := by
  obtain ⟨-, lowered⟩ := parseDeclaration_eq_ok.1 (parseDeclaration_unlimited run)
  have silent : (finalState text source .unlimited).diagnostics = [] :=
    not_not.1 fun dirty =>
      (reports_declarationIn source _).keeps _ dirty ((congrArg Prod.snd lowered).trans quiet)
  refine ⟨silent, ?_⟩
  cases reads : readText text with
  | none => exact absurd silent (diagnostics_finalState reads source)
  | some next =>
    obtain ⟨⟨⟩, w⟩ := next
    exact ⟨w, rfl⟩

/-- What is parsed without a report is a well-formed declaration by the rules of the grammar. -/
theorem exists_declaration (run : parseDeclaration text source limits = .ok result) (quiet : result.2 = []) :
    ∃ expected, Rule.declaration ((lex text).filter (!·.isTrivia)) expected [] ∧ expected.WellFormed ∧
      result.1.map Declaration.bare = some expected := by
  obtain ⟨silent, w, reads⟩ := exists_readText run quiet
  obtain ⟨-, lowered⟩ := parseDeclaration_eq_ok.1 (parseDeclaration_unlimited run)
  rw [silent] at lowered
  obtain ⟨-, seen⟩ := clean_finalState reads source
  obtain ⟨expected, tree, applies, grown, built⟩ := sound_literal (length_solid_lt (lex text)) reads
  have yields := yields_declarationIn source (seen.trans grown) built
  -- the tree is that of a declaration, which is returned or found fault with
  have wellFormed : expected.WellFormed :=
    not_not.1 fun ill => yields.reports ill ((congrArg Prod.snd lowered).trans quiet)
  obtain ⟨_, returned, same⟩ := yields.returns wellFormed
  cases returned.symm.trans lowered
  exact ⟨expected, applies, wellFormed, same⟩

/-- A literal that declares nothing has something reported about it. -/
theorem reports_of_parseDeclaration_none (run : parseDeclaration text source limits = .ok result)
    (nothing : result.1 = none) : result.2 ≠ [] := by
  intro quiet
  obtain ⟨expected, -, -, same⟩ := exists_declaration run quiet
  rw [nothing] at same
  cases same

/-- A literal is kept without errors exactly if nothing is reported about it. -/
theorem hasErrors_of_parseDeclaration (run : parseDeclaration text source limits = .ok result) :
    result.2.hasErrors = false ↔ result.2 = [] := by
  constructor
  · intro clean
    refine List.eq_nil_iff_forall_not_mem.2 fun d member => ?_
    have error := (errors_of_parseDeclaration run d member).1
    exact absurd (List.any_eq_true.2 ⟨d, member, error⟩) (by simpa [Diagnostics.hasErrors] using clean)
  · intro none
    rw [none]
    rfl

/-! ## At another index -/

namespace Tree

mutual
theorem nesting_solid (tree : Tree) : tree.solid.nesting = tree.nesting := by
  cases tree with
  | token t => rw [solid]
  | node kind children =>
    rw [solid, nesting, nesting, nestingAfterName_solidOf children, nestingOf_solidOf children]
termination_by structural tree
/-- Trivia do not nest. -/
theorem nestingOf_solidOf (trees : List Tree) : nestingOf (solidOf trees) = nestingOf trees := by
  cases trees with
  | nil => rw [solidOf]
  | cons tree rest =>
    have here := nesting_solid tree
    have later := nestingOf_solidOf rest
    rw [solidOf, nestingOf_cons]
    split
    · rename_i trivia
      cases tree with
      | token t => rw [later, nesting_token, Nat.zero_max]
      | node kind children => cases trivia
    · rw [nestingOf_cons, here, later]
termination_by structural trees
theorem nestingAfterName_solidOf (trees : List Tree) :
    nestingAfterName (solidOf trees) = nestingAfterName trees := by
  cases trees with
  | nil => rw [solidOf]
  | cons tree rest =>
    have later := nestingAfterName_solidOf rest
    have others := nestingOf_solidOf rest
    rw [solidOf]
    cases tree with
    | token t =>
      rw [nestingAfterName]
      split
      · exact later
      · rw [solid, nestingAfterName, later]
    | node kind children =>
      rw [if_neg (by simp [isTrivia]), solid, nestingAfterName, nestingAfterName, others]
termination_by structural trees
end

end Tree

/-- **A literal says the same wherever it stands** among others: under the same limits it is parsed without a
report at every index or at none, and the declarations differ in places only. -/
theorem parseDeclaration_elsewhere {d : Declaration} (run : parseDeclaration text source limits = .ok (some d, []))
    (other : Nat) : ∃ d', parseDeclaration text other limits = .ok (some d', []) ∧ d'.bare = d.bare := by
  obtain ⟨-, w, reads⟩ := exists_readText run rfl
  obtain ⟨expected, applies, wellFormed, same⟩ := exists_declaration run rfl
  obtain rfl : d.bare = expected := Option.some.inj same
  have nesting (source : Nat) : (unlimitedTree text source).nesting = Tree.nestingOf w.built := by
    rw [nesting_unlimitedTree, ← Tree.nestingOf_solidOf, (clean_finalState reads source).2]
  have within := (parseDeclaration_eq_ok.1 run).1
  have tokens := allowsTokens_of_within within
  have depth := allowsNesting_of_within within
  rw [nesting] at depth
  have free : parseTree text other limits = parseTree text other .unlimited := by
    rcases parseTree_cases text other limits with ⟨free, -⟩ | ⟨-, short⟩ | ⟨-, deeper⟩
    · exact free
    · exact absurd tokens short
    · rw [nesting] at deeper
      exact absurd depth deeper
  have unlimited : parseDeclaration text other limits = parseDeclaration text other .unlimited := by
    rw [parseDeclaration, free, parseDeclaration]
  rw [unlimited]
  exact parseDeclaration_of_declaration applies wellFormed other

end IsoLiteral
