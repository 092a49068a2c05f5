import IsoLiteral.Proofs.Declaration.Lowering
import IsoLiteral.Run.Analysis

/-!
# Declarations without errors

A declaration that is built without an error is well-formed, whatever its tree looks like: a name that
comes again in one list and an integer that does not fit are reported as errors, and no report is taken
back. What a part ensures is therefore said of its runs that end without errors, and such runs have no
errors at any point.
-/

namespace IsoLiteral.Lowering

/-- Where a computation ends without errors, there were none before, and the result is as it should be. -/
def Ensures {α : Type} (p : Lower α) (post : α → Prop) : Prop :=
  ∀ ds : Diagnostics, (p ds).2.hasErrors = false → ds.hasErrors = false ∧ post (p ds).1

section Combinators

variable {α β : Type} {p : Lower α} {post mid : α → Prop} {result : β → Prop}

theorem ensures_pure {a : α} (holds : post a) : Ensures (pure a) post := fun _ clean => ⟨clean, holds⟩

theorem Ensures.imp (h : Ensures p mid) (implies : ∀ a, mid a → post a) : Ensures p post :=
  fun ds clean => ⟨(h ds clean).1, implies _ (h ds clean).2⟩

/-- The second part may rely on what the first one ensures, but has to keep errors in any case. -/
theorem Ensures.bind (first : Ensures p mid) {q : α → Lower β}
    (rest : ∀ a, Ensures (q a) fun b => mid a → result b) : Ensures (p >>= q) result := by
  intro ds clean
  obtain ⟨between, implies⟩ := rest (p ds).1 (p ds).2 clean
  obtain ⟨before, holds⟩ := first ds between
  exact ⟨before, implies holds⟩

theorem Ensures.map (h : Ensures p mid) {f : α → β} (implies : ∀ a, mid a → result (f a)) :
    Ensures (do return f (← p)) result :=
  h.bind fun a => ensures_pure (implies a)

/-- Nothing ends without errors after an error. -/
theorem ensures_report {d : Diagnostic} (error : d.isError = true) {q : Lower α} (keeps : Ensures q mid) :
    Ensures (do report d; q) post := by
  have never : Ensures (report d) fun _ => False := by
    intro ds clean
    have reported : (ds ++ [d]).any Diagnostic.isError = false := clean
    simp [error] at reported
  exact never.bind fun _ => keeps.imp fun _ _ => nofun

end Combinators

/-! ## Values -/

theorem ensures_literalOf (source : Nat) (t : Token) :
    Ensures (literalOf source t) fun r => ∀ v ∈ r, v.Fits := by
  unfold literalOf
  split
  · split
    · rename_i fits
      refine ensures_pure fun v same => ?_
      obtain rfl := Option.some.inj same
      rw [Value.Fits]
      exact (fitsInt64_iff _).1 fits
    · have keeps : Ensures (pure none : Lower (Option Value)) fun _ => True := ensures_pure trivial
      exact ensures_report rfl keeps
  all_goals
    refine ensures_pure fun v same => ?_
    cases same <;> trivial

mutual
theorem ensures_valueOf (source : Nat) :
    ∀ tree, Ensures (valueOf source tree) fun r => ∀ v ∈ r, v.Fits
  | .token t => by
    rw [valueOf]
    exacts [ensures_pure nofun, nofun, nofun, nofun, nofun]
  | .node kind children => by
    rw [valueOf_node]
    split
    · refine ensures_pure fun v found => ?_
      obtain ⟨t, -, rfl⟩ := Option.map_eq_some_iff.1 found
      trivial
    · split
      · rw [literalIn]
        split
        · exact ensures_literalOf source _
        · exact ensures_pure nofun
      · split
        · refine (ensures_itemsOf source children).map fun r fit v found => ?_
          obtain ⟨items, here, rfl⟩ := Option.map_eq_some_iff.1 found
          rw [Value.Fits]
          exact fit items here
        · split
          · refine (ensures_fieldsOf source children).map fun r fit v found => ?_
            obtain ⟨fields, here, rfl⟩ := Option.map_eq_some_iff.1 found
            rw [Value.Fits]
            exact fit fields here
          · exact ensures_pure nofun
termination_by structural tree => tree
theorem ensures_itemsOf (source : Nat) :
    ∀ trees, Ensures (itemsOf source trees) fun r => ∀ items ∈ r, Value.AllFit items
  | [] => by
    rw [itemsOf]
    refine ensures_pure fun items same => ?_
    obtain rfl := Option.some.inj same
    trivial
  | tree :: rest => by
    rw [itemsOf]
    split
    · refine (ensures_valueOf source tree).bind fun r => ?_
      split
      · rename_i v
        refine (ensures_itemsOf source rest).map fun r fit first items found => ?_
        obtain ⟨others, here, rfl⟩ := Option.map_eq_some_iff.1 found
        rw [Value.AllFit]
        exact ⟨first v rfl, fit others here⟩
      · exact ensures_pure nofun
    · exact ensures_itemsOf source rest
termination_by structural trees => trees
theorem ensures_fieldsOf (source : Nat) :
    ∀ trees, Ensures (fieldsOf source trees) fun r => ∀ fields ∈ r, Value.FieldsFit fields
  | [] => by
    rw [fieldsOf]
    refine ensures_pure fun fields same => ?_
    obtain rfl := Option.some.inj same
    trivial
  | .token t :: rest => by
    rw [fieldsOf_token]
    exact ensures_fieldsOf source rest
  | .node kind children :: rest => by
    rw [fieldsOf_node]
    split
    · rw [fieldThen]
      split
      · rename_i key _
        refine (ensures_valueIn source children).bind fun r => ?_
        split
        · rename_i v
          refine (ensures_fieldsOf source rest).map fun r fit first fields found => ?_
          obtain ⟨others, here, rfl⟩ := Option.map_eq_some_iff.1 found
          rw [Value.FieldsFit]
          exact ⟨first v rfl, fit others here⟩
        · exact ensures_pure nofun
      · exact ensures_pure nofun
    · exact ensures_fieldsOf source rest
termination_by structural trees => trees
theorem ensures_valueIn (source : Nat) :
    ∀ trees, Ensures (valueIn source trees) fun r => ∀ v ∈ r, v.Fits
  | [] => by
    rw [valueIn]
    exact ensures_pure nofun
  | tree :: rest => by
    rw [valueIn]
    split
    · exact ensures_valueOf source tree
    · exact ensures_valueIn source rest
termination_by structural trees => trees
end

theorem ensures_placedValue (source : Nat) (tree? : Option Tree) :
    Ensures (placedValue source tree?) fun r => ∀ v ∈ r, v.value.Fits := by
  unfold placedValue
  split
  · refine (ensures_valueOf source _).map fun r fit v found => ?_
    obtain ⟨value, here, rfl⟩ := Option.map_eq_some_iff.1 found
    exact fit value here
  · exact ensures_pure nofun

/-! ## Lists of names -/

theorem ensures_argumentsOf (source : Nat) (seen : List (String × TextRange)) (nodes : List (List Tree)) :
    Ensures (argumentsOf source seen nodes) fun xs =>
      Fresh seen (xs.map (·.name.text)) ∧ ∀ a ∈ xs, a.value.value.Fits := by
  induction nodes generalizing seen with
  | nil => exact ensures_pure (by simp [Fresh])
  | cons children rest ih =>
    rw [argumentsOf]
    split
    · exact ih seen
    · rename_i t _
      refine (ensures_placedValue source _).bind fun r => ?_
      split
      · exact (ih seen).imp fun _ holds _ => holds
      · rename_i value
        split
        · exact ensures_report rfl (ih seen)
        · rename_i new
          refine (ih _).map fun xs holds fit => ?_
          exact ⟨(fresh_cons seen t.text t.range _).2 ⟨new, holds.1⟩,
            List.forall_mem_cons.2 ⟨fit value rfl, holds.2⟩⟩

theorem ensures_argumentsIn (source : Nat) (children : List Tree) :
    Ensures (argumentsIn source children) Argument.WellFormed := by
  unfold argumentsIn
  split
  · refine (ensures_argumentsOf source [] _).imp fun xs holds => ?_
    exact ⟨(fresh_nil _).1 holds.1, holds.2⟩
  · exact ensures_pure (by simp [Argument.WellFormed])

theorem ensures_directivesOf (source : Nat) (nodes : List (List Tree)) :
    Ensures (directivesOf source nodes) Directive.WellFormed := by
  induction nodes with
  | nil => exact ensures_pure (by simp [Directive.WellFormed])
  | cons children rest ih =>
    rw [directivesOf]
    split
    · exact ih
    · refine (ensures_argumentsIn source children).bind fun arguments => ?_
      refine ih.map fun others holds first => ?_
      exact List.forall_mem_cons.2 ⟨first, holds⟩

theorem ensures_variablesOf (source : Nat) (seen : List (String × TextRange)) (nodes : List (List Tree)) :
    Ensures (variablesOf source seen nodes) fun xs =>
      Fresh seen (xs.map (·.name.text)) ∧ ∀ d ∈ xs, ∀ v ∈ d.defaultValue, v.value.Fits := by
  induction nodes generalizing seen with
  | nil => exact ensures_pure (by simp [Fresh])
  | cons children rest ih =>
    rw [variablesOf.eq_def]
    dsimp only
    split
    · rename_i t range type _ _
      split
      · exact ensures_report rfl (ih seen)
      · rename_i new
        refine (ensures_placedValue source _).bind fun defaultValue => ?_
        refine (ih _).map fun xs holds fit => ?_
        exact ⟨(fresh_cons seen t.text range _).2 ⟨new, holds.1⟩,
          List.forall_mem_cons.2 ⟨fit, holds.2⟩⟩
    · exact ih seen

theorem ensures_variablesIn (source : Nat) (children : List Tree) :
    Ensures (variablesIn source children) VariableDefinition.WellFormed := by
  unfold variablesIn
  split
  · refine (ensures_variablesOf source [] _).imp fun xs holds => ?_
    exact ⟨(fresh_nil _).1 holds.1, holds.2⟩
  · exact ensures_pure (by simp [VariableDefinition.WellFormed])

/-! ## Selections -/

mutual
theorem ensures_selectionOf (source : Nat) :
    ∀ tree, Ensures (selectionOf source tree) fun r => ∀ s ∈ r, s.WellFormed
  | .token t => by
    rw [selectionOf]
    exacts [ensures_pure nofun, nofun]
  | .node kind children => by
    rw [selectionOf.eq_def]
    split
    · rename_i same
      cases same
      split
      · exact ensures_pure nofun
      · refine (ensures_argumentsIn source children).bind fun arguments => ?_
        refine (ensures_directivesOf source _).bind fun directives => ?_
        refine (ensures_selectionSetIn source children).map fun set nested fitting named s same => ?_
        obtain rfl := Option.some.inj same
        rw [Selection.WellFormed]
        exact ⟨named, fitting, nested⟩
    · exact ensures_pure nofun
termination_by structural tree => tree
theorem ensures_selectionSetOf (source : Nat) :
    ∀ tree, Ensures (selectionSetOf source tree) Selection.SetWellFormed
  | .token t => by
    rw [selectionSetOf]
    exacts [ensures_pure trivial, nofun]
  | .node kind children => by
    rw [selectionSetOf.eq_def]
    split
    · rename_i same
      cases same
      refine (ensures_selectionsOf source [] children).map fun selections holds => ?_
      rw [Selection.SetWellFormed]
      exact ⟨(fresh_nil _).1 holds.1, holds.2⟩
    · exact ensures_pure trivial
termination_by structural tree => tree
theorem ensures_selectionSetIn (source : Nat) :
    ∀ trees, Ensures (selectionSetIn source trees) Selection.SetWellFormed
  | [] => by
    rw [selectionSetIn]
    exact ensures_pure trivial
  | tree :: rest => by
    rw [selectionSetIn]
    split
    · exact ensures_selectionSetOf source tree
    · exact ensures_selectionSetIn source rest
termination_by structural trees => trees
theorem ensures_selectionsOf (source : Nat) (seen : List (String × TextRange)) :
    ∀ trees, Ensures (selectionsOf source seen trees) fun ss =>
      Fresh seen (ss.map (·.responseName.text)) ∧ Selection.AllWellFormed ss
  | [] => by
    rw [selectionsOf]
    refine ensures_pure ⟨by simp [Fresh], ?_⟩
    rw [Selection.AllWellFormed]
    trivial
  | tree :: rest => by
    rw [selectionsOf]
    refine (ensures_selectionOf source tree).bind fun lowered => ?_
    split
    · exact (ensures_selectionsOf source seen rest).imp fun _ holds _ => holds
    · rename_i s
      dsimp only
      split
      · exact ensures_report rfl (ensures_selectionsOf source seen rest)
      · rename_i new
        refine (ensures_selectionsOf source _ rest).map fun others holds first => ?_
        rw [Selection.AllWellFormed]
        exact ⟨(fresh_cons seen _ s.responseName.range _).2 ⟨new, holds.1⟩, first s rfl, holds.2⟩
termination_by structural trees => trees
end

/-! ## Declarations -/

theorem ensures_selectingDeclaration (source : Nat) (kind : DeclarationKind) (names : Name × Name)
    (target : Option TypeRef) {directives : List Directive} (children : List Tree) :
    Ensures (selectingDeclaration source kind names target directives children) fun r =>
      Directive.WellFormed directives → ∀ d ∈ r, d.WellFormed := by
  refine (ensures_selectionSetIn source children).bind fun set => ?_
  split
  · exact ensures_pure fun _ _ _ none => absurd none (by simp)
  · refine (ensures_variablesIn source children).map fun definitions distinct nested fitting d same => ?_
    obtain rfl := Option.some.inj same
    exact ⟨fitting, distinct, nested⟩

theorem ensures_declarationOf (source : Nat) (kind : DeclarationKind) (children : List Tree) :
    Ensures (declarationOf source kind children) fun r => ∀ d ∈ r, d.WellFormed := by
  unfold declarationOf
  split
  · exact ensures_pure nofun
  · refine (ensures_directivesOf source _).bind fun directives => ?_
    split
    · exact ensures_selectingDeclaration source _ _ _ _
    · split
      · exact ensures_selectingDeclaration source _ _ _ _
      · exact ensures_pure fun _ => nofun
    · refine ensures_pure fun fitting d same => ?_
      obtain rfl := Option.some.inj same
      refine ⟨fitting, by simp [VariableDefinition.WellFormed], ?_⟩
      rw [Selection.SetWellFormed, Selection.AllWellFormed]
      exact ⟨List.nodup_nil, trivial⟩

theorem ensures_declarationIn (source : Nat) (root : Tree) :
    Ensures (declarationIn source root) fun r => ∀ d ∈ r, d.WellFormed := by
  unfold declarationIn
  split
  · exact ensures_pure nofun
  · split
    · exact ensures_declarationOf source _ _
    · exact ensures_pure nofun

/-! ## With or without errors -/

/-- Whatever was reported before, the result is as it should be. -/
def Returns {α : Type} (p : Lower α) (post : α → Prop) : Prop := ∀ ds : Diagnostics, post (p ds).1

theorem returns_pure {α : Type} {post : α → Prop} {a : α} (holds : post a) : Returns (pure a) post :=
  fun _ => holds

theorem returns_bind {α β : Type} {p : Lower α} {q : α → Lower β} {post : β → Prop}
    (rest : ∀ a, Returns (q a) post) : Returns (p >>= q) post :=
  fun ds => rest (p ds).1 (p ds).2

theorem returns_none {α : Type} {post : α → Prop} :
    Returns (pure none) fun r => ∀ a ∈ r, post a :=
  returns_pure (by simp)

/-- A declaration knows its literal, and if it is a pointer, its target. -/
structure Rooted (source : Nat) (d : Declaration) : Prop where
  source : d.source = source
  target : d.kind = .pointer → ∃ target, d.target = some target

theorem returns_selectingDeclaration (source : Nat) {kind : DeclarationKind} (names : Name × Name)
    {target : Option TypeRef} (directives : List Directive) (children : List Tree)
    (leads : kind = .pointer → ∃ type, target = some type) :
    Returns (selectingDeclaration source kind names target directives children) fun r =>
      ∀ d ∈ r, Rooted source d := by
  unfold selectingDeclaration
  refine returns_bind fun set => ?_
  split
  · exact returns_none
  · refine returns_bind fun definitions => returns_pure fun d same => ?_
    obtain rfl := Option.some.inj same
    exact ⟨rfl, leads⟩

theorem returns_declarationIn (source : Nat) (root : Tree) :
    Returns (declarationIn source root) fun r => ∀ d ∈ r, Rooted source d := by
  unfold declarationIn
  split
  · exact returns_none
  · split
    · unfold declarationOf
      split
      · exact returns_none
      · refine returns_bind fun directives => ?_
        split
        · exact returns_selectingDeclaration source _ _ _ nofun
        · split
          · exact returns_selectingDeclaration source _ _ _ fun _ => ⟨_, rfl⟩
          · exact returns_none
        · refine returns_pure fun d same => ?_
          obtain rfl := Option.some.inj same
          exact ⟨rfl, nofun⟩
    · exact returns_none

end IsoLiteral.Lowering

namespace IsoLiteral

/-- A declaration that some literal gives without errors. -/
def Declaration.Parsed (d : Declaration) : Prop :=
  ∃ text source limits problems, parseDeclaration text source limits = .ok (some d, problems) ∧
    problems.hasErrors = false

/-- What a literal gives comes from its tree and adds to what the grammar reports. -/
theorem exists_of_parseDeclaration {text : String} {source : Nat} {limits : ParseLimits}
    {result : Option Declaration × Diagnostics} (run : parseDeclaration text source limits = .ok result) :
    ∃ tree reported, parseTree text source limits = .ok (tree, reported) ∧
      Lowering.declarationIn source tree reported = result := by
  cases tree : parseTree text source limits with
  | error e => simp [parseDeclaration, tree, bind, Except.bind] at run
  | ok pair =>
    refine ⟨pair.1, pair.2, rfl, ?_⟩
    simpa [parseDeclaration, tree, bind, Except.bind, pure, Except.pure] using run

/-- A declaration that a literal gives without errors is well-formed. -/
theorem Declaration.Parsed.wellFormed {d : Declaration} (parsed : d.Parsed) : d.WellFormed := by
  obtain ⟨text, source, limits, problems, run, clean⟩ := parsed
  obtain ⟨tree, reported, -, lowered⟩ := exists_of_parseDeclaration run
  have ensured := Lowering.ensures_declarationIn source tree reported
  rw [lowered] at ensured
  exact (ensured clean).2 d rfl

/-- A declaration knows the literal that gives it. -/
theorem rooted_of_parseDeclaration {text : String} {source : Nat} {limits : ParseLimits} {d : Declaration}
    {problems : Diagnostics} (run : parseDeclaration text source limits = .ok (some d, problems)) :
    Lowering.Rooted source d := by
  obtain ⟨tree, reported, -, lowered⟩ := exists_of_parseDeclaration run
  have returned := Lowering.returns_declarationIn source tree reported
  rw [lowered] at returned
  exact returned d rfl

/-- A declaration that some literal gives, with or without errors. -/
def Declaration.Written (d : Declaration) : Prop :=
  ∃ text source limits problems, parseDeclaration text source limits = .ok (some d, problems)

theorem Declaration.Parsed.written {d : Declaration} (parsed : d.Parsed) : d.Written := by
  obtain ⟨text, source, limits, problems, run, -⟩ := parsed
  exact ⟨text, source, limits, problems, run⟩

/-- A pointer has a target. -/
theorem Declaration.Written.target {d : Declaration} (written : d.Written) (pointer : d.kind = .pointer) :
    ∃ target, d.target = some target := by
  obtain ⟨text, source, limits, problems, run⟩ := written
  exact (rooted_of_parseDeclaration run).target pointer

/-- A run parses the first literal and then the others. -/
theorem parseFrom_cons_eq_ok {limits : ParseLimits} {index : Nat} {literal : Literal}
    {rest : List Literal} {parsed : ParsedLiterals}
    (run : parseFrom limits index (literal :: rest) = .ok parsed) :
    ∃ result more, parseDeclaration literal.content index limits = .ok result ∧
      parseFrom limits (index + 1) rest = .ok more ∧
      parsed.declarations =
        (if result.2.hasErrors then [] else result.1.toList) ++ more.declarations ∧
      parsed.diagnostics = result.2 ++ more.diagnostics := by
  rw [parseFrom] at run
  cases first : parseDeclaration literal.content index limits with
  | error e => simp [first, bind, Except.bind] at run
  | ok result =>
    cases others : parseFrom limits (index + 1) rest with
    | error e => simp [first, others, bind, Except.bind] at run
    | ok more =>
      simp only [first, others, bind, Except.bind, pure, Except.pure, Except.ok.injEq] at run
      subst run
      exact ⟨result, more, rfl, rfl, rfl, rfl⟩

/-- The declarations of a run come from literals without errors. -/
theorem parsed_of_mem_parseFrom {limits : ParseLimits} (literals : List Literal) :
    ∀ index {parsed : ParsedLiterals}, parseFrom limits index literals = .ok parsed →
      ∀ d ∈ parsed.declarations, d.Parsed := by
  induction literals with
  | nil =>
    intro index parsed run d member
    cases run
    cases member
  | cons literal rest ih =>
    intro index parsed run d member
    obtain ⟨result, more, first, others, declarations, -⟩ := parseFrom_cons_eq_ok run
    rw [declarations] at member
    rcases List.mem_append.1 member with kept | later
    · split at kept
      · cases kept
      · rename_i clean
        have given : result.1 = some d := by simpa using kept
        exact ⟨literal.content, index, limits, result.2, by rw [first, ← given], by simpa using clean⟩
    · exact ih (index + 1) others d later

end IsoLiteral
