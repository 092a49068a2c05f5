import IsoLiteral.Declaration.OfTree
import Mathlib.Tactic

/-!
# Reporting while declarations are built

Building a declaration from a tree never takes back a report, and everything that it reports is an error
about the literal. What a part yields is therefore described by two cases: under some condition it reports
nothing and returns what it should, and otherwise it reports something. Such descriptions go through
sequences, where the conditions are joined.
-/

namespace IsoLiteral.Lowering

/-! ## Reports stay -/

/-- What has been reported stays reported. -/
def Keeps {α : Type} (p : Lower α) : Prop := ∀ ds, ds ≠ [] → (p ds).2 ≠ []

section Combinators

variable {α β : Type} {p : Lower α}

theorem keeps_pure (a : α) : Keeps (pure a : Lower α) := fun _ dirty => dirty

theorem Keeps.bind (first : Keeps p) {q : α → Lower β} (rest : ∀ a, Keeps (q a)) : Keeps (p >>= q) :=
  fun ds dirty => rest _ _ (first ds dirty)

theorem keeps_report (d : Diagnostic) : Keeps (report d) := fun ds _ => by
  show ds ++ [d] ≠ []
  simp

end Combinators

/-- Everything that is reported is added at the end, and is an error about the literal. -/
def Reports {α : Type} (source : Nat) (p : Lower α) : Prop :=
  ∀ ds, ∃ more, (p ds).2 = ds ++ more ∧ ∀ d ∈ more, d.isError = true ∧ d.isIn source = true

section Combinators

variable {α β : Type} {source : Nat} {p : Lower α}

theorem reports_pure (a : α) : Reports source (pure a : Lower α) :=
  fun ds => ⟨[], (List.append_nil ds).symm, fun _ none => absurd none List.not_mem_nil⟩

theorem Reports.bind (first : Reports source p) {q : α → Lower β} (rest : ∀ a, Reports source (q a)) :
    Reports source (p >>= q) := by
  intro ds
  obtain ⟨more, between, errors⟩ := first ds
  obtain ⟨others, after, errors'⟩ := rest (p ds).1 (p ds).2
  refine ⟨more ++ others, ?_, List.forall_mem_append.2 ⟨errors, errors'⟩⟩
  show (q (p ds).1 (p ds).2).2 = _
  rw [after, between, List.append_assoc]

theorem reports_report {d : Diagnostic} (error : d.isError = true) (here : d.isIn source = true) :
    Reports source (report d) :=
  fun _ => ⟨[d], rfl, by simp [error, here]⟩

theorem Reports.keeps (h : Reports source p) : Keeps p := by
  intro ds dirty
  obtain ⟨more, after, -⟩ := h ds
  rw [after]
  simp [dirty]

end Combinators

theorem reports_literalOf (source : Nat) (t : Token) : Reports source (literalOf source t) := by
  unfold literalOf
  split
  · split
    · exact reports_pure _
    · exact (reports_report rfl (by simp)).bind fun _ => reports_pure _
  all_goals exact reports_pure _

mutual
theorem reports_valueOf (source : Nat) : ∀ tree, Reports source (valueOf source tree)
  | .token t => by rw [valueOf]; exacts [reports_pure _, nofun, nofun, nofun, nofun]
  | .node kind children => by
    rw [valueOf.eq_def]
    split
    · exact reports_pure _
    · split
      · exact reports_literalOf source _
      · exact reports_pure _
    · rename_i same
      cases same
      exact (reports_itemsOf source children).bind fun _ => reports_pure _
    · rename_i same
      cases same
      exact (reports_fieldsOf source children).bind fun _ => reports_pure _
    · exact reports_pure _
termination_by structural tree => tree
theorem reports_itemsOf (source : Nat) : ∀ trees, Reports source (itemsOf source trees)
  | [] => by rw [itemsOf]; exact reports_pure _
  | tree :: rest => by
    rw [itemsOf]
    split
    · refine (reports_valueOf source tree).bind fun v => ?_
      split
      · exact (reports_itemsOf source rest).bind fun _ => reports_pure _
      · exact reports_pure _
    · exact reports_itemsOf source rest
termination_by structural trees => trees
theorem reports_fieldsOf (source : Nat) : ∀ trees, Reports source (fieldsOf source trees)
  | [] => by rw [fieldsOf]; exact reports_pure _
  | .token t :: rest => by rw [fieldsOf]; exacts [reports_fieldsOf source rest, nofun]
  | .node kind children :: rest => by
    rw [fieldsOf.eq_def]
    split
    · rename_i same; cases same
    · rename_i same
      cases same
      split
      · refine (reports_valueIn source children).bind fun v => ?_
        split
        · exact (reports_fieldsOf source rest).bind fun _ => reports_pure _
        · exact reports_pure _
      · exact reports_pure _
    · rename_i same
      cases same
      exact reports_fieldsOf source rest
termination_by structural trees => trees
theorem reports_valueIn (source : Nat) : ∀ trees, Reports source (valueIn source trees)
  | [] => by rw [valueIn]; exact reports_pure _
  | tree :: rest => by
    rw [valueIn]
    split
    · exact reports_valueOf source tree
    · exact reports_valueIn source rest
termination_by structural trees => trees
end

theorem reports_placedValue (source : Nat) (tree? : Option Tree) : Reports source (placedValue source tree?) := by
  unfold placedValue
  split
  · exact (reports_valueOf source _).bind fun _ => reports_pure _
  · exact reports_pure _

theorem reports_argumentsOf (source : Nat) (seen : List (String × TextRange)) (nodes : List (List Tree)) :
    Reports source (argumentsOf source seen nodes) := by
  induction nodes generalizing seen with
  | nil => exact reports_pure _
  | cons children rest ih =>
    rw [argumentsOf]
    split
    · exact ih seen
    · refine (reports_placedValue source _).bind fun value => ?_
      split
      · exact ih seen
      · split
        · exact (reports_report rfl (by simp)).bind fun _ => ih seen
        · exact (ih _).bind fun _ => reports_pure _

theorem reports_argumentsIn (source : Nat) (children : List Tree) : Reports source (argumentsIn source children) := by
  unfold argumentsIn
  split
  · exact reports_argumentsOf source [] _
  · exact reports_pure _

theorem reports_directivesOf (source : Nat) (nodes : List (List Tree)) : Reports source (directivesOf source nodes) := by
  induction nodes with
  | nil => exact reports_pure _
  | cons children rest ih =>
    rw [directivesOf]
    split
    · exact ih
    · exact (reports_argumentsIn source children).bind fun _ => ih.bind fun _ => reports_pure _

mutual
theorem reports_selectionOf (source : Nat) : ∀ tree, Reports source (selectionOf source tree)
  | .token t => by rw [selectionOf]; exacts [reports_pure _, nofun]
  | .node kind children => by
    rw [selectionOf.eq_def]
    split
    · rename_i same
      cases same
      split
      · exact reports_pure _
      · exact (reports_argumentsIn source children).bind fun _ => (reports_directivesOf source _).bind fun _ =>
          (reports_selectionSetIn source children).bind fun _ => reports_pure _
    · exact reports_pure _
termination_by structural tree => tree
theorem reports_selectionSetOf (source : Nat) : ∀ tree, Reports source (selectionSetOf source tree)
  | .token t => by rw [selectionSetOf]; exacts [reports_pure _, nofun]
  | .node kind children => by
    rw [selectionSetOf.eq_def]
    split
    · rename_i same
      cases same
      exact (reports_selectionsOf source [] children).bind fun _ => reports_pure _
    · exact reports_pure _
termination_by structural tree => tree
theorem reports_selectionSetIn (source : Nat) : ∀ trees, Reports source (selectionSetIn source trees)
  | [] => by rw [selectionSetIn]; exact reports_pure _
  | tree :: rest => by
    rw [selectionSetIn]
    split
    · exact reports_selectionSetOf source tree
    · exact reports_selectionSetIn source rest
termination_by structural trees => trees
theorem reports_selectionsOf (source : Nat) (seen : List (String × TextRange)) :
    ∀ trees, Reports source (selectionsOf source seen trees)
  | [] => by rw [selectionsOf]; exact reports_pure _
  | tree :: rest => by
    rw [selectionsOf]
    refine (reports_selectionOf source tree).bind fun lowered => ?_
    split
    · exact reports_selectionsOf source seen rest
    · dsimp only
      split
      · exact (reports_report rfl (by simp)).bind fun _ => reports_selectionsOf source seen rest
      · exact (reports_selectionsOf source _ rest).bind fun _ => reports_pure _
termination_by structural trees => trees
end

theorem reports_variablesOf (source : Nat) (seen : List (String × TextRange)) (nodes : List (List Tree)) :
    Reports source (variablesOf source seen nodes) := by
  induction nodes generalizing seen with
  | nil => exact reports_pure _
  | cons children rest ih =>
    rw [variablesOf.eq_def]
    dsimp only
    split
    · split
      · exact (reports_report rfl (by simp)).bind fun _ => ih seen
      · exact (reports_placedValue source _).bind fun _ => (ih _).bind fun _ => reports_pure _
    · exact ih seen

theorem reports_variablesIn (source : Nat) (children : List Tree) : Reports source (variablesIn source children) := by
  unfold variablesIn
  split
  · exact reports_variablesOf source [] _
  · exact reports_pure _

theorem reports_selectingDeclaration (source : Nat) (kind : DeclarationKind) (names : Name × Name)
    (target : Option TypeRef) (directives : List Directive) (children : List Tree) :
    Reports source (selectingDeclaration source kind names target directives children) := by
  refine (reports_selectionSetIn source children).bind fun set => ?_
  split
  · exact reports_pure _
  · exact (reports_variablesIn source children).bind fun _ => reports_pure _

theorem reports_declarationOf (source : Nat) (kind : DeclarationKind) (children : List Tree) :
    Reports source (declarationOf source kind children) := by
  unfold declarationOf
  split
  · exact reports_pure _
  · refine (reports_directivesOf source _).bind fun directives => ?_
    split
    · exact reports_selectingDeclaration source _ _ _ _ _
    · split
      · exact reports_selectingDeclaration source _ _ _ _ _
      · exact reports_pure _
    · exact reports_pure _

theorem reports_declarationIn (source : Nat) (root : Tree) : Reports source (declarationIn source root) := by
  unfold declarationIn
  split
  · exact reports_pure _
  · split
    · exact reports_declarationOf source _ _
    · exact reports_pure _

/-! ## What a computation yields -/

/-- Under a condition nothing is reported and the result is as it should be; otherwise something is
reported. -/
structure Yields {α : Type} (p : Lower α) (condition : Prop) (result : α → Prop) : Prop where
  keeps : Keeps p
  returns : condition → ∃ a, p [] = (a, []) ∧ result a
  reports : ¬ condition → (p []).2 ≠ []

section Combinators

variable {α β : Type} {p : Lower α} {c e : Prop} {result : α → Prop} {result' : β → Prop}

theorem yields_pure {a : α} (always : c) (holds : result a) : Yields (pure a : Lower α) c result where
  keeps := keeps_pure a
  returns _ := ⟨a, rfl, holds⟩
  reports never := absurd always never

theorem yields_report (never : ¬ c) (d : Diagnostic) {q : Lower α} (keeps : Keeps q) :
    Yields (do report d; q) c result where
  keeps := (keeps_report d).bind fun _ => keeps
  returns here := absurd here never
  reports _ := keeps [d] (List.cons_ne_nil d [])

theorem Yields.bind (first : Yields p c result) {q : α → Lower β} (keeps : ∀ a, Keeps (q a))
    (rest : ∀ a, result a → Yields (q a) e result') : Yields (p >>= q) (c ∧ e) result' where
  keeps := first.keeps.bind keeps
  returns := by
    rintro ⟨here, there⟩
    obtain ⟨a, run, holds⟩ := first.returns here
    obtain ⟨b, run', holds'⟩ := (rest a holds).returns there
    refine ⟨b, ?_, holds'⟩
    show q (p []).1 (p []).2 = _
    rw [run, run']
  reports := by
    intro fails
    show (q (p []).1 (p []).2).2 ≠ []
    by_cases here : c
    · obtain ⟨a, run, holds⟩ := first.returns here
      rw [run]
      exact (rest a holds).reports fun there => fails ⟨here, there⟩
    · exact keeps _ _ (first.reports here)

theorem Yields.map (h : Yields p c result) {f : α → β} (implies : ∀ a, result a → result' (f a)) :
    Yields (do return f (← p)) c result' where
  keeps := h.keeps.bind fun _ => keeps_pure _
  returns here := by
    obtain ⟨a, run, holds⟩ := h.returns here
    refine ⟨f a, ?_, implies a holds⟩
    show (f (p []).1, (p []).2) = _
    rw [run]
  reports fails := h.reports fails

theorem Yields.imp (h : Yields p c result) {weaker : α → Prop} (implies : ∀ a, result a → weaker a) :
    Yields p c weaker where
  keeps := h.keeps
  returns here := by
    obtain ⟨a, run, holds⟩ := h.returns here
    exact ⟨a, run, implies a holds⟩
  reports := h.reports

theorem Yields.congr (h : Yields p c result) (same : c ↔ e) : Yields p e result :=
  (propext same : c = e) ▸ h

end Combinators

end IsoLiteral.Lowering
