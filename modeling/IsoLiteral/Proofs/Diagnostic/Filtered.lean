import IsoLiteral.Diagnostic.Filter
import Mathlib.Data.Prod.Lex
import Mathlib.Tactic

/-!
# Diagnostics that remain

What hides another diagnostic is a parse error of the same literal that comes before it: it starts earlier, or
at the same offset with a kind that takes precedence there. This order has no endless descent, so although a
diagnostic may hide others in its turn and be hidden later, whatever is dropped follows from a parse error
that is kept. A parse error is an error, so a literal with errors keeps one. What is kept hid in its turn, and
hides nothing else that is kept, so dropping once is enough.
-/

namespace IsoLiteral

namespace DiagnosticKind

/-- The order of the kinds at one offset: missing pieces, then unclosed delimiters, then the rest. -/
def precedence (kind : DiagnosticKind) : Nat :=
  if kind.isRootCause then kind.rank
  else if kind.isStructural then kind.rank + 9
  else kind.rank + 12

theorem isStructural_iff (kind : DiagnosticKind) : kind.isStructural = true ↔ kind.rank < 3 := by
  cases kind <;> decide

theorem isRootCause_iff (kind : DiagnosticKind) :
    kind.isRootCause = true ↔ 3 ≤ kind.rank ∧ kind.rank < 9 := by
  cases kind <;> decide

theorem category_of_isStructural {kind : DiagnosticKind} (structural : kind.isStructural = true) :
    kind.category = .parse := by
  cases kind <;> first | rfl | cases structural

theorem category_of_isRootCause {kind : DiagnosticKind} (cause : kind.isRootCause = true) :
    kind.category = .parse := by
  cases kind <;> first | rfl | cases cause

theorem suppresses_iff (a b : DiagnosticKind) :
    a.suppresses b = true ↔ a.category = .parse ∧ b.category = .parse ∧ a.rank < b.rank := by
  simp only [suppresses, Bool.and_eq_true, decide_eq_true_eq, and_assoc]

/-- Of two kinds at one offset the one that hides the other takes precedence, and both are of the grammar. -/
theorem of_outranksAtSamePosition {a b : DiagnosticKind} (outranks : a.outranksAtSamePosition b = true) :
    a.category = .parse ∧ b.category = .parse ∧ a.precedence < b.precedence := by
  have structural := isStructural_iff a
  have structural' := isStructural_iff b
  have cause := isRootCause_iff a
  have cause' := isRootCause_iff b
  rw [outranksAtSamePosition] at outranks
  split at outranks
  · cases outranks
  · rename_i notBoth
    split at outranks
    · rename_i explains
      obtain ⟨missing, unclosed⟩ := Bool.and_eq_true_iff.1 explains
      refine ⟨category_of_isRootCause missing, category_of_isStructural unclosed, ?_⟩
      have below := cause.1 missing
      have first := structural'.1 unclosed
      have notCause : ¬ b.isRootCause = true := fun other => by have := (cause'.1 other).1; omega
      rw [precedence, precedence, if_pos missing, if_neg notCause, if_pos unclosed]
      omega
    · obtain ⟨parse, parse', lower⟩ := (suppresses_iff a b).1 outranks
      refine ⟨parse, parse', ?_⟩
      rw [Bool.and_eq_true] at notBoth
      rw [precedence, precedence]
      split_ifs <;> simp_all <;> omega

end DiagnosticKind

namespace Diagnostic

/-- The place of a diagnostic in the order in which diagnostics of one literal explain each other: where it
starts, and then what takes precedence there. -/
def turn (d : Diagnostic) : Nat ×ₗ Nat :=
  toLex ((d.span.map (·.range.start)).getD 0, d.kind.precedence)

/-- Whether a diagnostic is about the same literal as another one and starts no later. -/
def Leads (a b : Diagnostic) : Prop :=
  ∃ sa ∈ a.span, ∃ sb ∈ b.span, sa.source = sb.source ∧ sa.range.start ≤ sb.range.start

theorem Leads.trans {a b c : Diagnostic} (first : a.Leads b) (second : b.Leads c) : a.Leads c := by
  obtain ⟨sa, placed, sb, here, source, start⟩ := first
  obtain ⟨sb', here', sc, there, source', start'⟩ := second
  obtain rfl : sb = sb' := Option.some.inj (here.symm.trans here')
  exact ⟨sa, placed, sc, there, source.trans source', start.trans start'⟩

theorem Leads.isIn {a b : Diagnostic} (leads : a.Leads b) (source : Nat) : a.isIn source = b.isIn source := by
  obtain ⟨sa, placed, sb, here, same, -⟩ := leads
  show a.span.any (·.source = source) = b.span.any (·.source = source)
  rw [Option.mem_def.1 placed, Option.mem_def.1 here, Option.any_some, Option.any_some, same]

/-- Both are problems of the grammar, and the one that hides the other comes first. -/
structure Precedes (a b : Diagnostic) : Prop where
  hider : a.kind.category = .parse
  hidden : b.kind.category = .parse
  leads : a.Leads b
  turn : a.turn < b.turn

theorem precedes_of_hides {a b : Diagnostic} (hides : a.hides b = true) : a.Precedes b := by
  rw [Diagnostic.hides] at hides
  split at hides
  · rename_i sa sb placed placed'
    obtain ⟨source, hides⟩ := Bool.and_eq_true_iff.1 hides
    have leads (start : sa.range.start ≤ sb.range.start) : a.Leads b :=
      ⟨sa, placed, sb, placed', of_decide_eq_true source, start⟩
    have turn : a.turn < b.turn ↔ sa.range.start < sb.range.start ∨
        sa.range.start = sb.range.start ∧ a.kind.precedence < b.kind.precedence := by
      rw [Diagnostic.turn, Diagnostic.turn, placed, placed', Prod.Lex.toLex_lt_toLex]
      rfl
    split at hides
    · rename_i same
      obtain ⟨hider, hidden, precedence⟩ := DiagnosticKind.of_outranksAtSamePosition hides
      exact ⟨hider, hidden, leads same.le, turn.2 (.inr ⟨same, precedence⟩)⟩
    · obtain ⟨contains, suppresses⟩ := Bool.and_eq_true_iff.1 hides
      obtain ⟨earlier, -⟩ := Bool.and_eq_true_iff.1 contains
      have earlier := of_decide_eq_true earlier
      obtain ⟨hider, hidden, -⟩ := (DiagnosticKind.suppresses_iff _ _).1 suppresses
      exact ⟨hider, hidden, leads earlier.le, turn.2 (.inl earlier)⟩
  · cases hides

/-- A problem of the grammar makes the run fail. -/
theorem isError_of_category {d : Diagnostic} (parse : d.kind.category = .parse) : d.isError = true := by
  rw [isError, severity]
  cases h : d.kind <;> rw [h] at parse <;> first | rfl | cases parse

end Diagnostic

namespace Diagnostics

variable {active ds : Diagnostics} {d : Diagnostic}

/-! ## Turns -/

/-- Whether one of the diagnostics hides `d`. -/
def anyHides (ds : Diagnostics) (d : Diagnostic) : Bool := ds.any (·.hides d)

/-- The diagnostics that no earlier one has hidden when their turn comes, after those in `active`. -/
def activeFrom (active : Diagnostics) : Diagnostics → Diagnostics
  | [] => active
  | d :: ds => if anyHides active d then activeFrom active ds else activeFrom (active ++ [d]) ds

theorem activeFrom_concat (active ds : Diagnostics) (d : Diagnostic) :
    activeFrom active (ds ++ [d]) =
      if anyHides (activeFrom active ds) d then activeFrom active ds else activeFrom active ds ++ [d] := by
  induction ds generalizing active with
  | nil => rfl
  | cons e ds ih =>
    rw [List.cons_append, activeFrom, activeFrom]
    split
    · exact ih active
    · exact ih (active ++ [e])

theorem hides_self (d : Diagnostic) : d.hides d = false :=
  Bool.eq_false_iff.2 fun hides => lt_irrefl d.turn (Diagnostic.precedes_of_hides hides).turn

/-- Looking at a place flags it if the diagnostic whose turn it is hides what is there and is not hidden. -/
theorem get_lookAt (turn looked place : Fin ds.length) (flags : Flags ds.length) :
    (lookAt ds turn flags looked).get place =
      (flags.get place ||
        (decide (place = looked) && !flags.get turn && (ds.get turn).hides (ds.get place))) := by
  by_cases same : place = looked
  · subst same
    by_cases itself : turn = place
    · subst itself
      simp [lookAt, hides_self]
    · cases active : flags.get turn <;> cases flagged : flags.get place <;>
        cases hides : (ds.get turn).hides (ds.get place) <;> simp_all [lookAt]
  · have kept : (lookAt ds turn flags looked).get place = flags.get place := by
      rw [lookAt]
      split
      · rfl
      · split
        · rw [Flags.get_raise, decide_eq_false same, Bool.or_false]
        · rfl
    rw [kept, decide_eq_false same, Bool.false_and, Bool.false_and, Bool.or_false]

/-- In a turn, the places looked at are flagged if the diagnostic whose turn it is hides what is there. It
does not hide itself, so its own flag stays and decides for all of them. -/
theorem get_foldl_lookAt (turn : Fin ds.length) (places : List (Fin ds.length)) (flags : Flags ds.length)
    (place : Fin ds.length) :
    (places.foldl (lookAt ds turn) flags).get place =
      (flags.get place ||
        (decide (place ∈ places) && !flags.get turn && (ds.get turn).hides (ds.get place))) := by
  induction places generalizing flags with
  | nil => simp
  | cons looked places ih =>
    have own : (lookAt ds turn flags looked).get turn = flags.get turn := by
      rw [get_lookAt, hides_self, Bool.and_false, Bool.or_false]
    rw [List.foldl_cons, ih, own, get_lookAt]
    simp only [List.mem_cons, Bool.decide_or]
    cases flags.get place <;> cases decide (place = looked) <;> simp
    exact fun _ active hides => ⟨active, hides⟩

/-- After a turn, what was hidden still is, and so is what the diagnostic hides, unless it was hidden itself. -/
theorem get_takeTurn (flags : Flags ds.length) (turn place : Fin ds.length) :
    (takeTurn ds flags turn).get place =
      (flags.get place || (!flags.get turn && (ds.get turn).hides (ds.get place))) := by
  rw [takeTurn, get_foldl_lookAt, decide_eq_true (List.mem_finRange place), Bool.true_and]


theorem subset_activeFrom (active ds : Diagnostics) : active ⊆ activeFrom active ds := by
  induction ds generalizing active with
  | nil => exact List.Subset.refl active
  | cons d ds ih =>
    rw [activeFrom]
    split
    · exact ih active
    · exact List.Subset.trans (List.subset_append_left active [d]) (ih _)

theorem activeFrom_subset (active ds : Diagnostics) : activeFrom active ds ⊆ active ++ ds := by
  induction ds generalizing active with
  | nil => exact (List.append_nil active).symm ▸ List.Subset.refl active
  | cons d ds ih =>
    rw [activeFrom]
    split
    · intro e member
      exact (List.mem_append.1 (ih active member)).elim (List.mem_append_left _)
        fun later => List.mem_append_right _ (List.mem_cons_of_mem d later)
    · have append := ih (active ++ [d])
      rwa [List.append_assoc, List.singleton_append] at append

theorem anyHides_mono {others : Diagnostics} (fewer : active ⊆ others) (hidden : anyHides active d = true) :
    anyHides others d = true := by
  obtain ⟨a, member, hides⟩ := List.any_eq_true.1 hidden
  exact List.any_eq_true.2 ⟨a, fewer member, hides⟩

/-- What nothing hides in the end was not hidden when its turn came either. -/
theorem mem_activeFrom (member : d ∈ ds) (free : anyHides (activeFrom active ds) d = false) :
    d ∈ activeFrom active ds := by
  induction ds generalizing active with
  | nil => exact absurd member List.not_mem_nil
  | cons e ds ih =>
    rw [activeFrom] at free ⊢
    split
    · rename_i hidden
      rw [if_pos hidden] at free
      rcases List.mem_cons.1 member with rfl | later
      · rw [anyHides_mono (subset_activeFrom active ds) hidden] at free
        cases free
      · exact ih later free
    · rename_i unhidden
      rw [if_neg unhidden] at free
      rcases List.mem_cons.1 member with rfl | later
      · exact subset_activeFrom _ ds (List.mem_append_right active (List.mem_singleton_self d))
      · exact ih later free

/-- After the turns of the first diagnostics, one is hidden if one of them hides it that was not hidden when
its turn came. -/
theorem get_foldl_takeTurn (ds : Diagnostics) (count : Nat) (place : Fin ds.length) :
    (((List.finRange ds.length).take count).foldl (takeTurn ds) (.none ds.length)).get place =
      anyHides (activeFrom [] (ds.take count)) (ds.get place) := by
  induction count generalizing place with
  | zero => simp [activeFrom, anyHides]
  | succ count ih =>
    by_cases within : count < ds.length
    · have turns : (List.finRange ds.length).take (count + 1) =
          (List.finRange ds.length).take count ++ [⟨count, within⟩] := by
        rw [List.take_succ_eq_append_getElem (by simpa using within), List.getElem_finRange]
        rfl
      rw [turns, List.foldl_concat, get_takeTurn, ih, ih, List.take_succ_eq_append_getElem within,
        activeFrom_concat]
      change (_ || (!anyHides _ ds[count] && ds[count].hides _)) = _
      cases anyHides (activeFrom [] (ds.take count)) ds[count] with
      | true => simp
      | false => simp [anyHides]
    · have all : ds.length ≤ count := Nat.le_of_not_lt within
      have before := ih place
      rw [List.take_of_length_le (by simpa using all), List.take_of_length_le all] at before
      rw [List.take_of_length_le (by simp; omega), List.take_of_length_le (by omega), before]

/-- After all turns a diagnostic is hidden if one hides it that was not hidden when its turn came. -/
theorem get_hidden (place : Fin ds.length) :
    (hidden ds).get place = anyHides (activeFrom [] ds) (ds.get place) := by
  have all := get_foldl_takeTurn ds ds.length place
  rwa [List.take_of_length_le (by simp), List.take_length] at all

theorem map_fst_filter_zip_map {α : Type} (flag : α → Bool) (xs : List α) :
    ((xs.zip (xs.map flag)).filter (!·.2)).map (·.1) = xs.filter (!flag ·) := by
  induction xs with
  | nil => rfl
  | cons x xs ih =>
    rw [List.map_cons, List.zip_cons_cons, List.filter_cons, List.filter_cons, ← ih]
    cases flag x <;> rfl

theorem filtered_eq (ds : Diagnostics) : ds.filtered = ds.filter (!anyHides (activeFrom [] ds) ·) := by
  have flags : (hidden ds).toList = ds.map (anyHides (activeFrom [] ds)) := by
    refine List.ext_getElem (by simp) fun i within within' => ?_
    have place : i < ds.length := by simpa using within'
    rw [List.getElem_map]
    exact get_hidden ⟨i, place⟩
  rw [filtered, flags, map_fst_filter_zip_map]

theorem mem_filtered : d ∈ ds.filtered ↔ d ∈ ds ∧ anyHides (activeFrom [] ds) d = false := by
  rw [filtered_eq, List.mem_filter, Bool.not_eq_true']

theorem filtered_subset_activeFrom (ds : Diagnostics) : ds.filtered ⊆ activeFrom [] ds := fun d kept => by
  obtain ⟨member, free⟩ := mem_filtered.1 kept
  exact mem_activeFrom member free

/-- Whatever is dropped is a problem of the grammar and follows from another one that is kept. What hid it may
have been hidden later, but that cannot go on for ever. -/
theorem exists_leads_of_dropped (member : d ∈ ds) (dropped : d ∉ ds.filtered) :
    d.kind.category = .parse ∧ ∃ k ∈ ds.filtered, k.kind.category = .parse ∧ k.Leads d := by
  induction order : d.turn using WellFoundedLT.induction generalizing d with
  | ind turn ih =>
    have hidden : anyHides (activeFrom [] ds) d = true :=
      Bool.of_not_eq_false fun free => dropped (mem_filtered.2 ⟨member, free⟩)
    obtain ⟨a, active, hides⟩ := List.any_eq_true.1 hidden
    have precedes := Diagnostic.precedes_of_hides hides
    refine ⟨precedes.hidden, ?_⟩
    by_cases kept : a ∈ ds.filtered
    · exact ⟨a, kept, precedes.hider, precedes.leads⟩
    · obtain ⟨-, k, kept, parse, leads⟩ :=
        ih a.turn (order ▸ precedes.turn) (activeFrom_subset [] ds active) kept rfl
      exact ⟨k, kept, parse, leads.trans precedes.leads⟩

/-- Where nothing hides anything, all have their turn. -/
theorem activeFrom_eq_append (free : ∀ a ∈ active ++ ds, ∀ d ∈ ds, a.hides d = false) :
    activeFrom active ds = active ++ ds := by
  induction ds generalizing active with
  | nil => exact (List.append_nil active).symm
  | cons d ds ih =>
    have notHidden : ¬ anyHides active d = true := fun hidden => by
      obtain ⟨a, member, hides⟩ := List.any_eq_true.1 hidden
      rw [free a (List.mem_append_left _ member) d List.mem_cons_self] at hides
      cases hides
    rw [activeFrom, if_neg notHidden, ih, List.append_assoc, List.singleton_append]
    intro a member e later
    rw [List.append_assoc, List.singleton_append] at member
    exact free a member e (List.mem_cons_of_mem d later)

theorem hides_eq_false_of_filtered (ds : Diagnostics) : ∀ a ∈ ds.filtered, ∀ d ∈ ds.filtered, a.hides d = false := by
  intro a kept d kept'
  have unhidden := (mem_filtered.1 kept').2
  exact Bool.eq_false_iff.2 fun hides =>
    Bool.eq_false_iff.1 unhidden (List.any_eq_true.2 ⟨a, filtered_subset_activeFrom ds kept, hides⟩)

/-- Dropping once is enough. -/
theorem filtered_filtered (ds : Diagnostics) : ds.filtered.filtered = ds.filtered := by
  have free := hides_eq_false_of_filtered ds
  rw [filtered_eq, activeFrom_eq_append free, List.nil_append]
  refine List.filter_eq_self.2 fun d kept => ?_
  rw [Bool.not_eq_true', anyHides, List.any_eq_false]
  exact fun a kept' => Bool.eq_false_iff.1 (free a kept' d kept)

theorem hasErrorsIn_filtered (ds : Diagnostics) (source : Nat) :
    ds.filtered.hasErrorsIn source = ds.hasErrorsIn source := by
  rw [Bool.eq_iff_iff, hasErrorsIn, hasErrorsIn, List.any_eq_true, List.any_eq_true]
  constructor
  · rintro ⟨d, kept, error⟩
    exact ⟨d, (mem_filtered.1 kept).1, error⟩
  · rintro ⟨d, member, error⟩
    by_cases kept : d ∈ ds.filtered
    · exact ⟨d, kept, error⟩
    · obtain ⟨-, k, kept, parse, leads⟩ := exists_leads_of_dropped member kept
      obtain ⟨-, here⟩ := Bool.and_eq_true_iff.1 error
      exact ⟨k, kept, Bool.and_eq_true_iff.2 ⟨Diagnostic.isError_of_category parse, (leads.isIn source).trans here⟩⟩

theorem hasErrors_filtered (ds : Diagnostics) : ds.filtered.hasErrors = ds.hasErrors := by
  rw [Bool.eq_iff_iff, hasErrors, hasErrors, List.any_eq_true, List.any_eq_true]
  constructor
  · rintro ⟨d, kept, error⟩
    exact ⟨d, (mem_filtered.1 kept).1, error⟩
  · rintro ⟨d, member, error⟩
    by_cases kept : d ∈ ds.filtered
    · exact ⟨d, kept, error⟩
    · obtain ⟨-, k, kept, parse, -⟩ := exists_leads_of_dropped member kept
      exact ⟨k, kept, Diagnostic.isError_of_category parse⟩

/-- What is never dropped stays as often as it was reported, and in its order. -/
theorem filter_filtered {p : Diagnostic → Bool} (kept : ∀ d ∈ ds, p d = true → d ∈ ds.filtered) :
    ds.filtered.filter p = ds.filter p := by
  rw [filtered_eq, List.filter_filter]
  refine List.filter_congr fun d member => ?_
  cases fits : p d with
  | false => rfl
  | true =>
    rw [(mem_filtered.1 (kept d member fits)).2]
    rfl

/-- What is left of diagnostics when only those are dropped that follow from others that are kept. -/
structure Condensed (kept ds : Diagnostics) : Prop where
  sublist : kept.Sublist ds
  beyondGrammar : kept.filter (·.kind.category ≠ .parse) = ds.filter (·.kind.category ≠ .parse)
  unplaced : kept.filter (·.span = none) = ds.filter (·.span = none)
  errorsIn : ∀ source, kept.hasErrorsIn source = ds.hasErrorsIn source
  errors : kept.hasErrors = ds.hasErrors
  explained : ∀ d ∈ ds, d ∉ kept → ∃ k ∈ kept, k.Leads d
  apart : ∀ a ∈ kept, ∀ d ∈ kept, a.hides d = false

/-- Filtering is safe and stable: it drops only problems of the grammar that have a place, each of which follows
from one that is kept and starts no later in the same literal. So every literal with errors keeps one, and
filtering again changes nothing. -/
theorem filtered_condensed (ds : Diagnostics) : ds.filtered.Condensed ds ∧ ds.filtered.filtered = ds.filtered := by
  refine ⟨?_, filtered_filtered ds⟩
  have explained (d : Diagnostic) (member : d ∈ ds) (dropped : d ∉ ds.filtered) :=
    exists_leads_of_dropped member dropped
  exact
    { sublist := filtered_eq ds ▸ List.filter_sublist
      beyondGrammar := filter_filtered fun d member other => by
        by_contra dropped
        exact of_decide_eq_true other (explained d member dropped).1
      unplaced := filter_filtered fun d member nowhere => by
        by_contra dropped
        obtain ⟨-, k, -, -, -, -, s, here, -⟩ := explained d member dropped
        cases (of_decide_eq_true nowhere).symm.trans here
      errorsIn := hasErrorsIn_filtered ds
      errors := hasErrors_filtered ds
      explained := fun d member dropped => by
        obtain ⟨-, k, kept, -, leads⟩ := explained d member dropped
        exact ⟨k, kept, leads⟩
      apart := hides_eq_false_of_filtered ds }

/-- A missing parenthesis hides what comes inside it and is then itself hidden by the missing name. -/
example :
    let unclosed := Diagnostic.located 0 .unclosedParen ⟨4, 12⟩
    let inside := Diagnostic.located 0 .unexpectedToken ⟨7, 8⟩
    let missing := Diagnostic.located 0 .expectedName ⟨4, 5⟩
    filtered [unclosed, inside, missing] = [missing] := by decide

end Diagnostics

end IsoLiteral
