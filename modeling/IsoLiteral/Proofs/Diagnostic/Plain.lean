import IsoLiteral.Diagnostic.Basic
import Mathlib.Tactic

/-!
# Diagnostics without places

What a diagnostic says is its kind, its message, what it says of related places, and its hints. Its plain form
is that; the form without ranges has the literal too. Where it is known which literal diagnostics are about, the
plain form tells the other one.
-/

namespace IsoLiteral

namespace Diagnostic

/-- What is said about related places. -/
def plainRelated (places : List RelatedPlace) : List RelatedPlace := places.map fun place => ⟨default, place.message⟩

/-- The diagnostic without the places that it is about. -/
def plain (d : Diagnostic) : Diagnostic :=
  { d with span := d.span.map fun _ => default, related := plainRelated d.related }

/-- The diagnostic without the ranges that it is about. It keeps its literal. -/
def unplaced (d : Diagnostic) : Diagnostic :=
  { d with span := d.span.map fun span => ⟨span.source, default⟩, related := plainRelated d.related }

@[simp] theorem plain_located (source : Nat) (kind : DiagnosticKind) (range : TextRange) :
    (located source kind range).plain = located 0 kind default := rfl

@[simp] theorem plain_withDetail (d : Diagnostic) (detail : String) :
    (d.withDetail detail).plain = d.plain.withDetail detail := rfl

@[simp] theorem plain_withHint (d : Diagnostic) (hint : String) : (d.withHint hint).plain = d.plain.withHint hint :=
  rfl

@[simp] theorem plain_relatedTo (d : Diagnostic) (message : String) (range : TextRange) :
    (d.relatedTo message range).plain = d.plain.relatedTo message default := by
  obtain ⟨kind, span, text, related, hints⟩ := d
  cases span with
  | none => rfl
  | some span => simp [relatedTo, plain, plainRelated]; rfl

/-- Which literal a diagnostic is about is all that its plain form leaves out. -/
theorem unplaced_eq_of_plain {d e : Diagnostic} {source : Nat} (same : d.plain = e.plain)
    (here : d.isIn source = true) (here' : e.isIn source = true) : d.unplaced = e.unplaced := by
  obtain ⟨kind, span, message, related, hints⟩ := d
  obtain ⟨kind', span', message', related', hints'⟩ := e
  obtain ⟨place, rfl, own⟩ := (Option.any_eq_true _ _).1 here
  obtain ⟨place', rfl, own'⟩ := (Option.any_eq_true _ _).1 here'
  have sources : place.source = place'.source := (of_decide_eq_true own).trans (of_decide_eq_true own').symm
  simp only [plain, Diagnostic.mk.injEq] at same
  obtain ⟨rfl, -, rfl, related, rfl⟩ := same
  simp only [unplaced, Option.map_some, sources, related]

end Diagnostic

namespace Diagnostics

/-- The diagnostics without the places that they are about. -/
def plain (ds : Diagnostics) : Diagnostics := ds.map Diagnostic.plain

/-- The diagnostics without the ranges that they are about. -/
def unplaced (ds : Diagnostics) : Diagnostics := ds.map Diagnostic.unplaced

@[simp] theorem plain_nil : plain [] = [] := rfl

@[simp] theorem plain_cons (d : Diagnostic) (ds : Diagnostics) : plain (d :: ds) = d.plain :: ds.plain := rfl

@[simp] theorem plain_append (ds es : Diagnostics) : plain (ds ++ es) = ds.plain ++ es.plain := List.map_append

@[simp] theorem unplaced_append (ds es : Diagnostics) : unplaced (ds ++ es) = ds.unplaced ++ es.unplaced :=
  List.map_append

theorem unplaced_singleton (d : Diagnostic) : unplaced [d] = [d.unplaced] := rfl

theorem hasErrors_plain (ds : Diagnostics) : ds.plain.hasErrors = ds.hasErrors := by
  rw [hasErrors, plain, List.any_map]
  rfl

theorem hasErrors_unplaced (ds : Diagnostics) : ds.unplaced.hasErrors = ds.hasErrors := by
  rw [hasErrors, unplaced, List.any_map]
  rfl

theorem hasErrors_eq_of_unplaced {ds es : Diagnostics} (same : ds.unplaced = es.unplaced) :
    ds.hasErrors = es.hasErrors := by
  rw [← hasErrors_unplaced, same, hasErrors_unplaced]

/-- Checking each of two lists of things that are reported alike gives the same diagnostics. -/
theorem plain_filterMap {α β : Type} {report? : α → Option Diagnostic} {report'? : β → Option Diagnostic}
    {change : α → β} (alike : ∀ a, (report'? (change a)).map Diagnostic.plain = (report? a).map Diagnostic.plain)
    (xs : List α) : plain ((xs.map change).filterMap report'?) = plain (xs.filterMap report?) := by
  rw [plain, plain, List.filterMap_map, List.map_filterMap, List.map_filterMap]
  exact List.filterMap_congr fun a _ => alike a

/-- Diagnostics about one literal that have the same plain forms differ in ranges only. -/
theorem unplaced_eq_of_plain {ds es : Diagnostics} {source : Nat} (same : ds.plain = es.plain)
    (here : ∀ d ∈ ds, d.isIn source = true) (here' : ∀ e ∈ es, e.isIn source = true) :
    ds.unplaced = es.unplaced := by
  induction ds generalizing es with
  | nil => rw [List.map_eq_nil_iff.1 same.symm]
  | cons d rest ih =>
    cases es with
    | nil => cases same
    | cons e others =>
      obtain ⟨first, later⟩ := List.cons.inj same
      rw [List.forall_mem_cons] at here here'
      rw [unplaced, List.map_cons, Diagnostic.unplaced_eq_of_plain first here.1 here'.1]
      exact congrArg _ (ih later here.2 here'.2)

end Diagnostics

end IsoLiteral
