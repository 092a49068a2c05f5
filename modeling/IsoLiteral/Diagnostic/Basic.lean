import IsoLiteral.Diagnostic.Kind
import IsoLiteral.Text.Range

/-!
# Diagnostics

A diagnostic is a kind with its message, the place it is about, places related to it, and hints. A
problem of the schema document has no place in any literal.
-/

namespace IsoLiteral

/-- A further place that a diagnostic points at. -/
structure RelatedPlace where
  span : Span
  message : String
deriving DecidableEq, Repr

/-- One reported problem. -/
structure Diagnostic where
  kind : DiagnosticKind
  span : Option Span
  message : String
  related : List RelatedPlace
  hints : List String
deriving DecidableEq, Repr

/-- The diagnostics of a run, in the order they were reported. -/
abbrev Diagnostics := List Diagnostic

namespace Diagnostic

/-- A diagnostic with the standard wording and hint of its kind. -/
def ofKind (kind : DiagnosticKind) (span : Option Span) : Diagnostic :=
  { kind, span, message := kind.message none, related := [], hints := kind.defaultHint?.toList }

/-- A diagnostic about a range of one literal. -/
def located (source : Nat) (kind : DiagnosticKind) (range : TextRange) : Diagnostic :=
  ofKind kind (some ⟨source, range⟩)

/-- A diagnostic that has no place in any literal. -/
def unlocated (kind : DiagnosticKind) : Diagnostic := ofKind kind none

/-- The diagnostic with the wording of its kind around a detail. -/
def withDetail (d : Diagnostic) (detail : String) : Diagnostic :=
  { d with message := d.kind.message (some detail) }

/-- The diagnostic pointing also at another range of its literal; without a place of its own it
stays as it is. -/
def relatedTo (d : Diagnostic) (message : String) (range : TextRange) : Diagnostic :=
  match d.span with
  | some span => { d with related := d.related ++ [⟨⟨span.source, range⟩, message⟩] }
  | none => d

/-- The diagnostic with one more hint. -/
def withHint (d : Diagnostic) (hint : String) : Diagnostic := { d with hints := d.hints ++ [hint] }

/-- The severity of the diagnostic's kind. -/
def severity (d : Diagnostic) : Severity := d.kind.severity

/-- Whether the diagnostic makes the run fail. -/
def isError (d : Diagnostic) : Bool := d.severity = .error

/-- Whether the diagnostic is only a warning. -/
def isWarning (d : Diagnostic) : Bool := d.severity = .warning

/-- Whether the diagnostic is about the literal with the given index. -/
def isIn (d : Diagnostic) (source : Nat) : Bool := d.span.any (·.source = source)

@[simp] theorem isError_located (source : Nat) (kind : DiagnosticKind) (range : TextRange) :
    (located source kind range).isError = decide (kind.severity = .error) := rfl

@[simp] theorem isError_withDetail (d : Diagnostic) (detail : String) :
    (d.withDetail detail).isError = d.isError := rfl

@[simp] theorem isError_relatedTo (d : Diagnostic) (message : String) (range : TextRange) :
    (d.relatedTo message range).isError = d.isError := by
  rw [relatedTo]
  split <;> rfl

@[simp] theorem isError_withHint (d : Diagnostic) (hint : String) :
    (d.withHint hint).isError = d.isError := rfl

@[simp] theorem isIn_located (source : Nat) (kind : DiagnosticKind) (range : TextRange) :
    (located source kind range).isIn source = true := decide_eq_true rfl

@[simp] theorem isIn_withDetail (d : Diagnostic) (detail : String) (source : Nat) :
    (d.withDetail detail).isIn source = d.isIn source := rfl

@[simp] theorem isIn_relatedTo (d : Diagnostic) (message : String) (range : TextRange) (source : Nat) :
    (d.relatedTo message range).isIn source = d.isIn source := by
  rw [relatedTo]
  split <;> rfl

@[simp] theorem isIn_withHint (d : Diagnostic) (hint : String) (source : Nat) :
    (d.withHint hint).isIn source = d.isIn source := rfl

end Diagnostic

namespace Diagnostics

/-- Whether one of the diagnostics is an error. -/
def hasErrors (ds : Diagnostics) : Bool := ds.any Diagnostic.isError

/-- Whether one of the diagnostics is a warning. -/
def hasWarnings (ds : Diagnostics) : Bool := ds.any Diagnostic.isWarning

/-- The number of errors. -/
def errorCount (ds : Diagnostics) : Nat := ds.countP Diagnostic.isError

/-- The number of warnings. -/
def warningCount (ds : Diagnostics) : Nat := ds.countP Diagnostic.isWarning

/-- Whether one of the diagnostics is an error about the literal with the given index. -/
def hasErrorsIn (ds : Diagnostics) (source : Nat) : Bool :=
  ds.any fun d => d.isError && d.isIn source

theorem hasErrors_append (ds es : Diagnostics) :
    hasErrors (ds ++ es) = (ds.hasErrors || es.hasErrors) := List.any_append

end Diagnostics

end IsoLiteral
