import IsoLiteral.Diagnostic.Basic
import IsoLiteral.Flags

/-!
# Dropping diagnostics that follow from others

One mistake in a literal often makes the grammar report several problems. Between two parse errors
of one literal the more telling one is kept: at the same offset a root cause hides an error of
structure and otherwise the rank decides, and a range hides a lower-ranked one strictly inside it.
The diagnostics have their turns in order, and in a turn every other one is looked at; one that is
hidden already neither hides anything nor is looked at again.
-/

namespace IsoLiteral

/-- Whether one diagnostic makes another one superfluous. -/
def Diagnostic.hides (a b : Diagnostic) : Bool :=
  match a.span, b.span with
  | some sa, some sb =>
    sa.source = sb.source &&
      if sa.range.start = sb.range.start then a.kind.outranksAtSamePosition b.kind
      else sa.range.strictlyContains sb.range && a.kind.suppresses b.kind
  | _, _ => false

namespace Diagnostics

variable (ds : Diagnostics)

/-- Looks at a diagnostic in the turn of another one. The flags say what is hidden. -/
def lookAt (turn : Fin ds.length) (flags : Flags ds.length) (place : Fin ds.length) : Flags ds.length :=
  if turn = place || flags.get turn || flags.get place then flags
  else if (ds.get turn).hides (ds.get place) then flags.raise place
  else flags

/-- The turn of a diagnostic. -/
def takeTurn (flags : Flags ds.length) (turn : Fin ds.length) : Flags ds.length :=
  (List.finRange ds.length).foldl (lookAt ds turn) flags

/-- Which diagnostics are hidden after all turns. -/
def hidden : Flags ds.length :=
  (List.finRange ds.length).foldl (takeTurn ds) (.none ds.length)

/-- The diagnostics without those that follow from others. -/
def filtered : Diagnostics :=
  ((ds.zip (hidden ds).toList).filter (!·.2)).map (·.1)

end Diagnostics

end IsoLiteral
