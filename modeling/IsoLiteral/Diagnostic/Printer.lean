import IsoLiteral.Diagnostic.Basic
import IsoLiteral.Text.Join

/-!
# Diagnostics as text

Each diagnostic has a one-line form with its related places and hints. A dump gives one such line
after another; the plain report adds the hints again on lines of their own.
-/

namespace IsoLiteral

/-- A range as its two offsets. -/
def TextRange.render (r : TextRange) : String := toString r.start ++ ".." ++ toString r.stop

namespace Diagnostic

/-- Severity, place and message. -/
def headline (d : Diagnostic) : String :=
  match d.span with
  | some span => d.severity.text ++ " at " ++ span.range.render ++ ": " ++ d.message
  | none => d.severity.text ++ ": " ++ d.message

/-- A related place in the one-line form. -/
def renderRelated (place : RelatedPlace) : String :=
  " (related: " ++ place.message ++ " at " ++ place.span.range.render ++ ")"

/-- A hint in the one-line form. -/
def renderHint (hint : String) : String := " (hint: " ++ hint ++ ")"

/-- The whole diagnostic on one line. -/
def render (d : Diagnostic) : String :=
  d.headline ++ Text.concat (d.related.map renderRelated) ++ Text.concat (d.hints.map renderHint)

/-- The diagnostic followed by one help line per hint. Without a place, the first line leaves
related places and hints out. -/
def renderPlain (d : Diagnostic) : String :=
  (if d.span.isSome then d.render else d.headline) ++
    Text.concat (d.hints.map ("\nhelp: " ++ ·))

end Diagnostic

namespace Diagnostics

/-- Every diagnostic's one-line form, each followed by a line end. -/
def dump (ds : Diagnostics) : String := Text.concat (ds.map (·.render ++ "\n"))

/-- The plain report of all diagnostics. -/
def renderPlain (ds : Diagnostics) : String := Text.joinWith "\n" (ds.map Diagnostic.renderPlain)

end Diagnostics

end IsoLiteral
