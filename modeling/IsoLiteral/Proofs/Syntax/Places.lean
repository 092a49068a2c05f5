import IsoLiteral.Proofs.Syntax.Partition

/-!
# Places in a text

The tokens of a text stand one after the other without a gap, so a place between two of them is told by the
tokens before it.
-/

namespace IsoLiteral

namespace Token

variable {a b c : Nat} {xs ys : List Token}

theorem spans_append : Spans a (xs ++ ys) c ↔ ∃ b, Spans a xs b ∧ Spans b ys c := by
  induction xs generalizing a with
  | nil => exact ⟨fun spans => ⟨a, rfl, spans⟩, fun ⟨_, same, spans⟩ => same ▸ spans⟩
  | cons t rest ih =>
    constructor
    · rintro ⟨start, spans⟩
      obtain ⟨b, first, second⟩ := ih.1 spans
      exact ⟨b, ⟨start, first⟩, second⟩
    · rintro ⟨b, ⟨start, first⟩, second⟩
      exact ⟨start, ih.2 ⟨b, first, second⟩⟩

theorem spans_singleton {t : Token} : Spans t.start [t] t.stop := ⟨rfl, rfl⟩

theorem start_le_stop (t : Token) : t.start ≤ t.stop := Nat.le_add_right _ _

theorem Spans.le (spans : Spans a xs b) : a ≤ b := by
  induction xs generalizing a with
  | nil => exact le_of_eq spans
  | cons t rest ih =>
    obtain ⟨rfl, spans⟩ := spans
    exact t.start_le_stop.trans (ih spans)

/-- The tokens tell where they stop. -/
theorem Spans.unique (spans : Spans a xs b) (spans' : Spans a xs c) : b = c := by
  induction xs generalizing a with
  | nil => exact spans.symm.trans spans'
  | cons t rest ih => exact ih spans.2 spans'.2

/-- A token stands between the ends of the tokens it is among. -/
theorem Spans.within {t : Token} (spans : Spans a xs b) (member : t ∈ xs) : a ≤ t.start ∧ t.stop ≤ b := by
  obtain ⟨before, after, rfl⟩ := List.append_of_mem member
  obtain ⟨middle, first, rfl, rest⟩ := spans_append.1 spans
  exact ⟨first.le, rest.le⟩

end Token

/-- A place at which a token of the text starts or stops. -/
def TokenBoundary (text : String) (offset : Nat) : Prop :=
  ∃ before after, lex text = before ++ after ∧ Token.Spans 0 before offset

/-- A range of the text that cuts no token. -/
structure TextRange.Cuts (r : TextRange) (text : String) : Prop where
  ordered : r.start ≤ r.stop
  within : r.stop ≤ text.utf8ByteSize
  starts : TokenBoundary text r.start
  stops : TokenBoundary text r.stop

theorem TokenBoundary.le {text : String} {offset : Nat} (boundary : TokenBoundary text offset) :
    offset ≤ text.utf8ByteSize := by
  obtain ⟨before, after, tokens, spans⟩ := boundary
  obtain ⟨middle, first, rest⟩ := Token.spans_append.1 (tokens ▸ (partition_lex text).contiguous)
  exact (spans.unique first).le.trans rest.le

theorem TextRange.Cuts.of_boundaries {text : String} {r : TextRange} (ordered : r.start ≤ r.stop)
    (starts : TokenBoundary text r.start) (stops : TokenBoundary text r.stop) : r.Cuts text :=
  ⟨ordered, stops.le, starts, stops⟩

/-- A token cuts no other one. -/
theorem Token.cuts {text : String} {t : Token} {before after : List Token}
    (tokens : lex text = before ++ t :: after) : t.range.Cuts text := by
  obtain ⟨middle, first, rfl, rest⟩ := Token.spans_append.1 (tokens ▸ (partition_lex text).contiguous)
  refine .of_boundaries t.start_le_stop ⟨before, t :: after, tokens, first⟩ ⟨before ++ [t], after, ?_, ?_⟩
  · rw [tokens, List.append_assoc, List.singleton_append]
  · exact Token.spans_append.2 ⟨_, first, Token.spans_singleton⟩

end IsoLiteral
