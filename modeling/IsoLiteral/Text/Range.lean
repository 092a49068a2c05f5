/-!
# Byte ranges

Positions in a literal are counted in UTF-8 bytes, and a range is half open.
-/

namespace IsoLiteral

/-- A half-open range of UTF-8 byte offsets inside one literal. -/
structure TextRange where
  start : Nat
  stop : Nat
deriving DecidableEq, Repr, Inhabited

namespace TextRange

/-- The range of no bytes at an offset. -/
def empty (offset : Nat) : TextRange := ⟨offset, offset⟩

/-- Whether `outer` begins before `inner` and does not end before it. -/
def strictlyContains (outer inner : TextRange) : Bool :=
  outer.start < inner.start && inner.stop ≤ outer.stop

end TextRange

/-- A range inside the literal with the given index. -/
structure Span where
  source : Nat
  range : TextRange
deriving DecidableEq, Repr, Inhabited

end IsoLiteral
