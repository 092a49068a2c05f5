/-!
# Characters with no form of their own

Controls, format characters, separators, surrogates and private use, together with the rest of the
characters that Unicode calls default ignorable, which a display leaves out: the tags, the variation
selectors and the fillers that stand for a missing Hangul letter. The plain space is the one
separator that is not among them.
-/

namespace IsoLiteral.Text

/-- The code points of the general categories `Cc`, `Cf`, `Cs`, `Co`, `Zl`, `Zp` and `Zs`, the plain
space apart, and of the property `Default_Ignorable_Code_Point`, as closed ranges in increasing
order. -/
def invisibleRanges : List (Nat × Nat) :=
  [(0x0, 0x1F), (0x7F, 0xA0), (0xAD, 0xAD), (0x34F, 0x34F), (0x600, 0x605), (0x61C, 0x61C),
   (0x6DD, 0x6DD), (0x70F, 0x70F), (0x890, 0x891), (0x8E2, 0x8E2), (0x115F, 0x1160),
   (0x1680, 0x1680), (0x17B4, 0x17B5), (0x180B, 0x180F), (0x2000, 0x200F), (0x2028, 0x202F),
   (0x205F, 0x206F), (0x3000, 0x3000), (0x3164, 0x3164), (0xD800, 0xF8FF), (0xFE00, 0xFE0F),
   (0xFEFF, 0xFEFF), (0xFFA0, 0xFFA0), (0xFFF0, 0xFFFB), (0x110BD, 0x110BD), (0x110CD, 0x110CD),
   (0x13430, 0x1343F), (0x1BCA0, 0x1BCA3), (0x1D173, 0x1D17A), (0xE0000, 0xE0FFF),
   (0xF0000, 0xFFFFD), (0x100000, 0x10FFFD)]

end IsoLiteral.Text
