import IsoLiteral.Declaration.OfTree
import Mathlib

/-!
# Shapes of values

The values that a literal can write down: names are identifiers, integers fit 64 bits, a float is the
text of one float token, and an enum value is not one of the words that stand for another value. The
printed forms of the plain literals tell them apart.
-/

namespace IsoLiteral

/-- Whether a text is the text of one float token. -/
def isFloatText (text : String) : Bool :=
  match text.toList with
  | [] => false
  | c :: rest => Lexer.longestMatch c rest = ⟨some .floatValue, rest.length⟩

/-- Whether a text is an identifier. -/
def isName (text : String) : Bool := TypeExpr.isIdentifier text.toList

namespace Value

mutual
/-- Whether a value is one that a literal can write down. -/
def isShaped : Value → Bool
  | .variable name => isName name
  | .int i => Lowering.fitsInt64 i
  | .float text => isFloatText text
  | .string _ | .boolean _ | .null => true
  | .enum name => isName name && name ≠ "true" && name ≠ "false" && name ≠ "null"
  | .list items => areShaped items
  | .object fields => areShapedFields fields
termination_by structural v => v
/-- Whether all values are ones that a literal can write down. -/
def areShaped : List Value → Bool
  | [] => true
  | v :: rest => v.isShaped && areShaped rest
termination_by structural vs => vs
/-- Whether all names are identifiers and all values are ones that a literal can write down. -/
def areShapedFields : List (String × Value) → Bool
  | [] => true
  | (key, v) :: rest => isName key && v.isShaped && areShapedFields rest
termination_by structural fs => fs
end

end Value

/-! ## Plain literals -/

/-- The characters of a number without fraction and exponent. -/
def isIntegerChar (c : Char) : Bool := c.isDigit || c = '-'

theorem all_isIntegerChar_repr (n : Nat) : n.repr.toList.all isIntegerChar = true := by
  rw [List.all_eq_true]
  intro c member
  have digit : c.isDigit = true := by
    rw [Nat.toList_repr] at member
    exact Nat.isDigit_of_mem_toDigits (by decide) (by decide) member
  simp [isIntegerChar, digit]

/-- An integer is written with digits and a sign only. -/
theorem all_isIntegerChar_toString (i : Int) : (toString i).toList.all isIntegerChar = true := by
  rw [Int.toString_eq_repr]
  cases i with
  | ofNat n => exact all_isIntegerChar_repr n
  | negSucc n =>
    have digits := all_isIntegerChar_repr n.succ
    simp only [Int.repr, String.toList_append, List.all_append, digits, Bool.and_true]
    decide

namespace Lexer

theorem fractionLength_pos {text : List Char} (some : fractionLength text ≠ 0) : '.' ∈ text := by
  unfold fractionLength at some
  split at some
  · simp
  · exact absurd rfl some

theorem exponentLength_pos {text : List Char} (some : exponentLength text ≠ 0) :
    'e' ∈ text ∨ 'E' ∈ text := by
  cases text with
  | nil => exact absurd rfl some
  | cons c rest =>
    unfold exponentLength at some
    by_cases letter : (c = 'e' || c = 'E') = true
    · simp only [Bool.or_eq_true, decide_eq_true_eq] at letter
      rcases letter with rfl | rfl <;> simp
    · exact absurd (if_neg letter) some

/-- A float has a character that no integer has. -/
theorem exists_notInteger_of_float {text : List Char}
    (float : (numberMatch text).2 = .floatValue) : ∃ c ∈ text, isIntegerChar c = false := by
  have parts : fractionLength (text.drop (integerLength text)) ≠ 0 ∨
      exponentLength (text.drop (integerLength text +
        fractionLength (text.drop (integerLength text)))) ≠ 0 := by
    by_contra none
    obtain ⟨fraction, exponent⟩ := by rwa [not_or, not_not, not_not] at none
    rw [fraction, Nat.add_zero] at exponent
    simp [numberMatch, fraction, exponent] at float
  rcases parts with fraction | exponent
  · exact ⟨'.', List.mem_of_mem_drop (fractionLength_pos fraction), by decide⟩
  · rcases exponentLength_pos exponent with letter | letter
    · exact ⟨'e', List.mem_of_mem_drop letter, by decide⟩
    · exact ⟨'E', List.mem_of_mem_drop letter, by decide⟩

theorem quoteMatch_ne_float (rest : List Char) : (quoteMatch rest).kind ≠ some .floatValue := by
  unfold quoteMatch
  repeat' split
  all_goals simp

theorem punctuation_ne_float (c : Char) : punctuation? c ≠ some .floatValue := by
  unfold punctuation?
  split <;> simp

/-- What is matched as a float is a number, after a sign or from the first digit on. -/
theorem numberMatch_of_longestMatch {c : Char} {rest : List Char}
    (float : (longestMatch c rest).kind = some .floatValue) :
    (numberMatch rest).2 = .floatValue ∨ (numberMatch (c :: rest)).2 = .floatValue := by
  unfold longestMatch at float
  split at float
  · exact absurd float (quoteMatch_ne_float rest)
  repeat' split at float
  all_goals simp_all [punctuation_ne_float]

end Lexer

theorem exists_notInteger_of_isFloatText {text : String} (float : isFloatText text = true) :
    ∃ c ∈ text.toList, isIntegerChar c = false := by
  unfold isFloatText at float
  split at float
  · cases float
  · rename_i c rest chars
    have kind : (Lexer.longestMatch c rest).kind = some .floatValue := by
      rw [of_decide_eq_true float]
    rw [chars]
    rcases Lexer.numberMatch_of_longestMatch kind with number | number
    · obtain ⟨d, member, other⟩ := Lexer.exists_notInteger_of_float number
      exact ⟨d, List.mem_cons_of_mem c member, other⟩
    · exact Lexer.exists_notInteger_of_float number

/-- No text is both an integer and a float. -/
theorem toString_ne_float (i : Int) {text : String} (float : isFloatText text = true) :
    toString i ≠ text := by
  rintro rfl
  obtain ⟨c, member, other⟩ := exists_notInteger_of_isFloatText float
  have := List.all_eq_true.1 (all_isIntegerChar_toString i) c member
  rw [other] at this
  cases this

theorem toString_ne_word (i : Int) {word : String} (letters : word.toList.all isIntegerChar = false) :
    toString i ≠ word := by
  rintro rfl
  rw [all_isIntegerChar_toString i] at letters
  cases letters

theorem float_ne_word {text word : String} (float : isFloatText text = true)
    (other : isFloatText word = false) : text ≠ word := by
  rintro rfl
  rw [float] at other
  cases other

end IsoLiteral
