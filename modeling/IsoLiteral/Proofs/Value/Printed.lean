import IsoLiteral.Proofs.Syntax.Scanning
import IsoLiteral.Proofs.Value.Shape

/-!
# Printed literals

A name, a number and a string are each printed as one token, and the token tells what was printed: the
digits of an integer do not start with a zero that would end the token early, no character of a string is
printed as a quote or a line end of its own, and resolving the escapes of a printed string gives it back.
-/

namespace IsoLiteral

open Lexer

variable {c : Char} {rest : List Char}

/-! ## First characters -/

theorem not_isDigit_of_startsIdentifier (letter : startsIdentifier c = true) : c.isDigit = false := by
  simp only [startsIdentifier, Char.isAlpha, Char.isUpper, Char.isLower, Char.isDigit, Bool.or_eq_true,
    Bool.and_eq_true, decide_eq_true_eq, UInt32.le_iff_toNat_le, ge_iff_le, Char.reduceVal,
    UInt32.reduceToNat] at letter ⊢
  rw [Bool.and_eq_false_iff, decide_eq_false_iff_not, decide_eq_false_iff_not]
  rcases letter with letter | rfl
  · omega
  · decide

/-- A letter or an underscore starts an identifier. -/
theorem longestMatch_letter (letter : startsIdentifier c = true) (rest : List Char) :
    longestMatch c rest = ⟨some .identifier, runLength continuesIdentifier rest⟩ := by
  have other (d : Char) (none : startsIdentifier d = false) : c ≠ d := by
    rintro rfl
    rw [letter] at none
    cases none
  unfold longestMatch
  rw [if_neg (other _ rfl), if_neg (other _ rfl), if_neg, if_neg (other _ rfl), if_neg (other _ rfl),
    if_neg (other _ rfl), if_neg (by simp [not_isDigit_of_startsIdentifier letter]), if_pos letter]
  simp [other ' ' rfl, other '\t' rfl]

/-- A digit starts a number. -/
theorem longestMatch_digit (digit : c.isDigit = true) (rest : List Char) :
    longestMatch c rest = ⟨some (numberMatch (c :: rest)).2, (numberMatch (c :: rest)).1 - 1⟩ := by
  have other (d : Char) (none : d.isDigit = false) : c ≠ d := by
    rintro rfl
    rw [digit] at none
    cases none
  unfold longestMatch
  rw [if_neg (other _ rfl), if_neg (other _ rfl), if_neg, if_neg (other _ rfl), if_neg (other _ rfl),
    if_neg (other _ rfl), if_pos digit]
  simp [other ' ' rfl, other '\t' rfl]

/-! ## Names -/

theorem runLength_of_all {p : Char → Bool} {text : List Char} (all : text.all p = true) :
    runLength p text = text.length := by
  rw [runLength, List.takeWhile_eq_self_iff.2 (List.all_eq_true.1 all)]

theorem isToken_name {name : String} (named : isName name = true) : IsToken .identifier name.toList := by
  unfold isName TypeExpr.isIdentifier at named
  split at named
  · cases named
  · rename_i c rest chars
    obtain ⟨first, others⟩ := Bool.and_eq_true_iff.1 named
    have continues : rest.all continuesIdentifier = true := by
      rw [← others]
      congr 1
      funext d
      simp only [continuesIdentifier, startsIdentifier, Char.isAlphanum]
      cases d.isAlpha <;> cases d.isDigit <;> simp
    refine ⟨c, rest, chars, ?_⟩
    rw [longestMatch_letter first, runLength_of_all continues]

/-! ## Numbers -/

theorem isToken_float {text : String} (float : isFloatText text = true) :
    IsToken .floatValue text.toList := by
  unfold isFloatText at float
  split at float
  · cases float
  · rename_i c rest chars
    exact ⟨c, rest, chars, of_decide_eq_true float⟩

theorem head_toDigits {n : Nat} (positive : 0 < n) : (Nat.toDigits 10 n).head? ≠ some '0' := by
  induction n using Nat.strongRecOn with
  | _ n ih =>
    by_cases small : n < 10
    · have first : ∀ m < 10, 0 < m → (Nat.toDigits 10 m).head? ≠ some '0' := by decide
      exact first n small positive
    · rw [Nat.toDigits_of_base_le (by decide) (by omega), List.head?_append_of_ne_nil _ Nat.toDigits_ne_nil]
      exact ih (n / 10) (by omega) (by omega)

/-- The digits of a number are one integer. -/
theorem numberMatch_toDigits (n : Nat) :
    numberMatch (Nat.toDigits 10 n) = ((Nat.toDigits 10 n).length, .intValue) := by
  have digits : (Nat.toDigits 10 n).all Char.isDigit = true :=
    List.all_eq_true.2 fun c member => Nat.isDigit_of_mem_toDigits (by decide) (by decide) member
  have whole : integerLength (Nat.toDigits 10 n) = (Nat.toDigits 10 n).length := by
    rcases Nat.eq_zero_or_pos n with rfl | positive
    · rfl
    · have first := head_toDigits positive
      generalize Nat.toDigits 10 n = text at digits first ⊢
      cases text with
      | nil => rfl
      | cons c rest =>
        have nonzero : c ≠ '0' := by simpa using first
        rw [integerLength_of_ne nonzero, runLength_of_all digits]
  unfold numberMatch
  dsimp only
  rw [whole, List.drop_length, show fractionLength [] = 0 from rfl, Nat.add_zero, List.drop_length]
  simp [exponentLength]

theorem isToken_natural (n : Nat) : IsToken .intValue (Nat.toDigits 10 n) := by
  have number := numberMatch_toDigits n
  have digit : ∀ c ∈ Nat.toDigits 10 n, c.isDigit = true := fun c member =>
    Nat.isDigit_of_mem_toDigits (by decide) (by decide) member
  have nonempty : Nat.toDigits 10 n ≠ [] := Nat.toDigits_ne_nil
  generalize Nat.toDigits 10 n = text at number digit nonempty
  cases text with
  | nil => exact absurd rfl nonempty
  | cons c rest =>
    refine ⟨c, rest, rfl, ?_⟩
    rw [longestMatch_digit (digit c (by simp)), number]
    rfl

theorem isToken_integer (i : Int) : IsToken .intValue (toString i).toList := by
  rw [Int.toString_eq_repr]
  cases i with
  | ofNat n =>
    rw [Int.repr, Nat.toList_repr]
    exact isToken_natural n
  | negSucc n =>
    refine ⟨'-', Nat.toDigits 10 n.succ, ?_, ?_⟩
    · rw [Int.repr, String.toList_append, Nat.toList_repr]
      rfl
    · have positive : (Nat.toDigits 10 n.succ).length ≠ 0 := by simp
      simp only [longestMatch, numberMatch_toDigits]
      exact if_neg positive

theorem naturalOf_toDigits (n : Nat) : Lowering.naturalOf (Nat.toDigits 10 n) = n := by
  have same : Lowering.naturalOf (Nat.toDigits 10 n) = Nat.ofDigitChars 10 (Nat.toDigits 10 n) 0 := by
    unfold Lowering.naturalOf Nat.ofDigitChars
    congr 1
    funext m c
    rw [Nat.mul_comm]
    rfl
  rw [same, Nat.ofDigitChars_ten_toDigits]

/-- An integer is read back from its digits. -/
theorem integerOf_toString (i : Int) : Lowering.integerOf (toString i) = i := by
  rw [Int.toString_eq_repr]
  cases i with
  | ofNat n =>
    have unsigned : ∀ digits, Nat.toDigits 10 n ≠ '-' :: digits := by
      intro digits same
      have digit := Nat.isDigit_of_mem_toDigits (b := 10) (n := n) (c := '-') (by decide) (by decide)
        (by rw [same]; simp)
      cases digit
    rw [Int.repr, Lowering.integerOf, Nat.toList_repr]
    split
    · rename_i digits same
      exact absurd same (unsigned digits)
    · rw [naturalOf_toDigits]
      rfl
  | negSucc n =>
    have chars : (Int.negSucc n).repr.toList = '-' :: Nat.toDigits 10 n.succ := by
      rw [Int.repr, String.toList_append, Nat.toList_repr]
      rfl
    rw [Lowering.integerOf, chars]
    show -(Lowering.naturalOf (Nat.toDigits 10 n.succ) : Int) = _
    rw [naturalOf_toDigits]
    rfl

/-! ## Strings -/

namespace Value

/-- The characters that a letter or another character stands for after a backslash. -/
def letterEscapes : List (Char × Char) := [('"', '"'), ('\\', '\\'), ('\n', 'n'), ('\r', 'r'), ('\t', 't')]

/-- How a character is printed in a string: as itself, after a backslash, or by its code. -/
inductive Escaped : Char → List Char → Prop
  | plain {c : Char} : c ≠ '"' → c ≠ '\\' → c ≠ '\n' → Escaped c [c]
  | letter {c d : Char} : (c, d) ∈ letterEscapes → Escaped c ['\\', d]
  | code {c : Char} : c.toNat < 0x20 →
    Escaped c ['\\', 'u', '0', '0', hexDigit (c.toNat / 16), hexDigit (c.toNat % 16)]

theorem escaped_escapedChar (c : Char) : Escaped c (escapedChar c) := by
  unfold escapedChar
  split_ifs with quote backslash line carriage tab control
  · exact .letter (by simp [letterEscapes, quote])
  · exact .letter (by simp [letterEscapes, backslash])
  · exact .letter (by simp [letterEscapes, line])
  · exact .letter (by simp [letterEscapes, carriage])
  · exact .letter (by simp [letterEscapes, tab])
  · exact .code control
  · exact .plain quote backslash line

namespace Escaped

variable {printed : List Char}

/-- What is printed does not start with a quote. -/
theorem exists_cons (escaped : Escaped c printed) : ∃ d rest, printed = d :: rest ∧ d ≠ '"' := by
  cases escaped with
  | plain quote _ _ => exact ⟨c, [], rfl, quote⟩
  | letter _ => exact ⟨_, _, rfl, by decide⟩
  | code _ => exact ⟨_, _, rfl, by decide⟩

/-- What is printed neither closes the string around it nor ends its line. -/
theorem stringLength_append (escaped : Escaped c printed) (rest : List Char) :
    stringLength (printed ++ rest) = ((stringLength rest).1 + printed.length, (stringLength rest).2) := by
  cases escaped with
  | plain quote backslash line => exact stringLength_plain quote line backslash rest
  | letter listed =>
    refine stringLength_escape _ ?_ rest
    rintro rfl
    simp [letterEscapes] at listed
  | code control =>
    have plain : ∀ n < 16, hexDigit n ≠ '"' ∧ hexDigit n ≠ '\n' ∧ hexDigit n ≠ '\\' := by decide
    obtain ⟨quote, line, backslash⟩ := plain (c.toNat / 16) (by omega)
    obtain ⟨quote', line', backslash'⟩ := plain (c.toNat % 16) (by omega)
    simp only [List.cons_append, List.nil_append]
    rw [stringLength_escape 'u' (by decide), stringLength_plain (by decide) (by decide) (by decide),
      stringLength_plain (by decide) (by decide) (by decide), stringLength_plain quote line backslash,
      stringLength_plain quote' line' backslash']
    rfl

theorem codePoint?_hexDigits :
    ∀ n < 32, Text.codePoint? ['0', '0', hexDigit (n / 16), hexDigit (n % 16)] = some (Char.ofNat n) := by
  decide

/-- What is printed stands for the character. -/
theorem unescape_append (escaped : Escaped c printed) (rest : List Char) :
    Text.unescape (printed ++ rest) = c :: Text.unescape rest := by
  cases escaped with
  | plain _ backslash _ =>
    rw [List.singleton_append, Text.unescape]
    -- the other clauses all begin with a backslash
    all_goals simp [backslash]
  | letter listed =>
    simp only [letterEscapes, List.mem_cons, Prod.mk.injEq, List.not_mem_nil, or_false] at listed
    rcases listed with ⟨rfl, rfl⟩ | ⟨rfl, rfl⟩ | ⟨rfl, rfl⟩ | ⟨rfl, rfl⟩ | ⟨rfl, rfl⟩
    all_goals rfl
  | code control =>
    have decoded := codePoint?_hexDigits c.toNat control
    rw [Char.ofNat_toNat] at decoded
    simp only [List.cons_append, List.nil_append]
    rw [Text.unescape, decoded]
    rfl

end Escaped

/-- The characters of a string value between its quotes. -/
def printedChars (s : String) : List Char := s.toList.flatMap escapedChar

theorem toList_quotedString (s : String) : (quotedString s).toList = '"' :: (printedChars s ++ ['"']) := by
  rw [quotedString, String.toList_ofList]
  rfl

theorem stringLength_printed (chars after : List Char) :
    stringLength (chars.flatMap escapedChar ++ '"' :: after) =
      ((chars.flatMap escapedChar).length + 1, true) := by
  induction chars with
  | nil => rfl
  | cons c rest ih =>
    rw [List.flatMap_cons, List.append_assoc, (escaped_escapedChar c).stringLength_append, ih,
      List.length_append, Nat.add_right_comm, Nat.add_comm (escapedChar c).length]

theorem unescape_printed (chars : List Char) : Text.unescape (chars.flatMap escapedChar) = chars := by
  induction chars with
  | nil => rfl
  | cons c rest ih => rw [List.flatMap_cons, (escaped_escapedChar c).unescape_append, ih]

end Value

open Value

/-- A string value is one token, the empty one too. -/
theorem isToken_string (s : String) : IsToken .stringValue (quotedString s).toList := by
  have closed := stringLength_printed s.toList []
  have plain : ∀ body, printedChars s ++ ['"'] ≠ '"' :: '"' :: body := by
    intro body same
    unfold printedChars at same
    cases chars : s.toList with
    | nil =>
      rw [chars] at same
      cases same
    | cons c rest =>
      obtain ⟨d, others, printed, other⟩ := (escaped_escapedChar c).exists_cons
      rw [chars, List.flatMap_cons, printed] at same
      exact other (List.cons.inj same).1
  refine ⟨'"', _, toList_quotedString s, ?_⟩
  show quoteMatch _ = _
  rw [quoteMatch_plain plain, printedChars, closed]
  simp

/-- A string is read back from its printed form. -/
theorem stringContents_quotedString (s : String) : Text.stringContents (quotedString s) = s := by
  have inner : Text.betweenQuotes 1 (quotedString s).toList = printedChars s := by
    rw [toList_quotedString, Text.betweenQuotes, if_neg (by simp)]
    simp
  rw [Text.stringContents, inner, printedChars, unescape_printed, String.ofList_toList]

end IsoLiteral
