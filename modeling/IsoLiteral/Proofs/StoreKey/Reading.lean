import IsoLiteral.Proofs.StoreKey.Words
import IsoLiteral.Proofs.Value.Shape

/-!
# Reading text back

Text is read from its words up to the first word that is no escaped byte. So a text is determined by
its words wherever the word after them cannot be taken for an escaped byte. A key of an object follows
the text of the value before it, and one that is spelled like an escaped byte is taken for one.
-/

namespace IsoLiteral

/-! ## Reading text -/

/-- A word that stands for an escaped byte. -/
def IsEscape (word : Word) : Prop := ∃ byte, word = escapeWord byte

/-- Text ends where no escaped byte follows. -/
def Ends (rest : List Word) : Prop := ∀ word ∈ rest.head?, ¬ IsEscape word

theorem not_isEscape_of_length {word : Word} (short : word.length ≠ 3) : ¬ IsEscape word := by
  rintro ⟨byte, rfl⟩
  exact short rfl

theorem ends_nil : Ends [] := by simp [Ends]

theorem ends_cons {word : Word} {rest : List Word} (plain : ¬ IsEscape word) :
    Ends (word :: rest) := by
  simpa [Ends] using plain

theorem not_ends_escapeWord (byte : UInt8) (rest : List Word) : ¬ Ends (escapeWord byte :: rest) := by
  intro ends
  exact ends (escapeWord byte) rfl ⟨byte, rfl⟩

theorem hexDigit_injective : ∀ m < 16, ∀ n < 16, Value.hexDigit m = Value.hexDigit n → m = n := by
  decide

theorem escapeWord_injective {a b : UInt8} (same : escapeWord a = escapeWord b) : a = b := by
  simp only [escapeWord, List.cons.injEq, and_true, true_and] at same
  have ha := a.toNat_lt
  have hb := b.toNat_lt
  have high := hexDigit_injective _ (by omega) _ (by omega) same.1
  have low := hexDigit_injective _ (Nat.mod_lt _ (by decide)) _ (Nat.mod_lt _ (by decide)) same.2
  apply UInt8.toNat_inj.mp
  omega

theorem ofNat_byte_injective {a b : UInt8} (same : Char.ofNat a.toNat = Char.ofNat b.toNat) :
    a = b := by
  apply UInt8.toNat_inj.mp
  rw [← toNat_ofNat_byte a, same, toNat_ofNat_byte b]

/-- The first of a text's words takes another character in front and leaves the rest alone. -/
theorem consChar_append (c : Char) {words : List Word} (nonempty : words ≠ []) (rest : List Word) :
    consChar c words ++ rest = consChar c (words ++ rest) := by
  cases words with
  | nil => exact absurd rfl nonempty
  | cons word words => rfl

theorem consChar_injective {c d : Char} {words others : List Word} (left : words ≠ [])
    (right : others ≠ []) (same : consChar c words = consChar d others) : c = d ∧ words = others := by
  cases words with
  | nil => exact absurd rfl left
  | cons word words =>
    cases others with
    | nil => exact absurd rfl right
    | cons other others => simp_all [consChar]

theorem consChar_ne_nil_cons (c : Char) {words : List Word} (nonempty : words ≠ [])
    (rest : List Word) : consChar c words ≠ [] :: rest := by
  cases words with
  | nil => exact absurd rfl nonempty
  | cons word words => simp [consChar]

/-- The words of bytes and what follows them determine each other, if no escaped byte follows. -/
theorem byteWords_append_injective (left : List UInt8) :
    ∀ {right : List UInt8} {rest rest' : List Word}, Ends rest → Ends rest' →
      byteWords left ++ rest = byteWords right ++ rest' → left = right ∧ rest = rest' := by
  induction left with
  | nil =>
    intro right rest rest' ends ends' same
    cases right with
    | nil => simpa [byteWords] using same
    | cons b right =>
      simp only [byteWords] at same
      split at same
      · rw [consChar_append _ (byteWords_ne_nil right)] at same
        exact absurd same.symm (consChar_ne_nil_cons _ (by simp [byteWords_ne_nil]) _)
      · simp only [List.cons_append, List.nil_append, List.cons.injEq, true_and] at same
        exact absurd (same ▸ ends) (not_ends_escapeWord b _)
  | cons a left ih =>
    intro right rest rest' ends ends' same
    cases right with
    | nil =>
      simp only [byteWords] at same
      split at same
      · rw [consChar_append _ (byteWords_ne_nil left)] at same
        exact absurd same (consChar_ne_nil_cons _ (by simp [byteWords_ne_nil]) _)
      · simp only [List.cons_append, List.nil_append, List.cons.injEq, true_and] at same
        exact absurd (same.symm ▸ ends') (not_ends_escapeWord a _)
    | cons b right =>
      have nonempty := byteWords_ne_nil left
      have nonempty' := byteWords_ne_nil right
      simp only [byteWords] at same
      split at same <;> split at same
      · rw [consChar_append _ nonempty, consChar_append _ nonempty'] at same
        obtain ⟨char, tail⟩ := consChar_injective (by simp [nonempty]) (by simp [nonempty']) same
        obtain ⟨rfl, rfl⟩ := ih ends ends' tail
        exact ⟨by rw [ofNat_byte_injective char], rfl⟩
      · rw [consChar_append _ nonempty] at same
        exact absurd same (consChar_ne_nil_cons _ (by simp [nonempty]) _)
      · rw [consChar_append _ nonempty'] at same
        exact absurd same.symm (consChar_ne_nil_cons _ (by simp [nonempty']) _)
      · simp only [List.cons_append, List.cons.injEq, true_and] at same
        obtain ⟨rfl, rfl⟩ := ih ends ends' same.2
        exact ⟨by rw [escapeWord_injective same.1], rfl⟩

theorem utf8Bytes_injective {s t : String} (same : s.toByteArray.toList = t.toByteArray.toList) :
    s = t := by
  rw [byteArray_toList_eq_data, byteArray_toList_eq_data] at same
  exact String.toByteArray_inj.1 (ByteArray.ext (Array.toList_inj.1 same))

/-- The words of a text and what follows them determine each other, if no escaped byte follows. -/
theorem textWords_append_injective {s t : String} {rest rest' : List Word} (ends : Ends rest)
    (ends' : Ends rest') (same : textWords s ++ rest = textWords t ++ rest') : s = t ∧ rest = rest' := by
  obtain ⟨bytes, tail⟩ := byteWords_append_injective _ ends ends' same
  exact ⟨utf8Bytes_injective bytes, tail⟩

/-! ## Keys of objects -/

/-- Whether a key of an object is spelled like an escaped byte: an `x` and two uppercase hexadecimal
digits, and then nothing or an underscore. -/
def looksEscaped (key : String) : Bool :=
  match key.toList with
  | 'x' :: high :: low :: rest =>
    isUpperHex high && isUpperHex low && (rest.isEmpty || rest.head? = some '_')
  | _ => false
where
  isUpperHex (c : Char) : Bool := c.isDigit || ('A' ≤ c && c ≤ 'F')

/-- The characters of an identifier. -/
def isNameChar (c : Char) : Bool := c.isAlphanum || c = '_'

theorem all_isNameChar {key : String} (name : isName key = true) : key.toList.all isNameChar = true := by
  unfold isName TypeExpr.isIdentifier at name
  split at name
  · cases name
  · rename_i c rest chars
    rw [Bool.and_eq_true] at name
    rw [chars, List.all_cons, Bool.and_eq_true]
    refine ⟨?_, name.2⟩
    have first := name.1
    simp only [isNameChar, Char.isAlphanum, Bool.or_eq_true] at first ⊢
    rcases first with letter | underscore
    · exact .inl (.inl letter)
    · exact .inr underscore

theorem toNat_lt_of_isNameChar {c : Char} (name : isNameChar c = true) : c.toNat < 128 := by
  have value : c.toNat = c.val.toNat := rfl
  simp only [isNameChar, Char.isAlphanum, Char.isAlpha, Char.isUpper, Char.isLower, Char.isDigit,
    Bool.or_eq_true, Bool.and_eq_true, decide_eq_true_eq, UInt32.le_iff_toNat_le, ge_iff_le,
    Char.reduceVal, UInt32.reduceToNat] at name
  rcases name with ((upper | lower) | digit) | rfl
  · omega
  · omega
  · omega
  · decide

/-- A character of an identifier is one byte, which is escaped exactly when it is an underscore. -/
theorem byte_of_isNameChar {c : Char} (name : isNameChar c = true) :
    ∃ byte : UInt8, String.utf8EncodeChar c = [byte] ∧ Char.ofNat byte.toNat = c ∧
      isAliasByte byte = c.isAlphanum := by
  have ascii : ∀ n < 128, isNameChar (Char.ofNat n) = true →
      String.utf8EncodeChar (Char.ofNat n) = [UInt8.ofNat n] ∧
        Char.ofNat (UInt8.ofNat n).toNat = Char.ofNat n ∧
        isAliasByte (UInt8.ofNat n) = (Char.ofNat n).isAlphanum := by decide +kernel
  have here := ascii c.toNat (toNat_lt_of_isNameChar name)
  rw [Char.ofNat_toNat] at here
  exact ⟨UInt8.ofNat c.toNat, here name⟩

/-- The first word of an identifier is its run of letters and digits. -/
theorem takeWhile_bytes {chars : List Char} (names : chars.all isNameChar = true) :
    ((chars.flatMap String.utf8EncodeChar).takeWhile isAliasByte).map
      (fun byte => Char.ofNat byte.toNat) = chars.takeWhile Char.isAlphanum := by
  induction chars with
  | nil => rfl
  | cons c rest ih =>
    rw [List.all_cons, Bool.and_eq_true] at names
    obtain ⟨byte, encoded, char, plain⟩ := byte_of_isNameChar names.1
    rw [List.flatMap_cons, encoded, List.singleton_append, List.takeWhile_cons, List.takeWhile_cons,
      plain]
    cases c.isAlphanum with
    | false => rfl
    | true => simp [char, ih names.2]

theorem byteWords_head (bytes : List UInt8) :
    (byteWords bytes).head? =
      some ((bytes.takeWhile isAliasByte).map fun byte => Char.ofNat byte.toNat) := by
  induction bytes with
  | nil => rfl
  | cons byte rest ih =>
    rw [byteWords, List.takeWhile_cons]
    cases isAliasByte byte with
    | false => rfl
    | true =>
      have nonempty := byteWords_ne_nil rest
      revert ih nonempty
      cases byteWords rest with
      | nil => simp
      | cons word words =>
        intro ih _
        simpa [consChar] using ih

theorem textWords_head {key : String} (name : isName key = true) :
    (textWords key).head? = some (key.toList.takeWhile Char.isAlphanum) := by
  rw [textWords, byteWords_head, toByteArray_toList, takeWhile_bytes (all_isNameChar name)]

theorem isUpperHex_hexDigit : ∀ n < 16, looksEscaped.isUpperHex (Value.hexDigit n) = true := by decide

/-- A key that does not look like an escaped byte cannot be taken for one. -/
theorem ends_textWords {key : String} (name : isName key = true) (plain : looksEscaped key = false) :
    Ends (textWords key) := by
  intro word first
  rw [textWords_head name, Option.mem_some_iff] at first
  rintro ⟨byte, rfl⟩
  have small := byte.toNat_lt
  have high := isUpperHex_hexDigit (byte.toNat / 16) (by omega)
  have low := isUpperHex_hexDigit (byte.toNat % 16) (Nat.mod_lt _ (by decide))
  have split := List.takeWhile_append_dropWhile (p := Char.isAlphanum) (l := key.toList)
  have stop := List.head?_dropWhile_not Char.isAlphanum key.toList
  rw [first] at split
  generalize key.toList.dropWhile Char.isAlphanum = tail at split stop
  have names := all_isNameChar name
  rw [← split, List.all_append, Bool.and_eq_true] at names
  have closed : tail.isEmpty = true ∨ tail.head? = some '_' := by
    cases tail with
    | nil => exact .inl rfl
    | cons c tail =>
      simp only [List.all_cons, isNameChar, Bool.and_eq_true, Bool.or_eq_true] at names
      simp only [List.head?_cons] at stop
      simp_all
  rw [looksEscaped, ← split] at plain
  simp only [escapeWord, List.cons_append, List.nil_append, high, low, Bool.true_and,
    Bool.or_eq_false_iff, decide_eq_false_iff_not] at plain
  rcases closed with empty | underscore
  · rw [empty] at plain
    exact absurd plain.1 (by decide)
  · exact plain.2 underscore

end IsoLiteral
