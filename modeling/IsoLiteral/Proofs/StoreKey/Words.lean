import IsoLiteral.Declaration.StoreKey

/-!
# Store keys as words

A store key is a row of words with one underscore between neighbours. No word holds an underscore
itself, so the key and its row of words determine each other: whatever two argument lists share a key,
they share their words, and only what the words forget is lost. A run of letters and digits is one
word, an escaped byte is a word of its own, an empty text is an empty word, and a list opens and
closes with the same word.
-/

namespace IsoLiteral

/-- A part of a store key between two underscores. -/
abbrev Word := List Char

/-! ## Free text -/

/-- The word of an escaped byte. -/
def escapeWord (byte : UInt8) : Word :=
  ['x', Value.hexDigit (byte.toNat / 16), Value.hexDigit (byte.toNat % 16)]

/-- Puts a character in front of the first word. -/
def consChar (c : Char) : List Word → List Word
  | [] => [[c]]
  | word :: words => (c :: word) :: words

/-- The words of escaped bytes: what stands between two escaped bytes is one word, even if there is
nothing between them. -/
def byteWords : List UInt8 → List Word
  | [] => [[]]
  | byte :: rest =>
    if isAliasByte byte then consChar (Char.ofNat byte.toNat) (byteWords rest)
    else [] :: escapeWord byte :: byteWords rest

/-- The words of escaped text. -/
def textWords (text : String) : List Word := byteWords text.toByteArray.toList

/-- The key that a row of words spells. -/
def spell (words : List Word) : List Char := ['_'].intercalate words

theorem consChar_ne_nil (c : Char) (words : List Word) : consChar c words ≠ [] := by
  cases words <;> simp [consChar]

theorem byteWords_ne_nil (bytes : List UInt8) : byteWords bytes ≠ [] := by
  cases bytes with
  | nil => simp [byteWords]
  | cons byte rest =>
    rw [byteWords]
    split
    · exact consChar_ne_nil _ _
    · simp

theorem textWords_ne_nil (text : String) : textWords text ≠ [] := byteWords_ne_nil _

/-! ## Spelling -/

theorem spell_append {words others : List Word} (left : words ≠ []) (right : others ≠ []) :
    spell (words ++ others) = spell words ++ '_' :: spell others := by
  induction words with
  | nil => exact absurd rfl left
  | cons word rest ih =>
    cases rest with
    | nil => simp [spell, List.intercalate_cons_of_ne_nil right]
    | cons next rest =>
      have tail := ih (by simp)
      simp only [spell, List.cons_append, List.intercalate_cons_cons] at tail ⊢
      simp [tail]

theorem spell_cons {word : Word} {others : List Word} (right : others ≠ []) :
    spell (word :: others) = word ++ '_' :: spell others := by
  simpa [spell] using @spell_append [word] others (by simp) right

theorem spell_consChar (c : Char) {words : List Word} (nonempty : words ≠ []) :
    spell (consChar c words) = c :: spell words := by
  cases words with
  | nil => exact absurd rfl nonempty
  | cons word rest =>
    cases rest with
    | nil => simp [spell, consChar]
    | cons next rest => simp [spell, consChar]

/-- Words without underscores can be told apart again. -/
theorem spell_injective {words others : List Word} (left : words ≠ []) (right : others ≠ [])
    (bare : ∀ word ∈ words, '_' ∉ word) (bare' : ∀ word ∈ others, '_' ∉ word)
    (same : spell words = spell others) : words = others := by
  rw [← List.splitOn_intercalate '_' bare left, ← List.splitOn_intercalate '_' bare' right]
  exact congrArg _ same

theorem flatMap_escapedByte (bytes : List UInt8) :
    bytes.flatMap escapedByte = spell (byteWords bytes) := by
  induction bytes with
  | nil => simp [byteWords, spell]
  | cons byte rest ih =>
    rw [List.flatMap_cons, ih, byteWords, escapedByte]
    split
    · rw [spell_consChar _ (byteWords_ne_nil rest)]
      rfl
    · rw [spell_cons (by simp), spell_cons (byteWords_ne_nil rest)]
      simp [escapeWord]

/-- Escaped text is spelled by its words. -/
theorem toList_escapeAliasText (text : String) :
    (escapeAliasText text).toList = spell (textWords text) := by
  rw [escapeAliasText, String.toList_ofList, flatMap_escapedByte, textWords]

/-! ## Words hold no underscore -/

theorem underscore_ne_hexDigit : ∀ n < 16, '_' ≠ Value.hexDigit n := by decide

/-- A byte as a character has the code of the byte. -/
theorem toNat_ofNat_byte (byte : UInt8) : (Char.ofNat byte.toNat).toNat = byte.toNat := by
  have valid : byte.toNat.isValidChar := .inl (by have := byte.toNat_lt; omega)
  rw [Char.ofNat, dif_pos valid]
  rfl

theorem underscore_ne_aliasByte {byte : UInt8} (plain : isAliasByte byte = true) :
    '_' ≠ Char.ofNat byte.toNat := by
  intro same
  have code : byte = 95 := by
    apply UInt8.toNat_inj.mp
    rw [← toNat_ofNat_byte byte, ← same]
    rfl
  subst code
  exact absurd plain (by decide)

theorem underscore_notMem_escapeWord (byte : UInt8) : '_' ∉ escapeWord byte := by
  have := byte.toNat_lt
  simp [escapeWord, underscore_ne_hexDigit _ (show byte.toNat / 16 < 16 by omega),
    underscore_ne_hexDigit _ (Nat.mod_lt byte.toNat (show 16 > 0 by decide))]

theorem underscore_notMem_byteWords (bytes : List UInt8) :
    ∀ word ∈ byteWords bytes, '_' ∉ word := by
  induction bytes with
  | nil => simp [byteWords]
  | cons byte rest ih =>
    rw [byteWords]
    split
    · rename_i plain
      have nonempty := byteWords_ne_nil rest
      revert nonempty ih
      cases byteWords rest with
      | nil => simp
      | cons word words =>
        intro ih _
        simp only [consChar, List.forall_mem_cons] at ih ⊢
        exact ⟨by simp [ih.1, underscore_ne_aliasByte plain], ih.2⟩
    · simp only [List.forall_mem_cons]
      exact ⟨by simp, underscore_notMem_escapeWord byte, ih⟩

theorem underscore_notMem_textWords (text : String) : ∀ word ∈ textWords text, '_' ∉ word :=
  underscore_notMem_byteWords _

/-! ## Values and arguments -/

/-- The words, or one empty word where there are none: nothing between two underscores. -/
def orBlank (words : List Word) : List Word := if words.isEmpty then [[]] else words

namespace Value

mutual
/-- The words of a value's chunk. -/
def aliasWords : Value → List Word
  | .variable name => ['v'] :: textWords name
  | .int i => ['l'] :: textWords (toString i)
  | .float text => ['l'] :: textWords text
  | .string s => ['s'] :: textWords s
  | .boolean b => ['l'] :: textWords (if b then "true" else "false")
  | .null => ['l'] :: textWords "null"
  | .enum name => ['e'] :: textWords name
  | .list items => ['a'] :: (orBlank (itemWords items) ++ [['a']])
  | .object fields => ['o'] :: (orBlank (fieldWords fields) ++ [['c']])
termination_by structural v => v
/-- The words of the items of a list. -/
def itemWords : List Value → List Word
  | [] => []
  | v :: rest => v.aliasWords ++ itemWords rest
termination_by structural vs => vs
/-- The words of the fields of an object. An empty word stands between a key and its value. -/
def fieldWords : List (String × Value) → List Word
  | [] => []
  | (key, v) :: rest => textWords key ++ [] :: (v.aliasWords ++ fieldWords rest)
termination_by structural fs => fs
end

end Value

/-- The words of one argument. -/
def argumentWords (argument : String × Value) : List Word :=
  [] :: [] :: [] :: (textWords argument.1 ++ [] :: [] :: argument.2.aliasWords)

theorem orBlank_ne_nil (words : List Word) : orBlank words ≠ [] := by
  unfold orBlank
  split
  · simp
  · simp_all

theorem spell_orBlank (words : List Word) : spell (orBlank words) = spell words := by
  unfold orBlank
  split
  · simp_all [spell]
  · rfl

theorem underscore_notMem_orBlank {words : List Word} (bare : ∀ word ∈ words, '_' ∉ word) :
    ∀ word ∈ orBlank words, '_' ∉ word := by
  unfold orBlank
  split
  · simp
  · exact bare

namespace Value

theorem aliasWords_ne_nil (v : Value) : v.aliasWords ≠ [] := by
  cases v <;> simp [aliasWords]

theorem itemWords_cons_ne_nil (v : Value) (rest : List Value) : itemWords (v :: rest) ≠ [] := by
  simp [itemWords, aliasWords_ne_nil]

theorem fieldWords_cons_ne_nil (field : String × Value) (rest : List (String × Value)) :
    fieldWords (field :: rest) ≠ [] := by
  simp [fieldWords]

/-- Words between an opening and a closing one are spelled between their underscores. -/
theorem spell_enclosed (first last : Word) (words : List Word) :
    spell (first :: (orBlank words ++ [last])) = first ++ '_' :: (spell words ++ '_' :: last) := by
  rw [spell_cons (by simp), spell_append (orBlank_ne_nil words) (by simp), spell_orBlank]
  simp [spell]

mutual
/-- A value's chunk is spelled by its words. -/
theorem toList_aliasChunk : ∀ v : Value, v.aliasChunk.toList = spell v.aliasWords
  | .variable name => by
    simp [aliasChunk, aliasWords, spell_cons (textWords_ne_nil _), toList_escapeAliasText]
  | .int i => by
    simp [aliasChunk, aliasWords, spell_cons (textWords_ne_nil _), toList_escapeAliasText]
  | .float text => by
    simp [aliasChunk, aliasWords, spell_cons (textWords_ne_nil _), toList_escapeAliasText]
  | .string s => by
    simp [aliasChunk, aliasWords, spell_cons (textWords_ne_nil _), toList_escapeAliasText]
  | .boolean b => by cases b <;> decide +kernel
  | .null => by decide +kernel
  | .enum name => by
    simp [aliasChunk, aliasWords, spell_cons (textWords_ne_nil _), toList_escapeAliasText]
  | .list items => by
    rw [aliasChunk, aliasWords, spell_enclosed, ← toList_aliasChunks items]
    simp
  | .object fields => by
    rw [aliasChunk, aliasWords, spell_enclosed, ← toList_aliasFieldChunks fields]
    simp
theorem toList_aliasChunks :
    ∀ items : List Value, (Text.joinWith "_" (aliasChunks items)).toList = spell (itemWords items)
  | [] => by simp [aliasChunks, itemWords, Text.joinWith, spell]
  | [v] => by simp [aliasChunks, itemWords, Text.joinWith, toList_aliasChunk v]
  | v :: w :: rest => by
    have tail := toList_aliasChunks (w :: rest)
    rw [itemWords, spell_append v.aliasWords_ne_nil (itemWords_cons_ne_nil w rest), ← tail,
      ← toList_aliasChunk v]
    simp [aliasChunks, Text.joinWith]
theorem toList_aliasFieldChunks :
    ∀ fields : List (String × Value),
      (Text.joinWith "_" (aliasFieldChunks fields)).toList = spell (fieldWords fields)
  | [] => by simp [aliasFieldChunks, fieldWords, Text.joinWith, spell]
  | [(key, v)] => by
    rw [fieldWords, spell_append (textWords_ne_nil key) (by simp), fieldWords, List.append_nil,
      spell_cons v.aliasWords_ne_nil, ← toList_aliasChunk v, ← toList_escapeAliasText key]
    simp [aliasFieldChunks, Text.joinWith]
  | (key, v) :: field :: rest => by
    have tail := toList_aliasFieldChunks (field :: rest)
    rw [fieldWords, spell_append (textWords_ne_nil key) (by simp),
      spell_cons (by simp [aliasWords_ne_nil]),
      spell_append v.aliasWords_ne_nil (fieldWords_cons_ne_nil field rest), ← tail,
      ← toList_aliasChunk v, ← toList_escapeAliasText key]
    simp [aliasFieldChunks, Text.joinWith]
end

mutual
theorem underscore_notMem_aliasWords : ∀ v : Value, ∀ word ∈ v.aliasWords, '_' ∉ word
  | .variable name | .int _ | .float text | .string s | .enum name => by
    simpa [aliasWords] using underscore_notMem_textWords _
  | .boolean b => by simpa [aliasWords] using underscore_notMem_textWords _
  | .null => by simpa [aliasWords] using underscore_notMem_textWords _
  | .list items => by
    have inner := underscore_notMem_orBlank (underscore_notMem_itemWords items)
    simp only [aliasWords, List.forall_mem_cons, List.forall_mem_append]
    exact ⟨by decide, inner, by simp⟩
  | .object fields => by
    have inner := underscore_notMem_orBlank (underscore_notMem_fieldWords fields)
    simp only [aliasWords, List.forall_mem_cons, List.forall_mem_append]
    exact ⟨by decide, inner, by simp⟩
theorem underscore_notMem_itemWords : ∀ items : List Value, ∀ word ∈ itemWords items, '_' ∉ word
  | [] => by simp [itemWords]
  | v :: rest => by
    rw [itemWords, List.forall_mem_append]
    exact ⟨underscore_notMem_aliasWords v, underscore_notMem_itemWords rest⟩
theorem underscore_notMem_fieldWords :
    ∀ fields : List (String × Value), ∀ word ∈ fieldWords fields, '_' ∉ word
  | [] => by simp [fieldWords]
  | (key, v) :: rest => by
    rw [fieldWords, List.forall_mem_append, List.forall_mem_cons, List.forall_mem_append]
    exact ⟨underscore_notMem_textWords key, by simp, underscore_notMem_aliasWords v,
      underscore_notMem_fieldWords rest⟩
end

end Value

/-! ## Keys -/

theorem underscore_notMem_argumentWords (argument : String × Value) :
    ∀ word ∈ argumentWords argument, '_' ∉ word := by
  simp only [argumentWords, List.forall_mem_cons, List.forall_mem_append]
  exact ⟨by simp, by simp, by simp, underscore_notMem_textWords _, by simp, by simp,
    argument.2.underscore_notMem_aliasWords⟩

/-- An argument's chunk is an underscore and what its words spell. -/
theorem toList_argumentChunk (argument : String × Value) :
    (argumentChunk argument).toList = '_' :: spell (argumentWords argument) := by
  rw [argumentWords, spell_cons (by simp), spell_cons (by simp), spell_cons (by simp),
    spell_append (textWords_ne_nil _) (by simp), spell_cons (by simp),
    spell_cons argument.2.aliasWords_ne_nil, ← toList_escapeAliasText, ← Value.toList_aliasChunk]
  simp [argumentChunk]

theorem spell_append_arguments (arguments : List (String × Value)) :
    ∀ {words : List Word}, words ≠ [] →
      spell (words ++ arguments.flatMap argumentWords) =
        spell words ++ (Text.concat (arguments.map argumentChunk)).toList := by
  induction arguments with
  | nil => simp [Text.concat]
  | cons argument rest ih =>
    intro words nonempty
    have chunk : argumentWords argument ≠ [] := by simp [argumentWords]
    rw [List.flatMap_cons, ← List.append_assoc, ih (by simp [nonempty]), spell_append nonempty chunk]
    simp [Text.concat, toList_argumentChunk]

/-- A key with arguments is spelled by the words of the field and of the arguments. -/
theorem toList_storeKey (field : String) {arguments : List (String × Value)}
    (given : arguments ≠ []) :
    (storeKey field arguments).toList =
      spell (textWords field ++ arguments.flatMap argumentWords) := by
  rw [spell_append_arguments arguments (textWords_ne_nil field), ← toList_escapeAliasText]
  simp [storeKey, given]

theorem byteArray_toList_loop (bytes : ByteArray) (n : Nat) :
    ∀ i taken, bytes.size - i = n →
      ByteArray.toList.loop bytes i taken = taken.reverse ++ bytes.data.toList.drop i := by
  induction n with
  | zero =>
    intro i taken left
    have past : bytes.data.toList.length ≤ i := by
      have : bytes.size = bytes.data.toList.length := rfl
      omega
    rw [ByteArray.toList.loop, if_neg (by omega), List.drop_eq_nil_of_le past, List.append_nil]
  | succ n ih =>
    intro i taken left
    have inside : i < bytes.data.toList.length := by
      have : bytes.size = bytes.data.toList.length := rfl
      omega
    have here : bytes.get! i = bytes.data.toList[i] := by
      exact getElem!_pos bytes.data i inside
    rw [ByteArray.toList.loop, if_pos (by omega), ih _ _ (by omega), List.drop_eq_getElem_cons inside,
      here]
    simp

theorem byteArray_toList_eq_data (bytes : ByteArray) : bytes.toList = bytes.data.toList := by
  rw [ByteArray.toList, byteArray_toList_loop _ _ _ _ rfl, List.reverse_nil, List.nil_append,
    List.drop_zero]

/-- The bytes of a text are those of its characters. -/
theorem toByteArray_toList (text : String) :
    text.toByteArray.toList = text.toList.flatMap String.utf8EncodeChar := by
  rw [byteArray_toList_eq_data]
  conv => lhs; rw [← String.ofList_toList (s := text), String.toByteArray_ofList]
  simp [List.utf8Encode]

theorem length_le_length_flatMap {α β : Type} {f : α → List β} (some : ∀ a, 1 ≤ (f a).length)
    (items : List α) : items.length ≤ (items.flatMap f).length := by
  induction items with
  | nil => simp
  | cons item rest ih =>
    have := some item
    rw [List.flatMap_cons, List.length_append, List.length_cons]
    omega

theorem length_le_escapeAliasText (text : String) :
    text.toList.length ≤ (escapeAliasText text).toList.length := by
  have chars : text.toList.length ≤ text.toByteArray.toList.length := by
    rw [toByteArray_toList]
    refine length_le_length_flatMap (fun c => ?_) _
    rw [String.length_utf8EncodeChar]
    exact c.utf8Size_pos
  rw [escapeAliasText, String.toList_ofList]
  refine Nat.le_trans chars (length_le_length_flatMap (fun byte => ?_) _)
  rw [escapedByte]
  split <;> simp

/-- The bare name of a field is the key of no selection of it with arguments. -/
theorem storeKey_ne_field (field : String) {arguments : List (String × Value)}
    (given : arguments ≠ []) : storeKey field arguments ≠ field := by
  intro same
  have lengths := congrArg (List.length ∘ String.toList) same
  have field_le := length_le_escapeAliasText field
  obtain ⟨argument, rest, rfl⟩ := List.exists_cons_of_ne_nil given
  simp [storeKey, Text.concat, argumentChunk] at lengths field_le
  omega

theorem underscore_notMem_keyWords (field : String) (arguments : List (String × Value)) :
    ∀ word ∈ textWords field ++ arguments.flatMap argumentWords, '_' ∉ word := by
  simp only [List.forall_mem_append, List.mem_flatMap]
  exact ⟨underscore_notMem_textWords field,
    fun word ⟨argument, _, member⟩ => underscore_notMem_argumentWords argument word member⟩

/-- **What a key remembers.** Two argument lists of a field share a key exactly when they share their
words. -/
theorem storeKey_eq_iff_words (field : String) (left right : List (String × Value)) :
    storeKey field left = storeKey field right ↔
      left.flatMap argumentWords = right.flatMap argumentWords := by
  cases left with
  | nil =>
    cases right with
    | nil => simp
    | cons argument rest =>
      refine ⟨fun same => absurd same.symm (storeKey_ne_field field (by simp)), ?_⟩
      simp [argumentWords]
  | cons argument rest =>
    cases right with
    | nil =>
      refine ⟨fun same => absurd same (storeKey_ne_field field (by simp)), ?_⟩
      simp [argumentWords]
    | cons other rest' =>
      rw [← String.toList_inj, toList_storeKey field (by simp), toList_storeKey field (by simp)]
      constructor
      · intro same
        exact List.append_cancel_left (spell_injective (by simp [textWords_ne_nil])
          (by simp [textWords_ne_nil]) (underscore_notMem_keyWords field _)
          (underscore_notMem_keyWords field _) same)
      · intro same
        rw [same]

end IsoLiteral
