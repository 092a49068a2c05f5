import IsoLiteral.Proofs.StoreKey.Reading

/-!
# Store keys are identifiers

Escaped text consists of letters, digits and underscores, and so does everything that stands between escaped
texts in a key. A key starts as its field does: with the field's first letter, or with the underscore in front
of an escaped one. So wherever the name of a field may stand, its keys may.
-/

namespace IsoLiteral

/-! ## Characters of keys -/

theorem all_isNameChar_escapedByte (byte : UInt8) : (escapedByte byte).all isNameChar = true := by
  have each : ∀ n < 256, (escapedByte (UInt8.ofNat n)).all isNameChar = true := by decide +kernel
  have here := each byte.toNat byte.toNat_lt
  rwa [UInt8.ofNat_toNat] at here

theorem all_isNameChar_escapeAliasText (text : String) :
    (escapeAliasText text).toList.all isNameChar = true := by
  rw [escapeAliasText, String.toList_ofList, List.all_flatMap, List.all_eq_true]
  exact fun byte _ => all_isNameChar_escapedByte byte

namespace Value

mutual
theorem all_isNameChar_aliasChunk : ∀ v : Value, v.aliasChunk.toList.all isNameChar = true
  | .variable _ | .int _ | .float _ | .string _ | .enum _ => by
    rw [aliasChunk, String.toList_append, List.all_append, all_isNameChar_escapeAliasText]
    decide
  | .boolean true | .boolean false | .null => by
    rw [aliasChunk]
    decide
  | .list items => by
    rw [aliasChunk, String.toList_append, String.toList_append, List.all_append, List.all_append,
      all_isNameChar_aliasChunks items]
    decide
  | .object fields => by
    rw [aliasChunk, String.toList_append, String.toList_append, List.all_append, List.all_append,
      all_isNameChar_aliasFieldChunks fields]
    decide
theorem all_isNameChar_aliasChunks :
    ∀ items : List Value, (Text.joinWith "_" (aliasChunks items)).toList.all isNameChar = true
  | [] => by
    rw [aliasChunks]
    rfl
  | [v] => by
    rw [aliasChunks, aliasChunks]
    exact all_isNameChar_aliasChunk v
  | v :: w :: rest => by
    have tail := all_isNameChar_aliasChunks (w :: rest)
    rw [aliasChunks] at tail
    rw [aliasChunks, aliasChunks, Text.joinWith, String.toList_append, String.toList_append, List.all_append,
      List.all_append, all_isNameChar_aliasChunk v, tail]
    decide
theorem all_isNameChar_aliasFieldChunks :
    ∀ fields : List (String × Value), (Text.joinWith "_" (aliasFieldChunks fields)).toList.all isNameChar = true
  | [] => by
    rw [aliasFieldChunks]
    rfl
  | [(key, v)] => by
    rw [aliasFieldChunks, aliasFieldChunks, Text.joinWith, String.toList_append, String.toList_append,
      List.all_append, List.all_append, all_isNameChar_escapeAliasText, all_isNameChar_aliasChunk v]
    decide
  | (key, v) :: (key', w) :: rest => by
    have tail := all_isNameChar_aliasFieldChunks ((key', w) :: rest)
    rw [aliasFieldChunks] at tail
    rw [aliasFieldChunks, aliasFieldChunks, Text.joinWith]
    simp only [String.toList_append, List.all_append, all_isNameChar_escapeAliasText,
      all_isNameChar_aliasChunk v, tail]
    decide
end

end Value

theorem all_isNameChar_argumentChunks (arguments : List (String × Value)) :
    (Text.concat (arguments.map argumentChunk)).toList.all isNameChar = true := by
  induction arguments with
  | nil => rfl
  | cons argument rest ih =>
    rw [Text.concat] at ih
    rw [Text.concat, List.map_cons, List.foldr_cons, argumentChunk]
    simp only [String.toList_append, List.all_append, all_isNameChar_escapeAliasText,
      Value.all_isNameChar_aliasChunk, ih]
    decide

/-! ## Keys -/

/-- An identifier is a letter or an underscore, and then letters, digits and underscores. -/
theorem isName_iff {name : String} : isName name = true ↔
    ∃ c rest, name.toList = c :: rest ∧ (c.isAlpha || c = '_') = true ∧ rest.all isNameChar = true := by
  constructor
  · intro named
    unfold isName TypeExpr.isIdentifier at named
    split at named
    · cases named
    · rename_i c rest chars
      exact ⟨c, rest, chars, Bool.and_eq_true_iff.1 named⟩
  · rintro ⟨c, rest, chars, parts⟩
    rw [isName, chars, TypeExpr.isIdentifier]
    exact Bool.and_eq_true_iff.2 parts

/-- An identifier may go on with any characters of identifiers. -/
theorem isName_append {name more : String} (named : isName name = true)
    (chars : more.toList.all isNameChar = true) : isName (name ++ more) = true := by
  obtain ⟨c, rest, same, first, others⟩ := isName_iff.1 named
  refine isName_iff.2 ⟨c, rest ++ more.toList, ?_, first, ?_⟩
  · rw [String.toList_append, same, List.cons_append]
  · rw [List.all_append, others, chars]
    rfl

theorem isName_escapeAliasText {field : String} (named : isName field = true) :
    isName (escapeAliasText field) = true := by
  obtain ⟨c, rest, chars, first, -⟩ := isName_iff.1 named
  have names := all_isNameChar named
  rw [chars, List.all_cons, Bool.and_eq_true] at names
  obtain ⟨byte, encoded, char, -⟩ := byte_of_isNameChar names.1
  have escaped : (escapeAliasText field).toList =
      escapedByte byte ++ (rest.flatMap String.utf8EncodeChar).flatMap escapedByte := by
    rw [escapeAliasText, String.toList_ofList, toByteArray_toList, chars, List.flatMap_cons, encoded]
    rfl
  have all := all_isNameChar_escapeAliasText field
  rw [escaped, escapedByte, char] at all
  rw [escapedByte, char] at escaped
  -- a letter stands for itself, and an underscore is escaped with one in front
  split at escaped
  · rename_i plain
    rw [if_pos plain, List.singleton_append, List.all_cons, Bool.and_eq_true] at all
    exact isName_iff.2 ⟨c, _, escaped, first, all.2⟩
  · rename_i escape
    rw [if_neg escape, List.cons_append, List.all_cons, Bool.and_eq_true] at all
    exact isName_iff.2 ⟨'_', _, escaped, rfl, all.2⟩

/-- A key of a field whose name is an identifier is an identifier too. -/
theorem isName_storeKey {field : String} (named : isName field = true) (arguments : List (String × Value)) :
    isName (storeKey field arguments) = true := by
  rw [storeKey]
  split
  · exact named
  · exact isName_append (isName_escapeAliasText named) (all_isNameChar_argumentChunks arguments)

end IsoLiteral
