import IsoLiteral.Proofs.StoreKey.Words

/-!
# Escaped text is decoded

Escaped text is a row of letters, digits and groups `_xHH_`, and a decoder that takes them off one by one
gives the bytes back. It stops at the first underscore that opens no group. So escaped text is read back
from in front of whatever follows it in a store key, and no two texts are escaped alike.
-/

namespace IsoLiteral

/-! ## The decoder -/

/-- The digits of a group, in the order of their values. -/
def hexDigits : List Char := "0123456789ABCDEF".toList

/-- The byte whose code two digits give. -/
def hexByte? (high low : Char) : Option UInt8 := do
  let h ← hexDigits.idxOf? high
  let l ← hexDigits.idxOf? low
  return UInt8.ofNat (16 * h + l)

/-- Takes bytes off the front of a text, a letter or digit for itself and a group for its byte, up to
anything else. -/
def takeBytes : List Char → List UInt8 × List Char
  | '_' :: 'x' :: high :: low :: '_' :: rest =>
    match hexByte? high low with
    | some byte => (byte :: (takeBytes rest).1, (takeBytes rest).2)
    | none => ([], '_' :: 'x' :: high :: low :: '_' :: rest)
  | c :: rest =>
    if c.isAlphanum then (UInt8.ofNat c.toNat :: (takeBytes rest).1, (takeBytes rest).2)
    else ([], c :: rest)
  | [] => ([], [])

/-- Decodes the escaped text at the front of a text, and gives what follows it. Bytes that encode no text
decode to the empty one. -/
def decodeAlias (text : String) : String × String :=
  let (bytes, rest) := takeBytes text.toList
  ((String.fromUTF8? bytes.toByteArray).getD "", String.ofList rest)

/-- A text that does not continue the escaped text before it: it is empty, or starts with an underscore
that no `x` follows. -/
def EndsAlias (rest : List Char) : Prop :=
  rest = [] ∨ ∃ tail, rest = '_' :: tail ∧ tail.head? ≠ some 'x'

/-! ## What the decoder takes -/

theorem hexByte?_hexDigit (byte : UInt8) :
    hexByte? (Value.hexDigit (byte.toNat / 16)) (Value.hexDigit (byte.toNat % 16)) = some byte := by
  have index : ∀ n < 16, hexDigits.idxOf? (Value.hexDigit n) = some n := by decide
  have bound := byte.toNat_lt
  have code : 16 * (byte.toNat / 16) + byte.toNat % 16 = byte.toNat := Nat.div_add_mod _ _
  rw [hexByte?, index _ (by omega), index _ (Nat.mod_lt _ (by decide))]
  show some (UInt8.ofNat (16 * (byte.toNat / 16) + byte.toNat % 16)) = some byte
  rw [code, UInt8.ofNat_toNat]

/-- A byte that stands for itself is a letter or digit. -/
theorem isAlphanum_aliasByte {byte : UInt8} (plain : isAliasByte byte = true) :
    (Char.ofNat byte.toNat).isAlphanum = true := by
  have each : ∀ n < 256, isAliasByte (UInt8.ofNat n) = true → (Char.ofNat n).isAlphanum = true := by
    decide +kernel
  exact each byte.toNat byte.toNat_lt (by rwa [UInt8.ofNat_toNat])

theorem takeBytes_plain {c : Char} (plain : c.isAlphanum = true) (rest : List Char) :
    takeBytes (c :: rest) = (UInt8.ofNat c.toNat :: (takeBytes rest).1, (takeBytes rest).2) := by
  have other : c ≠ '_' := by
    rintro rfl
    exact absurd plain (by decide)
  rw [takeBytes, if_pos plain]
  exact fun _ _ _ same _ => other same

theorem takeBytes_escapedByte (byte : UInt8) (rest : List Char) :
    takeBytes (escapedByte byte ++ rest) = (byte :: (takeBytes rest).1, (takeBytes rest).2) := by
  rw [escapedByte]
  split
  · rename_i plain
    rw [List.cons_append, List.nil_append, takeBytes_plain (isAlphanum_aliasByte plain), toNat_ofNat_byte,
      UInt8.ofNat_toNat]
  · rw [List.cons_append, List.cons_append, List.cons_append, List.cons_append, List.cons_append,
      List.nil_append, takeBytes, hexByte?_hexDigit]

theorem takeBytes_of_endsAlias {rest : List Char} (ends : EndsAlias rest) : takeBytes rest = ([], rest) := by
  obtain rfl | ⟨tail, rfl, other⟩ := ends
  · rfl
  · rw [takeBytes, if_neg (by decide)]
    rintro high low more - rfl
    exact other rfl

/-- Escaped bytes are taken off the front of a text that does not continue them, by induction on the
bytes. -/
theorem takeBytes_append (bytes : List UInt8) {rest : List Char} (ends : EndsAlias rest) :
    takeBytes (bytes.flatMap escapedByte ++ rest) = (bytes, rest) := by
  induction bytes with
  | nil => exact takeBytes_of_endsAlias ends
  | cons byte bytes ih => rw [List.flatMap_cons, List.append_assoc, takeBytes_escapedByte, ih]

theorem fromUTF8?_toByteArray (text : String) :
    String.fromUTF8? text.toByteArray.toList.toByteArray = some text := by
  have bytes : text.toByteArray.toList.toByteArray = text.toByteArray := by
    rw [byteArray_toList_eq_data]
    exact ByteArray.ext (by rw [List.data_toByteArray, Array.toArray_toList])
  rw [bytes, String.fromUTF8?, dif_pos text.isValidUTF8]
  rfl

theorem decodeAlias_append (text rest : String) (ends : EndsAlias rest.toList) :
    decodeAlias (escapeAliasText text ++ rest) = (text, rest) := by
  rw [decodeAlias, String.toList_append, escapeAliasText, String.toList_ofList, takeBytes_append _ ends]
  dsimp only
  rw [fromUTF8?_toByteArray, Option.getD_some, String.ofList_toList]

/-! ## Groups -/

/-- The group that two digits make. -/
def aliasGroup (high low : Char) : List Char := ['_', 'x', high, low, '_']

/-- A row of letters, digits and groups. -/
inductive Grouped : List Char → Prop where
  | nil : Grouped []
  | plain {c : Char} {rest : List Char} : c.isAlphanum = true → Grouped rest → Grouped (c :: rest)
  | group {high low : Char} {rest : List Char} :
    high ∈ hexDigits → low ∈ hexDigits → Grouped rest → Grouped (aliasGroup high low ++ rest)

theorem Grouped.escapedByte {rest : List Char} (grouped : Grouped rest) (byte : UInt8) :
    Grouped (escapedByte byte ++ rest) := by
  have digit : ∀ n < 16, Value.hexDigit n ∈ hexDigits := by decide
  have bound := byte.toNat_lt
  rw [IsoLiteral.escapedByte]
  split
  · rename_i plain
    exact .plain (isAlphanum_aliasByte plain) grouped
  · exact .group (digit _ (by omega)) (digit _ (Nat.mod_lt _ (by decide))) grouped

theorem grouped_escapeAliasText (text : String) : Grouped (escapeAliasText text).toList := by
  rw [escapeAliasText, String.toList_ofList]
  induction text.toByteArray.toList with
  | nil => exact .nil
  | cons byte bytes ih =>
    rw [List.flatMap_cons]
    exact ih.escapedByte byte

/-- An underscore of a row opens a group of it or closes one. -/
theorem Grouped.of_underscore {text : List Char} (grouped : Grouped text) :
    ∀ {before after : List Char}, text = before ++ '_' :: after →
      ∃ front high low back, high ∈ hexDigits ∧ low ∈ hexDigits ∧ Grouped front ∧ Grouped back ∧
        text = front ++ aliasGroup high low ++ back ∧
        (before = front ∨ before = front ++ ['_', 'x', high, low]) := by
  induction grouped with
  | nil => simp
  | @plain c rest plain grouped ih =>
    intro before after same
    cases before with
    | nil =>
      obtain ⟨rfl, -⟩ := List.cons.inj same
      exact absurd plain (by decide)
    | cons d before =>
      obtain ⟨rfl, inner⟩ := List.cons.inj same
      obtain ⟨front, high, low, back, isHigh, isLow, left, right, rfl, here⟩ := ih inner
      exact ⟨c :: front, high, low, back, isHigh, isLow, .plain plain left, right, by simp,
        here.imp (congrArg _) (congrArg _)⟩
  | @group high low rest isHigh isLow grouped ih =>
    intro before after same
    have notHigh : high ≠ '_' := ne_of_mem_of_not_mem isHigh (by decide)
    have notLow : low ≠ '_' := ne_of_mem_of_not_mem isLow (by decide)
    match before with
    | [] => exact ⟨[], high, low, rest, isHigh, isLow, .nil, grouped, rfl, .inl rfl⟩
    | [_] | [_, _] | [_, _, _] => simp_all [aliasGroup]
    | [_, _, _, _] =>
      refine ⟨[], high, low, rest, isHigh, isLow, .nil, grouped, rfl, .inr ?_⟩
      simp only [aliasGroup, List.cons_append, List.nil_append, List.cons.injEq] at same
      obtain ⟨rfl, rfl, rfl, rfl, -⟩ := same
      rfl
    | _ :: _ :: _ :: _ :: _ :: before =>
      simp only [aliasGroup, List.cons_append, List.nil_append, List.cons.injEq] at same
      obtain ⟨rfl, rfl, rfl, rfl, rfl, same⟩ := same
      obtain ⟨front, high', low', back, isHigh', isLow', left, right, rfl, here⟩ := ih same
      exact ⟨aliasGroup high low ++ front, high', low', back, isHigh', isLow', .group isHigh isLow left, right,
        by simp, here.imp (congrArg (aliasGroup high low ++ ·)) (congrArg (aliasGroup high low ++ ·))⟩

/-! ## Escaped text in its context -/

theorem escapeAliasText_injective : Function.Injective escapeAliasText := by
  intro left right same
  have decoded (text : String) : decodeAlias (escapeAliasText text ++ "") = (text, "") :=
    decodeAlias_append text "" (.inl rfl)
  have both := decoded left
  rw [same, decoded right] at both
  exact (congrArg Prod.fst both).symm

/-- **Escaped text is decoded in its context.** It is read back from in front of any text that does not
continue it, so no two texts are escaped alike; and every underscore in it opens or closes a group, before
and after which there are only letters, digits and groups. -/
theorem escapeAliasText_decodes :
    (∀ text rest : String, EndsAlias rest.toList →
      decodeAlias (escapeAliasText text ++ rest) = (text, rest)) ∧
    Function.Injective escapeAliasText ∧
    ∀ (text : String) (before after : List Char), (escapeAliasText text).toList = before ++ '_' :: after →
      ∃ front high low back, high ∈ hexDigits ∧ low ∈ hexDigits ∧ Grouped front ∧ Grouped back ∧
        (escapeAliasText text).toList = front ++ aliasGroup high low ++ back ∧
        (before = front ∨ before = front ++ ['_', 'x', high, low]) :=
  ⟨decodeAlias_append, escapeAliasText_injective,
    fun text _ _ same => (grouped_escapeAliasText text).of_underscore same⟩

/-- A character of two bytes, an underscore, and a text that looks like a group, in front of a chunk. -/
theorem escapeAliasText_decodes_accented :
    EndsAlias "___l_1".toList ∧
    decodeAlias (escapeAliasText "\u00e9_x41_" ++ "___l_1") = ("\u00e9_x41_", "___l_1") ∧
    (escapeAliasText "\u00e9_x41_").toList = "_xC3_".toList ++ '_' :: "xA9__x5F_x41_x5F_".toList ∧
    ∃ front high low back, high ∈ hexDigits ∧ low ∈ hexDigits ∧ Grouped front ∧ Grouped back ∧
      (escapeAliasText "\u00e9_x41_").toList = front ++ aliasGroup high low ++ back ∧
      ("_xC3_".toList = front ∨ "_xC3_".toList = front ++ ['_', 'x', high, low]) := by
  have ends : EndsAlias "___l_1".toList := .inr ⟨"__l_1".toList, rfl, by decide⟩
  have escaped : (escapeAliasText "\u00e9_x41_").toList =
      "_xC3_".toList ++ '_' :: "xA9__x5F_x41_x5F_".toList := by
    decide +kernel
  exact ⟨ends, escapeAliasText_decodes.1 _ _ ends, escaped, escapeAliasText_decodes.2.2 _ _ _ escaped⟩

end IsoLiteral
