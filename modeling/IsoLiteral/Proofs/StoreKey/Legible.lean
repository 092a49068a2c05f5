import IsoLiteral.Proofs.StoreKey.Reading

/-!
# Arguments that a store key determines

The words of a key can be read in one way only as long as two things stay apart. A list closes with
the word that opens one, so no list may be an item of a list; and a key of an object must not be
spelled like an escaped byte, or it continues the text before it. Arguments without the two are
determined by their key. With either of them there are arguments that share a key.
-/

namespace IsoLiteral

namespace Value

/-- Whether a value is a list. -/
def isList : Value → Bool
  | .list _ => true
  | _ => false

mutual
/-- Whether the words of a value can be read in one way only: no list is an item of a list, and no
key of an object is spelled like an escaped byte. -/
def isLegible : Value → Bool
  | .list items => areLegibleItems items
  | .object fields => areLegibleFields fields
  | .variable _ | .int _ | .float _ | .string _ | .boolean _ | .null | .enum _ => true
termination_by structural v => v
/-- Whether the items of a list are legible and none of them is a list. -/
def areLegibleItems : List Value → Bool
  | [] => true
  | v :: rest => !v.isList && v.isLegible && areLegibleItems rest
termination_by structural vs => vs
/-- Whether the fields of an object are legible and no key is spelled like an escaped byte. -/
def areLegibleFields : List (String × Value) → Bool
  | [] => true
  | (key, v) :: rest => !looksEscaped key && v.isLegible && areLegibleFields rest
termination_by structural fs => fs
end

/-- The sort and the text of a value that is spelled by one text. -/
def textForm? : Value → Option (Word × String)
  | .variable name => some (['v'], name)
  | .int i => some (['l'], toString i)
  | .float text => some (['l'], text)
  | .string s => some (['s'], s)
  | .boolean b => some (['l'], if b then "true" else "false")
  | .null => some (['l'], "null")
  | .enum name => some (['e'], name)
  | .list _ | .object _ => none

theorem aliasWords_of_textForm {v : Value} {tag : Word} {text : String}
    (form : v.textForm? = some (tag, text)) : v.aliasWords = tag :: textWords text := by
  cases v <;> simp_all [textForm?, aliasWords]

/-- Integers, floats and the words for truth values and null never have the same text. -/
theorem textForm_injective {v w : Value} (shaped : v.isShaped = true) (shaped' : w.isShaped = true)
    {form : Word × String} (left : v.textForm? = some form) (right : w.textForm? = some form) :
    v = w := by
  have integers (i j : Int) (same : toString i = toString j) : i = j := by
    rwa [Int.toString_eq_repr, Int.toString_eq_repr, Int.repr_inj] at same
  have noFloat (b : Bool) : isFloatText (if b then "true" else "false") = false := by
    cases b <;> decide +kernel
  have noInteger (b : Bool) : (if b then "true" else "false").toList.all isIntegerChar = false := by
    cases b <;> decide
  have null : isFloatText "null" = false ∧ "null".toList.all isIntegerChar = false := by
    decide +kernel
  have noNull (b : Bool) : (if b then "true" else "false") ≠ "null" := by cases b <;> decide
  have same : v.textForm? = w.textForm? := left.trans right.symm
  have given : v.textForm?.isSome = true := by rw [left]; rfl
  -- Values of different sorts have different tags, except for the four plain literals.
  cases v <;> cases w <;> simp only [textForm?, isShaped, Option.some.injEq, Prod.mk.injEq,
    List.cons.injEq, reduceCtorEq, Char.reduceEq, and_true, true_and, false_and] at *
  case variable.variable => rw [same]
  case int.int => rw [integers _ _ same]
  case int.float => exact absurd same (toString_ne_float _ shaped')
  case int.boolean => exact absurd same (toString_ne_word _ (noInteger _))
  case int.null => exact absurd same (toString_ne_word _ null.2)
  case float.int => exact absurd same.symm (toString_ne_float _ shaped)
  case float.float => rw [same]
  case float.boolean => exact absurd same (float_ne_word shaped (noFloat _))
  case float.null => exact absurd same (float_ne_word shaped null.1)
  case string.string => rw [same]
  case boolean.int => exact absurd same.symm (toString_ne_word _ (noInteger _))
  case boolean.float => exact absurd same.symm (float_ne_word shaped' (noFloat _))
  case boolean.boolean b c => cases b <;> cases c <;> simp_all
  case boolean.null => exact absurd same (noNull _)
  case null.int => exact absurd same.symm (toString_ne_word _ null.2)
  case null.float => exact absurd same.symm (float_ne_word shaped' null.1)
  case null.boolean => exact absurd same.symm (noNull _)
  case enum.enum => rw [same]

end Value

/-! ## Reading values -/

/-- The words that begin a value. -/
def tagWords : List Word := [['v'], ['l'], ['s'], ['e'], ['a'], ['o']]

theorem exists_tag (v : Value) : ∃ tag words, v.aliasWords = tag :: words ∧ tag ∈ tagWords := by
  cases v <;> exact ⟨_, _, rfl, by decide⟩

theorem length_of_tag {tag : Word} (member : tag ∈ tagWords) : tag.length = 1 := by
  revert tag
  decide

/-- What may follow a value: no escaped byte, and no empty word before another value, which would make
a key of the word before. -/
structure Follows (rest : List Word) : Prop where
  ends : Ends rest
  noValue : ∀ tag words, rest = [] :: tag :: words → tag ∉ tagWords

theorem follows_nil : Follows [] := ⟨ends_nil, by simp⟩

theorem follows_letter (c : Char) (rest : List Word) : Follows ([c] :: rest) :=
  ⟨ends_cons (not_isEscape_of_length (by simp)), by simp⟩

theorem follows_blanks (rest : List Word) : Follows ([] :: [] :: rest) := by
  refine ⟨ends_cons (not_isEscape_of_length (by simp)), ?_⟩
  rintro tag words same
  obtain ⟨rfl, -⟩ := List.cons.inj (List.cons.inj same).2
  decide

theorem follows_value (v : Value) (rest : List Word) : Follows (v.aliasWords ++ rest) := by
  obtain ⟨tag, words, same, member⟩ := exists_tag v
  rw [same, List.cons_append]
  have length := length_of_tag member
  refine ⟨ends_cons (not_isEscape_of_length (by omega)), ?_⟩
  rintro tag' words' blank
  rw [(List.cons.inj blank).1] at length
  simp at length

/-- The words of bytes go on, if at all, with an escaped byte. -/
theorem byteWords_cases (bytes : List UInt8) :
    ∃ first, byteWords bytes = [first] ∨
      ∃ byte rest, byteWords bytes = first :: escapeWord byte :: byteWords rest := by
  induction bytes with
  | nil => exact ⟨[], .inl rfl⟩
  | cons byte rest ih =>
    rw [byteWords]
    split
    · obtain ⟨first, single | ⟨byte', rest', more⟩⟩ := ih
      · exact ⟨_ :: first, .inl (by rw [single]; rfl)⟩
      · exact ⟨_ :: first, .inr ⟨byte', rest', by rw [more]; rfl⟩⟩
    · exact ⟨[], .inr ⟨byte, rest, rfl⟩⟩

theorem follows_key {key : String} (plain : Ends (textWords key)) (rest : List Word) :
    Follows (textWords key ++ [] :: rest) := by
  obtain ⟨first, single | ⟨byte, bytes, more⟩⟩ := byteWords_cases key.toByteArray.toList
  · rw [textWords, single] at plain ⊢
    refine ⟨plain, ?_⟩
    rintro tag words same
    obtain ⟨rfl, -⟩ := List.cons.inj (List.cons.inj same).2
    decide
  · rw [textWords, more] at plain ⊢
    refine ⟨plain, ?_⟩
    rintro tag words same member
    obtain ⟨rfl, -⟩ := List.cons.inj (List.cons.inj same).2
    exact absurd (length_of_tag member) (by simp [escapeWord])

/-- A closing word is no key: what follows it is neither an escaped byte nor a value after an empty
word. -/
theorem close_ne_key {key : String} {v : Value} {close : Word} {rest others : List Word}
    (follows : Follows rest) : close :: rest ≠ textWords key ++ [] :: (v.aliasWords ++ others) := by
  intro same
  obtain ⟨first, single | ⟨byte, bytes, more⟩⟩ := byteWords_cases key.toByteArray.toList
  · obtain ⟨tag, words, value, member⟩ := exists_tag v
    rw [textWords, single, value] at same
    exact follows.noValue tag _ (List.cons.inj same).2 member
  · rw [textWords, more] at same
    have tail := (List.cons.inj same).2
    rw [tail] at follows
    exact not_ends_escapeWord byte _ follows.ends


namespace Value

/-- A value that is spelled by one text is determined by its words and what follows them. -/
theorem textValue_append_injective {v w : Value} {tag : Word} {text : String}
    (form : v.textForm? = some (tag, text)) (shaped : v.isShaped = true) (shaped' : w.isShaped = true)
    {rest rest' : List Word} (ends : Ends rest) (ends' : Ends rest')
    (same : v.aliasWords ++ rest = w.aliasWords ++ rest') : v = w ∧ rest = rest' := by
  rw [aliasWords_of_textForm form, List.cons_append] at same
  cases other : w.textForm? with
  | none =>
    cases w <;> simp only [textForm?, reduceCtorEq] at other
    all_goals
      simp only [aliasWords, List.cons_append, List.cons.injEq] at same
      cases v <;> simp_all [textForm?]
  | some pair =>
    obtain ⟨tag', text'⟩ := pair
    rw [aliasWords_of_textForm other, List.cons_append, List.cons.injEq] at same
    obtain ⟨rfl, words⟩ := same
    obtain ⟨rfl, rfl⟩ := textWords_append_injective ends ends' words
    exact ⟨textForm_injective shaped shaped' form other, rfl⟩

theorem follows_items (items : List Value) (rest : List Word) :
    Follows (itemWords items ++ ['a'] :: rest) := by
  cases items with
  | nil => exact follows_letter 'a' rest
  | cons v items =>
    rw [itemWords, List.append_assoc]
    exact follows_value v _

theorem follows_fields (fields : List (String × Value)) (rest : List Word)
    (shaped : areShapedFields fields = true) (legible : areLegibleFields fields = true) :
    Follows (fieldWords fields ++ ['c'] :: rest) := by
  cases fields with
  | nil => exact follows_letter 'c' rest
  | cons field fields =>
    obtain ⟨key, v⟩ := field
    simp only [areShapedFields, areLegibleFields, Bool.and_eq_true, Bool.not_eq_true'] at shaped legible
    rw [fieldWords, List.append_assoc, List.cons_append]
    exact follows_key (ends_textWords shaped.1.1 legible.1.1) _

theorem orBlank_cancel {words others : List Word} {close : Word} {rest rest' : List Word}
    (left : words ≠ [] → words ++ close :: rest ≠ [] :: close :: rest')
    (right : others ≠ [] → others ++ close :: rest' ≠ [] :: close :: rest)
    (same : orBlank words ++ close :: rest = orBlank others ++ close :: rest') :
    words ++ close :: rest = others ++ close :: rest' := by
  cases words with
  | nil =>
    cases others with
    | nil => simpa [orBlank] using same
    | cons other others => exact absurd same.symm (right (by simp))
  | cons word words =>
    cases others with
    | nil => exact absurd same (left (by simp))
    | cons other others => exact same

/-- The items of a list do not begin with an empty word. -/
theorem itemWords_ne_blank {items : List Value} {rest others : List Word}
    (some : itemWords items ≠ []) : itemWords items ++ rest ≠ [] :: others := by
  cases items with
  | nil => simp [itemWords] at some
  | cons v items =>
    obtain ⟨tag, words, value, member⟩ := exists_tag v
    have length := length_of_tag member
    intro same
    rw [itemWords, value] at same
    rw [(List.cons.inj same).1] at length
    simp at length

/-- An empty word at the start of an object's fields belongs to a key, which goes on with an escaped
byte or is empty. -/
theorem fieldWords_ne_blank {fields : List (String × Value)} {c : Char} {rest others : List Word}
    (some : fieldWords fields ≠ []) : fieldWords fields ++ rest ≠ [] :: [c] :: others := by
  cases fields with
  | nil => simp [fieldWords] at some
  | cons field fields =>
    obtain ⟨key, v⟩ := field
    intro same
    obtain ⟨first, single | ⟨byte, bytes, more⟩⟩ := byteWords_cases key.toByteArray.toList
    · rw [fieldWords, textWords, single] at same
      simp at same
    · rw [fieldWords, textWords, more] at same
      simp [escapeWord] at same

/-- No item of a list can be taken for the word that closes it. -/
theorem close_ne_item {v : Value} (noList : v.isList = false) {rest others : List Word} :
    ['a'] :: rest ≠ v.aliasWords ++ others := by
  cases v <;> simp [aliasWords, isList] at noList ⊢

mutual
/-- The words of a legible value and what follows them determine each other. -/
theorem aliasWords_append_injective : ∀ v w : Value, v.isShaped = true → w.isShaped = true →
    v.isLegible = true → w.isLegible = true → ∀ {rest rest' : List Word}, Follows rest → Follows rest' →
      v.aliasWords ++ rest = w.aliasWords ++ rest' → v = w ∧ rest = rest'
  | .list items, w => by
    intro shaped shaped' legible legible' rest rest' follows follows' same
    cases w with
    | list others =>
      simp only [aliasWords, List.cons_append, List.append_assoc, List.nil_append, List.cons.injEq,
        true_and] at same
      simp only [isShaped] at shaped shaped'
      simp only [isLegible] at legible legible'
      have inner := orBlank_cancel itemWords_ne_blank itemWords_ne_blank same
      obtain ⟨rfl, rfl⟩ := itemWords_append_injective items others shaped shaped' legible legible' inner
      exact ⟨rfl, rfl⟩
    | _ => simp [aliasWords] at same
  | .object fields, w => by
    intro shaped shaped' legible legible' rest rest' follows follows' same
    cases w with
    | object others =>
      simp only [aliasWords, List.cons_append, List.append_assoc, List.nil_append, List.cons.injEq,
        true_and] at same
      simp only [isShaped] at shaped shaped'
      simp only [isLegible] at legible legible'
      have inner := orBlank_cancel fieldWords_ne_blank fieldWords_ne_blank same
      obtain ⟨rfl, rfl⟩ := fieldWords_append_injective fields others shaped shaped' legible legible'
        follows follows' inner
      exact ⟨rfl, rfl⟩
    | _ => simp [aliasWords] at same
  | .variable _, _ | .int _, _ | .float _, _ | .string _, _ | .boolean _, _ | .null, _ | .enum _, _ => by
    intro shaped shaped' _ _ rest rest' follows follows' same
    exact textValue_append_injective rfl shaped shaped' follows.ends follows'.ends same
theorem itemWords_append_injective : ∀ items others : List Value,
    areShaped items = true → areShaped others = true →
    areLegibleItems items = true → areLegibleItems others = true → ∀ {rest rest' : List Word},
      itemWords items ++ ['a'] :: rest = itemWords others ++ ['a'] :: rest' →
        items = others ∧ rest = rest'
  | [], [] => by simp [itemWords]
  | [], w :: others => by
    intro _ _ _ legible' rest rest' same
    simp only [areLegibleItems, Bool.and_eq_true, Bool.not_eq_true'] at legible'
    rw [itemWords, itemWords, List.nil_append, List.append_assoc] at same
    exact absurd same (close_ne_item legible'.1.1)
  | v :: items, [] => by
    intro _ _ legible _ rest rest' same
    simp only [areLegibleItems, Bool.and_eq_true, Bool.not_eq_true'] at legible
    rw [itemWords, itemWords, List.nil_append, List.append_assoc] at same
    exact absurd same.symm (close_ne_item legible.1.1)
  | v :: items, w :: others => by
    intro shaped shaped' legible legible' rest rest' same
    simp only [areShaped, areLegibleItems, Bool.and_eq_true] at shaped shaped' legible legible'
    rw [itemWords, itemWords, List.append_assoc, List.append_assoc] at same
    obtain ⟨rfl, tail⟩ := aliasWords_append_injective v w shaped.1 shaped'.1 legible.1.2 legible'.1.2
      (follows_items items rest) (follows_items others rest') same
    obtain ⟨rfl, rfl⟩ := itemWords_append_injective items others shaped.2 shaped'.2 legible.2 legible'.2 tail
    exact ⟨rfl, rfl⟩
theorem fieldWords_append_injective : ∀ fields others : List (String × Value),
    areShapedFields fields = true → areShapedFields others = true →
    areLegibleFields fields = true → areLegibleFields others = true → ∀ {rest rest' : List Word},
      Follows rest → Follows rest' →
      fieldWords fields ++ ['c'] :: rest = fieldWords others ++ ['c'] :: rest' →
        fields = others ∧ rest = rest'
  | [], [] => by simp [fieldWords]
  | [], (key, w) :: others => by
    intro _ _ _ _ rest rest' follows _ same
    rw [fieldWords, fieldWords, List.nil_append, List.append_assoc, List.cons_append,
      List.append_assoc] at same
    exact absurd same (close_ne_key follows)
  | (key, v) :: fields, [] => by
    intro _ _ _ _ rest rest' _ follows' same
    rw [fieldWords, fieldWords, List.nil_append, List.append_assoc, List.cons_append,
      List.append_assoc] at same
    exact absurd same.symm (close_ne_key follows')
  | (key, v) :: fields, (key', w) :: others => by
    intro shaped shaped' legible legible' rest rest' follows follows' same
    simp only [areShapedFields, Bool.and_eq_true] at shaped shaped'
    simp only [areLegibleFields, Bool.and_eq_true] at legible legible'
    rw [fieldWords, fieldWords, List.append_assoc, List.append_assoc, List.cons_append, List.cons_append,
      List.append_assoc, List.append_assoc] at same
    have blank (words : List Word) : Ends ([] :: words) := ends_cons (not_isEscape_of_length (by simp))
    obtain ⟨rfl, value⟩ := textWords_append_injective (blank _) (blank _) same
    obtain ⟨rfl, tail⟩ := aliasWords_append_injective v w shaped.1.2 shaped'.1.2 legible.1.2 legible'.1.2
      (follows_fields fields rest shaped.2 legible.2) (follows_fields others rest' shaped'.2 legible'.2)
      (List.cons.inj value).2
    obtain ⟨rfl, rfl⟩ := fieldWords_append_injective fields others shaped.2 shaped'.2 legible.2 legible'.2
      follows follows' tail
    exact ⟨rfl, rfl⟩
end

end Value

/-! ## Reading arguments -/

/-- Whether the values of all arguments are legible. The names of arguments are free. -/
def areLegible (arguments : List (String × Value)) : Bool := arguments.all (·.2.isLegible)

theorem follows_arguments (arguments : List (String × Value)) :
    Follows (arguments.flatMap argumentWords) := by
  cases arguments with
  | nil => exact follows_nil
  | cons argument rest => exact follows_blanks _

/-- The words of legible arguments determine them. -/
theorem flatMap_argumentWords_injective (left : List (String × Value)) :
    ∀ {right : List (String × Value)}, Value.areShapedFields left = true →
      Value.areShapedFields right = true → areLegible left = true → areLegible right = true →
      left.flatMap argumentWords = right.flatMap argumentWords → left = right := by
  induction left with
  | nil =>
    intro right _ _ _ _ same
    cases right with
    | nil => rfl
    | cons argument right => simp [argumentWords] at same
  | cons argument left ih =>
    intro right shaped shaped' legible legible' same
    cases right with
    | nil => simp [argumentWords] at same
    | cons other right =>
      obtain ⟨name, v⟩ := argument
      obtain ⟨name', w⟩ := other
      simp only [Value.areShapedFields, Bool.and_eq_true] at shaped shaped'
      simp only [areLegible, List.all_cons, Bool.and_eq_true] at legible legible'
      simp only [List.flatMap_cons, argumentWords, List.cons_append, List.append_assoc, List.cons.injEq,
        true_and] at same
      have blank (words : List Word) : Ends ([] :: words) :=
        ends_cons (not_isEscape_of_length (by simp))
      obtain ⟨rfl, value⟩ := textWords_append_injective (blank _) (blank _) same
      obtain ⟨rfl, tail⟩ := Value.aliasWords_append_injective v w shaped.1.2 shaped'.1.2 legible.1
        legible'.1 (follows_arguments left) (follows_arguments right)
        (List.cons.inj (List.cons.inj value).2).2
      rw [ih shaped.2 shaped'.2 legible.2 legible'.2 tail]

/-- **When a store key determines the arguments.** Two argument lists of a field share a key exactly
when they share their words, and among arguments that are legible exactly when they are equal. -/
theorem storeKey_determines_arguments (field : String) (left right : List (String × Value))
    (shaped : Value.areShapedFields left = true) (shaped' : Value.areShapedFields right = true) :
    (storeKey field left = storeKey field right ↔
      left.flatMap argumentWords = right.flatMap argumentWords) ∧
    (areLegible left = true → areLegible right = true →
      (storeKey field left = storeKey field right ↔ left = right)) := by
  refine ⟨storeKey_eq_iff_words field left right, fun legible legible' => ⟨fun same => ?_, ?_⟩⟩
  · exact flatMap_argumentWords_injective left shaped shaped' legible legible'
      ((storeKey_eq_iff_words field left right).1 same)
  · rintro rfl
    rfl

/-- Arguments of every sort, with texts that are empty, need escapes or look like escapes, and keys
that look like tags. -/
def mixedArguments : List (String × Value) :=
  [("filter", .object [("s", .string ""), ("a", .list [.int (-3), .float "2.5e3", .enum "x20"]),
    ("c", .object [("_x", .string "x20 é"), ("v", .null)])]), ("first", .variable "n")]

theorem storeKey_determines_mixedArguments :
    Value.areShapedFields mixedArguments = true ∧ areLegible mixedArguments = true ∧
      (storeKey "f" mixedArguments = storeKey "f" mixedArguments.reverse ↔
        mixedArguments = mixedArguments.reverse) := by
  have shaped : Value.areShapedFields mixedArguments = true := by decide +kernel
  have shaped' : Value.areShapedFields mixedArguments.reverse = true := by decide +kernel
  exact ⟨shaped, by decide +kernel,
    (storeKey_determines_arguments "f" _ _ shaped shaped').2 (by decide +kernel) (by decide +kernel)⟩

/-! ## Shared keys -/

/-- The word that closes a list also opens one, so lists inside a list can be grouped in two ways. -/
theorem aliasChunk_regrouped (x y z : Value) :
    (Value.list [.list [x], y, .list [z]]).aliasChunk =
      (Value.list [.list [x, .list [y], z]]).aliasChunk := by
  rw [← String.toList_inj, Value.toList_aliasChunk, Value.toList_aliasChunk]
  congr 1
  simp [Value.aliasWords, Value.itemWords, orBlank, Value.aliasWords_ne_nil]

/-- Different arguments of the shapes that a literal writes share a key: once because lists are nested,
once because a key of an object continues the text before it. -/
theorem storeKey_shared :
    (Value.areShapedFields [("x", .list [.list [.int 1], .int 2, .list [.int 3]])] = true ∧
      Value.areShapedFields [("x", .list [.list [.int 1, .list [.int 2], .int 3]])] = true ∧
      [("x", Value.list [.list [.int 1], .int 2, .list [.int 3]])] ≠
        [("x", .list [.list [.int 1, .list [.int 2], .int 3]])] ∧
      storeKey "f" [("x", .list [.list [.int 1], .int 2, .list [.int 3]])] =
        storeKey "f" [("x", .list [.list [.int 1, .list [.int 2], .int 3]])]) ∧
    (Value.areShapedFields [("x", .object [("k", .string "b"), ("x20_c", .int 1)])] = true ∧
      Value.areShapedFields [("x", .object [("k", .string "b x5F"), ("c", .int 1)])] = true ∧
      [("x", Value.object [("k", .string "b"), ("x20_c", .int 1)])] ≠
        [("x", .object [("k", .string "b x5F"), ("c", .int 1)])] ∧
      storeKey "f" [("x", .object [("k", .string "b"), ("x20_c", .int 1)])] =
        storeKey "f" [("x", .object [("k", .string "b x5F"), ("c", .int 1)])]) := by
  refine ⟨⟨by decide +kernel, by decide +kernel, by simp, by decide +kernel⟩,
    ⟨by decide +kernel, by decide +kernel, by simp, by decide +kernel⟩⟩

end IsoLiteral
