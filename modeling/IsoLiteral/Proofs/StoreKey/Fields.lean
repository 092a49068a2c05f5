import IsoLiteral.Proofs.StoreKey.Reading

/-!
# Which field a key is of

A key of a selection with arguments starts with the escaped name of its field, which can be read off it. A
selection without arguments has the name of its field for its key as it is. So keys of different fields
differ, except where a field is named like the key of a selection of another field. Such a name has four
underscores in a row.
-/

namespace IsoLiteral

/-- What separates the arguments in a key does not continue the name of the field. -/
theorem ends_argumentWords (arguments : List (String × Value)) : Ends (arguments.flatMap argumentWords) := by
  cases arguments with
  | nil => exact ends_nil
  | cons argument rest => exact ends_cons (not_isEscape_of_length (by simp))

/-- With arguments, a key determines the field and the words of its arguments. -/
theorem storeKey_eq_iff_of_arguments {field other : String} {left right : List (String × Value)}
    (given : left ≠ []) (given' : right ≠ []) :
    storeKey field left = storeKey other right ↔
      field = other ∧ left.flatMap argumentWords = right.flatMap argumentWords := by
  constructor
  · intro same
    have words : textWords field ++ left.flatMap argumentWords =
        textWords other ++ right.flatMap argumentWords := by
      rw [← String.toList_inj, toList_storeKey field given, toList_storeKey other given'] at same
      exact spell_injective (by simp [textWords_ne_nil]) (by simp [textWords_ne_nil])
        (underscore_notMem_keyWords field left) (underscore_notMem_keyWords other right) same
    exact textWords_append_injective (ends_argumentWords left) (ends_argumentWords right) words
  · rintro ⟨rfl, words⟩
    exact (storeKey_eq_iff_words field left right).2 words

/-- Without arguments, a field is named like the key of a selection with arguments. -/
structure NamedLikeKey (field : String) (left : List (String × Value)) (other : String)
    (right : List (String × Value)) : Prop where
  bare : left = []
  given : right ≠ []
  named : field = storeKey other right

/-- Without arguments, a key is the name of the field. -/
@[simp] theorem storeKey_nil (field : String) : storeKey field [] = field := rfl

theorem NamedLikeKey.storeKey_eq {field other : String} {left right : List (String × Value)}
    (h : NamedLikeKey field left other right) : storeKey field left = storeKey other right := by
  rw [h.bare, storeKey_nil, h.named]

/-- No field is named like a key of its own. -/
theorem NamedLikeKey.ne {field other : String} {left right : List (String × Value)}
    (h : NamedLikeKey field left other right) : field ≠ other := by
  rintro rfl
  exact storeKey_ne_field field h.given h.named.symm

/-- **Which selections share a key**: those of one field whose arguments have the same words, and those of
two fields of which one is named like the key of the other. -/
theorem storeKey_eq_iff {field other : String} {left right : List (String × Value)} :
    storeKey field left = storeKey other right ↔
      field = other ∧ left.flatMap argumentWords = right.flatMap argumentWords ∨
        NamedLikeKey field left other right ∨ NamedLikeKey other right field left := by
  constructor
  · intro same
    by_cases given : left = []
    · subst given
      by_cases given' : right = []
      · subst given'
        exact .inl ⟨same, rfl⟩
      · exact .inr (.inl ⟨rfl, given', same⟩)
    · by_cases given' : right = []
      · subst given'
        exact .inr (.inr ⟨rfl, given, same.symm⟩)
      · exact .inl ((storeKey_eq_iff_of_arguments given given').1 same)
  · rintro (⟨rfl, words⟩ | named | named)
    · exact (storeKey_eq_iff_words field left right).2 words
    · exact named.storeKey_eq
    · exact named.storeKey_eq.symm

/-! ## Plain names -/

/-- What stands before every argument in a key. -/
def keySeparator : List Char := ['_', '_', '_', '_']

/-- A name without four underscores in a row. -/
def PlainName (name : String) : Prop := ¬ keySeparator <:+: name.toList

instance (name : String) : Decidable (PlainName name) :=
  inferInstanceAs (Decidable (¬ keySeparator <:+: name.toList))

/-- A key with arguments has four underscores in a row. -/
theorem not_plainName_storeKey (field : String) {arguments : List (String × Value)}
    (given : arguments ≠ []) : ¬ PlainName (storeKey field arguments) := by
  obtain ⟨argument, rest, rfl⟩ := List.exists_cons_of_ne_nil given
  refine not_not.2 ⟨(escapeAliasText field).toList, (escapeAliasText argument.1 ++ "___" ++
    argument.2.aliasChunk ++ Text.concat (rest.map argumentChunk)).toList, ?_⟩
  simp [storeKey, Text.concat, argumentChunk, keySeparator]

/-- Fields with plain names share no key. -/
theorem eq_of_storeKey_eq {field other : String} {left right : List (String × Value)}
    (plain : PlainName field) (plain' : PlainName other)
    (same : storeKey field left = storeKey other right) : field = other := by
  rcases storeKey_eq_iff.1 same with ⟨equal, -⟩ | named | named
  · exact equal
  · rw [named.named] at plain
    exact absurd plain (not_plainName_storeKey other named.given)
  · rw [named.named] at plain'
    exact absurd plain' (not_plainName_storeKey field named.given)

end IsoLiteral
