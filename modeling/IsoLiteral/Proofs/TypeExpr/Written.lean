import IsoLiteral.Proofs.StoreKey.Reading

/-!
# Texts of type annotations

A text is written for an annotation when it is the annotation's name, brackets around a text of its item, or
a text with a `!` behind it, with white space at either end of any of these. The reader, which takes marks
off both ends and trims what is left, accepts exactly these texts. So white space may be added next to a mark
or at the ends of a text, and taken away anywhere, without changing what is read.
-/

namespace IsoLiteral

namespace Text

variable {c : Char}

/-! ## Trimming -/

theorem trimEnd_eq_rdropWhile (text : List Char) : trimEnd text = text.rdropWhile isBlank := rfl

theorem trim_cons_blank (blank : isBlank c = true) (text : List Char) : trim (c :: text) = trim text :=
  congrArg trimEnd (List.dropWhile_cons_of_pos blank)

theorem trim_concat_blank (blank : isBlank c = true) (text : List Char) :
    trim (text ++ [c]) = trim text := by
  rw [trim, trim, trimStart, trimStart, List.dropWhile_append]
  split
  · rename_i none
    rw [List.isEmpty_iff.1 none, List.dropWhile_cons_of_pos blank, List.dropWhile_nil]
  · exact List.rdropWhile_concat_pos _ _ _ blank

/-- Where something is left of a text, what stands behind it is not trimmed from the front. -/
theorem trimStart_append {text : List Char} (rest : trimStart text ≠ []) (back : List Char) :
    trimStart (text ++ back) = trimStart text ++ back := by
  rw [trimStart, List.dropWhile_append, if_neg]
  · rfl
  · rwa [List.isEmpty_iff]

theorem trimEnd_cons (c : Char) {text : List Char} (rest : trimEnd text ≠ []) :
    trimEnd (c :: text) = c :: trimEnd text := by
  have reversed : trimStart text.reverse ≠ [] := fun none => rest (congrArg List.reverse none)
  have front := trimStart_append reversed [c]
  rw [← List.reverse_cons] at front
  have back := congrArg List.reverse front
  rwa [List.reverse_append] at back

theorem trimStart_of_head {text : List Char} (first : ∀ c ∈ text.head?, isBlank c = false) :
    trimStart text = text := by
  cases text with
  | nil => rfl
  | cons c rest => exact List.dropWhile_cons_of_neg (by simp [first c rfl])

theorem trimEnd_of_getLast {text : List Char} (last : ∀ c ∈ text.getLast?, isBlank c = false) :
    trimEnd text = text := by
  rw [trimEnd_eq_rdropWhile, List.rdropWhile_eq_self_iff]
  intro nonempty
  rw [last _ (List.getLast?_eq_some_getLast nonempty)]
  exact Bool.false_ne_true

/-- A text between two characters that are not white space is trimmed already. -/
theorem trim_of_ends {text : List Char} (first : ∀ c ∈ text.head?, isBlank c = false)
    (last : ∀ c ∈ text.getLast?, isBlank c = false) : trim text = text := by
  rw [trim, trimStart_of_head first, trimEnd_of_getLast last]

/-- A mark at the end of a text keeps white space in front of it from being trimmed. -/
theorem trim_concat_mark (mark : isBlank c = false) (text : List Char) :
    trim (text ++ [c]) = trimStart text ++ [c] := by
  have last : ¬ isBlank c = true := by simp [mark]
  rw [trim, trimStart, trimStart, List.dropWhile_append]
  split
  · rename_i none
    rw [List.isEmpty_iff.1 none, List.dropWhile_cons_of_neg last]
    exact List.rdropWhile_concat_neg _ [] c last
  · exact List.rdropWhile_concat_neg _ _ _ last

end Text

open Text

namespace TypeExpr

variable {t inner : TypeExpr} {text front back : List Char} {c last : Char}

/-! ## Written texts -/

/-- The texts that are written for an annotation. -/
inductive Written : TypeExpr → List Char → Prop where
  | named {name : String} : isName name = true → Written (.named name) name.toList
  | list {item : TypeExpr} {text : List Char} : Written item text → Written (.list item) ('[' :: (text ++ [']']))
  | nonNull {inner : TypeExpr} {text : List Char} :
    Written inner text → inner.isNonNull = false → Written (.nonNull inner) (text ++ ['!'])
  | before {t : TypeExpr} {c : Char} {text : List Char} :
    isBlank c = true → Written t text → Written t (c :: text)
  | after {t : TypeExpr} {c : Char} {text : List Char} :
    isBlank c = true → Written t text → Written t (text ++ [c])

theorem Written.append_blanks (written : Written t text) (blank : ∀ c ∈ back, isBlank c = true) :
    Written t (text ++ back) := by
  induction back generalizing text with
  | nil => rwa [List.append_nil]
  | cons c back ih =>
    rw [List.append_cons]
    exact ih (written.after (blank c List.mem_cons_self)) fun d among => blank d (List.mem_cons_of_mem c among)

theorem Written.blanks_append (written : Written t text) (blank : ∀ c ∈ front, isBlank c = true) :
    Written t (front ++ text) := by
  induction front with
  | nil => exact written
  | cons c front ih =>
    exact (ih fun d among => blank d (List.mem_cons_of_mem c among)).before (blank c List.mem_cons_self)

theorem Written.of_trimEnd (written : Written t (trimEnd text)) : Written t text := by
  rw [← List.rdropWhile_append_rtakeWhile (p := isBlank) (l := text)]
  exact written.append_blanks fun _ => List.mem_rtakeWhile_imp

theorem Written.of_trim (written : Written t (trim text)) : Written t text := by
  rw [← List.takeWhile_append_dropWhile (p := isBlank) (l := text)]
  exact written.of_trimEnd.blanks_append fun _ => List.mem_takeWhile_imp

/-! ## What the reader accepts -/

theorem stripLast?_eq_some_iff : stripLast? last text = some front ↔ text = front ++ [last] := by
  rw [stripLast?]
  constructor
  · intro stripped
    split at stripped
    · rename_i ends
      obtain ⟨front', rfl⟩ := List.getLast?_eq_some_iff.1 ends
      rw [List.dropLast_concat] at stripped
      rw [Option.some.inj stripped]
    · cases stripped
  · rintro rfl
    rw [if_pos List.getLast?_concat, List.dropLast_concat]

theorem stripLast?_eq_none (other : text.getLast? ≠ some last) : stripLast? last text = none :=
  if_neg other

/-- A text without a final `!` is written for what it is read as, which is not non-null, if this holds of
the items. -/
theorem written_of_ofBody? {item : List Char → Option TypeExpr}
    (items : ∀ {t text}, item text = some t → Written t text) (read : ofBody? item text = some t) :
    Written t text ∧ t.isNonNull = false := by
  unfold ofBody? at read
  split at read
  · obtain ⟨inner, stripped, more⟩ := Option.bind_eq_some_iff.1 read
    obtain ⟨i, inside, same⟩ := Option.bind_eq_some_iff.1 more
    rw [stripLast?_eq_some_iff.1 stripped]
    cases same
    exact ⟨.list (items inside), rfl⟩
  · split at read
    · rename_i named
      cases read
      have written := @Written.named (String.ofList text) (by rwa [isName, String.toList_ofList])
      rw [String.toList_ofList] at written
      exact ⟨written, rfl⟩
    · cases read

theorem written_of_ofChars? (bound : Nat) : ∀ {t text}, ofChars? bound text = some t → Written t text := by
  induction bound with
  | zero => exact nofun
  | succ bound ih =>
    intro t text read
    rw [ofChars?] at read
    split at read
    · rename_i body stripped
      obtain ⟨inner, plain, rfl⟩ := Option.map_eq_some_iff.1 read
      obtain ⟨written, nullable⟩ := written_of_ofBody? ih plain
      have whole := Written.nonNull written.of_trimEnd nullable
      rw [← stripLast?_eq_some_iff.1 stripped] at whole
      exact whole.of_trim
    · exact (written_of_ofBody? ih read).1.of_trim

/-! ### Every written text -/

theorem isBlank_of_isNameChar (part : isNameChar c = true) : isBlank c = false := by
  have each : ∀ n < 128, isNameChar (Char.ofNat n) = true → isBlank (Char.ofNat n) = false := by decide
  have here := each c.toNat (toNat_lt_of_isNameChar part)
  rw [Char.ofNat_toNat] at here
  exact here part

theorem ofBody?_named {item : List Char → Option TypeExpr} {name : String} (named : isName name = true) :
    ofBody? item name.toList = some (.named name) := by
  rw [isName] at named
  unfold ofBody?
  split
  · rename_i rest chars
    rw [chars] at named
    exact absurd named (by simp [isIdentifier])
  · rw [if_pos named, String.ofList_toList]

/-- What is read without a final `!` is read off the trimmed text as a whole. -/
theorem ofBody?_of_ofChars? {bound : Nat} (read : ofChars? (bound + 1) text = some t)
    (nullable : t.isNonNull = false) : ofBody? (ofChars? bound) (trim text) = some t := by
  rw [ofChars?] at read
  split at read
  · obtain ⟨inner, -, rfl⟩ := Option.map_eq_some_iff.1 read
    cases nullable
  · exact read

theorem ofChars?_named {name : String} (named : isName name = true) (bound : Nat) :
    ofChars? (bound + 1) name.toList = some (.named name) := by
  have part (c : Char) (among : c ∈ name.toList) : isNameChar c = true :=
    List.all_eq_true.1 (all_isNameChar named) c among
  have trimmed : trim name.toList = name.toList :=
    trim_of_ends (fun c first => isBlank_of_isNameChar (part c (List.mem_of_mem_head? first)))
      fun c last => isBlank_of_isNameChar (part c (List.mem_of_getLast? last))
  have noMark : name.toList.getLast? ≠ some '!' := fun last =>
    absurd (part '!' (List.mem_of_getLast? last)) (by decide)
  rw [ofChars?, trimmed, stripLast?_eq_none noMark]
  exact ofBody?_named named

theorem ofChars?_list {bound : Nat} {item : TypeExpr} (read : ofChars? bound text = some item) :
    ofChars? (bound + 1) ('[' :: (text ++ [']'])) = some (.list item) := by
  have last : ('[' :: (text ++ [']'])).getLast? = some ']' := List.getLast?_concat (l := '[' :: text)
  have trimmed : trim ('[' :: (text ++ [']'])) = '[' :: (text ++ [']']) := by
    refine trim_of_ends ?_ ?_
    · rintro _ ⟨⟩
      rfl
    · rw [last]
      rintro _ ⟨⟩
      rfl
  have inner : stripLast? ']' (text ++ [']']) = some text := stripLast?_eq_some_iff.2 rfl
  rw [ofChars?, trimmed, stripLast?_eq_none (by rw [last]; decide)]
  dsimp only
  rw [ofBody?, inner]
  show (ofChars? bound text).bind _ = _
  rw [read]
  rfl

theorem ofChars?_nonNull {bound : Nat} {inner : TypeExpr} (read : ofChars? (bound + 1) text = some inner)
    (nullable : inner.isNonNull = false) : ofChars? (bound + 1) (text ++ ['!']) = some (.nonNull inner) := by
  have body : ofBody? (ofChars? bound) (trimEnd (trimStart text)) = some inner :=
    ofBody?_of_ofChars? read nullable
  rw [ofChars?, trim_concat_mark rfl, stripLast?_eq_some_iff.2 rfl]
  dsimp only
  rw [body]
  rfl

/-- Every written text is read, by induction on how it is written. -/
theorem ofChars?_of_written (written : Written t text) :
    ∀ {bound}, text.length < bound → ofChars? bound text = some t := by
  induction written with
  | named named =>
    rintro (_ | bound) fits
    · cases fits
    exact ofChars?_named named bound
  | list _ ih =>
    rintro (_ | bound) fits
    · cases fits
    rw [List.length_cons, List.length_append] at fits
    exact ofChars?_list (ih (by omega))
  | nonNull _ nullable ih =>
    rintro (_ | bound) fits
    · cases fits
    rw [List.length_append] at fits
    exact ofChars?_nonNull (ih (by omega)) nullable
  | before blank _ ih =>
    rintro (_ | bound) fits
    · cases fits
    have read := ih (Nat.lt_of_succ_lt fits)
    rwa [ofChars?, ← trim_cons_blank blank] at read
  | after blank _ ih =>
    rintro (_ | bound) fits
    · cases fits
    rw [List.length_append] at fits
    have read := ih (Nat.lt_of_succ_lt fits)
    rwa [ofChars?, ← trim_concat_blank blank] at read

/-- A text is read as an annotation exactly when it is written for it. -/
theorem ofString?_eq_some_iff {text : String} : ofString? text = some t ↔ Written t text.toList :=
  ⟨written_of_ofChars? _, fun written => ofChars?_of_written written (Nat.lt_succ_self _)⟩

/-! ## White space -/

/-- The marks of a type annotation. -/
def isMark (c : Char) : Bool := c ∈ ['[', ']', '!']

/-- Where white space may be added between two parts of a text: at an end of it, or next to a mark, apart from
the white space that is there already. -/
def Gap (front back : List Char) : Prop :=
  trimEnd front = [] ∨ trimStart back = [] ∨ (∃ c ∈ (trimEnd front).getLast?, isMark c = true) ∨
    ∃ c ∈ (trimStart back).head?, isMark c = true

theorem Gap.of_cons (gap : Gap (c :: front) back) : Gap front back := by
  cases rest : trimEnd front with
  | nil => exact .inl rest
  | cons d rest' =>
    have whole : trimEnd (c :: front) = c :: d :: rest' := by
      rw [← rest]
      exact trimEnd_cons c (by rw [rest]; exact List.cons_ne_nil _ _)
    rw [Gap, whole, List.getLast?_cons_cons, ← rest] at gap
    exact .inr (gap.resolve_left (List.cons_ne_nil _ _))

theorem Gap.of_concat (gap : Gap front (back ++ [c])) : Gap front back := by
  cases rest : trimStart back with
  | nil => exact .inr (.inl rest)
  | cons d rest' =>
    have whole : trimStart (back ++ [c]) = d :: (rest' ++ [c]) := by
      rw [trimStart_append (by rw [rest]; exact List.cons_ne_nil _ _), rest, List.cons_append]
    rw [Gap, whole] at gap
    rw [Gap, rest]
    exact gap.imp_right fun gap => .inr (gap.resolve_left (List.cons_ne_nil _ _))

theorem isMark_of_isNameChar (part : isNameChar c = true) : isMark c = false := by
  have each : ['[', ']', '!'].all (isNameChar · = false) = true := by decide
  refine decide_eq_false fun mark => ?_
  rw [of_decide_eq_true (List.all_eq_true.1 each c mark)] at part
  cases part

/-- A name has a gap only at its ends. -/
theorem Gap.of_name {name : String} (named : isName name = true) (same : name.toList = front ++ back)
    (gap : Gap front back) : front = [] ∨ back = [] := by
  have plain (d : Char) (among : d ∈ front ++ back) : isMark d = false :=
    isMark_of_isNameChar (List.all_eq_true.1 (all_isNameChar named) d (same ▸ among))
  have solid (d : Char) (among : d ∈ front ++ back) : isBlank d = false :=
    isBlank_of_isNameChar (List.all_eq_true.1 (all_isNameChar named) d (same ▸ among))
  rw [Gap, trimEnd_of_getLast fun d last => solid d (List.mem_append_left _ (List.mem_of_getLast? last)),
    trimStart_of_head fun d first => solid d (List.mem_append_right _ (List.mem_of_mem_head? first))] at gap
  obtain none | none | ⟨d, last, mark⟩ | ⟨d, first, mark⟩ := gap
  · exact .inl none
  · exact .inr none
  · rw [plain d (List.mem_append_left _ (List.mem_of_getLast? last))] at mark
    cases mark
  · rw [plain d (List.mem_append_right _ (List.mem_of_mem_head? first))] at mark
    cases mark

theorem Written.insert_end (written : Written t (front ++ back)) (blank : isBlank c = true)
    (ends : front = [] ∨ back = []) : Written t (front ++ c :: back) := by
  obtain rfl | rfl := ends
  · exact written.before blank
  · rw [List.append_nil] at written
    exact written.after blank

/-- White space added at a gap of a written text does not change what the text is written for. Away from
the ends of the text, the gap is one of the text inside. -/
theorem Written.insert (written : Written t text) (blank : isBlank c = true) :
    ∀ {front back}, text = front ++ back → Gap front back → Written t (front ++ c :: back) := by
  induction written with
  | @named name named =>
    intro front back same gap
    have whole := Written.named named
    rw [same] at whole
    exact whole.insert_end blank (gap.of_name named same)
  | @list item text written ih =>
    intro front back same gap
    have whole := Written.list written
    rw [same] at whole
    rcases front with _ | ⟨d, front⟩
    · exact whole.insert_end blank (.inl rfl)
    obtain none | ⟨back, e, rfl⟩ := List.eq_nil_or_concat' back
    · exact whole.insert_end blank (.inr none)
    rw [List.cons_append, ← List.append_assoc] at same
    obtain ⟨rfl, tail⟩ := List.cons.inj same
    obtain ⟨inside, rfl⟩ := List.append_singleton_inj.1 tail
    have inner := (ih inside gap.of_cons.of_concat).list
    rwa [List.append_assoc] at inner
  | @nonNull u text written nullable ih =>
    intro front back same gap
    have whole := written.nonNull nullable
    rw [same] at whole
    obtain none | ⟨back, e, rfl⟩ := List.eq_nil_or_concat' back
    · exact whole.insert_end blank (.inr none)
    rw [← List.append_assoc] at same
    obtain ⟨inside, rfl⟩ := List.append_singleton_inj.1 same
    have inner := (ih inside gap.of_concat).nonNull nullable
    rwa [List.append_assoc] at inner
  | @before u e text other written ih =>
    intro front back same gap
    rcases front with _ | ⟨d, front⟩
    · obtain rfl : e :: text = back := same
      exact (written.before other).before blank
    obtain ⟨rfl, inside⟩ := List.cons.inj same
    exact (ih inside gap.of_cons).before other
  | @after u e text other written ih =>
    intro front back same gap
    obtain rfl | ⟨back, d, rfl⟩ := List.eq_nil_or_concat' back
    · rw [List.append_nil] at same
      rw [← same]
      exact (written.after other).after blank
    rw [← List.append_assoc] at same
    obtain ⟨inside, rfl⟩ := List.append_singleton_inj.1 same
    have inner := (ih inside gap.of_concat).after other
    rwa [List.append_assoc] at inner

/-- White space taken away from a written text does not change what the text is written for. -/
theorem Written.erase (written : Written t text) (blank : isBlank c = true) :
    ∀ {front back}, text = front ++ c :: back → Written t (front ++ back) := by
  have noMark {d : Char} (mark : isBlank d = false) : c ≠ d := by
    rintro rfl
    rw [blank] at mark
    cases mark
  induction written with
  | @named name named =>
    intro front back same
    have part : isNameChar c = true :=
      List.all_eq_true.1 (all_isNameChar named) c (by simp [same])
    exact absurd rfl (noMark (isBlank_of_isNameChar part))
  | @list item text written ih =>
    intro front back same
    rcases front with _ | ⟨d, front⟩
    · exact absurd (List.cons.inj same).1.symm (noMark rfl)
    rw [List.cons_append] at same
    obtain ⟨rfl, tail⟩ := List.cons.inj same
    obtain rfl | ⟨back, e, rfl⟩ := List.eq_nil_or_concat' back
    · exact absurd (List.append_singleton_inj.1 tail).2.symm (noMark rfl)
    rw [← List.cons_append, ← List.append_assoc] at tail
    obtain ⟨inside, rfl⟩ := List.append_singleton_inj.1 tail
    have inner := (ih inside).list
    rwa [List.append_assoc] at inner
  | @nonNull u text written nullable ih =>
    intro front back same
    obtain rfl | ⟨back, e, rfl⟩ := List.eq_nil_or_concat' back
    · exact absurd (List.append_singleton_inj.1 same).2.symm (noMark rfl)
    rw [← List.cons_append, ← List.append_assoc] at same
    obtain ⟨inside, rfl⟩ := List.append_singleton_inj.1 same
    have inner := (ih inside).nonNull nullable
    rwa [List.append_assoc] at inner
  | @before u e text other written ih =>
    intro front back same
    rcases front with _ | ⟨d, front⟩
    · rw [List.nil_append, ← (List.cons.inj same).2]
      exact written
    obtain ⟨rfl, inside⟩ := List.cons.inj same
    exact (ih inside).before other
  | @after u e text other written ih =>
    intro front back same
    obtain rfl | ⟨back, d, rfl⟩ := List.eq_nil_or_concat' back
    · rw [List.append_nil, ← (List.append_singleton_inj.1 same).1]
      exact written
    rw [← List.cons_append, ← List.append_assoc] at same
    obtain ⟨inside, rfl⟩ := List.append_singleton_inj.1 same
    have inner := (ih inside).after other
    rwa [List.append_assoc] at inner

theorem written_insert_iff (blank : isBlank c = true) (gap : Gap front back) :
    Written t (front ++ c :: back) ↔ Written t (front ++ back) :=
  ⟨fun written => written.erase blank rfl, fun written => written.insert blank rfl gap⟩

/-- Texts that differ by white space which the second one has at some more gaps. -/
inductive Loosened (text : List Char) : List Char → Prop where
  | refl : Loosened text text
  | step {c : Char} {front back : List Char} :
    Loosened text (front ++ back) → Gap front back → isBlank c = true → Loosened text (front ++ c :: back)

theorem Loosened.written_iff {looser : List Char} (loosened : Loosened text looser) :
    Written t looser ↔ Written t text := by
  induction loosened with
  | refl => rfl
  | step _ gap blank ih => exact (written_insert_iff blank gap).trans ih

/-- White space between the parts of a text does not matter for what is read, nor for whether anything is. -/
theorem ofString?_of_loosened {text looser : String} (loosened : Loosened text.toList looser.toList) :
    ofString? looser = ofString? text :=
  Option.ext fun _ => by
    rw [ofString?_eq_some_iff, ofString?_eq_some_iff, loosened.written_iff]

end TypeExpr

end IsoLiteral
