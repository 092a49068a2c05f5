import IsoLiteral.Declaration.OfTree
import IsoLiteral.Proofs.Syntax.Scanning

/-!
# What dedenting keeps

Splitting into lines, dropping blank lines and joining the rest never touch a character that is not white
space. Cutting the common indentation does: it is counted in bytes, and a line in which that many bytes end
inside of a character is dropped as a whole. What a block string keeps is therefore, exactly, the visible
characters of its first line and of the lines the indentation can be cut from.
-/

namespace IsoLiteral

namespace Text

/-- The characters that are not white space, in order. -/
def visible (text : List Char) : List Char := text.filter (!isBlank ·)

@[simp] theorem visible_nil : visible [] = [] := rfl

@[simp] theorem visible_append (text after : List Char) :
    visible (text ++ after) = visible text ++ visible after := List.filter_append text after

theorem visible_cons_blank {c : Char} (blank : isBlank c = true) (rest : List Char) :
    visible (c :: rest) = visible rest := List.filter_cons_of_neg (by simp [blank])

theorem visible_eq_nil_iff {line : List Char} : visible line = [] ↔ isBlankLine line = true := by
  simp [visible, isBlankLine, List.filter_eq_nil_iff]

/-! ## Lines -/

theorem flatMap_visible_splitLines (text : List Char) :
    (splitLines text).flatMap visible = visible text := by
  induction text with
  | nil => rfl
  | cons c rest ih =>
    unfold splitLines
    split
    · rename_i feed
      rw [feed, List.flatMap_cons, visible_nil, List.nil_append, ih, visible_cons_blank (by decide)]
    · rw [show c :: rest = [c] ++ rest from rfl, visible_append, ← ih]
      cases splitLines rest with
      | nil => rfl
      | cons line lines =>
        show (([c] ++ line) :: lines).flatMap visible = _
        rw [List.flatMap_cons, List.flatMap_cons, visible_append, List.append_assoc]

theorem visible_stripReturn (line : List Char) : visible (stripReturn line) = visible line := by
  unfold stripReturn
  split
  · rename_i ended
    obtain ⟨front, rfl⟩ := List.getLast?_eq_some_iff.1 ended
    rw [List.dropLast_concat, visible_append, visible_cons_blank (by decide), visible_nil, List.append_nil]
  · rfl

theorem flatMap_visible_lines (text : List Char) : (lines text).flatMap visible = visible text := by
  rw [← flatMap_visible_splitLines, lines]
  rcases List.eq_nil_or_concat (splitLines text) with none | ⟨front, last, parts⟩
  · rw [none]
    rfl
  · rw [parts, List.concat_eq_append, List.dropLast_concat, List.getLastD_concat, List.flatMap_append,
      List.flatMap_append, List.flatMap_map]
    congr 1
    · simp only [visible_stripReturn]
    · cases last <;> rfl

theorem visible_unlines (lines : List (List Char)) : visible (unlines lines) = lines.flatMap visible := by
  induction lines using unlines.induct with
  | case1 => rfl
  | case2 line => simp [unlines]
  | case3 line next rest ih =>
    rw [unlines, visible_append, visible_cons_blank (by decide), ih]
    rfl

/-! ## Blank lines -/

theorem flatMap_visible_of_blank {lines : List (List Char)} (blank : ∀ line ∈ lines, isBlankLine line = true) :
    lines.flatMap visible = [] :=
  List.flatMap_eq_nil_iff.2 fun line among => visible_eq_nil_iff.2 (blank line among)

theorem isBlankLine_of_mem_takeWhile {lines : List (List Char)} :
    ∀ line ∈ lines.takeWhile isBlankLine, isBlankLine line = true := fun _ => List.mem_takeWhile_imp

theorem flatMap_visible_dropWhile (lines : List (List Char)) :
    (lines.dropWhile isBlankLine).flatMap visible = lines.flatMap visible := by
  conv_rhs => rw [← List.takeWhile_append_dropWhile (p := isBlankLine) (l := lines), List.flatMap_append,
    flatMap_visible_of_blank isBlankLine_of_mem_takeWhile, List.nil_append]

theorem flatMap_visible_reverse_dropWhile (lines : List (List Char)) :
    (lines.dropWhile isBlankLine).reverse.flatMap visible = lines.reverse.flatMap visible := by
  conv_rhs => rw [← List.takeWhile_append_dropWhile (p := isBlankLine) (l := lines), List.reverse_append,
    List.flatMap_append, flatMap_visible_of_blank fun line among =>
      isBlankLine_of_mem_takeWhile line (List.mem_reverse.1 among), List.append_nil]

theorem flatMap_visible_dropBlankEnds (lines : List (List Char)) :
    (dropBlankEnds lines).flatMap visible = lines.flatMap visible := by
  rw [dropBlankEnds, flatMap_visible_reverse_dropWhile, List.reverse_reverse, flatMap_visible_dropWhile]

/-! ## Indentation -/

theorem byteLength_cons (c : Char) (rest : List Char) :
    byteLength (c :: rest) = c.utf8Size + byteLength rest := rfl

/-- Whether the first `bytes` bytes of a line end with a character. -/
def EndsCharacter (bytes : Nat) (line : List Char) : Prop :=
  ∃ front, front <+: line ∧ byteLength front = bytes

instance (bytes : Nat) (line : List Char) : Decidable (EndsCharacter bytes line) :=
  decidable_of_iff (∃ front ∈ line.inits, byteLength front = bytes) (by
    simp only [List.mem_inits, EndsCharacter])

theorem endsCharacter_cons_iff {bytes : Nat} {c : Char} {rest : List Char} (some : 0 < bytes) :
    EndsCharacter bytes (c :: rest) ↔ c.utf8Size ≤ bytes ∧ EndsCharacter (bytes - c.utf8Size) rest := by
  constructor
  · rintro ⟨front, before, length⟩
    cases front with
    | nil => exact absurd some (by rw [← length]; exact lt_irrefl 0)
    | cons d front =>
      obtain ⟨rfl, inner⟩ := List.cons_prefix_cons.1 before
      rw [byteLength_cons] at length
      exact ⟨by omega, front, inner, by omega⟩
  · rintro ⟨fits, front, before, length⟩
    refine ⟨c :: front, List.cons_prefix_cons.2 ⟨rfl, before⟩, ?_⟩
    rw [byteLength_cons, length]
    omega

/-- Where the bytes end with a character, dropping them leaves what comes after it. -/
theorem exists_append_dropBytes {bytes : Nat} {line : List Char} (ends : EndsCharacter bytes line) :
    ∃ front, line = front ++ dropBytes bytes line ∧ byteLength front = bytes := by
  induction bytes, line using dropBytes.induct with
  | case1 line =>
    rw [dropBytes]
    exact ⟨[], rfl, rfl⟩
  | case2 bytes =>
    obtain ⟨front, before, length⟩ := ends
    rw [List.prefix_nil.1 before] at length
    cases length
  | case3 bytes c rest fits ih =>
    obtain ⟨front, same, length⟩ := ih ((endsCharacter_cons_iff bytes.succ_pos).1 ends).2
    refine ⟨c :: front, ?_, by rw [byteLength_cons, length]; omega⟩
    rw [dropBytes, if_pos fits, List.cons_append, ← same]
  | case4 bytes c rest large => exact absurd ((endsCharacter_cons_iff bytes.succ_pos).1 ends).1 large

/-- Where the bytes end inside of a character, or after the line, nothing is left. -/
theorem dropBytes_eq_nil {bytes : Nat} {line : List Char} (inside : ¬ EndsCharacter bytes line) :
    dropBytes bytes line = [] := by
  induction bytes, line using dropBytes.induct with
  | case1 line => exact absurd ⟨[], List.nil_prefix, rfl⟩ inside
  | case2 bytes => rfl
  | case3 bytes c rest fits ih =>
    rw [dropBytes, if_pos fits]
    exact ih fun ends => inside ((endsCharacter_cons_iff bytes.succ_pos).2 ⟨fits, ends⟩)
  | case4 bytes c rest large => rw [dropBytes, if_neg large]

/-- No more bytes than a line's indentation hold only white space. -/
theorem isBlankLine_of_byteLength_le {front after : List Char}
    (few : byteLength front ≤ indentOf (front ++ after)) : isBlankLine front = true := by
  induction front with
  | nil => rfl
  | cons c front ih =>
    rw [byteLength_cons, List.cons_append, indentOf] at few
    by_cases blank : isBlank c = true
    · rw [List.takeWhile_cons_of_pos blank, byteLength_cons] at few
      have rest : isBlankLine front = true := ih (Nat.le_of_add_le_add_left few)
      rw [isBlankLine, List.all_cons, blank, Bool.true_and]
      exact rest
    · rw [List.takeWhile_cons_of_neg blank] at few
      have := c.utf8Size_pos
      have none : byteLength [] = 0 := rfl
      omega

theorem commonIndent_le {lines : List (List Char)} {line : List Char} (among : line ∈ lines)
    (solid : isBlankLine line = false) : commonIndent lines ≤ indentOf line :=
  List.min?_getD_le_of_mem (List.mem_map.2 ⟨line, List.mem_filter.2 ⟨among, by rw [solid]; rfl⟩, rfl⟩)

/-- Cutting no more than its indentation from a line keeps all that is visible, or drops the line. -/
theorem visible_dropBytes {bytes : Nat} {line : List Char}
    (few : isBlankLine line = false → bytes ≤ indentOf line) :
    visible (dropBytes bytes line) = if EndsCharacter bytes line then visible line else [] := by
  split
  · rename_i ends
    obtain ⟨front, same, length⟩ := exists_append_dropBytes ends
    cases solid : isBlankLine line with
    | true =>
      have blank := visible_eq_nil_iff.2 solid
      rw [same, visible_append, List.append_eq_nil_iff] at blank
      rw [visible_eq_nil_iff.2 solid, blank.2]
    | false =>
      have short : byteLength front ≤ indentOf (front ++ dropBytes bytes line) := by
        rw [← same, length]
        exact few solid
      conv_rhs => rw [same, visible_append, visible_eq_nil_iff.2 (isBlankLine_of_byteLength_le short),
        List.nil_append]
  · rename_i inside
    rw [dropBytes_eq_nil inside, visible_nil]

/-! ## Dedenting -/

/-- The lines that dedenting keeps: the first, and those of the others that their common indentation can be
cut from. -/
def keptLines (text : List Char) : List (List Char) :=
  match lines text with
  | [] => []
  | first :: rest => first :: rest.filter (EndsCharacter (commonIndent rest))

/-- Whether the common indentation ends with a character in every line that holds more than white space. -/
def CutsCharacters (text : List Char) : Prop :=
  ∀ line ∈ (lines text).tail, isBlankLine line = false → EndsCharacter (commonIndent (lines text).tail) line

/-- Whether the lines after the first are indented with characters of one byte. -/
def NarrowIndent (text : List Char) : Prop :=
  ∀ line ∈ (lines text).tail, isBlankLine line = false → ∀ c ∈ line.takeWhile isBlank, c.utf8Size = 1

theorem flatMap_filter {α β : Type} (p : α → Bool) (f : α → List β) (items : List α) :
    (items.filter p).flatMap f = items.flatMap fun x => if p x then f x else [] := by
  induction items with
  | nil => rfl
  | cons x rest ih =>
    rw [List.flatMap_cons, ← ih, List.filter_cons]
    split <;> simp

theorem flatMap_visible_dropBytes_commonIndent (rest : List (List Char)) :
    (rest.map (dropBytes (commonIndent rest))).flatMap visible =
      (rest.filter (EndsCharacter (commonIndent rest))).flatMap visible := by
  rw [List.flatMap_map, flatMap_filter]
  refine List.flatMap_congr fun line among => ?_
  rw [visible_dropBytes (commonIndent_le among)]
  simp only [decide_eq_true_eq]

/-- Dedenting keeps the visible characters of the lines it keeps. -/
theorem visible_dedent (text : List Char) : visible (dedent text) = (keptLines text).flatMap visible := by
  unfold dedent keptLines
  cases lines text with
  | nil => rfl
  | cons first rest =>
    simp only [visible_unlines, flatMap_visible_dropBlankEnds, List.flatMap_cons,
      flatMap_visible_dropBytes_commonIndent]

theorem keptLines_sublist (text : List Char) : (keptLines text).Sublist (lines text) := by
  unfold keptLines
  cases lines text with
  | nil => exact .slnil
  | cons first rest => exact List.filter_sublist.cons_cons first

theorem visible_dedent_sublist (text : List Char) : (visible (dedent text)).Sublist (visible text) := by
  rw [visible_dedent, ← flatMap_visible_lines text]
  exact (keptLines_sublist text).flatMap visible

theorem flatMap_filter_eq_iff {α β : Type} {p : α → Bool} {f : α → List β} {items : List α} :
    (items.filter p).flatMap f = items.flatMap f ↔ ∀ x ∈ items, p x = false → f x = [] := by
  induction items with
  | nil => simp
  | cons x rest ih =>
    rw [List.forall_mem_cons, ← ih, List.flatMap_cons]
    cases kept : p x with
    | true => simp [kept]
    | false =>
      rw [List.filter_cons_of_neg (by simp [kept])]
      constructor
      · intro same
        have shorter := (List.filter_sublist.flatMap f : ((rest.filter p).flatMap f).Sublist _).length_le
        rw [same, List.length_append] at shorter
        have none : f x = [] := List.length_eq_zero_iff.1 (by omega)
        exact ⟨fun _ => none, by rw [same, none, List.nil_append]⟩
      · rintro ⟨none, same⟩
        rw [none rfl, same, List.nil_append]

/-- Nothing visible is lost exactly when the common indentation can be cut from every line. -/
theorem visible_dedent_eq_visible_iff (text : List Char) :
    visible (dedent text) = visible text ↔ CutsCharacters text := by
  rw [visible_dedent, ← flatMap_visible_lines text, CutsCharacters]
  unfold keptLines
  cases lines text with
  | nil => simp
  | cons first rest =>
    rw [List.flatMap_cons, List.flatMap_cons, List.append_cancel_left_eq, flatMap_filter_eq_iff]
    refine forall₂_congr fun line _ => ?_
    rw [visible_eq_nil_iff, decide_eq_false_iff_not, List.tail_cons]
    cases isBlankLine line <;> simp

theorem byteLength_of_narrow {text : List Char} (narrow : ∀ c ∈ text, c.utf8Size = 1) :
    byteLength text = text.length := by
  induction text with
  | nil => rfl
  | cons c rest ih =>
    obtain ⟨first, others⟩ := List.forall_mem_cons.1 narrow
    rw [byteLength_cons, first, ih others, List.length_cons, Nat.add_comm]

theorem NarrowIndent.cutsCharacters {text : List Char} (narrow : NarrowIndent text) : CutsCharacters text := by
  intro line among solid
  have few := commonIndent_le among solid
  rw [indentOf, byteLength_of_narrow (narrow line among solid)] at few
  refine ⟨(line.takeWhile isBlank).take (commonIndent (lines text).tail),
    (List.take_prefix _ _).trans (List.takeWhile_prefix _), ?_⟩
  rw [byteLength_of_narrow fun c within => narrow line among solid c (List.mem_of_mem_take within),
    List.length_take, Nat.min_eq_left few]

end Text

/-! ## Block string tokens -/

namespace Lexer

/-- The quotes on either side of a block string. -/
def blockQuotes : List Char := ['"', '"', '"']

/-- A text that block quotes enclose. -/
def Enclosed (text : List Char) : Prop := ∃ inner, text = blockQuotes ++ inner ++ blockQuotes

/-- A block string's length reaches through the first three quotes in a row. -/
theorem ends_of_blockLength? {quotes n : Nat} {text : List Char} (few : quotes ≤ 2)
    (closed : blockLength? quotes text = some n) :
    ∃ inner, List.replicate quotes '"' ++ text.take n = inner ++ blockQuotes := by
  induction text generalizing quotes n with
  | nil => cases closed
  | cons c rest ih =>
    rw [blockLength?] at closed
    split at closed
    · rename_i quote
      rw [quote]
      split at closed
      · rename_i second
        cases closed
        exact ⟨[], by rw [second]; rfl⟩
      · rename_i first
        obtain ⟨m, inner, rfl⟩ := Option.map_eq_some_iff.1 closed
        obtain ⟨inner, same⟩ := ih (by omega) inner
        refine ⟨inner, ?_⟩
        rw [← same, List.take_succ_cons, List.replicate_succ', List.append_assoc, List.singleton_append]
    · obtain ⟨m, inner, rfl⟩ := Option.map_eq_some_iff.1 closed
      obtain ⟨inner, same⟩ := ih (Nat.zero_le 2) inner
      refine ⟨List.replicate quotes '"' ++ c :: inner, ?_⟩
      rw [List.take_succ_cons, List.append_assoc, List.cons_append, ← same]
      rfl

theorem enclosed_of_quoteMatch {rest : List Char} (block : (quoteMatch rest).kind = some .blockStringValue) :
    Enclosed ('"' :: rest.take (quoteMatch rest).extra) := by
  by_cases quoted : ∃ body, rest = '"' :: '"' :: body
  · obtain ⟨body, rfl⟩ := quoted
    rw [quoteMatch_block] at block ⊢
    cases closed : blockLength? 0 body with
    | none =>
      rw [closed] at block
      cases block
    | some length =>
      obtain ⟨inner, same⟩ := ends_of_blockLength? (Nat.zero_le 2) closed
      exact ⟨inner, by
        rw [List.append_assoc, ← same]
        rfl⟩
  · rw [quoteMatch_plain (not_exists.1 quoted)] at block
    split at block <;> cases block

theorem numberMatch_ne_block (text : List Char) : (numberMatch text).2 ≠ .blockStringValue := by
  rw [numberMatch]
  split <;> nofun

theorem enclosed_of_longestMatch {c : Char} {rest : List Char}
    (block : (longestMatch c rest).kind = some .blockStringValue) :
    Enclosed (c :: rest.take (longestMatch c rest).extra) := by
  by_cases quote : c = '"'
  · subst quote
    exact enclosed_of_quoteMatch block
  · refine absurd block ?_
    unfold longestMatch
    rw [if_neg quote]
    have number := fun text same => numberMatch_ne_block text (Option.some.inj same)
    have other : punctuation? c ≠ some .blockStringValue := by
      unfold punctuation?
      split <;> nofun
    grind

/-- Pieces of which every block string is enclosed by its quotes. -/
def BlocksEnclosed (pieces : List Piece) : Prop :=
  ∀ piece ∈ pieces, piece.kind = .blockStringValue → Enclosed piece.chars

theorem blocksEnclosed_pieces (bound : Nat) (text : List Char) : BlocksEnclosed (pieces bound text) := by
  induction bound generalizing text with
  | zero => exact fun _ none => absurd none List.not_mem_nil
  | succ bound ih =>
    cases text with
    | nil => exact fun _ none => absurd none List.not_mem_nil
    | cons c rest =>
      refine List.forall_mem_cons.2 ⟨fun block => enclosed_of_longestMatch ?_, ih _⟩
      cases known : (longestMatch c rest).kind with
      | none =>
        rw [known] at block
        cases block
      | some kind =>
        rw [known] at block
        exact congrArg some block

theorem BlocksEnclosed.coalesce {pieces : List Piece} (enclosed : BlocksEnclosed pieces) :
    BlocksEnclosed (coalesce pieces) := by
  induction pieces with
  | nil => exact enclosed
  | cons piece rest ih =>
    obtain ⟨first, others⟩ := List.forall_mem_cons.1 enclosed
    have after := ih others
    show BlocksEnclosed (prepend piece (Lexer.coalesce rest))
    cases joined : Lexer.coalesce rest with
    | nil => exact List.forall_mem_cons.2 ⟨first, nofun⟩
    | cons next tail =>
      rw [joined] at after
      rw [prepend]
      split
      -- a joined piece is of no kind
      · exact List.forall_mem_cons.2 ⟨nofun, (List.forall_mem_cons.1 after).2⟩
      · exact List.forall_mem_cons.2 ⟨first, after⟩

end Lexer

/-- The characters of a block string token stand between its quotes, and dedenting them lowers it. -/
theorem exists_contentsOf_block {literal : String} {t : Token} (among : t ∈ lex literal)
    (block : t.kind = .blockStringValue) :
    ∃ inner, t.text.toList = Lexer.blockQuotes ++ inner ++ Lexer.blockQuotes ∧
      (Lowering.contentsOf t).toList = Text.dedent inner := by
  have piece := List.mem_map_of_mem (f := Token.piece) among
  rw [lex, Lexer.map_piece_place] at piece
  obtain ⟨inner, quoted⟩ := (Lexer.blocksEnclosed_pieces _ _).coalesce t.piece piece block
  refine ⟨inner, quoted, ?_⟩
  have between : Text.betweenQuotes 3 (Lexer.blockQuotes ++ inner ++ Lexer.blockQuotes) = inner := by
    simp [Text.betweenQuotes, Lexer.blockQuotes]
  rw [Lowering.contentsOf, if_pos block, Text.blockContents, String.toList_ofList,
    show t.text.toList = _ from quoted, between]

/-- **What a block string keeps.** Dedenting a text keeps the visible characters of its first line and of
the lines that the common indentation can be cut from, in order, and no others. So it keeps all of them
exactly when that many bytes end with a character in every line, as they do where the lines are indented with
characters of one byte; and a block string token keeps what stands between its quotes under the same
condition. -/
theorem visible_dedent_spec (text : List Char) :
    (Text.visible (Text.dedent text) = (Text.keptLines text).flatMap Text.visible ∧
      (Text.visible (Text.dedent text)).Sublist (Text.visible text)) ∧
    (Text.visible (Text.dedent text) = Text.visible text ↔ Text.CutsCharacters text) ∧
    (Text.NarrowIndent text → Text.CutsCharacters text) ∧
    ∀ literal, ∀ t ∈ lex literal, t.kind = .blockStringValue →
      ∃ inner, t.text.toList = Lexer.blockQuotes ++ inner ++ Lexer.blockQuotes ∧
        (Text.visible (Lowering.contentsOf t).toList = Text.visible inner ↔ Text.CutsCharacters inner) := by
  refine ⟨⟨Text.visible_dedent text, Text.visible_dedent_sublist text⟩, Text.visible_dedent_eq_visible_iff text,
    Text.NarrowIndent.cutsCharacters, fun literal t among block => ?_⟩
  obtain ⟨inner, quoted, lowered⟩ := exists_contentsOf_block among block
  exact ⟨inner, quoted, by rw [lowered, Text.visible_dedent_eq_visible_iff]⟩

/-- The second line is indented by one byte, which is half of the third line's indentation: a no-break space of
two bytes. So the third line is dropped, from the text and from a description that it is in. -/
theorem visible_line_dropped :
    Text.dedent "\n x\n\u00a0y".toList = ['x'] ∧
    Text.visible (Text.dedent "\n x\n\u00a0y".toList) ≠ Text.visible "\n x\n\u00a0y".toList ∧
    (parseDeclaration "field Query.a \"\"\"\n x\n\u00a0y\"\"\" \x7b me \x7d" 0 .unlimited).toOption.map
      (fun parsed => parsed.1.map (·.description)) = some (some (some "x")) := by
  decide +kernel

end IsoLiteral
