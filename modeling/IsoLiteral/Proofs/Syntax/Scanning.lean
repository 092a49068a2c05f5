import IsoLiteral.Syntax.Token.Lexer
import Mathlib.Data.List.TakeWhile
import Mathlib.Tactic

/-!
# Where a token stops

The longest match wins, so what comes after a token may become a part of it: a digit after a number, a quote
after an empty string. In front of a text that starts with a character which continues no token, a token
stays what it is. So the tokens that carry meaning can be taken off a text one after the other, without
regard to where in a literal the text stands.
-/

namespace IsoLiteral

namespace Lexer

/-! ## What continues a token -/

/-- Characters with which a name, a number or a string may go on. -/
def continuesToken (c : Char) : Bool :=
  continuesIdentifier c || c = '.' || c = '+' || c = '-' || c = '"'

/-- A text that cannot be taken for the rest of the token before it. -/
def Separate (after : List Char) : Prop := ∀ c ∈ after.head?, continuesToken c = false

@[simp] theorem separate_nil : Separate [] := nofun

@[simp] theorem separate_cons {c : Char} {rest : List Char} :
    Separate (c :: rest) ↔ continuesToken c = false := by
  simp [Separate]

variable {c : Char} {rest after text : List Char} {kind : SyntaxKind}

namespace Separate

theorem continuesIdentifier (separate : Separate after) :
    ∀ c ∈ after.head?, continuesIdentifier c = false := by
  intro c first
  have stops := separate c first
  simp only [continuesToken, Bool.or_eq_false_iff] at stops
  exact stops.1.1.1.1

theorem isDigit (separate : Separate after) : ∀ c ∈ after.head?, c.isDigit = false := by
  intro c first
  have stops := separate.continuesIdentifier c first
  rw [Lexer.continuesIdentifier, Bool.or_eq_false_iff] at stops
  exact stops.2

theorem ne_of_continues (separate : Separate (c :: rest)) {d : Char} (continues : continuesToken d = true) :
    c ≠ d := by
  rintro rfl
  rw [separate_cons.1 separate] at continues
  cases continues

theorem append (separate : Separate text) (apart : Separate after) : Separate (text ++ after) := by
  cases text with
  | nil => exact apart
  | cons c rest => exact separate_cons.2 (separate_cons.1 separate)

end Separate

/-! ## Numbers -/

theorem runLength_append {p : Char → Bool} (stops : ∀ c ∈ after.head?, p c = false) (text : List Char) :
    runLength p (text ++ after) = runLength p text := by
  have none : after.takeWhile p = [] := by
    cases after with
    | nil => rfl
    | cons c rest => exact List.takeWhile_cons_of_neg (by simpa using stops c rfl)
  unfold runLength
  rw [List.takeWhile_append, none, List.append_nil]
  split
  · rename_i whole
    exact whole.symm
  · rfl

theorem runLength_le (p : Char → Bool) (text : List Char) : runLength p text ≤ text.length :=
  (List.takeWhile_prefix p).length_le

theorem integerLength_of_ne (other : c ≠ '0') :
    integerLength (c :: rest) = runLength Char.isDigit (c :: rest) := by
  unfold integerLength
  split
  · rename_i zero
    cases zero
    exact absurd rfl other
  · rfl

theorem integerLength_le (text : List Char) : integerLength text ≤ text.length := by
  unfold integerLength
  split
  · simp
  · exact runLength_le _ _

theorem integerLength_append (separate : Separate after) (text : List Char) :
    integerLength (text ++ after) = integerLength text := by
  cases text with
  | nil =>
    cases after with
    | nil => rfl
    | cons c rest =>
      have none := runLength_append separate.isDigit []
      rw [List.nil_append] at none ⊢
      rw [integerLength_of_ne (separate.ne_of_continues (by decide)), none]
      rfl
  | cons c rest =>
    by_cases zero : c = '0'
    · subst zero
      rfl
    · rw [integerLength_of_ne zero, List.cons_append, integerLength_of_ne zero]
      exact runLength_append separate.isDigit (c :: rest)

theorem fractionLength_of_ne (other : c ≠ '.') : fractionLength (c :: rest) = 0 := by
  unfold fractionLength
  split
  · rename_i dot
    cases dot
    exact absurd rfl other
  · rfl

theorem fractionLength_le (text : List Char) : fractionLength text ≤ text.length := by
  unfold fractionLength
  split
  · rename_i digits
    have := runLength_le Char.isDigit digits
    rw [List.length_cons]
    split <;> omega
  · exact Nat.zero_le _

theorem fractionLength_append (separate : Separate after) (text : List Char) :
    fractionLength (text ++ after) = fractionLength text := by
  cases text with
  | nil =>
    cases after with
    | nil => rfl
    | cons c rest => exact fractionLength_of_ne (separate.ne_of_continues (by decide))
  | cons c rest =>
    by_cases dot : c = '.'
    · subst dot
      rw [List.cons_append, fractionLength, fractionLength, runLength_append separate.isDigit]
    · rw [List.cons_append, fractionLength_of_ne dot, fractionLength_of_ne dot]

/-- An exponent without a sign. -/
theorem exponentLength_unsigned (letter : (c = 'e' || c = 'E') = true)
    (unsigned : ∀ d ∈ rest.head?, d ≠ '+' ∧ d ≠ '-') :
    exponentLength (c :: rest) =
      if runLength Char.isDigit rest = 0 then 0 else runLength Char.isDigit rest + 1 := by
  rw [exponentLength.eq_def]
  dsimp only
  rw [if_pos letter]
  split
  · exact absurd rfl (unsigned _ rfl).1
  · exact absurd rfl (unsigned _ rfl).2
  · rfl

theorem exponentLength_append (separate : Separate after) (text : List Char) :
    exponentLength (text ++ after) = exponentLength text := by
  cases text with
  | nil =>
    cases after with
    | nil => rfl
    | cons c rest =>
      have small : c ≠ 'e' := separate.ne_of_continues (by decide)
      have capital : c ≠ 'E' := separate.ne_of_continues (by decide)
      simp [exponentLength, small, capital]
  | cons c rest =>
    have digits := runLength_append separate.isDigit
    by_cases letter : (c = 'e' || c = 'E') = true
    · cases rest with
      | nil =>
        have unsigned : ∀ d ∈ after.head?, d ≠ '+' ∧ d ≠ '-' := by
          intro d first
          have stops := separate d first
          constructor <;> rintro rfl <;> cases stops
        have none := digits []
        rw [List.nil_append] at none
        rw [List.singleton_append, exponentLength_unsigned letter unsigned,
          exponentLength_unsigned letter (by simp), none]
      | cons d others =>
        by_cases plus : d = '+'
        · simp only [plus, exponentLength, List.cons_append, letter, reduceIte, digits]
        · by_cases minus : d = '-'
          · simp only [minus, exponentLength, List.cons_append, letter, reduceIte, digits]
          · have unsigned (more : List Char) : ∀ e ∈ (d :: more).head?, e ≠ '+' ∧ e ≠ '-' := by
              rintro _ ⟨⟩
              exact ⟨plus, minus⟩
            have run := digits (d :: others)
            rw [List.cons_append] at run
            rw [List.cons_append, List.cons_append, exponentLength_unsigned letter (unsigned _),
              exponentLength_unsigned letter (unsigned _), run]
    · rw [List.cons_append, exponentLength.eq_def, exponentLength.eq_def]
      dsimp only
      rw [if_neg letter, if_neg letter]

theorem numberMatch_append (separate : Separate after) (text : List Char) :
    numberMatch (text ++ after) = numberMatch text := by
  have whole := integerLength_le text
  have part := fractionLength_le (text.drop (integerLength text))
  rw [List.length_drop] at part
  unfold numberMatch
  dsimp only
  rw [integerLength_append separate, List.drop_append_of_le_length whole, fractionLength_append separate,
    List.drop_append_of_le_length (by omega), exponentLength_append separate]

/-! ## Strings -/

theorem stringLength_escape (c : Char) (other : c ≠ '\n') (rest : List Char) :
    stringLength ('\\' :: c :: rest) = ((stringLength rest).1 + 2, (stringLength rest).2) := by
  rw [stringLength, if_neg other]

theorem stringLength_plain (quote : c ≠ '"') (line : c ≠ '\n') (escape : c ≠ '\\') (rest : List Char) :
    stringLength (c :: rest) = ((stringLength rest).1 + 1, (stringLength rest).2) := by
  rw [stringLength]
  · exact quote
  · exact line
  · exact fun escaped _ => escape escaped
  · exact fun _ _ escaped _ => escape escaped

/-- A string that a quote closes is closed by it whatever comes after. -/
theorem stringLength_append {n : Nat} (closed : stringLength text = (n, true)) (after : List Char) :
    stringLength (text ++ after) = (n, true) := by
  fun_induction stringLength text generalizing n with
  | case1 => cases closed
  | case2 => exact closed
  | case3 => cases closed
  | case4 => cases closed
  | case5 => cases closed
  | case6 c rest other length isClosed here ih =>
    cases closed
    rw [List.cons_append, List.cons_append, stringLength_escape c other, ih here]
  | case7 c rest quote line alone escape length isClosed here ih =>
    cases closed
    have plain : c ≠ '\\' := by
      rintro rfl
      cases rest with
      | nil => exact alone rfl rfl
      | cons d rest => exact escape d rest rfl rfl
    rw [List.cons_append, stringLength_plain quote line plain, ih here]

theorem blockLength?_append {quotes n : Nat} (closed : blockLength? quotes text = some n)
    (after : List Char) : blockLength? quotes (text ++ after) = some n := by
  induction text generalizing quotes n with
  | nil => cases closed
  | cons c rest ih =>
    rw [List.cons_append]
    unfold blockLength? at closed ⊢
    split at closed
    · rename_i quote
      rw [if_pos quote]
      split at closed
      · rename_i second
        rw [if_pos second]
        exact closed
      · rename_i first
        obtain ⟨m, inner, rfl⟩ := Option.map_eq_some_iff.1 closed
        rw [if_neg first, ih inner]
        rfl
    · rename_i other
      obtain ⟨m, inner, rfl⟩ := Option.map_eq_some_iff.1 closed
      rw [if_neg other, ih inner]
      rfl

theorem quoteMatch_block (body : List Char) :
    quoteMatch ('"' :: '"' :: body) =
      match blockLength? 0 body with
      | some length => ⟨some .blockStringValue, length + 2⟩
      | none => ⟨some .stringValue, 1⟩ := rfl

/-- A quote that no two quotes follow starts a plain string. -/
theorem quoteMatch_plain (plain : ∀ body, text ≠ '"' :: '"' :: body) :
    quoteMatch text =
      ⟨if (stringLength text).2 then some .stringValue else none, (stringLength text).1⟩ := by
  unfold quoteMatch
  split
  · exact absurd rfl (plain _)
  · split
    · rename_i length found
      rw [found]
      rfl
    · rename_i length found
      rw [found]
      rfl

theorem plain_append (separate : Separate after) (nonempty : text ≠ [])
    (plain : ∀ body, text ≠ '"' :: '"' :: body) : ∀ body, text ++ after ≠ '"' :: '"' :: body := by
  intro body same
  match text with
  | [] => exact nonempty rfl
  | [c] =>
    obtain ⟨-, rfl⟩ := List.cons.inj same
    exact separate.ne_of_continues (by decide : continuesToken '"' = true) rfl
  | c :: d :: rest =>
    obtain ⟨rfl, more⟩ := List.cons.inj same
    obtain ⟨rfl, -⟩ := List.cons.inj more
    exact plain rest rfl

theorem quoteMatch_append (separate : Separate after) (whole : quoteMatch text = ⟨some kind, text.length⟩) :
    quoteMatch (text ++ after) = ⟨some kind, text.length⟩ := by
  by_cases block : ∃ body, text = '"' :: '"' :: body
  · obtain ⟨body, rfl⟩ := block
    rw [List.cons_append, List.cons_append, quoteMatch_block]
    rw [quoteMatch_block] at whole
    cases closed : blockLength? 0 body with
    | some length =>
      rw [closed] at whole
      rw [blockLength?_append closed]
      exact whole
    | none =>
      -- an empty string is shorter than a text with a second quote in it
      rw [closed] at whole
      simp at whole
  · have plain : ∀ body, text ≠ '"' :: '"' :: body := not_exists.1 block
    rw [quoteMatch_plain plain, Match.mk.injEq, Option.ite_none_right_eq_some] at whole
    obtain ⟨⟨isClosed, isString⟩, length⟩ := whole
    have closed : stringLength text = (text.length, true) := Prod.ext length isClosed
    have nonempty : text ≠ [] := by
      rintro rfl
      cases isClosed
    rw [quoteMatch_plain (plain_append separate nonempty plain), stringLength_append closed, if_pos rfl,
      isString]

/-! ## One token -/

/-- A text that is one token of a kind. -/
def IsToken (kind : SyntaxKind) (text : List Char) : Prop :=
  ∃ c rest, text = c :: rest ∧ longestMatch c rest = ⟨some kind, rest.length⟩

/-- A token that carries meaning stays what it is in front of what does not continue it. -/
theorem longestMatch_append (separate : Separate after) (solid : kind.isTrivia = false)
    (whole : longestMatch c rest = ⟨some kind, rest.length⟩) :
    longestMatch c (rest ++ after) = ⟨some kind, rest.length⟩ := by
  have noTrivia {found : SyntaxKind} {length : Nat} (trivia : found.isTrivia = true)
      (same : Match.mk (some found) length = ⟨some kind, rest.length⟩) : False := by
    cases (Option.some.inj (Match.mk.inj same).1)
    rw [trivia] at solid
    cases solid
  unfold longestMatch at whole ⊢
  by_cases quote : c = '"'
  · rw [if_pos quote] at whole ⊢
    exact quoteMatch_append separate whole
  rw [if_neg quote] at whole ⊢
  by_cases comment : c = '#'
  · rw [if_pos comment] at whole
    exact (noTrivia rfl whole).elim
  rw [if_neg comment] at whole ⊢
  by_cases blank : (c = ' ' || c = '\t') = true
  · rw [if_pos blank] at whole
    exact (noTrivia rfl whole).elim
  rw [if_neg blank] at whole ⊢
  by_cases line : c = '\n'
  · rw [if_pos line] at whole
    exact (noTrivia rfl whole).elim
  rw [if_neg line] at whole ⊢
  by_cases carriage : c = '\r'
  · rw [if_pos carriage] at whole
    split at whole
    · exact (noTrivia rfl whole).elim
    · cases whole
  rw [if_neg carriage] at whole ⊢
  by_cases minus : c = '-'
  · rw [if_pos minus] at whole ⊢
    rwa [numberMatch_append separate]
  rw [if_neg minus] at whole ⊢
  by_cases digit : c.isDigit = true
  · have number := numberMatch_append separate (c :: rest)
    rw [List.cons_append] at number
    rw [if_pos digit] at whole ⊢
    rwa [number]
  rw [if_neg digit] at whole ⊢
  by_cases letter : startsIdentifier c = true
  · rw [if_pos letter] at whole ⊢
    rwa [runLength_append separate.continuesIdentifier]
  rwa [if_neg letter] at whole ⊢

theorem longestMatch_punctuation (known : punctuation? c = some kind) (rest : List Char) :
    longestMatch c rest = ⟨some kind, 0⟩ := by
  unfold punctuation? at known
  split at known
  all_goals cases known
  all_goals rfl

/-! ## Taking tokens off a text -/

theorem pieces_cons (bound : Nat) (c : Char) (rest : List Char) :
    pieces (bound + 1) (c :: rest) =
      ⟨(longestMatch c rest).kind.getD .garbage, c :: rest.take (longestMatch c rest).extra⟩ ::
        pieces bound (rest.drop (longestMatch c rest).extra) := rfl

/-- The pieces of a text do not depend on how many more of them are allowed than it has characters. -/
theorem pieces_congr {bound enough : Nat} (few : text.length ≤ bound) (few' : text.length ≤ enough) :
    pieces bound text = pieces enough text := by
  induction bound generalizing enough text with
  | zero =>
    obtain rfl := List.length_eq_zero_iff.1 (Nat.le_zero.1 few)
    cases enough <;> rfl
  | succ bound ih =>
    cases text with
    | nil => cases enough <;> rfl
    | cons c rest =>
      cases enough with
      | zero => exact absurd few' (by simp)
      | succ enough =>
        rw [List.length_cons] at few few'
        have shorter : (rest.drop (longestMatch c rest).extra).length ≤ rest.length := by
          rw [List.length_drop]
          omega
        have same := @ih _ enough (shorter.trans (by omega)) (shorter.trans (by omega))
        rw [pieces_cons, pieces_cons, same]

/-- The pieces of a text that carry meaning. -/
def solidPieces (text : List Char) : List Piece :=
  (coalesce (pieces text.length text)).filter (!·.kind.isTrivia)

/-- What is recognised at the head of a text is its first piece. -/
theorem solidPieces_match (known : kind ≠ .garbage)
    (matched : longestMatch c (rest ++ after) = ⟨some kind, rest.length⟩) :
    solidPieces (c :: (rest ++ after)) =
      [Piece.mk kind (c :: rest)].filter (!·.kind.isTrivia) ++ solidPieces after := by
  have cut : pieces (c :: (rest ++ after)).length (c :: (rest ++ after)) =
      ⟨kind, c :: rest⟩ :: pieces after.length after := by
    rw [List.length_cons, pieces_cons, matched]
    dsimp only
    rw [List.take_left, List.drop_left, Option.getD_some]
    exact congrArg _ (pieces_congr (by simp) le_rfl)
  have apart : coalesce (⟨kind, c :: rest⟩ :: pieces after.length after) =
      ⟨kind, c :: rest⟩ :: coalesce (pieces after.length after) := by
    show prepend _ (coalesce _) = _
    unfold prepend
    split
    · rename_i none
      rw [none]
    · rename_i others
      rw [others, if_neg (by simp [known])]
  rw [solidPieces, cut, apart, ← List.singleton_append, List.filter_append]
  rfl

/-- Characters that separate tokens on a line. -/
def isBlank (c : Char) : Bool := c = ' ' || c = '\t'

theorem solidPieces_blanks (blank : isBlank c = true) (text : List Char) :
    solidPieces (c :: text) = solidPieces (text.dropWhile isBlank) := by
  have matched : longestMatch c (text.takeWhile isBlank ++ text.dropWhile isBlank) =
      ⟨some .whitespace, (text.takeWhile isBlank).length⟩ := by
    rw [List.takeWhile_append_dropWhile]
    simp only [isBlank, Bool.or_eq_true, decide_eq_true_eq] at blank
    rcases blank with rfl | rfl <;> rfl
  have skipped := solidPieces_match (by decide) matched
  rwa [List.takeWhile_append_dropWhile] at skipped

/-- A blank may stand in front of anything. -/
theorem solidPieces_blank (text : List Char) : solidPieces (' ' :: text) = solidPieces text := by
  rw [solidPieces_blanks rfl]
  cases text with
  | nil => rfl
  | cons c rest =>
    by_cases blank : isBlank c = true
    · rw [List.dropWhile_cons_of_pos blank, solidPieces_blanks blank]
    · rw [List.dropWhile_cons_of_neg blank]

end Lexer

/-- A token without its place. -/
def Token.piece (t : Token) : Lexer.Piece := ⟨t.kind, t.text.toList⟩

namespace Lexer

theorem map_piece_place (offset : Nat) (pieces : List Piece) :
    (place offset pieces).map Token.piece = pieces := by
  induction pieces generalizing offset with
  | nil => rfl
  | cons piece rest ih =>
    rw [place, List.map_cons, ih, Token.piece, String.toList_ofList]

/-- Tokens that carry the meaning of a text, wherever it stands. -/
def Scans (text : List Char) (tokens : List Token) : Prop := tokens.map Token.piece = solidPieces text

theorem scans_lex (text : String) : Scans text.toList ((lex text).filter (!·.isTrivia)) := by
  have kinds : (fun t : Token => !t.isTrivia) = (fun piece : Piece => !piece.kind.isTrivia) ∘ Token.piece :=
    rfl
  rw [Scans, solidPieces, kinds, ← List.filter_map, lex, map_piece_place]

namespace Scans

variable {tokens : List Token}

theorem eq_nil (scans : Scans [] tokens) : tokens = [] := List.map_eq_nil_iff.1 scans

theorem blank (scans : Scans (' ' :: text) tokens) : Scans text tokens :=
  scans.trans (solidPieces_blank text)

theorem matched (known : kind ≠ .garbage) (solid : kind.isTrivia = false)
    (matched : longestMatch c (rest ++ after) = ⟨some kind, rest.length⟩)
    (scans : Scans (c :: (rest ++ after)) tokens) :
    ∃ t others, tokens = t :: others ∧ t.kind = kind ∧ t.text.toList = c :: rest ∧ Scans after others := by
  have here := scans.trans (solidPieces_match known matched)
  rw [List.filter_cons_of_pos (by simp [solid])] at here
  obtain ⟨t, others, rfl, same, more⟩ := List.map_eq_cons_iff.1 here
  obtain ⟨isKind, isText⟩ := Piece.mk.inj same
  exact ⟨t, others, rfl, isKind, isText, more⟩

/-- A token in front of what does not continue it. -/
theorem token (token : IsToken kind text) (known : kind ≠ .garbage) (solid : kind.isTrivia = false)
    (separate : Separate after) (scans : Scans (text ++ after) tokens) :
    ∃ t others, tokens = t :: others ∧ t.kind = kind ∧ t.text.toList = text ∧ Scans after others := by
  obtain ⟨c, rest, rfl, whole⟩ := token
  exact scans.matched known solid (longestMatch_append separate solid whole)

/-- Punctuation in front of anything. -/
theorem punctuation (known : punctuation? c = some kind) (scans : Scans (c :: after) tokens) :
    ∃ t others, tokens = t :: others ∧ t.kind = kind ∧ Scans after others := by
  have solid : kind ≠ .garbage ∧ kind.isTrivia = false := by
    unfold punctuation? at known
    split at known
    all_goals cases known
    all_goals decide
  have whole : longestMatch c ([] ++ after) = ⟨some kind, ([] : List Char).length⟩ :=
    longestMatch_punctuation known after
  obtain ⟨t, others, rfl, isKind, -, more⟩ := matched solid.1 solid.2 whole scans
  exact ⟨t, others, rfl, isKind, more⟩

end Scans

end Lexer

end IsoLiteral
