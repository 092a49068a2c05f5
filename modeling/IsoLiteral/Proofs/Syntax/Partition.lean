import IsoLiteral.Syntax.Token.Lexer
import IsoLiteral.Text.Join
import Mathlib.Data.List.Chain
import Mathlib.Tactic

/-!
# The tokens of a text

Splitting a text into tokens loses nothing and adds nothing. Every match takes at least one character, so a
text is used up after as many matches as it has characters; joining unrecognised pieces changes none of the
characters and leaves no two such pieces side by side; and each token starts where the one before it stops.
-/

namespace IsoLiteral

/-- Whether tokens follow each other without a gap from one offset to another. -/
def Token.Spans : Nat → List Token → Nat → Prop
  | start, [], stop => start = stop
  | start, t :: rest, stop => t.start = start ∧ Spans t.stop rest stop

/-- Tokens that cut a text into pieces, one after the other, none of them empty and no two unrecognised ones
side by side. -/
structure Partition (text : String) (tokens : List Token) : Prop where
  spelled : Text.concat (tokens.map Token.text) = text
  nonempty : ∀ t ∈ tokens, t.text ≠ ""
  contiguous : Token.Spans 0 tokens text.utf8ByteSize
  joined : tokens.IsChain fun t u => ¬ (t.kind = .garbage ∧ u.kind = .garbage)

namespace Lexer

/-- The characters of some pieces, in order. -/
def spell (pieces : List Piece) : List Char := pieces.flatMap Piece.chars

@[simp] theorem spell_cons (piece : Piece) (rest : List Piece) :
    spell (piece :: rest) = piece.chars ++ spell rest := List.flatMap_cons

/-! ## Pieces -/

/-- One match for each character is enough. -/
theorem spell_pieces {bound : Nat} {chars : List Char} (enough : chars.length ≤ bound) :
    spell (pieces bound chars) = chars := by
  induction bound generalizing chars with
  | zero =>
    obtain rfl := List.length_eq_zero_iff.1 (Nat.le_zero.1 enough)
    rfl
  | succ bound ih =>
    cases chars with
    | nil => rfl
    | cons c rest =>
      have shorter : (rest.drop (longestMatch c rest).extra).length ≤ bound := by
        rw [List.length_drop]
        rw [List.length_cons] at enough
        omega
      show spell (_ :: pieces bound (rest.drop (longestMatch c rest).extra)) = _
      rw [spell_cons, ih shorter, List.cons_append, List.take_append_drop]

theorem nonempty_pieces (bound : Nat) (chars : List Char) :
    ∀ piece ∈ pieces bound chars, piece.chars ≠ [] := by
  induction bound generalizing chars with
  | zero => exact fun _ none => absurd none List.not_mem_nil
  | succ bound ih =>
    cases chars with
    | nil => exact fun _ none => absurd none List.not_mem_nil
    | cons c rest => exact List.forall_mem_cons.2 ⟨List.cons_ne_nil _ _, ih _⟩

/-! ## Joining unrecognised pieces -/

theorem spell_prepend (piece : Piece) (rest : List Piece) :
    spell (prepend piece rest) = piece.chars ++ spell rest := by
  cases rest with
  | nil => rw [prepend, spell_cons]
  | cons next rest =>
    rw [prepend]
    split
    · rw [spell_cons, spell_cons, List.append_assoc]
    · rw [spell_cons]

theorem spell_coalesce (pieces : List Piece) : spell (coalesce pieces) = spell pieces := by
  induction pieces with
  | nil => rfl
  | cons piece rest ih =>
    show spell (prepend piece (coalesce rest)) = _
    rw [spell_prepend, ih, spell_cons]

theorem nonempty_coalesce {pieces : List Piece} (nonempty : ∀ piece ∈ pieces, piece.chars ≠ []) :
    ∀ piece ∈ coalesce pieces, piece.chars ≠ [] := by
  induction pieces with
  | nil => exact fun _ none => absurd none List.not_mem_nil
  | cons piece rest ih =>
    obtain ⟨first, others⟩ := List.forall_mem_cons.1 nonempty
    have after := ih others
    show ∀ p ∈ prepend piece (coalesce rest), p.chars ≠ []
    cases joined : coalesce rest with
    | nil => simpa [prepend] using first
    | cons next tail =>
      rw [joined] at after
      rw [prepend]
      split
      · exact List.forall_mem_cons.2
          ⟨List.append_ne_nil_of_left_ne_nil first _, (List.forall_mem_cons.1 after).2⟩
      · exact List.forall_mem_cons.2 ⟨first, after⟩

/-- Not both unrecognised. -/
def Apart (piece next : Piece) : Prop := ¬ (piece.kind = .garbage ∧ next.kind = .garbage)

theorem apart_prepend (piece : Piece) {rest : List Piece} (apart : rest.IsChain Apart) :
    (prepend piece rest).IsChain Apart := by
  cases rest with
  | nil => exact .singleton piece
  | cons next rest =>
    rw [prepend]
    split
    · rename_i both
      obtain ⟨-, same⟩ : piece.kind = .garbage ∧ next.kind = .garbage := by simpa using both
      cases rest with
      | nil => exact .singleton _
      | cons after rest =>
        obtain ⟨first, others⟩ := List.isChain_cons_cons.1 apart
        exact .cons_cons (fun both => first ⟨same, both.2⟩) others
    · rename_i different
      refine .cons_cons (fun both => different ?_) apart
      rw [both.1, both.2]
      rfl

theorem apart_coalesce (pieces : List Piece) : (coalesce pieces).IsChain Apart := by
  induction pieces with
  | nil => exact .nil
  | cons piece rest ih => exact apart_prepend piece ih

/-! ## Placing pieces -/

theorem spans_place (offset : Nat) (pieces : List Piece) :
    Token.Spans offset (place offset pieces)
      (offset + (String.ofList (spell pieces)).utf8ByteSize) := by
  induction pieces generalizing offset with
  | nil => rfl
  | cons piece rest ih =>
    have after := ih (Token.mk piece.kind (String.ofList piece.chars) offset).stop
    rw [Token.stop, Nat.add_assoc, ← String.utf8ByteSize_append, ← String.ofList_append,
      ← spell_cons] at after
    exact ⟨rfl, after⟩

theorem concat_place (offset : Nat) (pieces : List Piece) :
    Text.concat ((place offset pieces).map Token.text) = String.ofList (spell pieces) := by
  induction pieces generalizing offset with
  | nil => rfl
  | cons piece rest ih =>
    rw [spell_cons, String.ofList_append, ← ih]
    rfl

theorem nonempty_place {offset : Nat} {pieces : List Piece} (nonempty : ∀ piece ∈ pieces, piece.chars ≠ []) :
    ∀ t ∈ place offset pieces, t.text ≠ "" := by
  induction pieces generalizing offset with
  | nil => exact fun _ none => absurd none List.not_mem_nil
  | cons piece rest ih =>
    obtain ⟨first, others⟩ := List.forall_mem_cons.1 nonempty
    refine List.forall_mem_cons.2 ⟨fun empty => first ?_, ih others⟩
    rw [← String.toList_ofList (l := piece.chars), show String.ofList piece.chars = "" from empty]
    rfl

theorem joined_place {offset : Nat} {pieces : List Piece} (apart : pieces.IsChain Apart) :
    (place offset pieces).IsChain fun t u => ¬ (t.kind = .garbage ∧ u.kind = .garbage) := by
  induction apart generalizing offset with
  | nil => exact .nil
  | singleton piece => exact .singleton _
  | cons_cons first _ ih => exact .cons_cons first ih

end Lexer

/-- The tokens of a text cut it into pieces. -/
theorem partition_lex (text : String) : Partition text (lex text) := by
  have spelled : Lexer.spell (Lexer.coalesce (Lexer.pieces text.toList.length text.toList)) = text.toList := by
    rw [Lexer.spell_coalesce, Lexer.spell_pieces le_rfl]
  have nonempty := Lexer.nonempty_coalesce (Lexer.nonempty_pieces text.toList.length text.toList)
  have spans := Lexer.spans_place 0 (Lexer.coalesce (Lexer.pieces text.toList.length text.toList))
  have concat := Lexer.concat_place 0 (Lexer.coalesce (Lexer.pieces text.toList.length text.toList))
  rw [spelled, String.ofList_toList] at concat
  rw [spelled, String.ofList_toList, Nat.zero_add] at spans
  exact
    { spelled := concat
      nonempty := Lexer.nonempty_place nonempty
      contiguous := spans
      joined := Lexer.joined_place (Lexer.apart_coalesce _) }

end IsoLiteral
