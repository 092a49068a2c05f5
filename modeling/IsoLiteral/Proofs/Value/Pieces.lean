import IsoLiteral.Proofs.Syntax.Rule
import IsoLiteral.Proofs.Value.Printed

/-!
# The pieces of printed values and types

A text is cut into the same pieces wherever it stands, as long as what comes after it does not continue its
last token, and blanks and line ends between its parts leave no trace. The pieces of a printed value say
which value it is and where it ends, whatever comes after it. So do the items of a list in front of the
piece that closes the list, if each of them does in front of a comma. A printed type may go on with `!`, so
it only tells where it ends in front of what is no part of a type.
-/

namespace IsoLiteral

open Lexer

/-! ## Texts and their pieces -/

/-- A text with some pieces, trivia aside, in front of any text that does not continue it. -/
def Lexes (text : List Char) (pieces : List Piece) : Prop :=
  ∀ ⦃after⦄, Separate after → solidPieces (text ++ after) = pieces ++ solidPieces after

/-- The piece of a punctuation character. -/
def mark (c : Char) : Piece := ⟨(punctuation? c).getD .garbage, [c]⟩

/-- The piece of a name. -/
def word (name : String) : Piece := ⟨.identifier, name.toList⟩

theorem word_injective {name other : String} (same : word name = word other) : name = other :=
  String.toList_inj.1 (Piece.mk.inj same).2

theorem word_ne_mark (name : String) (c : Char) : word name ≠ mark c := by
  intro same
  have kinds : SyntaxKind.identifier = (punctuation? c).getD .garbage := congrArg Piece.kind same
  unfold punctuation? at kinds
  split at kinds
  all_goals cases kinds

/-- The pieces of further items of a list, each after a comma, and of the character that closes the list. -/
def furtherItems (close : Char) : List (List Piece) → List Piece
  | [] => [mark close]
  | item :: rest => mark ',' :: (item ++ furtherItems close rest)

/-- The pieces of the items of a list, with commas between neighbours, and of the character that closes the
list. -/
def closedItems (close : Char) : List (List Piece) → List Piece
  | [] => [mark close]
  | item :: rest => item ++ furtherItems close rest

namespace Lexes

variable {text others : List Char} {pieces more : List Piece} {c : Char} {kind : SyntaxKind}

theorem nil : Lexes [] [] := fun _ _ => rfl

theorem append (h : Lexes text pieces) (h' : Lexes others more) (apart : Separate others) :
    Lexes (text ++ others) (pieces ++ more) := by
  intro after separate
  rw [List.append_assoc, h (apart.append separate), h' separate, List.append_assoc]

/-- A blank in front. -/
theorem blank (h : Lexes text pieces) : Lexes (' ' :: text) pieces := by
  intro after separate
  rw [List.cons_append, solidPieces_blank, h separate]

/-- A line end in front. -/
theorem line (h : Lexes text pieces) : Lexes ('\n' :: text) pieces := by
  intro after separate
  have matched : longestMatch '\n' ([] ++ (text ++ after)) = ⟨some .newline, ([] : List Char).length⟩ := rfl
  have skipped := solidPieces_match (by decide) matched
  rw [List.nil_append] at skipped
  rw [List.cons_append, skipped, h separate]
  rfl

theorem token (token : IsToken kind text) (known : kind ≠ .garbage) (solid : kind.isTrivia = false) :
    Lexes text [⟨kind, text⟩] := by
  intro after separate
  obtain ⟨c, rest, rfl, whole⟩ := token
  rw [List.cons_append, solidPieces_match known (longestMatch_append separate solid whole),
    List.filter_cons_of_pos (by simp [solid]), List.filter_nil]

theorem name {name : String} (named : isName name = true) : Lexes name.toList [word name] :=
  token (isToken_name named) (by decide) rfl

/-- Punctuation in front. -/
theorem mark (known : punctuation? c = some kind) (h : Lexes text pieces) :
    Lexes (c :: text) (mark c :: pieces) := by
  intro after separate
  have solid : kind ≠ .garbage ∧ kind.isTrivia = false := by
    unfold punctuation? at known
    split at known
    all_goals cases known
    all_goals decide
  have whole : longestMatch c ([] ++ (text ++ after)) = ⟨some kind, ([] : List Char).length⟩ :=
    longestMatch_punctuation known _
  have cut := solidPieces_match solid.1 whole
  rw [List.filter_cons_of_pos (by simp [solid.2]), List.nil_append] at cut
  rw [List.cons_append, cut, h separate, IsoLiteral.mark, known]
  rfl

/-- Items with a comma and a blank between neighbours. -/
theorem joined {texts : List String} {items : List (List Piece)} (known : punctuation? c = some kind)
    (apart : continuesToken c = false)
    (each : List.Forall₂ (fun text pieces => Lexes text.toList pieces) texts items) :
    Lexes ((Text.joinWith ", " texts).toList ++ [c]) (closedItems c items) := by
  have closing : Lexes [c] [IsoLiteral.mark c] := nil.mark known
  induction each with
  | nil => exact closing
  | @cons text item texts items here more ih =>
    cases more with
    | nil => exact here.append closing (separate_cons.2 apart)
    | cons =>
      rw [Text.joinWith, String.toList_append, String.toList_append, List.append_assoc, List.append_assoc]
      exact here.append (mark (c := ',') rfl ih.blank) (separate_cons.2 rfl)

/-- `name: text` -/
theorem entry {key text : String} (named : isName key = true) (h : Lexes text.toList pieces) :
    Lexes (key ++ ": " ++ text).toList (word key :: IsoLiteral.mark ':' :: pieces) := by
  rw [String.toList_append, String.toList_append, List.append_assoc]
  exact (name named).append (mark (c := ':') rfl h.blank) (separate_cons.2 rfl)

end Lexes

/-- A text alone is cut into its pieces. -/
theorem Lexes.solidPieces_eq {text : List Char} {pieces : List Piece} (h : Lexes text pieces) :
    solidPieces text = pieces := by
  have whole := h separate_nil
  rwa [List.append_nil, show solidPieces [] = [] from rfl, List.append_nil] at whole

/-! ## Values -/

namespace Value

mutual
/-- The pieces of a printed value. -/
def pieces : Value → List Piece
  | .variable name => [mark '$', word name]
  | .int i => [⟨.intValue, (toString i).toList⟩]
  | .float text => [⟨.floatValue, text.toList⟩]
  | .string s => [⟨.stringValue, (quotedString s).toList⟩]
  | .boolean b => [word (if b then "true" else "false")]
  | .null => [word "null"]
  | .enum name => [word name]
  | .list items => mark '[' :: closedItems ']' (piecesOfAll items)
  | .object fields => mark '{' :: closedItems '}' (piecesOfFields fields)
termination_by structural v => v
/-- The pieces of each printed item. -/
def piecesOfAll : List Value → List (List Piece)
  | [] => []
  | v :: rest => v.pieces :: piecesOfAll rest
termination_by structural vs => vs
/-- The pieces of each printed field. -/
def piecesOfFields : List (String × Value) → List (List Piece)
  | [] => []
  | (key, v) :: rest => (word key :: mark ':' :: v.pieces) :: piecesOfFields rest
termination_by structural fields => fields
end

/-- The pieces of a field with a name and a value. -/
def fieldPieces (field : String × Value) : List Piece := word field.1 :: mark ':' :: field.2.pieces

theorem piecesOfAll_eq_map (vs : List Value) : piecesOfAll vs = vs.map pieces := by
  induction vs with
  | nil => rw [piecesOfAll, List.map_nil]
  | cons v rest ih => rw [piecesOfAll, ih, List.map_cons]

theorem piecesOfFields_eq_map (fields : List (String × Value)) :
    piecesOfFields fields = fields.map fieldPieces := by
  induction fields with
  | nil => rw [piecesOfFields, List.map_nil]
  | cons field rest ih => rw [piecesOfFields, ih, List.map_cons, fieldPieces]

end Value

mutual
/-- A value that a literal can write down is printed as its pieces. -/
theorem lexes_render : ∀ v : Value, v.isShaped = true → Lexes v.render.toList v.pieces
  | .variable name, shaped => by
    rw [Value.isShaped] at shaped
    rw [Value.render, Value.pieces, String.toList_append]
    exact (Lexes.name shaped).mark (c := '$') rfl
  | .int i, _ => by
    rw [Value.render, Value.pieces]
    exact .token (isToken_integer i) (by decide) rfl
  | .float text, shaped => by
    rw [Value.isShaped] at shaped
    rw [Value.render, Value.pieces]
    exact .token (isToken_float shaped) (by decide) rfl
  | .string s, _ => by
    rw [Value.render, Value.pieces]
    exact .token (isToken_string s) (by decide) rfl
  | .boolean true, _ => by
    rw [Value.render, Value.pieces]
    exact @Lexes.name "true" rfl
  | .boolean false, _ => by
    rw [Value.render, Value.pieces]
    exact @Lexes.name "false" rfl
  | .null, _ => by
    rw [Value.render, Value.pieces]
    exact @Lexes.name "null" rfl
  | .enum name, shaped => by
    simp only [Value.isShaped, Bool.and_eq_true] at shaped
    rw [Value.render, Value.pieces]
    exact .name shaped.1.1.1
  | .list items, shaped => by
    rw [Value.isShaped] at shaped
    rw [Value.render, Value.pieces, String.toList_append, String.toList_append]
    exact (Lexes.joined (c := ']') rfl rfl (lexes_renderAll items shaped)).mark (c := '[') rfl
  | .object fields, shaped => by
    rw [Value.isShaped] at shaped
    rw [Value.render, Value.pieces, String.toList_append, String.toList_append]
    exact (Lexes.joined (c := '}') rfl rfl (lexes_renderFields fields shaped)).mark (c := '{') rfl
termination_by structural v => v
theorem lexes_renderAll : ∀ vs : List Value, Value.areShaped vs = true →
    List.Forall₂ (fun text pieces => Lexes text.toList pieces) (Value.renderAll vs) (Value.piecesOfAll vs)
  | [], _ => by
    rw [Value.renderAll, Value.piecesOfAll]
    exact .nil
  | v :: rest, shaped => by
    rw [Value.areShaped, Bool.and_eq_true] at shaped
    rw [Value.renderAll, Value.piecesOfAll]
    exact .cons (lexes_render v shaped.1) (lexes_renderAll rest shaped.2)
termination_by structural vs => vs
theorem lexes_renderFields : ∀ fields : List (String × Value), Value.areShapedFields fields = true →
    List.Forall₂ (fun text pieces => Lexes text.toList pieces) (Value.renderFields fields) (Value.piecesOfFields fields)
  | [], _ => by
    rw [Value.renderFields, Value.piecesOfFields]
    exact .nil
  | (key, v) :: rest, shaped => by
    rw [Value.areShapedFields, Bool.and_eq_true, Bool.and_eq_true] at shaped
    rw [Value.renderFields, Value.piecesOfFields]
    exact .cons (.entry shaped.1.1 (lexes_render v shaped.1.2)) (lexes_renderFields rest shaped.2)
termination_by structural fields => fields
end

/-! ## Telling things by their pieces -/

section Tells

variable {α : Type} {code : α → List Piece} {valid : α → Prop} {close : Char} {rest rest' : List Piece}

/-- In front of what may follow it, the pieces of `x` say that it is `x` and where it ends. -/
def Tells (code : α → List Piece) (valid : α → Prop) (follows : List Piece → Prop) (x : α) : Prop :=
  ∀ ⦃y⦄, valid y → ∀ ⦃rest rest'⦄, follows rest → follows rest' → code x ++ rest = code y ++ rest' →
    x = y ∧ rest = rest'

/-- What may follow an item of a list: a comma, or the character that closes the list. -/
def FollowsItem (close : Char) (rest : List Piece) : Prop :=
  ∃ c more, (c = ',' ∨ c = close) ∧ rest = mark c :: more

theorem followsItem_furtherItems (close : Char) (items : List (List Piece)) (rest : List Piece) :
    FollowsItem close (furtherItems close items ++ rest) := by
  cases items with
  | nil => exact ⟨close, _, .inr rfl, rfl⟩
  | cons item more => exact ⟨',', _, .inl rfl, rfl⟩

theorem eq_of_furtherItems (apart : mark close ≠ mark ',') {xs ys : List α}
    (each : ∀ x ∈ xs, Tells code valid (FollowsItem close) x) (areValid : ∀ y ∈ ys, valid y)
    (same : furtherItems close (xs.map code) ++ rest = furtherItems close (ys.map code) ++ rest') :
    xs = ys ∧ rest = rest' := by
  induction xs generalizing ys with
  | nil =>
    cases ys with
    | nil => exact ⟨rfl, (List.cons.inj same).2⟩
    | cons y ys => exact absurd (List.cons.inj same).1 apart
  | cons x xs ih =>
    cases ys with
    | nil => exact absurd (List.cons.inj same).1.symm apart
    | cons y ys =>
      rw [List.forall_mem_cons] at each areValid
      rw [List.map_cons, List.map_cons, furtherItems, furtherItems, List.cons_append, List.cons_append,
        List.append_assoc, List.append_assoc] at same
      obtain ⟨rfl, more⟩ := each.1 areValid.1 (followsItem_furtherItems _ _ _)
        (followsItem_furtherItems _ _ _) (List.cons.inj same).2
      obtain ⟨rfl, left⟩ := ih each.2 areValid.2 more
      exact ⟨rfl, left⟩

/-- The items of a list can be told apart in front of the character that closes it, if none of them starts
with that character. -/
theorem eq_of_closedItems (apart : mark close ≠ mark ',')
    (starts : ∀ x, ∃ piece more, code x = piece :: more ∧ piece ≠ mark close) {xs ys : List α}
    (each : ∀ x ∈ xs, Tells code valid (FollowsItem close) x) (areValid : ∀ y ∈ ys, valid y)
    (same : closedItems close (xs.map code) ++ rest = closedItems close (ys.map code) ++ rest') :
    xs = ys ∧ rest = rest' := by
  have unclosed (x : α) (others after : List Piece) : mark close :: after ≠ code x ++ others := by
    obtain ⟨piece, more, start, other⟩ := starts x
    rw [start]
    exact fun closed => other (List.cons.inj closed).1.symm
  cases xs with
  | nil =>
    cases ys with
    | nil => exact ⟨rfl, (List.cons.inj same).2⟩
    | cons y ys =>
      rw [List.map_nil, List.map_cons, closedItems, closedItems, List.append_assoc] at same
      exact absurd same (unclosed y _ _)
  | cons x xs =>
    cases ys with
    | nil =>
      rw [List.map_cons, List.map_nil, closedItems, closedItems, List.append_assoc] at same
      exact absurd same.symm (unclosed x _ _)
    | cons y ys =>
      rw [List.forall_mem_cons] at each areValid
      rw [List.map_cons, List.map_cons, closedItems, closedItems, List.append_assoc, List.append_assoc] at same
      obtain ⟨rfl, more⟩ := each.1 areValid.1 (followsItem_furtherItems _ _ _)
        (followsItem_furtherItems _ _ _) same
      obtain ⟨rfl, left⟩ := eq_of_furtherItems apart each.2 areValid.2 more
      exact ⟨rfl, left⟩

end Tells

/-! ### Values -/

/-- A piece as a token. -/
def Lexer.Piece.token (piece : Piece) : Token := ⟨piece.kind, String.ofList piece.chars, 0⟩

/-- The ways in which values are written: by one piece that stands for the value, or by several. -/
inductive Value.Written : Value → List Piece → Prop
  | literal {v : Value} {piece : Piece} : Rule.literalValue? piece.token = some v → Written v [piece]
  | variable (name : String) : Written (.variable name) [mark '$', word name]
  | list (items : List Value) : Written (.list items) (mark '[' :: closedItems ']' (items.map Value.pieces))
  | object (fields : List (String × Value)) :
    Written (.object fields) (mark '{' :: closedItems '}' (fields.map Value.fieldPieces))

theorem literalValue?_word (name : String) : Rule.literalValue? (word name).token = some (Rule.wordValue name) := by
  rw [word, Lexer.Piece.token, String.ofList_toList, Rule.literalValue?]

theorem written_pieces (v : Value) (shaped : v.isShaped = true) : v.Written v.pieces := by
  cases v with
  | «variable» name =>
    rw [Value.pieces]
    exact .variable name
  | int i =>
    rw [Value.pieces]
    refine .literal ?_
    rw [Lexer.Piece.token, String.ofList_toList, Rule.literalValue?]
    dsimp only
    rw [integerOf_toString]
  | float text =>
    rw [Value.pieces]
    refine .literal ?_
    rw [Lexer.Piece.token, String.ofList_toList, Rule.literalValue?]
  | string s =>
    rw [Value.pieces]
    refine .literal ?_
    rw [Lexer.Piece.token, String.ofList_toList, Rule.literalValue?]
    dsimp only
    rw [Lowering.contentsOf, if_neg nofun, stringContents_quotedString]
  | boolean b =>
    rw [Value.pieces]
    refine .literal ((literalValue?_word _).trans ?_)
    cases b <;> rfl
  | null =>
    rw [Value.pieces]
    exact .literal (literalValue?_word _)
  | «enum» name =>
    simp only [Value.isShaped, Bool.and_eq_true, decide_eq_true_eq] at shaped
    obtain ⟨⟨⟨-, notTrue⟩, notFalse⟩, notNull⟩ := shaped
    rw [Value.pieces]
    refine .literal ((literalValue?_word _).trans ?_)
    rw [Rule.wordValue, if_neg notTrue, if_neg notFalse, if_neg notNull]
  | list items =>
    rw [Value.pieces, Value.piecesOfAll_eq_map]
    exact .list items
  | object fields =>
    rw [Value.pieces, Value.piecesOfFields_eq_map]
    exact .object fields

theorem Value.areShaped_iff {vs : List Value} :
    Value.areShaped vs = true ↔ ∀ v ∈ vs, v.isShaped = true := by
  induction vs with
  | nil => simp [Value.areShaped]
  | cons v rest ih => rw [Value.areShaped, Bool.and_eq_true, ih, List.forall_mem_cons]

theorem Value.areShapedFields_iff {fields : List (String × Value)} :
    Value.areShapedFields fields = true ↔
      ∀ field ∈ fields, isName field.1 = true ∧ field.2.isShaped = true := by
  induction fields with
  | nil => simp [Value.areShapedFields]
  | cons field rest ih =>
    rw [Value.areShapedFields, Bool.and_eq_true, Bool.and_eq_true, ih, List.forall_mem_cons]

/-- The pieces of a value say which value it is, whatever comes after them. -/
def Value.Told (v : Value) : Prop := Tells Value.pieces (·.isShaped = true) (fun _ => True) v

variable {rest rest' : List Piece}

theorem eq_of_itemPieces {vs ws : List Value} (told : ∀ v ∈ vs, v.Told) (shaped : Value.areShaped ws = true)
    (same : closedItems ']' (vs.map Value.pieces) ++ rest = closedItems ']' (ws.map Value.pieces) ++ rest') :
    vs = ws ∧ rest = rest' := by
  refine eq_of_closedItems (by decide) (fun v => ?_)
    (fun v member w isShaped _ _ _ _ same => told v member isShaped trivial trivial same)
    (Value.areShaped_iff.1 shaped) same
  cases v <;> rw [Value.pieces] <;> exact ⟨_, _, rfl, fun closes => nomatch congrArg Piece.kind closes⟩

theorem eq_of_fieldPieces {close : Char} (apart : mark close ≠ mark ',')
    {fields others : List (String × Value)} (told : ∀ field ∈ fields, field.2.Told)
    (shaped : Value.areShapedFields others = true)
    (same : closedItems close (fields.map Value.fieldPieces) ++ rest =
      closedItems close (others.map Value.fieldPieces) ++ rest') :
    fields = others ∧ rest = rest' := by
  have starts (field : String × Value) :
      ∃ piece more, Value.fieldPieces field = piece :: more ∧ piece ≠ mark close :=
    ⟨word field.1, mark ':' :: field.2.pieces, rfl, word_ne_mark _ _⟩
  refine eq_of_closedItems apart starts ?_ (Value.areShapedFields_iff.1 shaped) same
  rintro ⟨key, v⟩ member ⟨key', w⟩ isShaped after after' _ _ same
  obtain ⟨named, same⟩ := List.cons.inj same
  obtain ⟨rfl, left⟩ := told _ member isShaped.2 trivial trivial (List.cons.inj same).2
  exact ⟨congrArg (·, v) (word_injective named), left⟩

/-- A value is told by its pieces if the values in it are. -/
theorem told_of_parts {v : Value} (shaped : v.isShaped = true)
    (items : ∀ vs, v = .list vs → ∀ w ∈ vs, w.Told)
    (fields : ∀ fields, v = .object fields → ∀ field ∈ fields, field.2.Told) : v.Told := by
  intro w shaped' rest rest' _ _ same
  have here := written_pieces v shaped
  have there := written_pieces w shaped'
  generalize v.pieces = left at same here
  generalize w.pieces = right at same there
  cases here with
  | literal means =>
    cases there with
    | literal means' =>
      obtain ⟨rfl, tail⟩ := List.cons.inj same
      exact ⟨Option.some.inj (means.symm.trans means'), tail⟩
    | _ =>
      obtain ⟨rfl, -⟩ := List.cons.inj same
      cases means
  | «variable» name =>
    cases there with
    | literal means' =>
      obtain ⟨rfl, -⟩ := List.cons.inj same
      cases means'
    | «variable» name' =>
      obtain ⟨named, tail⟩ := List.cons.inj (List.cons.inj same).2
      exact ⟨congrArg Value.variable (word_injective named), tail⟩
    | _ => cases congrArg Piece.kind (List.cons.inj same).1
  | list vs =>
    cases there with
    | literal means' =>
      obtain ⟨rfl, -⟩ := List.cons.inj same
      cases means'
    | list ws =>
      rw [Value.isShaped] at shaped'
      obtain ⟨rfl, tail⟩ := eq_of_itemPieces (items vs rfl) shaped' (List.cons.inj same).2
      exact ⟨rfl, tail⟩
    | _ => cases congrArg Piece.kind (List.cons.inj same).1
  | object entries =>
    cases there with
    | literal means' =>
      obtain ⟨rfl, -⟩ := List.cons.inj same
      cases means'
    | object others =>
      rw [Value.isShaped] at shaped'
      obtain ⟨rfl, tail⟩ := eq_of_fieldPieces (by decide) (fields entries rfl) shaped' (List.cons.inj same).2
      exact ⟨rfl, tail⟩
    | _ => cases congrArg Piece.kind (List.cons.inj same).1

mutual
/-- Every value that a literal can write down is told by its pieces. -/
theorem told_of_isShaped : ∀ v : Value, v.isShaped = true → v.Told
  | .list items, shaped => by
    refine told_of_parts shaped ?_ nofun
    rintro _ ⟨⟩
    rw [Value.isShaped] at shaped
    exact told_of_areShaped items shaped
  | .object fields, shaped => by
    refine told_of_parts shaped nofun ?_
    rintro _ ⟨⟩
    rw [Value.isShaped] at shaped
    exact told_of_areShapedFields fields shaped
  | .variable _, shaped | .int _, shaped | .float _, shaped | .string _, shaped | .boolean _, shaped
  | .null, shaped | .enum _, shaped => told_of_parts shaped nofun nofun
termination_by structural v => v
theorem told_of_areShaped : ∀ vs : List Value, Value.areShaped vs = true → ∀ v ∈ vs, v.Told
  | [], _ => by simp
  | v :: rest, shaped => by
    rw [Value.areShaped, Bool.and_eq_true] at shaped
    exact List.forall_mem_cons.2 ⟨told_of_isShaped v shaped.1, told_of_areShaped rest shaped.2⟩
termination_by structural vs => vs
theorem told_of_areShapedFields : ∀ fields : List (String × Value), Value.areShapedFields fields = true →
    ∀ field ∈ fields, field.2.Told
  | [], _ => by simp
  | (key, v) :: rest, shaped => by
    rw [Value.areShapedFields, Bool.and_eq_true, Bool.and_eq_true] at shaped
    exact List.forall_mem_cons.2 ⟨told_of_isShaped v shaped.1.2, told_of_areShapedFields rest shaped.2⟩
termination_by structural fields => fields
end

/-! ## Types -/

namespace TypeExpr

/-- The pieces of a printed type. -/
def pieces : TypeExpr → List Piece
  | .named name => [word name]
  | .list item => mark '[' :: (item.pieces ++ [mark ']'])
  | .nonNull inner => inner.pieces ++ [mark '!']

/-- Pieces that are part of a type. -/
def isPart (piece : Piece) : Bool := piece.kind ∈ [SyntaxKind.identifier, .bracketOpen, .bracketClose, .bang]

theorem all_isPart_pieces (t : TypeExpr) : t.pieces.all isPart = true := by
  induction t with
  | named name => rfl
  | list item ih =>
    rw [pieces, List.all_cons, List.all_append, ih]
    rfl
  | nonNull inner ih =>
    rw [pieces, List.all_append, ih]
    rfl

/-- A printed type ends in a name, a bracket or an exclamation mark, and so its last piece says how it is
put together. -/
theorem pieces_injective {t u : TypeExpr} (same : t.pieces = u.pieces) : t = u := by
  induction t generalizing u with
  | named name =>
    cases u with
    | named other => exact congrArg named (word_injective (List.cons.inj same).1)
    | list item => exact absurd (List.cons.inj same).1 (word_ne_mark _ _)
    | nonNull inner =>
      have last : [] ++ [word name] = inner.pieces ++ [mark '!'] := same
      exact absurd (List.append_singleton_inj.1 last).2 (word_ne_mark _ _)
  | list item ih =>
    cases u with
    | named other => exact absurd (List.cons.inj same).1.symm (word_ne_mark _ _)
    | list item' =>
      exact congrArg list (ih (List.append_singleton_inj.1 (List.cons.inj same).2).1)
    | nonNull inner =>
      have last : (mark '[' :: item.pieces) ++ [mark ']'] = inner.pieces ++ [mark '!'] := same
      exact absurd (List.append_singleton_inj.1 last).2 (by decide)
  | nonNull inner ih =>
    cases u with
    | named other =>
      have last : inner.pieces ++ [mark '!'] = [] ++ [word other] := same
      exact absurd (List.append_singleton_inj.1 last).2.symm (word_ne_mark _ _)
    | list item =>
      have last : inner.pieces ++ [mark '!'] = (mark '[' :: item.pieces) ++ [mark ']'] := same
      exact absurd (List.append_singleton_inj.1 last).2 (by decide)
    | nonNull inner' => exact congrArg nonNull (ih (List.append_singleton_inj.1 same).1)

/-- What may follow a printed type: anything that is no part of one. -/
def Follows (rest : List Piece) : Prop := ∀ piece ∈ rest.head?, isPart piece = false

theorem tells_pieces (t : TypeExpr) : Tells pieces (fun _ => True) Follows t := by
  have parts (u : TypeExpr) {rest : List Piece} (follows : Follows rest) :
      (u.pieces ++ rest).takeWhile isPart = u.pieces := by
    have none : rest.takeWhile isPart = [] := by
      cases rest with
      | nil => rfl
      | cons piece more => exact List.takeWhile_cons_of_neg (by simp [follows piece rfl])
    rw [List.takeWhile_append_of_pos (List.all_eq_true.1 (all_isPart_pieces u)), none, List.append_nil]
  intro u _ rest rest' follows follows' same
  obtain rfl : t = u := by
    apply pieces_injective
    rw [← parts t follows, ← parts u follows', same]
  exact ⟨rfl, List.append_cancel_left same⟩

end TypeExpr

/-- A type with an identifier for a name is printed as its pieces. -/
theorem lexes_type {t : TypeExpr} (named : isName t.innerName = true) : Lexes t.render.toList t.pieces := by
  induction t with
  | named name => exact .name named
  | list item ih =>
    rw [TypeExpr.render, String.toList_append, String.toList_append]
    exact ((ih named).append (Lexes.nil.mark rfl) (separate_cons.2 rfl)).mark (c := '[') rfl
  | nonNull inner ih =>
    rw [TypeExpr.render, String.toList_append]
    exact (ih named).append (Lexes.nil.mark rfl) (separate_cons.2 rfl)

end IsoLiteral
