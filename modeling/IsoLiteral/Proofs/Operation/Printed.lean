import IsoLiteral.Proofs.Operation.Emitted
import IsoLiteral.Proofs.StoreKey.Identifier
import IsoLiteral.Proofs.Syntax.Layout
import IsoLiteral.Proofs.Value.Pieces

/-!
# Printed operations

The text of an operation says which operation it is. Its layout is only blanks and line ends between its
pieces, so both formats have the same pieces, and these can be read back: a field goes on with a colon only if
it has arguments, a selection goes on with a brace only if it has selections, and a set of selections goes on
up to the brace that closes it. Only the keys of the selections and the types of their records leave no trace
in the text.
-/

namespace IsoLiteral

open Lexer

/-! ## What selections ask for -/

/-- A selection of an operation without its key and the type of its records. -/
inductive SelectionTree where
  | scalar (fieldName : String) (arguments : List (String × Value))
  | linked (fieldName : String) (arguments : List (String × Value)) (selections : List SelectionTree)
  | fragment (typeName : String) (selections : List SelectionTree)
deriving Repr

mutual
/-- What a merged selection asks for. -/
def MergedSelection.tree : MergedSelection → SelectionTree
  | .scalar fieldName arguments => .scalar fieldName arguments
  | .linked fieldName arguments _ selections => .linked fieldName arguments (MergedSet.trees selections)
  | .inlineFragment typeName selections => .fragment typeName (MergedSet.trees selections)
termination_by structural m => m
/-- What merged selections ask for, in order. -/
def MergedSet.trees : List (SelectionKey × MergedSelection) → List SelectionTree
  | [] => []
  | (_, m) :: rest => m.tree :: MergedSet.trees rest
termination_by structural ms => ms
end

namespace SelectionTree

mutual
/-- Whether all names are identifiers and all values are ones that a literal can write down. -/
def isPrintable : SelectionTree → Bool
  | .scalar fieldName arguments => isName fieldName && Value.areShapedFields arguments
  | .linked fieldName arguments selections =>
    isName fieldName && Value.areShapedFields arguments && arePrintable selections
  | .fragment typeName selections => isName typeName && arePrintable selections
termination_by structural t => t
/-- Whether all the selections are printable. -/
def arePrintable : List SelectionTree → Bool
  | [] => true
  | t :: rest => t.isPrintable && arePrintable rest
termination_by structural ts => ts
end

/-- The pieces of a field with its arguments. -/
def headPieces (fieldName : String) (arguments : List (String × Value)) : List Piece :=
  if arguments.isEmpty then [word fieldName]
  else
    word (storeKey fieldName arguments) :: mark ':' :: word fieldName :: mark '(' ::
      closedItems ')' (arguments.map Value.fieldPieces)

mutual
/-- The pieces of a printed selection. -/
def pieces : SelectionTree → List Piece
  | .scalar fieldName arguments => headPieces fieldName arguments
  | .linked fieldName arguments selections =>
    headPieces fieldName arguments ++ mark '{' :: setPieces selections
  | .fragment typeName selections =>
    mark '.' :: mark '.' :: mark '.' :: word "on" :: word typeName :: mark '{' :: setPieces selections
termination_by structural t => t
/-- The pieces of printed selections and of the brace that closes them. -/
def setPieces : List SelectionTree → List Piece
  | [] => [mark '}']
  | t :: rest => t.pieces ++ setPieces rest
termination_by structural ts => ts
end

end SelectionTree

open SelectionTree

/-! ## Texts of selections -/

section Texts

variable {text : List Char} {pieces : List Piece} {format : QueryTextFormat} {depth : Nat}

theorem Lexes.indented (h : Lexes text pieces) (depth : Nat) :
    Lexes ((Text.indentation depth).toList ++ text) pieces := by
  induction depth with
  | zero => exact h
  | succ depth ih =>
    have deeper : Text.indentation (depth + 1) = "  " ++ Text.indentation depth := rfl
    rw [deeper, String.toList_append, List.append_assoc]
    exact ih.blank.blank

theorem Lexes.lineBreak (h : Lexes text pieces) (format : QueryTextFormat) (depth : Nat) :
    Lexes ((format.lineBreak depth).toList ++ text) pieces := by
  cases format with
  | pretty =>
    rw [QueryTextFormat.lineBreak, String.toList_append, List.append_assoc]
    exact (h.indented depth).line
  | compact =>
    rw [QueryTextFormat.lineBreak]
    exact h.blank

theorem separate_lineBreak (format : QueryTextFormat) (depth : Nat) (text : List Char) :
    Separate ((format.lineBreak depth).toList ++ text) := by
  cases format with
  | pretty =>
    rw [QueryTextFormat.lineBreak, String.toList_append, List.append_assoc]
    exact separate_cons.2 rfl
  | compact =>
    rw [QueryTextFormat.lineBreak]
    exact separate_cons.2 rfl

theorem map_argumentText (arguments : List (String × Value)) :
    arguments.map argumentText = Value.renderFields arguments := by
  induction arguments with
  | nil => rw [List.map_nil, Value.renderFields]
  | cons argument rest ih => rw [List.map_cons, ih, Value.renderFields, argumentText]

theorem lexes_fieldText {fieldName : String} {arguments : List (String × Value)}
    (named : isName fieldName = true) (shaped : Value.areShapedFields arguments = true) :
    Lexes (fieldText fieldName arguments).toList (headPieces fieldName arguments) := by
  rw [fieldText, headPieces]
  split
  · exact .name named
  · have items := Lexes.joined (c := ')') rfl rfl (lexes_renderFields arguments shaped)
    rw [Value.piecesOfFields_eq_map] at items
    simp only [map_argumentText, String.toList_append, List.append_assoc]
    exact (Lexes.name (isName_storeKey named arguments)).append
      (.mark (c := ':') rfl (.blank ((Lexes.name named).append (.mark (c := '(') rfl items) (separate_cons.2 rfl))))
      (separate_cons.2 rfl)

mutual
/-- The text of a selection shows what it asks for and nothing else of it. -/
theorem text_congr (format : QueryTextFormat) : ∀ (m m' : MergedSelection) (depth : Nat), m.tree = m'.tree →
    m.text format depth = m'.text format depth
  | .scalar _ _, .scalar _ _, _, same => by
    obtain ⟨rfl, rfl⟩ := SelectionTree.scalar.inj same
    rfl
  | .linked _ _ _ selections, .linked _ _ _ selections', depth, same => by
    obtain ⟨rfl, rfl, inside⟩ := SelectionTree.linked.inj same
    rw [MergedSelection.text, MergedSelection.text, setText_congr format selections selections' (depth + 1) inside]
  | .inlineFragment _ selections, .inlineFragment _ selections', depth, same => by
    obtain ⟨rfl, inside⟩ := SelectionTree.fragment.inj same
    rw [MergedSelection.text, MergedSelection.text, setText_congr format selections selections' (depth + 1) inside]
  | .scalar _ _, .linked _ _ _ _, _, same | .scalar _ _, .inlineFragment _ _, _, same
  | .linked _ _ _ _, .scalar _ _, _, same | .linked _ _ _ _, .inlineFragment _ _, _, same
  | .inlineFragment _ _, .scalar _ _, _, same | .inlineFragment _ _, .linked _ _ _ _, _, same => nomatch same
termination_by structural m => m
theorem setText_congr (format : QueryTextFormat) : ∀ (set set' : MergedSet) (depth : Nat),
    MergedSet.trees set = MergedSet.trees set' → MergedSet.text format depth set = MergedSet.text format depth set'
  | [], [], _, _ => rfl
  | (_, m) :: rest, (_, m') :: rest', depth, same => by
    obtain ⟨first, others⟩ := List.cons.inj same
    rw [MergedSet.text, MergedSet.text, text_congr format m m' depth first, setText_congr format rest rest' depth others]
  | [], _ :: _, _, same | _ :: _, [], _, same => nomatch same
termination_by structural set => set
end

/-- The text of a set up to the brace that closes it. -/
def closedText (format : QueryTextFormat) (depth : Nat) (set : MergedSet) : List Char :=
  (MergedSet.text format (depth + 1) set).toList ++ ((format.lineBreak depth).toList ++ ['}'])

theorem separate_closedText (format : QueryTextFormat) (depth : Nat) (set : MergedSet) :
    Separate (closedText format depth set) := by
  cases set with
  | nil =>
    rw [closedText, MergedSet.text]
    exact separate_lineBreak _ _ _
  | cons entry rest =>
    rw [closedText, MergedSet.text, String.toList_append, String.toList_append, List.append_assoc,
      List.append_assoc]
    exact separate_lineBreak _ _ _

mutual
/-- A selection whose names and values are printable is printed as its pieces, in both formats and at every
depth. -/
theorem lexes_text : ∀ (m : MergedSelection) (depth : Nat), m.tree.isPrintable = true →
    Lexes (m.text format depth).toList m.tree.pieces
  | .scalar fieldName arguments, depth, printable => by
    rw [MergedSelection.tree, isPrintable, Bool.and_eq_true] at printable
    rw [MergedSelection.text, MergedSelection.tree, SelectionTree.pieces]
    exact lexes_fieldText printable.1 printable.2
  | .linked fieldName arguments concreteType selections, depth, printable => by
    rw [MergedSelection.tree, isPrintable, Bool.and_eq_true, Bool.and_eq_true] at printable
    rw [MergedSelection.text, MergedSelection.tree, SelectionTree.pieces]
    simp only [String.toList_append, List.append_assoc]
    exact (lexes_fieldText printable.1.1 printable.1.2).append
      (.blank (.mark (c := '{') rfl (lexes_closedText selections depth printable.2))) (separate_cons.2 rfl)
  | .inlineFragment typeName selections, depth, printable => by
    rw [MergedSelection.tree, isPrintable, Bool.and_eq_true] at printable
    rw [MergedSelection.text, MergedSelection.tree, SelectionTree.pieces]
    simp only [String.toList_append, List.append_assoc]
    have inside := Lexes.blank (.mark (c := '{') rfl (lexes_closedText selections depth printable.2))
    have named := ((Lexes.name printable.1).append inside (separate_cons.2 rfl)).blank
    exact .mark (c := '.') rfl (.mark (c := '.') rfl (.mark (c := '.') rfl
      (.blank ((@Lexes.name "on" rfl).append named (separate_cons.2 rfl)))))
termination_by structural m => m
theorem lexes_closedText : ∀ (set : MergedSet) (depth : Nat), arePrintable (MergedSet.trees set) = true →
    Lexes (closedText format depth set) (setPieces (MergedSet.trees set))
  | [], depth, _ => by
    rw [closedText, MergedSet.text, MergedSet.trees, setPieces]
    exact (Lexes.nil.mark rfl).lineBreak format depth
  | (key, m) :: rest, depth, printable => by
    rw [MergedSet.trees, arePrintable, Bool.and_eq_true] at printable
    rw [closedText, MergedSet.text, MergedSet.trees, setPieces]
    simp only [String.toList_append, List.append_assoc]
    exact ((lexes_text m (depth + 1) printable.1).append (lexes_closedText rest depth printable.2)
      (separate_closedText format depth rest)).lineBreak format (depth + 1)
termination_by structural set => set
end

end Texts

/-! ## Reading selections back -/

/-- What may follow a printed selection: another one, or the brace that closes its set. -/
def FollowsSelection (rest : List Piece) : Prop :=
  ∃ piece more, rest = piece :: more ∧ piece.kind ∈ [SyntaxKind.identifier, .dot, .braceClose]

theorem exists_headPieces (fieldName : String) (arguments : List (String × Value)) :
    ∃ key more, headPieces fieldName arguments = word key :: more := by
  rw [headPieces]
  split
  · exact ⟨_, _, rfl⟩
  · exact ⟨_, _, rfl⟩

/-- A selection starts with a name or a dot. -/
theorem exists_pieces (t : SelectionTree) :
    ∃ piece more, t.pieces = piece :: more ∧ piece.kind ∈ [SyntaxKind.identifier, .dot] := by
  cases t with
  | scalar fieldName arguments =>
    obtain ⟨key, more, starts⟩ := exists_headPieces fieldName arguments
    rw [SelectionTree.pieces, starts]
    exact ⟨_, _, rfl, List.mem_cons_self⟩
  | linked fieldName arguments selections =>
    obtain ⟨key, more, starts⟩ := exists_headPieces fieldName arguments
    rw [SelectionTree.pieces, starts]
    exact ⟨_, _, rfl, List.mem_cons_self⟩
  | fragment typeName selections =>
    rw [SelectionTree.pieces]
    exact ⟨_, _, rfl, by decide⟩

theorem followsSelection_setPieces (ts : List SelectionTree) (rest : List Piece) :
    FollowsSelection (setPieces ts ++ rest) := by
  cases ts with
  | nil =>
    rw [setPieces]
    exact ⟨_, _, rfl, by decide⟩
  | cons t more =>
    obtain ⟨piece, others, starts, kind⟩ := exists_pieces t
    rw [setPieces, starts]
    exact ⟨_, _, rfl, by grind⟩

section Read

variable {rest rest' : List Piece}

/-- A field and its arguments can be read back in front of anything but a colon. -/
theorem eq_of_headPieces {fieldName other : String} {arguments others : List (String × Value)}
    (shaped : Value.areShapedFields arguments = true) (shaped' : Value.areShapedFields others = true)
    (ends : rest.head? ≠ some (mark ':')) (ends' : rest'.head? ≠ some (mark ':'))
    (same : headPieces fieldName arguments ++ rest = headPieces other others ++ rest') :
    fieldName = other ∧ arguments = others ∧ rest = rest' := by
  rw [headPieces, headPieces] at same
  split at same <;> split at same
  · rename_i none none'
    rw [List.isEmpty_iff] at none none'
    obtain ⟨named, tail⟩ := List.cons.inj same
    exact ⟨word_injective named, none.trans none'.symm, tail⟩
  · exact absurd (congrArg List.head? (List.cons.inj same).2) ends
  · exact absurd (congrArg List.head? (List.cons.inj same).2).symm ends'
  · obtain ⟨named, items⟩ := List.cons.inj (List.cons.inj (List.cons.inj same).2).2
    obtain ⟨rfl, tail⟩ := eq_of_fieldPieces (by decide) (told_of_areShapedFields _ shaped) shaped'
      (List.cons.inj items).2
    exact ⟨word_injective named, rfl, tail⟩

theorem FollowsSelection.head?_ne (follows : FollowsSelection rest) {c : Char}
    (other : (mark c).kind ∉ [SyntaxKind.identifier, .dot, .braceClose]) : rest.head? ≠ some (mark c) := by
  obtain ⟨piece, more, rfl, kind⟩ := follows
  rintro ⟨⟩
  exact other kind

/-- The pieces of selections and of the brace that closes them say which selections they are, whatever comes
after them. -/
def ToldSet (ts : List SelectionTree) : Prop :=
  Tells setPieces (arePrintable · = true) (fun _ => True) ts

theorem headPieces_ne_fragment (fieldName : String) (arguments : List (String × Value)) (more : List Piece) :
    headPieces fieldName arguments ++ rest ≠ mark '.' :: more := by
  obtain ⟨key, others, starts⟩ := exists_headPieces fieldName arguments
  rw [starts]
  exact fun same => word_ne_mark key '.' (List.cons.inj same).1

/-- The brace that closes a set is not taken for a selection. -/
theorem setPieces_nil_ne_cons (t : SelectionTree) (ts : List SelectionTree) :
    setPieces [] ++ rest ≠ setPieces (t :: ts) ++ rest' := by
  obtain ⟨piece, more, starts, kind⟩ := exists_pieces t
  rw [setPieces, setPieces, starts]
  intro same
  rw [← (List.cons.inj same).1] at kind
  exact absurd kind (by decide)

theorem head?_bracedPieces (ts : List SelectionTree) :
    (mark '{' :: setPieces ts ++ rest).head? ≠ some (mark ':') := by
  rw [List.cons_append, List.head?_cons]
  decide

/-- A field without selections is not taken for one with selections. -/
theorem headPieces_ne_linked {fieldName other : String} {arguments others : List (String × Value)}
    (shaped : Value.areShapedFields arguments = true) (shaped' : Value.areShapedFields others = true)
    (follows : FollowsSelection rest) (ts : List SelectionTree) :
    headPieces fieldName arguments ++ rest ≠ headPieces other others ++ (mark '{' :: setPieces ts ++ rest') := by
  intro same
  obtain ⟨-, -, rfl⟩ := eq_of_headPieces shaped shaped' (follows.head?_ne (by decide)) (head?_bracedPieces ts) same
  exact absurd rfl (follows.head?_ne (by decide))

theorem tells_scalar {fieldName : String} {arguments : List (String × Value)}
    (printable : (SelectionTree.scalar fieldName arguments).isPrintable = true) :
    Tells SelectionTree.pieces (·.isPrintable = true) FollowsSelection (.scalar fieldName arguments) := by
  intro u printable' rest rest' follows follows' same
  rw [isPrintable, Bool.and_eq_true] at printable
  cases u with
  | scalar other others =>
    rw [isPrintable, Bool.and_eq_true] at printable'
    rw [SelectionTree.pieces, SelectionTree.pieces] at same
    obtain ⟨rfl, rfl, tail⟩ := eq_of_headPieces printable.2 printable'.2 (follows.head?_ne (by decide))
      (follows'.head?_ne (by decide)) same
    exact ⟨rfl, tail⟩
  | linked other others selections =>
    rw [isPrintable, Bool.and_eq_true, Bool.and_eq_true] at printable'
    rw [SelectionTree.pieces, SelectionTree.pieces, List.append_assoc] at same
    exact absurd same (headPieces_ne_linked printable.2 printable'.1.2 follows selections)
  | fragment typeName selections =>
    rw [SelectionTree.pieces, SelectionTree.pieces] at same
    exact absurd same (headPieces_ne_fragment _ _ _)

theorem tells_linked {fieldName : String} {arguments : List (String × Value)} {selections : List SelectionTree}
    (printable : (SelectionTree.linked fieldName arguments selections).isPrintable = true)
    (inside : ToldSet selections) :
    Tells SelectionTree.pieces (·.isPrintable = true) FollowsSelection
      (.linked fieldName arguments selections) := by
  intro u printable' rest rest' follows follows' same
  rw [isPrintable, Bool.and_eq_true, Bool.and_eq_true] at printable
  cases u with
  | scalar other others =>
    rw [isPrintable, Bool.and_eq_true] at printable'
    rw [SelectionTree.pieces, SelectionTree.pieces, List.append_assoc] at same
    exact absurd same.symm (headPieces_ne_linked printable'.2 printable.1.2 follows' selections)
  | linked other others selections' =>
    rw [isPrintable, Bool.and_eq_true, Bool.and_eq_true] at printable'
    rw [SelectionTree.pieces, SelectionTree.pieces, List.append_assoc, List.append_assoc] at same
    obtain ⟨rfl, rfl, sets⟩ := eq_of_headPieces printable.1.2 printable'.1.2 (head?_bracedPieces selections)
      (head?_bracedPieces selections') same
    obtain ⟨rfl, tail⟩ := inside printable'.2 trivial trivial (List.cons.inj sets).2
    exact ⟨rfl, tail⟩
  | fragment typeName selections' =>
    rw [SelectionTree.pieces, SelectionTree.pieces, List.append_assoc] at same
    exact absurd same (headPieces_ne_fragment _ _ _)

theorem tells_fragment {typeName : String} {selections : List SelectionTree} (inside : ToldSet selections) :
    Tells SelectionTree.pieces (·.isPrintable = true) FollowsSelection (.fragment typeName selections) := by
  intro u printable' rest rest' _ _ same
  cases u with
  | scalar other others =>
    rw [SelectionTree.pieces, SelectionTree.pieces] at same
    exact absurd same.symm (headPieces_ne_fragment _ _ _)
  | linked other others selections' =>
    rw [SelectionTree.pieces, SelectionTree.pieces, List.append_assoc] at same
    exact absurd same.symm (headPieces_ne_fragment _ _ _)
  | fragment other selections' =>
    rw [isPrintable, Bool.and_eq_true] at printable'
    rw [SelectionTree.pieces, SelectionTree.pieces] at same
    simp only [List.cons_append, List.cons.injEq, true_and] at same
    obtain ⟨named, sets⟩ := same
    obtain ⟨rfl, tail⟩ := inside printable'.2 trivial trivial sets
    exact ⟨congrArg (SelectionTree.fragment · selections) (word_injective named), tail⟩

mutual
/-- Every printable selection can be read back from its pieces. -/
theorem tells_of_isPrintable : ∀ t : SelectionTree, t.isPrintable = true →
    Tells SelectionTree.pieces (·.isPrintable = true) FollowsSelection t
  | .scalar _ _, printable => tells_scalar printable
  | .linked _ _ selections, printable => by
    refine tells_linked printable (toldSet_of_arePrintable selections ?_)
    rw [isPrintable, Bool.and_eq_true] at printable
    exact printable.2
  | .fragment _ selections, printable => by
    refine tells_fragment (toldSet_of_arePrintable selections ?_)
    rw [isPrintable, Bool.and_eq_true] at printable
    exact printable.2
termination_by structural t => t
theorem toldSet_of_arePrintable : ∀ ts : List SelectionTree, arePrintable ts = true → ToldSet ts
  | [], _ => by
    intro us _ rest rest' _ _ same
    cases us with
    | nil => exact ⟨rfl, List.append_cancel_left same⟩
    | cons u us => exact absurd same (setPieces_nil_ne_cons u us)
  | t :: ts, printable => by
    intro us printable' rest rest' _ _ same
    rw [arePrintable, Bool.and_eq_true] at printable
    cases us with
    | nil => exact absurd same.symm (setPieces_nil_ne_cons t ts)
    | cons u us =>
      rw [arePrintable, Bool.and_eq_true] at printable'
      rw [setPieces, setPieces, List.append_assoc, List.append_assoc] at same
      obtain ⟨rfl, sets⟩ := tells_of_isPrintable t printable.1 printable'.1 (followsSelection_setPieces _ _)
        (followsSelection_setPieces _ _) same
      obtain ⟨rfl, tail⟩ := toldSet_of_arePrintable ts printable.2 printable'.2 trivial trivial sets
      exact ⟨rfl, tail⟩
termination_by structural ts => ts
end

end Read

/-! ## Variables -/

namespace ResolvedVariable

/-- Whether the names of a variable and its type are identifiers and its default is a value that a literal can
write down. -/
def isPrintable (v : ResolvedVariable) : Bool :=
  isName v.name && isName v.type.innerName && v.defaultValue.all Value.isShaped

/-- The pieces of a printed default. -/
def defaultPieces : Option Value → List Piece
  | none => []
  | some v => mark '=' :: v.pieces

/-- The pieces of a printed variable definition. -/
def pieces (v : ResolvedVariable) : List Piece :=
  mark '$' :: word v.name :: mark ':' :: (v.type.pieces ++ defaultPieces v.defaultValue)

end ResolvedVariable

open ResolvedVariable

theorem lexes_definition {v : ResolvedVariable} (printable : v.isPrintable = true) :
    Lexes (QueryVariable.ofResolved v).definition.toList v.pieces := by
  obtain ⟨name, type, default⟩ := v
  rw [ResolvedVariable.isPrintable, Bool.and_eq_true, Bool.and_eq_true] at printable
  obtain ⟨⟨named, typed⟩, shaped⟩ := printable
  have value : Lexes ((default.map Value.render).elim "" (" = " ++ ·)).toList (defaultPieces default) ∧
      Separate ((default.map Value.render).elim "" (" = " ++ ·)).toList := by
    cases default with
    | none => exact ⟨.nil, separate_nil⟩
    | some v =>
      rw [Option.map_some, Option.elim_some, String.toList_append]
      exact ⟨.blank (.mark (c := '=') rfl (lexes_render v shaped).blank), separate_cons.2 rfl⟩
  rw [QueryVariable.ofResolved, QueryVariable.definition, ResolvedVariable.pieces]
  simp only [String.toList_append, List.append_assoc]
  have annotated := (lexes_type typed).append value.1 value.2
  exact .mark (c := '$') rfl ((Lexes.name named).append (.mark (c := ':') rfl annotated.blank) (separate_cons.2 rfl))

/-- The pieces of the variable definitions of an operation. -/
def definitionsPieces (definitions : List ResolvedVariable) : List Piece :=
  if definitions.isEmpty then [] else mark '(' :: closedItems ')' (definitions.map ResolvedVariable.pieces)

theorem lexes_definitionsText {definitions : List ResolvedVariable}
    (printable : ∀ v ∈ definitions, v.isPrintable = true) :
    Lexes (definitionsText (definitions.map QueryVariable.ofResolved)).toList (definitionsPieces definitions) := by
  rw [definitionsText, definitionsPieces, List.isEmpty_map]
  split
  · exact .nil
  · have each : List.Forall₂ (fun text pieces => Lexes text.toList pieces)
        ((definitions.map QueryVariable.ofResolved).map QueryVariable.definition)
        (definitions.map ResolvedVariable.pieces) := by
      rw [List.map_map, List.forall₂_map_left_iff, List.forall₂_map_right_iff, List.forall₂_same]
      exact fun v member => lexes_definition (printable v member)
    rw [String.toList_append, String.toList_append]
    exact .mark (c := '(') rfl (.joined rfl rfl each)

theorem separate_definitionsText (definitions : List QueryVariable) :
    Separate (definitionsText definitions).toList := by
  rw [definitionsText]
  split
  · exact separate_nil
  · rw [String.toList_append, String.toList_append]
    exact separate_cons.2 rfl

/-- A variable definition can be read back in front of what may follow it. -/
theorem tells_variable {v : ResolvedVariable} (printable : v.isPrintable = true) :
    Tells ResolvedVariable.pieces (·.isPrintable = true) (FollowsItem ')') v := by
  have ends {default : Option Value} {rest : List Piece} (follows : FollowsItem ')' rest) :
      TypeExpr.Follows (defaultPieces default ++ rest) := by
    cases default with
    | none =>
      obtain ⟨c, more, rfl | rfl, rfl⟩ := follows
      · rintro _ ⟨⟩
        rfl
      · rintro _ ⟨⟩
        rfl
    | some v =>
      rintro _ ⟨⟩
      rfl
  have unequal {more rest : List Piece} (follows : FollowsItem ')' rest) : rest ≠ mark '=' :: more := by
    obtain ⟨c, others, rfl | rfl, rfl⟩ := follows
    · exact fun same => absurd (List.cons.inj same).1 (by decide)
    · exact fun same => absurd (List.cons.inj same).1 (by decide)
  obtain ⟨name, type, default⟩ := v
  rintro ⟨name', type', default'⟩ printable' rest rest' follows follows' same
  rw [ResolvedVariable.isPrintable, Bool.and_eq_true] at printable printable'
  obtain ⟨named, types⟩ := List.cons.inj (List.cons.inj same).2
  have annotated := (List.cons.inj types).2
  rw [List.append_eq, List.append_eq, List.append_assoc, List.append_assoc] at annotated
  obtain ⟨rfl, defaults⟩ := type.tells_pieces trivial (ends follows) (ends follows') annotated
  obtain rfl := word_injective named
  cases default with
  | none =>
    cases default' with
    | none => exact ⟨rfl, defaults⟩
    | some v => exact absurd defaults (unequal follows)
  | some v =>
    cases default' with
    | none => exact absurd defaults.symm (unequal follows')
    | some w =>
      obtain ⟨rfl, tail⟩ := told_of_isShaped v printable.2 printable'.2 trivial trivial (List.cons.inj defaults).2
      exact ⟨rfl, tail⟩

theorem eq_of_definitionsPieces {definitions others : List ResolvedVariable} {rest rest' : List Piece}
    (printable : ∀ v ∈ definitions, v.isPrintable = true) (printable' : ∀ v ∈ others, v.isPrintable = true)
    (same : definitionsPieces definitions ++ mark '{' :: rest = definitionsPieces others ++ mark '{' :: rest') :
    definitions = others ∧ rest = rest' := by
  rw [definitionsPieces, definitionsPieces] at same
  split at same <;> split at same
  · rename_i none none'
    rw [List.isEmpty_iff] at none none'
    exact ⟨none.trans none'.symm, (List.cons.inj same).2⟩
  · exact absurd (List.cons.inj same).1 (by decide)
  · exact absurd (List.cons.inj same).1 (by decide)
  · have starts (v : ResolvedVariable) : ∃ piece more, v.pieces = piece :: more ∧ piece ≠ mark ')' :=
      ⟨mark '$', _, rfl, by decide⟩
    obtain ⟨rfl, tail⟩ := eq_of_closedItems (by decide) starts
      (fun v member => tells_variable (printable v member)) printable' (List.cons.inj same).2
    exact ⟨rfl, (List.cons.inj tail).2⟩

/-! ## Operations -/

/-- An operation with identifiers for names, values that a literal can write down, and the variables of a
field. -/
structure Operation.Printable (o : Operation) : Prop where
  name : isName o.name = true
  definitions : ∃ definitions : List ResolvedVariable,
    o.variableDefinitions = definitions.map QueryVariable.ofResolved ∧ ∀ v ∈ definitions, v.isPrintable = true
  selections : arePrintable (MergedSet.trees o.selections) = true

/-- The pieces of a printed operation. -/
def operationPieces (kind : OperationKind) (name : String) (definitions : List ResolvedVariable)
    (ts : List SelectionTree) : List Piece :=
  word kind.text :: word name :: (definitionsPieces definitions ++ mark '{' :: setPieces ts)

theorem toList_operationText (format : QueryTextFormat) (kind : OperationKind) (name : String)
    (definitions : List QueryVariable) (selections : MergedSet) :
    ∃ ending, (ending = ['\n'] ∨ ending = []) ∧
      (operationText format kind name definitions selections).toList =
        kind.text.toList ++ ' ' :: (name.toList ++ ((definitionsText definitions).toList ++
          ' ' :: '{' :: (closedText format 0 selections ++ ending))) := by
  cases format with
  | pretty => exact ⟨_, .inl rfl, by simp [operationText, closedText]⟩
  | compact => exact ⟨_, .inr rfl, by simp [operationText, closedText]⟩

/-- A printable operation is printed as its pieces, in both formats. -/
theorem lexes_operationText {name : String} {definitions : List ResolvedVariable} {selections : MergedSet}
    (named : isName name = true) (printable : ∀ v ∈ definitions, v.isPrintable = true)
    (readable : arePrintable (MergedSet.trees selections) = true) (format : QueryTextFormat) (kind : OperationKind) :
    Lexes (operationText format kind name (definitions.map QueryVariable.ofResolved) selections).toList
      (operationPieces kind name definitions (MergedSet.trees selections)) := by
  have keyword : isName kind.text = true := by cases kind <;> rfl
  obtain ⟨ending, last, text⟩ :=
    toList_operationText format kind name (definitions.map QueryVariable.ofResolved) selections
  have body : Lexes (closedText format 0 selections ++ ending) (setPieces (MergedSet.trees selections)) := by
    have closed := @lexes_closedText format selections 0 readable
    rw [← List.append_nil (setPieces _)]
    rcases last with rfl | rfl
    · exact closed.append Lexes.nil.line (separate_cons.2 rfl)
    · exact closed.append .nil separate_nil
  have inside := (lexes_definitionsText printable).append (.blank (.mark (c := '{') rfl body)) (separate_cons.2 rfl)
  rw [text, operationPieces]
  refine (Lexes.name keyword).append (.blank ((Lexes.name named).append inside ?_)) (separate_cons.2 rfl)
  exact (separate_definitionsText _).append (separate_cons.2 rfl)

theorem eq_of_operationPieces {kind kind' : OperationKind} {name name' : String}
    {definitions definitions' : List ResolvedVariable} {ts ts' : List SelectionTree}
    (printable : ∀ v ∈ definitions, v.isPrintable = true) (printable' : ∀ v ∈ definitions', v.isPrintable = true)
    (readable : arePrintable ts = true) (readable' : arePrintable ts' = true)
    (same : operationPieces kind name definitions ts = operationPieces kind' name' definitions' ts') :
    kind = kind' ∧ name = name' ∧ definitions = definitions' ∧ ts = ts' := by
  obtain ⟨keyword, rest⟩ := List.cons.inj same
  obtain ⟨named, rest⟩ := List.cons.inj rest
  have kinds : kind = kind' := by
    have texts := word_injective keyword
    cases kind <;> cases kind' <;> first | rfl | exact absurd texts (by decide)
  obtain ⟨rfl, sets⟩ := eq_of_definitionsPieces printable printable' rest
  rw [← List.append_nil (setPieces ts), ← List.append_nil (setPieces ts')] at sets
  obtain ⟨rfl, -⟩ := toldSet_of_arePrintable ts readable readable' trivial trivial sets
  exact ⟨kinds, word_injective named, rfl, rfl⟩

theorem solidTokens_eq_map (text : String) :
    solidTokens text = (solidPieces text.toList).map fun piece => (piece.kind, String.ofList piece.chars) := by
  rw [← scans_lex text, List.map_map, solidTokens]
  refine List.map_congr_left fun t _ => ?_
  rw [Function.comp_apply, Token.piece, String.ofList_toList]

end IsoLiteral
