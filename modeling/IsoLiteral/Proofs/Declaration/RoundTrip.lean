import IsoLiteral.Proofs.Syntax.Acceptance
import IsoLiteral.Proofs.Value.Printed

/-!
# Printed values are read back

A text spells something for a rule of the grammar when the rule reads just that off its tokens, in front of
whatever does not continue it. Texts are put together as the rules are, with blanks before any of their
parts. Every value that a literal can write down is spelled by its printed form, by induction over the
value, and so a literal that gives a printed value as an argument declares that argument.
-/

namespace IsoLiteral

open Lexer

/-! ## Texts and the rules that read them -/

/-- A text that a rule reads as `x`, in front of any text that does not continue it. -/
def Spells {α : Type} (text : List Char) (rule : Rule α) (x : α) : Prop :=
  ∀ ⦃after tokens⦄, Separate after → Scans (text ++ after) tokens →
    ∃ rest, rule tokens x rest ∧ Scans after rest

namespace Spells

variable {α β : Type} {text others : List Char} {rule : Rule α} {second : Rule β} {x : α} {y : β}
  {xs : List α} {c : Char} {kind close : SyntaxKind}

theorem map (h : Spells text rule x) (f : α → β) : Spells text (rule.map f) (f x) := by
  intro after tokens separate scans
  obtain ⟨rest, applies, more⟩ := h separate scans
  exact ⟨rest, ⟨x, applies, rfl⟩, more⟩

/-- A blank in front. -/
theorem blank (h : Spells text rule x) : Spells (' ' :: text) rule x := by
  intro after tokens separate scans
  exact h separate scans.blank

theorem seq (h : Spells text rule x) (h' : Spells others second y) (apart : Separate others) :
    Spells (text ++ others) (rule.seq second) (x, y) := by
  intro after tokens separate scans
  rw [List.append_assoc] at scans
  obtain ⟨between, applies, more⟩ := h (apart.append separate) scans
  obtain ⟨rest, applies', more'⟩ := h' separate more
  exact ⟨rest, ⟨between, applies, applies'⟩, more'⟩

/-- A first part that is missing. -/
theorem seq_missing (h' : Spells text second y) (missing : ∀ tokens, rule tokens x tokens) :
    Spells text (rule.seq second) (x, y) := by
  intro after tokens separate scans
  obtain ⟨rest, applies, more⟩ := h' separate scans
  exact ⟨rest, ⟨tokens, missing tokens, applies⟩, more⟩

/-- A last part that is missing. -/
theorem seq_end (h : Spells text rule x) (missing : ∀ tokens, second tokens y tokens) :
    Spells text (rule.seq second) (x, y) := by
  intro after tokens separate scans
  obtain ⟨rest, applies, more⟩ := h separate scans
  exact ⟨rest, ⟨rest, applies, missing rest⟩, more⟩

theorem optional (h : Spells text rule x) : Spells text (Rule.optional rule) (some x) := by
  intro after tokens separate scans
  obtain ⟨rest, applies, more⟩ := h separate scans
  exact ⟨rest, .some applies, more⟩

/-! ### Lists -/

theorem closing (known : punctuation? c = some close) : Spells [c] (Rule.items rule close) [] := by
  intro after tokens _ scans
  obtain ⟨t, rest, rfl, isClose, more⟩ := scans.punctuation known
  exact ⟨rest, .close isClose, more⟩

theorem comma (h : Spells text (Rule.items rule close) xs) :
    Spells (',' :: text) (Rule.items rule close) xs := by
  intro after tokens separate scans
  obtain ⟨t, others, rfl, isComma, more⟩ := scans.punctuation rfl
  obtain ⟨rest, applies, more'⟩ := h separate more
  exact ⟨rest, .comma isComma applies, more'⟩

theorem item (h : Spells text rule x) (h' : Spells others (Rule.items rule close) xs)
    (apart : Separate others) : Spells (text ++ others) (Rule.items rule close) (x :: xs) := by
  intro after tokens separate scans
  obtain ⟨rest, ⟨between, here, there⟩, more⟩ := h.seq h' apart separate scans
  exact ⟨rest, .item here there, more⟩

theorem enclosed (h : Spells text (Rule.items rule close) xs) (known : punctuation? c = some kind) :
    Spells (c :: text) (Rule.enclosed kind close rule) xs := by
  intro after tokens separate scans
  obtain ⟨t, others, rfl, isOpening, more⟩ := scans.punctuation known
  obtain ⟨rest, applies, more'⟩ := h separate more
  exact ⟨rest, ⟨(t, xs), ⟨others, Rule.token_iff.2 ⟨rfl, isOpening⟩, applies⟩, rfl⟩, more'⟩

/-- Items with a comma and a blank between neighbours. -/
theorem joined {texts : List String} (known : punctuation? c = some close) (apart : continuesToken c = false)
    (each : List.Forall₂ (fun text x => Spells text.toList rule x) texts xs) :
    Spells ((Text.joinWith ", " texts).toList ++ [c]) (Rule.items rule close) xs := by
  induction each with
  | nil => exact closing known
  | @cons text x texts xs here more ih =>
    cases more with
    | nil => exact here.item (closing known) (separate_cons.2 apart)
    | cons =>
      rw [Text.joinWith, String.toList_append, String.toList_append, List.append_assoc, List.append_assoc]
      exact here.item ih.blank.comma (separate_cons.2 rfl)

end Spells

/-! ## Names and entries -/

theorem spells_name (name : String) (named : isName name = true) :
    Spells name.toList Rule.name (.plain name) := by
  intro after tokens separate scans
  obtain ⟨t, rest, rfl, isName, same, more⟩ := scans.token (isToken_name named) (by decide) rfl separate
  exact ⟨rest, ⟨t, Rule.token_iff.2 ⟨rfl, isName⟩, congrArg Name.plain (String.toList_inj.1 same)⟩, more⟩

theorem spells_entry {α : Type} {rule : Rule α} {key text : String} {x : α} (named : isName key = true)
    (h : Spells text.toList rule x) : Spells (key ++ ": " ++ text).toList (Rule.entry rule) (key, x) := by
  intro after tokens separate scans
  rw [String.toList_append, String.toList_append, List.append_assoc, List.append_assoc] at scans
  obtain ⟨t, _, rfl, isName, same, more⟩ :=
    scans.token (isToken_name named) (by decide) rfl (separate_cons.2 rfl)
  obtain ⟨colon, _, rfl, isColon, more⟩ := Scans.punctuation (c := ':') rfl more
  obtain ⟨rest, applies, more⟩ := h separate more.blank
  rw [← String.toList_inj.1 same]
  exact ⟨rest, .intro isName isColon applies, more⟩

/-! ## Values -/

/-- A value that is one token. -/
theorem spells_literal {kind : SyntaxKind} {text : String} {v : Value} (token : IsToken kind text.toList)
    (known : kind ∈ Parser.literalFirst)
    (means : ∀ t : Token, t.kind = kind → t.text = text → Rule.literalValue? t = some v) :
    Spells text.toList Rule.value v := by
  have solid : ∀ kind ∈ Parser.literalFirst, kind ≠ .garbage ∧ kind.isTrivia = false := by decide
  intro after tokens separate scans
  obtain ⟨t, rest, rfl, isKind, same, more⟩ :=
    scans.token token (solid kind known).1 (solid kind known).2 separate
  exact ⟨rest, .literal ⟨t, rfl, means t isKind (String.toList_inj.1 same)⟩, more⟩

theorem spells_word (name : String) (named : isName name = true) :
    Spells name.toList Rule.value (Rule.wordValue name) := by
  refine spells_literal (isToken_name named) (by decide) fun t isName same => ?_
  rw [Rule.literalValue?, isName, same]

theorem spells_variable {name : String} (named : isName name = true) :
    Spells ('$' :: name.toList) Rule.value (.variable name) := by
  intro after tokens separate scans
  obtain ⟨dollar, _, rfl, isDollar, more⟩ := Scans.punctuation (c := '$') rfl scans
  obtain ⟨t, rest, rfl, isName, same, more⟩ := more.token (isToken_name named) (by decide) rfl separate
  have applies : Rule.variableUse (dollar :: t :: rest) t rest :=
    ⟨(dollar, t), ⟨t :: rest, Rule.token_iff.2 ⟨rfl, isDollar⟩, Rule.token_iff.2 ⟨rfl, isName⟩⟩, rfl⟩
  rw [← String.toList_inj.1 same]
  exact ⟨rest, .reference applies, more⟩

theorem spells_integer (i : Int) : Spells (toString i).toList Rule.value (.int i) := by
  refine spells_literal (isToken_integer i) (by decide) fun t isInt same => ?_
  rw [Rule.literalValue?, isInt, same]
  dsimp only
  rw [integerOf_toString]

theorem spells_float {text : String} (float : isFloatText text = true) :
    Spells text.toList Rule.value (.float text) := by
  refine spells_literal (isToken_float float) (by decide) fun t isFloat same => ?_
  rw [Rule.literalValue?, isFloat, same]

theorem spells_string (s : String) : Spells (Value.quotedString s).toList Rule.value (.string s) := by
  refine spells_literal (isToken_string s) (by decide) fun t isString same => ?_
  rw [Rule.literalValue?, isString]
  dsimp only
  rw [Lowering.contentsOf, isString, if_neg (by decide), same, stringContents_quotedString]

theorem spells_list {texts : List String} {vs : List Value}
    (each : List.Forall₂ (fun text v => Spells text.toList Rule.value v) texts vs) :
    Spells ("[" ++ Text.joinWith ", " texts ++ "]").toList Rule.value (.list vs) := by
  intro after tokens separate scans
  rw [String.toList_append, String.toList_append] at scans
  obtain ⟨t, _, rfl, isOpening, more⟩ := Scans.punctuation (c := '[') rfl scans
  obtain ⟨rest, applies, more⟩ := Spells.joined (c := ']') rfl rfl each separate more
  exact ⟨rest, .list isOpening applies, more⟩

theorem spells_object {texts : List String} {fields : List (String × Value)}
    (each : List.Forall₂ (fun text field => Spells text.toList (Rule.entry Rule.value) field) texts fields) :
    Spells ("\x7b" ++ Text.joinWith ", " texts ++ "\x7d").toList Rule.value (.object fields) := by
  intro after tokens separate scans
  rw [String.toList_append, String.toList_append] at scans
  obtain ⟨t, _, rfl, isOpening, more⟩ := Scans.punctuation (c := '{') rfl scans
  obtain ⟨rest, applies, more⟩ := Spells.joined (c := '}') rfl rfl each separate more
  exact ⟨rest, .object isOpening applies, more⟩

mutual
/-- Every value that a literal can write down is spelled by its printed form. -/
theorem spells_render : ∀ v : Value, v.isShaped = true → Spells v.render.toList Rule.value v
  | .variable name, shaped => by
    rw [Value.isShaped] at shaped
    rw [Value.render, String.toList_append]
    exact spells_variable shaped
  | .int i, _ => by
    rw [Value.render]
    exact spells_integer i
  | .float text, shaped => by
    rw [Value.isShaped] at shaped
    rw [Value.render]
    exact spells_float shaped
  | .string s, _ => by
    rw [Value.render]
    exact spells_string s
  | .boolean true, _ => by
    rw [Value.render]
    exact spells_word "true" rfl
  | .boolean false, _ => by
    rw [Value.render]
    exact spells_word "false" rfl
  | .null, _ => by
    rw [Value.render]
    exact spells_word "null" rfl
  | .enum name, shaped => by
    simp only [Value.isShaped, Bool.and_eq_true, decide_eq_true_eq] at shaped
    obtain ⟨⟨⟨named, notTrue⟩, notFalse⟩, notNull⟩ := shaped
    have word := spells_word name named
    rw [Rule.wordValue, if_neg notTrue, if_neg notFalse, if_neg notNull] at word
    rw [Value.render]
    exact word
  | .list items, shaped => by
    rw [Value.isShaped] at shaped
    rw [Value.render]
    exact spells_list (spells_renderAll items shaped)
  | .object fields, shaped => by
    rw [Value.isShaped] at shaped
    rw [Value.render]
    exact spells_object (spells_renderFields fields shaped)
termination_by structural v => v
theorem spells_renderAll : ∀ vs : List Value, Value.areShaped vs = true →
    List.Forall₂ (fun text v => Spells text.toList Rule.value v) (Value.renderAll vs) vs
  | [], _ => by
    rw [Value.renderAll]
    exact .nil
  | v :: rest, shaped => by
    rw [Value.areShaped, Bool.and_eq_true] at shaped
    rw [Value.renderAll]
    exact .cons (spells_render v shaped.1) (spells_renderAll rest shaped.2)
termination_by structural vs => vs
theorem spells_renderFields : ∀ fields : List (String × Value), Value.areShapedFields fields = true →
    List.Forall₂ (fun text field => Spells text.toList (Rule.entry Rule.value) field)
      (Value.renderFields fields) fields
  | [], _ => by
    rw [Value.renderFields]
    exact .nil
  | (key, v) :: rest, shaped => by
    rw [Value.areShapedFields, Bool.and_eq_true, Bool.and_eq_true] at shaped
    rw [Value.renderFields]
    exact .cons (spells_entry shaped.1.1 (spells_render v shaped.1.2)) (spells_renderFields rest shaped.2)
termination_by structural fields => fields
end

mutual
theorem fits_of_isShaped : ∀ v : Value, v.isShaped = true → v.Fits
  | .int i, shaped => by
    rw [Value.isShaped] at shaped
    exact (Lowering.fitsInt64_iff i).1 shaped
  | .list items, shaped => by
    rw [Value.isShaped] at shaped
    rw [Value.Fits]
    exact allFit_of_areShaped items shaped
  | .object fields, shaped => by
    rw [Value.isShaped] at shaped
    rw [Value.Fits]
    exact fieldsFit_of_areShapedFields fields shaped
  | .variable _, _ | .float _, _ | .string _, _ | .boolean _, _ | .null, _ | .enum _, _ => by
    simp [Value.Fits]
termination_by structural v => v
theorem allFit_of_areShaped : ∀ vs : List Value, Value.areShaped vs = true → Value.AllFit vs
  | [], _ => by simp [Value.AllFit]
  | v :: rest, shaped => by
    rw [Value.areShaped, Bool.and_eq_true] at shaped
    rw [Value.AllFit]
    exact ⟨fits_of_isShaped v shaped.1, allFit_of_areShaped rest shaped.2⟩
termination_by structural vs => vs
theorem fieldsFit_of_areShapedFields : ∀ fields : List (String × Value),
    Value.areShapedFields fields = true → Value.FieldsFit fields
  | [], _ => by simp [Value.FieldsFit]
  | (key, v) :: rest, shaped => by
    rw [Value.areShapedFields, Bool.and_eq_true, Bool.and_eq_true] at shaped
    rw [Value.FieldsFit]
    exact ⟨fits_of_isShaped v shaped.1.2, fieldsFit_of_areShapedFields rest shaped.2⟩
termination_by structural fields => fields
end

/-! ## A literal around a value -/

theorem spells_arguments {text : String} {v : Value} (h : Spells text.toList Rule.value v) :
    Spells ('(' :: (("a" ++ ": " ++ text).toList ++ [')'])) Rule.arguments [⟨.plain "a", .plain v⟩] := by
  have argument : Spells ("a" ++ ": " ++ text).toList Rule.argument ⟨.plain "a", .plain v⟩ :=
    (spells_entry rfl h).map _
  have items := argument.item (.closing (c := ')') rfl) (separate_cons.2 rfl)
  exact (items.enclosed rfl).optional.map _

/-- A selection with one argument. -/
def selectionWith (v : Value) : Selection :=
  ⟨none, .plain "g", [⟨.plain "a", .plain v⟩], [], none, .empty 0⟩

theorem spells_selection {text : String} {v : Value} (h : Spells text.toList Rule.value v) :
    Spells ('g' :: '(' :: (("a" ++ ": " ++ text).toList ++ [')'])) Rule.selection (selectionWith v) := by
  have noLabel (tokens : List Token) : Rule.optional Rule.label tokens none tokens := .none
  have noDirective (tokens : List Token) : Rule.many Rule.directive tokens [] tokens := .nil
  have name : Spells ['g'] Rule.name (.plain "g") := spells_name "g" rfl
  have named := name.seq ((spells_arguments h).seq_end noDirective) (separate_cons.2 rfl)
  have head : Spells _ Rule.selectionHead (selectionWith v) := (named.seq_missing noLabel).map _
  intro after tokens separate scans
  obtain ⟨rest, applies, more⟩ := head separate scans
  exact ⟨rest, .leaf applies, more⟩

theorem spells_set {text : List Char} {s : Selection} (h : Spells text Rule.selection s) :
    Spells (' ' :: '{' :: ' ' :: (text ++ [' ', '}'])) Rule.selectionSet [s] := by
  have items := (h.item (Spells.closing (c := '}') rfl).blank (separate_cons.2 rfl)).blank
  exact (items.enclosed (c := '{') rfl).blank

theorem spells_body {text : List Char} {s : Selection} (h : Spells text Rule.selection s) :
    Spells (' ' :: '{' :: ' ' :: (text ++ [' ', '}'])) Rule.body ⟨[], [], none, [s]⟩ := by
  have noDefinition (tokens : List Token) : Rule.variableDefinitions tokens [] tokens := ⟨none, .none, rfl⟩
  have noDirective (tokens : List Token) : Rule.many Rule.directive tokens [] tokens := .nil
  have noDescription (tokens : List Token) : Rule.optional Rule.description tokens none tokens := .none
  exact ((((spells_set h).seq_missing noDescription).seq_missing noDirective).seq_missing noDefinition).map _

theorem spells_target : Spells ['Q', '.', 'f'] Rule.target (.plain "Q", .plain "f") := by
  intro after tokens separate scans
  -- a dot continues a number but no name, so the type's name is taken off by itself
  have whole : longestMatch 'Q' ([] ++ '.' :: 'f' :: after) = ⟨some .identifier, ([] : List Char).length⟩ :=
    rfl
  obtain ⟨type, _, rfl, isType, same, more⟩ := Scans.matched (by decide) rfl whole scans
  obtain ⟨dot, others, rfl, isDot, more⟩ := Scans.punctuation (c := '.') rfl more
  obtain ⟨rest, field, more⟩ := spells_name "f" rfl separate more
  have typed : Rule.name (type :: dot :: others) (.plain "Q") (dot :: others) :=
    ⟨type, Rule.token_iff.2 ⟨rfl, isType⟩, congrArg Name.plain (String.toList_inj.1 same)⟩
  have dotted : Rule.token .dot (dot :: others) dot others := Rule.token_iff.2 ⟨rfl, isDot⟩
  exact ⟨rest, ⟨(.plain "Q", dot, .plain "f"), ⟨_, typed, _, dotted, field⟩, rfl⟩, more⟩

theorem spells_field {text : List Char} {names : Name × Name} {body : Rule.Body}
    (h : Spells text (Rule.target.seq Rule.body) (names, body)) (apart : Separate text) :
    Spells ("field".toList ++ text) Rule.declaration (Rule.assemble .field names none body) := by
  intro after tokens separate scans
  rw [List.append_assoc] at scans
  obtain ⟨t, others, rfl, isWord, same, more⟩ :=
    scans.token (isToken_name rfl) (by decide) rfl (apart.append separate)
  obtain ⟨rest, applies, more⟩ := h separate more
  have keyword : Rule.keyword "field" (t :: others) t others :=
    Rule.keyword_iff.2 ⟨rfl, isWord, String.toList_inj.1 same⟩
  exact ⟨rest, .inl ⟨(t, names, body), ⟨others, keyword, applies⟩, rfl⟩, more⟩

/-- The declaration of a field with one selection, which has one argument. -/
def declarationWith (v : Value) : Declaration :=
  Rule.assemble .field (.plain "Q", .plain "f") none ⟨[], [], none, [selectionWith v]⟩

theorem declaration_of_printed {v : Value} (shaped : v.isShaped = true) :
    Rule.declaration ((lex ("field Q.f \x7b g(a: " ++ v.render ++ ") \x7d")).filter (!·.isTrivia))
      (declarationWith v) [] := by
  have body := spells_body (spells_selection (spells_render v shaped))
  have whole := spells_field (spells_target.seq body (separate_cons.2 rfl)).blank (separate_cons.2 rfl)
  have scans := scans_lex ("field Q.f \x7b g(a: " ++ v.render ++ ") \x7d")
  have text : ("field Q.f \x7b g(a: " ++ v.render ++ ") \x7d").toList =
      "field".toList ++ ' ' :: (['Q', '.', 'f'] ++ ' ' :: '{' :: ' ' ::
        ('g' :: '(' :: (("a" ++ ": " ++ v.render).toList ++ [')']) ++ [' ', '}'])) := by
    simp
  rw [text, ← List.append_nil (_ ++ _)] at scans
  obtain ⟨rest, applies, nothing⟩ := whole separate_nil scans
  rwa [nothing.eq_nil] at applies

theorem wellFormed_declarationWith {v : Value} (shaped : v.isShaped = true) :
    (declarationWith v).WellFormed where
  directives := nofun
  definitions := ⟨.nil, nofun⟩
  selections := by
    have fits := fits_of_isShaped v shaped
    simp [declarationWith, Rule.assemble, selectionWith, Selection.SetWellFormed, Selection.AllWellFormed,
      Selection.WellFormed, Argument.WellFormed, Directive.WellFormed, PlacedValue.plain, fits]

/-- The arguments of the selections do not depend on where they stand. -/
theorem arguments_bareAll (selections : List Selection) :
    (Selection.bareAll selections).map (fun s => s.arguments.map fun a => (a.name.text, a.value.value)) =
      selections.map (fun s => s.arguments.map fun a => (a.name.text, a.value.value)) := by
  induction selections with
  | nil => rw [Selection.bareAll]
  | cons s rest ih =>
    rw [Selection.bareAll, List.map_cons, List.map_cons, ih]
    congr 1
    cases s
    rw [Selection.bare, List.map_map]
    rfl

/-- A value that a literal can write down is read back from a literal that gives its printed form for an
argument, and nothing is reported about that literal. -/
theorem parseDeclaration_printed (v : Value) (source : Nat) (shaped : v.isShaped = true) :
    ∃ d, parseDeclaration ("field Q.f \x7b g(a: " ++ v.render ++ ") \x7d") source .unlimited =
        .ok (some d, []) ∧
      d.selections.map (fun s => s.arguments.map fun a => (a.name.text, a.value.value)) = [[("a", v)]] := by
  obtain ⟨d, parsed, plain⟩ := parseDeclaration_of_declaration (declaration_of_printed shaped)
    (wellFormed_declarationWith shaped) source
  refine ⟨d, parsed, ?_⟩
  have selections : Selection.bareAll d.selections = [selectionWith v] :=
    congrArg Declaration.selections plain
  rw [← arguments_bareAll, selections]
  rfl

/-- A value with what is hard to print: quotes, backslashes and control characters in strings, texts that look
like escapes, an empty string, the least integer, repeated keys and words that are no keywords there. -/
def intricateValue : Value :=
  .object [("true", .list [.string "", .string "\"\\n\u0041\\u0041\n\x00é", .int (-9223372036854775808)]),
    ("k", .float "-0.50e+7"), ("k", .list [.list [], .object [], .null, .boolean false]),
    ("field", .variable "null"), ("_", .enum "to")]

theorem parseDeclaration_intricateValue :
    intricateValue.isShaped = true ∧
      ∃ d, parseDeclaration ("field Q.f \x7b g(a: " ++ intricateValue.render ++ ") \x7d") 0 .unlimited =
          .ok (some d, []) ∧
        d.selections.map (fun s => s.arguments.map fun a => (a.name.text, a.value.value)) =
          [[("a", intricateValue)]] :=
  ⟨by decide, parseDeclaration_printed intricateValue 0 (by decide)⟩

end IsoLiteral
