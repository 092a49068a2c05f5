import IsoLiteral.Proofs.Declaration.RoundTrip
import IsoLiteral.Proofs.TypeExpr.Written

/-!
# Type annotations are read back

Annotations are read in two places: off a text of its own in the schema, and in a literal. What the first
reads has an identifier for its name and no two `!` in a row, and every such annotation is read back from its
printed form by both. The reader of texts also allows white space between any two parts.
-/

namespace IsoLiteral

open Lexer

namespace TypeExpr

variable {t : TypeExpr} {text : List Char}

/-- Whether no `!` stands directly behind another one. -/
def bangsApart : TypeExpr → Bool
  | .named _ => true
  | .list item => item.bangsApart
  | .nonNull inner => !inner.isNonNull && inner.bangsApart

theorem Written.isName_innerName (written : Written t text) : isName t.innerName = true := by
  induction written with
  | named named => exact named
  | list _ ih => exact ih
  | nonNull _ _ ih => exact ih
  | before _ _ ih => exact ih
  | after _ _ ih => exact ih

theorem Written.bangsApart (written : Written t text) : t.bangsApart = true := by
  induction written with
  | named _ => rfl
  | list _ ih => exact ih
  | nonNull _ nullable ih => rw [TypeExpr.bangsApart, nullable, ih, Bool.not_false, Bool.true_and]
  | before _ _ ih => exact ih
  | after _ _ ih => exact ih

/-- The printed form is written for the annotation. -/
theorem written_render (named : isName t.innerName = true) (apart : t.bangsApart = true) :
    Written t t.render.toList := by
  induction t with
  | named name => exact .named named
  | list item ih =>
    rw [render, String.toList_append, String.toList_append]
    exact (ih named apart).list
  | nonNull inner ih =>
    rw [TypeExpr.bangsApart, Bool.and_eq_true, Bool.not_eq_true'] at apart
    rw [render, String.toList_append]
    exact (ih named apart.2).nonNull apart.1

end TypeExpr

/-! ## Annotations in literals -/

variable {t : TypeExpr} {text : List Char}

/-- Every annotation that can be written is spelled by its printed form. -/
theorem spells_type (named : isName t.innerName = true) (apart : t.bangsApart = true) :
    Spells t.render.toList Rule.typeAnnotation t := by
  induction t with
  | named name =>
    intro after tokens separate scans
    obtain ⟨t, rest, rfl, isName, same, more⟩ := scans.token (isToken_name named) (by decide) rfl separate
    obtain rfl : t.text = name := String.toList_inj.1 same
    exact ⟨rest, .named isName, more⟩
  | list item ih =>
    intro after tokens separate scans
    rw [TypeExpr.render, String.toList_append, String.toList_append, List.append_assoc, List.append_assoc] at scans
    obtain ⟨opening, _, rfl, isOpening, more⟩ := Scans.punctuation (c := '[') rfl scans
    obtain ⟨_, applies, more⟩ := ih named apart (separate_cons.2 rfl) more
    obtain ⟨closing, rest, rfl, isClosing, more⟩ := Scans.punctuation (c := ']') rfl more
    exact ⟨rest, .list isOpening applies isClosing, more⟩
  | nonNull inner ih =>
    intro after tokens separate scans
    rw [TypeExpr.bangsApart, Bool.and_eq_true, Bool.not_eq_true'] at apart
    rw [TypeExpr.render, String.toList_append, List.append_assoc] at scans
    obtain ⟨_, applies, more⟩ := ih named apart.2 (separate_cons.2 rfl) scans
    obtain ⟨bang, rest, rfl, isBang, more⟩ := Scans.punctuation (c := '!') rfl more
    exact ⟨rest, .nonNull applies isBang apart.1, more⟩

/-- A variable of a type, without a default. -/
def definitionWith (t : TypeExpr) : VariableDefinition := ⟨.plain "v", .plain t, none⟩

theorem spells_definition (h : Spells text Rule.typeAnnotation t) :
    Spells ('$' :: 'v' :: ':' :: ' ' :: text) Rule.variableDefinition (definitionWith t) := by
  have name : IsToken .identifier ['v'] := isToken_name (show isName "v" = true from rfl)
  intro after tokens separate scans
  obtain ⟨dollar, _, rfl, isDollar, more⟩ := Scans.punctuation (c := '$') rfl scans
  obtain ⟨v, others, rfl, isName, same, more⟩ := more.token name (by decide) rfl (separate_cons.2 rfl)
  obtain ⟨colon, others, rfl, isColon, more⟩ := Scans.punctuation (c := ':') rfl more
  obtain ⟨rest, applies, more⟩ := h separate more.blank
  have use : Rule.variableUse (dollar :: v :: colon :: others) v (colon :: others) :=
    ⟨(dollar, v), ⟨v :: colon :: others, Rule.token_iff.2 ⟨rfl, isDollar⟩, Rule.token_iff.2 ⟨rfl, isName⟩⟩, rfl⟩
  have typed : (Rule.seq (Rule.token .colon) (Rule.seq Rule.typeAnnotation (Rule.optional Rule.defaultValue)))
      (colon :: others) (colon, t, none) rest :=
    ⟨others, Rule.token_iff.2 ⟨rfl, isColon⟩, rest, applies, .none⟩
  have isV : v.text = "v" := String.toList_inj.1 same
  refine ⟨rest, ⟨(v, colon, t, none), ⟨colon :: others, use, typed⟩, ?_⟩, more⟩
  exact congrArg (fun text => (⟨.plain text, .plain t, none⟩ : VariableDefinition)) isV

/-- A selection of a field without arguments. -/
def plainSelection : Selection := ⟨none, .plain "x", [], [], none, .empty 0⟩

theorem spells_plainSelection : Spells ['x'] Rule.selection plainSelection := by
  have noLabel (tokens : List Token) : Rule.optional Rule.label tokens none tokens := .none
  have nothing (tokens : List Token) :
      (Rule.arguments.seq (Rule.many Rule.directive)) tokens ([], []) tokens :=
    ⟨tokens, ⟨none, .none, rfl⟩, .nil⟩
  have name : Spells ['x'] Rule.name (.plain "x") := spells_name "x" rfl
  have head : Spells ['x'] Rule.selectionHead plainSelection :=
    ((name.seq_end nothing).seq_missing noLabel).map _
  intro after tokens separate scans
  obtain ⟨rest, applies, more⟩ := head separate scans
  exact ⟨rest, .leaf applies, more⟩

/-- The declaration of a field with a variable of a type. -/
def declarationOver (t : TypeExpr) : Declaration :=
  Rule.assemble .field (.plain "Q", .plain "f") none ⟨[definitionWith t], [], none, [plainSelection]⟩

theorem declaration_of_type (named : isName t.innerName = true) (apart : t.bangsApart = true) :
    Rule.declaration ((lex ("field Q.f($v: " ++ t.render ++ ") \x7b x \x7d")).filter (!·.isTrivia))
      (declarationOver t) [] := by
  have noDirective (tokens : List Token) : Rule.many Rule.directive tokens [] tokens := .nil
  have noDescription (tokens : List Token) : Rule.optional Rule.description tokens none tokens := .none
  have definition := (spells_definition (spells_type named apart)).item (.closing (c := ')') rfl)
    (separate_cons.2 rfl)
  have definitions : Spells _ Rule.variableDefinitions [definitionWith t] :=
    ((definition.enclosed (c := '(') rfl).optional).map _
  have set := ((spells_set spells_plainSelection).seq_missing noDescription).seq_missing noDirective
  have body : Spells _ Rule.body ⟨[definitionWith t], [], none, [plainSelection]⟩ :=
    (definitions.seq set (separate_cons.2 rfl)).map _
  have whole := spells_field (spells_target.seq body (separate_cons.2 rfl)).blank (separate_cons.2 rfl)
  have scans := scans_lex ("field Q.f($v: " ++ t.render ++ ") \x7b x \x7d")
  have text : ("field Q.f($v: " ++ t.render ++ ") \x7b x \x7d").toList =
      "field".toList ++ ' ' :: (['Q', '.', 'f'] ++ ('(' :: ('$' :: 'v' :: ':' :: ' ' :: t.render.toList ++ [')']) ++
        ' ' :: '{' :: ' ' :: (['x'] ++ [' ', '}']))) := by
    simp
  rw [text, ← List.append_nil (_ ++ _)] at scans
  obtain ⟨rest, applies, nothing⟩ := whole separate_nil scans
  rwa [nothing.eq_nil] at applies

theorem wellFormed_declarationOver (t : TypeExpr) : (declarationOver t).WellFormed where
  directives := nofun
  definitions := by
    refine ⟨List.nodup_singleton _, ?_⟩
    simp [declarationOver, Rule.assemble, definitionWith]
  selections := by
    simp [declarationOver, Rule.assemble, plainSelection, Selection.SetWellFormed, Selection.AllWellFormed,
      Selection.WellFormed, Argument.WellFormed, Directive.WellFormed]

/-- A literal that gives the printed form of a type to a variable declares a variable of that type, and
nothing is reported about it. -/
theorem parseDeclaration_type (named : isName t.innerName = true) (apart : t.bangsApart = true) (source : Nat) :
    ∃ d, parseDeclaration ("field Q.f($v: " ++ t.render ++ ") \x7b x \x7d") source .unlimited =
        .ok (some d, []) ∧
      d.variableDefinitions.map (fun v => (v.name.text, v.type.annotation, v.defaultValue.isSome)) =
        [("v", t, false)] := by
  obtain ⟨d, parsed, plain⟩ := parseDeclaration_of_declaration (declaration_of_type named apart)
    (wellFormed_declarationOver t) source
  refine ⟨d, parsed, ?_⟩
  have definitions : d.variableDefinitions.map VariableDefinition.bare = [definitionWith t] :=
    congrArg Declaration.variableDefinitions plain
  obtain ⟨v, alone, bare⟩ := List.map_eq_singleton_iff.1 definitions
  have name : v.name.text = "v" := congrArg (·.name.text) bare
  have type : v.type.annotation = t := congrArg (·.type.annotation) bare
  have plain : v.defaultValue = none := Option.map_eq_none_iff.1 (congrArg (·.defaultValue) bare)
  rw [alone, List.map_singleton, name, type, plain]
  rfl

/-! ## Both readers -/

/-- **Annotations are read back.** What is read off a text has an identifier for its name and no two `!` in a
row. Every such annotation is read back from its printed form, and from a literal that gives this to a
variable, about which nothing is reported. White space added at gaps of a text changes neither whether it is
read nor what it is read as. -/
theorem annotations_read_back :
    (∀ (text : String) (t : TypeExpr), TypeExpr.ofString? text = some t →
      isName t.innerName = true ∧ t.bangsApart = true) ∧
    (∀ t : TypeExpr, isName t.innerName = true → t.bangsApart = true →
      TypeExpr.ofString? t.render = some t ∧
      ∀ source, ∃ d, parseDeclaration ("field Q.f($v: " ++ t.render ++ ") \x7b x \x7d") source .unlimited =
          .ok (some d, []) ∧
        d.variableDefinitions.map (fun v => (v.name.text, v.type.annotation, v.defaultValue.isSome)) =
          [("v", t, false)]) ∧
    ∀ text looser : String, TypeExpr.Loosened text.toList looser.toList →
      TypeExpr.ofString? looser = TypeExpr.ofString? text := by
  refine ⟨fun text t read => ?_, fun t named apart => ⟨?_, parseDeclaration_type named apart⟩,
    fun _ _ => TypeExpr.ofString?_of_loosened⟩
  · have written := TypeExpr.ofString?_eq_some_iff.1 read
    exact ⟨written.isName_innerName, written.bangsApart⟩
  · exact TypeExpr.ofString?_eq_some_iff.2 (TypeExpr.written_render named apart)

/-- A non-null list of lists of non-null items. -/
def nestedType : TypeExpr := .nonNull (.list (.list (.nonNull (.named "User"))))

/-- The nested type, and its text with a no-break space inside of a bracket and a line break before the last
mark. -/
theorem annotations_read_back_nested :
    TypeExpr.ofString? "[[User!]]!" = some nestedType ∧
    (isName nestedType.innerName = true ∧ nestedType.bangsApart = true) ∧
    (TypeExpr.ofString? nestedType.render = some nestedType ∧
      ∀ source, ∃ d, parseDeclaration ("field Q.f($v: " ++ nestedType.render ++ ") \x7b x \x7d") source
          .unlimited = .ok (some d, []) ∧
        d.variableDefinitions.map (fun v => (v.name.text, v.type.annotation, v.defaultValue.isSome)) =
          [("v", nestedType, false)]) ∧
    TypeExpr.Loosened "[[User!]]!".toList "[\u00a0[User!]]\n!".toList ∧
    TypeExpr.ofString? "[\u00a0[User!]]\n!" = TypeExpr.ofString? "[[User!]]!" := by
  have read : TypeExpr.ofString? "[[User!]]!" = some nestedType := by decide +kernel
  have named := annotations_read_back.1 _ _ read
  have behind : TypeExpr.Gap ['['] "[User!]]!".toList := .inr (.inr (.inl ⟨'[', rfl, rfl⟩))
  have before : TypeExpr.Gap "[\u00a0[User!]]".toList ['!'] := .inr (.inr (.inr ⟨'!', rfl, rfl⟩))
  have inside := TypeExpr.Loosened.step .refl behind (show Text.isBlank '\u00a0' = true from rfl)
  have loosened : TypeExpr.Loosened "[[User!]]!".toList "[\u00a0[User!]]\n!".toList :=
    (show TypeExpr.Loosened "[[User!]]!".toList ("[\u00a0[User!]]".toList ++ ['!']) from inside).step before
      (show Text.isBlank '\n' = true from rfl)
  exact ⟨read, named, annotations_read_back.2.1 _ named.1 named.2, loosened,
    annotations_read_back.2.2 _ _ loosened⟩

end IsoLiteral
