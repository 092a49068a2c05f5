import IsoLiteral.Proofs.Artifact.Folding
import IsoLiteral.Proofs.Operation.Emitted

/-!
# Response names

The answer to an operation comes under the names of its selections: the name of the field, or the store key
if there are arguments. Where no field has four underscores in a row in its name, no two different fields of
a selection set have the same response name, whatever inlining brings together there. A server whose field is
named like the key of another field's selection is all it takes for the two to be mixed up.
-/

namespace IsoLiteral

open MergedSet

/-! ## Names of merged selections -/

namespace MergedSelection

/-- The name of the selected field; a fragment selects none itself. -/
def fieldName? : MergedSelection → Option String
  | .scalar fieldName _ => some fieldName
  | .linked fieldName _ _ _ => some fieldName
  | .inlineFragment _ _ => none

/-- The name under which the answer comes. -/
def responseName? : MergedSelection → Option String
  | .scalar fieldName arguments => some (storeKey fieldName arguments)
  | .linked fieldName arguments _ _ => some (storeKey fieldName arguments)
  | .inlineFragment _ _ => none

end MergedSelection

/-- The text of a field starts with its response name, and names the field after it if they differ. -/
theorem fieldText_eq (fieldName : String) (arguments : List (String × Value)) :
    fieldText fieldName arguments = storeKey fieldName arguments ++
      if arguments.isEmpty then "" else
        ": " ++ fieldName ++ "(" ++ Text.joinWith ", " (arguments.map argumentText) ++ ")" := by
  unfold fieldText
  split
  · rename_i none
    rw [List.isEmpty_iff.1 none, storeKey_nil, String.append_empty]
  · simp only [String.append_assoc]

/-- Two selections of the set have one response name, but select different fields. -/
def MergedSet.SharesName (set : MergedSet) : Prop :=
  ∃ a ∈ set, ∃ b ∈ set, a.2.responseName?.isSome = true ∧ a.2.responseName? = b.2.responseName? ∧
    a.2.fieldName? ≠ b.2.fieldName?

instance (set : MergedSet) : Decidable set.SharesName :=
  inferInstanceAs (Decidable (∃ a ∈ set, ∃ b ∈ set, a.2.responseName?.isSome = true ∧
    a.2.responseName? = b.2.responseName? ∧ a.2.fieldName? ≠ b.2.fieldName?))

/-- In a set and in all sets inside it, different fields have different response names. -/
inductive MergedSet.NamesApart : MergedSet → Prop where
  | intro {set : MergedSet} (own : ¬ set.SharesName) (inside : ∀ entry ∈ set, NamesApart entry.2.selections) :
      NamesApart set

/-! ## Plain selections -/

/-- A selection of a field with a plain name, with only such inside. -/
inductive MergedSelection.IsPlain : MergedSelection → Prop where
  | scalar {fieldName arguments} (plain : PlainName fieldName) : IsPlain (.scalar fieldName arguments)
  | linked {fieldName arguments concreteType selections} (plain : PlainName fieldName)
      (inside : ∀ entry ∈ selections, IsPlain entry.2) :
      IsPlain (.linked fieldName arguments concreteType selections)
  | fragment {typeName selections} (inside : ∀ entry ∈ selections, IsPlain entry.2) :
      IsPlain (.inlineFragment typeName selections)

/-- All selections of a set are plain. -/
def MergedSet.ArePlain (set : MergedSet) : Prop := ∀ entry ∈ set, entry.2.IsPlain

/-- A response name is the key of the selected field, which has a plain name. -/
theorem MergedSelection.IsPlain.exists_storeKey {m : MergedSelection} (plain : m.IsPlain) {key : String}
    (named : m.responseName? = some key) :
    ∃ name arguments, m.fieldName? = some name ∧ PlainName name ∧ storeKey name arguments = key := by
  cases plain with
  | scalar plain => exact ⟨_, _, rfl, plain, Option.some.inj named⟩
  | linked plain _ => exact ⟨_, _, rfl, plain, Option.some.inj named⟩
  | fragment => cases named

theorem MergedSet.ArePlain.not_sharesName {set : MergedSet} (plain : set.ArePlain) : ¬ set.SharesName := by
  rintro ⟨a, inA, b, inB, given, same, apart⟩
  obtain ⟨key, named⟩ := Option.isSome_iff_exists.1 given
  obtain ⟨name, arguments, own, plainA, keyA⟩ := (plain a inA).exists_storeKey named
  obtain ⟨name', arguments', own', plainB, keyB⟩ := (plain b inB).exists_storeKey (same ▸ named)
  refine apart ?_
  rw [own, own', eq_of_storeKey_eq plainA plainB (keyA.trans keyB.symm)]

theorem MergedSelection.IsPlain.namesApart {m : MergedSelection} (plain : m.IsPlain) :
    m.selections.NamesApart := by
  induction plain with
  | scalar => exact .intro (ArePlain.not_sharesName nofun) nofun
  | linked _ inside ih => exact .intro (ArePlain.not_sharesName inside) ih
  | fragment inside ih => exact .intro (ArePlain.not_sharesName inside) ih

theorem MergedSet.ArePlain.namesApart {set : MergedSet} (plain : set.ArePlain) : set.NamesApart :=
  .intro plain.not_sharesName fun entry member => (plain entry member).namesApart

theorem MergedSet.ArePlain.complete {set : MergedSet} (plain : set.ArePlain) (g : SchemaGraph)
    (target : TypeId) (withTypename : Bool) : (complete g target withTypename set).ArePlain := by
  have names : ∀ name ∈ ["id", typenameField], PlainName name := by decide
  intro entry member
  rcases mem_complete member with old | ⟨name, listed, same⟩
  · exact plain entry old
  · rw [same]
    exact .scalar (names name listed)

theorem MergedSet.ArePlain.nodeWrapper {set : MergedSet} (plain : set.ArePlain) (g : SchemaGraph)
    (target : TypeId) : (nodeWrapper g target set).ArePlain := by
  have fragment : ArePlain [(.inlineFragment (g.typeName target),
      .inlineFragment (g.typeName target) (MergedSet.complete g target true set))] :=
    List.forall_mem_singleton.2 (.fragment (plain.complete g target true))
  exact List.forall_mem_singleton.2 (.linked (by decide) (fragment.complete g _ true))

/-! ## Inlined selections -/

/-- Only fields with plain names may be selected. -/
def plainRules (g : SchemaGraph) : EntryRules where
  identified _ := True
  scalar _ fieldName _ := PlainName fieldName
  linked type fieldName _ target := g.linkTarget? type fieldName = some target ∧ PlainName fieldName
  fragment _ target := target.index < g.types.length

theorem Obeys.isPlain {g : SchemaGraph} {type : TypeId} {key : SelectionKey} {m : MergedSelection}
    (obeys : Obeys g (plainRules g) type key m) : m.IsPlain := by
  induction obeys with
  | id _ => exact .scalar (by decide)
  | scalar allowed => exact .scalar allowed
  | linked allowed _ ih => exact .linked allowed.2 ih
  | fragment _ _ ih => exact .fragment ih

section Inlined

variable {options : SchemaOptions} {document : SchemaDocument} {declarations : List Declaration}
  {g : SchemaGraph} {r : Resolution}

theorem lawful_plainRules (built : SchemaGraph.ofDocument options document declarations = .ok g) :
    (plainRules g).Lawful g where
  target := by
    rintro type fieldName arguments s t ⟨first, -⟩ ⟨second, -⟩
    rw [first] at second
    exact Option.some.inj second
  names first second same := g.typeName_injective built first second same
  identified _ := trivial
  linkedTypename _ _ := show PlainName typenameField by decide
  fragmentTypename _ := show PlainName typenameField by decide

theorem discipline_plain (built : SchemaGraph.ofDocument options document declarations = .ok g)
    (plain : g.PlainNames) : Discipline g r (plainRules g) fun _ _ => True where
  scalar _ selected := plain.of_lookupField? built selected.mirrored.found
  linked := by
    intro d c type head target updatable nested _ selected
    obtain ⟨_, mirrors⟩ := selected.mirrored
    cases mirrors with
    | linked stands kind _ _ _ _ _ =>
      have found : g.lookupField? type head.fieldName = some head.field := stands.found
      refine ⟨?_, plain.of_lookupField? built found⟩
      rw [SchemaGraph.linkTarget?, found, Option.map_some, show (g.field head.field).kind = _ from kind]
  fragment := by
    intro d c type head target updatable nested _ selected
    obtain ⟨_, mirrors⟩ := selected.mirrored
    cases mirrors with
    | linked stands kind _ _ _ _ _ => exact g.target_lt built kind
  reference _ _ _ _ _ := trivial

theorem arePlain_mergeSelections (built : SchemaGraph.ofDocument options document declarations = .ok g)
    (plain : g.PlainNames) (grounded : ∀ f ∈ r.fields, ∃ d, Grounded g d f) {d : Declaration}
    {c : VariableContext} {type : TypeId} {selections : List ResolvedSelection}
    (selected : ∀ s ∈ selections, Selected g r d type s) :
    (mergeSelections g r type c selections).ArePlain := by
  intro entry member
  exact (obeysAll_mergeSelections built (lawful_plainRules built) (discipline_plain built plain) grounded
    trivial selected entry member).isPlain

theorem Grounded.arePlain_fetchOperation {d : Declaration} {f : ResolvedField} (h : Grounded g d f)
    (built : SchemaGraph.ofDocument options document declarations = .ok g) (plain : g.PlainNames)
    (grounded : ∀ f ∈ r.fields, ∃ d, Grounded g d f) (listed : f ∈ r.fields) (name : String) :
    (fetchOperation g r name f).selections.ArePlain := by
  have merged := arePlain_mergeSelections (c := .symbolic f.variableDefinitions) built plain grounded
    (h.selected listed)
  unfold fetchOperation
  cases g.operationKind? f.parent with
  | some kind => exact merged
  | none => exact merged.nodeWrapper g f.parent

theorem Grounded.arePlain_refetchOperation {d : Declaration} {f : ResolvedField} (h : Grounded g d f)
    (built : SchemaGraph.ofDocument options document declarations = .ok g) (plain : g.PlainNames)
    (grounded : ∀ f ∈ r.fields, ∃ d, Grounded g d f) (listed : f ∈ r.fields) {site : RefetchSite}
    (member : site ∈ refetchSites f.parent f.selections) (name : String) :
    (refetchOperation g r name f site).selections.ArePlain :=
  (arePlain_mergeSelections built plain grounded
    (h.selected_of_mem_refetchSites listed site member).selected).nodeWrapper g site.type

end Inlined

/-! ## Keys tell fields apart -/

/-- Keys tell the fields of a type apart: in the store, in normalization trees and in answers. -/
structure KeysTellFields (g : SchemaGraph) (r : Resolution) : Prop where
  /-- Selections of one type with one key select one field. -/
  selections : ∀ type s t, g.Resolves type s → g.Resolves type t → s.head.storeKey = t.head.storeKey →
    s.head.field = t.head.field
  /-- All selections at one place of a normalization tree select the field that is written there. -/
  nodes : ∀ type ss, (∀ s ∈ ss, g.Resolves type s) →
    ∀ path head, (path, head) ∈ selectionPlaces g ss →
      (∀ head', (path, head') ∈ selectionPlaces g ss → head'.field = head.field) ∧
      ∀ name, (path, name) ∈ NormalizationNode.placesOfAll (normalizationTree g ss) → name = head.fieldName
  /-- No selection set of an operation has one response name for two fields. -/
  responses : ∀ f ∈ r.fields, ∀ name, (fetchOperation g r name f).selections.NamesApart ∧
    ∀ site ∈ refetchSites f.parent f.selections, (refetchOperation g r name f site).selections.NamesApart

section Keys

variable {options : SchemaOptions} {document : SchemaDocument} {declarations : List Declaration}
  {g : SchemaGraph}

/-- **Which fields share a key.** For every built graph, two selections of a type share a store key but not
the field exactly if one of them has no arguments and its field is named like the key of the other. Where no
field has four underscores in a row in its name, there are none: keys tell fields apart, merging brings
nothing together that is of different fields, and no two fields of a selection set have one response name. -/
theorem keysTellFields_of_plainNames
    (built : SchemaGraph.ofDocument options document declarations = .ok g)
    (parsed : ∀ d ∈ declarations, d.Parsed) :
    (∀ type s t, g.Resolves type s → g.Resolves type t →
      (s.head.storeKey = t.head.storeKey ∧ s.head.field ≠ t.head.field ↔
        s.head.NamedLike t.head ∨ t.head.NamedLike s.head)) ∧
    (g.PlainNames → KeysTellFields g (Resolution.ofDeclarations g declarations).1) := by
  refine ⟨fun type s t h h' => h.shares_key_iff built h', fun plain => ⟨?_, ?_, ?_⟩⟩
  · intro type s t h h' same
    exact h.field_eq h' (plain.fieldName_eq_of_storeKey built h h' same)
  · intro type ss all path head here
    refine ⟨fun head' there => ?_, fun name written => ?_⟩
    · exact (plain.field_eq_of_mem_places built path all all there here).2
    · obtain ⟨other, there, rfl⟩ := exists_of_mem_placesOfAll written
      exact (plain.field_eq_of_mem_places built path all all there here).1
  · intro f listed name
    have grounded := exists_grounded built parsed
    obtain ⟨d, own⟩ := grounded f listed
    refine ⟨(own.arePlain_fetchOperation built plain grounded listed name).namesApart, fun site member => ?_⟩
    exact (own.arePlain_refetchOperation built plain grounded listed member name).namesApart

end Keys

theorem keysTellFields_of_plainNames_home :
    (userGraph sizeArgument [] homeTexts).PlainNames ∧
      KeysTellFields (userGraph sizeArgument [] homeTexts)
        (Resolution.ofDeclarations (userGraph sizeArgument [] homeTexts) (declarationsOf homeTexts)).1 := by
  have plain : (userGraph sizeArgument [] homeTexts).PlainNames := by decide +kernel
  exact ⟨plain, (keysTellFields_of_plainNames (built_userGraph possible_homeGraph)
    (parsed_declarationsOf homeTexts)).2 plain⟩

/-! ## A field that is named like a key -/

/-- A server with a user, whose name is given for a size, and who has a field that is named like the key of
the name for the size 1. -/
def clashingDocument : SchemaDocument :=
  let field (name type : String) (arguments : List ArgumentDocument) : FieldDocument :=
    ⟨name, type, arguments, none, none⟩
  let object (name : String) (fields : List FieldDocument) : TypeDocument :=
    ⟨name, .object, [], fields, [], [], none⟩
  ⟨"Query", none, [object "Query" [field "me" "User" []],
    object "User" [field "id" "ID!" [], field "name" "String" [⟨"size", "Int", none⟩],
      field "name____size___l_1" "String" []]]⟩

/-- The home shows both. -/
def clashingTexts : List String :=
  ["field Query.home \x7b me \x7b name(size: 1) name____size___l_1 \x7d \x7d", "entrypoint Query.home"]

/-- What a run gives for that server. -/
def clashingOutput : CompilationOutput :=
  (produce .standard clashingDocument (.ofLiterals clashingTexts)).toOption.getD ⟨default, [], [], []⟩

/-- A run without errors brings two fields together under one key: as selections, in the node that writes
the name and not the other field, and in the operation. -/
theorem key_shared_by_fields :
    ∃ out p, produce .standard clashingDocument (.ofLiterals clashingTexts) = .ok out ∧
      parseLiterals .standard (.ofLiterals clashingTexts) = .ok p ∧ out.diagnostics.hasErrors = false ∧
      (∃ f ∈ (p.resolution out.schema).fields,
        (∃ x ∈ selectionPlaces out.schema f.selections, ∃ y ∈ selectionPlaces out.schema f.selections,
          x.1 = y.1 ∧ x.2.storeKey = y.2.storeKey ∧ x.2.field ≠ y.2.field) ∧
        ∃ x ∈ selectionPlaces out.schema f.selections,
          ∃ n ∈ NormalizationNode.placesOfAll (normalizationTree out.schema f.selections),
            n.1 = x.1 ∧ n.2 ≠ x.2.fieldName) ∧
      ∃ o ∈ out.operations, ∃ entry ∈ o.selections, entry.2.selections.SharesName := by
  have run := eq_ok_getD (produce .standard clashingDocument (.ofLiterals clashingTexts))
    ⟨default, [], [], []⟩ (by decide +kernel)
  have parsed := parseLiterals_parsedOf clashingTexts (by decide +kernel)
  exact ⟨clashingOutput, parsedOf clashingTexts, run, parsed, by decide +kernel⟩

end IsoLiteral
