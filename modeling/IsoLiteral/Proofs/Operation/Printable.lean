import IsoLiteral.Proofs.Operation.Printed
import IsoLiteral.Proofs.Resolution.Variables

/-!
# Operations told by their texts

Where the names in a resolution are identifiers and its values are ones that a literal can write down, so are
those of every operation that is put together from it: inlining binds variables to values of the same kind,
and merging adds no names but `id` and `__typename`. The texts of two such operations are equal exactly if the
operations ask for the same, and both formats have the same tokens.
-/

namespace IsoLiteral

open MergedSet SelectionTree

/-! ## Values -/

namespace Value

variable {lookup : String → Option Value}

mutual
/-- Replacing variables by values that a literal can write down gives such a value again. -/
theorem isShaped_substitute (shaped : ∀ name u, lookup name = some u → u.isShaped = true) (v : Value)
    (own : v.isShaped = true) : (v.substitute lookup).isShaped = true := by
  cases v with
  | «variable» name =>
    rw [substitute]
    cases known : lookup name with
    | none => exact own
    | some u => exact shaped name u known
  | list items =>
    rw [isShaped] at own
    rw [substitute, isShaped]
    exact areShaped_substituteAll shaped items own
  | object fields =>
    rw [isShaped] at own
    rw [substitute, isShaped]
    exact areShapedFields_substituteFields shaped fields own
  | _ =>
    rw [substitute]
    exact own
theorem areShaped_substituteAll (shaped : ∀ name u, lookup name = some u → u.isShaped = true)
    (items : List Value) (own : areShaped items = true) : areShaped (substituteAll lookup items) = true := by
  cases items with
  | nil => rw [substituteAll, areShaped]
  | cons v rest =>
    rw [areShaped, Bool.and_eq_true] at own
    rw [substituteAll, areShaped, Bool.and_eq_true]
    exact ⟨isShaped_substitute shaped v own.1, areShaped_substituteAll shaped rest own.2⟩
theorem areShapedFields_substituteFields (shaped : ∀ name u, lookup name = some u → u.isShaped = true)
    (fields : List (String × Value)) (own : areShapedFields fields = true) :
    areShapedFields (substituteFields lookup fields) = true := by
  cases fields with
  | nil => rw [substituteFields, areShapedFields]
  | cons field rest =>
    obtain ⟨key, v⟩ := field
    rw [areShapedFields, Bool.and_eq_true, Bool.and_eq_true] at own
    rw [substituteFields, areShapedFields, Bool.and_eq_true, Bool.and_eq_true]
    exact ⟨⟨own.1.1, isShaped_substitute shaped v own.1.2⟩, areShapedFields_substituteFields shaped rest own.2⟩
end

end Value

/-! ## Contexts -/

namespace VariableContext

variable {c : VariableContext}

/-- The variables of a field stand for values that a literal can write down. -/
def Shaped (c : VariableContext) : Prop := ∀ b ∈ c.bindings, b.2.isShaped = true

theorem shaped_symbolic {definitions : List ResolvedVariable} (printable : ∀ v ∈ definitions, v.isPrintable = true) :
    (symbolic definitions).Shaped := by
  intro b member
  obtain ⟨v, listed, rfl⟩ := List.mem_map.1 member
  have own := printable v listed
  rw [ResolvedVariable.isPrintable, Bool.and_eq_true, Bool.and_eq_true] at own
  rw [Value.isShaped]
  exact own.1.1

theorem Shaped.get? (shaped : c.Shaped) {name : String} {v : Value} (known : c.get? name = some v) :
    v.isShaped = true := by
  obtain ⟨before, after, split, -⟩ := List.lookup_eq_some_iff.1 known
  exact shaped (name, v) (by simp [split])

theorem Shaped.bind? (shaped : c.Shaped) {v bound : Value} (own : v.isShaped = true)
    (value : c.bind? v = some bound) : bound.isShaped = true := by
  unfold VariableContext.bind? at value
  split at value
  · exact shaped.get? value
  · obtain rfl := Option.some.inj value
    rw [bindNested_eq_substitute]
    refine Value.isShaped_substitute (fun name u known => ?_) v own
    obtain rfl := Option.some.inj known
    cases here : c.get? name with
    | none => rfl
    | some w => exact shaped.get? here

theorem Shaped.bindArguments (shaped : c.Shaped) {arguments : List (String × Value)}
    (own : Value.areShapedFields arguments = true) :
    Value.areShapedFields (c.bindArguments arguments) = true := by
  rw [Value.areShapedFields_iff] at own ⊢
  rintro ⟨name, bound⟩ member
  obtain ⟨v, given, value⟩ := mem_bindArguments.1 member
  exact ⟨(own _ given).1, shaped.bind? (own _ given).2 value⟩

/-- **One reference further in**, the variables stand for such values again. -/
theorem Shaped.child (shaped : c.Shaped) {definitions : List ResolvedVariable}
    (printable : ∀ v ∈ definitions, v.isPrintable = true) {arguments : List (String × Value)}
    (own : Value.areShapedFields arguments = true) : (c.child definitions arguments).Shaped := by
  rw [Value.areShapedFields_iff] at own
  intro b member
  obtain ⟨v, listed, made⟩ := List.mem_filterMap.1 member
  obtain ⟨bound, value, rfl⟩ := Option.map_eq_some_iff.1 made
  rcases Option.or_eq_some_iff.1 value with given | ⟨-, default⟩
  · obtain ⟨u, found, value⟩ := Option.bind_eq_some_iff.1 given
    obtain ⟨before, after, split, -⟩ := List.lookup_eq_some_iff.1 found
    exact shaped.bind? (own (v.name, u) (by simp [split])).2 value
  · have fine := printable v listed
    rw [ResolvedVariable.isPrintable, Bool.and_eq_true, default] at fine
    exact fine.2

end VariableContext

/-! ## Resolved selections -/

/-- Whether the name of a selected field is an identifier and its arguments are printable. -/
def SelectionHead.isPrintable (head : SelectionHead) : Bool :=
  isName head.fieldName && Value.areShapedFields head.arguments

mutual
/-- Whether all names in a selection are identifiers and all values are ones that a literal can write down. -/
def ResolvedSelection.isPrintable (g : SchemaGraph) : ResolvedSelection → Bool
  | .scalar head _ | .resolver head _ _ | .link head => head.isPrintable
  | .linked head target _ _ nested | .pointer head target nested =>
    head.isPrintable && isName (g.typeName target) && ResolvedSelection.arePrintable g nested
termination_by structural s => s
/-- Whether all the selections are printable. -/
def ResolvedSelection.arePrintable (g : SchemaGraph) : List ResolvedSelection → Bool
  | [] => true
  | s :: rest => s.isPrintable g && ResolvedSelection.arePrintable g rest
termination_by structural ss => ss
end

theorem ResolvedSelection.arePrintable_iff {g : SchemaGraph} {selections : List ResolvedSelection} :
    ResolvedSelection.arePrintable g selections = true ↔ ∀ s ∈ selections, s.isPrintable g = true := by
  induction selections with
  | nil => simp [ResolvedSelection.arePrintable]
  | cons s rest ih => rw [ResolvedSelection.arePrintable, Bool.and_eq_true, ih, List.forall_mem_cons]

/-- Whether all names of a field and in its selections are identifiers and all values are ones that a literal
can write down. -/
def ResolvedField.isPrintable (g : SchemaGraph) (f : ResolvedField) : Bool :=
  isName (g.typeName f.parent) && isName (g.fieldName f.field) && f.variableDefinitions.all (·.isPrintable) &&
    ResolvedSelection.arePrintable g f.selections

section Requests

variable {g : SchemaGraph} {r : Resolution} {expand : Expansion}

mutual
/-- What a request asks for. -/
def Request.tree (g : SchemaGraph) : Request → SelectionTree
  | .scalar _ fieldName arguments => .scalar fieldName arguments
  | .linked fieldName arguments _ nested => .linked fieldName arguments (requestTrees g nested)
  | .fragment target nested => .fragment (g.typeName target) (requestTrees g nested)
termination_by structural request => request
/-- What requests ask for, in order. -/
def requestTrees (g : SchemaGraph) : List Request → List SelectionTree
  | [] => []
  | request :: rest => request.tree g :: requestTrees g rest
termination_by structural requests => requests
end

theorem arePrintable_append (ts us : List SelectionTree) :
    arePrintable (ts ++ us) = (arePrintable ts && arePrintable us) := by
  induction ts with
  | nil => rw [List.nil_append, arePrintable, Bool.true_and]
  | cons t rest ih => rw [List.cons_append, arePrintable, arePrintable, ih, Bool.and_assoc]

theorem requestTrees_append (requests others : List Request) :
    requestTrees g (requests ++ others) = requestTrees g requests ++ requestTrees g others := by
  induction requests with
  | nil => rw [List.nil_append, requestTrees, List.nil_append]
  | cons request rest ih => rw [List.cons_append, requestTrees, requestTrees, ih, List.cons_append]

/-- What an expansion asks for is printable. -/
def Expansion.Printable (g : SchemaGraph) (expand : Expansion) : Prop :=
  ∀ type c head, c.Shaped → head.isPrintable = true → arePrintable (requestTrees g (expand type c head)) = true

mutual
theorem arePrintable_requestsOf (printable : expand.Printable g) (s : ResolvedSelection) {parent : TypeId}
    {c : VariableContext} (shaped : c.Shaped) (own : s.isPrintable g = true) :
    arePrintable (requestTrees g (requestsOf g expand parent c s)) = true := by
  cases s with
  | scalar head updatable =>
    rw [ResolvedSelection.isPrintable, SelectionHead.isPrintable, Bool.and_eq_true] at own
    simp only [requestsOf, requestTrees, Request.tree, arePrintable, SelectionTree.isPrintable, own.1,
      shaped.bindArguments own.2, Bool.and_self]
  | link head => rw [requestsOf, requestTrees, arePrintable]
  | resolver head kind loadable =>
    rw [ResolvedSelection.isPrintable] at own
    cases loadable with
    | some options => rw [requestsOf, requestTrees, arePrintable]
    | none =>
      rw [requestsOf]
      exact printable parent c head shaped own
  | pointer head target nested =>
    rw [ResolvedSelection.isPrintable, Bool.and_eq_true, Bool.and_eq_true] at own
    rw [requestsOf]
    exact printable parent c head shaped own.1.1
  | linked head target inlineFragment updatable nested =>
    rw [ResolvedSelection.isPrintable, SelectionHead.isPrintable, Bool.and_eq_true, Bool.and_eq_true,
      Bool.and_eq_true] at own
    have inside : arePrintable (requestTrees g (requestsOfAll g expand target c nested)) = true :=
      arePrintable_requestsOfAll printable nested shaped own.2
    cases inlineFragment with
    | true =>
      simp only [requestsOf, requestTrees, Request.tree, arePrintable, SelectionTree.isPrintable, own.1.2, inside,
        Bool.and_self, reduceIte]
    | false =>
      simp only [requestsOf, requestTrees, Request.tree, arePrintable, SelectionTree.isPrintable, own.1.1.1,
        shaped.bindArguments own.1.1.2, inside, Bool.and_self, Bool.false_eq_true, reduceIte]
theorem arePrintable_requestsOfAll (printable : expand.Printable g) (selections : List ResolvedSelection)
    {parent : TypeId} {c : VariableContext} (shaped : c.Shaped)
    (own : ResolvedSelection.arePrintable g selections = true) :
    arePrintable (requestTrees g (requestsOfAll g expand parent c selections)) = true := by
  cases selections with
  | nil => rw [requestsOfAll, requestTrees, arePrintable]
  | cons s rest =>
    rw [ResolvedSelection.arePrintable, Bool.and_eq_true] at own
    rw [requestsOfAll, requestTrees_append, arePrintable_append, arePrintable_requestsOf printable s shaped own.1,
      arePrintable_requestsOfAll printable rest shaped own.2]
    rfl
end

theorem printable_expandField (printable : ∀ f ∈ r.fields, f.isPrintable g = true) (depth : Nat) :
    Expansion.Printable g (expandField g r depth) := by
  induction depth with
  | zero =>
    intro type c head _ _
    rw [expandField, requestTrees, arePrintable]
  | succ depth ih =>
    intro type c head shaped own
    rw [expandField]
    split
    · rw [requestTrees, arePrintable]
    · rename_i f resolved
      have field := printable f (List.mem_of_find?_eq_some resolved)
      rw [ResolvedField.isPrintable, Bool.and_eq_true, Bool.and_eq_true, List.all_eq_true] at field
      rw [SelectionHead.isPrintable, Bool.and_eq_true] at own
      exact arePrintable_requestsOfAll ih f.selections (shaped.child field.1.2 own.2) field.2

end Requests

/-! ## Merged selections -/

section Merging

variable {g : SchemaGraph} {r : Resolution} {set : MergedSet}

theorem arePrintable_trees_iff : arePrintable (trees set) = true ↔ ∀ entry ∈ set, entry.2.tree.isPrintable = true := by
  induction set with
  | nil => simp [trees, arePrintable]
  | cons entry rest ih => rw [trees, arePrintable, Bool.and_eq_true, ih, List.forall_mem_cons]

theorem arePrintable_complete (printable : arePrintable (trees set) = true) (target : TypeId) (withTypename : Bool) :
    arePrintable (trees (complete g target withTypename set)) = true := by
  have names : ∀ name ∈ ["id", typenameField], (SelectionTree.scalar name []).isPrintable = true := by decide
  rw [arePrintable_trees_iff] at printable ⊢
  intro entry member
  rcases mem_complete member with old | ⟨name, listed, same⟩
  · exact printable entry old
  · rw [same, MergedSelection.tree]
    exact names name listed

theorem arePrintable_update (printable : arePrintable (trees set) = true) {key : SelectionKey} {fresh : MergedSelection}
    {change : MergedSelection → MergedSelection} (new : fresh.tree.isPrintable = true)
    (keeps : ∀ m, m.tree.isPrintable = true → (change m).tree.isPrintable = true) :
    arePrintable (trees (update key fresh change set)) = true := by
  rw [arePrintable_trees_iff] at printable ⊢
  exact @forall_mem_update key fresh change (fun _ m => m.tree.isPrintable = true) set printable (keeps _ new)
    fun m member => keeps m (printable _ member)

theorem MergedSelection.isPrintable_mapSelections {change : MergedSet → MergedSet}
    (keeps : ∀ set, arePrintable (trees set) = true → arePrintable (trees (change set)) = true) {m : MergedSelection}
    (own : m.tree.isPrintable = true) : (m.mapSelections change).tree.isPrintable = true := by
  cases m with
  | scalar fieldName arguments => exact own
  | linked fieldName arguments concreteType selections =>
    rw [tree, SelectionTree.isPrintable, Bool.and_eq_true] at own
    rw [mapSelections, tree, SelectionTree.isPrintable, Bool.and_eq_true]
    exact ⟨own.1, keeps _ own.2⟩
  | inlineFragment typeName selections =>
    rw [tree, SelectionTree.isPrintable, Bool.and_eq_true] at own
    rw [mapSelections, tree, SelectionTree.isPrintable, Bool.and_eq_true]
    exact ⟨own.1, keeps _ own.2⟩

mutual
/-- **Merging a request** that is printable. -/
theorem arePrintable_mergeInto (request : Request) (own : (request.tree g).isPrintable = true) {set : MergedSet}
    (printable : arePrintable (trees set) = true) : arePrintable (trees (request.mergeInto g set)) = true := by
  cases request with
  | scalar key fieldName arguments =>
    rw [Request.tree] at own
    rw [Request.mergeInto]
    refine arePrintable_update printable ?_ fun m old => old
    rw [MergedSelection.tree]
    exact own
  | linked fieldName arguments target nested =>
    rw [Request.tree, SelectionTree.isPrintable, Bool.and_eq_true] at own
    rw [Request.mergeInto]
    refine arePrintable_update printable ?_ fun m => MergedSelection.isPrintable_mapSelections fun selections old =>
      arePrintable_complete (arePrintable_mergeRequestsInto nested own.2 old) _ _
    rw [MergedSelection.tree, SelectionTree.isPrintable, own.1, trees, arePrintable]
    rfl
  | fragment target nested =>
    rw [Request.tree, SelectionTree.isPrintable, Bool.and_eq_true] at own
    rw [Request.mergeInto]
    refine arePrintable_update printable ?_ fun m => MergedSelection.isPrintable_mapSelections fun selections old =>
      arePrintable_complete (arePrintable_mergeRequestsInto nested own.2 old) _ _
    rw [MergedSelection.tree, SelectionTree.isPrintable, own.1, trees, arePrintable]
    rfl
theorem arePrintable_mergeRequestsInto (requests : List Request) (own : arePrintable (requestTrees g requests) = true)
    {set : MergedSet} (printable : arePrintable (trees set) = true) :
    arePrintable (trees (mergeRequestsInto g requests set)) = true := by
  cases requests with
  | nil =>
    rw [mergeRequestsInto]
    exact printable
  | cons request rest =>
    rw [requestTrees, arePrintable, Bool.and_eq_true] at own
    rw [mergeRequestsInto]
    exact arePrintable_mergeRequestsInto rest own.2 (arePrintable_mergeInto request own.1 printable)
end

theorem arePrintable_nodeWrapper {target : TypeId} (named : isName (g.typeName target) = true)
    (printable : arePrintable (trees set) = true) : arePrintable (trees (nodeWrapper g target set)) = true := by
  have inner := arePrintable_complete (g := g) printable target true
  have fragment : arePrintable (trees [(.inlineFragment (g.typeName target),
      .inlineFragment (g.typeName target) (complete g target true set))]) = true := by
    rw [arePrintable_trees_iff, List.forall_mem_singleton, MergedSelection.tree, SelectionTree.isPrintable, named]
    exact inner
  have node : (isName "node" && Value.areShapedFields nodeIdArgument) = true := by decide
  rw [nodeWrapper, arePrintable_trees_iff, List.forall_mem_singleton, MergedSelection.tree, SelectionTree.isPrintable,
    node]
  exact arePrintable_complete fragment _ _

end Merging

/-! ## Assembled operations -/

section Assembly

variable {g : SchemaGraph} {r : Resolution} {f : ResolvedField} {definitions : List ResolvedVariable}

theorem isPrintable_iff : f.isPrintable g = true ↔
    isName (g.typeName f.parent) = true ∧ isName (g.fieldName f.field) = true ∧
      (∀ v ∈ f.variableDefinitions, v.isPrintable = true) ∧ ∀ s ∈ f.selections, s.isPrintable g = true := by
  rw [ResolvedField.isPrintable, Bool.and_eq_true, Bool.and_eq_true, Bool.and_eq_true, List.all_eq_true,
    ResolvedSelection.arePrintable_iff, and_assoc, and_assoc]

theorem arePrintable_mergeSelections (printable : ∀ f ∈ r.fields, f.isPrintable g = true)
    (taken : ∀ v ∈ definitions, v.isPrintable = true) {selections : List ResolvedSelection}
    (own : ∀ s ∈ selections, s.isPrintable g = true) (type : TypeId) :
    arePrintable (trees (mergeSelections g r type (.symbolic definitions) selections)) = true :=
  arePrintable_mergeRequestsInto _ (arePrintable_requestsOfAll (printable_expandField printable _) selections
    (VariableContext.shaped_symbolic taken) (ResolvedSelection.arePrintable_iff.2 own)) (by rw [trees, arePrintable])

/-- A query that requests a record takes its id besides printable variables. -/
theorem printable_of_nodeWrapper {o : Operation} {type : TypeId} {set : MergedSet} (named : isName o.name = true)
    (typed : isName (g.typeName type) = true) (taken : ∀ v ∈ definitions, v.isPrintable = true)
    (inside : arePrintable (trees set) = true)
    (declared : o.variableDefinitions = .nodeId :: definitions.map QueryVariable.ofResolved)
    (selected : o.selections = nodeWrapper g type set) : o.Printable where
  name := named
  definitions := by
    refine ⟨⟨refetchIdVariable, idType, none⟩ :: definitions, declared, List.forall_mem_cons.2 ⟨?_, taken⟩⟩
    decide
  selections := by
    rw [selected]
    exact arePrintable_nodeWrapper typed inside

theorem printable_fetchOperation (printable : ∀ f ∈ r.fields, f.isPrintable g = true) (member : f ∈ r.fields)
    {name : String} (named : isName name = true) : (fetchOperation g r name f).Printable := by
  obtain ⟨typed, -, taken, own⟩ := isPrintable_iff.1 (printable f member)
  have inside := arePrintable_mergeSelections printable taken own f.parent
  rw [fetchOperation]
  cases g.operationKind? f.parent with
  | some kind => exact ⟨named, ⟨_, rfl, taken⟩, inside⟩
  | none => exact printable_of_nodeWrapper named typed taken inside rfl rfl

/-- Printable selections lead to printable refetch sites. -/
theorem hereditary_isPrintable : Hereditary (fun type => isName (g.typeName type) = true)
    (fun type s => isName (g.typeName type) = true ∧ s.isPrintable g = true) where
  linked holds := by
    obtain ⟨-, own⟩ := holds
    rw [ResolvedSelection.isPrintable, Bool.and_eq_true, Bool.and_eq_true, ResolvedSelection.arePrintable_iff] at own
    exact fun s member => ⟨own.1.2, own.2 s member⟩
  pointer holds := by
    obtain ⟨-, own⟩ := holds
    rw [ResolvedSelection.isPrintable, Bool.and_eq_true, Bool.and_eq_true, ResolvedSelection.arePrintable_iff] at own
    exact fun s member => ⟨own.1.2, own.2 s member⟩
  selectedOn := And.left
  pointedTo holds := by
    obtain ⟨-, own⟩ := holds
    rw [ResolvedSelection.isPrintable, Bool.and_eq_true, Bool.and_eq_true] at own
    exact own.1.2

theorem printable_refetchOperation (printable : ∀ f ∈ r.fields, f.isPrintable g = true) (member : f ∈ r.fields)
    {site : RefetchSite} (listed : site ∈ refetchSites f.parent f.selections) {name : String}
    (named : isName name = true) : (refetchOperation g r name f site).Printable := by
  obtain ⟨typed, -, taken, own⟩ := isPrintable_iff.1 (printable f member)
  obtain ⟨siteTyped, selected⟩ :=
    hereditary_isPrintable.of_mem_refetchSites (fun s inside => ⟨typed, own s inside⟩) site listed
  have inside := arePrintable_mergeSelections printable taken (fun s inside => (selected s inside).2) site.type
  exact printable_of_nodeWrapper named siteTyped (fun v kept => taken v (List.mem_filter.1 kept).1) inside rfl rfl

theorem name_of_mem_refetchQueries {name : String} {field : FieldId} {q : RefetchQuery}
    (member : q ∈ refetchQueries g r name field) :
    ∃ k : Nat, q.operation.name = name ++ "__refetch__" ++ toString k := by
  obtain ⟨k, inside, rfl⟩ := List.mem_mapIdx.1 member
  exact ⟨k, rfl⟩

theorem all_isNameChar_natural (n : Nat) : (toString n).toList.all isNameChar = true := by
  rw [List.all_eq_true]
  intro c member
  have digit : c.isDigit = true := by
    rw [show toString n = n.repr from rfl, Nat.toList_repr] at member
    exact Nat.isDigit_of_mem_toDigits (by decide) (by decide) member
  simp [isNameChar, Char.isAlphanum, digit]

/-- **Assembled operations are printable**, if the resolved fields are. -/
theorem printable_of_mem_entrypointArtifacts (printable : ∀ f ∈ r.fields, f.isPrintable g = true)
    {artifacts : List EntrypointArtifact} (run : r.entrypointArtifacts g = .ok artifacts) :
    ∀ e ∈ artifacts, ∀ o ∈ e.operations, o.Printable := by
  obtain ⟨-, rfl⟩ := entrypointArtifacts_eq_ok_iff.1 run
  intro e listed o member
  obtain ⟨plan, planned, rfl⟩ := List.mem_map.1 listed
  have known := List.mem_of_find?_eq_some (field?_of_mem_plans planned)
  obtain ⟨typed, fieldNamed, -, -⟩ := isPrintable_iff.1 (printable _ known)
  have named : isName plan.queryName = true := by
    rw [queryName_of_mem_plans planned]
    split
    · exact fieldNamed
    · exact isName_append (isName_append typed (by decide)) (all_isNameChar fieldNamed)
  rcases List.mem_cons.1 member with rfl | later
  · exact printable_fetchOperation printable known named
  · obtain ⟨q, queried, rfl⟩ := List.mem_map.1 later
    obtain ⟨k, name⟩ := name_of_mem_refetchQueries queried
    obtain ⟨owner, read, site, numbered, -, queryName, same⟩ := exists_of_mem_refetchQueries queried
    have numberedName : isName queryName = true := by
      have own : queryName = plan.queryName ++ "__refetch__" ++ toString k := by
        rw [← name, same]
        rfl
      rw [own]
      exact isName_append (isName_append named (by decide)) (all_isNameChar_natural k)
    rw [same]
    exact printable_refetchOperation printable (List.mem_of_find?_eq_some (field?_of_mem_readers read))
      (List.mem_of_getElem? numbered) numberedName

end Assembly

/-! ## Operations and their texts -/

/-- Two operations are of the same kind and name, take the same variables and ask for the same. -/
structure Operation.Alike (o o' : Operation) : Prop where
  kind : o.kind = o'.kind
  name : o.name = o'.name
  definitions : o.variableDefinitions = o'.variableDefinitions
  selections : trees o.selections = trees o'.selections

/-- The tokens of a printable operation do not depend on the format. -/
theorem exists_solidPieces_text {o : Operation} (printable : o.Printable) :
    ∃ definitions : List ResolvedVariable, o.variableDefinitions = definitions.map QueryVariable.ofResolved ∧
      (∀ v ∈ definitions, v.isPrintable = true) ∧ ∀ format, Lexer.solidPieces (o.text format).toList =
        operationPieces o.kind o.name definitions (trees o.selections) := by
  obtain ⟨definitions, declared, fine⟩ := printable.definitions
  refine ⟨definitions, declared, fine, fun format => ?_⟩
  rw [Operation.text, declared]
  exact (lexes_operationText printable.name fine printable.selections format o.kind).solidPieces_eq

/-- **What a query text says.** In either format, two printable operations have the same text exactly if they
are of the same kind and name, take the same variables and ask for the same selections in the same order; and
the two formats of one operation have the same tokens but for trivia. -/
theorem text_eq_iff_alike {o o' : Operation} (printable : o.Printable) (printable' : o'.Printable) :
    (∀ format, o.text format = o'.text format ↔ o.Alike o') ∧
      solidTokens (o.text .pretty) = solidTokens (o.text .compact) := by
  obtain ⟨definitions, declared, fine, cut⟩ := exists_solidPieces_text printable
  obtain ⟨definitions', declared', fine', cut'⟩ := exists_solidPieces_text printable'
  refine ⟨fun format => ⟨fun same => ?_, fun alike => ?_⟩, ?_⟩
  · have pieces := cut format
    rw [same, cut' format] at pieces
    obtain ⟨kinds, names, rfl, selections⟩ :=
      eq_of_operationPieces fine' fine printable'.selections printable.selections pieces
    exact ⟨kinds.symm, names.symm, declared.trans declared'.symm, selections.symm⟩
  · unfold Operation.text operationText
    rw [alike.kind, alike.name, alike.definitions, setText_congr format _ _ 1 alike.selections]
  · rw [solidTokens_eq_map, solidTokens_eq_map, cut, cut]

/-- A name is given for a filter, whose form the server does not say. -/
def filteredTexts (filter : String) : List String :=
  ["field Query.home($note: JSON = \") \x7b\") \x7b me \x7b id name(filter: " ++ filter ++ ") \x7d \x7d",
    "entrypoint Query.home"]

/-- A server for such a filter. -/
def filteredGraph (filter : String) : SchemaGraph := userGraph filterArgument ["JSON"] (filteredTexts filter)

/-- What is resolved of the filter. -/
def filteredResolution (filter : String) : Resolution :=
  (Resolution.ofDeclarations (filteredGraph filter) (declarationsOf (filteredTexts filter))).1

/-- The operations for the filter. -/
def filteredOperations (filter : String) : List Operation :=
  (((filteredResolution filter).entrypointArtifacts (filteredGraph filter)).toOption.getD []).flatMap (·.operations)

theorem printable_filteredOperations {filter : String}
    (printable : ∀ f ∈ (filteredResolution filter).fields, f.isPrintable (filteredGraph filter) = true) :
    ∀ o ∈ filteredOperations filter, o.Printable := by
  intro o member
  rw [filteredOperations] at member
  cases run : (filteredResolution filter).entrypointArtifacts (filteredGraph filter) with
  | error e =>
    rw [run] at member
    cases member
  | ok artifacts =>
    rw [run] at member
    obtain ⟨e, listed, inside⟩ := List.mem_flatMap.1 member
    exact printable_of_mem_entrypointArtifacts printable run e listed o inside

/-- A list with a string that looks like the end of a selection. -/
def groupedFilter : String := "\x7bx: [[1], \"\x7d id: me(\", [$note]]\x7d"

/-- The same list, grouped otherwise, so that the field has the same alias. -/
def regroupedFilter : String := "\x7bx: [[1, [\"\x7d id: me(\"], $note]]\x7d"

theorem text_ne_of_regrouped :
    ∃ o ∈ filteredOperations groupedFilter, ∃ o' ∈ filteredOperations regroupedFilter,
      o.Printable ∧ o'.Printable ∧ (∀ format, o.text format ≠ o'.text format) ∧
        solidTokens (o.text .pretty) = solidTokens (o.text .compact) := by
  have facts : ((filteredOperations groupedFilter).any fun o => (filteredOperations regroupedFilter).any fun o' =>
        setPieces (trees o.selections) ≠ setPieces (trees o'.selections)) = true ∧
      (∀ f ∈ (filteredResolution groupedFilter).fields, f.isPrintable (filteredGraph groupedFilter) = true) ∧
      ∀ f ∈ (filteredResolution regroupedFilter).fields, f.isPrintable (filteredGraph regroupedFilter) = true := by
    decide +kernel
  obtain ⟨differ, fine, fine'⟩ := facts
  obtain ⟨o, member, more⟩ := List.any_eq_true.1 differ
  obtain ⟨o', member', other⟩ := List.any_eq_true.1 more
  have printable := printable_filteredOperations fine o member
  have printable' := printable_filteredOperations fine' o' member'
  obtain ⟨tells, tokens⟩ := text_eq_iff_alike printable printable'
  refine ⟨o, member, o', member', printable, printable', fun format same => of_decide_eq_true other ?_, tokens⟩
  rw [((tells format).1 same).selections]

end IsoLiteral
