import IsoLiteral.Proofs.Operation.Commuting
import IsoLiteral.Proofs.Operation.Emitted
import IsoLiteral.Proofs.Operation.Planned
import IsoLiteral.Proofs.Operation.Reads

/-!
# Rearranged selections

Nothing that is fetched depends on the order in which selections are written or on the names that they are
given. Rearranging the selections of any fields shuffles the requests they give rise to, also where they are
inlined into other fields, and shuffled requests are merged into one and the same set. The fields refer to and
load each other as before, so the same fields are planned, under the same names.
-/

namespace IsoLiteral

open Relation

/-! ## Rearranging -/

/-- The head of the same selection under another name, written in another place. -/
def SelectionHead.relabel (name : String) (span : Span) (head : SelectionHead) : SelectionHead :=
  { head with responseName := name, span }

/-- The same selection under another name, written in another place. -/
def ResolvedSelection.relabel (name : String) (span : Span) : ResolvedSelection → ResolvedSelection
  | .scalar head updatable => .scalar (head.relabel name span) updatable
  | .linked head target inlineFragment updatable nested =>
    .linked (head.relabel name span) target inlineFragment updatable nested
  | .resolver head kind loadable => .resolver (head.relabel name span) kind loadable
  | .pointer head target nested => .pointer (head.relabel name span) target nested
  | .link head => .link (head.relabel name span)

/-- The same selections in another order and under other names, here and inside them. -/
inductive Rearranged : List ResolvedSelection → List ResolvedSelection → Prop where
  | nil : Rearranged [] []
  | relabel (s : ResolvedSelection) (name : String) (span : Span) {rest rest'}
      (later : Rearranged rest rest') : Rearranged (s :: rest) (s.relabel name span :: rest')
  | linked (head : SelectionHead) (target : TypeId) (inlineFragment updatable : Bool)
      {nested nested' rest rest'} (inside : Rearranged nested nested') (later : Rearranged rest rest') :
      Rearranged (.linked head target inlineFragment updatable nested :: rest)
        (.linked head target inlineFragment updatable nested' :: rest')
  | pointer (head : SelectionHead) (target : TypeId) {nested nested' rest rest'}
      (inside : Rearranged nested nested') (later : Rearranged rest rest') :
      Rearranged (.pointer head target nested :: rest) (.pointer head target nested' :: rest')
  | swap (s t : ResolvedSelection) (rest : List ResolvedSelection) :
      Rearranged (s :: t :: rest) (t :: s :: rest)
  | trans {first second third} (h : Rearranged first second) (h' : Rearranged second third) :
      Rearranged first third

/-- The same field with its selections rearranged. -/
def ResolvedField.Rearranged (f f' : ResolvedField) : Prop :=
  ∃ selections, IsoLiteral.Rearranged f.selections selections ∧ f' = { f with selections }

/-- The same resolution with the selections of its fields rearranged. -/
structure Resolution.Rearranged (r r' : Resolution) : Prop where
  fields : List.Forall₂ ResolvedField.Rearranged r.fields r'.fields
  entrypoints : r.entrypoints = r'.entrypoints

/-! ## What a selection refers to and loads -/

namespace Rearranged

variable {selections selections' : List ResolvedSelection}

theorem perm_references (h : Rearranged selections selections') :
    ((referencesOfAll selections).map Prod.fst).Perm ((referencesOfAll selections').map Prod.fst) := by
  induction h with
  | nil => exact .refl _
  | relabel s name span _ ih =>
    have first : (referencesOf (s.relabel name span)).map Prod.fst = (referencesOf s).map Prod.fst := by
      cases s with
      | resolver head kind loadable =>
        cases loadable <;> simp [ResolvedSelection.relabel, referencesOf, SelectionHead.relabel]
      | _ => simp [ResolvedSelection.relabel, referencesOf, SelectionHead.relabel]
    simp only [referencesOfAll, List.map_append, first]
    exact ih.append_left _
  | linked head target inlineFragment updatable _ _ ih ih' =>
    simp only [referencesOfAll, referencesOf, List.map_append]
    exact ih.append ih'
  | pointer head target _ _ ih ih' =>
    simp only [referencesOfAll, referencesOf, List.map_append, List.map_cons]
    exact (ih.cons _).append ih'
  | swap s t rest =>
    simp only [referencesOfAll, List.map_append]
    exact List.perm_append_comm_assoc _ _ _
  | trans _ _ ih ih' => exact ih.trans ih'

theorem perm_loadables (h : Rearranged selections selections') :
    (loadablesOfAll selections).Perm (loadablesOfAll selections') := by
  induction h with
  | nil => exact .refl _
  | relabel s name span _ ih =>
    have first : loadablesOf (s.relabel name span) = loadablesOf s := by
      cases s with
      | resolver head kind loadable =>
        cases loadable <;> simp [ResolvedSelection.relabel, loadablesOf, SelectionHead.relabel]
      | _ => simp [ResolvedSelection.relabel, loadablesOf]
    simp only [loadablesOfAll, first]
    exact ih.append_left _
  | linked head target inlineFragment updatable _ _ ih ih' =>
    simp only [loadablesOfAll, loadablesOf]
    exact ih.append ih'
  | pointer head target _ _ ih ih' =>
    simp only [loadablesOfAll, loadablesOf]
    exact ih.append ih'
  | swap s t rest =>
    simp only [loadablesOfAll]
    exact List.perm_append_comm_assoc _ _ _
  | trans _ _ ih ih' => exact ih.trans ih'

end Rearranged

/-! ## What is requested -/

section Requests

variable {g : SchemaGraph}

/-- One expansion asks for the same as another, in some order. -/
def Expansion.Shuffled (expand expand' : Expansion) : Prop :=
  ∀ parent c head, IsoLiteral.Shuffled (expand parent c head) (expand' parent c head)

mutual
/-- A shuffled expansion shuffles what a selection asks for. -/
theorem Expansion.Shuffled.requestsOf {expand expand' : Expansion} (h : expand.Shuffled expand')
    (parent : TypeId) (c : VariableContext) (s : ResolvedSelection) :
    IsoLiteral.Shuffled (requestsOf g expand parent c s) (requestsOf g expand' parent c s) := by
  cases s with
  | scalar head updatable =>
    rw [IsoLiteral.requestsOf, IsoLiteral.requestsOf]
    exact .refl _
  | link head =>
    rw [IsoLiteral.requestsOf, IsoLiteral.requestsOf]
    exact .nil
  | pointer head target nested =>
    rw [IsoLiteral.requestsOf, IsoLiteral.requestsOf]
    exact h parent c head
  | resolver head kind loadable =>
    cases loadable with
    | none =>
      rw [IsoLiteral.requestsOf, IsoLiteral.requestsOf]
      exact h parent c head
    | some options =>
      rw [IsoLiteral.requestsOf, IsoLiteral.requestsOf]
      exact .nil
  | linked head target inlineFragment updatable nested =>
    have inside := h.requestsOfAll target c nested
    rw [IsoLiteral.requestsOf, IsoLiteral.requestsOf]
    cases inlineFragment with
    | true => exact .fragment target inside .nil
    | false => exact .linked _ _ target inside .nil
theorem Expansion.Shuffled.requestsOfAll {expand expand' : Expansion} (h : expand.Shuffled expand')
    (parent : TypeId) (c : VariableContext) (selections : List ResolvedSelection) :
    IsoLiteral.Shuffled (requestsOfAll g expand parent c selections)
      (requestsOfAll g expand' parent c selections) := by
  cases selections with
  | nil =>
    rw [IsoLiteral.requestsOfAll, IsoLiteral.requestsOfAll]
    exact .nil
  | cons s rest =>
    rw [IsoLiteral.requestsOfAll, IsoLiteral.requestsOfAll]
    exact (h.requestsOf parent c s).append (h.requestsOfAll parent c rest)
end

/-- What is asked for by an expansion does not depend on the name and place of a selection. -/
def Expansion.IgnoresLabels (expand : Expansion) : Prop :=
  ∀ parent c head name span, expand parent c (head.relabel name span) = expand parent c head

theorem ignoresLabels_expandField (g : SchemaGraph) (r : Resolution) (depth : Nat) :
    Expansion.IgnoresLabels (expandField g r depth) := by
  intro parent c head name span
  cases depth <;> rfl

theorem Expansion.IgnoresLabels.requestsOf_relabel {expand : Expansion} (ignores : expand.IgnoresLabels)
    (parent : TypeId) (c : VariableContext) (s : ResolvedSelection) (name : String) (span : Span) :
    requestsOf g expand parent c (s.relabel name span) = requestsOf g expand parent c s := by
  cases s with
  | resolver head kind loadable =>
    cases loadable with
    | none => simpa only [ResolvedSelection.relabel, requestsOf] using ignores parent c head name span
    | some options => simp [ResolvedSelection.relabel, requestsOf]
  | pointer head target nested =>
    simpa only [ResolvedSelection.relabel, requestsOf] using ignores parent c head name span
  | _ => simp [ResolvedSelection.relabel, requestsOf, SelectionHead.relabel, SchemaGraph.scalarKey]

/-- Rearranged selections ask for the same in some order. -/
theorem Rearranged.shuffled {selections selections' : List ResolvedSelection}
    (h : Rearranged selections selections') {expand : Expansion} (ignores : expand.IgnoresLabels)
    (parent : TypeId) (c : VariableContext) :
    Shuffled (requestsOfAll g expand parent c selections) (requestsOfAll g expand parent c selections') := by
  induction h generalizing parent with
  | nil => exact .refl _
  | relabel s name span _ ih =>
    rw [requestsOfAll, requestsOfAll, ignores.requestsOf_relabel]
    exact .append_left _ (ih parent)
  | linked head target inlineFragment updatable _ _ ih ih' =>
    rw [requestsOfAll, requestsOfAll, requestsOf, requestsOf]
    cases inlineFragment with
    | true => exact .fragment target (ih target) (ih' parent)
    | false => exact .linked _ _ target (ih target) (ih' parent)
  | pointer head target _ _ _ ih' =>
    rw [requestsOfAll, requestsOfAll, requestsOf, requestsOf]
    exact .append_left _ (ih' parent)
  | swap s t rest =>
    simp only [requestsOfAll]
    exact .of_perm (List.perm_append_comm_assoc _ _ _)
  | trans _ _ ih ih' => exact (ih parent).trans (ih' parent)

end Requests

/-! ## Rearranged resolutions -/

namespace Resolution.Rearranged

variable {g : SchemaGraph} {r r' : Resolution}

/-- Each field is still there. -/
theorem field?_cases (h : r.Rearranged r') (id : FieldId) :
    (r.field? id = none ∧ r'.field? id = none) ∨
      ∃ f f', r.field? id = some f ∧ r'.field? id = some f' ∧ f.Rearranged f' := by
  obtain ⟨fields, -⟩ := h
  rw [Resolution.field?, Resolution.field?]
  generalize r.fields = first, r'.fields = second at fields
  induction fields with
  | nil => exact .inl ⟨rfl, rfl⟩
  | cons rearranged _ ih =>
    obtain ⟨selections, within, rfl⟩ := rearranged
    rw [List.find?_cons, List.find?_cons]
    split
    · rename_i here
      exact .inr ⟨_, _, rfl, by rw [here], selections, within, rfl⟩
    · rename_i apart
      rw [apart]
      exact ih

theorem exists_field? (h : r.Rearranged r') {id : FieldId} {f : ResolvedField} (found : r.field? id = some f) :
    ∃ f', r'.field? id = some f' ∧ f.Rearranged f' := by
  rcases h.field?_cases id with ⟨absent, -⟩ | ⟨first, f', here, there, rearranged⟩
  · rw [found] at absent; cases absent
  · obtain rfl := Option.some.inj (found.symm.trans here)
    exact ⟨f', there, rearranged⟩

theorem exists_of_field? (h : r.Rearranged r') {id : FieldId} {f' : ResolvedField}
    (found : r'.field? id = some f') : ∃ f, r.field? id = some f ∧ f.Rearranged f' := by
  rcases h.field?_cases id with ⟨-, absent⟩ | ⟨f, second, here, there, rearranged⟩
  · rw [found] at absent; cases absent
  · obtain rfl := Option.some.inj (found.symm.trans there)
    exact ⟨f, here, rearranged⟩

theorem isSome_field? (h : r.Rearranged r') (id : FieldId) : (r.field? id).isSome = (r'.field? id).isSome := by
  rcases h.field?_cases id with ⟨here, there⟩ | ⟨f, f', here, there, -⟩ <;> simp [here, there]

theorem length_fields (h : r.Rearranged r') : r.fields.length = r'.fields.length := h.fields.length_eq

/-- A field refers to the same fields as before. -/
theorem refers_eq (h : r.Rearranged r') : Refers r = Refers r' := by
  funext a b
  rw [refers_iff_mem_references, refers_iff_mem_references, h.isSome_field?]
  refine propext (and_congr_right fun _ => ?_)
  rcases h.field?_cases a with ⟨here, there⟩ | ⟨f, f', here, there, selections, within, rfl⟩
  · simp [here, there]
  · simp only [here, there, Option.some.injEq, exists_eq_left', within.perm_references.mem_iff]

/-- A field loads the same fields as before. -/
theorem mem_loadables_iff (h : r.Rearranged r') {id : FieldId} (resolved : (r.field? id).isSome = true)
    {loadable : FieldId × LoadableOptions} : loadable ∈ r.loadables id ↔ loadable ∈ r'.loadables id := by
  rw [IsoLiteral.mem_loadables_iff resolved, IsoLiteral.mem_loadables_iff (h.isSome_field? id ▸ resolved),
    h.isSome_field?, h.refers_eq]
  refine and_congr_right fun _ => exists_congr fun x => and_congr_right fun _ => ?_
  rcases h.field?_cases x with ⟨here, there⟩ | ⟨f, f', here, there, selections, within, rfl⟩
  · simp [here, there]
  · simp only [here, there, Option.some.injEq, exists_eq_left', within.perm_loadables.mem_iff]

theorem planned_iff (h : r.Rearranged r') {id : FieldId} : Planned r id ↔ Planned r' id := by
  constructor
  · intro planned
    induction planned with
    | declared member resolved =>
      exact .declared (h.entrypoints ▸ member) (h.isSome_field? _ ▸ resolved)
    | loaded planned loads ih => exact .loaded ih ((h.mem_loadables_iff planned.resolved).1 loads)
  · intro planned
    induction planned with
    | declared member resolved =>
      exact .declared (h.entrypoints ▸ member) (h.isSome_field? _ ▸ resolved)
    | loaded _ loads ih => exact .loaded ih ((h.mem_loadables_iff ih.resolved).2 loads)

theorem perm_plannedFields (h : r.Rearranged r') : r.plannedFields.Perm r'.plannedFields := by
  refine (List.perm_ext_iff_of_nodup r.nodup_plannedFields r'.nodup_plannedFields).2 fun id => ?_
  rw [mem_plannedFields_iff, mem_plannedFields_iff, h.planned_iff]

theorem entrypoint?_eq (h : r.Rearranged r') (id : FieldId) : r.entrypoint? id = r'.entrypoint? id := by
  rw [Resolution.entrypoint?, Resolution.entrypoint?, Resolution.declaredPlan, Resolution.declaredPlan,
    h.entrypoints]
  simp only [h.isSome_field?]

/-- What reading a selected field takes is shuffled, through any number of fields. -/
theorem shuffled_expandField (h : r.Rearranged r') (depth : Nat) :
    Expansion.Shuffled (expandField g r depth) (expandField g r' depth) := by
  induction depth with
  | zero => exact fun _ _ _ => .nil
  | succ depth ih =>
    intro parent c head
    rw [expandField, expandField]
    rcases h.field?_cases head.field with ⟨here, there⟩ | ⟨f, f', here, there, selections, within, rfl⟩
    · rw [here, there]
      exact .nil
    · rw [here, there]
      exact (ih.requestsOfAll _ _ _).trans (within.shuffled (ignoresLabels_expandField g r' depth) _ _)

theorem shuffled_requests (h : r.Rearranged r') {f f' : ResolvedField} (rearranged : f.Rearranged f')
    (parent : TypeId) (c : VariableContext) :
    Shuffled (requests g r parent c f.selections) (requests g r' parent c f'.selections) := by
  obtain ⟨selections, within, rfl⟩ := rearranged
  rw [requests, requests, h.length_fields]
  exact ((h.shuffled_expandField _).requestsOfAll _ _ _).trans
    (within.shuffled (ignoresLabels_expandField g r' _) _ _)

/-- What is merged for a field is the same as before. -/
theorem mergeSelections_eq {options : SchemaOptions} {document : SchemaDocument}
    {declarations : List Declaration} (h : r.Rearranged r')
    (built : SchemaGraph.ofDocument options document declarations = .ok g) (unambiguous : g.Unambiguous)
    (resolved : ∀ id f, r.field? id = some f → ResolvedOn g f ∧ f.field = id) {id : FieldId}
    {f f' : ResolvedField} (found : r.field? id = some f) (rearranged : f.Rearranged f')
    (c : VariableContext) :
    mergeSelections g r f.parent c f.selections = mergeSelections g r' f'.parent c f'.selections := by
  have fits := fits_requestsOfAll built (fittingExpansion_expandField built resolved r.fields.length)
    f.selections (resolved id f found).1.selections c
  have empty : FitsAll g f.parent [] := by simp [FitsAll]
  have same := (h.shuffled_requests rearranged f.parent c).mergeRequestsInto_eq unambiguous fits empty
  obtain ⟨selections, within, rfl⟩ := rearranged
  exact same

theorem fetchOperation_eq {f f' : ResolvedField} (rearranged : f.Rearranged f')
    (same : mergeSelections g r f.parent (.symbolic f.variableDefinitions) f.selections =
      mergeSelections g r' f'.parent (.symbolic f'.variableDefinitions) f'.selections) (name : String) :
    fetchOperation g r name f = fetchOperation g r' name f' := by
  obtain ⟨selections, within, rfl⟩ := rearranged
  rw [fetchOperation, fetchOperation, same]

theorem checkCycles_eq_ok (h : r.Rearranged r') (acyclic : checkCycles g r = .ok ()) :
    checkCycles g r' = .ok () := by
  rw [checkCycles_eq_ok_iff] at acyclic ⊢
  rwa [← h.refers_eq]

/-- The entrypoints of the same fields have artifacts. -/
theorem perm_map_id_plans (h : r.Rearranged r')
    (parent : ∀ id f, r.field? id = some f → f.parent = (g.field id).parent) :
    ((r.plans g).map fun p => (p.artifact g r).id).Perm ((r'.plans g).map fun p => (p.artifact g r').id) := by
  have parent' (id : FieldId) (f' : ResolvedField) (found' : r'.field? id = some f') :
      f'.parent = (g.field id).parent := by
    obtain ⟨f, here, selections, -, rfl⟩ := h.exists_of_field? found'
    exact parent id f here
  rw [Resolution.map_id_plans r g parent, Resolution.map_id_plans r' g parent']
  have same : (fun id => (r.field? id).map fun _ => g.entrypointId id) =
      fun id => (r'.field? id).map fun _ => g.entrypointId id := by
    funext id
    rcases h.field?_cases id with ⟨here, there⟩ | ⟨f, f', here, there, -⟩ <;> simp [here, there]
  rw [same]
  exact h.perm_plannedFields.filterMap _

end Resolution.Rearranged

/-- **Neither order nor names matter.** In a built graph in which the server has no field named `__typename`,
let the selections of a resolution without cycles be rearranged and renamed, at any depth and in any fields.
Then the same selections are merged for every field, and the artifacts of the same entrypoints are built, each
with the same operation: its text, its variables and what it writes. -/
theorem entrypointArtifacts_of_rearranged {options : SchemaOptions} {document : SchemaDocument}
    {declarations literals : List Declaration} {g : SchemaGraph}
    (built : SchemaGraph.ofDocument options document declarations = .ok g)
    (unreserved : ∀ f ∈ g.fields, f.origin = .server → f.name ≠ typenameField) {r r' : Resolution}
    (resolution : r = (Resolution.ofDeclarations g literals).1) (acyclic : checkCycles g r = .ok ())
    (h : r.Rearranged r') :
    (∀ id f, r.field? id = some f → ∃ f', r'.field? id = some f' ∧
      mergeSelections g r f.parent (.symbolic f.variableDefinitions) f.selections =
        mergeSelections g r' f'.parent (.symbolic f'.variableDefinitions) f'.selections) ∧
    ∃ artifacts artifacts', r.entrypointArtifacts g = .ok artifacts ∧
      r'.entrypointArtifacts g = .ok artifacts' ∧
      (artifacts.map (·.id)).Perm (artifacts'.map (·.id)) ∧
      ∀ e ∈ artifacts, ∀ e' ∈ artifacts', e.id = e'.id → e.operation = e'.operation := by
  have form : ∀ id f, r.field? id = some f → ResolvedOn g f ∧ f.field = id := by
    intro id f found
    rw [resolution] at found
    exact resolvedOn_ofDeclarations g literals found
  have unambiguous := g.unambiguous_ofDocument built unreserved
  have merged {id : FieldId} {f f' : ResolvedField} (found : r.field? id = some f)
      (rearranged : f.Rearranged f') :
      mergeSelections g r f.parent (.symbolic f.variableDefinitions) f.selections =
        mergeSelections g r' f'.parent (.symbolic f'.variableDefinitions) f'.selections := by
    rw [h.mergeSelections_eq built unambiguous form found rearranged]
    obtain ⟨selections, -, rfl⟩ := rearranged
    rfl
  refine ⟨fun id f found => ?_, (r.plans g).map (·.artifact g r), (r'.plans g).map (·.artifact g r'), ?_, ?_,
    ?_, ?_⟩
  · obtain ⟨f', found', rearranged⟩ := h.exists_field? found
    exact ⟨f', found', merged found rearranged⟩
  · rw [Resolution.entrypointArtifacts, acyclic]
    rfl
  · rw [Resolution.entrypointArtifacts, h.checkCycles_eq_ok acyclic]
    rfl
  · rw [List.map_map, List.map_map]
    exact h.perm_map_id_plans fun id f found => (valid_of_field? built resolution found).2
  · intro e member e' member' same
    obtain ⟨p, planned, rfl⟩ := List.mem_map.1 member
    obtain ⟨p', planned', rfl⟩ := List.mem_map.1 member'
    have found := field?_of_mem_plans planned
    have found' := field?_of_mem_plans planned'
    obtain ⟨f', there, rearranged⟩ := h.exists_field? found
    have field : p'.field.field = p.field.field := by
      obtain ⟨f, here, selections, -, eq⟩ := h.exists_of_field? found'
      obtain ⟨valid, parent⟩ := valid_of_field? built resolution found
      obtain ⟨valid', parent'⟩ := valid_of_field? built resolution here
      refine (SchemaGraph.entrypointId_injective built valid valid' ?_).symm
      have own : p'.field.parent = f.parent := by rw [eq]
      simpa [Plan.artifact, SchemaGraph.entrypointId, parent, own, parent'] using same
    rw [field, there] at found'
    obtain rfl := Option.some.inj found'
    have name : p.queryName = p'.queryName := by
      obtain ⟨selections, -, eq⟩ := rearranged
      rw [queryName_of_mem_plans planned, queryName_of_mem_plans planned', h.entrypoint?_eq, eq]
    change fetchOperation g r p.queryName p.field = fetchOperation g r' p'.queryName p'.field
    rw [name]
    exact Resolution.Rearranged.fetchOperation_eq rearranged (merged found rearranged) _

/-- A home page that shows the user's card and once more the name that is on it, or the name first, under
another title, and then the card. -/
def pageDeclarations (backwards : Bool) : List Declaration :=
  let name (text : String) : Name := ⟨text, ⟨0, 0⟩⟩
  let select (alias? : Option String) (field : String) (arguments : List (String × Value))
      (set : Option (List Selection)) :=
    Selection.mk (alias?.map name) (name field)
      (arguments.map fun (key, value) => ⟨name key, ⟨value, ⟨0, 0⟩⟩⟩) [] set ⟨0, 0⟩
  let card := select none "card" [("size", .int 3)] none
  let shown (alias? : Option String) := select alias? "name" [("size", .int 3)] none
  [⟨0, .field, name "User", name "card", none, [⟨name "size", ⟨.named "Int", ⟨0, 0⟩⟩, none⟩], [],
      none, [select none "name" [("size", .variable "size")] none], ⟨0, 0⟩⟩,
    ⟨1, .field, name "Query", name "home", none, [], [], none,
      [select none "me" [] (some (if backwards then [shown (some "title"), card] else [card, shown none]))],
      ⟨0, 0⟩⟩,
    ⟨2, .entrypoint, name "Query", name "home", none, [], [], none, [], ⟨0, 0⟩⟩]

/-- What is resolved of the page. -/
def pageResolution (backwards : Bool) : Resolution :=
  (Resolution.ofDeclarations profileGraph (pageDeclarations backwards)).1

theorem rearranged_pageResolution : (pageResolution false).Rearranged (pageResolution true) := by
  refine ⟨.cons ⟨_, .relabel _ _ _ .nil, rfl⟩ (.cons ⟨_, .linked _ _ _ _ ?_ .nil, rfl⟩ .nil), rfl⟩
  exact .trans (.swap _ _ _) (.relabel _ "title" _ (.relabel _ _ _ .nil))

theorem entrypointArtifacts_of_rearranged_page :
    SchemaGraph.ofDocument ⟨true⟩ profileDocument profileDeclarations = .ok profileGraph ∧
    (∀ f ∈ profileGraph.fields, f.origin = .server → f.name ≠ typenameField) ∧
    checkCycles profileGraph (pageResolution false) = .ok () ∧
    (pageResolution false).Rearranged (pageResolution true) ∧
    ∃ artifacts artifacts', (pageResolution false).entrypointArtifacts profileGraph = .ok artifacts ∧
      (pageResolution true).entrypointArtifacts profileGraph = .ok artifacts' ∧
      (artifacts.map (·.id)).Perm (artifacts'.map (·.id)) ∧ artifacts.length = 1 ∧
      ∀ e ∈ artifacts, ∀ e' ∈ artifacts', e.id = e'.id → e.operation = e'.operation := by
  have built : SchemaGraph.ofDocument ⟨true⟩ profileDocument profileDeclarations = .ok profileGraph := rfl
  have unreserved : ∀ f ∈ profileGraph.fields, f.origin = .server → f.name ≠ typenameField := by
    decide
  have acyclic : checkCycles profileGraph (pageResolution false) = .ok () :=
    checkCycles_of_isOk (by decide +kernel)
  have resolution : pageResolution false =
      (Resolution.ofDeclarations profileGraph (pageDeclarations false)).1 := rfl
  obtain ⟨-, artifacts, artifacts', ok, ok', perm, same⟩ :=
    entrypointArtifacts_of_rearranged built unreserved resolution acyclic rearranged_pageResolution
  have one : (((pageResolution false).entrypointArtifacts profileGraph).toOption.map List.length) = some 1 := by
    decide +kernel
  rw [ok] at one
  exact ⟨built, unreserved, acyclic, rearranged_pageResolution, artifacts, artifacts', ok, ok', perm,
    Option.some.inj one, same⟩

end IsoLiteral
