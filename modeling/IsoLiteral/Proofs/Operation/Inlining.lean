import IsoLiteral.Proofs.Operation.Path
import IsoLiteral.Proofs.Resolution.Faithful
import IsoLiteral.Proofs.Resolution.RefetchSite

/-!
# Rules that inlining keeps

A rule says what may stand in a set of merged selections on a type: which scalars, links and fragments,
with which arguments. Merging keeps rules that are lawful, whatever is merged in which order (`Obeys`). What
is merged comes from the selections of a field and, one inside another, of the fields it refers to, whose
variables are bound along the way. A discipline is what has to be shown for one selection and for one such
step in order that everything inlined obeys the rules.
-/

namespace IsoLiteral

open MergedSet

/-! ## Merging under rules -/

/-- What may stand in a set on a type. -/
structure EntryRules where
  identified : TypeId → Prop
  scalar : TypeId → String → List (String × Value) → Prop
  linked : TypeId → String → List (String × Value) → TypeId → Prop
  fragment : TypeId → TypeId → Prop

/-- A selection agrees with its key and obeys the rules on its type, and so does everything inside it. -/
inductive Obeys (g : SchemaGraph) (rules : EntryRules) : TypeId → SelectionKey → MergedSelection → Prop where
  | id {type} (allowed : rules.identified type) : Obeys g rules type .id (.plain "id")
  | scalar {type fieldName arguments} (allowed : rules.scalar type fieldName arguments) :
      Obeys g rules type (.serverField fieldName arguments) (.scalar fieldName arguments)
  | linked {type target fieldName arguments concreteType selections}
      (allowed : rules.linked type fieldName arguments target)
      (inside : ∀ entry ∈ selections, Obeys g rules target entry.1 entry.2) :
      Obeys g rules type (.serverField fieldName arguments)
        (.linked fieldName arguments concreteType selections)
  | fragment {type target selections} (allowed : rules.fragment type target)
      (inside : ∀ entry ∈ selections, Obeys g rules target entry.1 entry.2) :
      Obeys g rules type (.inlineFragment (g.typeName target))
        (.inlineFragment (g.typeName target) selections)

/-- All selections of a set obey the rules. -/
def ObeysAll (g : SchemaGraph) (rules : EntryRules) (type : TypeId) (set : MergedSet) : Prop :=
  ∀ entry ∈ set, Obeys g rules type entry.1 entry.2

/-- A request obeys the rules, and so does everything inside it. -/
inductive Request.Obeys (g : SchemaGraph) (rules : EntryRules) : TypeId → Request → Prop where
  | id {type} (allowed : rules.identified type) : Request.Obeys g rules type (.scalar .id "id" [])
  | scalar {type fieldName arguments} (allowed : rules.scalar type fieldName arguments) :
      Request.Obeys g rules type (.scalar (.serverField fieldName arguments) fieldName arguments)
  | linked {type target fieldName arguments nested} (allowed : rules.linked type fieldName arguments target)
      (inside : ∀ r ∈ nested, Request.Obeys g rules target r) :
      Request.Obeys g rules type (.linked fieldName arguments target nested)
  | fragment {type target nested} (allowed : rules.fragment type target)
      (inside : ∀ r ∈ nested, Request.Obeys g rules target r) :
      Request.Obeys g rules type (.fragment target nested)

/-- Rules that merging keeps: what stands under one key leads to one type, and records may be completed
with what tells them apart. -/
structure EntryRules.Lawful (g : SchemaGraph) (rules : EntryRules) : Prop where
  target : ∀ {type fieldName arguments s t}, rules.linked type fieldName arguments s →
    rules.linked type fieldName arguments t → s = t
  names : ∀ {type s t}, rules.fragment type s → rules.fragment type t → g.typeName s = g.typeName t → s = t
  identified : ∀ {type}, (g.idField? type).isSome → rules.identified type
  linkedTypename : ∀ {type fieldName arguments target}, rules.linked type fieldName arguments target →
    (g.type target).kind.isAbstract = true → rules.scalar target typenameField []
  fragmentTypename : ∀ {type target}, rules.fragment type target → rules.scalar target typenameField []

section Merging

variable {g : SchemaGraph} {rules : EntryRules} {type : TypeId} {set : MergedSet}

theorem ObeysAll.insertNew (all : ObeysAll g rules type set) {key : SelectionKey} {fresh : MergedSelection}
    (new : Obeys g rules type key fresh) : ObeysAll g rules type (insertNew key fresh set) :=
  forall_mem_update all new fun _ member => all _ member

theorem ObeysAll.complete (lawful : rules.Lawful g) (all : ObeysAll g rules type set) (withTypename : Bool)
    (typename : withTypename = true → rules.scalar type typenameField []) :
    ObeysAll g rules type (complete g type withTypename set) := by
  have withId : ObeysAll g rules type
      (if (g.idField? type).isSome then MergedSet.insertNew .id (.plain "id") set else set) := by
    split
    · rename_i identified
      exact all.insertNew (.id (lawful.identified identified))
    · exact all
  rw [MergedSet.complete]
  cases withTypename with
  | false => exact withId
  | true => exact withId.insertNew (.scalar (typename rfl))

mutual
/-- **Merging a request** keeps the rules. -/
theorem obeysAll_mergeInto (lawful : rules.Lawful g) (r : Request) {type : TypeId}
    (obeys : r.Obeys g rules type) {set : MergedSet} (all : ObeysAll g rules type set) :
    ObeysAll g rules type (r.mergeInto g set) := by
  cases r with
  | scalar key fieldName arguments =>
    rw [Request.mergeInto]
    cases obeys with
    | id allowed => exact all.insertNew (.id allowed)
    | scalar allowed => exact all.insertNew (.scalar allowed)
  | linked fieldName arguments target nested =>
    rw [Request.mergeInto]
    cases obeys with
    | linked allowed inside =>
      have grows {selections : MergedSet} (old : ObeysAll g rules target selections) :=
        (obeysAll_mergeRequestsInto lawful nested inside old).complete lawful
          _ (lawful.linkedTypename allowed)
      refine forall_mem_update all (.linked allowed (grows fun _ => by simp)) fun m member => ?_
      -- a scalar under the same key stays as it is, and a link leads to the same type
      cases all _ member with
      | scalar plain => exact .scalar plain
      | linked known old =>
        obtain rfl := lawful.target allowed known
        exact .linked known (grows old)
  | fragment target nested =>
    rw [Request.mergeInto]
    cases obeys with
    | fragment allowed inside =>
      have grows {selections : MergedSet} (old : ObeysAll g rules target selections) :=
        (obeysAll_mergeRequestsInto lawful nested inside old).complete lawful
          true fun _ => lawful.fragmentTypename allowed
      refine forall_mem_update all (.fragment allowed (grows fun _ => by simp)) fun m member => ?_
      have known := all _ member
      generalize same : g.typeName target = name at known
      cases known with
      | fragment known old =>
        obtain rfl := lawful.names allowed known same
        exact .fragment known (grows old)
/-- Merging requests one after another keeps the rules. -/
theorem obeysAll_mergeRequestsInto (lawful : rules.Lawful g) (rs : List Request) {type : TypeId}
    (obey : ∀ r ∈ rs, r.Obeys g rules type) {set : MergedSet} (all : ObeysAll g rules type set) :
    ObeysAll g rules type (mergeRequestsInto g rs set) := by
  cases rs with
  | nil =>
    rw [mergeRequestsInto]
    exact all
  | cons r rest =>
    rw [mergeRequestsInto]
    have first := obeysAll_mergeInto lawful r (obey r List.mem_cons_self) all
    exact obeysAll_mergeRequestsInto lawful rest (fun r member => obey r (List.mem_cons_of_mem _ member))
      first
end

end Merging

/-! ## Inlining under rules -/

/-- A resolved field with its declaration, of which the graph holds the variables as arguments. -/
structure Grounded (g : SchemaGraph) (d : Declaration) (f : ResolvedField) : Prop where
  resolved : ResolvedFrom g d f
  arguments : (g.field f.field).arguments = d.variableDefinitions.map SchemaBuilder.argumentOfVariable
  distinct : (d.variableDefinitions.map (·.name.text)).Nodup
  mirrored : ∀ s ∈ f.selections, Mirrored (d.scope g) f.parent s

section Grounded

variable {options : SchemaOptions} {document : SchemaDocument} {declarations : List Declaration}
  {g : SchemaGraph}

/-- Every resolved field has its declaration, if the graph was built from the declarations. -/
theorem exists_grounded (built : SchemaGraph.ofDocument options document declarations = .ok g)
    (parsed : ∀ d ∈ declarations, d.Parsed) :
    ∀ f ∈ (Resolution.ofDeclarations g declarations).1.fields, ∃ d, Grounded g d f := by
  intro f member
  obtain ⟨d, here, comes⟩ := exists_resolvedFrom member
  have formed := (parsed d (List.mem_of_getElem? here)).wellFormed
  obtain ⟨d', there, arguments⟩ := g.arguments_of_declaration? built comes.origin
  rw [here] at there
  obtain rfl := Option.some.inj there
  exact ⟨d, comes, arguments, formed.definitions.1, (comes.mirrorsSet built formed).mirrored⟩

end Grounded

/-- A selection of a resolved field, at any depth, on the type on which it is selected. -/
structure Selected (g : SchemaGraph) (r : Resolution) (d : Declaration) (type : TypeId)
    (s : ResolvedSelection) : Prop where
  mirrored : Mirrored (d.scope g) type s
  occurs : ∃ f ∈ r.fields, Grounded g d f ∧ Occurs s f.selections

section Selected

variable {g : SchemaGraph} {r : Resolution} {d : Declaration} {type target : TypeId} {head : SelectionHead}
  {nested : List ResolvedSelection}

theorem Selected.inside_linked {inlineFragment updatable : Bool}
    (h : Selected g r d type (.linked head target inlineFragment updatable nested)) :
    ∀ s ∈ nested, Selected g r d target s := by
  intro s member
  obtain ⟨f, listed, grounded, occurs⟩ := h.occurs
  exact ⟨h.mirrored.inside_linked s member, f, listed, grounded, occurs.inside_linked member⟩

theorem Selected.inside_pointer (h : Selected g r d type (.pointer head target nested)) :
    ∀ s ∈ nested, Selected g r d target s := by
  intro s member
  obtain ⟨f, listed, grounded, occurs⟩ := h.occurs
  exact ⟨h.mirrored.inside_pointer s member, f, listed, grounded, occurs.inside_pointer member⟩

theorem Grounded.selected {f : ResolvedField} (h : Grounded g d f) (listed : f ∈ r.fields) :
    ∀ s ∈ f.selections, Selected g r d f.parent s :=
  fun s member => ⟨h.mirrored s member, f, listed, h, .here member⟩

end Selected

/-- What has to be shown in order that everything obeys the rules that comes from inlining: what holds of
a declaration and the values of its variables makes its selections obey, and holds again of each field
that they refer to. -/
structure Discipline (g : SchemaGraph) (r : Resolution) (rules : EntryRules)
    (holds : Declaration → VariableContext → Prop) : Prop where
  scalar : ∀ {d c type head updatable}, holds d c →
    Selected g r d type (.scalar head updatable) →
    rules.scalar type head.fieldName (c.bindArguments head.arguments)
  linked : ∀ {d c type head target updatable nested}, holds d c →
    Selected g r d type (.linked head target false updatable nested) →
    rules.linked type head.fieldName (c.bindArguments head.arguments) target
  fragment : ∀ {d c type head target updatable nested}, holds d c →
    Selected g r d type (.linked head target true updatable nested) → rules.fragment type target
  reference : ∀ {d c type s f e}, holds d c → Selected g r d type s → s.isReference = true →
    r.field? s.head.field = some f → Grounded g e f →
    holds e (c.child f.variableDefinitions s.head.arguments)

section Requests

variable {options : SchemaOptions} {document : SchemaDocument} {declarations : List Declaration}
  {g : SchemaGraph} {r : Resolution} {rules : EntryRules} {holds : Declaration → VariableContext → Prop}

/-- What the expansion of a reference asks for obeys the rules. -/
def ObeyingExpansion (g : SchemaGraph) (r : Resolution) (rules : EntryRules)
    (holds : Declaration → VariableContext → Prop) (expand : Expansion) : Prop :=
  ∀ {d c type s}, holds d c → Selected g r d type s → s.isReference = true →
    ∀ request ∈ expand type c s.head, Request.Obeys g rules type request

mutual
theorem obeys_requestsOf (built : SchemaGraph.ofDocument options document declarations = .ok g)
    (lawful : rules.Lawful g) (discipline : Discipline g r rules holds) {expand : Expansion}
    (obeying : ObeyingExpansion g r rules holds expand) (s : ResolvedSelection) {d : Declaration}
    {c : VariableContext} {type : TypeId} (held : holds d c) (selected : Selected g r d type s) :
    ∀ request ∈ requestsOf g expand type c s, Request.Obeys g rules type request := by
  cases s with
  | scalar head updatable =>
    rw [requestsOf]
    refine List.forall_mem_singleton.2 ?_
    have found : g.lookupField? type head.fieldName = some head.field := selected.mirrored.found
    rcases g.scalarKey_cases built found (c.bindArguments head.arguments) with
      ⟨key, none, name, identified⟩ | key
    · rw [key, none, name]
      exact .id (lawful.identified identified)
    · rw [key]
      exact .scalar (discipline.scalar held selected)
  | link head => simp [requestsOf]
  | resolver head kind loadable =>
    cases loadable with
    | some options => simp [requestsOf]
    | none =>
      rw [requestsOf]
      exact obeying held selected rfl
  | pointer head target nested =>
    rw [requestsOf]
    exact obeying held selected rfl
  | linked head target inlineFragment updatable nested =>
    have inside := obeys_requestsOfAll built lawful discipline obeying nested held selected.inside_linked
    rw [requestsOf]
    cases inlineFragment with
    | true => exact List.forall_mem_singleton.2 (.fragment (discipline.fragment held selected) inside)
    | false => exact List.forall_mem_singleton.2 (.linked (discipline.linked held selected) inside)
theorem obeys_requestsOfAll (built : SchemaGraph.ofDocument options document declarations = .ok g)
    (lawful : rules.Lawful g) (discipline : Discipline g r rules holds) {expand : Expansion}
    (obeying : ObeyingExpansion g r rules holds expand) (selections : List ResolvedSelection)
    {d : Declaration} {c : VariableContext} {type : TypeId} (held : holds d c)
    (selected : ∀ s ∈ selections, Selected g r d type s) :
    ∀ request ∈ requestsOfAll g expand type c selections, Request.Obeys g rules type request := by
  cases selections with
  | nil => simp [requestsOfAll]
  | cons s rest =>
    have first := obeys_requestsOf built lawful discipline obeying s held (selected s List.mem_cons_self)
    have others := obeys_requestsOfAll built lawful discipline obeying rest held
      fun t member => selected t (List.mem_cons_of_mem s member)
    intro request member
    rw [requestsOfAll] at member
    exact (List.mem_append.1 member).elim (first request) (others request)
end

/-- A field that is referred to is on the type it is selected on, and the discipline holds of it again. -/
theorem obeyingExpansion_expandField
    (built : SchemaGraph.ofDocument options document declarations = .ok g) (lawful : rules.Lawful g)
    (discipline : Discipline g r rules holds)
    (grounded : ∀ f ∈ r.fields, ∃ d, Grounded g d f) (depth : Nat) :
    ObeyingExpansion g r rules holds (expandField g r depth) := by
  induction depth with
  | zero =>
    intro d c type s _ _ _ request member
    cases member
  | succ depth ih =>
    intro d c type s held selected refers
    rw [expandField]
    split
    · simp
    · rename_i f resolved
      have listed := List.mem_of_find?_eq_some resolved
      obtain ⟨e, ground⟩ := grounded f listed
      have own : f.field = s.head.field := by simpa using List.find?_some resolved
      have parent : f.parent = type := by
        rw [ground.resolved.parent, own]
        exact (g.lookupField?_eq_some built selected.mirrored.found).1
      exact obeys_requestsOfAll built lawful discipline ih f.selections
        (discipline.reference held selected refers resolved ground) (parent ▸ ground.selected listed)

/-- **What is merged for selections obeys the rules**, if a discipline leads to them. -/
theorem obeysAll_mergeSelections
    (built : SchemaGraph.ofDocument options document declarations = .ok g) (lawful : rules.Lawful g)
    (discipline : Discipline g r rules holds)
    (grounded : ∀ f ∈ r.fields, ∃ d, Grounded g d f) {d : Declaration}
    {c : VariableContext} {type : TypeId} {selections : List ResolvedSelection} (held : holds d c)
    (selected : ∀ s ∈ selections, Selected g r d type s) :
    ObeysAll g rules type (mergeSelections g r type c selections) := by
  have obeying : ObeyingExpansion g r rules holds (expandField g r r.fields.length) :=
    obeyingExpansion_expandField built lawful discipline grounded _
  have requests := obeys_requestsOfAll built lawful discipline obeying selections held selected
  have empty : ObeysAll g rules type [] := fun _ member => nomatch member
  exact obeysAll_mergeRequestsInto lawful _ requests empty

end Requests

/-! ## Refetch sites -/

/-- What is requested at a refetch site is selected on the type of the site, which is one of the graph. -/
structure RefetchSite.Selected (g : SchemaGraph) (r : Resolution) (d : Declaration) (site : RefetchSite) :
    Prop where
  valid : site.type.index < g.types.length
  selected : ∀ s ∈ site.selections, IsoLiteral.Selected g r d site.type s

section Sites

/-- What holds of a selection on its type holds of everything selected inside it, and the types on which
something is selected are of some sort. -/
structure Hereditary (sort : TypeId → Prop) (holds : TypeId → ResolvedSelection → Prop) : Prop where
  linked : ∀ {type head target inlineFragment updatable nested},
    holds type (.linked head target inlineFragment updatable nested) → ∀ s ∈ nested, holds target s
  pointer : ∀ {type head target nested}, holds type (.pointer head target nested) →
    ∀ s ∈ nested, holds target s
  selectedOn : ∀ {type s}, holds type s → sort type
  pointedTo : ∀ {type head target nested}, holds type (.pointer head target nested) → sort target

variable {sort : TypeId → Prop} {holds : TypeId → ResolvedSelection → Prop}

mutual
theorem Hereditary.of_mem_sitesOfSelection (hereditary : Hereditary sort holds) (s : ResolvedSelection)
    {parent : TypeId} {whole : List ResolvedSelection} {next : Nat} (own : holds parent s)
    (all : ∀ t ∈ whole, holds parent t) :
    ∀ site ∈ sitesOfSelection parent whole next s, sort site.type ∧ ∀ t ∈ site.selections, holds site.type t := by
  cases s with
  | linked head target inlineFragment updatable nested =>
    have inside := hereditary.linked own
    rw [sitesOfSelection]
    exact hereditary.of_mem_sitesOfSelections nested inside inside
  | pointer head target nested =>
    have inside := hereditary.pointer own
    rw [sitesOfSelection, List.forall_mem_cons]
    exact ⟨⟨hereditary.pointedTo own, inside⟩, hereditary.of_mem_sitesOfSelections nested inside inside⟩
  | resolver head kind loadable =>
    rw [sitesOfSelection.eq_def]
    split
    · rename_i same
      cases same
    · rename_i same
      cases same
    · exact List.forall_mem_singleton.2 ⟨hereditary.selectedOn own, all⟩
    · simp
    · simp
    · simp
  | scalar head updatable => simp [sitesOfSelection]
  | link head => simp [sitesOfSelection]
theorem Hereditary.of_mem_sitesOfSelections (hereditary : Hereditary sort holds)
    (selections : List ResolvedSelection) {parent : TypeId} {whole : List ResolvedSelection} {next : Nat}
    (own : ∀ s ∈ selections, holds parent s) (all : ∀ t ∈ whole, holds parent t) :
    ∀ site ∈ sitesOfSelections parent whole next selections,
      sort site.type ∧ ∀ t ∈ site.selections, holds site.type t := by
  cases selections with
  | nil => simp [sitesOfSelections]
  | cons s rest =>
    rw [List.forall_mem_cons] at own
    rw [sitesOfSelections, List.forall_mem_append]
    exact ⟨hereditary.of_mem_sitesOfSelection s own.1 all,
      hereditary.of_mem_sitesOfSelections rest own.2 all⟩
end

/-- What is requested at a refetch site is selected on the type of the site, and so inherits what holds of
selections. -/
theorem Hereditary.of_mem_refetchSites (hereditary : Hereditary sort holds) {parent : TypeId}
    {selections : List ResolvedSelection} (all : ∀ s ∈ selections, holds parent s) :
    ∀ site ∈ refetchSites parent selections, sort site.type ∧ ∀ s ∈ site.selections, holds site.type s := by
  rw [refetchSites_eq]
  exact hereditary.of_mem_sitesOfSelections selections all all

variable {g : SchemaGraph} {r : Resolution} {d : Declaration}

theorem hereditary_selected : Hereditary (·.index < g.types.length) (Selected g r d) where
  linked := Selected.inside_linked
  pointer := Selected.inside_pointer
  selectedOn selected := g.lt_of_lookupField? selected.mirrored.found
  pointedTo selected := by
    obtain ⟨_, mirrors⟩ := selected.mirrored
    cases mirrors with
    | pointer _ _ identified _ _ _ _ _ =>
      obtain ⟨id, field⟩ := Option.isSome_iff_exists.1 identified
      obtain ⟨_, found, -⟩ := Option.bind_eq_some_iff.1 field
      exact g.lt_of_lookupField? found

/-- The refetch sites of a resolved field. -/
theorem Grounded.selected_of_mem_refetchSites {f : ResolvedField} (h : Grounded g d f)
    (listed : f ∈ r.fields) : ∀ site ∈ refetchSites f.parent f.selections, site.Selected g r d := by
  intro site member
  obtain ⟨valid, selected⟩ := hereditary_selected.of_mem_refetchSites (h.selected listed) site member
  exact ⟨valid, selected⟩

end Sites

end IsoLiteral
