import IsoLiteral.Proofs.Operation.Closed
import IsoLiteral.Proofs.Operation.Reads
import IsoLiteral.Proofs.Operation.Sets
import IsoLiteral.Proofs.Schema.Stages

/-!
# Identity of requested records

The store tells records apart by their `id`, and by their type where that is only known from the response.
Every set of an operation asks for them (`Identified`), since a set is completed each time that a request is
merged into it, and nothing is ever taken out. What refers to a record itself, a link, a refetch or a loadable
selection, asks for nothing else: it is only allowed where the record has an `id`, which is then requested on
that record, as long as `__typename` is no link that a record's own `__typename` hides.
-/

namespace IsoLiteral

open MergedSet

/-! ## Completed sets -/

/-- A set asks for what tells records of a type apart. -/
structure MergedSet.IsComplete (g : SchemaGraph) (type : TypeId) (withTypename : Bool) (set : MergedSet) :
    Prop where
  id : (g.idField? type).isSome → .id ∈ set.map Prod.fst
  typename : withTypename = true → .serverField typenameField [] ∈ set.map Prod.fst

/-- A selection agrees with its key, the set inside it asks for what tells records apart, and so does every
set further in. -/
inductive Identified (g : SchemaGraph) : TypeId → SelectionKey → MergedSelection → Prop where
  | scalar {type key fieldName arguments} : Identified g type key (.scalar fieldName arguments)
  | linked {type target fieldName arguments concreteType selections}
      (leads : g.linkTarget? type fieldName = some target)
      (complete : IsComplete g target (g.type target).kind.isAbstract selections)
      (inside : ∀ entry ∈ selections, Identified g target entry.1 entry.2) :
      Identified g type (.serverField fieldName arguments)
        (.linked fieldName arguments concreteType selections)
  | fragment {type target typeName selections} (named : g.typeByName? typeName = some target)
      (complete : IsComplete g target true selections)
      (inside : ∀ entry ∈ selections, Identified g target entry.1 entry.2) :
      Identified g type (.inlineFragment typeName) (.inlineFragment typeName selections)

/-- All selections of a set are identified. -/
def IdentifiedAll (g : SchemaGraph) (type : TypeId) (set : MergedSet) : Prop :=
  ∀ entry ∈ set, Identified g type entry.1 entry.2

section Merging

variable {g : SchemaGraph} {type : TypeId} {set : MergedSet}

/-- **A completed set is complete.** -/
theorem MergedSet.isComplete_complete (g : SchemaGraph) (type : TypeId) (withTypename : Bool)
    (set : MergedSet) : IsComplete g type withTypename (complete g type withTypename set) := by
  constructor
  · intro identified
    rw [complete, if_pos identified]
    split
    · exact mem_keys_update.2 (.inr (mem_keys_update.2 (.inl rfl)))
    · exact mem_keys_update.2 (.inl rfl)
  · rintro rfl
    exact mem_keys_update.2 (.inl rfl)

theorem IdentifiedAll.complete (all : IdentifiedAll g type set) (target : TypeId) (withTypename : Bool) :
    IdentifiedAll g type (complete g target withTypename set) := by
  intro entry member
  rcases mem_complete member with old | ⟨name, -, same⟩
  · exact all entry old
  · rw [same]
    exact .scalar

variable {options : SchemaOptions} {document : SchemaDocument} {declarations : List Declaration}

mutual
/-- **Merging a request** leaves every set complete. -/
theorem identifiedAll_mergeInto (built : SchemaGraph.ofDocument options document declarations = .ok g)
    (r : Request) {type : TypeId} (fits : r.Fits g type) {set : MergedSet}
    (all : IdentifiedAll g type set) : IdentifiedAll g type (r.mergeInto g set) := by
  cases r with
  | scalar key fieldName arguments =>
    rw [Request.mergeInto]
    exact forall_mem_update all .scalar fun m member => all _ member
  | linked fieldName arguments target nested =>
    rw [Request.mergeInto]
    cases fits with
    | linked leads inside =>
      have grows {selections : MergedSet} (old : IdentifiedAll g target selections) :=
        (identifiedAll_mergeRequestsInto built nested inside old).complete target
          (g.type target).kind.isAbstract
      refine forall_mem_update all (.linked leads (isComplete_complete ..) (grows nofun)) fun m member => ?_
      cases all _ member with
      | scalar => exact .scalar
      | linked known _ old =>
        obtain rfl := Option.some.inj (leads.symm.trans known)
        exact .linked known (isComplete_complete ..) (grows old)
  | fragment target nested =>
    rw [Request.mergeInto]
    cases fits with
    | fragment valid inside =>
      have named := g.typeByName?_typeName built valid
      have grows {selections : MergedSet} (old : IdentifiedAll g target selections) :=
        (identifiedAll_mergeRequestsInto built nested inside old).complete target true
      refine forall_mem_update all (.fragment named (isComplete_complete ..) (grows nofun)) fun m member => ?_
      cases all _ member with
      | scalar => exact .scalar
      | fragment known _ old =>
        obtain rfl := Option.some.inj (named.symm.trans known)
        exact .fragment known (isComplete_complete ..) (grows old)
theorem identifiedAll_mergeRequestsInto
    (built : SchemaGraph.ofDocument options document declarations = .ok g) (rs : List Request)
    {type : TypeId} (fits : ∀ r ∈ rs, r.Fits g type) {set : MergedSet} (all : IdentifiedAll g type set) :
    IdentifiedAll g type (mergeRequestsInto g rs set) := by
  cases rs with
  | nil =>
    rw [mergeRequestsInto]
    exact all
  | cons r rest =>
    rw [List.forall_mem_cons] at fits
    rw [mergeRequestsInto]
    exact identifiedAll_mergeRequestsInto built rest fits.2 (identifiedAll_mergeInto built r fits.1 all)
end

end Merging

/-! ## What refers to its record -/

/-- Whether a selection refers to the record it is read on: a link, a refetch, or one that is loaded. -/
def ResolvedSelection.needsIdentity : ResolvedSelection → Bool
  | .link _ => true
  | .resolver _ kind loadable => kind = .refetchAction || loadable.isSome
  | .scalar _ _ | .linked _ _ _ _ _ | .pointer _ _ _ => false

/-- What refers to its record is on a root type or on records with an id, and a pointer leads to records
with one, also inside a selection. -/
inductive Identifiable (g : SchemaGraph) : TypeId → ResolvedSelection → Prop where
  | scalar {parent head updatable} : Identifiable g parent (.scalar head updatable)
  | link {parent head} (identified : (g.idField? parent).isSome) : Identifiable g parent (.link head)
  | resolver {parent head kind loadable}
      (identified : kind = .refetchAction ∨ loadable.isSome → g.isRootType parent = true ∨
        (g.idField? parent).isSome) : Identifiable g parent (.resolver head kind loadable)
  | linked {parent head target inlineFragment updatable nested}
      (inside : ∀ s ∈ nested, Identifiable g target s) :
      Identifiable g parent (.linked head target inlineFragment updatable nested)
  | pointer {parent head target nested} (identified : (g.idField? target).isSome)
      (inside : ∀ s ∈ nested, Identifiable g target s) :
      Identifiable g parent (.pointer head target nested)

theorem Identifiable.isSome_idField? {g : SchemaGraph} {type : TypeId} {s : ResolvedSelection}
    (h : Identifiable g type s) (needs : s.needsIdentity = true) (inner : g.isRootType type = false) :
    (g.idField? type).isSome := by
  cases h with
  | link identified => exact identified
  | resolver identified =>
    rw [ResolvedSelection.needsIdentity, Bool.or_eq_true, decide_eq_true_eq] at needs
    refine (identified needs).resolve_left fun root => ?_
    rw [inner] at root
    cases root
  | scalar => cases needs
  | linked _ => cases needs
  | pointer _ _ => cases needs

namespace SelectionScope

variable {c : SelectionScope} {options : SchemaOptions} {document : SchemaDocument}
  {declarations : List Declaration}

mutual
/-- **What is selected without errors** is identifiable. -/
theorem identifiable_resolveSelection
    (built : SchemaGraph.ofDocument options document declarations = .ok c.schema) (s : Selection)
    {parent : TypeId} (clean : (c.resolveSelection parent s).diagnostics.hasErrors = false) :
    ∀ t ∈ (c.resolveSelection parent s).selections, Identifiable c.schema parent t := by
  obtain ⟨label, name, arguments, directives, selectionSet, range⟩ := s
  rw [resolveSelection] at clean ⊢
  split at clean
  · simp
  · rename_i id found
    have record := c.schema.isSome_idField?_of_isRecordKind built found
    have own := (c.schema.lookupField?_eq_some built found).1
    simp only [Findings.selections_append, Findings.diagnostics_append, List.nil_append,
      Diagnostics.clean_append] at clean ⊢
    replace clean := clean.2
    cases kind : (c.schema.field id).kind with
    | scalar => exact List.forall_mem_singleton.2 .scalar
    | link => exact List.forall_mem_singleton.2 (.link (record (.inl kind)))
    | resolver artifact =>
      rw [kind] at clean
      obtain ⟨-, identified⟩ := loadable_of_clean (Diagnostics.clean_append.1 clean).2
      rw [own] at identified
      refine List.forall_mem_singleton.2 (.resolver fun needs => ?_)
      rcases needs with rfl | loadable
      · exact .inr (record (.inr kind))
      · exact identified loadable
    | linked target inlineFragment =>
      rw [kind] at clean
      obtain ⟨findings, some, clean, same⟩ := nestedFindings_of_clean clean
      dsimp only
      rw [same]
      exact List.forall_mem_singleton.2
        (.linked (identifiable_resolveSelectionSet? built selectionSet some clean))
    | pointer target =>
      rw [kind] at clean
      obtain ⟨identified, clean⟩ := Diagnostics.clean_append.1 clean
      obtain ⟨findings, some, clean, same⟩ := nestedFindings_of_clean clean
      dsimp only
      rw [Findings.selections_append, List.nil_append, same]
      exact List.forall_mem_singleton.2 (.pointer (pointer_of_clean identified)
        (identifiable_resolveSelectionSet? built selectionSet some clean))
theorem identifiable_resolveSelectionSet?
    (built : SchemaGraph.ofDocument options document declarations = .ok c.schema)
    (set : Option (List Selection)) {parent : TypeId} {findings : Findings}
    (found : c.resolveSelectionSet? parent set = some findings)
    (clean : findings.diagnostics.hasErrors = false) :
    ∀ t ∈ findings.selections, Identifiable c.schema parent t := by
  cases set with
  | none => simp [resolveSelectionSet?] at found
  | some written =>
    have each (clean : (c.resolveSelections parent written).diagnostics.hasErrors = false) :=
      identifiable_resolveSelections built written clean
    rw [resolveSelectionSet?] at found
    split at found
    · cases found
    · obtain rfl := Option.some.inj found
      exact each clean
theorem identifiable_resolveSelections
    (built : SchemaGraph.ofDocument options document declarations = .ok c.schema)
    (written : List Selection) {parent : TypeId}
    (clean : (c.resolveSelections parent written).diagnostics.hasErrors = false) :
    ∀ t ∈ (c.resolveSelections parent written).selections, Identifiable c.schema parent t := by
  cases written with
  | nil => simp [resolveSelections, Findings.empty]
  | cons s rest =>
    rw [resolveSelections, Findings.diagnostics_append, Diagnostics.clean_append] at clean
    rw [resolveSelections, Findings.selections_append, List.forall_mem_append]
    exact ⟨identifiable_resolveSelection built s clean.1, identifiable_resolveSelections built rest clean.2⟩
end

end SelectionScope

/-! ## Records that are read -/

/-- Reading selections on a record of a type comes, along a path, to a record of a type on which a selection
is read. -/
inductive ReadOn (g : SchemaGraph) (r : Resolution) : TypeId → VariableContext → List ResolvedSelection →
    List Segment → TypeId → ResolvedSelection → Prop where
  | here {parent c selections s} (member : s ∈ selections) : ReadOn g r parent c selections [] parent s
  | inside {parent c selections head target inlineFragment updatable nested p type s}
      (member : .linked head target inlineFragment updatable nested ∈ selections)
      (deeper : ReadOn g r target c nested p type s) :
      ReadOn g r parent c selections (segmentOf g c head target inlineFragment :: p) type s
  | reference {parent c selections t f p type s} (member : t ∈ selections) (refers : t.isReference = true)
      (resolved : r.field? t.head.field = some f)
      (deeper : ReadOn g r parent (c.child f.variableDefinitions t.head.arguments) f.selections p type s) :
      ReadOn g r parent c selections p type s

/-- What is known of a selection of a resolved field on its type. -/
structure Legitimate (g : SchemaGraph) (type : TypeId) (s : ResolvedSelection) : Prop where
  form : SelectedOn g type s
  identifiable : Identifiable g type s

section Reading

variable {options : SchemaOptions} {document : SchemaDocument} {declarations : List Declaration}
  {g : SchemaGraph} {r : Resolution} {parent type : TypeId} {c : VariableContext}
  {selections : List ResolvedSelection} {p : List Segment} {s : ResolvedSelection}

theorem Legitimate.inside_linked {head : SelectionHead} {target : TypeId} {inlineFragment updatable : Bool}
    {nested : List ResolvedSelection}
    (h : Legitimate g parent (.linked head target inlineFragment updatable nested)) :
    ∀ s ∈ nested, Legitimate g target s := by
  obtain ⟨form, identifiable⟩ := h
  cases form with
  | linked _ _ formed =>
    cases identifiable with
    | linked inside => exact fun s member => ⟨formed s member, inside s member⟩

theorem Legitimate.inside_pointer {head : SelectionHead} {target : TypeId} {nested : List ResolvedSelection}
    (h : Legitimate g parent (.pointer head target nested)) : ∀ s ∈ nested, Legitimate g target s := by
  obtain ⟨form, identifiable⟩ := h
  cases form with
  | pointer _ _ formed =>
    cases identifiable with
    | pointer _ inside => exact fun s member => ⟨formed s member, inside s member⟩

/-- Every selection of a resolution is legitimate. -/
theorem legitimate_of_mem_ofDeclarations {literals : List Declaration}
    (built : SchemaGraph.ofDocument options document declarations = .ok g) {f : ResolvedField}
    (member : f ∈ (Resolution.ofDeclarations g literals).1.fields) :
    ∀ s ∈ f.selections, Legitimate g f.parent s := by
  intro s inside
  obtain ⟨d, -, comes⟩ := exists_resolvedFrom member
  have form := (resolvedOn_resolveFrom g literals 0 [] f member).selections s inside
  rw [comes.selections] at inside
  exact ⟨form, SelectionScope.identifiable_resolveSelections (c := d.scope g) built d.selections comes.clean s
    inside⟩

/-- A record that is come to is the one that reading starts at, or one at the end of a path. -/
theorem ReadOn.reads (h : ReadOn g r parent c selections p type s) :
    p = [] ∧ type = parent ∨ ∃ narrowed, Reads g r c selections p (.record type narrowed) := by
  induction h with
  | here _ => exact .inl ⟨rfl, rfl⟩
  | inside member _ ih =>
    rcases ih with ⟨rfl, rfl⟩ | ⟨narrowed, reads⟩
    · exact .inr ⟨_, .record member⟩
    · exact .inr ⟨narrowed, .inside member reads⟩
  | reference member refers resolved _ ih =>
    exact ih.imp_right fun ⟨narrowed, reads⟩ => ⟨narrowed, .reference member refers resolved reads⟩

/-- What is read anywhere is legitimate there. -/
theorem ReadOn.legitimate (built : SchemaGraph.ofDocument options document declarations = .ok g)
    (form : ∀ id f, r.field? id = some f → ResolvedOn g f ∧ f.field = id)
    (fields : ∀ f ∈ r.fields, ∀ s ∈ f.selections, Legitimate g f.parent s)
    (h : ReadOn g r parent c selections p type s) (all : ∀ t ∈ selections, Legitimate g parent t) :
    Legitimate g type s := by
  induction h with
  | here member => exact all _ member
  | inside member _ ih => exact ih (all _ member).inside_linked
  | reference member _ resolved _ ih =>
    obtain ⟨on, own⟩ := form _ _ resolved
    have parentEq := (g.lookupField?_eq_some built (all _ member).form.found).1
    rw [← own, ← on.parent] at parentEq
    exact ih (parentEq ▸ fields _ (List.mem_of_find?_eq_some resolved))

/-- **What refers to a record that is come to has its id requested there**, unless it is the record that
reading starts at, which then has an id. -/
theorem mem_paths_of_readOn (built : SchemaGraph.ofDocument options document declarations = .ok g)
    (unambiguous : g.Unambiguous) (acyclic : ∀ f, ¬ Relation.TransGen (Refers r) f f)
    (form : ∀ id f, r.field? id = some f → ResolvedOn g f ∧ f.field = id)
    (fields : ∀ f ∈ r.fields, ∀ s ∈ f.selections, Legitimate g f.parent s) {owner : ResolvedField}
    (resolved : r.field? owner.field = some owner)
    (all : ∀ t ∈ selections, Legitimate g parent t ∧ Occurs t owner.selections)
    (h : ReadOn g r parent c selections p type s) (needs : s.needsIdentity = true)
    (inner : g.isRootType type = false) :
    (p = [] ∧ type = parent ∧ (g.idField? parent).isSome) ∨
      p ++ [.scalar "id" []] ∈ MergedSet.paths (mergeSelections g r parent c selections) := by
  have legitimate := h.legitimate built form fields fun t member => (all t member).1
  have identified := legitimate.identifiable.isSome_idField? needs inner
  have gains := gains_mergeSelections (r := r) built unambiguous form
    (fun t member => (all t member).1.form) c
  have enough : Enough r selections r.fields.length owner [] :=
    ⟨resolved, fun t member => (all t member).2, .nil, by simp, by simp, by simp⟩
  rcases h.reads with ⟨rfl, rfl⟩ | ⟨narrowed, reads⟩
  · exact .inl ⟨rfl, rfl, identified⟩
  · have added : .scalar "id" [] ∈ (Place.record type narrowed).added g := by
      simp [Place.added, completion, identified]
    exact .inr ((gains.paths _).2 (.inr
      ((mem_requestPaths_of_reads acyclic reads parent _ owner [] enough).2 _ added)))

end Reading

/-! ## Operations -/

/-- The way to the record that a query requests by its id. -/
def nodePath (g : SchemaGraph) (target : TypeId) : List Segment :=
  [.linked "node" nodeIdArgument, .fragment (g.typeName target)]

/-- The way to the record on which a field is read in the operation that fetches it. -/
def fetchPath (g : SchemaGraph) (parent : TypeId) : List Segment :=
  if g.isRootType parent then [] else nodePath g parent

/-- Every set of an operation asks for what tells records apart. The generated field `node` is an exception
where the server has none that leads anywhere. -/
def Operation.Identified (g : SchemaGraph) (o : Operation) : Prop :=
  ∃ type, g.rootType? o.kind = some type ∧ ∀ entry ∈ o.selections,
    IsoLiteral.Identified g type entry.1 entry.2 ∨
      g.linkTarget? type "node" = none ∧ ∃ concreteType node,
        entry = (.serverField "node" nodeIdArgument, .linked "node" nodeIdArgument concreteType node) ∧
        IdentifiedAll g type node

/-- Wherever reading selections comes to a record that something refers to, below a path of an operation, the
record's id is requested there. Root types have no records. -/
def RequestsIds (g : SchemaGraph) (r : Resolution) (base : List Segment) (parent : TypeId)
    (c : VariableContext) (selections : List ResolvedSelection) (set : MergedSet) : Prop :=
  ∀ p type s, ReadOn g r parent c selections p type s → s.needsIdentity = true →
    g.isRootType type = false → base ++ p ++ [.scalar "id" []] ∈ MergedSet.paths set

section Operations

variable {options : SchemaOptions} {document : SchemaDocument} {declarations : List Declaration}
  {g : SchemaGraph} {r : Resolution} {f : ResolvedField}

theorem identifiedAll_mergeSelections (built : SchemaGraph.ofDocument options document declarations = .ok g)
    (form : ∀ id f, r.field? id = some f → ResolvedOn g f ∧ f.field = id) {type : TypeId}
    {selections : List ResolvedSelection} (selected : ∀ s ∈ selections, SelectedOn g type s)
    (c : VariableContext) : IdentifiedAll g type (mergeSelections g r type c selections) :=
  identifiedAll_mergeRequestsInto built _
    (fits_requestsOfAll built (fittingExpansion_expandField built form r.fields.length) selections selected c)
    nofun

/-- A query for a record is identified, if what it requests of the record is. -/
theorem identified_nodeWrapper (built : SchemaGraph.ofDocument options document declarations = .ok g)
    {target : TypeId} (valid : target.index < g.types.length) {inner : MergedSet}
    (all : IdentifiedAll g target inner) {o : Operation} (query : o.kind = .query)
    (selections : o.selections = nodeWrapper g target inner) : o.Identified g := by
  refine ⟨g.queryType, by rw [query]; rfl, ?_⟩
  rw [selections]
  refine List.forall_mem_singleton.2 ?_
  have inside (type : TypeId) : IdentifiedAll g type
      [(.inlineFragment (g.typeName target),
        .inlineFragment (g.typeName target) (complete g target true inner))] :=
    List.forall_mem_singleton.2
      (.fragment (g.typeByName?_typeName built valid) (isComplete_complete ..) (all.complete target true))
  cases leads : g.linkTarget? g.queryType "node" with
  | none => exact .inr ⟨rfl, _, _, rfl, (inside _).complete _ _⟩
  | some nodeType =>
    have named : g.nodeType? = some nodeType := by
      rw [SchemaGraph.linkTarget?] at leads
      rw [SchemaGraph.nodeType?]
      split at leads
      · rename_i kind
        rw [kind]
        exact leads
      · cases leads
    refine .inl (.linked leads ?_ ((inside _).complete _ _))
    have complete := isComplete_complete g nodeType true
      [(.inlineFragment (g.typeName target),
        .inlineFragment (g.typeName target) (complete g target true inner))]
    rw [named, Option.getD_some]
    exact ⟨complete.id, fun _ => complete.typename rfl⟩

/-- What is requested of a record is requested below the way to it. -/
theorem mem_paths_nodeWrapper (unambiguous : g.Unambiguous) {target : TypeId}
    (valid : target.index < g.types.length) {inner : MergedSet} (fits : FitsAll g target inner)
    {p : List Segment} (member : p ∈ MergedSet.paths inner ∨ p ∈ (completion g target true).map ([·])) :
    nodePath g target ++ p ∈ MergedSet.paths (nodeWrapper g target inner) := by
  have completed := gains_complete unambiguous fits true
  have listed := (completed.paths p).2 member
  have fragment : FitsAll g (g.nodeType?.getD target) [(.inlineFragment (g.typeName target),
      .inlineFragment (g.typeName target) (complete g target true inner))] :=
    List.forall_mem_singleton.2 (.fragment valid completed.fits)
  have node := (gains_complete unambiguous fragment true).paths (.fragment (g.typeName target) :: p)
  have outer := node.2 (.inl (by
    simp only [MergedSet.paths, MergedSelection.paths, List.append_nil]
    exact List.mem_cons_of_mem _ (List.mem_map_of_mem listed)))
  simp only [nodeWrapper, MergedSet.paths, MergedSelection.paths, List.append_nil]
  exact List.mem_cons_of_mem _ (List.mem_map_of_mem outer)

/-- What is known of a resolution of the graph that an operation is made for. -/
structure Lawfully (g : SchemaGraph) (r : Resolution) : Prop where
  form : ∀ id f, r.field? id = some f → ResolvedOn g f ∧ f.field = id
  valid : ∀ f ∈ r.fields, f.parent.index < g.types.length
  fields : ∀ f ∈ r.fields, ∀ s ∈ f.selections, Legitimate g f.parent s

theorem lawfully_ofDeclarations (built : SchemaGraph.ofDocument options document declarations = .ok g)
    (literals : List Declaration) : Lawfully g (Resolution.ofDeclarations g literals).1 where
  form _ _ resolved := resolvedOn_ofDeclarations g literals resolved
  valid f member := by
    obtain ⟨d, -, comes⟩ := exists_resolvedFrom member
    obtain ⟨type, -, found⟩ := Option.bind_eq_some_iff.1 comes.found
    rw [comes.parent, (g.lookupField?_eq_some built found).1]
    exact g.lt_of_lookupField? found
  fields _ member := legitimate_of_mem_ofDeclarations built member

/-- What is requested at a refetch site is as legitimate as the selections of its owner. -/
theorem Lawfully.of_mem_refetchSites (lawfully : Lawfully g r) (member : f ∈ r.fields) {site : RefetchSite}
    (listed : site ∈ refetchSites f.parent f.selections) :
    site.type.index < g.types.length ∧
      ∀ s ∈ site.selections, Legitimate g site.type s ∧ Occurs s f.selections := by
  have hereditary : Hereditary (·.index < g.types.length)
      fun type s => Legitimate g type s ∧ Occurs s f.selections :=
    { linked := fun h s inside => ⟨h.1.inside_linked s inside, h.2.inside_linked inside⟩
      pointer := fun h s inside => ⟨h.1.inside_pointer s inside, h.2.inside_pointer inside⟩
      selectedOn := fun h => g.lt_of_lookupField? h.1.form.found
      pointedTo := fun h => by
        cases h.1.identifiable with
        | pointer identified _ =>
          obtain ⟨id, field⟩ := Option.isSome_iff_exists.1 identified
          obtain ⟨_, found, -⟩ := Option.bind_eq_some_iff.1 field
          exact g.lt_of_lookupField? found }
  exact hereditary.of_mem_refetchSites (fun s inside => ⟨lawfully.fields f member s inside, .here inside⟩) site
    listed

theorem identified_fetchOperation (built : SchemaGraph.ofDocument options document declarations = .ok g)
    (lawfully : Lawfully g r) (member : f ∈ r.fields) (name : String) :
    (fetchOperation g r name f).Identified g := by
  have all := identifiedAll_mergeSelections (r := r) built lawfully.form
    (fun s inside => (lawfully.fields f member s inside).form) (.symbolic f.variableDefinitions)
  rw [fetchOperation]
  cases root : g.operationKind? f.parent with
  | some kind => exact ⟨f.parent, g.rootType?_of_operationKind? root, fun entry inside => .inl (all entry inside)⟩
  | none => exact identified_nodeWrapper built (lawfully.valid f member) all rfl rfl

theorem identified_refetchOperation (built : SchemaGraph.ofDocument options document declarations = .ok g)
    (lawfully : Lawfully g r) (member : f ∈ r.fields) {site : RefetchSite}
    (listed : site ∈ refetchSites f.parent f.selections) (name : String) :
    (refetchOperation g r name f site).Identified g := by
  obtain ⟨valid, selected⟩ := lawfully.of_mem_refetchSites member listed
  have all := identifiedAll_mergeSelections (r := r) built lawfully.form
    (fun s inside => (selected s inside).1.form) (.symbolic f.variableDefinitions)
  exact identified_nodeWrapper built valid all rfl rfl

theorem name_fetchOperation (name : String) : (fetchOperation g r name f).name = name := by
  rw [fetchOperation]
  split <;> rfl

/-- In a query for a record, ids are requested where something refers to a record. -/
theorem requestsIds_nodeWrapper (built : SchemaGraph.ofDocument options document declarations = .ok g)
    (unambiguous : g.Unambiguous) (acyclic : ∀ f, ¬ Relation.TransGen (Refers r) f f)
    (lawfully : Lawfully g r) (resolved : r.field? f.field = some f) {type : TypeId}
    (valid : type.index < g.types.length) {selections : List ResolvedSelection}
    (all : ∀ s ∈ selections, Legitimate g type s ∧ Occurs s f.selections) (c : VariableContext) :
    RequestsIds g r (nodePath g type) type c selections
      (nodeWrapper g type (mergeSelections g r type c selections)) := by
  intro p target s read needs inner
  have gains := gains_mergeSelections (r := r) built unambiguous lawfully.form
    (fun t member => (all t member).1.form) c
  rw [List.append_assoc]
  refine mem_paths_nodeWrapper unambiguous valid gains.fits ?_
  rcases mem_paths_of_readOn built unambiguous acyclic lawfully.form lawfully.fields resolved all read needs
    inner with ⟨rfl, -, identified⟩ | requested
  · exact .inr (by simp [completion, identified])
  · exact .inl requested

theorem requestsIds_fetchOperation (built : SchemaGraph.ofDocument options document declarations = .ok g)
    (unambiguous : g.Unambiguous) (acyclic : ∀ f, ¬ Relation.TransGen (Refers r) f f)
    (lawfully : Lawfully g r) (resolved : r.field? f.field = some f) (name : String) :
    RequestsIds g r (fetchPath g f.parent) f.parent (.symbolic f.variableDefinitions) f.selections
      (fetchOperation g r name f).selections := by
  have member := List.mem_of_find?_eq_some resolved
  have all : ∀ s ∈ f.selections, Legitimate g f.parent s ∧ Occurs s f.selections := fun s inside =>
    ⟨lawfully.fields f member s inside, .here inside⟩
  rw [fetchOperation, fetchPath, SchemaGraph.isRootType]
  cases root : g.operationKind? f.parent with
  | some kind =>
    intro p type s read needs inner
    refine (mem_paths_of_readOn built unambiguous acyclic lawfully.form lawfully.fields resolved all read
      needs inner).resolve_left ?_
    -- reading starts at a root type
    rintro ⟨-, rfl, -⟩
    rw [SchemaGraph.isRootType, root] at inner
    cases inner
  | none => exact requestsIds_nodeWrapper built unambiguous acyclic lawfully resolved (lawfully.valid f member) all _

/-- **Record identity is always requested.** In every operation of a resolution without cycles, the set of
every link asks for the `id` of records that have one, and for `__typename` where their type is abstract, and
the set of every fragment asks for both. Where `__typename` is no link, every record that a link, a refetch or
a loadable selection refers to, root types apart, has its `id` requested on it: in the operation that fetches
a field, and in each refetch query of a field that is read on the way. -/
theorem identified_of_checkCycles {literals : List Declaration}
    (built : SchemaGraph.ofDocument options document declarations = .ok g)
    (resolution : r = (Resolution.ofDeclarations g literals).1) (acyclic : checkCycles g r = .ok ()) :
    ∃ artifacts, r.entrypointArtifacts g = .ok artifacts ∧ ∀ e ∈ artifacts,
      (∀ o ∈ e.operations, o.Identified g) ∧
      ((∀ f ∈ g.fields, f.origin = .server → f.name = typenameField → f.kind = .scalar) →
        (∃ f ∈ r.fields, e.readerArtifact = f.artifactId g ∧
          e.operation = fetchOperation g r e.operation.name f ∧
          RequestsIds g r (fetchPath g f.parent) f.parent (.symbolic f.variableDefinitions) f.selections
            e.operation.selections) ∧
        ∀ q ∈ e.refetchQueries, ∃ owner ∈ r.fields, ∃ site, q.owner = owner.artifactId g ∧
          (refetchSites owner.parent owner.selections)[q.index]? = some site ∧
          q.operation = refetchOperation g r q.operation.name owner site ∧
          RequestsIds g r (nodePath g site.type) site.type (.symbolic owner.variableDefinitions)
            site.selections q.operation.selections) := by
  have lawfully : Lawfully g r := resolution ▸ lawfully_ofDeclarations built literals
  have noCycle := (checkCycles_eq_ok_iff g r).1 acyclic
  refine ⟨(r.plans g).map (·.artifact g r), by rw [Resolution.entrypointArtifacts, acyclic]; rfl, ?_⟩
  intro e listed
  obtain ⟨plan, planned, rfl⟩ := List.mem_map.1 listed
  have resolved := field?_of_mem_plans planned
  have member := List.mem_of_find?_eq_some resolved
  refine ⟨?_, fun plain => ⟨⟨plan.field, member, rfl, ?_, ?_⟩, ?_⟩⟩
  · intro o inside
    rcases List.mem_cons.1 inside with rfl | later
    · exact identified_fetchOperation built lawfully member _
    · obtain ⟨q, queried, rfl⟩ := List.mem_map.1 later
      obtain ⟨owner, read, site, numbered, -, name, same⟩ := exists_of_mem_refetchQueries queried
      rw [same]
      exact identified_refetchOperation built lawfully
        (List.mem_of_find?_eq_some (field?_of_mem_readers read)) (List.mem_of_getElem? numbered) name
  · rw [Plan.artifact, name_fetchOperation]
  · exact requestsIds_fetchOperation built (g.unambiguous_of_plain_typename built plain) noCycle lawfully
      resolved _
  · intro q queried
    obtain ⟨owner, read, site, numbered, own, name, same⟩ := exists_of_mem_refetchQueries queried
    have resolved := field?_of_mem_readers read
    have member := List.mem_of_find?_eq_some resolved
    obtain ⟨valid, all⟩ := lawfully.of_mem_refetchSites member (List.mem_of_getElem? numbered)
    refine ⟨owner, member, site, own, numbered, by rw [same]; rfl, ?_⟩
    rw [same]
    exact requestsIds_nodeWrapper built (g.unambiguous_of_plain_typename built plain) noCycle lawfully
      resolved valid all _

end Operations

/-! ## A card and a hidden label -/

/-- Whether reading selections, without inlining, comes along a path to a record that something refers to. -/
def readsRecord (g : SchemaGraph) (c : VariableContext) : List Segment → TypeId → List ResolvedSelection → Bool
  | [], parent, selections => !g.isRootType parent && selections.any (·.needsIdentity)
  | step :: p, _, selections => selections.any fun
    | .linked head target inlineFragment _ nested =>
      segmentOf g c head target inlineFragment = step && readsRecord g c p target nested
    | _ => false

theorem exists_readOn_of_readsRecord {g : SchemaGraph} {r : Resolution} {c : VariableContext}
    (p : List Segment) {parent : TypeId} {selections : List ResolvedSelection}
    (reads : readsRecord g c p parent selections = true) :
    ∃ type s, ReadOn g r parent c selections p type s ∧ s.needsIdentity = true ∧
      g.isRootType type = false := by
  induction p generalizing parent selections with
  | nil =>
    rw [readsRecord, Bool.and_eq_true, Bool.not_eq_true'] at reads
    obtain ⟨s, member, needs⟩ := List.any_eq_true.1 reads.2
    exact ⟨parent, s, .here member, needs, reads.1⟩
  | cons step p ih =>
    obtain ⟨t, member, leads⟩ := List.any_eq_true.1 reads
    split at leads
    · rw [Bool.and_eq_true, decide_eq_true_eq] at leads
      obtain ⟨rfl, deeper⟩ := leads
      obtain ⟨type, s, read, rest⟩ := ih deeper
      exact ⟨type, s, .inside member read, rest⟩
    · cases leads

theorem identified_of_checkCycles_card :
    ∃ artifacts,
      requestedResolution.entrypointArtifacts (userGraph sizeArgument [] requestedTexts) = .ok artifacts ∧
      ∃ e ∈ artifacts, (∀ o ∈ e.operations, o.Identified (userGraph sizeArgument [] requestedTexts)) ∧
        ∃ q ∈ e.refetchQueries, ∃ type,
          nodePath (userGraph sizeArgument [] requestedTexts) type ++ [.scalar "id" []] ∈
            MergedSet.paths q.operation.selections := by
  have facts : (SchemaGraph.ofDocument ⟨true⟩ (userDocument sizeArgument [])
        (declarationsOf requestedTexts)).isOk = true ∧
      (∀ f ∈ (userGraph sizeArgument [] requestedTexts).fields, f.origin = .server →
        f.name = typenameField → f.kind = .scalar) ∧
      (requestedResolution.entrypointArtifacts
        (userGraph sizeArgument [] requestedTexts)).toOption.any (·.any (!·.refetchQueries.isEmpty)) ∧
      ∀ f ∈ requestedResolution.fields, ∀ site ∈ refetchSites f.parent f.selections,
        readsRecord (userGraph sizeArgument [] requestedTexts) (.symbolic f.variableDefinitions) [] site.type
          site.selections = true := by
    decide +kernel
  obtain ⟨possible, plain, requested, reads⟩ := facts
  have resolution : requestedResolution = (Resolution.ofDeclarations (userGraph sizeArgument [] requestedTexts)
      (declarationsOf requestedTexts)).1 := rfl
  obtain ⟨artifacts, run, identified⟩ :=
    identified_of_checkCycles (built_userGraph possible) resolution acyclic_requestedResolution
  rw [run] at requested
  obtain ⟨e, member, some⟩ := List.any_eq_true.1 requested
  obtain ⟨q, queried⟩ := List.exists_mem_of_ne_nil e.refetchQueries (by simpa using some)
  obtain ⟨every, ids⟩ := identified e member
  obtain ⟨owner, listed, site, -, numbered, -, here⟩ := (ids plain).2 q queried
  obtain ⟨type, s, read, needs, inner⟩ := exists_readOn_of_readsRecord []
    (reads owner listed site (List.mem_of_getElem? numbered))
  exact ⟨artifacts, run, e, member, every, q, queried, site.type, here [] type s read needs inner⟩

/-- A server with items whose `__typename` is a label with an id of its own. -/
def labelDocument : SchemaDocument :=
  let field (name type : String) : FieldDocument := ⟨name, type, [], none, none⟩
  ⟨"Query", none, [⟨"Query", .object, [], [field "item" "Item"], [], [], none⟩,
    ⟨"Item", .interface, [], [field "id" "ID!", field typenameField "Label"], [], [], none⟩,
    ⟨"Label", .object, [], [field "id" "ID!"], [], [], none⟩]⟩

/-- The item is shown twice, the second time with a link to its label. -/
def labelTexts : List String :=
  ["field Query.home \x7b first: item \x7b id \x7d second: item \x7b __typename \x7b link \x7d \x7d \x7d",
    "entrypoint Query.home"]

/-- What a run gives for them. -/
def labelOutput : CompilationOutput :=
  (produce .standard labelDocument (.ofLiterals labelTexts)).toOption.getD ⟨default, [], [], []⟩

/-- A run without errors reads a link on a label whose id it does not request: the item is completed with its
`__typename` as a scalar, which stays when the label is asked for. -/
theorem label_without_id :
    ∃ out p, produce .standard labelDocument (.ofLiterals labelTexts) = .ok out ∧
      parseLiterals .standard (.ofLiterals labelTexts) = .ok p ∧ out.diagnostics.hasErrors = false ∧
      ∃ e ∈ out.entrypoints, ∃ f ∈ (p.resolution out.schema).fields,
        e.operation = fetchOperation out.schema (p.resolution out.schema) e.operation.name f ∧
        ¬ RequestsIds out.schema (p.resolution out.schema) (fetchPath out.schema f.parent) f.parent
          (.symbolic f.variableDefinitions) f.selections e.operation.selections := by
  have facts : (produce .standard labelDocument (.ofLiterals labelTexts)).isOk = true ∧
      (parseLiterals .standard (.ofLiterals labelTexts)).isOk = true ∧
      labelOutput.diagnostics.hasErrors = false ∧
      (((parsedOf labelTexts).resolution labelOutput.schema).plans labelOutput.schema).any
        (fun plan => readsRecord labelOutput.schema (.symbolic plan.field.variableDefinitions)
            [.linked "item" [], .linked typenameField []] plan.field.parent plan.field.selections &&
          decide (fetchPath labelOutput.schema plan.field.parent ++
            [.linked "item" [], .linked typenameField []] ++ [.scalar "id" []] ∉ MergedSet.paths
              (fetchOperation labelOutput.schema ((parsedOf labelTexts).resolution labelOutput.schema)
                plan.queryName plan.field).selections)) = true := by
    decide +kernel
  obtain ⟨possible, possible', clean, hidden⟩ := facts
  have run : produce .standard labelDocument (.ofLiterals labelTexts) = .ok labelOutput :=
    eq_ok_getD (produce .standard labelDocument (.ofLiterals labelTexts)) ⟨default, [], [], []⟩ possible
  have parsed := parseLiterals_parsedOf labelTexts possible'
  -- nothing below may compute with the run
  generalize labelOutput = out at run clean hidden
  generalize parsedOf labelTexts = parsedLiterals at parsed hidden
  obtain ⟨plan, planned, facts⟩ := List.any_eq_true.1 hidden
  rw [Bool.and_eq_true, decide_eq_true_eq] at facts
  refine ⟨out, parsedLiterals, run, parsed, clean, plan.artifact out.schema
    (parsedLiterals.resolution out.schema), ?_, plan.field,
    List.mem_of_find?_eq_some (field?_of_mem_plans planned), ?_, fun ids => ?_⟩
  · rw [(stages_of_produce run parsed).2.1]
    exact List.mem_map_of_mem planned
  · rw [Plan.artifact, name_fetchOperation]
  · obtain ⟨type, s, read, needs, inner⟩ := exists_readOn_of_readsRecord _ facts.1
    exact facts.2 (ids _ type s read needs inner)

end IsoLiteral
