import IsoLiteral.Operation.Merged
import IsoLiteral.Proofs.Schema.Registry

/-!
# Paths of merged selections

What an operation asks for is the set of paths through its selections. Merging a request into a set adds
the paths of the request and loses none, because every entry that is there already has the form the
request needs: the key of an entry determines its form (`Fits`), as long as a type's field of some name
is either a link or not, a fragment's type is known by its name, and `__typename` is no link.
-/

namespace IsoLiteral

/-- One step on the way to requested data. -/
inductive Segment where
  | scalar (fieldName : String) (arguments : List (String × Value))
  | linked (fieldName : String) (arguments : List (String × Value))
  | fragment (typeName : String)
deriving DecidableEq, Repr

/-- What is selected inside. -/
def MergedSelection.selections : MergedSelection → MergedSet
  | .scalar _ _ => []
  | .linked _ _ _ selections => selections
  | .inlineFragment _ selections => selections

mutual
/-- The paths through a selection, up to each selection inside it. -/
def MergedSelection.paths : MergedSelection → List (List Segment)
  | .scalar fieldName arguments => [[.scalar fieldName arguments]]
  | .linked fieldName arguments _ selections =>
    [.linked fieldName arguments] ::
      (MergedSet.paths selections).map (.linked fieldName arguments :: ·)
  | .inlineFragment typeName selections =>
    [.fragment typeName] :: (MergedSet.paths selections).map (.fragment typeName :: ·)
termination_by structural m => m
/-- The paths through selections. -/
def MergedSet.paths : List (SelectionKey × MergedSelection) → List (List Segment)
  | [] => []
  | (_, m) :: rest => m.paths ++ MergedSet.paths rest
termination_by structural ms => ms
end

/-- What is added to a record's selections so that the store can tell records apart. -/
def completion (g : SchemaGraph) (type : TypeId) (withTypename : Bool) : List Segment :=
  (if (g.idField? type).isSome then [.scalar "id" []] else []) ++
    (if withTypename then [.scalar typenameField []] else [])

mutual
/-- The paths that a request asks for, with those that are added to its records. -/
def Request.paths (g : SchemaGraph) : Request → List (List Segment)
  | .scalar _ fieldName arguments => [[.scalar fieldName arguments]]
  | .linked fieldName arguments target nested =>
    [.linked fieldName arguments] ::
      (requestPaths g nested ++ (completion g target (g.type target).kind.isAbstract).map ([·])).map
        (.linked fieldName arguments :: ·)
  | .fragment target nested =>
    [.fragment (g.typeName target)] ::
      (requestPaths g nested ++ (completion g target true).map ([·])).map
        (.fragment (g.typeName target) :: ·)
termination_by structural r => r
/-- The paths that requests ask for. -/
def requestPaths (g : SchemaGraph) : List Request → List (List Segment)
  | [] => []
  | r :: rest => r.paths g ++ requestPaths g rest
termination_by structural rs => rs
end

theorem requestPaths_append (g : SchemaGraph) (xs ys : List Request) :
    requestPaths g (xs ++ ys) = requestPaths g xs ++ requestPaths g ys := by
  induction xs with
  | nil => rw [List.nil_append, requestPaths, List.nil_append]
  | cons r rest ih => rw [List.cons_append, requestPaths, ih, requestPaths, List.append_assoc]

/-! ## Forms -/

/-- The type that a field of the server leads to from a type. -/
def SchemaGraph.linkTarget? (g : SchemaGraph) (parent : TypeId) (name : String) : Option TypeId :=
  match (g.lookupField? parent name).map fun id => (g.field id).kind with
  | some (.linked target false) => some target
  | _ => none

/-- What has to hold of a graph so that the key of a selection determines its form. -/
structure SchemaGraph.Unambiguous (g : SchemaGraph) : Prop where
  typename : ∀ parent, g.linkTarget? parent typenameField = none
  names : ∀ s t : TypeId, s.index < g.types.length → t.index < g.types.length →
    g.typeName s = g.typeName t → s = t

/-- A selection of a type has the form that its key asks for. -/
inductive Fits (g : SchemaGraph) : TypeId → SelectionKey → MergedSelection → Prop where
  | id {type} : Fits g type .id (.plain "id")
  | scalar {type fieldName arguments} (plain : g.linkTarget? type fieldName = none) :
      Fits g type (.serverField fieldName arguments) (.scalar fieldName arguments)
  | linked {type target fieldName arguments concreteType selections}
      (leads : g.linkTarget? type fieldName = some target)
      (inside : ∀ entry ∈ selections, Fits g target entry.1 entry.2) :
      Fits g type (.serverField fieldName arguments)
        (.linked fieldName arguments concreteType selections)
  | fragment {type target selections} (valid : target.index < g.types.length)
      (inside : ∀ entry ∈ selections, Fits g target entry.1 entry.2) :
      Fits g type (.inlineFragment (g.typeName target))
        (.inlineFragment (g.typeName target) selections)

/-- All selections of a set have the forms that their keys ask for. -/
def FitsAll (g : SchemaGraph) (type : TypeId) (set : MergedSet) : Prop :=
  ∀ entry ∈ set, Fits g type entry.1 entry.2

/-- A request is one that selections of a type can give rise to. -/
inductive Request.Fits (g : SchemaGraph) : TypeId → Request → Prop where
  | id {type} : Request.Fits g type (.scalar .id "id" [])
  | scalar {type fieldName arguments} (plain : g.linkTarget? type fieldName = none) :
      Request.Fits g type (.scalar (.serverField fieldName arguments) fieldName arguments)
  | linked {type target fieldName arguments nested}
      (leads : g.linkTarget? type fieldName = some target)
      (inside : ∀ r ∈ nested, Request.Fits g target r) :
      Request.Fits g type (.linked fieldName arguments target nested)
  | fragment {type target nested} (valid : target.index < g.types.length)
      (inside : ∀ r ∈ nested, Request.Fits g target r) :
      Request.Fits g type (.fragment target nested)

/-! ## Merging -/

namespace MergedSet

variable {key : SelectionKey} {fresh : MergedSelection} {change : MergedSelection → MergedSelection}

/-- A change that adds the same paths to whatever stands under a key adds them to the set. -/
theorem mem_paths_update {more : List Segment → Prop} (new : ∀ p, p ∈ (change fresh).paths ↔ more p)
    {set : MergedSet}
    (old : ∀ m, (key, m) ∈ set → ∀ p, p ∈ (change m).paths ↔ p ∈ m.paths ∨ more p)
    (p : List Segment) : p ∈ paths (update key fresh change set) ↔ p ∈ paths set ∨ more p := by
  induction set with
  | nil => simp [update, paths, new]
  | cons entry rest ih =>
    obtain ⟨k, m⟩ := entry
    have later := ih fun m member => old m (List.mem_cons_of_mem _ member)
    rw [update]
    split
    · simp only [paths, List.mem_append, new]
      tauto
    · rename_i same
      obtain rfl := (SelectionKey.compare_eq_iff key k).1 same
      simp only [paths, List.mem_append, old m List.mem_cons_self]
      tauto
    · simp only [paths, List.mem_append, later]
      tauto

/-- What holds of every entry of a set still does after an update, if the changed entry keeps it. -/
theorem forall_mem_update {holds : SelectionKey → MergedSelection → Prop} {set : MergedSet}
    (all : ∀ entry ∈ set, holds entry.1 entry.2) (new : holds key (change fresh))
    (old : ∀ m, (key, m) ∈ set → holds key (change m)) :
    ∀ entry ∈ update key fresh change set, holds entry.1 entry.2 := by
  induction set with
  | nil => simpa [update] using new
  | cons entry rest ih =>
    obtain ⟨k, m⟩ := entry
    have first : holds k m := all _ List.mem_cons_self
    have others : ∀ entry ∈ rest, holds entry.1 entry.2 := fun e member =>
      all e (List.mem_cons_of_mem _ member)
    have later := ih others fun m member => old m (List.mem_cons_of_mem _ member)
    rw [update]
    split
    · exact List.forall_mem_cons.2 ⟨new, all⟩
    · rename_i same
      obtain rfl := (SelectionKey.compare_eq_iff key k).1 same
      exact List.forall_mem_cons.2 ⟨old m List.mem_cons_self, others⟩
    · exact List.forall_mem_cons.2 ⟨first, later⟩

/-- A set keeps its forms and gains exactly some paths. -/
structure Gains (g : SchemaGraph) (type : TypeId) (before after : MergedSet)
    (more : List (List Segment)) : Prop where
  fits : FitsAll g type after
  paths : ∀ p, p ∈ MergedSet.paths after ↔ p ∈ MergedSet.paths before ∨ p ∈ more

variable {g : SchemaGraph} {type : TypeId}

theorem Gains.refl {set : MergedSet} (all : FitsAll g type set) : Gains g type set set [] :=
  ⟨all, by simp⟩

theorem Gains.trans {first second third : MergedSet} {more others : List (List Segment)}
    (h : Gains g type first second more) (h' : Gains g type second third others) :
    Gains g type first third (more ++ others) :=
  ⟨h'.fits, fun p => by rw [h'.paths, h.paths, List.mem_append, or_assoc]⟩

/-- A scalar is put under its key or stands there already. -/
theorem gains_insertNew {set : MergedSet} (all : FitsAll g type set) {fieldName : String}
    {arguments : List (String × Value)} (new : Fits g type key (.scalar fieldName arguments))
    (old : ∀ m, Fits g type key m → m = .scalar fieldName arguments) :
    Gains g type set (insertNew key (.scalar fieldName arguments) set)
      [[.scalar fieldName arguments]] := by
  refine ⟨forall_mem_update all new fun m member => all _ member, ?_⟩
  refine mem_paths_update (fun p => by simp [MergedSelection.paths]) fun m member p => ?_
  rw [old m (all _ member)]
  simp [MergedSelection.paths]

theorem eq_plain_of_fits_id {m : MergedSelection} (fits : Fits g type .id m) : m = .plain "id" := by
  cases fits
  rfl

theorem eq_scalar_of_fits {fieldName : String} {arguments : List (String × Value)}
    {m : MergedSelection} (plain : g.linkTarget? type fieldName = none)
    (fits : Fits g type (.serverField fieldName arguments) m) : m = .scalar fieldName arguments := by
  cases fits with
  | scalar _ => rfl
  | linked leads _ => rw [plain] at leads; cases leads

/-- Completing a set adds the segments that tell records apart. -/
theorem gains_complete (unambiguous : g.Unambiguous) {set : MergedSet} (all : FitsAll g type set)
    (withTypename : Bool) :
    Gains g type set (complete g type withTypename set)
      ((completion g type withTypename).map ([·])) := by
  have withId : Gains g type set
      (if (g.idField? type).isSome then insertNew .id (.plain "id") set else set)
      (if (g.idField? type).isSome then [[.scalar "id" []]] else []) := by
    split
    · exact gains_insertNew all .id fun m => eq_plain_of_fits_id
    · exact .refl all
  have plain := unambiguous.typename type
  rw [complete, completion, List.map_append]
  cases withTypename with
  | false => simpa [apply_ite (List.map _)] using withId
  | true =>
    have stands : Fits g type (.serverField typenameField []) (.plain typenameField) := .scalar plain
    have named := gains_insertNew withId.fits stands fun m => eq_scalar_of_fits plain
    have both := withId.trans named
    simpa [apply_ite (List.map _), MergedSelection.plain] using both

theorem mem_map_cons_iff {s : Segment} {paths : List (List Segment)} {p : List Segment} :
    p ∈ paths.map (s :: ·) ↔ ∃ q ∈ paths, p = s :: q := by
  simp [eq_comm]

/-- A form of selections under a key that leads by a segment to a record of a type. -/
structure Leads (g : SchemaGraph) (type : TypeId) (key : SelectionKey) (s : Segment)
    (target : TypeId) (form : MergedSet → MergedSelection) : Prop where
  map : ∀ change selections, (form selections).mapSelections change = form (change selections)
  paths : ∀ selections, (form selections).paths = [s] :: (MergedSet.paths selections).map (s :: ·)
  fits : ∀ selections, FitsAll g target selections → Fits g type key (form selections)

/-- What is gained inside a record is gained below its segment. -/
theorem Leads.gains_update {set : MergedSet} (all : FitsAll g type set) {s : Segment} {target : TypeId}
    {form : MergedSet → MergedSelection} (leads : Leads g type key s target form)
    (known : ∀ m, Fits g type key m → ∃ form selections, m = form selections ∧
      Leads g type key s target form ∧ FitsAll g target selections)
    {grow : MergedSet → MergedSet} {more : List (List Segment)}
    (inner : ∀ selections, FitsAll g target selections →
      Gains g target selections (grow selections) more) :
    Gains g type set (update key (form []) (MergedSelection.mapSelections grow) set)
      ([s] :: more.map (s :: ·)) := by
  have none : FitsAll g target [] := by simp [FitsAll]
  refine ⟨forall_mem_update all ?_ fun m member => ?_, mem_paths_update (fun p => ?_) fun m member p => ?_⟩
  · rw [leads.map]
    exact leads.fits _ (inner [] none).fits
  · obtain ⟨form', selections, rfl, leads', fits⟩ := known m (all _ member)
    rw [leads'.map]
    exact leads'.fits _ (inner selections fits).fits
  · rw [leads.map, leads.paths]
    simp only [List.mem_cons, mem_map_cons_iff, (inner [] none).paths]
    simp [MergedSet.paths]
  · obtain ⟨form', selections, rfl, leads', fits⟩ := known m (all _ member)
    rw [leads'.map, leads'.paths, leads'.paths]
    simp only [List.mem_cons, mem_map_cons_iff, (inner selections fits).paths]
    grind

theorem leads_linked {target : TypeId} {fieldName : String} (arguments : List (String × Value))
    (leads : g.linkTarget? type fieldName = some target) (concreteType : Option String) :
    Leads g type (.serverField fieldName arguments) (.linked fieldName arguments) target
      (.linked fieldName arguments concreteType) where
  map _ _ := rfl
  paths _ := by rw [MergedSelection.paths]
  fits _ inside := .linked leads inside

theorem leads_fragment {target : TypeId} (valid : target.index < g.types.length) :
    Leads g type (.inlineFragment (g.typeName target)) (.fragment (g.typeName target)) target
      (.inlineFragment (g.typeName target)) where
  map _ _ := rfl
  paths _ := by rw [MergedSelection.paths]
  fits _ inside := .fragment valid inside

/-- What stands under the key of a link is a link to the same type. -/
theorem exists_of_fits_linked {target : TypeId} {fieldName : String}
    {arguments : List (String × Value)} (leads : g.linkTarget? type fieldName = some target)
    {m : MergedSelection} (fits : Fits g type (.serverField fieldName arguments) m) :
    ∃ form selections, m = form selections ∧
      Leads g type (.serverField fieldName arguments) (.linked fieldName arguments) target form ∧
      FitsAll g target selections := by
  cases fits with
  | scalar plain => rw [leads] at plain; cases plain
  | linked leads' inside =>
    obtain rfl := Option.some.inj (leads.symm.trans leads')
    exact ⟨_, _, rfl, leads_linked arguments leads _, inside⟩

/-- What stands under the key of a fragment is a fragment on the same type. -/
theorem exists_of_fits_fragment (unambiguous : g.Unambiguous) {target : TypeId}
    (valid : target.index < g.types.length) {m : MergedSelection}
    (fits : Fits g type (.inlineFragment (g.typeName target)) m) :
    ∃ form selections, m = form selections ∧
      Leads g type (.inlineFragment (g.typeName target)) (.fragment (g.typeName target)) target form ∧
      FitsAll g target selections := by
  generalize eq : g.typeName target = name at fits
  cases fits with
  | fragment valid' inside =>
    obtain rfl := unambiguous.names _ _ valid valid' eq
    exact ⟨_, _, rfl, leads_fragment valid, inside⟩

end MergedSet

open MergedSet

variable {g : SchemaGraph}

mutual
/-- **Merging a request** adds its paths. -/
theorem gains_mergeInto (unambiguous : g.Unambiguous) (r : Request) {type : TypeId}
    (fits : r.Fits g type) {set : MergedSet} (all : FitsAll g type set) :
    Gains g type set (r.mergeInto g set) (r.paths g) := by
  cases r with
  | scalar key fieldName arguments =>
    rw [Request.mergeInto, Request.paths]
    cases fits with
    | id => exact gains_insertNew all .id fun m => eq_plain_of_fits_id
    | scalar plain => exact gains_insertNew all (.scalar plain) fun m => eq_scalar_of_fits plain
  | linked fieldName arguments target nested =>
    rw [Request.mergeInto, Request.paths]
    cases fits with
    | linked leads inside =>
      refine (leads_linked arguments leads _).gains_update all (fun m => exists_of_fits_linked leads)
        fun selections fits => ?_
      have merged := gains_mergeRequestsInto unambiguous nested inside fits
      exact merged.trans (gains_complete unambiguous merged.fits _)
  | fragment target nested =>
    rw [Request.mergeInto, Request.paths]
    cases fits with
    | fragment valid inside =>
      refine (leads_fragment valid).gains_update all (fun m => exists_of_fits_fragment unambiguous valid)
        fun selections fits => ?_
      have merged := gains_mergeRequestsInto unambiguous nested inside fits
      exact merged.trans (gains_complete unambiguous merged.fits _)
/-- Merging requests one after another adds their paths. -/
theorem gains_mergeRequestsInto (unambiguous : g.Unambiguous) (rs : List Request) {type : TypeId}
    (fits : ∀ r ∈ rs, r.Fits g type) {set : MergedSet} (all : FitsAll g type set) :
    Gains g type set (mergeRequestsInto g rs set) (requestPaths g rs) := by
  cases rs with
  | nil =>
    rw [mergeRequestsInto, requestPaths]
    exact .refl all
  | cons r rest =>
    have first := gains_mergeInto unambiguous r (fits r List.mem_cons_self) all
    have others := gains_mergeRequestsInto unambiguous rest
      (fun r member => fits r (List.mem_cons_of_mem _ member)) first.fits
    rw [mergeRequestsInto, requestPaths]
    exact first.trans others
end

/-- The key of a scalar of a type is that of the record's `id`, or has the field's name. -/
theorem SchemaGraph.scalarKey_cases {options : SchemaOptions} {document : SchemaDocument}
    {declarations : List Declaration} (built : ofDocument options document declarations = .ok g)
    {parent : TypeId} {head : SelectionHead}
    (found : g.lookupField? parent head.fieldName = some head.field) (arguments : List (String × Value)) :
    (g.scalarKey parent head arguments = .id ∧ arguments = [] ∧ head.fieldName = "id" ∧
        (g.idField? parent).isSome) ∨
      g.scalarKey parent head arguments = .serverField head.fieldName arguments := by
  rw [SchemaGraph.scalarKey]
  split
  · rename_i isId
    rw [Bool.and_eq_true, List.isEmpty_iff, decide_eq_true_eq] at isId
    obtain ⟨none, idField⟩ := isId
    obtain ⟨id, idFound, rest⟩ := Option.bind_eq_some_iff.1 idField
    split at rest
    · obtain rfl := Option.some.inj rest
      have name := (g.lookupField?_eq_some built found).2
      rw [(g.lookupField?_eq_some built idFound).2] at name
      exact .inl ⟨rfl, none, name.symm, by rw [idField]; rfl⟩
    · cases rest
  · exact .inr rfl

/-- In a built graph in which `__typename` is no link, keys determine forms. -/
theorem SchemaGraph.unambiguous_of_plain_typename {options : SchemaOptions} {document : SchemaDocument}
    {declarations : List Declaration} (built : ofDocument options document declarations = .ok g)
    (plain : ∀ f ∈ g.fields, f.origin = .server → f.name = typenameField → f.kind = .scalar) :
    g.Unambiguous where
  names s t inS inT := typeName_injective built inS inT
  typename parent := by
    rw [linkTarget?]
    split
    · rename_i target found
      obtain ⟨id, here, kind⟩ := Option.map_eq_some_iff.1 found
      have name := (lookupField?_eq_some built here).2
      have other := plain _ (field_mem_of_kind kind) (origin_eq_server built kind) name
      rw [kind] at other
      cases other
    · rfl

/-- In a built graph without fields of the server named `__typename`, keys determine forms. -/
theorem SchemaGraph.unambiguous_ofDocument {options : SchemaOptions} {document : SchemaDocument}
    {declarations : List Declaration} (built : ofDocument options document declarations = .ok g)
    (unreserved : ∀ f ∈ g.fields, f.origin = .server → f.name ≠ typenameField) : g.Unambiguous :=
  unambiguous_of_plain_typename built fun f member server name =>
    absurd name (unreserved f member server)

end IsoLiteral
