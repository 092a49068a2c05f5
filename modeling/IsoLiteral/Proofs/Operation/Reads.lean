import IsoLiteral.Proofs.Graph.Reference
import IsoLiteral.Proofs.Operation.Path
import IsoLiteral.Proofs.Resolution.Form

/-!
# Writes cover reads

A reader walks the selections of its field and, where they refer to another field, the selections of
that field on the same record, with its variables bound. `Reads` says which paths it comes to, without
any bound on how many fields it goes through. The operation that is merged for the field asks for exactly
these paths and for what is added to the records on them: inlining through as many fields as there are
goes far enough, since without cycles a reader is never inside the same field twice.
-/

namespace IsoLiteral

open Relation

variable {g : SchemaGraph} {r : Resolution}

/-- What is at the end of a path: a value, or a record of a type, which may be the same record as before
under a narrower type. -/
inductive Place where
  | value
  | record (type : TypeId) (narrowed : Bool)
deriving DecidableEq, Repr

/-- What is asked for in addition at a place. -/
def Place.added (g : SchemaGraph) : Place → List Segment
  | .value => []
  | .record type narrowed => completion g type (narrowed || (g.type type).kind.isAbstract)

/-- The step that a link or fragment makes. -/
def segmentOf (g : SchemaGraph) (c : VariableContext) (head : SelectionHead) (target : TypeId)
    (inlineFragment : Bool) : Segment :=
  if inlineFragment then .fragment (g.typeName target)
  else .linked head.fieldName (c.bindArguments head.arguments)

/-- The paths that a reader of selections comes to, and what is there. Loadable selections, links and
what is selected through a pointer contribute nothing. -/
inductive Reads (g : SchemaGraph) (r : Resolution) :
    VariableContext → List ResolvedSelection → List Segment → Place → Prop where
  | scalar {c selections head updatable} (member : .scalar head updatable ∈ selections) :
      Reads g r c selections [.scalar head.fieldName (c.bindArguments head.arguments)] .value
  | record {c selections head target inlineFragment updatable nested}
      (member : .linked head target inlineFragment updatable nested ∈ selections) :
      Reads g r c selections [segmentOf g c head target inlineFragment]
        (.record target inlineFragment)
  | inside {c selections head target inlineFragment updatable nested p place}
      (member : .linked head target inlineFragment updatable nested ∈ selections)
      (reads : Reads g r c nested p place) :
      Reads g r c selections (segmentOf g c head target inlineFragment :: p) place
  /-- The reader of a resolver that is not loadable, or of a pointer, runs on the same record. -/
  | reference {c selections s f p place} (member : s ∈ selections) (refers : s.isReference = true)
      (resolved : r.field? s.head.field = some f)
      (reads : Reads g r (c.child f.variableDefinitions s.head.arguments) f.selections p place) :
      Reads g r c selections p place

theorem Reads.mono {c : VariableContext} {selections more : List ResolvedSelection}
    {p : List Segment} {place : Place} (h : Reads g r c selections p place)
    (grows : ∀ s ∈ selections, s ∈ more) : Reads g r c more p place := by
  cases h with
  | scalar member => exact .scalar (grows _ member)
  | record member => exact .record (grows _ member)
  | inside member reads => exact .inside (grows _ member) reads
  | reference member refers resolved reads => exact .reference (grows _ member) refers resolved reads

/-- The paths that a reader comes to, with those that are added to its records. -/
def Covered (g : SchemaGraph) (r : Resolution) (c : VariableContext)
    (selections : List ResolvedSelection) (p : List Segment) : Prop :=
  (∃ place, Reads g r c selections p place) ∨
    ∃ q place, Reads g r c selections q place ∧ ∃ s ∈ place.added g, p = q ++ [s]

/-! ## Nothing else is requested -/

section Sound

variable {c : VariableContext} {selections : List ResolvedSelection} {p : List Segment}

theorem Covered.mono {more : List ResolvedSelection} (h : Covered g r c selections p)
    (grows : ∀ s ∈ selections, s ∈ more) : Covered g r c more p := by
  rcases h with ⟨place, reads⟩ | ⟨q, place, reads, added⟩
  · exact .inl ⟨place, reads.mono grows⟩
  · exact .inr ⟨q, place, reads.mono grows, added⟩

theorem Covered.inside {head : SelectionHead} {target : TypeId} {inlineFragment updatable : Bool}
    {nested : List ResolvedSelection}
    (member : .linked head target inlineFragment updatable nested ∈ selections)
    (h : Covered g r c nested p) :
    Covered g r c selections (segmentOf g c head target inlineFragment :: p) := by
  rcases h with ⟨place, reads⟩ | ⟨q, place, reads, s, added, rfl⟩
  · exact .inl ⟨place, .inside member reads⟩
  · exact .inr ⟨_, place, .inside member reads, s, added, rfl⟩

theorem Covered.reference {s : ResolvedSelection} {f : ResolvedField} (member : s ∈ selections)
    (refers : s.isReference = true) (resolved : r.field? s.head.field = some f)
    (h : Covered g r (c.child f.variableDefinitions s.head.arguments) f.selections p) :
    Covered g r c selections p := by
  rcases h with ⟨place, reads⟩ | ⟨q, place, reads, added⟩
  · exact .inl ⟨place, .reference member refers resolved reads⟩
  · exact .inr ⟨q, place, .reference member refers resolved reads, added⟩

/-- What the expansion of a selected field asks for is what its reader comes to. -/
def SoundExpansion (g : SchemaGraph) (r : Resolution) (expand : Expansion) : Prop :=
  ∀ parent c head p, p ∈ requestPaths g (expand parent c head) →
    ∃ f, r.field? head.field = some f ∧
      Covered g r (c.child f.variableDefinitions head.arguments) f.selections p

theorem mem_requestPaths_fragment_or_linked {head : SelectionHead} {target : TypeId}
    {inlineFragment : Bool} {nested : List Request} :
    p ∈ requestPaths g (if inlineFragment then [.fragment target nested]
      else [.linked head.fieldName (c.bindArguments head.arguments) target nested]) ↔
    p = [segmentOf g c head target inlineFragment] ∨
      (∃ q ∈ requestPaths g nested, p = segmentOf g c head target inlineFragment :: q) ∨
      ∃ s ∈ (Place.record target inlineFragment).added g,
        p = [segmentOf g c head target inlineFragment, s] := by
  cases inlineFragment <;>
    simp only [Bool.false_eq_true, reduceIte, requestPaths, Request.paths, List.append_nil, List.mem_cons,
      List.map_append, List.mem_append, List.map_map, List.mem_map, segmentOf, Place.added, Bool.false_or,
      Bool.true_or, Function.comp_apply, eq_comm]

mutual
theorem covered_of_mem_requestsOf {expand : Expansion} (sound : SoundExpansion g r expand)
    (s : ResolvedSelection) {parent : TypeId} {c : VariableContext} {p : List Segment}
    (member : p ∈ requestPaths g (requestsOf g expand parent c s)) : Covered g r c [s] p := by
  cases s with
  | scalar head updatable =>
    have same : p = [.scalar head.fieldName (c.bindArguments head.arguments)] := by
      simpa [requestsOf, requestPaths, Request.paths] using member
    exact .inl ⟨.value, same ▸ .scalar (List.mem_singleton_self _)⟩
  | link head => simp [requestsOf, requestPaths] at member
  | resolver head kind loadable =>
    cases loadable with
    | some options => simp [requestsOf, requestPaths] at member
    | none =>
      rw [requestsOf] at member
      obtain ⟨f, resolved, covered⟩ := sound parent c head p member
      exact .reference (List.mem_singleton_self _) rfl resolved covered
  | pointer head target nested =>
    rw [requestsOf] at member
    obtain ⟨f, resolved, covered⟩ := sound parent c head p member
    exact .reference (List.mem_singleton_self _) rfl resolved covered
  | linked head target inlineFragment updatable nested =>
    rw [requestsOf, mem_requestPaths_fragment_or_linked] at member
    rcases member with rfl | ⟨q, member, rfl⟩ | ⟨s, added, rfl⟩
    · exact .inl ⟨_, .record (List.mem_singleton_self _)⟩
    · exact .inside (List.mem_singleton_self _) (covered_of_mem_requestsOfAll sound nested member)
    · exact .inr ⟨_, _, .record (List.mem_singleton_self _), s, added, rfl⟩
theorem covered_of_mem_requestsOfAll {expand : Expansion} (sound : SoundExpansion g r expand)
    (selections : List ResolvedSelection) {parent : TypeId} {c : VariableContext} {p : List Segment}
    (member : p ∈ requestPaths g (requestsOfAll g expand parent c selections)) :
    Covered g r c selections p := by
  cases selections with
  | nil => simp [requestsOfAll, requestPaths] at member
  | cons s rest =>
    rw [requestsOfAll, requestPaths_append] at member
    rcases List.mem_append.1 member with first | later
    · exact (covered_of_mem_requestsOf sound s first).mono (by simp)
    · exact (covered_of_mem_requestsOfAll sound rest later).mono (by simp +contextual)
end

theorem soundExpansion_expandField (depth : Nat) : SoundExpansion g r (expandField g r depth) := by
  induction depth with
  | zero => intro parent c head p member; simp [expandField, requestPaths] at member
  | succ depth ih =>
    intro parent c head p member
    rw [expandField] at member
    split at member
    · simp [requestPaths] at member
    · rename_i f resolved
      exact ⟨f, resolved, covered_of_mem_requestsOfAll ih f.selections member⟩

end Sound

/-! ## Nothing is missing -/

section Complete

theorem mem_requestPaths_requestsOfAll {expand : Expansion} {parent : TypeId} {c : VariableContext}
    {selections : List ResolvedSelection} {s : ResolvedSelection} (member : s ∈ selections)
    {p : List Segment} (asked : p ∈ requestPaths g (requestsOf g expand parent c s)) :
    p ∈ requestPaths g (requestsOfAll g expand parent c selections) := by
  induction selections with
  | nil => cases member
  | cons t rest ih =>
    rw [requestsOfAll, requestPaths_append, List.mem_append]
    rcases List.mem_cons.1 member with rfl | later
    · exact .inl asked
    · exact .inr (ih later)

theorem requestsOf_of_isReference {expand : Expansion} {parent : TypeId} {c : VariableContext}
    {s : ResolvedSelection} (refers : s.isReference = true) :
    requestsOf g expand parent c s = expand parent c s.head := by
  match s, refers with
  | .resolver head kind none, _ => rw [requestsOf, ResolvedSelection.head]
  | .pointer head target nested, _ => rw [requestsOf, ResolvedSelection.head]

/-- A depth that is enough for what is selected in a field: together with the fields that the reader is
inside of already, all different and all leading to this one, it makes up for all fields. -/
structure Enough (r : Resolution) (selections : List ResolvedSelection) (depth : Nat)
    (owner : ResolvedField) (outer : List FieldId) : Prop where
  resolved : r.field? owner.field = some owner
  inside : ∀ s ∈ selections, Occurs s owner.selections
  nodup : outer.Nodup
  fields : ∀ f ∈ outer, (r.field? f).isSome
  leads : ∀ f ∈ outer, ReflTransGen (Refers r) f owner.field
  enough : r.fields.length ≤ depth + outer.length

theorem Enough.linked {selections nested : List ResolvedSelection} {depth : Nat}
    {owner : ResolvedField} {outer : List FieldId} (h : Enough r selections depth owner outer)
    {head : SelectionHead} {target : TypeId} {inlineFragment updatable : Bool}
    (member : .linked head target inlineFragment updatable nested ∈ selections) :
    Enough r nested depth owner outer :=
  { h with inside := fun _ inner => (h.inside _ member).inside_linked inner }

/-- One field further in, one level of depth less is enough: the field is not among those the reader is
inside of, or there would be a cycle. -/
theorem Enough.reference (acyclic : ∀ f, ¬ TransGen (Refers r) f f)
    {selections : List ResolvedSelection} {depth : Nat} {owner f : ResolvedField}
    {outer : List FieldId} (h : Enough r selections depth owner outer) {s : ResolvedSelection}
    (member : s ∈ selections) (refers : s.isReference = true)
    (resolved : r.field? s.head.field = some f) :
    ∃ less, depth = less + 1 ∧ Enough r f.selections less f (f.field :: outer) := by
  have own : f.field = s.head.field := by simpa using List.find?_some resolved
  have step : Refers r owner.field f.field :=
    ⟨by rw [own, resolved]; rfl, s, owner, h.resolved, h.inside s member, refers, own.symm⟩
  have new : f.field ∉ outer := fun known => acyclic f.field (TransGen.tail' (h.leads _ known) step)
  have nodup : (f.field :: outer).Nodup := List.nodup_cons.2 ⟨new, h.nodup⟩
  have fields : ∀ x ∈ f.field :: outer, (r.field? x).isSome :=
    List.forall_mem_cons.2 ⟨by rw [own, resolved]; rfl, h.fields⟩
  have few : (f.field :: outer).length ≤ r.fields.length := length_le_of_resolved nodup fields
  have enough := h.enough
  rw [List.length_cons] at few
  refine ⟨depth - 1, by omega, by rwa [own], fun _ => .here, nodup, fields, ?_, ?_⟩
  · refine List.forall_mem_cons.2 ⟨.refl, fun x inside => (h.leads x inside).tail step⟩
  · rw [List.length_cons]
    omega

/-- **What a reader comes to is asked for**, with what is added there. -/
theorem mem_requestPaths_of_reads (acyclic : ∀ f, ¬ TransGen (Refers r) f f) {c : VariableContext}
    {selections : List ResolvedSelection} {p : List Segment} {place : Place}
    (reads : Reads g r c selections p place) :
    ∀ parent depth owner outer, Enough r selections depth owner outer →
      (p ∈ requestPaths g (requestsOfAll g (expandField g r depth) parent c selections)) ∧
      ∀ s ∈ place.added g,
        p ++ [s] ∈ requestPaths g (requestsOfAll g (expandField g r depth) parent c selections) := by
  induction reads with
  | scalar member =>
    intro parent depth owner outer _
    refine ⟨mem_requestPaths_requestsOfAll member ?_, by simp [Place.added]⟩
    simp [requestsOf, requestPaths, Request.paths]
  | record member =>
    intro parent depth owner outer _
    refine ⟨mem_requestPaths_requestsOfAll member ?_, fun s added =>
      mem_requestPaths_requestsOfAll member ?_⟩
    · rw [requestsOf, mem_requestPaths_fragment_or_linked]
      exact .inl rfl
    · rw [requestsOf, mem_requestPaths_fragment_or_linked]
      exact .inr (.inr ⟨s, added, rfl⟩)
  | inside member _ ih =>
    rename_i head target _ _ _ _ _ _
    intro parent depth owner outer enough
    obtain ⟨asked, completed⟩ := ih target depth owner outer (enough.linked member)
    refine ⟨mem_requestPaths_requestsOfAll member ?_, fun s added =>
      mem_requestPaths_requestsOfAll member ?_⟩
    · rw [requestsOf, mem_requestPaths_fragment_or_linked]
      exact .inr (.inl ⟨_, asked, rfl⟩)
    · rw [requestsOf, mem_requestPaths_fragment_or_linked]
      exact .inr (.inl ⟨_, completed s added, rfl⟩)
  | reference member refers resolved _ ih =>
    intro parent depth owner outer enough
    obtain ⟨less, rfl, enough'⟩ := enough.reference acyclic member refers resolved
    obtain ⟨asked, completed⟩ := ih parent less _ _ enough'
    refine ⟨mem_requestPaths_requestsOfAll member ?_, fun s added =>
      mem_requestPaths_requestsOfAll member ?_⟩
    · rw [requestsOf_of_isReference refers, expandField, resolved]
      exact asked
    · rw [requestsOf_of_isReference refers, expandField, resolved]
      exact completed s added

end Complete

/-! ## The requests of a resolved field -/

section Fitting

variable {options : SchemaOptions} {document : SchemaDocument} {declarations : List Declaration}

theorem linkTarget?_of_kind {parent : TypeId} {name : String} {id : FieldId}
    (found : g.lookupField? parent name = some id) {kind : FieldKind}
    (same : (g.field id).kind = kind) (apart : ∀ target, kind ≠ .linked target false) :
    g.linkTarget? parent name = none := by
  rw [SchemaGraph.linkTarget?, found, Option.map_some, same]
  split
  · rename_i target eq
    exact absurd (Option.some.inj eq) (apart target)
  · rfl

/-- The key of a scalar request is that of the record's `id`, or has the field's name. -/
theorem fits_scalar (built : SchemaGraph.ofDocument options document declarations = .ok g)
    {parent : TypeId} {head : SelectionHead}
    (found : g.lookupField? parent head.fieldName = some head.field)
    (kind : (g.field head.field).kind = .scalar) (arguments : List (String × Value)) :
    Request.Fits g parent
      (.scalar (g.scalarKey parent head arguments) head.fieldName arguments) := by
  rcases g.scalarKey_cases built found arguments with ⟨key, none, name, -⟩ | key
  · rw [key, none, name]
    exact .id
  · rw [key]
    exact .scalar (linkTarget?_of_kind found kind (by simp))

/-- What the expansion of a selection of a type asks for is asked of that type. -/
def FittingExpansion (g : SchemaGraph) (expand : Expansion) : Prop :=
  ∀ parent c head, g.lookupField? parent head.fieldName = some head.field →
    ∀ request ∈ expand parent c head, Request.Fits g parent request

mutual
theorem fits_requestsOf (built : SchemaGraph.ofDocument options document declarations = .ok g)
    {expand : Expansion} (fitting : FittingExpansion g expand) (s : ResolvedSelection)
    {parent : TypeId} (selected : SelectedOn g parent s) (c : VariableContext) :
    ∀ request ∈ requestsOf g expand parent c s, Request.Fits g parent request := by
  cases s with
  | scalar head updatable =>
    cases selected with
    | scalar found kind =>
      rw [requestsOf]
      exact List.forall_mem_singleton.2 (fits_scalar built found kind _)
  | link head => simp [requestsOf]
  | resolver head kind loadable =>
    cases loadable with
    | some options => simp [requestsOf]
    | none =>
      rw [requestsOf]
      exact fitting parent c head selected.found
  | pointer head target nested =>
    rw [requestsOf]
    exact fitting parent c head selected.found
  | linked head target inlineFragment updatable nested =>
    cases selected with
    | linked found kind inside =>
      have nestedFits := fits_requestsOfAll built fitting nested inside c
      rw [requestsOf]
      cases inlineFragment with
      | true => exact List.forall_mem_singleton.2 (.fragment (g.target_lt built kind) nestedFits)
      | false =>
        have leads : g.linkTarget? parent head.fieldName = some target := by
          rw [SchemaGraph.linkTarget?, found, Option.map_some, kind]
        exact List.forall_mem_singleton.2 (.linked leads nestedFits)
theorem fits_requestsOfAll (built : SchemaGraph.ofDocument options document declarations = .ok g)
    {expand : Expansion} (fitting : FittingExpansion g expand) (selections : List ResolvedSelection)
    {parent : TypeId} (selected : ∀ s ∈ selections, SelectedOn g parent s) (c : VariableContext) :
    ∀ request ∈ requestsOfAll g expand parent c selections, Request.Fits g parent request := by
  cases selections with
  | nil => simp [requestsOfAll]
  | cons s rest =>
    have first := fits_requestsOf built fitting s (selected s List.mem_cons_self) c
    have others := fits_requestsOfAll built fitting rest
      (fun t member => selected t (List.mem_cons_of_mem s member)) c
    intro request member
    rw [requestsOfAll] at member
    exact (List.mem_append.1 member).elim (first request) (others request)
end

/-- A selected field is on the type that it is selected on, and so are its own selections. -/
theorem fittingExpansion_expandField
    (built : SchemaGraph.ofDocument options document declarations = .ok g)
    (resolved : ∀ id f, r.field? id = some f → ResolvedOn g f ∧ f.field = id) (depth : Nat) :
    FittingExpansion g (expandField g r depth) := by
  induction depth with
  | zero => intro parent c head _ request member; cases member
  | succ depth ih =>
    intro parent c head found
    rw [expandField]
    split
    · simp
    · rename_i f here
      obtain ⟨on, own⟩ := resolved _ f here
      have parentEq : f.parent = parent := by
        rw [on.parent, own]
        exact (g.lookupField?_eq_some built found).1
      exact fits_requestsOfAll built ih f.selections (parentEq ▸ on.selections) _

/-- What is merged for selections on a type has exactly the paths that they ask for. -/
theorem gains_mergeSelections (built : SchemaGraph.ofDocument options document declarations = .ok g)
    (unambiguous : g.Unambiguous)
    (resolved : ∀ id f, r.field? id = some f → ResolvedOn g f ∧ f.field = id) {type : TypeId}
    {selections : List ResolvedSelection} (selected : ∀ s ∈ selections, SelectedOn g type s)
    (c : VariableContext) :
    MergedSet.Gains g type [] (mergeSelections g r type c selections)
      (requestPaths g (requests g r type c selections)) :=
  gains_mergeRequestsInto unambiguous _
    (fits_requestsOfAll built (fittingExpansion_expandField built resolved r.fields.length) selections
      selected c) (by simp [FitsAll])

end Fitting

/-- **Writes cover reads.** In a built graph in which the server has no field named `__typename`, and for
a resolution without cycles, the paths of the operation merged for a resolved field are those that its
reader comes to, and besides only the `id` and `__typename` that records on them are completed with. -/
theorem mem_paths_mergeSelections_iff {options : SchemaOptions} {document : SchemaDocument}
    {declarations literals : List Declaration}
    (built : SchemaGraph.ofDocument options document declarations = .ok g)
    (unreserved : ∀ f ∈ g.fields, f.origin = .server → f.name ≠ typenameField)
    (resolution : r = (Resolution.ofDeclarations g literals).1)
    (acyclic : checkCycles g r = .ok ()) {id : FieldId} {f : ResolvedField}
    (resolved : r.field? id = some f) (p : List Segment) :
    p ∈ MergedSet.paths (mergeSelections g r f.parent (.symbolic f.variableDefinitions) f.selections) ↔
      (∃ place, Reads g r (.symbolic f.variableDefinitions) f.selections p place) ∨
      ∃ q place, Reads g r (.symbolic f.variableDefinitions) f.selections q place ∧
        ∃ s ∈ place.added g, p = q ++ [s] := by
  have form : ∀ id f, r.field? id = some f → ResolvedOn g f ∧ f.field = id := by
    intro id f found
    rw [resolution] at found
    exact resolvedOn_ofDeclarations g literals found
  have unambiguous := g.unambiguous_ofDocument built unreserved
  have fits := fits_requestsOfAll built (fittingExpansion_expandField built form r.fields.length)
    f.selections (form id f resolved).1.selections (.symbolic f.variableDefinitions)
  have empty : FitsAll g f.parent [] := by simp [FitsAll]
  have gains := gains_mergeRequestsInto unambiguous _ fits empty
  have noCycle := (checkCycles_eq_ok_iff g r).1 acyclic
  have enough : Enough r f.selections r.fields.length f [] :=
    ⟨by rwa [(form id f resolved).2], fun _ => .here, .nil, by simp, by simp, by simp⟩
  rw [mergeSelections, requests, gains.paths]
  constructor
  · rintro (none | asked)
    · simp [MergedSet.paths] at none
    · exact covered_of_mem_requestsOfAll (soundExpansion_expandField _) f.selections asked
  · rintro (⟨place, reads⟩ | ⟨q, place, reads, s, added, rfl⟩)
    · exact .inr (mem_requestPaths_of_reads noCycle reads f.parent _ f [] enough).1
    · exact .inr ((mem_requestPaths_of_reads noCycle reads f.parent _ f [] enough).2 s added)

/-- A server with a user, who has an `id` and a name of a given size. -/
def profileDocument : SchemaDocument :=
  let field (name type : String) (arguments : List ArgumentDocument) : FieldDocument :=
    ⟨name, type, arguments, none, none⟩
  let object (name : String) (fields : List FieldDocument) : TypeDocument :=
    ⟨name, .object, [], fields, [], [], none⟩
  ⟨"Query", none, [object "Query" [field "me" "User" []],
    object "User" [field "id" "ID!" [], field "name" "String" [⟨"size", "Int", none⟩]]]⟩

/-- The user's card shows the name in a size that is asked for, and the home page shows the card in a
size of its own. -/
def profileDeclarations : List Declaration :=
  let name (text : String) : Name := ⟨text, ⟨0, 0⟩⟩
  let select (field : String) (arguments : List (String × Value)) (set : Option (List Selection)) :=
    Selection.mk none (name field)
      (arguments.map fun (key, value) => ⟨name key, ⟨value, ⟨0, 0⟩⟩⟩) [] set ⟨0, 0⟩
  [⟨0, .field, name "User", name "card", none, [⟨name "size", ⟨.named "Int", ⟨0, 0⟩⟩, none⟩], [],
      none, [select "name" [("size", .variable "size")] none], ⟨0, 0⟩⟩,
    ⟨1, .field, name "Query", name "home", none, [], [], none,
      [select "me" [] (some [select "card" [("size", .int 3)] none])], ⟨0, 0⟩⟩]

/-- The graph of the two. -/
def profileGraph : SchemaGraph :=
  match SchemaGraph.ofDocument ⟨true⟩ profileDocument profileDeclarations with
  | .ok g => g
  | .error _ => default

theorem mem_paths_mergeSelections_profile :
    let r := (Resolution.ofDeclarations profileGraph profileDeclarations).1
    SchemaGraph.ofDocument ⟨true⟩ profileDocument profileDeclarations = .ok profileGraph ∧
    (∀ f ∈ profileGraph.fields, f.origin = .server → f.name ≠ typenameField) ∧
    checkCycles profileGraph r = .ok () ∧
    ∃ f, r.field? ⟨8⟩ = some f ∧
      [.linked "me" [], .scalar "name" [("size", .int 3)]] ∈
        MergedSet.paths (mergeSelections profileGraph r f.parent (.symbolic f.variableDefinitions)
          f.selections) ∧
      [.linked "me" [], .scalar "id" []] ∈
        MergedSet.paths (mergeSelections profileGraph r f.parent (.symbolic f.variableDefinitions)
          f.selections) := by
  intro r
  have built : SchemaGraph.ofDocument ⟨true⟩ profileDocument profileDeclarations = .ok profileGraph :=
    rfl
  have unreserved : ∀ f ∈ profileGraph.fields, f.origin = .server → f.name ≠ typenameField := by
    decide
  have acyclic : checkCycles profileGraph r = .ok () :=
    checkCycles_of_isOk (by decide +kernel)
  obtain ⟨f, resolved⟩ : ∃ f, r.field? ⟨8⟩ = some f := ⟨_, rfl⟩
  have covered := mem_paths_mergeSelections_iff built unreserved rfl acyclic resolved
  obtain rfl := Option.some.inj resolved
  refine ⟨built, unreserved, acyclic, _, rfl, (covered _).2 (.inl ⟨.value, ?_⟩), (covered _).2 (.inr ?_)⟩
  · exact .inside (.head _) (.reference (.head _) rfl rfl (.scalar (.head _)))
  · exact ⟨[.linked "me" []], _, .record (.head _), .scalar "id" [], .head _, rfl⟩

end IsoLiteral
