import IsoLiteral.Proofs.Operation.Identity
import IsoLiteral.Proofs.Operation.Sets
import IsoLiteral.Proofs.Operation.Termination
import IsoLiteral.Proofs.Run.Reordered

/-!
# Empty selection sets

What a reader takes from other readers may be nothing, and then nothing is asked for. A set of an operation is
empty where a reader comes to a record, reads nothing on it, and nothing is added to tell the record from others;
or where the field that is fetched is on a root type and reads nothing at all (`Starves`). No other set is empty.
The argument follows a set while requests are merged into it: at the end of every path there is a set exactly for
what has been asked below that path (`Accounted`). One request keeps that, if those inside it do.
-/

namespace IsoLiteral

open MergedSet Relation

/-! ## What has been asked for -/

/-- A set at the end of a path is there for what has been asked: the path has been asked for, whatever has been
asked below it is under its key in the set, and the set is empty only if nothing has. -/
structure Accounted (asked : List Segment → Prop) (p : List Segment) (found : MergedSet) : Prop where
  own : p ≠ [] → asked p
  sorted : found.Sorted
  keyed : ∀ entry ∈ found, entry.2.inner?.isSome = true → entry.2.segment.key? = some entry.1
  known : ∀ s q, asked (p ++ s :: q) → found ≠ [] ∧ ∀ key, s.key? = some key → key ∈ found.map Prod.fst

/-- Every set inside a set is there for what has been asked. -/
def Accounts (asked : List Segment → Prop) (set : MergedSet) : Prop :=
  ∀ p found, SetAt set p found → Accounted asked p found

variable {g : SchemaGraph} {asked : List Segment → Prop} {set : MergedSet}

theorem Accounts.congr {asked' : List Segment → Prop} (h : Accounts asked set)
    (same : ∀ s q, asked (s :: q) ↔ asked' (s :: q)) : Accounts asked' set := by
  intro p found at_
  obtain ⟨own, sorted, keyed, known⟩ := h p found at_
  refine ⟨fun some => ?_, sorted, keyed, fun s q deeper => known s q ?_⟩
  · obtain ⟨s, q, rfl⟩ := List.exists_cons_of_ne_nil some
    exact (same s q).1 (own some)
  · cases p with
    | nil => exact (same s q).2 deeper
    | cons t rest => exact (same t _).2 deeper

/-- A set accounts for what has been asked if it does so itself, and the sets of its entries do so below the
steps into them. -/
theorem accounts_iff : Accounts asked set ↔ set.Sorted ∧
    (∀ s q, asked (s :: q) → set ≠ [] ∧ ∀ key, s.key? = some key → key ∈ set.map Prod.fst) ∧
    ∀ entry ∈ set, ∀ inner, entry.2.inner? = some inner → entry.2.segment.key? = some entry.1 ∧
      asked [entry.2.segment] ∧ Accounts (fun q => asked (entry.2.segment :: q)) inner := by
  constructor
  · intro h
    obtain ⟨-, sorted, keyed, known⟩ := h [] set .here
    refine ⟨sorted, known, fun entry member inner leads => ⟨keyed entry member (by rw [leads]; rfl), ?_, ?_⟩⟩
    · exact (h _ inner (.inside member leads .here)).own (by simp)
    · intro p found at_
      obtain ⟨own, sorted, keyed, known⟩ := h _ found (.inside member leads at_)
      exact ⟨fun _ => own (by simp), sorted, keyed, known⟩
  · rintro ⟨sorted, known, each⟩ p found at_
    cases at_ with
    | here =>
      refine ⟨fun none => absurd rfl none, sorted, fun entry member some => ?_, known⟩
      obtain ⟨inner, leads⟩ := Option.isSome_iff_exists.1 some
      exact (each entry member inner leads).1
    | inside member leads deeper =>
      obtain ⟨-, here, inside⟩ := each _ member _ leads
      obtain ⟨own, sorted, keyed, known⟩ := inside _ _ deeper
      refine ⟨fun _ => ?_, sorted, keyed, known⟩
      rename_i rest _
      cases rest with
      | nil => exact here
      | cons s q => exact own (by simp)

namespace Request

/-- The step that a request asks for. -/
def segment (g : SchemaGraph) (r : Request) : Segment := (r.entry g).segment

theorem requestPaths_completionRequests (g : SchemaGraph) (type : TypeId) (withTypename : Bool) :
    requestPaths g (completionRequests g type withTypename) =
      (completion g type withTypename).map ([·]) := by
  rw [completionRequests, completion, requestPaths_append]
  cases (g.idField? type).isSome <;> cases withTypename <;> simp [requestPaths, paths]

theorem paths_eq (g : SchemaGraph) (r : Request) :
    r.paths g = [r.segment g] :: (requestPaths g (r.inner g)).map (r.segment g :: ·) := by
  cases r <;>
    simp [paths, inner, segment, entry, MergedSelection.segment, requestPaths_append,
      requestPaths_completionRequests, requestPaths]

theorem key?_segment {r : Request} {key : SelectionKey} (h : (r.segment g).key? = some key) : key = r.key g := by
  cases r <;> cases h
  · rfl
  · rfl

theorem eq_nil_of_inner?_entry {r : Request} {inner : MergedSet} (h : (r.entry g).inner? = some inner) :
    inner = [] ∧ (r.segment g).key? = some (r.key g) := by
  cases r <;> cases h
  · exact ⟨rfl, rfl⟩
  · exact ⟨rfl, rfl⟩

/-- Below the step into a set, a request asks for what it asks for inside. -/
theorem mem_paths_below {r : Request} {s t : Segment} {q : List Segment} (own : s.key? = some (r.key g)) :
    s :: t :: q ∈ r.paths g ↔ t :: q ∈ requestPaths g (r.inner g) := by
  rw [paths_eq]
  cases r with
  | scalar key fieldName arguments => simp [inner, requestPaths]
  | linked fieldName arguments target nested =>
    obtain rfl : s = .linked fieldName arguments := Segment.eq_of_key? own rfl
    simp [segment, entry, MergedSelection.segment]
  | fragment target nested =>
    obtain rfl : s = .fragment (g.typeName target) := Segment.eq_of_key? own rfl
    simp [segment, entry, MergedSelection.segment]

/-- What is asked for stays accounted for when a request is merged. -/
def Accountable (g : SchemaGraph) (r : Request) : Prop :=
  ∀ {asked : List Segment → Prop} {set : MergedSet}, Accounts asked set →
    Accounts (fun p => asked p ∨ p ∈ r.paths g) (r.mergeInto g set)

end Request

theorem accounts_mergeRequestsInto_of_accountable {rs : List Request} (each : ∀ r ∈ rs, r.Accountable g)
    (h : Accounts asked set) :
    Accounts (fun p => asked p ∨ p ∈ requestPaths g rs) (mergeRequestsInto g rs set) := by
  induction rs generalizing asked set with
  | nil =>
    rw [mergeRequestsInto]
    exact h.congr (by simp [requestPaths])
  | cons r rest ih =>
    obtain ⟨first, others⟩ := List.forall_mem_cons.1 each
    rw [mergeRequestsInto]
    exact (ih others (first h)).congr (by simp [requestPaths, or_assoc])

/-- **One request.** It is accounted for if those inside it are: under its key a set grows by them, and what
stands under other keys is not asked for by it. -/
theorem Request.accountable_of_inner {r : Request} (inside : ∀ q ∈ r.inner g, q.Accountable g) :
    r.Accountable g := by
  intro asked set h
  obtain ⟨sorted, known, each⟩ := accounts_iff.1 h
  have foreign {s : Segment} {q : List Segment} (new : s :: q ∈ r.paths g) : s = r.segment g := by
    rw [paths_eq] at new
    rcases List.mem_cons.1 new with same | deeper
    · exact (List.cons.inj same).1
    · obtain ⟨_, -, same⟩ := List.mem_map.1 deeper
      exact (List.cons.inj same).1.symm
  have grows {s : Segment} {before : MergedSet} (own : s.key? = some (r.key g))
      (old : Accounts (fun q => asked (s :: q)) before) :
      Accounts (fun q => asked (s :: q) ∨ s :: q ∈ r.paths g) (mergeRequestsInto g (r.inner g) before) :=
    (accounts_mergeRequestsInto_of_accountable inside old).congr fun t q => by rw [mem_paths_below own]
  rw [mergeInto_eq_update]
  refine accounts_iff.2 ⟨sorted.update, fun s q deeper => ⟨update_ne_nil, fun key own => ?_⟩, ?_⟩
  · refine mem_keys_update.2 ?_
    rcases deeper with old | new
    · exact .inr ((known s q old).2 key own)
    · exact .inl (key?_segment (foreign new ▸ own))
  · refine sorted.forall_mem_update (fun key m => ∀ inner, m.inner? = some inner →
      m.segment.key? = some key ∧ (asked [m.segment] ∨ [m.segment] ∈ r.paths g) ∧
        Accounts (fun q => asked (m.segment :: q) ∨ m.segment :: q ∈ r.paths g) inner) ?_ ?_ ?_
    · intro entry member apart inner leads
      obtain ⟨own, here, deeper⟩ := each entry member inner leads
      refine ⟨own, .inl here, deeper.congr fun t q => (or_iff_left fun new => apart ?_).symm⟩
      exact key?_segment (foreign new ▸ own)
    · intro absent inner leads
      rw [MergedSelection.inner?_mapSelections] at leads
      obtain ⟨before, fresh, rfl⟩ := Option.map_eq_some_iff.1 leads
      rw [MergedSelection.segment_mapSelections]
      obtain ⟨rfl, own⟩ := eq_nil_of_inner?_entry fresh
      have nothing : Accounts (fun q => asked (r.segment g :: q)) [] := by
        refine accounts_iff.2 ⟨.nil, fun s q deeper => absurd ?_ absent, by simp⟩
        exact (known _ _ deeper).2 _ own
      exact ⟨own, .inr (by rw [paths_eq]; exact List.mem_cons_self), grows own nothing⟩
    · intro m member inner leads
      rw [MergedSelection.inner?_mapSelections] at leads
      obtain ⟨before, found, rfl⟩ := Option.map_eq_some_iff.1 leads
      rw [MergedSelection.segment_mapSelections]
      obtain ⟨own, here, deeper⟩ := each _ member before found
      exact ⟨own, .inl here, grows own deeper⟩

theorem accountable_of_mem_completionRequests {type : TypeId} {withTypename : Bool} {r : Request}
    (member : r ∈ completionRequests g type withTypename) : r.Accountable g := by
  refine Request.accountable_of_inner ?_
  rcases List.mem_append.1 member with first | second
  · split at first
    · simp [List.mem_singleton.1 first, Request.inner]
    · cases first
  · split at second
    · simp [List.mem_singleton.1 second, Request.inner]
    · cases second

mutual
theorem Request.accountable (r : Request) : r.Accountable g := by
  refine Request.accountable_of_inner ?_
  cases r with
  | scalar key fieldName arguments => simp [Request.inner]
  | linked fieldName arguments target nested =>
    exact List.forall_mem_append.2 ⟨accountable_of_mem nested, fun q => accountable_of_mem_completionRequests⟩
  | fragment target nested =>
    exact List.forall_mem_append.2 ⟨accountable_of_mem nested, fun q => accountable_of_mem_completionRequests⟩
theorem accountable_of_mem (rs : List Request) : ∀ r ∈ rs, r.Accountable g := by
  cases rs with
  | nil => simp
  | cons r rest => exact List.forall_mem_cons.2 ⟨Request.accountable r, accountable_of_mem rest⟩
end

/-- **Merged requests are accounted for.** -/
theorem accounts_mergeRequestsInto (g : SchemaGraph) (rs : List Request) :
    Accounts (· ∈ requestPaths g rs) (mergeRequestsInto g rs []) := by
  have nothing : Accounts (fun _ => False) [] := accounts_iff.2 ⟨.nil, by simp, by simp⟩
  exact (accounts_mergeRequestsInto_of_accountable (accountable_of_mem rs) nothing).congr (by simp)

/-! ## Readers that read nothing -/

/-- Reading comes along a path to a record, or has not left the one that it starts at; nothing is read on the
record, and nothing is added to tell it from others. -/
structure Starves (g : SchemaGraph) (r : Resolution) (c : VariableContext) (selections : List ResolvedSelection)
    (p : List Segment) : Prop where
  comes : p = [] ∨ ∃ type narrowed, Reads g r c selections p (.record type narrowed)
  idle : ∀ s place, ¬ Reads g r c selections (p ++ [s]) place
  unmarked : ∀ place, Reads g r c selections p place → place.added g = []

section Reading

variable {r : Resolution} {c : VariableContext} {selections : List ResolvedSelection} {p : List Segment}

theorem key?_of_mem_added {place : Place} {s : Segment} (member : s ∈ place.added g) : s.key? = none := by
  cases place with
  | value => cases member
  | record type narrowed =>
    rw [Place.added, completion, List.mem_append] at member
    rcases member with first | second
    · split at first
      · rw [List.mem_singleton.1 first]
        rfl
      · cases first
    · split at second
      · rw [List.mem_singleton.1 second]
        rfl
      · cases second

theorem isSome_key?_segmentOf (g : SchemaGraph) (c : VariableContext) (head : SelectionHead) (target : TypeId)
    (inlineFragment : Bool) : (segmentOf g c head target inlineFragment).key?.isSome = true := by
  cases inlineFragment <;> rfl

/-- A path that only steps into sets leads to a record. -/
theorem Reads.eq_record {place : Place} (h : Reads g r c selections p place)
    (steps : ∀ s ∈ p, s.key?.isSome = true) : ∃ type narrowed, place = .record type narrowed := by
  induction h with
  | scalar _ => cases steps _ List.mem_cons_self
  | record _ => exact ⟨_, _, rfl⟩
  | inside _ _ ih => exact ih fun s member => steps s (List.mem_cons_of_mem _ member)
  | reference _ _ _ _ ih => exact ih steps

/-- The last step to a record is into a set. -/
theorem Reads.exists_last {type : TypeId} {narrowed : Bool}
    (h : Reads g r c selections p (.record type narrowed)) : ∃ q s, p = q ++ [s] ∧ s.key?.isSome = true := by
  generalize at_ : Place.record type narrowed = place at h
  induction h with
  | scalar _ => cases at_
  | record _ => exact ⟨[], _, rfl, isSome_key?_segmentOf ..⟩
  | inside _ _ ih =>
    obtain ⟨q, s, rfl, into⟩ := ih at_
    exact ⟨_ :: q, s, rfl, into⟩
  | reference _ _ _ _ ih => exact ih at_

/-- Nothing is asked for on a record where a reader starves. -/
theorem Starves.not_covered (h : Starves g r c selections p) (s : Segment) :
    ¬ Covered g r c selections (p ++ [s]) := by
  rintro (⟨place, reads⟩ | ⟨q, place, reads, t, added, same⟩)
  · exact h.idle s place reads
  · obtain ⟨rfl, -⟩ := List.append_inj' same rfl
    rw [h.unmarked place reads] at added
    cases added

variable {owner : ResolvedField} {parent : TypeId}

/-- **Empty sets are where readers starve.** -/
theorem starves_of_setAt (acyclic : ∀ f, ¬ TransGen (Refers r) f f)
    (enough : Enough r selections r.fields.length owner [])
    (empty : SetAt (mergeSelections g r parent c selections) p []) : Starves g r c selections p := by
  have accounted := accounts_mergeRequestsInto g (requests g r parent c selections) p [] empty
  have nothing (s : Segment) : p ++ [s] ∉ requestPaths g (requests g r parent c selections) := fun asked =>
    (accounted.known s [] asked).1 rfl
  have asked {q : List Segment} {place : Place} (reads : Reads g r c selections q place) :=
    mem_requestPaths_of_reads acyclic reads parent _ owner [] enough
  refine ⟨?_, fun s place reads => nothing s (asked reads).1, fun place reads => ?_⟩
  · rcases eq_or_ne p [] with none | some
    · exact .inl none
    · have steps := empty.isSome_key?
      rcases covered_of_mem_requestsOfAll (soundExpansion_expandField _) selections (accounted.own some) with
        ⟨place, reads⟩ | ⟨q, place, -, s, added, rfl⟩
      · obtain ⟨type, narrowed, rfl⟩ := reads.eq_record steps
        exact .inr ⟨type, narrowed, reads⟩
      · have into := steps s (by simp)
        rw [key?_of_mem_added added] at into
        cases into
  · exact List.eq_nil_iff_forall_not_mem.2 fun s added => nothing s ((asked reads).2 s added)

/-- Where a reader starves there is an empty set, if the merged set has the paths that are asked for. -/
theorem setAt_of_starves (acyclic : ∀ f, ¬ TransGen (Refers r) f f)
    (enough : Enough r selections r.fields.length owner [])
    (paths : ∀ q, q ∈ MergedSet.paths (mergeSelections g r parent c selections) ↔
      q ∈ requestPaths g (requests g r parent c selections))
    (starves : Starves g r c selections p) : SetAt (mergeSelections g r parent c selections) p [] := by
  obtain ⟨found, at_⟩ : ∃ found, SetAt (mergeSelections g r parent c selections) p found := by
    rcases starves.comes with rfl | ⟨type, narrowed, reads⟩
    · exact ⟨_, .here⟩
    · have asked := (mem_requestPaths_of_reads acyclic reads parent _ owner [] enough).1
      obtain ⟨q, s, rfl, into⟩ := reads.exists_last
      obtain ⟨q', found, at_, entry, member, same⟩ := mem_paths_iff_setAt.1 ((paths _).2 asked)
      obtain ⟨rfl, last⟩ := List.append_inj' same rfl
      rw [List.cons.inj last |>.1, ← MergedSelection.isSome_inner?] at into
      obtain ⟨inner, leads⟩ := Option.isSome_iff_exists.1 into
      exact ⟨inner, same ▸ at_.snoc member leads⟩
  cases found with
  | nil => exact at_
  | cons entry rest =>
    have listed := mem_paths_iff_setAt.2 ⟨p, _, at_, entry, List.mem_cons_self, rfl⟩
    exact absurd (covered_of_mem_requestsOfAll (soundExpansion_expandField _) selections ((paths _).1 listed))
      (starves.not_covered _)

end Reading

/-! ## Operations -/

/-- The empty sets of an operation that asks, below a path, for what a reader needs: they are only where the
reader starves, and they are everywhere it does if `__typename` is no link. The set at the end of the path
itself counts only if nothing is added there. -/
structure EmptySets (g : SchemaGraph) (r : Resolution) (base : List Segment) (bare : Bool) (c : VariableContext)
    (selections : List ResolvedSelection) (set : MergedSet) : Prop where
  only : ∀ p, SetAt set p [] → ∃ q, p = base ++ q ∧ Starves g r c selections q ∧ (q = [] → bare = true)
  every : (∀ f ∈ g.fields, f.origin = .server → f.name = typenameField → f.kind = .scalar) →
    ∀ q, Starves g r c selections q → (q = [] → bare = true) → SetAt set (base ++ q) []

section Wrapped

variable {target : TypeId} {inner found : MergedSet} {s : Segment} {p : List Segment}

theorem MergedSet.mem_insertNew_of_mem {key : SelectionKey} {fresh : MergedSelection}
    {entry : SelectionKey × MergedSelection} (member : entry ∈ set) : entry ∈ insertNew key fresh set := by
  rw [insertNew]
  induction set with
  | nil => cases member
  | cons first rest ih =>
    obtain ⟨k, m⟩ := first
    rw [update]
    split
    · exact List.mem_cons_of_mem _ member
    · exact member
    · rcases List.mem_cons.1 member with rfl | later
      · exact List.mem_cons_self
      · exact List.mem_cons_of_mem _ (ih later)

theorem MergedSet.mem_complete_of_mem {withTypename : Bool} {entry : SelectionKey × MergedSelection}
    (member : entry ∈ set) : entry ∈ complete g target withTypename set := by
  rw [complete]
  split <;> split <;> first
    | exact mem_insertNew_of_mem (mem_insertNew_of_mem member)
    | exact mem_insertNew_of_mem member
    | exact member

theorem MergedSet.mem_of_mem_complete {withTypename : Bool} {entry : SelectionKey × MergedSelection}
    (member : entry ∈ complete g target withTypename set) (leads : entry.2.inner? = some inner) : entry ∈ set := by
  rcases mem_complete member with old | ⟨_, -, same⟩
  · exact old
  · rw [same] at leads
    cases leads

theorem complete_ne_nil : complete g target true set ≠ [] := by
  intro none
  have here := (isComplete_complete g target true set).typename rfl
  rw [none] at here
  cases here

/-- An empty set inside a set that is not empty is inside one of its entries. -/
theorem MergedSet.SetAt.exists_mem (h : SetAt set p []) (some : set ≠ []) :
    ∃ entry ∈ set, ∃ inner q, entry.2.inner? = Option.some inner ∧ p = entry.2.segment :: q ∧ SetAt inner q [] := by
  generalize none : ([] : MergedSet) = empty at h
  cases h with
  | here => exact absurd none.symm some
  | inside member leads deeper => exact ⟨_, member, _, _, leads, rfl, none ▸ deeper⟩

/-- The empty sets of a query for a record are those of what is requested on it. -/
theorem setAt_nodeWrapper_iff : SetAt (nodeWrapper g target inner) p [] ↔
    ∃ q, p = nodePath g target ++ q ∧ q ≠ [] ∧ SetAt inner q [] := by
  constructor
  · intro h
    obtain ⟨node, member, _, p, leads, rfl, inNode⟩ := h.exists_mem nofun
    obtain rfl := List.mem_singleton.1 member
    cases leads
    obtain ⟨fragment, member, _, p, leads, rfl, inFragment⟩ := inNode.exists_mem complete_ne_nil
    obtain rfl := List.mem_singleton.1 (mem_of_mem_complete member leads)
    cases leads
    obtain ⟨entry, member, _, q, leads, rfl, deeper⟩ := inFragment.exists_mem complete_ne_nil
    exact ⟨_, rfl, nofun, .inside (mem_of_mem_complete member leads) leads deeper⟩
  · rintro ⟨q, rfl, some, h⟩
    cases h with
    | here => exact absurd rfl some
    | inside member leads deeper =>
      exact .inside List.mem_cons_self rfl
        (.inside (mem_complete_of_mem List.mem_cons_self) rfl (.inside (mem_complete_of_mem member) leads deeper))

end Wrapped

section Operations

variable {options : SchemaOptions} {document : SchemaDocument} {declarations : List Declaration}
  {r : Resolution} {f : ResolvedField} {type : TypeId} {selections : List ResolvedSelection}

/-- What is merged for selections of a field. -/
theorem emptySets_mergeSelections (built : SchemaGraph.ofDocument options document declarations = .ok g)
    (acyclic : ∀ f, ¬ TransGen (Refers r) f f) (lawfully : Lawfully g r) (resolved : r.field? f.field = some f)
    (all : ∀ s ∈ selections, Legitimate g type s ∧ Occurs s f.selections) (c : VariableContext) :
    EmptySets g r [] true c selections (mergeSelections g r type c selections) := by
  have enough : Enough r selections r.fields.length f [] :=
    ⟨resolved, fun t member => (all t member).2, .nil, by simp, by simp, by simp⟩
  refine ⟨fun p empty => ⟨p, rfl, starves_of_setAt acyclic enough empty, fun _ => rfl⟩, ?_⟩
  intro plain q starves _
  have gains := gains_mergeSelections (r := r) built (g.unambiguous_of_plain_typename built plain) lawfully.form
    (fun t member => (all t member).1.form) c
  exact setAt_of_starves acyclic enough (fun q => by simpa [MergedSet.paths] using gains.paths q) starves

/-- What is requested on a record. -/
theorem EmptySets.nodeWrapper {c : VariableContext} {inner : MergedSet} (h : EmptySets g r [] true c selections inner)
    (target : TypeId) : EmptySets g r (nodePath g target) false c selections (nodeWrapper g target inner) where
  only p empty := by
    obtain ⟨q, rfl, some, at_⟩ := setAt_nodeWrapper_iff.1 empty
    obtain ⟨q, rfl, starves, -⟩ := h.only q at_
    exact ⟨q, rfl, starves, fun none => absurd none some⟩
  every plain q starves deeper := by
    have some : q ≠ [] := fun none => nomatch deeper none
    exact setAt_nodeWrapper_iff.2 ⟨q, rfl, some, h.every plain q starves fun _ => rfl⟩

theorem emptySets_fetchOperation (built : SchemaGraph.ofDocument options document declarations = .ok g)
    (acyclic : ∀ f, ¬ TransGen (Refers r) f f) (lawfully : Lawfully g r) (resolved : r.field? f.field = some f)
    (name : String) :
    EmptySets g r (fetchPath g f.parent) (g.isRootType f.parent) (.symbolic f.variableDefinitions) f.selections
      (fetchOperation g r name f).selections := by
  have all : ∀ s ∈ f.selections, Legitimate g f.parent s ∧ Occurs s f.selections := fun s inside =>
    ⟨lawfully.fields f (List.mem_of_find?_eq_some resolved) s inside, .here inside⟩
  have merged := emptySets_mergeSelections built acyclic lawfully resolved all (.symbolic f.variableDefinitions)
  rw [selections_fetchOperation, fetchPath]
  cases g.isRootType f.parent with
  | true => exact merged
  | false => exact merged.nodeWrapper f.parent

theorem emptySets_refetchOperation (built : SchemaGraph.ofDocument options document declarations = .ok g)
    (acyclic : ∀ f, ¬ TransGen (Refers r) f f) (lawfully : Lawfully g r) (resolved : r.field? f.field = some f)
    {site : RefetchSite} (listed : site ∈ refetchSites f.parent f.selections) (name : String) :
    EmptySets g r (nodePath g site.type) false (.symbolic f.variableDefinitions) site.selections
      (refetchOperation g r name f site).selections := by
  obtain ⟨-, all⟩ := lawfully.of_mem_refetchSites (List.mem_of_find?_eq_some resolved) listed
  exact (emptySets_mergeSelections built acyclic lawfully resolved all _).nodeWrapper site.type

end Operations

/-! ## Runs -/

variable {config : CompilerConfig} {document : SchemaDocument} {literals : LiteralMap} {out : CompilationOutput}
  {p : ParsedLiterals}

/-- **Empty selection sets.** In every run, an operation has an empty set only where a reader comes to a record,
reads nothing on it and nothing is added there, or where a fetched field is on a root type and reads nothing; and
if `__typename` is no link, there is an empty set everywhere it does. So the sets of an operation are all filled
exactly if no reader starves. -/
theorem emptySets_of_produce (run : produce config document literals = .ok out)
    (parsed : parseLiterals config literals = .ok p) {e : EntrypointArtifact} (emitted : e ∈ out.entrypoints) :
    (∃ f ∈ (p.resolution out.schema).fields, e.readerArtifact = f.artifactId out.schema ∧
      e.operation = fetchOperation out.schema (p.resolution out.schema) e.operation.name f ∧
      EmptySets out.schema (p.resolution out.schema) (fetchPath out.schema f.parent)
        (out.schema.isRootType f.parent) (.symbolic f.variableDefinitions) f.selections
        e.operation.selections) ∧
    ∀ q ∈ e.refetchQueries, ∃ owner ∈ (p.resolution out.schema).fields, ∃ site,
      q.owner = owner.artifactId out.schema ∧
      (refetchSites owner.parent owner.selections)[q.index]? = some site ∧
      q.operation = refetchOperation out.schema (p.resolution out.schema) q.operation.name owner site ∧
      EmptySets out.schema (p.resolution out.schema) (nodePath out.schema site.type) false
        (.symbolic owner.variableDefinitions) site.selections q.operation.selections := by
  obtain ⟨built, entrypoints, -⟩ := stages_of_produce run parsed
  have acyclic := (checkCycles_eq_ok_iff _ _).1 (checkCycles_of_produce run parsed)
  have lawfully : Lawfully out.schema (p.resolution out.schema) := lawfully_ofDeclarations built p.declarations
  rw [entrypoints] at emitted
  obtain ⟨plan, planned, rfl⟩ := List.mem_map.1 emitted
  have resolved := field?_of_mem_plans planned
  refine ⟨⟨plan.field, List.mem_of_find?_eq_some resolved, rfl, ?_, ?_⟩, fun q queried => ?_⟩
  · rw [Plan.artifact, name_fetchOperation]
  · exact emptySets_fetchOperation built acyclic lawfully resolved _
  · obtain ⟨owner, read, site, numbered, own, name, same⟩ := exists_of_mem_refetchQueries queried
    have resolved := field?_of_mem_readers read
    refine ⟨owner, List.mem_of_find?_eq_some resolved, site, own, numbered, by rw [same]; rfl, ?_⟩
    rw [same]
    exact emptySets_refetchOperation built acyclic lawfully resolved (List.mem_of_getElem? numbered) name

/-- A server with a box that has no id. -/
def boxDocument : SchemaDocument :=
  let field (name type : String) : FieldDocument := ⟨name, type, [], none, none⟩
  ⟨"Query", none, [⟨"Query", .object, [], [field "box" "Box"], [], [], none⟩,
    ⟨"Box", .object, [], [field "size" "Int"], [], [], none⟩]⟩

/-- A field of the box reads nothing, and the home page shows nothing else of the box. -/
def boxTexts : List String :=
  ["field Box.nothing \x7b \x7d", "field Query.home \x7b box \x7b nothing \x7d \x7d", "entrypoint Query.home"]

/-- What a run on the box gives. -/
def boxOutput : CompilationOutput :=
  (produce .standard boxDocument (.ofLiterals boxTexts)).toOption.getD ⟨default, [], [], []⟩

theorem emptySets_of_produce_box :
    ∃ out, produce .standard boxDocument (.ofLiterals boxTexts) = .ok out ∧
      ∃ e ∈ out.entrypoints, ∃ f ∈ ((parsedOf boxTexts).resolution out.schema).fields,
        SetAt e.operation.selections [.linked "box" []] [] ∧
        ∃ q, [.linked "box" []] = fetchPath out.schema f.parent ++ q ∧
          Starves out.schema ((parsedOf boxTexts).resolution out.schema) (.symbolic f.variableDefinitions)
            f.selections q := by
  have facts : (produce .standard boxDocument (.ofLiterals boxTexts)).isOk = true ∧
      (parseLiterals .standard (.ofLiterals boxTexts)).isOk = true ∧
      (boxOutput.entrypoints.any fun e => e.operation.selections.any fun entry =>
        entry.2.segment = .linked "box" [] && entry.2.inner?.any List.isEmpty) = true := by
    decide +kernel
  have run := eq_ok_getD _ ⟨default, [], [], []⟩ facts.1
  have parsed := parseLiterals_parsedOf boxTexts facts.2.1
  obtain ⟨e, emitted, empty⟩ := List.any_eq_true.1 facts.2.2
  obtain ⟨entry, member, empty⟩ := List.any_eq_true.1 empty
  rw [Bool.and_eq_true, decide_eq_true_eq] at empty
  obtain ⟨inner, leads, none⟩ := (Option.any_eq_true _ _).1 empty.2
  rw [List.isEmpty_iff] at none
  have at_ : SetAt e.operation.selections [.linked "box" []] [] := empty.1 ▸ .inside member leads (none ▸ .here)
  obtain ⟨⟨f, listed, -, -, sets⟩, -⟩ := emptySets_of_produce run parsed emitted
  obtain ⟨q, same, starves, -⟩ := sets.only _ at_
  exact ⟨_, run, e, emitted, f, listed, at_, q, same, starves⟩

/-- Runs without errors that print empty braces: for a field that reads nothing, and for the box. -/
theorem empty_braces_emitted :
    (produce .standard boxDocument (.ofLiterals ["field Query.home \x7b \x7d", "entrypoint Query.home"])).toOption.map
        (fun out => (out.diagnostics.hasErrors, out.operations.map (·.text .pretty))) =
      some (false, ["query home \x7b\n\x7d\n"]) ∧
    (produce .standard boxDocument (.ofLiterals boxTexts)).toOption.map
        (fun out => (out.diagnostics.hasErrors, out.operations.map (·.text .pretty))) =
      some (false, ["query home \x7b\n  box \x7b\n  \x7d\n\x7d\n"]) := by
  decide +kernel

end IsoLiteral
