import IsoLiteral.Proofs.Operation.Closed
import IsoLiteral.Proofs.Operation.Commuting
import IsoLiteral.Proofs.Operation.Planned
import IsoLiteral.Proofs.Operation.Reads
import IsoLiteral.Proofs.Operation.Sets

/-!
# Inlining ends

Merging goes into what is selected inside a link, and into the selections of every field that it inlines. It
does not remember where it has been, so nothing but the check for cycles keeps it from going on forever. Here
it is stated without any bound: `Calls` says which calls a call makes, and `Merges` is a run of the recursion
that has come to its end. After the check the fields along any chain of calls are different (`Within`), so the
calls are well founded, every call has exactly one result, and that is what the library computes with a depth
of as many fields as there are.
-/

namespace IsoLiteral

open Relation MergedSet

variable {g : SchemaGraph} {r : Resolution}

/-! ## Calls -/

/-- What merging is called with besides the set to merge into. -/
structure MergeCall where
  parent : TypeId
  context : VariableContext
  selections : List ResolvedSelection

/-- A call, the field that is inlined by calling another, if any, and that other call. -/
inductive Calls (r : Resolution) : MergeCall → Option FieldId → MergeCall → Prop where
  | linked {parent c selections head target inlineFragment updatable nested}
      (member : .linked head target inlineFragment updatable nested ∈ selections) :
      Calls r ⟨parent, c, selections⟩ none ⟨target, c, nested⟩
  | inlined {parent c selections s f} (member : s ∈ selections) (refers : s.isReference = true)
      (resolved : r.field? s.head.field = some f) :
      Calls r ⟨parent, c, selections⟩ (some f.field)
        ⟨parent, c.child f.variableDefinitions s.head.arguments, f.selections⟩

/-- One call is made by another. -/
def CalledBy (r : Resolution) (callee call : MergeCall) : Prop := ∃ field, Calls r call field callee

/-- A chain of calls, with the fields that are inlined along it, the innermost first. -/
inductive CallChain (r : Resolution) (start : MergeCall) : List FieldId → MergeCall → Prop where
  | refl : CallChain r start [] start
  | step {inlined call field callee} (chain : CallChain r start inlined call)
      (calls : Calls r call field callee) : CallChain r start (field.toList ++ inlined) callee

/-! ## Fields that merging is inside of -/

/-- Merging of some selections may be inside of some fields: they are different, and each of them leads to
whatever the selections refer to. -/
structure Within (r : Resolution) (outer : List FieldId) (selections : List ResolvedSelection) : Prop where
  nodup : outer.Nodup
  resolved : ∀ f ∈ outer, (r.field? f).isSome
  leads : ∀ s, Occurs s selections → s.isReference = true → (r.field? s.head.field).isSome →
    ∀ f ∈ outer, TransGen (Refers r) f s.head.field

namespace Within

variable {outer : List FieldId} {selections : List ResolvedSelection} {f : ResolvedField}

/-- Any selections may be where merging starts. -/
theorem start (r : Resolution) (selections : List ResolvedSelection) : Within r [] selections :=
  ⟨.nil, nofun, fun _ _ _ _ => nofun⟩

/-- Merging of what is selected in a field, at any depth, is inside of that field. -/
theorem of_field (found : r.field? f.field = some f)
    (inside : ∀ s, Occurs s selections → Occurs s f.selections) : Within r [f.field] selections where
  nodup := List.nodup_singleton _
  resolved := List.forall_mem_singleton.2 (by rw [found]; rfl)
  leads s occurs refers resolved :=
    List.forall_mem_singleton.2 (.single ⟨resolved, s, f, found, inside s occurs, refers, rfl⟩)

/-- No field that merging is inside of is inlined again: it would lead to itself. -/
theorem inlined (acyclic : ∀ f, ¬ TransGen (Refers r) f f) (h : Within r outer selections)
    {s : ResolvedSelection} (occurs : Occurs s selections) (refers : s.isReference = true)
    (found : r.field? s.head.field = some f) : Within r (f.field :: outer) f.selections := by
  obtain ⟨-, own⟩ := Resolution.field_of_field? found
  have here : r.field? f.field = some f := own ▸ found
  have leads : ∀ x ∈ outer, TransGen (Refers r) x f.field := by
    rw [own]
    exact h.leads s occurs refers (by rw [found]; rfl)
  refine ⟨List.nodup_cons.2 ⟨fun known => acyclic _ (leads _ known), h.nodup⟩, ?_, ?_⟩
  · exact List.forall_mem_cons.2 ⟨by rw [here]; rfl, h.resolved⟩
  · intro t inner refers' resolved
    have step : Refers r f.field t.head.field := ⟨resolved, t, f, here, inner, refers', rfl⟩
    exact List.forall_mem_cons.2 ⟨.single step, fun x known => (leads x known).tail step⟩

/-- **One call further in**, merging is inside of what it was inside of and of the field that is inlined. -/
theorem calls (acyclic : ∀ f, ¬ TransGen (Refers r) f f) {call callee : MergeCall} {field : Option FieldId}
    (h : Within r outer call.selections) (calls : Calls r call field callee) :
    Within r (field.toList ++ outer) callee.selections := by
  cases calls with
  | linked member => exact { h with leads := fun s occurs => h.leads s (.linked member occurs) }
  | inlined member refers found => exact h.inlined acyclic (.here member) refers found

theorem callChain (acyclic : ∀ f, ¬ TransGen (Refers r) f f) {start call : MergeCall} {inlined : List FieldId}
    (h : Within r outer start.selections) (chain : CallChain r start inlined call) :
    Within r (inlined ++ outer) call.selections := by
  induction chain with
  | refl => exact h
  | step _ calls ih =>
    rw [List.append_assoc]
    exact ih.calls acyclic calls

/-- Merging is never inside of more fields than there are. -/
theorem length_le (h : Within r outer selections) : outer.length ≤ r.fields.length :=
  length_le_of_resolved h.nodup h.resolved

end Within

/-! ## Calls are well founded -/

/-- Inside links a call ends, if the calls for the fields that are inlined on the way do. -/
theorem acc_of_references (selections : List ResolvedSelection)
    (references : ∀ s f, Occurs s selections → s.isReference = true → r.field? s.head.field = some f →
      ∀ parent c, Acc (CalledBy r) ⟨parent, c, f.selections⟩) (parent : TypeId) (c : VariableContext) :
    Acc (CalledBy r) ⟨parent, c, selections⟩ := by
  refine ⟨_, ?_⟩
  rintro callee ⟨field, calls⟩
  cases calls with
  | linked member =>
    rename_i head target inlineFragment updatable nested
    have smaller : sizeOf nested < sizeOf selections :=
      Nat.lt_trans (by simp +arith) (List.sizeOf_lt_of_mem member)
    exact acc_of_references nested (fun s f occurs => references s f (.linked member occurs)) target c
  | inlined member refers found => exact references _ _ (.here member) refers found _ _
termination_by sizeOf selections

/-- A call ends if there are no more fields left to inline than `room`. -/
theorem acc_of_within (acyclic : ∀ f, ¬ TransGen (Refers r) f f) (room : Nat) {outer : List FieldId}
    {selections : List ResolvedSelection} (within : Within r outer selections)
    (few : r.fields.length ≤ room + outer.length) (parent : TypeId) (c : VariableContext) :
    Acc (CalledBy r) ⟨parent, c, selections⟩ := by
  induction room generalizing outer selections parent c with
  | zero =>
    refine acc_of_references selections (fun s f occurs refers found => ?_) parent c
    have more := (within.inlined acyclic occurs refers found).length_le
    rw [List.length_cons] at more
    omega
  | succ room ih =>
    refine acc_of_references selections (fun s f occurs refers found => ?_) parent c
    refine ih (within.inlined acyclic occurs refers found) ?_
    rw [List.length_cons]
    omega

theorem wellFounded_calledBy (acyclic : ∀ f, ¬ TransGen (Refers r) f f) : WellFounded (CalledBy r) :=
  ⟨fun ⟨parent, c, selections⟩ =>
    acc_of_within acyclic r.fields.length (.start r selections) (Nat.le_add_right _ _) parent c⟩

/-! ## The depth is enough -/

section Depth

variable {expand expand' : Expansion}

mutual
theorem requestsOf_congr (s : ResolvedSelection) {parent : TypeId} {c : VariableContext}
    (same : ∀ t, Occurs t [s] → t.isReference = true → ∀ parent c, expand parent c t.head = expand' parent c t.head) :
    requestsOf g expand parent c s = requestsOf g expand' parent c s := by
  cases s with
  | scalar head updatable => rw [requestsOf, requestsOf]
  | link head => rw [requestsOf, requestsOf]
  | resolver head kind loadable =>
    cases loadable with
    | some options => rw [requestsOf, requestsOf]
    | none =>
      rw [requestsOf, requestsOf]
      exact same _ (.here List.mem_cons_self) rfl _ _
  | pointer head target nested =>
    rw [requestsOf, requestsOf]
    exact same _ (.here List.mem_cons_self) rfl _ _
  | linked head target inlineFragment updatable nested =>
    rw [requestsOf, requestsOf, requestsOfAll_congr nested fun t occurs =>
      same t (.linked List.mem_cons_self occurs)]
/-- Selections ask for the same if the same is asked for in place of what they refer to. -/
theorem requestsOfAll_congr (selections : List ResolvedSelection) {parent : TypeId} {c : VariableContext}
    (same : ∀ t, Occurs t selections → t.isReference = true →
      ∀ parent c, expand parent c t.head = expand' parent c t.head) :
    requestsOfAll g expand parent c selections = requestsOfAll g expand' parent c selections := by
  cases selections with
  | nil => rw [requestsOfAll, requestsOfAll]
  | cons s rest =>
    rw [requestsOfAll, requestsOfAll, requestsOf_congr s fun t occurs => same t (occurs.mono (by simp)),
      requestsOfAll_congr rest fun t occurs => same t (occurs.mono (by simp +contextual))]
end

/-- More depth than there are fields left to inline makes no difference. -/
theorem requestsOfAll_depth (acyclic : ∀ f, ¬ TransGen (Refers r) f f) (depth : Nat) {depth' : Nat}
    {outer : List FieldId} {selections : List ResolvedSelection} (within : Within r outer selections)
    (enough : r.fields.length ≤ depth + outer.length) (enough' : r.fields.length ≤ depth' + outer.length)
    (parent : TypeId) (c : VariableContext) :
    requestsOfAll g (expandField g r depth) parent c selections =
      requestsOfAll g (expandField g r depth') parent c selections := by
  induction depth generalizing depth' outer selections parent c with
  | zero =>
    refine requestsOfAll_congr selections fun s occurs refers parent c => ?_
    cases found : r.field? s.head.field with
    | none => cases depth' <;> simp [expandField, found]
    | some f =>
      have more := (within.inlined acyclic occurs refers found).length_le
      rw [List.length_cons] at more
      omega
  | succ depth ih =>
    refine requestsOfAll_congr selections fun s occurs refers parent c => ?_
    cases found : r.field? s.head.field with
    | none => cases depth' <;> simp [expandField, found]
    | some f =>
      have inside := within.inlined acyclic occurs refers found
      have more := inside.length_le
      rw [List.length_cons] at more
      obtain ⟨less, rfl⟩ : ∃ less, depth' = less + 1 := ⟨depth' - 1, by omega⟩
      rw [expandField, expandField, found]
      refine ih inside ?_ ?_ _ _ <;> rw [List.length_cons] <;> omega

/-- **Without a bound**: in place of a selected field stands what its own selections ask for. -/
theorem expandField_length (acyclic : ∀ f, ¬ TransGen (Refers r) f f) (parent : TypeId) (c : VariableContext)
    (head : SelectionHead) :
    expandField g r r.fields.length parent c head =
      match r.field? head.field with
      | none => []
      | some f => requests g r parent (c.child f.variableDefinitions head.arguments) f.selections := by
  cases found : r.field? head.field with
  | none => cases r.fields.length <;> simp [expandField, found]
  | some f =>
    obtain ⟨listed, own⟩ := Resolution.field_of_field? found
    obtain ⟨depth, more⟩ : ∃ depth, r.fields.length = depth + 1 :=
      ⟨r.fields.length - 1, by have := List.length_pos_of_mem listed; omega⟩
    have within : Within r [f.field] f.selections := .of_field (own ▸ found) fun _ occurs => occurs
    rw [more, expandField, found]
    exact requestsOfAll_depth acyclic depth within (by simp [more]) (by simp) _ _

end Depth

/-! ## Runs of the recursion -/

/-- What an update finds under a key. -/
def MergedSet.standing (key : SelectionKey) (fresh : MergedSelection) : MergedSet → MergedSelection
  | [] => fresh
  | (k, m) :: rest =>
    match key.compare k with
    | .lt => fresh
    | .eq => m
    | .gt => standing key fresh rest

/-- Only the change of what is found matters for an update. -/
theorem MergedSet.update_eq_of_standing {key : SelectionKey} {fresh : MergedSelection} {set : MergedSet}
    {change change' : MergedSelection → MergedSelection}
    (same : change (standing key fresh set) = change' (standing key fresh set)) :
    update key fresh change set = update key fresh change' set := by
  induction set with
  | nil =>
    rw [standing] at same
    rw [update, update, same]
  | cons entry rest ih =>
    obtain ⟨k, m⟩ := entry
    cases order : key.compare k with
    | lt =>
      simp only [standing, order] at same
      simp only [update, order, same]
    | eq =>
      simp only [standing, order] at same
      simp only [update, order, same]
    | gt =>
      simp only [standing, order] at same
      simp only [update, order, ih same]

/-- What is put inside a selection, if anything can be, may be computed from what is there. -/
theorem MergedSelection.mapSelections_eq_of_inner? {m : MergedSelection} {grow grow' : MergedSet → MergedSet}
    (same : ∀ before ∈ m.inner?, grow before = grow' before) : m.mapSelections grow = m.mapSelections grow' := by
  cases m with
  | scalar fieldName arguments => rfl
  | linked fieldName arguments concreteType selections => rw [mapSelections, mapSelections, same _ rfl]
  | inlineFragment typeName selections => rw [mapSelections, mapSelections, same _ rfl]

/-- An update that merges inside a selection only depends on what is merged into what stands there. -/
theorem MergedSet.update_mapSelections_congr {key : SelectionKey} {fresh : MergedSelection} {set : MergedSet}
    {grow grow' : MergedSet → MergedSet}
    (same : ∀ before ∈ (standing key fresh set).inner?, grow before = grow' before) :
    update key fresh (MergedSelection.mapSelections grow) set =
      update key fresh (MergedSelection.mapSelections grow') set :=
  update_eq_of_standing (MergedSelection.mapSelections_eq_of_inner? same)

/-- Merging selections into a set has come to an end with a result. There is one rule for each form of a
selection; the selections of a field are merged where the field is inlined, with no bound on how often. -/
inductive Merges (g : SchemaGraph) (r : Resolution) :
    TypeId → VariableContext → List ResolvedSelection → MergedSet → MergedSet → Prop where
  | done {parent c set} : Merges g r parent c [] set set
  | scalar {parent c head updatable rest set out}
      (later : Merges g r parent c rest
        (insertNew (g.scalarKey parent head (c.bindArguments head.arguments))
          (.scalar head.fieldName (c.bindArguments head.arguments)) set) out) :
      Merges g r parent c (.scalar head updatable :: rest) set out
  /-- If something else than a link stands under the key, nothing is merged into it. -/
  | linked {parent c head target updatable nested rest set after out key fresh}
      (isKey : key = .serverField head.fieldName (c.bindArguments head.arguments))
      (isFresh : fresh = .linked head.fieldName (c.bindArguments head.arguments) (g.concreteType? target) [])
      (inside : ∀ before ∈ (standing key fresh set).inner?, Merges g r target c nested before after)
      (later : Merges g r parent c rest
        (update key fresh
          (MergedSelection.mapSelections fun _ => complete g target (g.type target).kind.isAbstract after)
          set) out) :
      Merges g r parent c (.linked head target false updatable nested :: rest) set out
  | fragment {parent c head target updatable nested rest set after out key fresh}
      (isKey : key = .inlineFragment (g.typeName target))
      (isFresh : fresh = .inlineFragment (g.typeName target) [])
      (inside : ∀ before ∈ (standing key fresh set).inner?, Merges g r target c nested before after)
      (later : Merges g r parent c rest
        (update key fresh (MergedSelection.mapSelections fun _ => complete g target true after) set) out) :
      Merges g r parent c (.linked head target true updatable nested :: rest) set out
  | inlined {parent c s f rest set between out} (refers : s.isReference = true)
      (resolved : r.field? s.head.field = some f)
      (inside : Merges g r parent (c.child f.variableDefinitions s.head.arguments) f.selections set between)
      (later : Merges g r parent c rest between out) : Merges g r parent c (s :: rest) set out
  | unresolved {parent c s rest set out} (refers : s.isReference = true)
      (missing : r.field? s.head.field = none) (later : Merges g r parent c rest set out) :
      Merges g r parent c (s :: rest) set out
  | loadable {parent c head kind options rest set out} (later : Merges g r parent c rest set out) :
      Merges g r parent c (.resolver head kind (some options) :: rest) set out
  | link {parent c head rest set out} (later : Merges g r parent c rest set out) :
      Merges g r parent c (.link head :: rest) set out

/-- **There is at most one result.** -/
theorem Merges.unique {parent : TypeId} {c : VariableContext} {selections : List ResolvedSelection}
    {set out out' : MergedSet} (h : Merges g r parent c selections set out)
    (h' : Merges g r parent c selections set out') : out = out' := by
  induction h generalizing out' with
  | done =>
    cases h'
    rfl
  | scalar _ ih =>
    cases h' with
    | scalar later => exact ih later
    | inlined refers => cases refers
    | unresolved refers => cases refers
  | linked isKey isFresh _ _ ihInside ih =>
    cases h' with
    | linked isKey' isFresh' inside later =>
      subst isKey isFresh isKey' isFresh'
      refine ih ?_
      rwa [update_mapSelections_congr fun before found =>
        congrArg _ (ihInside before found (inside before found))]
    | inlined refers => cases refers
    | unresolved refers => cases refers
  | fragment isKey isFresh _ _ ihInside ih =>
    cases h' with
    | fragment isKey' isFresh' inside later =>
      subst isKey isFresh isKey' isFresh'
      refine ih ?_
      rwa [update_mapSelections_congr fun before found =>
        congrArg _ (ihInside before found (inside before found))]
    | inlined refers => cases refers
    | unresolved refers => cases refers
  | inlined refers resolved _ _ ihInside ih =>
    cases h' with
    | inlined refers' resolved' inside later =>
      obtain rfl := Option.some.inj (resolved.symm.trans resolved')
      obtain rfl := ihInside inside
      exact ih later
    | unresolved refers' missing =>
      rw [resolved] at missing
      cases missing
    | _ => cases refers
  | unresolved refers missing _ ih =>
    cases h' with
    | inlined refers' resolved =>
      rw [missing] at resolved
      cases resolved
    | unresolved _ _ later => exact ih later
    | _ => cases refers
  | loadable _ ih =>
    cases h' with
    | loadable later => exact ih later
    | inlined refers => cases refers
    | unresolved refers => cases refers
  | link _ ih =>
    cases h' with
    | link later => exact ih later
    | inlined refers => cases refers
    | unresolved refers => cases refers

section Total

variable {parent : TypeId} {c : VariableContext}

/-- Merging a link or fragment whose selections have been merged. -/
theorem update_mapSelections_eq {key : SelectionKey} {fresh : MergedSelection} {set : MergedSet}
    {grow finish : MergedSet → MergedSet} :
    update key fresh (MergedSelection.mapSelections fun inner => finish (grow inner)) set =
      update key fresh
        (MergedSelection.mapSelections fun _ => finish (grow ((standing key fresh set).inner?.getD []))) set := by
  refine update_mapSelections_congr fun before found => ?_
  rw [Option.mem_def.1 found, Option.getD_some]

/-- A selection after which merging goes on has a result if what it calls has, and that result is what is
computed. -/
theorem merges_cons (acyclic : ∀ f, ¬ TransGen (Refers r) f f) {s : ResolvedSelection}
    {rest : List ResolvedSelection}
    (callees : ∀ field callee, Calls r ⟨parent, c, [s]⟩ field callee → ∀ set,
      Merges g r callee.parent callee.context callee.selections set
        (mergeRequestsInto g (requests g r callee.parent callee.context callee.selections) set))
    (later : ∀ set, Merges g r parent c rest set (mergeRequestsInto g (requests g r parent c rest) set))
    (set : MergedSet) :
    Merges g r parent c (s :: rest) set (mergeRequestsInto g (requests g r parent c (s :: rest)) set) := by
  have split : mergeRequestsInto g (requests g r parent c (s :: rest)) set =
      mergeRequestsInto g (requests g r parent c rest)
        (mergeRequestsInto g (requestsOf g (expandField g r r.fields.length) parent c s) set) := by
    rw [requests, requestsOfAll, mergeRequestsInto_append]
    rfl
  have reference (refers : s.isReference = true) : Merges g r parent c (s :: rest) set
      (mergeRequestsInto g (requests g r parent c rest)
        (mergeRequestsInto g (requestsOf g (expandField g r r.fields.length) parent c s) set)) := by
    rw [requestsOf_of_isReference refers, expandField_length acyclic]
    cases found : r.field? s.head.field with
    | none =>
      rw [mergeRequestsInto]
      exact .unresolved refers found (later set)
    | some f => exact .inlined refers found (callees _ _ (.inlined List.mem_cons_self refers found) set) (later _)
  rw [split]
  cases s with
  | scalar head updatable =>
    rw [requestsOf, mergeRequestsInto, Request.mergeInto, mergeRequestsInto]
    exact .scalar (later _)
  | link head =>
    rw [requestsOf, mergeRequestsInto]
    exact .link (later set)
  | pointer head target nested => exact reference rfl
  | resolver head kind loadable =>
    cases loadable with
    | none => exact reference rfl
    | some options =>
      rw [requestsOf, mergeRequestsInto]
      exact .loadable (later set)
  | linked head target inlineFragment updatable nested =>
    have inside := callees _ _ (.linked List.mem_cons_self)
    have found {old : Option MergedSet} : ∀ before ∈ old, Merges g r target c nested before
        (mergeRequestsInto g (requests g r target c nested) (old.getD [])) := by
      intro before known
      rw [Option.mem_def.1 known]
      exact inside before
    rw [requestsOf]
    cases inlineFragment with
    | true =>
      rw [if_pos rfl, mergeRequestsInto, Request.mergeInto, mergeRequestsInto, update_mapSelections_eq]
      exact .fragment rfl rfl found (later _)
    | false =>
      rw [if_neg (by simp), mergeRequestsInto, Request.mergeInto, mergeRequestsInto, update_mapSelections_eq]
      exact .linked rfl rfl found (later _)

/-- **Every call has a result**, the one that is computed with a depth of as many fields as there are. -/
theorem merges_mergeRequestsInto (acyclic : ∀ f, ¬ TransGen (Refers r) f f) (call : MergeCall) :
    ∀ set, Merges g r call.parent call.context call.selections set
      (mergeRequestsInto g (requests g r call.parent call.context call.selections) set) := by
  induction call using (wellFounded_calledBy acyclic).induction with
  | _ call ih =>
    obtain ⟨parent, c, selections⟩ := call
    have each : ∀ rest : List ResolvedSelection, (∀ s ∈ rest, s ∈ selections) → ∀ set,
        Merges g r parent c rest set (mergeRequestsInto g (requests g r parent c rest) set) := by
      intro rest
      induction rest with
      | nil =>
        intro _ set
        rw [requests, requestsOfAll, mergeRequestsInto]
        exact .done
      | cons s rest later =>
        intro all
        refine merges_cons acyclic (fun field callee calls => ih callee ⟨field, ?_⟩)
          (later fun t member => all t (List.mem_cons_of_mem s member))
        have member := all s List.mem_cons_self
        cases calls with
        | linked here =>
          obtain rfl := List.mem_singleton.1 here
          exact .linked member
        | inlined here refers found =>
          obtain rfl := List.mem_singleton.1 here
          exact .inlined member refers found
    exact each selections fun _ member => member

theorem merges_mergeSelections (acyclic : ∀ f, ¬ TransGen (Refers r) f f) (parent : TypeId)
    (c : VariableContext) (selections : List ResolvedSelection) :
    Merges g r parent c selections [] (mergeSelections g r parent c selections) :=
  merges_mergeRequestsInto acyclic ⟨parent, c, selections⟩ []

end Total

/-! ## Assembly -/

theorem Occurs.exists_mem {s : ResolvedSelection} {selections : List ResolvedSelection}
    (h : Occurs s selections) : ∃ t ∈ selections, Occurs s [t] := by
  cases h with
  | here member => exact ⟨s, member, .here List.mem_cons_self⟩
  | linked member inside => exact ⟨_, member, .linked List.mem_cons_self inside⟩
  | pointer member inside => exact ⟨_, member, .pointer List.mem_cons_self inside⟩

/-- What is selected at a refetch site of a field is selected in the field. -/
theorem occurs_of_mem_refetchSites {parent : TypeId} {selections : List ResolvedSelection} {site : RefetchSite}
    (member : site ∈ refetchSites parent selections) {s : ResolvedSelection}
    (occurs : Occurs s site.selections) : Occurs s selections := by
  have single {t : ResolvedSelection} {nested : List ResolvedSelection} (member : t ∈ nested) :
      ∀ u ∈ [t], u ∈ nested := List.forall_mem_singleton.2 member
  have hereditary : Hereditary (fun _ => True) (fun _ t => ∀ s, Occurs s [t] → Occurs s selections) := {
    linked := fun own _ member s inside => own s (.linked List.mem_cons_self (inside.mono (single member)))
    pointer := fun own _ member s inside => own s (.pointer List.mem_cons_self (inside.mono (single member)))
    selectedOn := fun _ => trivial
    pointedTo := fun _ => trivial }
  obtain ⟨t, listed, inside⟩ := occurs.exists_mem
  exact (hereditary.of_mem_refetchSites (fun t member s inside => inside.mono (single member)) site member).2 t
    listed s inside

/-- The artifact of a plan holds what merging has come to: for the field that is fetched, and for every
refetch site that is come to when it is read. -/
structure Assembled (g : SchemaGraph) (r : Resolution) (plan : Plan) (e : EntrypointArtifact) : Prop where
  fetched : ∃ out, Merges g r plan.field.parent (.symbolic plan.field.variableDefinitions) plan.field.selections
    [] out ∧ e.operation.selections =
      if g.isRootType plan.field.parent then out else nodeWrapper g plan.field.parent out
  requested : List.Forall₂ (fun (site : ResolvedField × RefetchSite) (q : RefetchQuery) =>
    ∃ out, Merges g r site.2.type (.symbolic site.1.variableDefinitions) site.2.selections [] out ∧
      q.operation.selections = nodeWrapper g site.2.type out) (sitesFrom r plan.field.field) e.refetchQueries

theorem selections_fetchOperation (g : SchemaGraph) (r : Resolution) (name : String) (f : ResolvedField) :
    (fetchOperation g r name f).selections =
      if g.isRootType f.parent then
        mergeSelections g r f.parent (.symbolic f.variableDefinitions) f.selections
      else nodeWrapper g f.parent
        (mergeSelections g r f.parent (.symbolic f.variableDefinitions) f.selections) := by
  rw [fetchOperation, SchemaGraph.isRootType]
  cases g.operationKind? f.parent <;> rfl

theorem assembled_artifact (acyclic : ∀ f, ¬ TransGen (Refers r) f f) (plan : Plan) :
    Assembled g r plan (plan.artifact g r) where
  fetched := ⟨_, merges_mergeSelections acyclic _ _ _, selections_fetchOperation g r _ _⟩
  requested := by
    refine List.forall₂_iff_get.2 ⟨List.length_mapIdx.symm, fun k _ _ => ?_⟩
    refine ⟨_, merges_mergeSelections acyclic _ _ _, ?_⟩
    simp [Plan.artifact, refetchQueries, refetchOperation]

/-- **Assembly ends.** If the check for cycles passes, then the calls of merging are well founded: no field is
inlined twice along a chain of calls, and one that starts inside a field, with all that the field selects or
with what is selected at one of its refetch sites, never inlines that field. So every call has exactly one
result, whatever the variables stand for, and there is an artifact for every plan, which holds the results for
the fetched field and for every refetch site. -/
theorem assembled_of_checkCycles (acyclic : checkCycles g r = .ok ()) :
    WellFounded (CalledBy r) ∧
    (∀ start inlined call, CallChain r start inlined call → inlined.Nodup) ∧
    (∀ f, r.field? f.field = some f → ∀ selections, (selections = f.selections ∨
        ∃ site ∈ refetchSites f.parent f.selections, selections = site.selections) →
      ∀ parent c inlined call, CallChain r ⟨parent, c, selections⟩ inlined call → f.field ∉ inlined) ∧
    (∀ parent c selections set, ∃! out, Merges g r parent c selections set out) ∧
    ∃ artifacts, r.entrypointArtifacts g = .ok artifacts ∧
      List.Forall₂ (Assembled g r) (r.plans g) artifacts := by
  have noCycle := (checkCycles_eq_ok_iff g r).1 acyclic
  refine ⟨wellFounded_calledBy noCycle, ?_, ?_, ?_, ?_⟩
  · intro start inlined call chain
    have within := (Within.start r start.selections).callChain noCycle chain
    rw [List.append_nil] at within
    exact within.nodup
  · intro f found selections own parent c inlined call chain
    have inside : ∀ s, Occurs s selections → Occurs s f.selections := by
      rcases own with rfl | ⟨site, member, rfl⟩
      · exact fun _ occurs => occurs
      · exact fun _ => occurs_of_mem_refetchSites member
    have before : Within r [f.field] (MergeCall.mk parent c selections).selections := .of_field found inside
    have within := before.callChain noCycle chain
    exact fun again => (List.nodup_append.1 within.nodup).2.2 _ again _ List.mem_cons_self rfl
  · intro parent c selections set
    have merged := merges_mergeRequestsInto (g := g) noCycle ⟨parent, c, selections⟩ set
    exact ⟨_, merged, fun out other => other.unique merged⟩
  · refine ⟨(r.plans g).map (·.artifact g r), entrypointArtifacts_eq_ok_iff.2 ⟨acyclic, rfl⟩, ?_⟩
    exact List.forall₂_map_right_iff.2 (List.forall₂_same.2 fun plan _ => assembled_artifact noCycle plan)

theorem assembled_of_checkCycles_card :
    ∃ artifacts,
      requestedResolution.entrypointArtifacts (userGraph sizeArgument [] requestedTexts) = .ok artifacts ∧
      List.Forall₂ (Assembled (userGraph sizeArgument [] requestedTexts) requestedResolution)
        (requestedResolution.plans (userGraph sizeArgument [] requestedTexts)) artifacts ∧
      artifacts.map (·.refetchQueries.length) = [1] := by
  obtain ⟨-, -, -, -, artifacts, run, assembled⟩ := assembled_of_checkCycles acyclic_requestedResolution
  have requested : (requestedResolution.entrypointArtifacts
      (userGraph sizeArgument [] requestedTexts)).toOption.map (·.map (·.refetchQueries.length)) =
        some [1] := by
    decide +kernel
  rw [run] at requested
  exact ⟨artifacts, run, assembled, Option.some.inj requested⟩

end IsoLiteral
