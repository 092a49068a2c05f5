import IsoLiteral.Resolution.RefetchSite
import Mathlib.Tactic

/-!
# The numbers of refetch sites

A site gets the number of sites before it. So the sites of a selection depend on those that were collected before
only through how many these are, and the number of every site of a field is its place among them.
-/

namespace IsoLiteral

mutual
/-- The sites of a selection, the first of which has the number `next`. -/
def sitesOfSelection (parent : TypeId) (whole : List ResolvedSelection) (next : Nat) :
    ResolvedSelection → List RefetchSite
  | .linked _ target _ _ nested => sitesOfSelections target nested next nested
  | .pointer _ target nested =>
    ⟨next, .pointer, target, nested⟩ :: sitesOfSelections target nested (next + 1) nested
  | .resolver _ .refetchAction none => [⟨next, .refetch, parent, whole⟩]
  | .resolver _ _ _ | .scalar _ _ | .link _ => []
termination_by structural s => s
/-- The sites of some selections in the set `whole`, the first of which has the number `next`. -/
def sitesOfSelections (parent : TypeId) (whole : List ResolvedSelection) (next : Nat) :
    List ResolvedSelection → List RefetchSite
  | [] => []
  | s :: rest =>
    let first := sitesOfSelection parent whole next s
    first ++ sitesOfSelections parent whole (next + first.length) rest
termination_by structural ss => ss
end

mutual
theorem collectSite_eq (parent : TypeId) (whole : List ResolvedSelection) (sites : List RefetchSite)
    (s : ResolvedSelection) :
    collectSite parent whole sites s = sites ++ sitesOfSelection parent whole sites.length s := by
  cases s with
  | scalar head updatable => rw [collectSite, sitesOfSelection, List.append_nil]
  | link head => rw [collectSite, sitesOfSelection, List.append_nil]
  | linked head target inlineFragment updatable nested =>
    rw [collectSite, sitesOfSelection, collectSites_eq]
  | pointer head target nested =>
    rw [collectSite, sitesOfSelection, collectSites_eq, List.length_append, List.length_singleton,
      List.append_assoc, List.singleton_append]
  | resolver head kind loadable =>
    cases loadable with
    | some options => cases kind <;> exact (List.append_nil sites).symm
    | none =>
      cases kind with
      | refetchAction => rfl
      | component | eager | loadableAction => exact (List.append_nil sites).symm
/-- Collecting appends the sites of the selections, numbered on. -/
theorem collectSites_eq (parent : TypeId) (whole : List ResolvedSelection) (sites : List RefetchSite)
    (selections : List ResolvedSelection) :
    collectSites parent whole sites selections =
      sites ++ sitesOfSelections parent whole sites.length selections := by
  cases selections with
  | nil => rw [collectSites, sitesOfSelections, List.append_nil]
  | cons s rest =>
    rw [collectSites, sitesOfSelections, collectSites_eq, collectSite_eq, List.length_append, List.append_assoc]
end

theorem refetchSites_eq (parent : TypeId) (selections : List ResolvedSelection) :
    refetchSites parent selections = sitesOfSelections parent selections 0 selections :=
  collectSites_eq parent selections [] selections

mutual
theorem map_index_sitesOfSelection (parent : TypeId) (whole : List ResolvedSelection) (next : Nat)
    (s : ResolvedSelection) :
    (sitesOfSelection parent whole next s).map (·.index) =
      List.range' next (sitesOfSelection parent whole next s).length := by
  cases s with
  | scalar head updatable => rfl
  | link head => rfl
  | linked head target inlineFragment updatable nested =>
    rw [sitesOfSelection, map_index_sitesOfSelections]
  | pointer head target nested =>
    rw [sitesOfSelection, List.map_cons, map_index_sitesOfSelections, List.length_cons, List.range'_succ]
  | resolver head kind loadable => cases kind <;> cases loadable <;> rfl
/-- The sites count up. -/
theorem map_index_sitesOfSelections (parent : TypeId) (whole : List ResolvedSelection) (next : Nat)
    (selections : List ResolvedSelection) :
    (sitesOfSelections parent whole next selections).map (·.index) =
      List.range' next (sitesOfSelections parent whole next selections).length := by
  cases selections with
  | nil => rfl
  | cons s rest =>
    rw [sitesOfSelections, List.map_append, map_index_sitesOfSelection, map_index_sitesOfSelections,
      List.range'_append_1, List.length_append]
end

theorem map_index_refetchSites (parent : TypeId) (selections : List ResolvedSelection) :
    (refetchSites parent selections).map (·.index) = List.range (refetchSites parent selections).length := by
  rw [refetchSites_eq, map_index_sitesOfSelections, List.range_eq_range']

/-- The number of a site is its place. -/
theorem index_of_getElem?_refetchSites {parent : TypeId} {selections : List ResolvedSelection} {place : Nat}
    {site : RefetchSite} (here : (refetchSites parent selections)[place]? = some site) : site.index = place := by
  have numbers := congrArg (·[place]?) (map_index_refetchSites parent selections)
  obtain ⟨within, -⟩ := List.getElem?_eq_some_iff.1 here
  simpa [here, List.getElem?_range within] using numbers

theorem getElem?_index_of_mem_refetchSites {parent : TypeId} {selections : List ResolvedSelection}
    {site : RefetchSite} (member : site ∈ refetchSites parent selections) :
    (refetchSites parent selections)[site.index]? = some site := by
  obtain ⟨place, here⟩ := List.mem_iff_getElem?.1 member
  rwa [index_of_getElem?_refetchSites here]

end IsoLiteral
