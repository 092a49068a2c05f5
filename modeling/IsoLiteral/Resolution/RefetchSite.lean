import IsoLiteral.Resolution.Basic

/-!
# Refetch sites

A selection that needs a query of its own to be requested again: `__refetch` requests the set it
stands in, and a pointer requests what is selected through it. The sites of a field are numbered in
the order in which its reader comes to them.
-/

namespace IsoLiteral

/-- The variable that holds a record's id in the query that requests the record again. A field that
can be requested again may not declare it. -/
def refetchIdVariable : String := "id"

/-- What makes a selection a refetch site. -/
inductive RefetchReason where
  /-- The record of the enclosing set is requested again. -/
  | refetch
  /-- The record that a pointer computes is requested. -/
  | pointer
deriving DecidableEq, Repr

/-- The name of a reason. -/
def RefetchReason.text : RefetchReason → String
  | refetch => "refetch"
  | pointer => "pointer"

/-- What is requested at a site, and on which type. -/
structure RefetchSite where
  /-- The number that the reader of the field gives the site. -/
  index : Nat
  reason : RefetchReason
  type : TypeId
  selections : List ResolvedSelection
deriving Repr

mutual
/-- Adds the sites of a selection in the set `whole` on the type `parent`. -/
def collectSite (parent : TypeId) (whole : List ResolvedSelection) (sites : List RefetchSite) :
    ResolvedSelection → List RefetchSite
  | .linked _ target _ _ nested => collectSites target nested sites nested
  | .pointer _ target nested =>
    collectSites target nested (sites ++ [⟨sites.length, .pointer, target, nested⟩]) nested
  | .resolver _ .refetchAction none => sites ++ [⟨sites.length, .refetch, parent, whole⟩]
  | .resolver _ _ _ | .scalar _ _ | .link _ => sites
termination_by structural s => s
/-- Adds the sites of some selections in the set `whole` on the type `parent`. -/
def collectSites (parent : TypeId) (whole : List ResolvedSelection) (sites : List RefetchSite) :
    List ResolvedSelection → List RefetchSite
  | [] => sites
  | s :: rest => collectSites parent whole (collectSite parent whole sites s) rest
termination_by structural ss => ss
end

/-- The refetch sites of a selection set on a type, in the order of the reader. -/
def refetchSites (parent : TypeId) (selections : List ResolvedSelection) : List RefetchSite :=
  collectSites parent selections [] selections

end IsoLiteral
