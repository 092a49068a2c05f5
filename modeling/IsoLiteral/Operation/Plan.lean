import IsoLiteral.Operation.Reference

/-!
# Planned operations

One operation is planned for each declared entrypoint, and one for each field that is selected as
loadable while a planned field is read.
-/

namespace IsoLiteral

mutual
/-- The loadable selections in a selection, each as its field and options. -/
def loadablesOf : ResolvedSelection → List (FieldId × LoadableOptions)
  | .linked _ _ _ _ nested => loadablesOfAll nested
  | .pointer _ _ nested => loadablesOfAll nested
  | .resolver head _ (some options) => [(head.field, options)]
  | .resolver _ _ none | .scalar _ _ | .link _ => []
termination_by structural s => s
/-- The loadable selections in selections. -/
def loadablesOfAll : List ResolvedSelection → List (FieldId × LoadableOptions)
  | [] => []
  | s :: rest => loadablesOf s ++ loadablesOfAll rest
termination_by structural ss => ss
end

/-- The resolved fields whose readers run when a field is read, that field first. -/
def Resolution.readers (r : Resolution) (field : FieldId) : List ResolvedField :=
  (r.references.readerClosure field).filterMap r.field?

/-- The loadable selections of resolved fields that are come to when a field is read. -/
def Resolution.loadables (r : Resolution) (field : FieldId) : List (FieldId × LoadableOptions) :=
  ((r.readers field).flatMap fun f => loadablesOfAll f.selections).filter fun (id, _) =>
    (r.field? id).isSome

/-- A field to fetch, with the name of its operation and the way it is shipped. -/
structure Plan where
  field : ResolvedField
  queryName : String
  lazyLoad : LazyLoad
deriving Repr

/-- Changes the plan of a field. A field without a plan is given one first, which comes last. -/
def alterPlan (id : FieldId) (fresh : Plan) (change : Plan → Plan) : List Plan → List Plan
  | [] => [change fresh]
  | p :: rest =>
    if p.field.field = id then change p :: rest else p :: alterPlan id fresh change rest

/-- Plans a declared entrypoint, if its field is resolved. It is named for its field, and replaces a plan that the
field has. -/
def planDeclared (g : SchemaGraph) (r : Resolution) (plans : List Plan) (e : ResolvedEntrypoint) : List Plan :=
  match r.field? e.field with
  | none => plans
  | some f =>
    let plan : Plan := ⟨f, g.fieldName e.field, e.lazyLoad⟩
    alterPlan e.field plan (fun _ => plan) plans

/-- Plans a field that is selected as loadable, if it has no plan. Such a field is named for its type, too. Its
reader is shipped apart if one of the selections asks for that. -/
def planLoadable (g : SchemaGraph) (r : Resolution) (plans : List Plan)
    (loadable : FieldId × LoadableOptions) : List Plan :=
  match r.field? loadable.1 with
  | none => plans
  | some f =>
    alterPlan loadable.1 ⟨f, g.typeName f.parent ++ "__" ++ g.fieldName f.field, .none⟩
      (fun p => { p with lazyLoad := { p.lazyLoad with
        reader := p.lazyLoad.reader || loadable.2.lazyLoadArtifact } }) plans

/-- Plans whatever planned fields select as loadable, from the plan at `next` on. Every round finishes one plan,
so the number of resolved fields bounds the rounds. -/
def planFrom (g : SchemaGraph) (r : Resolution) : Nat → Nat → List Plan → List Plan
  | 0, _, plans => plans
  | rounds + 1, next, plans =>
    match plans[next]? with
    | none => plans
    | some plan => planFrom g r rounds (next + 1) ((r.loadables plan.field.field).foldl (planLoadable g r) plans)

/-- All plans of a run: those of the declared entrypoints, then those of the fields reached as loadable. -/
def Resolution.plans (r : Resolution) (g : SchemaGraph) : List Plan :=
  planFrom g r r.fields.length 0 (r.entrypoints.foldl (planDeclared g r) [])

end IsoLiteral
