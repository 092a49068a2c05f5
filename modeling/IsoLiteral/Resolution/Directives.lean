import IsoLiteral.Declaration.Basic
import IsoLiteral.Diagnostic.Basic
import IsoLiteral.Text.Join

/-!
# Directives

Five directives are known. Each may stand at some positions, takes some flags as arguments and
excludes some other directives. A list of directives is checked against these rules as a whole, and
what it asks for is read off the first occurrence of each known directive.
-/

namespace IsoLiteral

/-- Where a directive may stand. -/
inductive DirectivePosition where
  | fieldDeclaration
  | pointerDeclaration
  | entrypointDeclaration
  | scalarSelection
  | linkedSelection
  | resolverSelection
  | pointerSelection
  | linkSelection
deriving DecidableEq, Repr

/-- What stands at a position, in the plural. -/
def DirectivePosition.text : DirectivePosition → String
  | fieldDeclaration => "field declarations"
  | pointerDeclaration => "pointer declarations"
  | entrypointDeclaration => "entrypoint declarations"
  | scalarSelection => "scalar selections"
  | linkedSelection => "linked selections"
  | resolverSelection => "resolver selections"
  | pointerSelection => "pointer selections"
  | linkSelection => "link selections"

/-- The directives with a meaning. -/
inductive KnownDirective where
  | component
  | eager
  | loadable
  | updatable
  | lazyLoad
deriving DecidableEq, Repr

namespace KnownDirective

/-- All of them. -/
def all : List KnownDirective := [component, eager, loadable, updatable, lazyLoad]

/-- The name after the `@`. -/
def name : KnownDirective → String
  | component => "component"
  | eager => "eager"
  | loadable => "loadable"
  | updatable => "updatable"
  | lazyLoad => "lazyLoad"

/-- The directive with a name. -/
def ofName? (name : String) : Option KnownDirective := all.find? (·.name = name)

/-- The positions where the directive is allowed. -/
def positions : KnownDirective → List DirectivePosition
  | component | eager => [.fieldDeclaration]
  | loadable => [.fieldDeclaration, .resolverSelection]
  | updatable => [.scalarSelection, .linkedSelection]
  | lazyLoad => [.entrypointDeclaration]

/-- The names of the directive's arguments, each of which is a Boolean. -/
def flags : KnownDirective → List String
  | loadable => ["lazyLoadArtifact"]
  | lazyLoad => ["reader", "normalization"]
  | component | eager | updatable => []

/-- The directives that may not accompany it. -/
def excludes : KnownDirective → List KnownDirective
  | component => [eager, loadable]
  | eager => [component, loadable]
  | loadable => [updatable, component, eager]
  | updatable => [loadable]
  | lazyLoad => []

/-- Whether one of two directives excludes the other. -/
def conflictsWith (a b : KnownDirective) : Bool := b ∈ a.excludes || a ∈ b.excludes

/-- The name as it is shown in messages. -/
def shown (known : KnownDirective) : String := "`@" ++ known.name ++ "`"

/-- Where the directive is allowed, as a hint. -/
def positionsHint (known : KnownDirective) : String :=
  known.shown ++ " is allowed on " ++
    Text.joinWith " and " (known.positions.map DirectivePosition.text)

/-- Which arguments the directive takes, as a hint. -/
def flagsHint (known : KnownDirective) : String :=
  if known.flags.isEmpty then known.shown ++ " takes no arguments"
  else known.shown ++ " accepts " ++ Text.joinWith ", " (known.flags.map fun f => "`" ++ f ++ "`")

end KnownDirective

/-! ## What directives ask for -/

/-- The options of a loadable field or selection. -/
structure LoadableOptions where
  /-- Whether the loaded field's reader artifact is shipped apart from that of the parent. -/
  lazyLoadArtifact : Bool
deriving DecidableEq, Repr

/-- Which artifacts of an entrypoint are fetched on demand. -/
structure LazyLoad where
  reader : Bool
  normalization : Bool
deriving DecidableEq, Repr

/-- Everything is fetched at once. -/
def LazyLoad.none : LazyLoad := ⟨false, false⟩

/-- What a list of directives asks for. -/
structure AppliedDirectives where
  component : Bool
  eager : Bool
  loadable : Option LoadableOptions
  updatable : Bool
  lazyLoad : Option LazyLoad
deriving DecidableEq, Repr

/-- The first occurrence of each known directive that is not in `seen`, in order. -/
def firstOccurrences (seen : List KnownDirective) :
    List Directive → List (KnownDirective × Directive)
  | [] => []
  | d :: rest =>
    match KnownDirective.ofName? d.name.text with
    | none => firstOccurrences seen rest
    | some known =>
      if known ∈ seen then firstOccurrences seen rest
      else (known, d) :: firstOccurrences (known :: seen) rest

/-- The value of a flag. A flag that is not given as a Boolean is off. -/
def Directive.flag (d : Directive) (name : String) : Bool :=
  (d.arguments.findSome? fun a =>
    match a.value.value with
    | .boolean b => if a.name.text = name then some b else none
    | _ => none).getD false

/-- What the present directives ask for, each with its first occurrence. -/
def AppliedDirectives.ofPresent (present : List (KnownDirective × Directive)) :
    AppliedDirectives where
  component := (present.lookup .component).isSome
  eager := (present.lookup .eager).isSome
  loadable := (present.lookup .loadable).map fun d => ⟨d.flag "lazyLoadArtifact"⟩
  updatable := (present.lookup .updatable).isSome
  lazyLoad := (present.lookup .lazyLoad).map fun d => ⟨d.flag "reader", d.flag "normalization"⟩

/-- What the directives at a position ask for; on a pointer declaration they mean nothing. -/
def appliedDirectives (position : DirectivePosition) (directives : List Directive) :
    AppliedDirectives :=
  if position = .pointerDeclaration then .ofPresent []
  else .ofPresent (firstOccurrences [] directives)

/-! ## Checking -/

/-- The problem with an argument of a directive, which has to be known and a Boolean. -/
def flagProblem? (source : Nat) (known : KnownDirective) (a : Argument) : Option Diagnostic :=
  if a.name.text ∈ known.flags then
    match a.value.value with
    | .boolean _ => none
    | value =>
      if value.isConstant then
        some ((Diagnostic.located source .directiveArgumentTypeMismatch a.value.range).withDetail
          ("`" ++ a.name.text ++ "` expects `Boolean`, found `" ++ value.render ++ "`"))
      else
        some ((Diagnostic.located source .directiveArgumentNotConstant a.value.range).withDetail
          ("`" ++ a.name.text ++ ": " ++ value.render ++ "`"))
  else
    some (((Diagnostic.located source .unknownDirectiveArgument a.name.range).withDetail
      a.name.text).withHint known.flagsHint)

/-- The problem with the position of a directive. -/
def placementProblem? (source : Nat) (position : DirectivePosition) (known : KnownDirective)
    (d : Directive) : Option Diagnostic :=
  if position ∈ known.positions then none
  else
    some (((Diagnostic.located source .directiveNotAllowed d.range).withDetail
      (known.shown ++ " is not allowed on " ++ position.text)).withHint known.positionsHint)

/-- The problems of each directive on its own: unknown, repeated, misplaced, or with wrong
arguments. -/
def directiveProblems (source : Nat) (position : DirectivePosition) (seen : List KnownDirective) :
    List Directive → Diagnostics
  | [] => []
  | d :: rest =>
    match KnownDirective.ofName? d.name.text with
    | none =>
      (Diagnostic.located source .unknownDirective d.range).withDetail d.name.text ::
        directiveProblems source position seen rest
    | some known =>
      if known ∈ seen then
        (Diagnostic.located source .duplicateDirective d.range).withDetail d.name.text ::
          directiveProblems source position seen rest
      else
        (placementProblem? source position known d).toList ++
          d.arguments.filterMap (flagProblem? source known) ++
          directiveProblems source position (known :: seen) rest

/-- The problem with two directives of which the first stands before the second. -/
def conflict? (source : Nat) (first second : KnownDirective × Directive) : Option Diagnostic :=
  if first.1.conflictsWith second.1 then
    some ((Diagnostic.located source .mutuallyExclusiveDirectives second.2.range).withDetail
      (first.1.shown ++ " and " ++ second.1.shown))
  else none

/-- The problems of directives that exclude each other, pair by pair. -/
def conflicts (source : Nat) : List (KnownDirective × Directive) → Diagnostics
  | [] => []
  | first :: rest => rest.filterMap (conflict? source first) ++ conflicts source rest

/-- Everything that is wrong with the directives at a position. A pointer declaration takes none. -/
def checkDirectives (source : Nat) (position : DirectivePosition) (directives : List Directive) :
    Diagnostics :=
  if position = .pointerDeclaration then
    directives.map fun d =>
      (Diagnostic.located source .directiveOnPointer d.range).withDetail d.name.text
  else
    directiveProblems source position [] directives ++
      conflicts source (firstOccurrences [] directives)

end IsoLiteral
