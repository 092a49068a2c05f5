import IsoLiteral.Proofs.Resolution.Mirrors
import IsoLiteral.Schema.Fields

/-!
# Legal directives

Directives at a position are legal if each is known, allowed there and given flags only, none is repeated, and
no two of them exclude each other. A pointer declaration takes none. The check reports nothing exactly for
these, and then what the directives ask for is what is written. Exclusion is written once with one of the
two directives and looked up from both sides, each pair of present directives once, so whatever else is wrong
a pair that excludes each other is reported once.
-/

namespace IsoLiteral

/-! ## The rules -/

/-- Whether a known directive may be written as it is, apart from other directives. -/
structure KnownDirective.Admits (known : KnownDirective) (position : DirectivePosition) (d : Directive) :
    Prop where
  placed : position ∈ known.positions
  flags : ∀ a ∈ d.arguments, a.name.text ∈ known.flags ∧ ∃ b, a.value.value = .boolean b

/-- Whether a known directive is among directives. -/
def KnownDirective.IsPresent (known : KnownDirective) (directives : List Directive) : Prop :=
  ∃ d ∈ directives, d.name.text = known.name

instance (known : KnownDirective) (directives : List Directive) : Decidable (known.IsPresent directives) :=
  inferInstanceAs (Decidable (∃ d ∈ directives, _))

/-- Directives that may stand together at a position. -/
structure LegalDirectives (position : DirectivePosition) (directives : List Directive) : Prop where
  known : ∀ d ∈ directives, ∃ known : KnownDirective, d.name.text = known.name
  distinct : (directives.map (·.name.text)).Nodup
  admitted : ∀ d ∈ directives, ∀ known : KnownDirective, d.name.text = known.name → known.Admits position d
  compatible : ∀ a b : KnownDirective, a.IsPresent directives → b.IsPresent directives → b ∉ a.excludes

/-- The value that is written for a flag: off unless it is given. -/
def Directive.Sets (d : Directive) (flag : String) (b : Bool) : Prop :=
  (∃ a ∈ d.arguments, a.name.text = flag ∧ a.value.value = .boolean b) ∨
    b = false ∧ ∀ a ∈ d.arguments, a.name.text ≠ flag

/-- What directives ask for as they are written. -/
structure AppliedDirectives.AsWritten (applied : AppliedDirectives) (directives : List Directive) : Prop where
  component : applied.component = true ↔ KnownDirective.component.IsPresent directives
  eager : applied.eager = true ↔ KnownDirective.eager.IsPresent directives
  updatable : applied.updatable = true ↔ KnownDirective.updatable.IsPresent directives
  loadable : ∀ options, applied.loadable = some options ↔ ∃ d ∈ directives,
    d.name.text = "loadable" ∧ d.Sets "lazyLoadArtifact" options.lazyLoadArtifact
  lazyLoad : ∀ lazy, applied.lazyLoad = some lazy ↔ ∃ d ∈ directives,
    d.name.text = "lazyLoad" ∧ d.Sets "reader" lazy.reader ∧ d.Sets "normalization" lazy.normalization

/-- Whether a diagnostic reports that two directives exclude each other, in either order. -/
def Diagnostic.ReportsConflict (a b : KnownDirective) (e : Diagnostic) : Prop :=
  e.kind = .mutuallyExclusiveDirectives ∧
    (e.message = e.kind.message (some (a.shown ++ " and " ++ b.shown)) ∨
      e.message = e.kind.message (some (b.shown ++ " and " ++ a.shown)))

instance (a b : KnownDirective) (e : Diagnostic) : Decidable (e.ReportsConflict a b) :=
  inferInstanceAs (Decidable (_ ∧ _))

/-! ## Single directives -/

theorem KnownDirective.name_injective {a b : KnownDirective} (same : a.name = b.name) : a = b :=
  Option.some.inj ((ofName?_eq_some_iff.2 same).symm.trans (ofName?_eq_some_iff.2 rfl))

theorem flagProblem?_eq_none_iff {source : Nat} {known : KnownDirective} {a : Argument} :
    flagProblem? source known a = none ↔ a.name.text ∈ known.flags ∧ ∃ b, a.value.value = .boolean b := by
  unfold flagProblem?
  split
  · rename_i accepted
    split
    · rename_i b value
      exact iff_of_true rfl ⟨accepted, b, value⟩
    · rename_i other
      refine iff_of_false ?_ fun given => given.2.elim other
      split <;> nofun
  · rename_i unknown
    exact iff_of_false nofun fun given => unknown given.1

theorem placementProblem?_eq_none_iff {source : Nat} {position : DirectivePosition} {known : KnownDirective}
    {d : Directive} : placementProblem? source position known d = none ↔ position ∈ known.positions := by
  unfold placementProblem?
  split
  · exact iff_of_true rfl ‹_›
  · exact iff_of_false nofun ‹_›

/-- A directive that is known and new has no problem of its own exactly if its rule admits it. -/
theorem directiveProblems_cons_of_new {source : Nat} {position : DirectivePosition} {seen : List KnownDirective}
    {known : KnownDirective} {d : Directive} {rest : List Directive} (named : d.name.text = known.name)
    (new : known ∉ seen) : directiveProblems source position seen (d :: rest) = [] ↔
      known.Admits position d ∧ directiveProblems source position (known :: seen) rest = [] := by
  have found := KnownDirective.ofName?_eq_some_iff.2 named.symm
  simp only [directiveProblems, found, new, if_false, List.append_eq_nil_iff, List.filterMap_eq_nil_iff,
    Option.toList_eq_nil_iff, placementProblem?_eq_none_iff, flagProblem?_eq_none_iff, and_congr_left_iff]
  exact fun _ => ⟨fun own => ⟨own.1, own.2⟩, fun own => ⟨own.placed, own.flags⟩⟩

/-- Directives have no problems of their own exactly if each is known, new and admitted. -/
theorem directiveProblems_eq_nil_iff {source : Nat} {position : DirectivePosition} {directives : List Directive} :
    ∀ {seen : List KnownDirective}, directiveProblems source position seen directives = [] ↔
      (∀ d ∈ directives, ∃ known ∉ seen, d.name.text = known.name ∧ known.Admits position d) ∧
        (directives.map (·.name.text)).Nodup := by
  induction directives with
  | nil => exact fun {_} => iff_of_true rfl ⟨fun _ none => absurd none List.not_mem_nil, List.nodup_nil⟩
  | cons d rest ih =>
    intro seen
    rw [List.forall_mem_cons, List.map_cons, List.nodup_cons]
    cases found : KnownDirective.ofName? d.name.text with
    | none =>
      refine iff_of_false ?_ ?_
      · rw [directiveProblems, found]
        exact List.cons_ne_nil _ _
      · rintro ⟨⟨⟨known, -, named, -⟩, -⟩, -⟩
        rw [KnownDirective.ofName?_eq_some_iff.2 named.symm] at found
        cases found
    | some known =>
      have named := (KnownDirective.ofName?_eq_some_iff.1 found).symm
      by_cases repeated : known ∈ seen
      · refine iff_of_false ?_ ?_
        · simp [directiveProblems, found, repeated]
        · rintro ⟨⟨⟨other, new, named', -⟩, -⟩, -⟩
          obtain rfl := KnownDirective.name_injective (named.symm.trans named')
          exact new repeated
      · rw [directiveProblems_cons_of_new named repeated, ih]
        constructor
        · rintro ⟨admits, later, distinct⟩
          refine ⟨⟨⟨known, repeated, named, admits⟩, fun e member => ?_⟩, fun again => ?_, distinct⟩
          · obtain ⟨other, new, named', admits'⟩ := later e member
            exact ⟨other, fun earlier => new (List.mem_cons_of_mem known earlier), named', admits'⟩
          · obtain ⟨e, member, same⟩ := List.mem_map.1 again
            obtain ⟨other, new, named', -⟩ := later e member
            obtain rfl := KnownDirective.name_injective (named'.symm.trans (same.trans named))
            exact new List.mem_cons_self
        · rintro ⟨⟨⟨known', -, named', admits⟩, later⟩, apart, distinct⟩
          obtain rfl := KnownDirective.name_injective (named.symm.trans named')
          refine ⟨admits, fun e member => ?_, distinct⟩
          obtain ⟨other, new, named'', admits'⟩ := later e member
          refine ⟨other, fun among => ?_, named'', admits'⟩
          rcases List.mem_cons.1 among with rfl | earlier
          · exact apart (List.mem_map.2 ⟨e, member, named''.trans named.symm⟩)
          · exact new earlier

theorem kind_ne_of_mem_directiveProblems (source : Nat) (position : DirectivePosition)
    (directives : List Directive) : ∀ seen, ∀ e ∈ directiveProblems source position seen directives,
      e.kind ≠ .mutuallyExclusiveDirectives := by
  induction directives with
  | nil => exact fun _ e none => absurd none List.not_mem_nil
  | cons d rest ih =>
    intro seen e member
    rw [directiveProblems] at member
    split at member
    · rcases List.mem_cons.1 member with rfl | later
      · rintro ⟨⟩
      · exact ih seen e later
    · rename_i known _
      split at member
      · rcases List.mem_cons.1 member with rfl | later
        · rintro ⟨⟩
        · exact ih seen e later
      · rcases List.mem_append.1 member with own | later
        · rcases List.mem_append.1 own with placed | flagged
          · unfold placementProblem? at placed
            split at placed
            · cases placed
            · obtain rfl := List.mem_singleton.1 placed
              rintro ⟨⟩
          · obtain ⟨a, -, problem⟩ := List.mem_filterMap.1 flagged
            unfold flagProblem? at problem
            grind [Diagnostic.withDetail, Diagnostic.withHint, Diagnostic.located, Diagnostic.ofKind]
        · exact ih _ e later

/-! ## First occurrences -/

/-- A known directive is looked up where it stands first. -/
theorem lookup_firstOccurrences (known : KnownDirective) (directives : List Directive) :
    ∀ seen, known ∉ seen → (firstOccurrences seen directives).lookup known =
      directives.find? (·.name.text = known.name) := by
  induction directives with
  | nil => exact fun _ _ => rfl
  | cons d rest ih =>
    intro seen new
    rw [firstOccurrences, List.find?_cons]
    cases found : KnownDirective.ofName? d.name.text with
    | none =>
      have other : d.name.text ≠ known.name := fun named => by
        rw [KnownDirective.ofName?_eq_some_iff.2 named.symm] at found
        cases found
      rw [decide_eq_false other]
      exact ih seen new
    | some first =>
      have named := KnownDirective.ofName?_eq_some_iff.1 found
      by_cases same : known = first
      · subst same
        simp [new, named]
      · have other : d.name.text ≠ known.name := fun named' =>
          same (KnownDirective.name_injective (named'.symm.trans named.symm))
        have different : (known == first) = false := beq_false_of_ne same
        rw [decide_eq_false other]
        show List.lookup known (if first ∈ seen then _ else _) = _
        split
        · exact ih seen new
        · rw [List.lookup_cons, different]
          exact ih (first :: seen) (by simp [same, new])

/-- The known directives that are present, each once. -/
abbrev presentDirectives (directives : List Directive) : List KnownDirective :=
  (firstOccurrences [] directives).map Prod.fst

theorem nodup_keys_firstOccurrences (directives : List Directive) : ∀ seen,
    ((firstOccurrences seen directives).map Prod.fst).Nodup ∧
      ∀ known ∈ (firstOccurrences seen directives).map Prod.fst, known ∉ seen := by
  induction directives with
  | nil => exact fun _ => ⟨List.nodup_nil, fun _ none => absurd none List.not_mem_nil⟩
  | cons d rest ih =>
    intro seen
    rw [firstOccurrences]
    split
    · exact ih seen
    · rename_i known _
      split
      · exact ih seen
      · rename_i new
        obtain ⟨distinct, others⟩ := ih (known :: seen)
        refine ⟨List.nodup_cons.2 ⟨fun again => others known again List.mem_cons_self, distinct⟩, ?_⟩
        exact List.forall_mem_cons.2 ⟨new, fun other member earlier =>
          others other member (List.mem_cons_of_mem known earlier)⟩

theorem isSome_lookup_iff {known : KnownDirective} {directives : List Directive} :
    ((firstOccurrences [] directives).lookup known).isSome = true ↔ known.IsPresent directives := by
  rw [isSome_lookup_firstOccurrences known directives [] List.not_mem_nil, List.any_eq_true]
  simp [KnownDirective.IsPresent]

theorem mem_presentDirectives {known : KnownDirective} {directives : List Directive} :
    known ∈ presentDirectives directives ↔ known.IsPresent directives := by
  have keys (l : List (KnownDirective × Directive)) : known ∈ l.map Prod.fst ↔ (l.lookup known).isSome = true := by
    induction l with
    | nil => simp
    | cons entry rest ih =>
      rw [List.map_cons, List.mem_cons, ih, List.lookup_cons]
      cases same : known == entry.1 <;> simp_all
  rw [presentDirectives, keys, isSome_lookup_iff]

/-! ## Exclusion -/

theorem conflictsWith_iff (a b : KnownDirective) :
    a.conflictsWith b = true ↔ b ∈ a.excludes ∨ a ∈ b.excludes := by
  simp [KnownDirective.conflictsWith]

theorem conflictsWith_comm (a b : KnownDirective) : a.conflictsWith b = b.conflictsWith a := Bool.or_comm _ _

theorem conflictsWith_self (a : KnownDirective) : a.conflictsWith a = false := by
  cases a <;> rfl

/-- The wording of a conflict tells which directives are meant. -/
theorem reportsConflict_iff (a b : KnownDirective) {source : Nat} {first second : KnownDirective × Directive}
    {e : Diagnostic} (reported : conflict? source first second = some e) :
    e.ReportsConflict a b ↔ first.1 = a ∧ second.1 = b ∨ first.1 = b ∧ second.1 = a := by
  have worded : ∀ a b c d : KnownDirective,
      DiagnosticKind.mutuallyExclusiveDirectives.message (some (a.shown ++ " and " ++ b.shown)) =
        DiagnosticKind.mutuallyExclusiveDirectives.message (some (c.shown ++ " and " ++ d.shown)) ↔
          a = c ∧ b = d := by
    have all : ∀ a ∈ KnownDirective.all, ∀ b ∈ KnownDirective.all, ∀ c ∈ KnownDirective.all,
        ∀ d ∈ KnownDirective.all,
          (DiagnosticKind.mutuallyExclusiveDirectives.message (some (a.shown ++ " and " ++ b.shown)) =
            DiagnosticKind.mutuallyExclusiveDirectives.message (some (c.shown ++ " and " ++ d.shown)) ↔
              a = c ∧ b = d) := by decide +kernel
    have listed (a : KnownDirective) : a ∈ KnownDirective.all := by cases a <;> decide
    exact fun a b c d => all a (listed a) b (listed b) c (listed c) d (listed d)
  unfold conflict? at reported
  split at reported
  · obtain rfl := Option.some.inj reported
    have kind : ((Diagnostic.located source .mutuallyExclusiveDirectives second.2.range).withDetail
      (first.1.shown ++ " and " ++ second.1.shown)).kind = .mutuallyExclusiveDirectives := rfl
    rw [Diagnostic.ReportsConflict, kind, and_iff_right rfl]
    exact or_congr (worded _ _ _ _) (worded _ _ _ _)
  · cases reported

theorem conflicts_eq_nil_iff (source : Nat) (l : List (KnownDirective × Directive)) :
    conflicts source l = [] ↔ l.Pairwise fun x y => x.1.conflictsWith y.1 = false := by
  induction l with
  | nil => exact iff_of_true rfl .nil
  | cons first rest ih =>
    rw [conflicts, List.append_eq_nil_iff, List.filterMap_eq_nil_iff, List.pairwise_cons, ih]
    refine and_congr_left fun _ => forall₂_congr fun second _ => ?_
    unfold conflict?
    cases first.1.conflictsWith second.1 <;> simp

/-- Against a directive the conflict of two that exclude each other is reported if those are the two. -/
theorem reportsConflict_conflict? (source : Nat) {a b : KnownDirective} (exclude : a.conflictsWith b = true)
    (first second : KnownDirective × Directive) :
    ((conflict? source first second).map fun e => decide (e.ReportsConflict a b)).getD false =
      decide (first.1 = a ∧ second.1 = b ∨ first.1 = b ∧ second.1 = a) := by
  cases reported : conflict? source first second with
  | some e => exact decide_eq_decide.2 (reportsConflict_iff a b reported)
  | none =>
    refine (decide_eq_false ?_).symm
    unfold conflict? at reported
    rintro (⟨mine, other⟩ | ⟨mine, other⟩) <;> rw [mine, other] at reported
    · simp [exclude] at reported
    · simp [conflictsWith_comm b a, exclude] at reported

/-- The conflict of two directives is reported against those that come after one of them, once for the other. -/
theorem countP_conflict (source : Nat) {a b : KnownDirective} (exclude : a.conflictsWith b = true)
    (first : KnownDirective × Directive) {rest : List (KnownDirective × Directive)}
    (distinct : (rest.map Prod.fst).Nodup) :
    (rest.filterMap (conflict? source first)).countP (·.ReportsConflict a b) =
      if first.1 = a ∧ b ∈ rest.map Prod.fst ∨ first.1 = b ∧ a ∈ rest.map Prod.fst then 1 else 0 := by
  have different : a ≠ b := fun same => by
    rw [same, conflictsWith_self] at exclude
    cases exclude
  have counted (partner : KnownDirective) :
      rest.countP (fun second => decide (second.1 = partner)) = if partner ∈ rest.map Prod.fst then 1 else 0 := by
    rw [← distinct.count, List.count, List.countP_map]
    rfl
  rw [List.countP_filterMap]
  simp only [reportsConflict_conflict? source exclude]
  by_cases isFirst : first.1 = a
  · refine Eq.trans ?_ ((counted b).trans (if_congr (by simp [isFirst, different]) rfl rfl))
    simp [isFirst, different]
  · by_cases isSecond : first.1 = b
    · refine Eq.trans ?_ ((counted a).trans (if_congr (by simp [isSecond, different.symm]) rfl rfl))
      simp [isSecond, different.symm]
    · rw [if_neg (by simp [isFirst, isSecond])]
      simp [isFirst, isSecond]

/-- The conflict of two directives is reported once if both are listed. -/
theorem countP_conflicts (source : Nat) {a b : KnownDirective} (exclude : a.conflictsWith b = true)
    {l : List (KnownDirective × Directive)} (distinct : (l.map Prod.fst).Nodup) :
    (conflicts source l).countP (·.ReportsConflict a b) =
      if a ∈ l.map Prod.fst ∧ b ∈ l.map Prod.fst then 1 else 0 := by
  have different : a ≠ b := fun same => by
    rw [same, conflictsWith_self] at exclude
    cases exclude
  induction l with
  | nil => rfl
  | cons first rest ih =>
    obtain ⟨new, distinct⟩ := List.nodup_cons.1 distinct
    rw [conflicts, List.countP_append, countP_conflict source exclude first distinct, ih distinct]
    simp only [List.map_cons, List.mem_cons]
    by_cases isFirst : first.1 = a
    · rw [isFirst] at new ⊢
      rw [if_neg (c := _ ∧ _) (by simp [new]), Nat.add_zero]
      exact if_congr (by simp [different, different.symm]) rfl rfl
    · by_cases isSecond : first.1 = b
      · rw [isSecond] at new ⊢
        rw [if_neg (c := _ ∧ _) (by simp [new]), Nat.add_zero]
        exact if_congr (by simp [different, different.symm]) rfl rfl
      · rw [if_neg (by simp [isFirst, isSecond]), Nat.zero_add]
        exact if_congr (by simp [Ne.symm isFirst, Ne.symm isSecond]) rfl rfl

/-- Without a conflict nothing is reported as one. -/
theorem countP_conflicts_eq_zero (source : Nat) {a b : KnownDirective} (agree : a.conflictsWith b = false)
    (l : List (KnownDirective × Directive)) : (conflicts source l).countP (·.ReportsConflict a b) = 0 := by
  induction l with
  | nil => rfl
  | cons first rest ih =>
    rw [conflicts, List.countP_append, ih, Nat.add_zero, List.countP_eq_zero]
    intro e member
    obtain ⟨second, -, reported⟩ := List.mem_filterMap.1 member
    rw [decide_eq_true_eq, reportsConflict_iff a b reported]
    unfold conflict? at reported
    rintro (⟨mine, other⟩ | ⟨mine, other⟩) <;> rw [mine, other] at reported
    · simp [agree] at reported
    · simp [conflictsWith_comm b a, agree] at reported

/-! ## Legal directives -/

/-- Nothing is reported as a conflict exactly if no directive that is present excludes another one. -/
theorem conflicts_firstOccurrences_eq_nil_iff (source : Nat) (directives : List Directive) :
    conflicts source (firstOccurrences [] directives) = [] ↔
      ∀ a b : KnownDirective, a.IsPresent directives → b.IsPresent directives → b ∉ a.excludes := by
  have agree (a b : KnownDirective) : a.conflictsWith b = false ↔ b ∉ a.excludes ∧ a ∉ b.excludes := by
    rw [← Bool.not_eq_true, conflictsWith_iff, not_or]
  rw [conflicts_eq_nil_iff]
  constructor
  · intro apart a b here there
    have pairs : (presentDirectives directives).Pairwise fun a b => a.conflictsWith b = false :=
      List.pairwise_map.2 apart
    have symmetric : Std.Symm fun a b : KnownDirective => a.conflictsWith b = false :=
      ⟨fun a b free => (conflictsWith_comm b a).trans free⟩
    have free := pairs.forall_of_forall (fun a _ => conflictsWith_self a) (mem_presentDirectives.2 here)
      (mem_presentDirectives.2 there)
    exact ((agree a b).1 free).1
  · intro compatible
    refine List.pairwise_of_forall_mem_list fun x here y there => (agree _ _).2 ?_
    have present {entry : KnownDirective × Directive} (member : entry ∈ firstOccurrences [] directives) :
        entry.1.IsPresent directives := mem_presentDirectives.1 (List.mem_map_of_mem member)
    exact ⟨compatible _ _ (present here) (present there), compatible _ _ (present there) (present here)⟩

theorem checkDirectives_eq_nil_iff {source : Nat} {position : DirectivePosition} {directives : List Directive} :
    checkDirectives source position directives = [] ↔
      if position = .pointerDeclaration then directives = [] else LegalDirectives position directives := by
  rw [checkDirectives]
  split
  · exact List.map_eq_nil_iff
  · rw [List.append_eq_nil_iff, directiveProblems_eq_nil_iff, conflicts_firstOccurrences_eq_nil_iff]
    constructor
    · rintro ⟨⟨own, distinct⟩, compatible⟩
      refine ⟨fun d member => ?_, distinct, fun d member known named => ?_, compatible⟩
      · obtain ⟨known, -, named, -⟩ := own d member
        exact ⟨known, named⟩
      · obtain ⟨known', -, named', admits⟩ := own d member
        rwa [KnownDirective.name_injective (named.symm.trans named')]
    · intro legal
      refine ⟨⟨fun d member => ?_, legal.distinct⟩, legal.compatible⟩
      obtain ⟨known, named⟩ := legal.known d member
      exact ⟨known, List.not_mem_nil, named, legal.admitted d member known named⟩

/-! ## What legal directives ask for -/

/-- A flag has the value that is written, if no argument is given twice and all are Booleans. -/
theorem flag_eq_iff {d : Directive} {flag : String} {b : Bool}
    (distinct : (d.arguments.map (·.name.text)).Nodup)
    (boolean : ∀ a ∈ d.arguments, ∃ b, a.value.value = .boolean b) : d.flag flag = b ↔ d.Sets flag b := by
  rw [Directive.flag, Directive.Sets]
  generalize d.arguments = arguments at distinct boolean
  induction arguments with
  | nil => cases b <;> simp
  | cons a rest ih =>
    rw [List.map_cons, List.nodup_cons] at distinct
    obtain ⟨new, distinct⟩ := distinct
    obtain ⟨⟨given, value⟩, boolean⟩ := List.forall_mem_cons.1 boolean
    rw [List.findSome?_cons]
    by_cases named : a.name.text = flag
    · subst named
      have others : ¬ ∃ x ∈ rest, x.name.text = a.name.text ∧ x.value.value = .boolean b := by
        rintro ⟨x, member, same, -⟩
        exact new (List.mem_map.2 ⟨x, member, same⟩)
      simp [value, others]
    · simpa [value, named] using ih distinct boolean

/-- Where no directive is repeated, the one with a name is found. -/
theorem lookup_eq_some_iff {known : KnownDirective} {directives : List Directive} {d : Directive}
    (distinct : (directives.map (·.name.text)).Nodup) :
    (firstOccurrences [] directives).lookup known = some d ↔ d ∈ directives ∧ d.name.text = known.name := by
  rw [lookup_firstOccurrences known directives [] List.not_mem_nil]
  constructor
  · intro found
    exact ⟨List.mem_of_find?_eq_some found, by simpa using List.find?_some found⟩
  · rintro ⟨member, named⟩
    have some : (directives.find? (·.name.text = known.name)).isSome = true :=
      List.find?_isSome.2 ⟨d, member, decide_eq_true named⟩
    obtain ⟨other, found⟩ := Option.isSome_iff_exists.1 some
    have named' : other.name.text = known.name := by simpa using List.find?_some found
    rw [found, List.inj_on_of_nodup_map distinct (List.mem_of_find?_eq_some found) member (named'.trans named.symm)]

/-- What legal directives ask for is what is written. -/
theorem LegalDirectives.asWritten {position : DirectivePosition} {directives : List Directive}
    (legal : LegalDirectives position directives)
    (distinct : ∀ d ∈ directives, (d.arguments.map (·.name.text)).Nodup) :
    (AppliedDirectives.ofPresent (firstOccurrences [] directives)).AsWritten directives := by
  have flags {known : KnownDirective} {d : Directive} (found : d ∈ directives ∧ d.name.text = known.name)
      (flag : String) (b : Bool) : d.flag flag = b ↔ d.Sets flag b :=
    flag_eq_iff (distinct d found.1) fun a member =>
      ((legal.admitted d found.1 known found.2).flags a member).2
  refine ⟨isSome_lookup_iff, isSome_lookup_iff, isSome_lookup_iff, fun ⟨_⟩ => ?_, fun ⟨_, _⟩ => ?_⟩
  · rw [AppliedDirectives.ofPresent, Option.map_eq_some_iff]
    refine exists_congr fun d => ?_
    rw [lookup_eq_some_iff legal.distinct, ← and_assoc]
    refine and_congr_right fun found => ?_
    rw [LoadableOptions.mk.injEq, flags found]
  · rw [AppliedDirectives.ofPresent, Option.map_eq_some_iff]
    refine exists_congr fun d => ?_
    rw [lookup_eq_some_iff legal.distinct, ← and_assoc]
    refine and_congr_right fun found => ?_
    rw [LazyLoad.mk.injEq, flags found, flags found]

/-- Nothing is asked for on a pointer declaration. -/
theorem asWritten_nil : (AppliedDirectives.ofPresent []).AsWritten [] := by
  constructor <;> simp [AppliedDirectives.ofPresent, KnownDirective.IsPresent]

/-- The artifact kind of a declared field goes by the names of its directives. Where these are legal, no two of
them ask for different kinds, so it is the kind that they ask for. -/
theorem artifactKind_iff {d : Declaration} (legal : LegalDirectives .fieldDeclaration d.directives) :
    (d.artifactKind = .component ↔ (appliedDirectives .fieldDeclaration d.directives).component = true) ∧
      (d.artifactKind = .loadableAction ↔
        (appliedDirectives .fieldDeclaration d.directives).loadable.isSome = true) ∧
      (d.artifactKind = .eager ↔ (appliedDirectives .fieldDeclaration d.directives).component = false ∧
        (appliedDirectives .fieldDeclaration d.directives).loadable = none) := by
  have written (known : KnownDirective) : d.hasDirective known.name = true ↔ known.IsPresent d.directives := by
    simp [Declaration.hasDirective, KnownDirective.IsPresent]
  have component : (appliedDirectives .fieldDeclaration d.directives).component = d.hasDirective "component" :=
    Bool.eq_iff_iff.2 (isSome_lookup_iff.trans (written .component).symm)
  have loadable : (appliedDirectives .fieldDeclaration d.directives).loadable.isSome = d.hasDirective "loadable" := by
    rw [appliedDirectives, if_neg (by decide), AppliedDirectives.ofPresent, Option.isSome_map]
    exact Bool.eq_iff_iff.2 (isSome_lookup_iff.trans (written .loadable).symm)
  have notBoth : ¬ (d.hasDirective "component" = true ∧ d.hasDirective "loadable" = true) := fun both =>
    legal.compatible .component .loadable ((written .component).1 both.1) ((written .loadable).1 both.2) (by decide)
  rw [component, ← Option.not_isSome_iff_eq_none, loadable, Declaration.artifactKind]
  revert notBoth
  cases d.hasDirective "component" <;> cases d.hasDirective "loadable" <;> decide

/-- Directives are accepted exactly if they are legal, and then they ask for what is written, also where the
artifact kind of a declared field is read off their names. But for pointer declarations, which take none, each
two directives that exclude each other are reported once if both are present, and not at all otherwise. -/
theorem checkDirectives_exact (source : Nat) (position : DirectivePosition) (directives : List Directive)
    (distinct : ∀ d ∈ directives, (d.arguments.map (·.name.text)).Nodup) :
    (checkDirectives source position directives = [] ↔
      if position = .pointerDeclaration then directives = [] else LegalDirectives position directives) ∧
    (checkDirectives source position directives = [] →
      (appliedDirectives position directives).AsWritten directives ∧
      ∀ (b : SchemaBuilder) (d : Declaration), d.kind = .field → d.kind.position = position →
        d.directives = directives → ∃ kind, b.declaredKind d = .ok (.resolver kind, none) ∧
          (kind = .component ↔ (appliedDirectives position directives).component = true) ∧
          (kind = .loadableAction ↔ (appliedDirectives position directives).loadable.isSome = true) ∧
          (kind = .eager ↔ (appliedDirectives position directives).component = false ∧
            (appliedDirectives position directives).loadable = none)) ∧
    (position ≠ .pointerDeclaration → ∀ a b : KnownDirective,
      (checkDirectives source position directives).countP (·.ReportsConflict a b) =
        if (b ∈ a.excludes ∨ a ∈ b.excludes) ∧ a.IsPresent directives ∧ b.IsPresent directives then 1 else 0) := by
  refine ⟨checkDirectives_eq_nil_iff, fun clean => ⟨?_, ?_⟩, fun other a b => ?_⟩
  · have accepted := checkDirectives_eq_nil_iff.1 clean
    rw [appliedDirectives]
    split
    · rename_i pointer
      rw [if_pos pointer] at accepted
      exact accepted ▸ asWritten_nil
    · rename_i other
      rw [if_neg other] at accepted
      exact accepted.asWritten distinct
  · rintro b d field rfl rfl
    have legal := checkDirectives_eq_nil_iff.1 clean
    rw [field] at legal ⊢
    have chosen : b.declaredKind d = .ok (.resolver d.artifactKind, none) := by
      rw [SchemaBuilder.declaredKind, field]
    exact ⟨_, chosen, artifactKind_iff legal⟩
  · have alone : (directiveProblems source position [] directives).countP (·.ReportsConflict a b) = 0 :=
      List.countP_eq_zero.2 fun e member reports =>
        kind_ne_of_mem_directiveProblems source position directives [] e member (of_decide_eq_true reports).1
    rw [checkDirectives, if_neg other, List.countP_append, alone, Nat.zero_add]
    cases exclude : a.conflictsWith b with
    | true =>
      rw [countP_conflicts source exclude (nodup_keys_firstOccurrences directives []).1]
      refine if_congr ?_ rfl rfl
      rw [mem_presentDirectives, mem_presentDirectives, ← conflictsWith_iff, and_iff_right exclude]
    | false =>
      rw [countP_conflicts_eq_zero source exclude, if_neg]
      rw [← conflictsWith_iff, exclude]
      exact fun both => Bool.false_ne_true both.1

/-- `@loadable(lazyLoadArtifact: true) @updatable @component @loadable`, of which the last is repeated and the
first three exclude each other in two pairs. -/
def quarrellingDirectives : List Directive :=
  let named (name : String) (arguments : List Argument) : Directive := ⟨⟨name, default⟩, arguments, default⟩
  [named "loadable" [⟨⟨"lazyLoadArtifact", default⟩, ⟨.boolean true, default⟩⟩], named "updatable" [],
    named "component" [], named "loadable" []]

/-- The pairs are reported on a scalar, where only one of the directives may stand; the first directive alone is
accepted on a resolver. -/
theorem checkDirectives_exact_quarrelling :
    (∀ d ∈ quarrellingDirectives, (d.arguments.map (·.name.text)).Nodup) ∧
      ¬ LegalDirectives .scalarSelection quarrellingDirectives ∧
      (checkDirectives 0 .scalarSelection quarrellingDirectives).countP
        (·.ReportsConflict .updatable .loadable) = 1 ∧
      (checkDirectives 0 .scalarSelection quarrellingDirectives).countP
        (·.ReportsConflict .updatable .component) = 0 ∧
      LegalDirectives .resolverSelection (quarrellingDirectives.take 1) ∧
      (appliedDirectives .resolverSelection (quarrellingDirectives.take 1)).AsWritten
        (quarrellingDirectives.take 1) := by
  have distinct : ∀ d ∈ quarrellingDirectives, (d.arguments.map (·.name.text)).Nodup := by decide
  obtain ⟨accepted, -, reported⟩ := checkDirectives_exact 0 .scalarSelection quarrellingDirectives distinct
  have quarrel : ¬ LegalDirectives .scalarSelection quarrellingDirectives := fun legal =>
    absurd (accepted.2 legal) (by decide)
  obtain ⟨accepted', written, -⟩ := checkDirectives_exact 0 .resolverSelection (quarrellingDirectives.take 1)
    fun d member => distinct d (List.mem_of_mem_take member)
  have clean : checkDirectives 0 .resolverSelection (quarrellingDirectives.take 1) = [] := by decide
  have once := reported (by decide) .updatable .loadable
  have never := reported (by decide) .updatable .component
  exact ⟨distinct, quarrel, once.trans (by decide), never.trans (by decide), accepted'.1 clean, (written clean).1⟩

end IsoLiteral
