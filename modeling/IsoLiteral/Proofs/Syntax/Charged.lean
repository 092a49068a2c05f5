import IsoLiteral.Proofs.Syntax.Layout
import IsoLiteral.Proofs.Syntax.Places
import IsoLiteral.Proofs.Syntax.Runs

/-!
# What diagnostics are charged to

A diagnostic of the grammar is charged to the next token or to the end of the literal. Since the parser
remembers the position that it charged last and never goes back, no position is charged twice, so that there
are no more diagnostics than tokens that matter and an end. What a diagnostic points at starts and stops with
a token: it is the next token itself, or what was taken since an opening token.
-/

namespace IsoLiteral

/-- The first position at an offset or after it that a diagnostic may be charged to. -/
def positionFrom (text : String) (offset : Nat) : Nat :=
  (((lex text).find? fun t => !t.isTrivia && offset ≤ t.start).map Token.start).getD text.utf8ByteSize

/-- The positions that a diagnostic may be charged to: the tokens that matter, and the end. -/
def positions (text : String) : List Nat :=
  ((lex text).filter (!·.isTrivia)).map Token.start ++ [text.utf8ByteSize]

namespace Diagnostic

/-- The position that a diagnostic of the grammar is charged to. It is where the diagnostic starts, unless that
points back at an opening token: then it is the position after what the diagnostic covers. -/
def chargedTo (text : String) (d : Diagnostic) : Nat :=
  match d.span with
  | none => text.utf8ByteSize
  | some span => if d.related.isEmpty then span.range.start else positionFrom text span.range.stop

/-- A diagnostic that points at ranges of one literal, none of which cuts a token. -/
structure Placed (text : String) (source : Nat) (d : Diagnostic) : Prop where
  span : ∃ range, d.span = some ⟨source, range⟩ ∧ range.Cuts text
  related : ∀ place ∈ d.related, place.span.source = source ∧ place.span.range.Cuts text

end Diagnostic

/-- Diagnostics of the grammar, in the order they were reported. -/
structure Diagnostics.Charged (text : String) (source : Nat) (ds : Diagnostics) : Prop where
  increasing : (ds.map (·.chargedTo text)).Pairwise (· < ·)
  positions : (ds.map (·.chargedTo text)).Sublist (IsoLiteral.positions text)
  few : ds.length ≤ ((lex text).filter (!·.isTrivia)).length + 1
  placed : ∀ d ∈ ds, d.Placed text source

namespace Parser

/-! ## Where the parser is -/

/-- The parser is within a text: what it has passed since the last token it took are trivia. -/
structure Within (text : String) (source : Nat) (s : State) : Prop where
  literal : s.source = source
  length : s.length = text.utf8ByteSize
  place : ∃ before passed, lex text = before ++ (passed ++ s.rest) ∧ (∀ t ∈ passed, t.isTrivia = true) ∧
    Token.Spans 0 before s.lastStop ∧ Token.Spans s.lastStop passed s.here.start ∧
    Token.Spans s.here.start s.rest s.length

variable {text : String} {source : Nat} {s s' : State}

theorem start_here {rest : List Token} {a : Nat} (here : s.rest = rest) (spans : Token.Spans a rest s.length) :
    s.here.start = a := by
  rw [State.here, here]
  cases rest with
  | nil => exact spans.symm
  | cons t rest => exact spans.1

theorem Within.initial (text : String) (source : Nat) (limits : ParseLimits) :
    Within text source (State.initial text source limits) := by
  have spans := (partition_lex text).contiguous
  have start : (State.initial text source limits).here.start = 0 := start_here rfl spans
  exact ⟨rfl, rfl, [], [], rfl, fun _ none => absurd none List.not_mem_nil, rfl, start.symm, start ▸ spans⟩

/-- What happens to the tree, the diagnostics and the limits does not matter for where the parser is. -/
theorem Within.congr (h : Within text source s) (same : s'.source = s.source) (length : s'.length = s.length)
    (rest : s'.rest = s.rest) (stop : s'.lastStop = s.lastStop) : Within text source s' := by
  have here : s'.here = s.here := by rw [State.here, State.here, rest, length]
  refine ⟨same.trans h.literal, length.trans h.length, ?_⟩
  rw [here, rest, length, stop]
  exact h.place

theorem Within.settle (h : Within text source s) :
    Within text source (settle s).2 ∧ s.here.start ≤ (settle s).2.here.start := by
  obtain ⟨before, passed, tokens, trivia, first, second, third⟩ := h.place
  rw [← List.takeWhile_append_dropWhile (p := Token.isTrivia) (l := s.rest)] at third
  obtain ⟨next, skipped, left⟩ := Token.spans_append.1 third
  have start : (Parser.settle s).2.here.start = next := start_here rfl left
  refine ⟨⟨h.literal, h.length, before, passed ++ s.rest.takeWhile Token.isTrivia, ?_, ?_, first, ?_, ?_⟩, ?_⟩
  · show _ = before ++ (_ ++ s.rest.dropWhile Token.isTrivia)
    rw [List.append_assoc, List.takeWhile_append_dropWhile]
    exact tokens
  · exact List.forall_mem_append.2 ⟨trivia, fun t => List.mem_takeWhile_imp⟩
  · rw [start]
    exact Token.spans_append.2 ⟨_, second, skipped⟩
  · rw [start]
    exact left
  · rw [start]
    exact skipped.le

theorem here_of_cons {t : Token} {rest : List Token} (here : s.rest = t :: rest) : s.here = t.range := by
  rw [State.here, here]
  rfl

theorem Within.take (h : Within text source s) {t : Token} {rest : List Token} (here : s.rest = t :: rest)
    (leaf : SyntaxKind) : Within text source (s.taken t rest leaf) ∧ s.lastStop ≤ t.stop ∧
      s.here.start ≤ (s.taken t rest leaf).here.start := by
  obtain ⟨before, passed, tokens, trivia, first, second, third⟩ := h.place
  have now : s.here.start = t.start := congrArg TextRange.start (here_of_cons here)
  rw [here] at tokens third
  have length : (s.taken t rest leaf).length = s.length := by rw [State.taken, flush_spendFuel]
  have same : (s.taken t rest leaf).source = s.source := by rw [State.taken, flush_spendFuel]
  have start : (s.taken t rest leaf).here.start = t.stop := start_here rfl (length ▸ third.2)
  refine ⟨⟨same.trans h.literal, length.trans h.length, before ++ passed ++ [t], [], ?_, ?_, ?_, ?_, ?_⟩, ?_, ?_⟩
  · show _ = _ ++ rest
    rw [tokens, List.append_assoc, List.append_assoc, List.singleton_append]
  · exact fun _ none => absurd none List.not_mem_nil
  · refine Token.spans_append.2 ⟨t.start, Token.spans_append.2 ⟨_, first, now ▸ second⟩, Token.spans_singleton⟩
  · exact start.symm
  · rw [start, length]
    exact third.2
  · exact second.le.trans (now.le.trans t.start_le_stop)
  · rw [start, now]
    exact t.start_le_stop

theorem Within.next (h : Within text source s) {t : Token} {rest : List Token} (here : s.rest = t :: rest) :
    ∃ before, lex text = before ++ t :: rest := by
  obtain ⟨before, passed, tokens, -⟩ := h.place
  exact ⟨before ++ passed, by rw [tokens, here, List.append_assoc]⟩

theorem Within.boundary (h : Within text source s) : TokenBoundary text s.lastStop := by
  obtain ⟨before, passed, tokens, -, first, -⟩ := h.place
  exact ⟨before, _, tokens, first⟩

theorem Within.atEnd (h : Within text source s) (none : s.rest = []) : s.here = .empty text.utf8ByteSize := by
  rw [State.here, none, ← h.length]
  rfl

/-- The next token is where a diagnostic may be charged, and what points at it cuts no token. -/
theorem Within.cuts_here (h : Within text source s) : s.here.Cuts text := by
  cases here : s.rest with
  | nil =>
    rw [h.atEnd here]
    have boundary : TokenBoundary text text.utf8ByteSize :=
      ⟨lex text, [], (List.append_nil _).symm, (partition_lex text).contiguous⟩
    exact .of_boundaries le_rfl boundary boundary
  | cons t rest =>
    obtain ⟨before, tokens⟩ := h.next here
    rw [here_of_cons here]
    exact Token.cuts tokens

theorem Within.start_mem_positions (h : Within text source s) (settled : s.Settled) :
    s.here.start ∈ positions text := by
  cases here : s.rest with
  | nil =>
    rw [h.atEnd here]
    exact List.mem_append_right _ (List.mem_singleton.2 rfl)
  | cons t rest =>
    obtain ⟨before, tokens⟩ := h.next here
    have solid := settled t (by rw [here]; rfl)
    rw [here_of_cons here]
    refine List.mem_append_left _ (List.mem_map_of_mem (List.mem_filter.2 ⟨?_, by simp [solid]⟩))
    rw [tokens]
    exact List.mem_append_right _ List.mem_cons_self

/-- The next token is the first that matters after the last one that was taken. -/
theorem Within.positionFrom_lastStop (h : Within text source s) (settled : s.Settled) :
    positionFrom text s.lastStop = s.here.start := by
  obtain ⟨before, passed, tokens, trivia, first, second, third⟩ := h.place
  have taken : before.find? (fun t => !t.isTrivia && s.lastStop ≤ t.start) = none := by
    refine List.find?_eq_none.2 fun t member => ?_
    have nonempty : t.text ≠ "" := (partition_lex text).nonempty t (tokens ▸ List.mem_append_left _ member)
    have longer : t.start < t.stop := Nat.lt_add_of_pos_right (Nat.pos_of_ne_zero (by simpa using nonempty))
    have within := (first.within member).2
    simp
    omega
  have skipped : passed.find? (fun t => !t.isTrivia && s.lastStop ≤ t.start) = none :=
    List.find?_eq_none.2 fun t member => by simp [trivia t member]
  rw [positionFrom, tokens, List.find?_append, taken, List.find?_append, skipped]
  cases here : s.rest with
  | nil =>
    rw [h.atEnd here]
    rfl
  | cons t rest =>
    have solid := settled t (by rw [here]; rfl)
    have now := here_of_cons here
    have after : s.lastStop ≤ t.start := second.le.trans (congrArg TextRange.start now).le
    rw [List.find?_cons_of_pos (by simp [solid, after]), now]
    rfl

/-! ## What it charges -/

/-- The parser is within a text, and what it reported so far is charged to positions that it has reached. -/
structure Charging (text : String) (source : Nat) (s : State) : Prop extends Within text source s where
  last : s.lastErrorAt = (s.diagnostics.map (·.chargedTo text)).getLast?
  increasing : (s.diagnostics.map (·.chargedTo text)).Pairwise (· < ·)
  reached : ∀ offset ∈ s.diagnostics.map (·.chargedTo text), offset ≤ s.here.start ∧ offset ∈ positions text
  placed : ∀ d ∈ s.diagnostics, d.Placed text source

theorem Charging.initial (text : String) (source : Nat) (limits : ParseLimits) :
    Charging text source (State.initial text source limits) :=
  { Within.initial text source limits with
    last := rfl
    increasing := .nil
    reached := fun _ none => absurd none List.not_mem_nil
    placed := fun _ none => absurd none List.not_mem_nil }

/-- Where nothing is reported, the parser only has to go on. -/
theorem Charging.move (h : Charging text source s) (within : Within text source s')
    (on : s.here.start ≤ s'.here.start) (diagnostics : s'.diagnostics = s.diagnostics)
    (last : s'.lastErrorAt = s.lastErrorAt) : Charging text source s' where
  toWithin := within
  last := by rw [last, diagnostics, h.last]
  increasing := by rw [diagnostics]; exact h.increasing
  reached offset member := by
    rw [diagnostics] at member
    exact ⟨(h.reached offset member).1.trans on, (h.reached offset member).2⟩
  placed := by rw [diagnostics]; exact h.placed

theorem Charging.flush (h : Charging text source s) : Charging text source (flush s).2 :=
  h.move (h.toWithin.congr rfl rfl rfl rfl) le_rfl rfl rfl

theorem Charging.take (h : Charging text source s) {t : Token} {rest : List Token} (here : s.rest = t :: rest)
    (leaf : SyntaxKind) : Charging text source (s.taken t rest leaf) ∧ s.lastStop ≤ t.stop := by
  obtain ⟨within, stop, on⟩ := h.toWithin.take here leaf
  refine ⟨h.move within on ?_ ?_, stop⟩ <;> rw [State.taken, flush_spendFuel]

/-- A position that differs from the last one that was charged differs from all of them. -/
theorem Charging.before (h : Charging text source s) (fresh : s.lastErrorAt ≠ some s.here.start) :
    ∀ offset ∈ s.diagnostics.map (·.chargedTo text), offset < s.here.start := by
  have increasing := h.increasing
  have last := h.last
  have reached := h.reached
  generalize s.diagnostics.map (·.chargedTo text) = charged at increasing last reached ⊢
  induction charged using List.reverseRecOn with
  | nil => exact fun _ none => absurd none List.not_mem_nil
  | append_singleton earlier newest _ =>
    rw [List.getLast?_concat] at last
    have newer : newest < s.here.start := by
      refine lt_of_le_of_ne (reached newest (by simp)).1 fun same => fresh ?_
      rw [last, same]
    intro offset member
    rcases List.mem_append.1 member with early | new
    · exact ((List.pairwise_append.1 increasing).2.2 offset early newest (by simp)).trans newer
    · rwa [List.mem_singleton.1 new]

theorem Charging.charge (h : Charging text source s) (settled : s.Settled)
    (fresh : s.lastErrorAt ≠ some s.here.start) {d : Diagnostic} (goes : d.chargedTo text = s.here.start)
    (placed : d.Placed text source) : Charging text source (s.charged d) := by
  have earlier := h.before fresh
  have charged : (s.charged d).diagnostics.map (·.chargedTo text) =
      s.diagnostics.map (·.chargedTo text) ++ [s.here.start] := by
    rw [State.charged, List.map_append, List.map_singleton, goes]
  have here : (s.charged d).here = s.here := rfl
  refine ⟨h.toWithin.congr rfl rfl rfl rfl, ?_, ?_, ?_, ?_⟩
  · rw [charged, List.getLast?_concat]
    rfl
  · rw [charged]
    refine List.pairwise_append.2 ⟨h.increasing, List.pairwise_singleton _ _, fun offset member now same => ?_⟩
    rw [List.mem_singleton.1 same]
    exact earlier offset member
  · rw [charged, here]
    refine List.forall_mem_append.2 ⟨h.reached, List.forall_mem_singleton.2 ⟨le_rfl, ?_⟩⟩
    exact h.start_mem_positions settled
  · exact List.forall_mem_append.2 ⟨h.placed, List.forall_mem_singleton.2 placed⟩

/-- Along a course the parser goes on, and all that it reports is charged to a new position. -/
theorem Course.charging (course : Course s s') (h : Charging text source s) :
    Charging text source s' ∧ s.lastStop ≤ s'.lastStop := by
  induction course with
  | refl s => exact ⟨h, le_rfl⟩
  | trans _ _ first second =>
    obtain ⟨between, on⟩ := first h
    obtain ⟨after, on'⟩ := second between
    exact ⟨after, on.trans on'⟩
  | settle s =>
    obtain ⟨within, on⟩ := h.toWithin.settle
    exact ⟨h.move within on rfl rfl, le_rfl⟩
  | idle s => exact ⟨h.move (h.toWithin.congr rfl rfl rfl rfl) le_rfl rfl rfl, le_rfl⟩
  | take here => exact h.take here _
  | @charge s settled fresh kind detail =>
    refine ⟨h.charge settled fresh rfl ⟨⟨s.here, ?_, h.cuts_here⟩, ?_⟩, le_rfl⟩
    · rw [← h.literal]
      rfl
    · exact fun _ none => absurd none List.not_mem_nil
  | @unclosed s u t rest leaf here solid becomes _ settled fresh kind message inside =>
    obtain ⟨before, tokens⟩ := h.toWithin.next here
    have opener := Token.cuts tokens
    obtain ⟨opened, stop⟩ := h.take here leaf
    obtain ⟨after, on'⟩ := inside opened
    have covers : max u.lastStop t.stop = u.lastStop := max_eq_left on'
    refine ⟨after.charge settled fresh ?_ ⟨⟨⟨t.start, max u.lastStop t.stop⟩, ?_, ?_⟩, ?_⟩, stop.trans on'⟩
    · show positionFrom text (max u.lastStop t.stop) = _
      rw [covers, after.positionFrom_lastStop settled]
    · rw [← after.literal]
      rfl
    · rw [covers]
      exact .of_boundaries (t.start_le_stop.trans on') opener.starts after.boundary
    · rw [← after.literal]
      exact List.forall_mem_singleton.2 ⟨rfl, opener⟩
  | flush _ _ run => exact run h.flush
  | @node s v u since kind _ built _ trim base inside =>
    obtain ⟨between, on⟩ := base h
    obtain ⟨after, on'⟩ := inside (between.move (between.toWithin.congr rfl rfl rfl rfl) le_rfl rfl rfl)
    exact ⟨after.move (after.toWithin.congr rfl rfl rfl rfl) le_rfl rfl rfl, on.trans on'⟩

theorem charging_finalState (text : String) (source : Nat) (limits : ParseLimits) :
    Charging text source (finalState text source limits) := by
  rw [finalState_eq_flush]
  exact ((course_lastState text source limits).charging (.initial text source limits)).1.flush

end Parser

/-- Positions come one after the other. -/
theorem pairwise_positions (text : String) : (positions text).Pairwise (· < ·) := by
  have cut := partition_lex text
  refine (Token.pairwise_of_spans cut.contiguous cut.nonempty).1.sublist ?_
  exact (List.filter_sublist.map Token.start).append_right _

open IsoLiteral.Parser

/-- No position is charged twice: the positions that the diagnostics of the grammar are charged to increase in the
order of the diagnostics, the last one being what the parser remembers at the end, so that there is at most
one diagnostic for each token that matters and one for the end. All that they point at starts and stops with a
token. -/
theorem parseTree_charged {text : String} {source : Nat} {limits : ParseLimits} {tree : Tree} {ds : Diagnostics}
    (parsed : parseTree text source limits = .ok (tree, ds)) :
    ds.Charged text source ∧
      (finalState text source limits).lastErrorAt = (ds.map (·.chargedTo text)).getLast? := by
  rw [(parseTree_eq_ok.1 parsed).2.2]
  have charging := charging_finalState text source limits
  have sublist : ((finalState text source limits).diagnostics.map (·.chargedTo text)).Sublist
      (positions text) :=
    List.sublist_of_subperm_of_pairwise
      (charging.increasing.nodup.subperm fun offset member => (charging.reached offset member).2)
      charging.increasing (pairwise_positions text)
  refine ⟨⟨charging.increasing, sublist, ?_, charging.placed⟩, charging.last⟩
  have few := sublist.length_le
  rw [positions, List.length_map, List.length_append, List.length_map, List.length_singleton] at few
  exact few

/-- In the broken literal the stray characters are charged, and the list that is not closed is charged to the
end although it is reported from its bracket on. The argument list and the selection set, not closed either,
find the end charged already. -/
theorem parseTree_charged_broken :
    ∃ tree ds, parseTree brokenLiteral 0 ⟨some 14, some 3⟩ = .ok (tree, ds) ∧
      ds.map (·.chargedTo brokenLiteral) = [24, 35] ∧ ds.Charged brokenLiteral 0 := by
  obtain ⟨within, charged⟩ : (finalState brokenLiteral 0 ⟨some 14, some 3⟩).exceeded = none ∧
      (finalState brokenLiteral 0 ⟨some 14, some 3⟩).diagnostics.map (·.chargedTo brokenLiteral) =
        [24, 35] := by decide +kernel
  have parsed := parseTree_eq_ok.2 ⟨within, rfl, rfl⟩
  exact ⟨_, _, parsed, charged, (parseTree_charged parsed).1⟩

end IsoLiteral
