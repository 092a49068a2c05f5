import IsoLiteral.Proofs.Syntax.Reading
import IsoLiteral.Proofs.Syntax.Rule

/-!
# Readings that realize rules

A reading realizes a rule when it succeeds exactly where the rule applies: what it takes and leaves is an
instance of the rule, and every instance of the rule is found, provided that the token after it could not
have been taken for a continuation. With it goes what the reading builds. The relation goes through the
same ways of putting parts together as the rules do, so that a production realizes its rule as soon as its
parts realize theirs.
-/

namespace IsoLiteral

/-! ## How instances of rules start -/

namespace Rule

variable {α β : Type} {rule : Rule α} {second : Rule β} {first next : List SyntaxKind}

/-- Every instance takes a token, and the first one is of one of the given kinds. -/
def Starts (rule : Rule α) (first : List SyntaxKind) : Prop :=
  ∀ ⦃tokens x rest⦄, rule tokens x rest → Parser.headKind tokens ∈ first ∧ rest.length < tokens.length

/-- Every instance takes no token, or its first one is of one of the given kinds. -/
def MayStart (rule : Rule α) (first : List SyntaxKind) : Prop :=
  ∀ ⦃tokens x rest⦄, rule tokens x rest →
    rest = tokens ∨ (Parser.headKind tokens ∈ first ∧ rest.length < tokens.length)

theorem Starts.may (h : Starts rule first) : MayStart rule first := fun _ _ _ applies => .inr (h applies)

theorem MayStart.length_le (h : MayStart rule first) {tokens rest : List Token} {x : α}
    (applies : rule tokens x rest) : rest.length ≤ tokens.length := by
  rcases h applies with rfl | ⟨-, fewer⟩
  · exact le_rfl
  · exact fewer.le

theorem starts_single {meaning : Token → Option α}
    (kinds : ∀ t x, meaning t = some x → t.kind ∈ first) : Starts (single meaning) first := by
  rintro tokens x rest ⟨t, rfl, means⟩
  exact ⟨kinds t x means, Nat.lt_succ_self _⟩

theorem single_iff {accepts : Token → Prop} [DecidablePred accepts] {f : Token → α} {tokens rest : List Token}
    {x : α} : single (fun t => if accepts t then some (f t) else none) tokens x rest ↔
      ∃ t, tokens = t :: rest ∧ accepts t ∧ f t = x := by
  simp only [single, Option.ite_none_right_eq_some, Option.some.injEq]

theorem token_iff {kind : SyntaxKind} {tokens rest : List Token} {t : Token} :
    token kind tokens t rest ↔ tokens = t :: rest ∧ t.kind = kind := by
  rw [token, single_iff]
  constructor
  · rintro ⟨_, rfl, same, rfl⟩
    exact ⟨rfl, same⟩
  · rintro ⟨rfl, same⟩
    exact ⟨t, rfl, same, rfl⟩

theorem keyword_iff {text : String} {tokens rest : List Token} {t : Token} :
    keyword text tokens t rest ↔ tokens = t :: rest ∧ t.kind = .identifier ∧ t.text = text := by
  rw [keyword, single_iff]
  constructor
  · rintro ⟨_, rfl, same, rfl⟩
    exact ⟨rfl, same⟩
  · rintro ⟨rfl, same⟩
    exact ⟨t, rfl, same, rfl⟩

theorem starts_token (kind : SyntaxKind) : Starts (token kind) [kind] := by
  intro tokens t rest applies
  obtain ⟨rfl, same⟩ := token_iff.1 applies
  exact ⟨List.mem_singleton.2 same, Nat.lt_succ_self _⟩

theorem starts_keyword (text : String) : Starts (keyword text) [.identifier] := by
  intro tokens t rest applies
  obtain ⟨rfl, named, -⟩ := keyword_iff.1 applies
  exact ⟨List.mem_singleton.2 named, Nat.lt_succ_self _⟩

theorem Starts.map (h : Starts rule first) (f : α → β) : Starts (map f rule) first := by
  rintro tokens _ rest ⟨x, applies, rfl⟩
  exact h applies

theorem MayStart.map (h : MayStart rule first) (f : α → β) : MayStart (map f rule) first := by
  rintro tokens _ rest ⟨x, applies, rfl⟩
  exact h applies

theorem Starts.seq (h : Starts rule first) (more : MayStart second next) :
    Starts (seq rule second) first := by
  rintro tokens x rest ⟨between, here, there⟩
  obtain ⟨starts, fewer⟩ := h here
  have kept := more.length_le there
  exact ⟨starts, by omega⟩

theorem MayStart.seq (h : MayStart rule first) (more : MayStart second next) :
    MayStart (seq rule second) (first ++ next) := by
  rintro tokens x rest ⟨between, here, there⟩
  rcases h here with rfl | ⟨starts, fewer⟩
  · rcases more there with rfl | ⟨starts, fewer⟩
    · exact .inl rfl
    · exact .inr ⟨List.mem_append_right _ starts, fewer⟩
  · have kept := more.length_le there
    exact .inr ⟨List.mem_append_left _ starts, by omega⟩

/-- A first part that may be empty before one that is not. -/
theorem MayStart.seq_starts (h : MayStart rule first) (more : Starts second next) :
    Starts (Rule.seq rule second) (first ++ next) := by
  rintro tokens x rest ⟨between, here, there⟩
  obtain ⟨startsNext, fewer⟩ := more there
  rcases h here with rfl | ⟨starts, fewer'⟩
  · exact ⟨List.mem_append_right _ startsNext, fewer⟩
  · exact ⟨List.mem_append_left _ starts, by omega⟩

theorem Starts.optional (h : Starts rule first) : MayStart (optional rule) first := by
  intro tokens x rest applies
  cases applies with
  | none => exact .inl rfl
  | some here => exact .inr (h here)

theorem Starts.many (h : Starts rule first) : MayStart (many rule) first := by
  intro tokens xs rest applies
  induction applies with
  | nil => exact .inl rfl
  | cons here there ih =>
    obtain ⟨starts, fewer⟩ := h here
    rcases ih with rfl | ⟨-, fewer'⟩
    · exact .inr ⟨starts, fewer⟩
    · exact .inr ⟨starts, by omega⟩

/-- One rule or another. -/
theorem Starts.or {other : Rule α} (h : Starts rule first) (h' : Starts other next) :
    Starts (fun v x v' => rule v x v' ∨ other v x v') (first ++ next) := by
  rintro tokens x rest (applies | applies)
  · exact ⟨List.mem_append_left _ (h applies).1, (h applies).2⟩
  · exact ⟨List.mem_append_right _ (h' applies).1, (h' applies).2⟩

/-- Items take a token at least, the one that closes their list. -/
theorem length_items (h : Starts rule first) {close : SyntaxKind} {tokens rest : List Token} {xs : List α}
    (applies : items rule close tokens xs rest) : rest.length < tokens.length := by
  induction applies with
  | close => exact Nat.lt_succ_self _
  | comma _ _ ih => exact Nat.lt_succ_of_lt ih
  | item here _ ih =>
    have fewer := (h here).2
    omega

/-- Items start with an item, a comma or the token that closes their list. -/
theorem headKind_items (h : Starts rule first) {close : SyntaxKind} {tokens rest : List Token}
    {xs : List α} (applies : items rule close tokens xs rest) :
    Parser.headKind tokens ∈ close :: .comma :: first := by
  cases applies with
  | close here => exact List.mem_cons.2 (.inl here)
  | comma here => exact List.mem_cons_of_mem _ (List.mem_cons.2 (.inl here))
  | item here => exact List.mem_cons_of_mem _ (List.mem_cons_of_mem _ (h here).1)

theorem Starts.enclosed (h : Starts rule first) (opening close : SyntaxKind) :
    Starts (enclosed opening close rule) [opening] := by
  rintro tokens _ rest ⟨⟨t, xs⟩, ⟨between, here, there⟩, rfl⟩
  obtain ⟨starts, fewer⟩ := starts_token opening here
  have fewer' := length_items h there
  exact ⟨starts, by omega⟩

end Rule

/-! ## What is built for what is read -/

/-- Which trees are built for what a rule reads. -/
abbrev Built (α : Type) := List Tree → α → Prop

namespace Built

variable {α β : Type}

/-- The token itself. -/
def token (kind : SyntaxKind) : Built Token := fun trees t => trees = [.token t] ∧ t.kind = kind

/-- One after another. -/
def seq (first : Built α) (second : Built β) : Built (α × β) :=
  fun trees x => ∃ left right, trees = left ++ right ∧ first left x.1 ∧ second right x.2

/-- The same trees for another form of what is read. -/
def map (f : α → β) (built : Built α) : Built β := fun trees y => ∃ x, built trees x ∧ f x = y

/-- A node that holds what is built. -/
def node (kind : SyntaxKind) (built : Built α) : Built α :=
  fun trees x => ∃ inner, trees = [.node kind inner] ∧ built inner x

/-- Nothing for a part that is missing. -/
def optional (built : Built α) : Built (Option α)
  | trees, none => trees = []
  | trees, some x => built trees x

/-- Part by part. -/
inductive many (built : Built α) : List Tree → List α → Prop
  | nil : many built [] []
  | cons {left right : List Tree} {x : α} {xs : List α} :
    built left x → many built right xs → many built (left ++ right) (x :: xs)

/-- Items and commas, and the token that closes their list. -/
inductive items (built : Built α) (close : SyntaxKind) : List Tree → List α → Prop
  | close {t : Token} : t.kind = close → items built close [.token t] []
  | comma {t : Token} {trees : List Tree} {xs : List α} :
    t.kind = .comma → items built close trees xs → items built close (.token t :: trees) xs
  | item {left right : List Tree} {x : α} {xs : List α} :
    built left x → items built close right xs → items built close (left ++ right) (x :: xs)

/-- A node that holds the items of a list between its delimiters. -/
def enclosed (nodeKind opening close : SyntaxKind) (built : Built α) : Built (List α) :=
  node nodeKind (map Prod.snd (seq (token opening) (items built close)))

/-- One node of a kind for each part. -/
def nodes (kind : SyntaxKind) (built : Built α) : Built (List α) :=
  fun trees xs => ∃ inners, trees = Tree.nodes kind inners ∧ List.Forall₂ built inners xs

/-- A node of a kind for a part that may be missing. -/
def node? (kind : SyntaxKind) (built : Built α) : Built (Option α) :=
  fun trees x => ∃ inner : Option (List Tree), trees = Tree.nodes kind inner.toList ∧
    List.Forall₂ built inner.toList x.toList

/-- A node of a kind that holds one node for each item of a list, or nothing at all. -/
def list? (kind itemKind : SyntaxKind) (built : Built α) : Built (List α) :=
  fun trees xs => ∃ list : Option (List Tree), trees = Tree.nodes kind list.toList ∧
    List.Forall₂ built (Tree.nodesOfKind itemKind (list.getD [])) xs

variable {built : Built α} {kind itemKind close opening : SyntaxKind} {trees : List Tree}

theorem nodes_of_many {xs : List α} (parts : (built.node kind).many trees xs) :
    built.nodes kind trees xs := by
  induction parts with
  | nil => exact ⟨[], rfl, .nil⟩
  | cons here _ ih =>
    obtain ⟨inner, rfl, holds⟩ := here
    obtain ⟨inners, rfl, more⟩ := ih
    exact ⟨inner :: inners, rfl, .cons holds more⟩

theorem node?_of_optional {x : Option α} (part : (built.node kind).optional trees x) :
    built.node? kind trees x := by
  cases x with
  | none =>
    obtain rfl : trees = [] := part
    exact ⟨none, rfl, .nil⟩
  | some x =>
    obtain ⟨inner, rfl, holds⟩ := part
    exact ⟨some inner, rfl, .cons holds .nil⟩

/-- The nodes of the items are all there is of their kind. -/
theorem forall₂_of_items {xs : List α} (items : (built.node kind).items close trees xs) :
    List.Forall₂ built (Tree.nodesOfKind kind trees) xs := by
  induction items with
  | close _ =>
    rw [Tree.nodesOfKind_token, Tree.nodesOfKind_nil]
    exact .nil
  | comma _ _ ih =>
    rw [Tree.nodesOfKind_token]
    exact ih
  | item here _ ih =>
    obtain ⟨inner, rfl, holds⟩ := here
    rw [List.singleton_append, Tree.nodesOfKind_node, if_pos rfl]
    exact .cons holds ih

theorem forall₂_of_enclosed {nodeKind : SyntaxKind} {xs : List α}
    (list : (built.node itemKind).enclosed nodeKind opening close trees xs) :
    ∃ inner, trees = [.node nodeKind inner] ∧ List.Forall₂ built (Tree.nodesOfKind itemKind inner) xs := by
  obtain ⟨_, rfl, ⟨t, _⟩, ⟨_, trees, rfl, ⟨rfl, -⟩, items⟩, rfl⟩ := list
  refine ⟨_, rfl, ?_⟩
  rw [List.singleton_append, Tree.nodesOfKind_token]
  exact forall₂_of_items items

theorem list?_of_optional {xs : Option (List α)}
    (list : ((built.node itemKind).enclosed kind opening close).optional trees xs) :
    built.list? kind itemKind trees (xs.getD []) := by
  cases xs with
  | none =>
    obtain rfl : trees = [] := list
    exact ⟨none, rfl, .nil⟩
  | some xs =>
    obtain ⟨inner, rfl, holds⟩ := forall₂_of_enclosed list
    exact ⟨some inner, rfl, holds⟩

end Built

/-! ## Realizing a rule -/

namespace Parser

open Reading

/-- On fewer tokens than `bound`, a reading finds the instances of a rule, and builds what belongs to them.
None is missed unless the token after it is of one of the kinds in `stops`. -/
structure Realizes {α : Type} (bound : Nat) (m : Reading Unit) (rule : Rule α) (built : Built α)
    (stops : List SyntaxKind) : Prop where
  sound : ∀ {v b w}, v.length < bound → m ⟨v, b⟩ = some ((), w) →
    ∃ x trees, rule v x w.tokens ∧ w.built = b ++ trees ∧ built trees x
  complete : ∀ {v b x v'}, v.length < bound → rule v x v' → headKind v' ∉ stops →
    ∃ trees, m ⟨v, b⟩ = some ((), ⟨v', b ++ trees⟩) ∧ built trees x

namespace Realizes

variable {α β : Type} {bound : Nat} {m m₁ m₂ : Reading Unit} {rule : Rule α} {second : Rule β}
  {built built' : Built α} {more : Built β} {stops stops₂ first next : List SyntaxKind}
  {kind close : SyntaxKind} {isItem isStop : SyntaxKind → Bool}

theorem mono {smaller : Nat} (h : Realizes bound m rule built stops) (le : smaller ≤ bound) :
    Realizes smaller m rule built stops where
  sound few := h.sound (few.trans_le le)
  complete few := h.complete (few.trans_le le)

/-- The same reading under another view of what it builds. -/
theorem imp (h : Realizes bound m rule built stops) (implies : ∀ trees x, built trees x → built' trees x) :
    Realizes bound m rule built' stops where
  sound few run := by
    obtain ⟨x, trees, applies, grown, builds⟩ := h.sound few run
    exact ⟨x, trees, applies, grown, implies trees x builds⟩
  complete few applies free := by
    obtain ⟨trees, run, builds⟩ := h.complete few applies free
    exact ⟨trees, run, implies trees _ builds⟩

theorem map (h : Realizes bound m rule built stops) (f : α → β) :
    Realizes bound m (rule.map f) (built.map f) stops where
  sound few run := by
    obtain ⟨x, trees, applies, grown, builds⟩ := h.sound few run
    exact ⟨f x, trees, ⟨x, applies, rfl⟩, grown, x, builds, rfl⟩
  complete := by
    rintro v b _ v' few ⟨x, applies, rfl⟩ free
    obtain ⟨trees, run, builds⟩ := h.complete few applies free
    exact ⟨trees, run, x, builds, rfl⟩

/-- A rule that applies to the same tokens. -/
theorem congr {rule' : Rule α} (h : Realizes bound m rule built stops)
    (same : ∀ v x v', rule v x v' ↔ rule' v x v') : Realizes bound m rule' built stops where
  sound few run := by
    obtain ⟨x, trees, applies, rest⟩ := h.sound few run
    exact ⟨x, trees, (same _ _ _).1 applies, rest⟩
  complete few applies free := h.complete few ((same _ _ _).2 applies) free

theorem of_eq (h : Realizes bound m₁ rule built stops) (same : ∀ w, m₂ w = m₁ w) :
    Realizes bound m₂ rule built stops :=
  (funext same : m₂ = m₁) ▸ h

theorem node (h : Realizes bound m rule built stops) (kind : SyntaxKind) :
    Realizes bound (Reading.node kind m) rule (built.node kind) stops where
  sound := by
    intro v b w few run
    obtain ⟨⟨⟨⟩, u⟩, inside, closed⟩ := Option.bind_eq_some_iff.1 run
    obtain ⟨x, trees, applies, grown, builds⟩ := h.sound few inside
    cases closed
    exact ⟨x, [.node kind trees], applies, by rw [grown, List.nil_append], trees, rfl, builds⟩
  complete := by
    intro v b x v' few applies free
    obtain ⟨trees, run, builds⟩ := h.complete (b := []) few applies free
    refine ⟨[.node kind trees], ?_, trees, rfl, builds⟩
    show (m ⟨v, []⟩).bind (fun next => Reading.closeNode kind b next.2) = _
    rw [run]
    rfl

/-- One reading after another, which may see fewer tokens. -/
theorem chain {bound' : Nat} (h : Realizes bound m₁ rule built stops)
    (h' : Realizes bound' m₂ second more stops₂)
    (fewer : ∀ {v x u}, rule v x u → v.length < bound → u.length < bound')
    (apart : ∀ {u y v'}, second u y v' → headKind v' ∉ stops₂ → headKind u ∉ stops) :
    Realizes bound (m₁ >>= fun _ => m₂) (rule.seq second) (built.seq more) stops₂ where
  sound := by
    intro v b w few run
    obtain ⟨⟨⟨⟩, u⟩, left, right⟩ := Option.bind_eq_some_iff.1 run
    obtain ⟨x, trees, applies, grown, builds⟩ := h.sound few left
    obtain ⟨y, trees', applies', grown', builds'⟩ := h'.sound (b := u.built) (fewer applies few) right
    refine ⟨(x, y), trees ++ trees', ⟨u.tokens, applies, applies'⟩, ?_, trees, trees', rfl, builds, builds'⟩
    rw [grown', grown, List.append_assoc]
  complete := by
    rintro v b ⟨x, y⟩ v' few ⟨u, applies, applies'⟩ free
    obtain ⟨trees, run, builds⟩ := h.complete (b := b) few applies (apart applies' free)
    obtain ⟨trees', run', builds'⟩ := h'.complete (b := b ++ trees) (fewer applies few) applies' free
    refine ⟨trees ++ trees', ?_, trees, trees', rfl, builds, builds'⟩
    rw [bind_apply, run, Option.bind_some, run', List.append_assoc]

/-- What comes next takes a token that the first reading would not have taken. -/
theorem seq (h : Realizes bound m₁ rule built stops) (h' : Realizes bound m₂ second more stops₂)
    (starts : rule.MayStart first) (starts₂ : second.Starts next) (apart : ∀ kind ∈ next, kind ∉ stops) :
    Realizes bound (m₁ >>= fun _ => m₂) (rule.seq second) (built.seq more) stops₂ :=
  h.chain h' (fun applies few => (starts.length_le applies).trans_lt few)
    fun applies _ => apart _ (starts₂ applies).1

/-- What comes next may be nothing, so that the first reading sees the token after it. -/
theorem seq_may (h : Realizes bound m₁ rule built stops) (h' : Realizes bound m₂ second more stops₂)
    (starts : rule.MayStart first) (starts₂ : second.MayStart next) (apart : ∀ kind ∈ next, kind ∉ stops) :
    Realizes bound (m₁ >>= fun _ => m₂) (rule.seq second) (built.seq more) (stops ++ stops₂) := by
  have wider : Realizes bound m₂ second more (stops ++ stops₂) :=
    { sound := h'.sound
      complete := fun few applies free => h'.complete few applies fun stop =>
        free (List.mem_append_right _ stop) }
  refine h.chain wider (fun applies few => (starts.length_le applies).trans_lt few) fun applies free => ?_
  rcases starts₂ applies with rfl | ⟨begins, -⟩
  · exact fun stop => free (List.mem_append_left _ stop)
  · exact apart _ begins

theorem take (bound : Nat) (kind : SyntaxKind) (real : kind ≠ .error) :
    Realizes bound (Reading.take kind) (Rule.token kind) (Built.token kind) [] where
  sound := by
    intro v b w _ run
    rw [take_apply] at run
    split at run
    · rename_i here
      cases v with
      | nil => exact absurd here.symm real
      | cons t rest =>
        cases run
        exact ⟨t, [.token t], Rule.token_iff.2 ⟨rfl, here⟩, rfl, rfl, here⟩
    · cases run
  complete := by
    intro v b t v' _ applies _
    obtain ⟨rfl, here⟩ := Rule.token_iff.1 applies
    exact ⟨[.token t], (take_apply _ _).trans (if_pos here), rfl, here⟩

/-- A token and what comes after it, which sees one token less. -/
theorem after (h : Realizes bound m rule built stops) (kind : SyntaxKind) (real : kind ≠ .error) :
    Realizes (bound + 1) (Reading.take kind >>= fun _ => m) ((Rule.token kind).seq rule)
      ((Built.token kind).seq built) stops := by
  refine (take (bound + 1) kind real).chain h (fun applies few => ?_) fun _ _ => List.not_mem_nil
  have fewer := (Rule.starts_token kind applies).2
  omega

/-- Asking first whether a token may start an instance changes nothing. -/
theorem require {test : SyntaxKind → Bool} (h : Realizes bound m rule built stops)
    (starts : rule.Starts first) (tests : ∀ kind, test kind = true ↔ kind ∈ first) :
    Realizes bound (requireAt test m) rule built stops where
  sound := by
    intro v b w few run
    rw [requireAt_apply] at run
    exact h.sound few (Option.ite_none_right_eq_some.1 run).2
  complete := by
    intro v b x v' few applies free
    obtain ⟨trees, run, builds⟩ := h.complete (b := b) few applies free
    have here : test (headKind v) = true := (tests _).2 (starts applies).1
    exact ⟨trees, (requireAt_apply _ _ _).trans ((if_pos here).trans run), builds⟩

/-- A part that has to start with a token of one of some kinds, where it may be missing. -/
theorem optional {test : SyntaxKind → Bool} (h : Realizes bound (requireAt test m) rule built stops)
    (starts : rule.Starts first) (tests : ∀ kind, test kind = true ↔ kind ∈ first) :
    Realizes bound (whenAt test m) rule.optional built.optional (first ++ stops) where
  sound := by
    intro v b w few run
    rw [whenAt_apply] at run
    split at run
    · rename_i here
      obtain ⟨x, trees, applies, grown, builds⟩ := h.sound few ((requireAt_apply _ _ _).trans
        ((if_pos here).trans run))
      exact ⟨some x, trees, .some applies, grown, builds⟩
    · cases run
      exact ⟨none, [], .none, (List.append_nil _).symm, rfl⟩
  complete := by
    intro v b x v' few applies free
    cases applies with
    | none =>
      have other : ¬ test (headKind v) = true := fun here =>
        free (List.mem_append_left _ ((tests _).1 here))
      exact ⟨[], (whenAt_apply _ _ _).trans ((if_neg other).trans (by rw [List.append_nil])), rfl⟩
    | some applies =>
      have here : test (headKind v) = true := (tests _).2 (starts applies).1
      obtain ⟨trees, run, builds⟩ := h.complete (b := b) few applies fun stop =>
        free (List.mem_append_right _ stop)
      rw [requireAt_apply, if_pos here] at run
      exact ⟨trees, (whenAt_apply _ _ _).trans ((if_pos here).trans run), builds⟩

/-- A node may be asked for its first token from outside. -/
theorem outside {test : SyntaxKind → Bool} {nodeKind : SyntaxKind}
    (h : Realizes bound (Reading.node nodeKind (requireAt test m)) rule built stops) :
    Realizes bound (requireAt test (Reading.node nodeKind m)) rule built stops := by
  refine h.of_eq fun w => ?_
  simp only [requireAt_apply, Reading.node, Reading.opened, bind_apply]
  split <;> rfl

/-- Asking for the first token of a sequence is asking for the first token of its first part. -/
theorem ahead {test : SyntaxKind → Bool}
    (h : Realizes bound (requireAt test m₁ >>= fun _ => m₂) rule built stops) :
    Realizes bound (requireAt test (m₁ >>= fun _ => m₂)) rule built stops := by
  refine h.of_eq fun w => ?_
  simp only [requireAt_apply, bind_apply]
  split <;> rfl

/-- A token whose kind is known before it is taken. -/
theorem bump (h : Realizes bound (Reading.take kind >>= fun _ => m) rule built stops) :
    Realizes bound (requireAt (· = kind) (Reading.bump >>= fun _ => m)) rule built stops := by
  refine h.of_eq fun w => ?_
  simp only [requireAt_apply, bind_apply, take_apply, decide_eq_true_eq]
  split <;> rfl

/-- A node whose first token is known before it is taken. -/
theorem opened (h : Realizes bound (Reading.take kind >>= fun _ => m) rule built stops)
    (nodeKind : SyntaxKind) :
    Realizes bound (requireAt (· = kind) (Reading.node nodeKind (Reading.bump >>= fun _ => m))) rule
      (built.node nodeKind) stops :=
  (h.bump.node nodeKind).outside

/-- A node of a single token whose kind is known before it is taken. -/
theorem single (bound : Nat) (kind : SyntaxKind) (real : kind ≠ .error) (nodeKind : SyntaxKind) :
    Realizes bound (requireAt (· = kind) (Reading.node nodeKind Reading.bump)) (Rule.token kind)
      ((Built.token kind).node nodeKind) [] := by
  have taken : Realizes bound (requireAt (· = kind) Reading.bump) (Rule.token kind) (Built.token kind) [] :=
    (take bound kind real).of_eq fun w => by simp only [requireAt_apply, take_apply, decide_eq_true_eq]
  exact (taken.node nodeKind).outside

/-- Two alternatives that the tokens ahead tell apart. -/
theorem split {rule₂ : Rule α} (h : Realizes bound m₁ rule built stops)
    (h' : Realizes bound m₂ rule₂ built stops₂) (test : List Token → Bool)
    (yes : ∀ w, test w.tokens = true → m w = m₁ w)
    (no : ∀ w, test w.tokens = false → m w = m₂ w) (first : ∀ {v x v'}, rule v x v' → test v = true)
    (other : ∀ {v x v'}, rule₂ v x v' → test v = false) :
    Realizes bound m (fun v x v' => rule v x v' ∨ rule₂ v x v') built (stops ++ stops₂) where
  sound := by
    intro v b w few run
    cases here : test v with
    | true =>
      obtain ⟨x, trees, applies, rest⟩ := h.sound few ((yes ⟨v, b⟩ here).symm.trans run)
      exact ⟨x, trees, .inl applies, rest⟩
    | false =>
      obtain ⟨x, trees, applies, rest⟩ := h'.sound few ((no ⟨v, b⟩ here).symm.trans run)
      exact ⟨x, trees, .inr applies, rest⟩
  complete := by
    intro v b x v' few applies free
    rw [List.mem_append, not_or] at free
    rcases applies with applies | applies
    · obtain ⟨trees, run, builds⟩ := h.complete (b := b) few applies free.1
      exact ⟨trees, (yes ⟨v, b⟩ (first applies)).trans run, builds⟩
    · obtain ⟨trees, run, builds⟩ := h'.complete (b := b) few applies free.2
      exact ⟨trees, (no ⟨v, b⟩ (other applies)).trans run, builds⟩

/-- Two alternatives that the kind of the current token tells apart. -/
theorem choice {rule₂ : Rule α} {test : SyntaxKind → Bool} {other : List SyntaxKind}
    (h : Realizes bound (requireAt test m₁) rule built stops)
    (h' : Realizes bound m₂ rule₂ built stops₂) (starts : rule.Starts first)
    (tests : ∀ kind, test kind = true ↔ kind ∈ first) (starts₂ : rule₂.Starts other)
    (apart : ∀ kind ∈ other, kind ∉ first) :
    Realizes bound (branch test m₁ m₂) (fun v x v' => rule v x v' ∨ rule₂ v x v') built
      (stops ++ stops₂) := by
  refine h.split h' (fun tokens => test (headKind tokens)) (fun w here => ?_) (fun w other => ?_)
    (fun applies => (tests _).2 (starts applies).1)
    fun applies => Bool.eq_false_iff.2 fun here => apart _ (starts₂ applies).1 ((tests _).1 here)
  · rw [branch_apply, requireAt_apply, if_pos here, if_pos here]
  · rw [branch_apply, if_neg (Bool.eq_false_iff.1 other)]

/-- One round, and either more rounds or what comes after them. -/
theorem repeatStep_then (k : Nat) (step : Reading Bool) (last : Reading Unit) (w : View) :
    (Reading.repeatStep (k + 1) step >>= fun _ => last) w =
      (step w).bind fun next =>
        if next.1 then (Reading.repeatStep k step >>= fun _ => last) next.2 else last next.2 := by
  simp only [Reading.repeatStep, bind_apply, ite_apply, pure_apply]
  cases step w with
  | none => rfl
  | some next =>
    simp only [Option.bind_some]
    split <;> rfl

/-- What a round of a list can do. -/
theorem round_eq_some {v : List Token} {b : List Tree} {goOn : Bool} {u : View}
    (run : round close isItem isStop m ⟨v, b⟩ = some (goOn, u)) :
    (goOn = false ∧ u = ⟨v, b⟩) ∨
    (∃ t rest, v = t :: rest ∧ t.kind = .comma ∧ goOn = true ∧ u = ⟨rest, b ++ [.token t]⟩) ∨
    (goOn = true ∧ requireAt isItem m ⟨v, b⟩ = some ((), u)) := by
  cases v with
  | nil =>
    cases run
    exact .inl ⟨rfl, rfl⟩
  | cons t rest =>
    rw [round_cons] at run
    split at run
    · cases run
      exact .inl ⟨rfl, rfl⟩
    · split at run
      · rename_i comma
        cases run
        exact .inr (.inl ⟨t, rest, rfl, comma, rfl, rfl⟩)
      · split at run
        · rename_i here
          obtain ⟨⟨⟨⟩, u'⟩, took, same⟩ := Option.map_eq_some_iff.1 run
          cases same
          exact .inr (.inr ⟨rfl, (requireAt_apply _ _ _).trans ((if_pos here).trans took)⟩)
        · split at run
          · cases run
            exact .inl ⟨rfl, rfl⟩
          · cases run

/-- A round at an item. -/
theorem round_item {v : List Token} {b : List Tree} {u : View}
    (run : requireAt isItem m ⟨v, b⟩ = some ((), u)) (nonempty : v ≠ [])
    (closes : headKind v ≠ close) (commas : headKind v ≠ .comma) :
    round close isItem isStop m ⟨v, b⟩ = some (true, u) := by
  rw [requireAt_apply] at run
  obtain ⟨here, took⟩ := Option.ite_none_right_eq_some.1 run
  cases v with
  | nil => exact absurd rfl nonempty
  | cons t rest =>
    rw [headKind_cons] at closes commas
    rw [round_cons, if_neg closes, if_neg commas, if_pos (show isItem t.kind = true from here), took]
    rfl

/-- The rounds of a list find its items. -/
theorem sound_rounds (h : Realizes bound (requireAt isItem m) rule built stops)
    (starts : rule.Starts first) (real : close ≠ .error) :
    ∀ {k v b w}, v.length < bound → v.length < k →
      (Reading.repeatStep k (round close isItem isStop m) >>= fun _ => Reading.take close) ⟨v, b⟩ =
        some ((), w) →
      ∃ xs trees, rule.items close v xs w.tokens ∧ w.built = b ++ trees ∧ built.items close trees xs := by
  intro k
  induction k with
  | zero => intro v b w _ none; omega
  | succ k ih =>
    intro v b w few enough run
    rw [repeatStep_then] at run
    obtain ⟨⟨goOn, u⟩, step, more⟩ := Option.bind_eq_some_iff.1 run
    rcases round_eq_some step with ⟨rfl, rfl⟩ | ⟨t, rest, rfl, comma, rfl, rfl⟩ | ⟨rfl, took⟩
    · obtain ⟨t, trees, applies, grown, rfl, closes⟩ := (take bound close real).sound few more
      obtain ⟨rfl, -⟩ := Rule.token_iff.1 applies
      exact ⟨[], [.token t], .close closes, grown, .close closes⟩
    · rw [List.length_cons] at few enough
      obtain ⟨xs, trees, applies, grown, builds⟩ := ih (by omega) (by omega) more
      refine ⟨xs, .token t :: trees, .comma comma applies, ?_, .comma comma builds⟩
      rw [grown, List.append_assoc, List.singleton_append]
    · obtain ⟨x, trees, applies, grown, builds⟩ := h.sound few took
      have fewer := (starts applies).2
      obtain ⟨xs, trees', applies', grown', builds'⟩ :=
        ih (v := u.tokens) (b := u.built) (by omega) (by omega) more
      refine ⟨x :: xs, trees ++ trees', .item applies applies', ?_, .item builds builds'⟩
      rw [grown', grown, List.append_assoc]

/-- Every list of items is found by rounds. -/
theorem complete_rounds (h : Realizes bound (requireAt isItem m) rule built stops)
    (starts : rule.Starts first) (different : close ≠ .comma)
    (apart : ∀ kind ∈ close :: .comma :: first, kind ∉ stops)
    (closes : close ∉ first) (commas : .comma ∉ first) {v v' : List Token} {xs : List α}
    (applies : rule.items close v xs v') :
    ∀ {k b}, v.length < bound → v.length < k →
      ∃ trees, (Reading.repeatStep k (round close isItem isStop m) >>= fun _ => Reading.take close) ⟨v, b⟩ =
        some ((), ⟨v', b ++ trees⟩) ∧ built.items close trees xs := by
  induction applies with
  | @close t rest here =>
    intro k b few enough
    obtain ⟨k, rfl⟩ : ∃ j, k = j + 1 := ⟨k - 1, by omega⟩
    refine ⟨[.token t], ?_, .close here⟩
    rw [repeatStep_then, round_cons, if_pos here]
    exact (take_apply _ _).trans (if_pos here)
  | @comma t tokens rest xs here more ih =>
    intro k b few enough
    obtain ⟨k, rfl⟩ : ∃ j, k = j + 1 := ⟨k - 1, by omega⟩
    rw [List.length_cons] at few enough
    obtain ⟨trees, run, builds⟩ := ih (k := k) (b := b ++ [.token t]) (by omega) (by omega)
    refine ⟨.token t :: trees, ?_, .comma here builds⟩
    rw [repeatStep_then, round_cons, if_neg fun same => different (same.symm.trans here), if_pos here]
    exact run.trans (by rw [List.append_assoc]; rfl)
  | @item tokens between rest x xs here more ih =>
    intro k b few enough
    obtain ⟨k, rfl⟩ : ∃ j, k = j + 1 := ⟨k - 1, by omega⟩
    obtain ⟨begins, fewer⟩ := starts here
    obtain ⟨trees, run, builds⟩ := h.complete (b := b) few here (apart _ (Rule.headKind_items starts more))
    obtain ⟨trees', run', builds'⟩ := ih (k := k) (b := b ++ trees) (by omega) (by omega)
    refine ⟨trees ++ trees', ?_, .item builds builds'⟩
    have step : round close isItem isStop m ⟨tokens, b⟩ = some (true, ⟨between, b ++ trees⟩) :=
      round_item run (List.ne_nil_of_length_pos (by omega)) (fun same => closes (same ▸ begins))
        fun same => commas (same ▸ begins)
    rw [repeatStep_then, step]
    exact run'.trans (by rw [List.append_assoc])

theorem enclosed {opening nodeKind : SyntaxKind} (h : Realizes bound (requireAt isItem m) rule built stops)
    (starts : rule.Starts first) (apart : ∀ kind ∈ close :: .comma :: first, kind ∉ stops)
    (different : close ≠ .comma) (closes : close ∉ first) (commas : .comma ∉ first)
    (opens : opening ≠ .error) (real : close ≠ .error) :
    Realizes (bound + 1)
      (requireAt (· = opening) (Reading.enclosed nodeKind close isItem isStop m))
      (rule.enclosed opening close) (built.enclosed nodeKind opening close) [] := by
  have rounds : Realizes bound (Reading.loop (round close isItem isStop m) >>= fun _ => Reading.take close)
      (rule.items close) (built.items close) [] :=
    { sound := fun few run => h.sound_rounds starts real few (Nat.lt_succ_self _) run
      complete := fun few applies _ =>
        h.complete_rounds starts different apart closes commas applies few (Nat.lt_succ_self _) }
  exact ((rounds.after opening opens).map Prod.snd).opened nodeKind

/-- Rounds of attempts find parts in a row. -/
theorem sound_attempts {test : SyntaxKind → Bool} (h : Realizes bound (requireAt test m) rule built stops)
    (starts : rule.Starts first) :
    ∀ {k v b w}, v.length < bound → v.length < k →
      (Reading.repeatStep k (attempt test m) >>= fun _ => Pure.pure ()) ⟨v, b⟩ = some ((), w) →
      ∃ xs trees, rule.many v xs w.tokens ∧ w.built = b ++ trees ∧ built.many trees xs := by
  intro k
  induction k with
  | zero => intro v b w _ none; omega
  | succ k ih =>
    intro v b w few enough run
    rw [repeatStep_then, attempt_apply] at run
    split at run
    · rename_i here
      obtain ⟨⟨goOn, u⟩, taken, more⟩ := Option.bind_eq_some_iff.1 run
      obtain ⟨⟨⟨⟩, u'⟩, took, same⟩ := Option.map_eq_some_iff.1 taken
      cases same
      obtain ⟨x, trees, applies, grown, builds⟩ :=
        h.sound few ((requireAt_apply _ _ _).trans ((if_pos here).trans took))
      have fewer := (starts applies).2
      obtain ⟨xs, trees', applies', grown', builds'⟩ :=
        ih (v := u'.tokens) (b := u'.built) (by omega) (by omega) more
      refine ⟨x :: xs, trees ++ trees', .cons applies applies', ?_, .cons builds builds'⟩
      rw [grown', grown, List.append_assoc]
    · cases run
      exact ⟨[], [], .nil, (List.append_nil _).symm, .nil⟩

/-- Parts in a row are found by rounds of attempts. -/
theorem complete_attempts {test : SyntaxKind → Bool}
    (h : Realizes bound (requireAt test m) rule built stops) (starts : rule.Starts first)
    (tests : ∀ kind, test kind = true ↔ kind ∈ first) (apart : ∀ kind ∈ first, kind ∉ stops)
    {v v' : List Token} {xs : List α} (applies : rule.many v xs v') (free : headKind v' ∉ first ++ stops) :
    ∀ {k b}, v.length < bound → v.length < k →
      ∃ trees, (Reading.repeatStep k (attempt test m) >>= fun _ => Pure.pure ()) ⟨v, b⟩ =
        some ((), ⟨v', b ++ trees⟩) ∧ built.many trees xs := by
  induction applies with
  | @nil v =>
    intro k b few enough
    obtain ⟨k, rfl⟩ : ∃ j, k = j + 1 := ⟨k - 1, by omega⟩
    have other : ¬ test (headKind v) = true := fun here =>
      free (List.mem_append_left _ ((tests _).1 here))
    refine ⟨[], ?_, .nil⟩
    rw [repeatStep_then, attempt_apply, if_neg other, List.append_nil]
    rfl
  | @cons v between v' x xs here more ih =>
    intro k b few enough
    obtain ⟨k, rfl⟩ : ∃ j, k = j + 1 := ⟨k - 1, by omega⟩
    obtain ⟨begins, fewer⟩ := starts here
    have next : headKind between ∉ stops := by
      rcases starts.many more with rfl | ⟨follows, -⟩
      · exact fun stop => free (List.mem_append_right _ stop)
      · exact apart _ follows
    obtain ⟨trees, run, builds⟩ := h.complete (b := b) few here next
    obtain ⟨trees', run', builds'⟩ := ih free (k := k) (b := b ++ trees) (by omega) (by omega)
    refine ⟨trees ++ trees', ?_, .cons builds builds'⟩
    rw [requireAt_apply, if_pos ((tests _).2 begins)] at run
    rw [repeatStep_then, attempt_apply, if_pos ((tests _).2 begins), run]
    exact run'.trans (by rw [List.append_assoc])

theorem many {test : SyntaxKind → Bool} (h : Realizes bound (requireAt test m) rule built stops)
    (starts : rule.Starts first) (tests : ∀ kind, test kind = true ↔ kind ∈ first)
    (apart : ∀ kind ∈ first, kind ∉ stops) :
    Realizes bound (whileAt test m) rule.many built.many (first ++ stops) := by
  have attempts : Realizes bound (whileAt test m >>= fun _ => Pure.pure ()) rule.many built.many
      (first ++ stops) :=
    { sound := fun few run => h.sound_attempts starts few (Nat.lt_succ_self _) run
      complete := fun few applies free =>
        h.complete_attempts starts tests apart applies free few (Nat.lt_succ_self _) }
  exact attempts.of_eq fun w => by rw [bind_pure_unit]

end Realizes

end Parser

end IsoLiteral
