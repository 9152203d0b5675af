import MailMerge.Proofs.Works
import MailMerge.Yaml.Node
import Mathlib.Tactic.SplitIfs

/-!
# What keeps tokens from being nodes

Nodes are read from tokens front to back, and each reader leaves a tail of the tokens that it was
given and closes the collections that it opens (`Walks`). So what fails is told by the tokens: their
form is wrong, their text breaks off, or a collection begins behind some of them for which there is
no room (`Unread`). Each collection around that one has a token of its own in front.
-/

namespace MailMerge.Yaml

/-- Why there are no nodes in tokens: their form is wrong, their text breaks off, or there is no room
for a collection. The collections around that one and the tokens that are left are `n` at most. -/
inductive Unread (room : Room) (n : Nat) (tokens : List Token) : NodeFault → Prop
  | malformed : Unread room n tokens (.text .malformed)
  | broken {f : Fault} (h : .broken f ∈ tokens) : Unread room n tokens (.text f)
  | tooDeep {depth : Nat} {rest : List Token} (begun : rest <:+ tokens)
      (around : depth + rest.length ≤ n) (full : room.collections depth rest = false) :
      Unread room n tokens .tooDeep

theorem Unread.mono {room : Room} {n : Nat} {tail tokens : List Token} {f : NodeFault}
    (h : Unread room n tail f) (ht : tail <:+ tokens) : Unread room n tokens f := by
  cases h with
  | malformed => exact .malformed
  | broken hf => exact .broken (ht.mem hf)
  | tooDeep begun around full => exact .tooDeep (begun.trans ht) around full

namespace NodeReader

variable {room : Room} {k n : Nat} {α β : Type} {x : NodeReader α} {c : Reading}

/-- A reader leaves a tail of the tokens with as many collections open as before, or fails for what
is in the tokens. -/
def Leads (room : Room) (n : Nat) (x : NodeReader α) (c : Reading) : Prop :=
  Meets x c (fun _ c' => c'.tokens <:+ c.tokens ∧ c'.depth = c.depth) fun f _ =>
    Unread room n c.tokens f

/-- A reader leads on from where there are few enough open collections and tokens. It may be a step
ahead: `k` is two if a collection is opened in it before a token is taken away, one if as many are
taken away, and zero if it takes a token away first. -/
def Walks (room : Room) (k : Nat) (x : NodeReader α) : Prop :=
  ∀ c n, c.depth + c.tokens.length + k ≤ n + 1 → Leads room n x c

/-- A reader leads on from where a token is. -/
def Behind (room : Room) (k : Nat) (t : Token) (x : NodeReader α) : Prop :=
  ∀ c n rest, c.tokens = t :: rest → c.depth + c.tokens.length + k ≤ n + 1 → Leads room n x c

theorem Walks.behind (h : Walks room k x) (t : Token) : Behind room k t x :=
  fun c n _ _ hn => h c n hn

theorem Walks.mono {k' : Nat} (h : Walks room k x) (hk : k ≤ k') : Walks room k' x :=
  fun c n hn => h c n (by omega)

theorem Walks.bind {g : α → NodeReader β} (h : Walks room k x) (hg : ∀ a, Walks room k (g a)) :
    Walks room k (x >>= g) := by
  intro c n hn
  rw [Leads, meets_bind]
  refine (h c n hn).mono (fun a c' hc => ?_) fun _ _ hf => hf
  have hlen := hc.1.length_le
  exact (hg a c' n (by omega)).mono (fun _ _ hc' => ⟨hc'.1.trans hc.1, hc'.2.trans hc.2⟩)
    fun _ _ hf => hf.mono hc.1

theorem walks_pure {a : α} : Walks room k (pure a) := fun _ _ _ => ⟨List.suffix_rfl, rfl⟩

theorem walks_fail : Walks room k (fail : NodeReader α) := fun _ _ _ => .malformed

theorem walks_fail_bind {g : β → NodeReader α} : Walks room k (fail >>= g) :=
  fun _ _ _ => .malformed

theorem walks_get : Walks room k (get : NodeReader Reading) := fun _ _ _ => ⟨List.suffix_rfl, rfl⟩

theorem walks_modify {f : Reading → Reading} (ht : ∀ c, (f c).tokens = c.tokens)
    (hd : ∀ c, (f c).depth = c.depth) : Walks room k (modify f : NodeReader PUnit) :=
  fun c _ _ => ⟨ht c ▸ List.suffix_rfl, hd c⟩

theorem Walks.ite {p : Prop} [Decidable p] {y : NodeReader α} (hx : Walks room k x)
    (hy : Walks room k y) : Walks room k (if p then x else y) := by
  split
  · exact hx
  · exact hy

/-! ## Tokens -/

theorem walks_peek_bind {g : Token → NodeReader α} (h : ∀ t, Behind room k t (g t)) :
    Walks room k (peek >>= g) := by
  intro c n hn
  rw [Leads, meets_bind, peek, meets_bind, meets_get]
  split
  · next f _ ht => exact .broken (ht ▸ List.mem_cons_self)
  · next t rest _ ht => exact h t c n rest ht hn
  · exact .malformed

/-- Behind a token that is taken away there may be one more collection. -/
theorem Walks.skip (h : Walks room (k + 1) x) (t : Token) :
    Behind room k t (do NodeReader.skip; x) := by
  intro c n rest ht hn
  rw [Leads, meets_bind, NodeReader.skip, meets_modify]
  have htail : c.tokens.drop 1 <:+ c.tokens := List.drop_suffix 1 c.tokens
  have hlen : (c.tokens.drop 1).length + 1 = c.tokens.length := by simp [ht]
  refine (h { c with tokens := c.tokens.drop 1 } n (by dsimp only; omega)).mono ?_ ?_
  · exact fun _ _ hc => ⟨hc.1.trans htail, hc.2⟩
  · exact fun _ _ hf => hf.mono htail

theorem walks_skip?_bind (t : Token) {g : Bool → NodeReader α} (ht : Walks room (k + 1) (g true))
    (hf : Walks room k (g false)) : Walks room k (skip? t >>= g) := by
  rw [skip?, bind_assoc]
  refine walks_peek_bind fun next => ?_
  split
  · simpa using ht.skip next
  · simpa using hf.behind next

theorem walks_fresh : Walks room k fresh := fun _ _ _ => ⟨List.suffix_rfl, rfl⟩

theorem walks_define (id : Nat) (n : Node) : Walks room k (define id n) :=
  Walks.bind (walks_modify (fun _ => rfl) fun _ => rfl) fun _ => walks_pure

/-- What is read inside of a further collection. -/
theorem Walks.inside (h : Walks room k x) : Walks room (k + 1) (inside room x) := by
  intro c n hn
  rw [Leads, NodeReader.inside, meets_bind, meets_get]
  dsimp only
  split
  · next hfull =>
    have haround : c.depth + c.tokens.length ≤ n := by omega
    exact .tooDeep List.suffix_rfl haround (by simpa using hfull)
  · rw [meets_bind, meets_modify, meets_bind]
    refine (h { c with depth := c.depth + 1 } n (by dsimp only; omega)).mono ?_ fun _ _ hf => hf
    rintro a c' ⟨ht, hd⟩
    exact ⟨ht, by simp [hd]⟩

theorem Walks.orEmpty {x : NodeReader Nat} (stops : List Token) (h : Walks room k x) :
    Walks room k (orEmpty stops x) :=
  walks_peek_bind fun t => (Walks.ite walks_fresh h).behind t

theorem walks_anchor? : Walks room k anchor? := by
  refine walks_peek_bind fun t => ?_
  split
  · exact walks_pure.skip _
  · exact walks_pure.behind t

theorem walks_tag? : Walks room k tag? := by
  refine walks_peek_bind fun t => ?_
  split
  · refine Walks.skip ?_ _
    split
    · exact walks_pure
    · refine walks_get.bind fun c => ?_
      split
      · exact walks_pure
      · exact walks_fail
  · exact walks_pure.behind t

theorem walks_properties : Walks room k properties := by
  refine walks_anchor?.bind fun a => ?_
  split
  · exact walks_tag?.bind fun _ => walks_pure
  · exact walks_tag?.bind fun t => .ite (walks_anchor?.bind fun _ => walks_pure) walks_pure

theorem walks_number (anchor : Option (List Char)) : Walks room k (number anchor) := by
  refine walks_fresh.bind fun id => ?_
  split
  · next a =>
    have hadd : Walks room k (do
        modify fun c : Reading => { c with anchors := (a, id) :: c.anchors }
        return id) :=
      Walks.bind (walks_modify (fun _ => rfl) fun _ => rfl) fun _ => walks_pure
    refine walks_get.bind fun c => ?_
    split
    · exact walks_fail_bind
    · exact hadd
  · exact walks_pure

/-! ## Nodes -/

section Step

variable {fuel : Nat}

/-- What is known of the readers that have some fuel. A sequence that has no token for its beginning
is read inside of a further collection before any token is taken away. -/
structure AllWalk (room : Room) (fuel : Nat) : Prop where
  node : ∀ block indentless, Walks room 1 (node room block indentless fuel)
  blockItems : Walks room 1 (blockItems room fuel)
  indentlessItems : Walks room 0 (indentlessItems room fuel)
  blockEntries : Walks room 1 (blockEntries room fuel)
  flowEntry : ∀ ending, Walks room 1 (flowEntry room ending fuel)
  flowItems : ∀ first, Walks room 1 (flowItems room first fuel)
  flowEntries : ∀ first, Walks room 1 (flowEntries room first fuel)

theorem AllWalk.node_succ (h : AllWalk room fuel) (block indentless : Bool) :
    Walks room 1 (NodeReader.node room block indentless (fuel + 1)) := by
  rw [NodeReader.node]
  refine walks_peek_bind fun t => ?_
  split
  · refine Walks.skip (walks_get.bind fun c => ?_) _
    split
    · exact walks_pure
    · exact walks_fail
  · refine (walks_properties.bind fun properties => ?_).behind t
    obtain ⟨anchor, tag⟩ := properties
    dsimp -zeta only
    extract_lets sequence mapping
    have hsequence : ∀ {k items}, Walks room k items → Walks room (k + 1) (sequence items) :=
      fun hi => (walks_number anchor).bind fun _ => hi.inside.bind fun _ => walks_define _ _
    have hmapping : ∀ {k entries}, Walks room k entries → Walks room (k + 1) (mapping entries) :=
      fun he => (walks_number anchor).bind fun _ => he.inside.bind fun _ => walks_define _ _
    have hscalar : ∀ {k text}, Walks room k (do define (← number anchor) text) :=
      (walks_number anchor).bind fun _ => walks_define _ _
    refine walks_peek_bind fun next => ?_
    split
    · exact hscalar.skip _
    · exact (hsequence (h.flowItems true)).skip _
    · exact (hmapping (h.flowEntries true)).skip _
    · split_ifs
      · exact (hsequence h.indentlessItems).behind _
      · exact (hsequence h.blockItems).skip _
      · exact (hmapping h.blockEntries).skip _
      · exact hscalar.behind _
      · exact walks_fail.behind _

theorem AllWalk.blockItems_succ (h : AllWalk room fuel) :
    Walks room 1 (NodeReader.blockItems room (fuel + 1)) := by
  rw [NodeReader.blockItems]
  refine walks_skip?_bind _ (Walks.mono ?_ (Nat.le_succ 1)) ?_
  · exact ((h.node _ _).orEmpty _).bind fun _ => h.blockItems.bind fun _ => walks_pure
  · exact walks_skip?_bind _ walks_pure walks_fail

theorem AllWalk.indentlessItems_succ (h : AllWalk room fuel) :
    Walks room 0 (NodeReader.indentlessItems room (fuel + 1)) := by
  rw [NodeReader.indentlessItems]
  refine walks_skip?_bind _ ?_ walks_pure
  exact ((h.node _ _).orEmpty _).bind fun _ =>
    (h.indentlessItems.mono (Nat.zero_le 1)).bind fun _ => walks_pure

theorem AllWalk.blockEntries_succ (h : AllWalk room fuel) :
    Walks room 1 (NodeReader.blockEntries room (fuel + 1)) := by
  have hnext : ∀ entry, Walks room 1 (do return entry :: (← NodeReader.blockEntries room fuel)) :=
    fun _ => h.blockEntries.bind fun _ => walks_pure
  rw [NodeReader.blockEntries]
  refine walks_skip?_bind _ (Walks.mono ?_ (Nat.le_succ 1)) ?_
  · refine ((h.node _ _).orEmpty _).bind fun key =>
      walks_skip?_bind _ (Walks.mono ?_ (Nat.le_succ 1)) ?_
    · exact ((h.node _ _).orEmpty _).bind fun _ => hnext _
    · exact walks_fresh.bind fun _ => hnext _
  · exact walks_skip?_bind _ walks_pure walks_fail

theorem AllWalk.flowEntry_succ (h : AllWalk room fuel) (ending : Token) :
    Walks room 1 (NodeReader.flowEntry room ending (fuel + 1)) := by
  rw [NodeReader.flowEntry]
  refine ((h.node _ _).orEmpty _).bind fun key =>
    walks_skip?_bind _ (Walks.mono ?_ (Nat.le_succ 1)) ?_
  · exact ((h.node _ _).orEmpty _).bind fun _ => walks_pure
  · exact walks_fresh.bind fun _ => walks_pure

/-- What is read in brackets, behind a comma unless it is the first. -/
theorem Walks.behindComma {first : Bool} {y : Unit → NodeReader α} (h : ∀ u, Walks room k (y u)) :
    Walks room k (if !first then (do
      if !(← skip? .flowEntry) then (do let r ← fail; y r) else y ()) else y ()) :=
  .ite (walks_skip?_bind _ ((h ()).mono (Nat.le_succ k)) walks_fail_bind) (h ())

theorem AllWalk.flowItems_succ (h : AllWalk room fuel) (first : Bool) :
    Walks room 1 (NodeReader.flowItems room first (fuel + 1)) := by
  have hnext : ∀ item, Walks room 1 (do return item :: (← NodeReader.flowItems room false fuel)) :=
    fun _ => (h.flowItems _).bind fun _ => walks_pure
  rw [NodeReader.flowItems]
  refine walks_skip?_bind _ walks_pure (Walks.behindComma fun _ => walks_skip?_bind _ ?_ ?_)
  · exact walks_fresh.bind fun _ => (h.flowEntry _).inside.bind fun _ =>
      (walks_define _ _).bind fun _ => (hnext _).mono (Nat.le_succ 1)
  · exact walks_skip?_bind _ walks_pure ((h.node _ _).bind fun _ => hnext _)

theorem AllWalk.flowEntries_succ (h : AllWalk room fuel) (first : Bool) :
    Walks room 1 (NodeReader.flowEntries room first (fuel + 1)) := by
  have hnext : ∀ entry,
      Walks room 1 (do return entry :: (← NodeReader.flowEntries room false fuel)) :=
    fun _ => (h.flowEntries _).bind fun _ => walks_pure
  rw [NodeReader.flowEntries]
  refine walks_skip?_bind _ walks_pure (Walks.behindComma fun _ => walks_skip?_bind _ ?_ ?_)
  · exact ((h.flowEntry _).bind fun _ => hnext _).mono (Nat.le_succ 1)
  · exact walks_skip?_bind _ walks_pure <|
      (h.node _ _).bind fun _ => walks_fresh.bind fun _ => hnext _

theorem allWalk : ∀ fuel, AllWalk room fuel
  | 0 => by
    constructor <;> intros
    · rw [NodeReader.node]; exact walks_fail
    · rw [NodeReader.blockItems]; exact walks_fail
    · rw [NodeReader.indentlessItems]; exact walks_fail
    · rw [NodeReader.blockEntries]; exact walks_fail
    · rw [NodeReader.flowEntry]; exact walks_fail
    · rw [NodeReader.flowItems]; exact walks_fail
    · rw [NodeReader.flowEntries]; exact walks_fail
  | fuel + 1 =>
    have h := allWalk fuel
    ⟨h.node_succ, h.blockItems_succ, h.indentlessItems_succ, h.blockEntries_succ,
      h.flowEntry_succ, h.flowItems_succ, h.flowEntries_succ⟩

end Step

/-! ## Documents -/

theorem walks_directives : ∀ (fuel : Nat) (versioned : Bool)
    (handles : List (List Char × List Char)), Walks room 1 (directives versioned handles fuel)
  | 0, _, _ => walks_fail
  | fuel + 1, versioned, handles => by
    have hnext : ∀ versioned handles t,
        Behind room 1 t (do skip; directives versioned handles fuel : NodeReader Unit) :=
      fun _ _ t => ((walks_directives fuel _ _).mono (Nat.le_succ 1)).skip t
    rw [directives]
    refine walks_peek_bind fun t => ?_
    split
    · split
      · exact walks_fail_bind.behind _
      · exact hnext _ _ _
    · split
      · exact walks_fail_bind.behind _
      · exact hnext _ _ _
    · exact hnext _ _ _
    · refine Walks.behind ?_ t
      exact walks_modify (fun _ => rfl) fun _ => rfl

theorem walks_skipEnds : ∀ fuel, Walks room 1 (skipEnds fuel)
  | 0 => walks_pure
  | fuel + 1 => walks_skip?_bind _ ((walks_skipEnds fuel).mono (Nat.le_succ 1)) walks_pure

theorem walks_markedNode (fuel : Nat) : Walks room 1 (markedNode room fuel) := by
  have hnode : Walks room 1 (do
      let t ← peek
      if beginsDocument t ∨ t = .documentEnd ∨ t = .streamEnd then emptyScalar
      else node room true false fuel) :=
    walks_peek_bind fun t => (Walks.ite walks_fresh ((allWalk fuel).node _ _)).behind t
  exact (walks_directives fuel _ _).bind fun _ =>
    walks_skip?_bind _ (hnode.mono (Nat.le_succ 1)) walks_fail_bind

theorem walks_firstNode? (fuel : Nat) : Walks room 1 (firstNode? room fuel) := by
  refine walks_peek_bind fun t => Walks.behind (.ite walks_pure (.ite ?_ ?_)) t
  · exact (walks_markedNode fuel).bind fun _ => walks_pure
  · exact Walks.bind (walks_modify (fun _ => rfl) fun _ => rfl) fun _ =>
      ((allWalk fuel).node _ _).bind fun _ => walks_pure

theorem walks_document? (fuel : Nat) : Walks room 1 (document? room fuel) :=
  (walks_firstNode? fuel).bind fun _ => (walks_skipEnds fuel).bind fun _ =>
    walks_peek_bind fun t => Walks.behind (.ite walks_pure walks_fail) t

end NodeReader

/-- There are nodes in tokens, or it is known why there are none. -/
theorem ofTokens_refuses (room : Room) (tokens : List Token) :
    RefusesFor (Unread room tokens.length tokens) (Graph.ofTokens room tokens) := by
  intro f hf
  rw [Graph.ofTokens] at hf
  split at hf
  · cases hf
  · next f' c h =>
    obtain rfl := Except.error.inj hf
    exact (NodeReader.walks_document? _ ⟨tokens, [], [], #[], 0⟩ tokens.length (by simp)).of_error h

end MailMerge.Yaml
