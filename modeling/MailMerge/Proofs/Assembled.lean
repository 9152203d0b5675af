import MailMerge.FieldFile
import MailMerge.Proofs.Works

/-!
# What keeps a text from being put together

The assembly of values changes nodes only by their tags and by the entries of mappings: every text
is that of a scalar of the file, and every tag but the one of texts is that of a node of the file.
So it fails for its form, or because a scalar of the file has no value of a tag in the file
(`Unmade`), or for what the value key of a mapping stands for, or because there is no room for what
value keys and merge keys lead to.
-/

namespace MailMerge.Yaml

/-- Why a node of a graph has no value: its text has none of its tag, it is a mapping with a value
key where a timestamp or a text is needed, its value keys lead on without end or further than there
is room for, or there is no room for a mapping that is merged. -/
inductive Unmade (room : Room) (graph : Graph) : Error → Prop
  | scalar {tag : Tag} {ps : Points} {e : Error} (htag : ∃ n ∈ graph, n.tag = tag)
      (htext : ps = [] ∨ ∃ tag', .scalar tag' ps ∈ graph)
      (bad : Yaml.scalar tag ps = .error (.node e)) : Unmade room graph e
  | timestampOfMapping (htag : ∃ n ∈ graph, n.tag = .timestamp) :
      Unmade room graph .timestampOfMapping
  | valuesTooDeep (htag : ∃ n ∈ graph, n.tag = .value) : Unmade room graph .nodesTooDeep
  | mergesTooDeep {depth id : Nat} (htag : ∃ n ∈ graph, n.tag = .merge)
      (full : room.merges depth id = false) : Unmade room graph .nodesTooDeep

/-- Why the nodes of a graph cannot be put together. -/
def Unfit (room : Room) (graph : Graph) (p : Problem) : Prop :=
  p = .malformed ∨ ∃ e, p = .node e ∧ Unmade room graph e

/-- A node as it stands in a graph, or with another tag or other entries. -/
structure From (graph : Graph) (n : Node) : Prop where
  tag : n.tag = .null ∨ n.tag = .text ∨ ∃ m ∈ graph, m.tag = n.tag
  text : ∀ tag ps, n = .scalar tag ps → ps = [] ∨ ∃ tag', .scalar tag' ps ∈ graph

variable {room : Room} {graph : Graph}

theorem from_empty : From graph .empty := ⟨.inl rfl, fun _ _ h => .inl (by cases h; rfl)⟩

theorem From.withTag_text {n : Node} (h : From graph n) : From graph (n.withTag .text) := by
  cases n with
  | scalar tag ps =>
    refine ⟨.inr (.inl rfl), fun tag' ps' he => ?_⟩
    cases he
    exact h.text tag ps rfl
  | sequence | mapping => exact ⟨.inr (.inl rfl), fun _ _ he => by cases he⟩

theorem From.mapping {n : Node} (h : From graph n) (entries : List (Nat × Nat)) :
    From graph (.mapping n.tag entries) := ⟨h.tag, fun _ _ he => by cases he⟩

namespace Assembler

variable {α β : Type} {x : Assembler α} {good : α → Prop}

/-- All nodes of an assembly are from a graph. -/
def Holds (graph : Graph) (a : Assembly) : Prop := ∀ n ∈ a.graph, From graph n

/-- Work on an assembly that keeps its nodes, gives what is good, or fails for the graph. -/
def Fits (room : Room) (graph : Graph) (x : Assembler α) (good : α → Prop) : Prop :=
  ∀ a, Holds graph a → Meets x a (fun b a' => good b ∧ Holds graph a') fun p _ => Unfit room graph p

theorem Fits.bind {g : α → Assembler β} {good' : β → Prop} (h : Fits room graph x good)
    (hg : ∀ b, good b → Fits room graph (g b) good') : Fits room graph (x >>= g) good' := by
  intro a ha
  rw [meets_bind]
  exact (h a ha).mono (fun b a' hb => hg b hb.1 a' hb.2) fun _ _ hp => hp

theorem fits_pure {b : α} (h : good b) : Fits room graph (pure b) good := fun _ ha => ⟨h, ha⟩

theorem fits_fail : Fits room graph (fail : Assembler α) good := fun _ _ => .inl rfl

theorem fits_get : Fits room graph (get : Assembler Assembly) (Holds graph) := fun _ ha => ⟨ha, ha⟩

theorem fits_throw {p : Problem} (h : Unfit room graph p) :
    Fits room graph (throw p : Assembler α) good := fun _ _ => h

theorem fits_modify {f : Assembly → Assembly} (hf : ∀ a, (f a).graph = a.graph) :
    Fits room graph (modify f : Assembler PUnit) fun _ => True :=
  fun a ha => ⟨trivial, by rw [Holds, hf]; exact ha⟩

/-- What is done unless something holds that work fails for. -/
theorem Fits.unless {c : Prop} [Decidable c] {p : Problem} {g : PUnit → Assembler α}
    (hc : c → Unfit room graph p) (hg : ¬c → Fits room graph (g ⟨⟩) good) :
    Fits room graph (if c then (do let r ← throw p; g r) else g ⟨⟩) good := by
  split
  · next h => exact fun _ _ => hc h
  · next h => exact hg h

theorem Fits.mapM {g : α → Assembler β} (hg : ∀ b, Fits room graph (g b) fun _ => True) :
    ∀ l : List α, Fits room graph (l.mapM g) fun _ => True
  | [] => fits_pure trivial
  | b :: l => by
    rw [List.mapM_cons]
    exact (hg b).bind fun _ _ => (Fits.mapM hg l).bind fun _ _ => fits_pure trivial

theorem Fits.forM {g : α → Assembler PUnit} (hg : ∀ b, Fits room graph (g b) fun _ => True) :
    ∀ l : List α, Fits room graph (l.forM g) fun _ => True
  | [] => fits_pure trivial
  | b :: l => (hg b).bind fun _ _ => Fits.forM hg l

theorem Fits.foldlM {g : β → α → Assembler β} (hg : ∀ c b, Fits room graph (g c b) fun _ => True) :
    ∀ (l : List α) (c : β), Fits room graph (l.foldlM g c) fun _ => True
  | [], _ => fits_pure trivial
  | b :: l, c => by
    rw [List.foldlM_cons]
    exact (hg c b).bind fun c' _ => Fits.foldlM hg l c'

theorem Fits.findM? {g : α → Assembler Bool} {p : Prop}
    (hg : ∀ b, Fits room graph (g b) fun found => found = true → p) :
    ∀ l : List α, Fits room graph (l.findM? g) fun found => found.isSome → p
  | [] => fits_pure (by simp)
  | b :: l => by
    rw [List.findM?]
    refine (hg b).bind fun found hfound => ?_
    split
    · exact fits_pure fun _ => hfound ‹_›
    · exact Fits.findM? hg l

/-! ## Nodes -/

theorem fits_node (id : Nat) : Fits room graph (node id) (From graph) := by
  intro a ha
  refine ⟨?_, ha⟩
  rw [Array.getD]
  split
  · exact ha _ (Array.getElem_mem _)
  · exact from_empty

theorem fits_setNode {id : Nat} {n : Node} (hn : From graph n) :
    Fits room graph (setNode id n) fun _ => True := by
  intro a ha
  refine ⟨trivial, fun m hm => ?_⟩
  rcases Array.mem_or_eq_of_mem_setIfInBounds hm with hm | rfl
  · exact ha m hm
  · exact hn

theorem fits_part? (id : Nat) : Fits room graph (part? id) fun _ => True := fun _ ha => ⟨trivial, ha⟩

theorem fits_setPart (id : Nat) (p : Part) : Fits room graph (setPart id p) fun _ => True :=
  fits_modify fun _ => rfl

/-- A tag that says something is that of a node of the graph. -/
theorem fits_hasTag {tag : Tag} (ht : tag ≠ .null) (ht' : tag ≠ .text) (id : Nat) :
    Fits room graph (hasTag tag id) fun found => found = true → ∃ n ∈ graph, n.tag = tag := by
  refine (fits_node id).bind fun n hn => fits_pure fun h => ?_
  obtain rfl := of_decide_eq_true h
  exact hn.tag.resolve_left ht |>.resolve_left ht'

/-! ## Merge keys -/

theorem fits_entries (id : Nat) : Fits room graph (entries id) fun _ => True := by
  refine (fits_node id).bind fun n _ => ?_
  split
  · exact fits_pure trivial
  · exact fits_fail

theorem fits_setEntries (id : Nat) (es : List (Nat × Nat)) :
    Fits room graph (setEntries id es) fun _ => True :=
  (fits_node id).bind fun _ hn => fits_setNode (hn.mapping es)

/-- There is a merge key in entries if those in front of the first one are not all. -/
theorem fits_frontEntries : ∀ es, Fits room graph (frontEntries es) fun front =>
    front.length < es.length → ∃ n ∈ graph, n.tag = .merge
  | [] => fits_pure (by simp)
  | (k, v) :: rest => by
    rw [frontEntries]
    refine (fits_hasTag (by decide) (by decide) k).bind fun merge hmerge => ?_
    have hrest : Fits room graph (do return (k, v) :: (← frontEntries rest)) fun front =>
        front.length < ((k, v) :: rest).length → ∃ n ∈ graph, n.tag = .merge :=
      (fits_frontEntries rest).bind fun _ h => fits_pure (by simpa using h)
    split
    · next hm => exact fits_pure fun _ => hmerge hm
    · refine (fits_hasTag (by decide) (by decide) k).bind fun value _ => ?_
      split
      · exact (fits_node k).bind fun n hn => (fits_setNode hn.withTag_text).bind fun _ _ => hrest
      · exact hrest

theorem fits_flatten : ∀ fuel,
    (∀ depth id index merged,
      Fits room graph (flatten room depth id index merged fuel) fun _ => True) ∧
      ((∃ n ∈ graph, n.tag = .merge) → ∀ depth id,
        Fits room graph (mergedEntries room depth fuel id) fun _ => True)
  | 0 => by
    refine ⟨fun depth id index merged => ?_, fun _ depth id => ?_⟩
    · rw [flatten]
      exact fits_fail
    · rw [mergedEntries]
      exact fits_fail
  | fuel + 1 => by
    obtain ⟨hflatten, hmerged⟩ := fits_flatten fuel
    refine ⟨fun depth id index merged => ?_, fun htag depth id => ?_⟩
    · rw [flatten]
      refine (fits_entries id).bind fun own _ => (fits_frontEntries _).bind fun front hfront => ?_
      dsimp only
      split
      · next k v hplace =>
        have htag : ∃ n ∈ graph, n.tag = .merge := by
          obtain ⟨hlt, -⟩ := List.getElem?_eq_some_iff.1 hplace
          exact hfront (by rw [List.length_drop]; omega)
        exact (fits_setEntries id _).bind fun _ _ => (hmerged htag _ _).bind fun _ _ =>
          hflatten _ _ _ _
      · split
        · exact fits_setEntries id _
        · exact fits_pure trivial
    · unfold mergedEntries
      extract_lets flat
      have hflat : ∀ id, Fits room graph (flat id) fun _ => True := by
        intro id
        refine (fits_node id).bind fun n _ => ?_
        split
        · refine Fits.unless (fun h => ?_) fun _ =>
            (hflatten depth id 0 []).bind fun _ _ => fits_entries id
          exact .inr ⟨_, rfl, .mergesTooDeep htag (by simpa using h)⟩
        · exact fits_fail
      refine (fits_node id).bind fun n _ => ?_
      split
      · exact (Fits.mapM hflat _).bind fun _ _ => fits_pure trivial
      · exact hflat id

/-! ## Parts -/

/-- The text of a node is that of a scalar; without fuel or room, value keys have led on and on. -/
theorem fits_text : ∀ (fuel depth id : Nat), (fuel = 0 → ∃ n ∈ graph, n.tag = .value) →
    Fits room graph (text room depth id fuel) fun ps => ps = [] ∨ ∃ tag, .scalar tag ps ∈ graph
  | 0, _, _, h => fits_throw (.inr ⟨_, rfl, .valuesTooDeep (h rfl)⟩)
  | fuel + 1, depth, id, _ => by
    rw [text]
    refine (fits_node id).bind fun n hn => ?_
    split
    · next tag ps => exact fits_pure (hn.text tag ps rfl)
    · next entries =>
      have hvalue : ∀ id, Fits room graph (hasTag .value id) fun found =>
          found = true → ∃ n ∈ graph, n.tag = .value := fits_hasTag (by decide) (by decide)
      refine (Fits.findM? (fun (e : Nat × Nat) => hvalue e.1) entries).bind fun found hfound => ?_
      split
      · exact Fits.unless (fun _ => .inr ⟨_, rfl, .valuesTooDeep (hfound rfl)⟩) fun _ =>
          fits_text fuel (depth + 1) _ fun _ => hfound rfl
      · exact fits_fail
    · exact fits_fail

/-- A scalar has a value of its tag, or it is one of those that cannot be put together. -/
theorem unfit_of_scalar {n : Node} {ps : Points} {p : Problem} (hn : From graph n)
    (hps : ps = [] ∨ ∃ tag, .scalar tag ps ∈ graph) (h : scalar n.tag ps = .error p) :
    Unfit room graph p := by
  cases p with
  | malformed => exact .inl rfl
  | node e =>
    refine .inr ⟨e, rfl, .scalar ?_ hps h⟩
    rcases hn.tag with ht | ht | ht
    · simp [ht, scalar] at h
    · simp [ht, scalar] at h
    · exact ht

theorem fits_singleValue (id : Nat) : Fits room graph (singleValue room id) fun _ => True := by
  rw [singleValue]
  refine (fits_node id).bind fun n hn => fits_get.bind fun a _ => ?_
  refine (fits_text _ 0 id fun h => by cases h).bind fun ps hps => ?_
  refine Fits.unless (fun h => ?_) fun _ => ?_
  · have ht : n.tag = .timestamp := of_decide_eq_true (Bool.and_eq_true_iff.1 h).1
    exact .inr ⟨_, rfl, .timestampOfMapping (by simpa [ht] using hn.tag)⟩
  · split
    · exact fits_pure trivial
    · next p hp => exact fits_throw (unfit_of_scalar hn hps hp)

theorem fits_start (id : Nat) : Fits room graph (start room id) fun _ => True := by
  rw [start]
  refine (fits_part? id).bind fun p _ => ?_
  split
  · refine (fits_node id).bind fun n _ => ?_
    dsimp only
    split
    · exact (fits_setPart id _).bind fun _ _ => fits_modify fun _ => rfl
    · split
      · exact (fits_singleValue id).bind fun _ _ => fits_setPart id _
      · exact fits_fail
  · exact fits_pure trivial

theorem fits_key (id : Nat) : Fits room graph (key room id) fun _ => True := by
  refine (fits_start id).bind fun _ _ => (fits_part? id).bind fun p _ => ?_
  split
  · exact fits_pure trivial
  · exact fits_fail

/-- An entry of a mapping, put behind those in front of it. -/
theorem fits_insertEntry (acc : List (Value × Nat)) (x : Nat × Nat) : Fits room graph (do
      let name ← key room x.1
      start room x.2
      return Value.insertEntry name x.2 acc) fun _ => True :=
  (fits_key x.1).bind fun _ _ => (fits_start x.2).bind fun _ _ => fits_pure trivial

theorem fits_mappingEntries (id : Nat) : Fits room graph (mappingEntries room id) fun _ => True := by
  rw [mappingEntries]
  refine fits_get.bind fun a _ => ?_
  dsimp only
  generalize (a.graph.size + 2) * (a.graph.size + 2) = fuel
  refine (fits_node id).bind fun n _ => ?_
  cases n with
  | mapping =>
    exact ((fits_flatten fuel).1 0 id 0 []).bind fun _ _ => (fits_entries id).bind fun es _ =>
      Fits.foldlM fits_insertEntry es []
  | scalar | sequence => exact fun _ _ => .inl rfl

theorem fits_items (id : Nat) : Fits room graph (items id) fun _ => True := by
  refine (fits_node id).bind fun n _ => ?_
  split
  · exact fits_pure trivial
  · exact fits_fail

theorem fits_pair (id : Nat) : Fits room graph (pair room id) fun _ => True := by
  refine (fits_node id).bind fun n _ => ?_
  split
  · exact (fits_start _).bind fun _ _ => (fits_start _).bind fun _ _ => fits_pure trivial
  · exact fits_fail

theorem fits_takeUp (id : Nat) : Fits room graph (takeUp room id) fun _ => True := by
  refine (fits_node id).bind fun n _ => ?_
  split
  · exact (fits_items id).bind fun is _ => (Fits.forM fits_start is).bind fun _ _ =>
      fits_setPart id _
  · exact (fits_items id).bind fun is _ => (Fits.mapM fits_pair is).bind fun _ _ =>
      fits_setPart id _
  · exact (fits_items id).bind fun is _ => (Fits.mapM fits_pair is).bind fun _ _ =>
      fits_setPart id _
  · exact (fits_mappingEntries id).bind fun _ _ => fits_setPart id _
  · exact (fits_mappingEntries id).bind fun _ _ => fits_setPart id _
  · exact fits_fail

theorem fits_takeUpAll : ∀ fuel, Fits room graph (takeUpAll room fuel) fun _ => True
  | 0 => fits_pure trivial
  | fuel + 1 => by
    rw [takeUpAll]
    refine fits_get.bind fun a _ => ?_
    split
    · exact fits_pure trivial
    · exact Fits.bind (fits_modify fun _ => rfl) fun _ _ => (fits_takeUp _).bind fun _ _ =>
        fits_takeUpAll fuel

end Assembler

/-- The nodes of a graph are put together, or one of them has no value. -/
theorem parts_refuses (room : Room) (graph : Graph) (root : Nat) :
    RefusesFor (Unfit room graph) (graph.parts room root) := by
  have hstart : Assembler.Fits room graph (Assembler.start room root) fun _ => True :=
    Assembler.fits_start root
  have h := (hstart.bind fun _ _ => Assembler.fits_takeUpAll graph.size)
    ⟨graph, Array.replicate graph.size none, []⟩
    fun n hn => ⟨.inr (.inr ⟨n, hn, rfl⟩), fun tag cs he => .inr ⟨tag, he ▸ hn⟩⟩
  intro p hp
  rw [Graph.parts] at hp
  split at hp
  · cases hp
  · next p' a' heq =>
    obtain rfl := Except.error.inj hp
    exact h.of_error heq

end MailMerge.Yaml
