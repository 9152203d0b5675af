import MailMerge.Proofs.Tidied

/-!
# What leaves a paragraph

When text of a paragraph is replaced, the elements that leave it are those that show its text, and
runs of which nothing is left but their properties (`Leaves`). This is followed through a revision:
changing elements (`shift_changed`) and tidying the runs one after the other (`shift_tidied`). That
a run has nothing left when its turn comes means that its children have left before, so each step
needs what the steps before it have come to.

For this the elements that show text must have no elements inside of them: these would leave, too.
-/

namespace MailMerge.Word

open MailMerge.Xml

/-- The trails of elements that leave the tree with trails `ts`, where `segments` are those of the
paragraph. -/
inductive Leaves (segments : List Segment) (ts : List (List Key)) : List Key → Prop
  | shown {s : Segment} {k : Key} {u : List Key} (hs : s ∈ segments) (hi : k.id = s.node)
      (hk : k.name ∈ Names.showing) : Leaves segments ts (k :: u)
  | run {s : Segment} {k : Key} {u : List Key} (hs : s ∈ segments) (hi : k.id = s.run)
      (hk : k.name = Names.run)
      (hc : ∀ x, x :: k :: u ∈ ts → x.name ≠ Names.runProperties →
        Leaves segments ts (x :: k :: u)) : Leaves segments ts (k :: u)
  | inside {w : List Key} {m k : Key} {u : List Key} (hk : k.name = Names.run)
      (hm : m.name = Names.runProperties) (hr : Leaves segments ts (k :: u)) :
      Leaves segments ts (w ++ m :: k :: u)

/-- The trails of elements that an edit of text does not move: they show no text, are no runs, and
are in no run properties. -/
def lasting (t : List Key) : Bool :=
  t.all (fun k => k.name ≠ Names.runProperties) &&
    t.head?.all fun k => k.name ∉ Names.showing && k.name ≠ Names.run

/-- The trails of new elements: these show text, or are runs. -/
def Arrives (t : List Key) : Prop :=
  ∃ k u, t = k :: u ∧ (k.name ∈ Names.showing ∨ k.name = Names.run)

theorem Arrives.not_lasting {t : List Key} (h : Arrives t) : lasting t = false := by
  obtain ⟨k, u, rfl, hk | hk⟩ := h <;> simp [lasting, hk]

theorem Leaves.not_lasting {segments : List Segment} {ts : List (List Key)} {t : List Key}
    (h : Leaves segments ts t) : lasting t = false := by
  cases h with
  | shown _ _ hk => simp [lasting, hk]
  | run _ _ hk _ => simp [lasting, hk]
  | inside _ hm _ => simp [lasting, hm]

/-! ## Elements that show text -/

/-- Whether elements that show text have no elements inside of them, wherever they are. -/
def LeafText (c : Content) : Prop :=
  ∀ e ∈ c.elements, e.tag.name ∈ Names.showing → e.inner.elements = []

instance : DecidablePred LeafText := fun c =>
  inferInstanceAs (Decidable (∀ e ∈ c.elements, _ → _))

/-- No trail leads through an element that shows text. -/
theorem LeafText.eq_nil {c : Content} {a w u : List Key} {k : Key} (hc : LeafText c) (hn : c.ids.Nodup)
    (ht : w ++ k :: (u ++ a) ∈ trails a c) (hk : k.name ∈ Names.showing) : w = [] := by
  have hm : k :: (u ++ a) ∈ trails a c :=
    suffix_mem_trails ht (by simp only [List.length_cons, List.length_append]; omega)
  obtain ⟨h, tag, inner, rest, rfl, he⟩ := exists_fill_of_trail hm
  obtain ⟨rfl, hu⟩ := List.cons.inj he
  have hin : inner.elements = [] :=
    hc ⟨tag, inner⟩ (Hole.self_mem_fill _ _ _ _) hk
  cases w with
  | nil => rfl
  | cons x w =>
    rw [hu] at ht
    have := mem_inner_of_suffix hn ht
    rw [trails_of_elements_nil hin] at this
    cases this

theorem mem_childKeys {above : List Key} {k : Key} {c : Content} (h : k :: above ∈ trails above c) :
    k ∈ childKeys c := by
  obtain ⟨w, m, he, hm⟩ := last_mem_childKeys h
  cases w with
  | nil => rwa [(List.cons.inj he).1]
  | cons x w =>
    have := congrArg List.length he
    simp at this
    omega

/-- A child that shows text is a segment of the run. -/
theorem segment_of_child {r : Nat} {x : Key} (hx : x.name ∈ Names.showing) :
    ∀ {a : List Key} {c : Content}, x :: a ∈ trails a c →
      ∃ s ∈ segmentsIn (some r) c, s.node = x.id
  | _, .text _ rest, h | _, .markup _ rest, h => segment_of_child hx (c := rest) h
  | a, .element tag inner rest, h => by
    simp only [mem_trails_element] at h
    simp only [segmentsIn, List.mem_append, Option.mem_toList]
    rcases h with h | h | h
    · obtain ⟨rfl, -⟩ := List.cons.inj h
      obtain ⟨s, hs⟩ : ∃ s, Segment.of? r tag inner = some s :=
        Option.ne_none_iff_exists'.1 fun hs => of?_eq_none.1 hs hx
      exact ⟨s, .inl (.inl hs), (of?_eq_some hs).1⟩
    · obtain ⟨k, u, he⟩ := above_suffix h
      have := congrArg List.length he
      simp at this
      omega
    · obtain ⟨s, hs, hn⟩ := segment_of_child hx h
      exact ⟨s, .inr hs, hn⟩

/-- In a run that nothing conceals, what shows text is a segment. -/
theorem segment_of_trail {x m : Key} (hx : x.name ∈ Names.showing) (hm : m.name = Names.run) :
    ∀ {run : Option Nat} {a v : List Key} {c : Content}, x :: m :: (v ++ a) ∈ trails a c →
      (∀ y ∈ v, y.name ∉ Names.concealing) → ∃ s ∈ segmentsIn run c, s.node = x.id
  | run, _, _, .text _ rest, h, hv | run, _, _, .markup _ rest, h, hv =>
    segment_of_trail hx hm (c := rest) h hv
  | run, a, v, .element tag inner rest, h, hv => by
    simp only [mem_trails_element] at h
    simp only [segmentsIn, List.mem_append, Option.mem_toList]
    rcases h with h | h | h
    · have := congrArg List.length h
      simp at this
      omega
    · -- The trail leads through the element: it is the run, or one of those around it.
      obtain ⟨k, u, he⟩ := above_suffix h
      have he : (m :: v) ++ a = (u ++ [key tag]) ++ a := by simpa using (List.cons.inj he).2
      have he := List.append_cancel_right he
      cases u with
      | nil =>
        obtain ⟨rfl, rfl⟩ := List.cons.inj he
        have hrun : runOf tag = some tag.id := by simpa [runOf] using hm
        have hname : tag.name = Names.run := hm
        have hc : tag.name ∉ Names.concealing := hname ▸ by decide
        obtain ⟨s, hs, hn⟩ := segment_of_child hx h
        refine ⟨s, .inl (.inr ?_), hn⟩
        rwa [if_neg hc, hrun]
      | cons y u =>
        obtain ⟨rfl, rfl⟩ := List.cons.inj he
        have hc : tag.name ∉ Names.concealing := hv (key tag) (by simp)
        obtain ⟨s, hs, hn⟩ : ∃ s ∈ segmentsIn (runOf tag) inner, s.node = x.id :=
          segment_of_trail hx hm (by simpa using h) fun y hy => hv y (List.mem_append_left _ hy)
        refine ⟨s, .inl (.inr ?_), hn⟩
        rwa [if_neg hc]
    · obtain ⟨s, hs, hn⟩ := segment_of_trail hx hm h hv
      exact ⟨s, .inr hs, hn⟩

/-- What shows text in a run of the paragraph is a segment of the paragraph. -/
theorem segment_of_run {c : Content} {a u : List Key} {s : Segment} {x k : Key}
    (hn : c.ids.Nodup) (hs : s ∈ segmentsIn none c) (hk : k.id = s.run)
    (ht : x :: k :: u ∈ trails a c) (hm : k :: u ∈ trails a c) (hx : x.name ∈ Names.showing) :
    ∃ s' ∈ segmentsIn none c, s'.node = x.id := by
  obtain ⟨y, -, -, ⟨hr, -⟩ | ⟨m, v, hy, hi, hmr, hv⟩⟩ := segment_trail a hs
  · cases hr
  have hmt : m :: (v ++ a) ∈ trails a c := suffix_mem_trails (u := [y]) hy
    (by simp only [List.length_cons, List.length_append]; omega)
  obtain ⟨rfl, rfl⟩ := List.cons.inj (trail_eq_of_id hn hm hmt (hk.trans hi.symm))
  exact segment_of_trail hx hmr ht fun y hy => (hv y hy).1

theorem showing_of_segment {c : Content} {a u : List Key} {s : Segment} {k : Key}
    (hn : c.ids.Nodup) (hs : s ∈ segmentsIn none c) (ht : k :: u ∈ trails a c)
    (hk : k.id = s.node) : k.name ∈ Names.showing := by
  obtain ⟨x, hx, hname, hcase⟩ := segment_trail a hs
  have same : ∀ {v : List Key}, x :: v ∈ trails a c → k.name ∈ Names.showing := fun hv =>
    (List.cons.inj (trail_eq_of_id hn ht hv (hk.trans hx.symm))).1 ▸ hname
  obtain ⟨-, hv⟩ | ⟨m, v, hv, -⟩ := hcase
  · exact same hv
  · exact same hv

/-! ## Revisions -/

section Revision

variable {n : Nat} {a : List Key} {ts : List (List Key)} {c c' : Content}

/-- What leaves the content of a paragraph, of the elements that were in it. -/
def Departs (a : List Key) (ts : List (List Key)) (c : Content) (w s : List Key) : Prop :=
  w ++ s ∈ trails a c → Leaves (segmentsIn none c) ts (w ++ s)

variable (hn : c.ids.Nodup) (hc : LeafText c)

include hn hc

/-- An element that shows text of the paragraph leaves alone. -/
theorem departs_shown {s : Segment} {k : Key} {u : List Key} (hs : s ∈ segmentsIn none c)
    (hi : k.id = s.node) (hk : k.name ∈ Names.showing) (w : List Key) :
    Departs a ts c w (k :: (u ++ a)) := by
  intro ht
  obtain rfl := hc.eq_nil hn ht hk
  exact .shown hs hi hk

theorem departs_child {s : Segment} {x k : Key} {u : List Key} (hs : s ∈ segmentsIn none c)
    (hk : k.id = s.run) (hx : x.name ∈ Names.showing) (w : List Key) :
    Departs a ts c w (x :: k :: (u ++ a)) := by
  intro ht
  have hxt : x :: k :: (u ++ a) ∈ trails a c := suffix_mem_trails ht
    (by simp only [List.length_cons, List.length_append]; omega)
  have hkt : k :: (u ++ a) ∈ trails a c := suffix_mem_trails (u := [x]) hxt
    (by simp only [List.length_cons, List.length_append]; omega)
  obtain ⟨s', hs', hi⟩ := segment_of_run hn hs hk hxt hkt hx
  exact departs_shown (u := k :: u) hn hc hs' hi.symm hx w ht

theorem shift_changed {changes : List (Nat × Change)} (hf : Fits n changes none c) :
    Shift (Departs a ts c) Arrives n (trails a c) (trails a (changed changes c)) := by
  refine (changed_swept hn hf fun k u x hk hx => ?_).shift
  obtain ⟨s, hs, hi, -⟩ := hf.node _ (mem_ids_iff_trail.2 ⟨k, u, hk, rfl⟩) _ hx
  have hname := showing_of_segment hn hs hk hi.symm
  obtain ⟨_, v, he⟩ := above_suffix hk
  obtain ⟨rfl, rfl⟩ := List.cons.inj he
  exact ⟨departs_shown hn hc hs hi.symm hname, fun k' hk' _ => ⟨k', _, rfl, .inl hk'⟩⟩

/-- What has come of the content so far. A run that is tidied then is one of the paragraph. -/
theorem swept_tidy {s : Segment} (hdown : ∀ x t, x :: t ∈ ts → t ∈ trails a c → x :: t ∈ trails a c)
    (hs : s ∈ segmentsIn none c) (hn' : c'.ids.Nodup) (ho : OwnRun s.run a c')
    (hsh : Shift (Departs a ts c) Arrives n (trails a c) (trails a c')) :
    Swept (Departs a ts c) Arrives n a c' (tidy s.run c') := by
  rcases tidy_cases hn' ho with he | ⟨h, tag, inner, rest, new, rfl, he, ht, hid, hr, hpar⟩ <;>
    rw [he]
  · exact .refl c'
  refine .fill hpar (ht.swept_of hr (fun hb w hw hold => ?_) fun k hk w =>
    departs_child (u := h.above.map key) hn hc hs hid (hk ▸ by decide) w)
  have hkt : key tag :: Around.trail h a ∈ trails a c := suffix_mem_trails hold
    (by simp only [Around.trail, List.length_cons, List.length_append]; omega)
  -- What is not properties has left the run before, or is one of the empty text elements.
  have child : ∀ x, x :: key tag :: Around.trail h a ∈ trails a c → x ∈ childKeys inner →
      x.name ≠ Names.runProperties →
        Leaves (segmentsIn none c) ts (x :: key tag :: Around.trail h a) := by
    intro x hx hm hp
    have htext := (childKeys_of_isBare hb x hm).resolve_left hp
    exact departs_child (u := h.above.map key) hn hc hs hid (htext ▸ by decide) [] hx
  have hrun : Leaves (segmentsIn none c) ts (key tag :: Around.trail h a) := by
    refine .run hs hid hr fun x hx hp => ?_
    have hxt := hdown x _ hx hkt
    rcases hsh.lost _ hxt with hcur | ⟨w', s', heq, hd⟩
    · exact child x hxt (mem_childKeys (mem_inner_of_suffix (u := []) hn' hcur)) hp
    · rw [heq] at hxt ⊢
      exact hd hxt
  simp only [trails, List.append_nil, List.mem_cons] at hw
  rcases hw with hw | hw
  · obtain rfl : w = [] := List.append_left_eq_self.1 hw
    exact hrun
  · obtain ⟨v, m, hv, hm⟩ := last_mem_childKeys hw
    obtain rfl : w = v ++ [m] := List.append_cancel_right (by simpa using hv)
    rw [List.append_assoc] at hold ⊢
    by_cases hp : m.name = Names.runProperties
    · exact .inside hr hp hrun
    · have hmt : m :: key tag :: Around.trail h a ∈ trails a c := suffix_mem_trails hold
        (by simp only [Around.trail, List.length_cons, List.length_append]; omega)
      have htext := (childKeys_of_isBare hb m hm).resolve_left hp
      exact departs_child (u := h.above.map key) hn hc hs hid (htext ▸ by decide) v hold

theorem shift_tidied (hl : ∀ i ∈ c.ids, i < n)
    (hdown : ∀ x t, x :: t ∈ ts → t ∈ trails a c → x :: t ∈ trails a c) :
    ∀ (rs : List Nat) {c' : Content}, (∀ r ∈ rs, ∃ s ∈ segmentsIn none c, s.run = r) →
      c'.ids.Nodup → Shift (Departs a ts c) Arrives n (trails a c) (trails a c') →
        Shift (Departs a ts c) Arrives n (trails a c)
          (trails a (rs.foldl (fun c r => tidy r c) c'))
  | [], _, _, _, hsh => hsh
  | r :: rs, c', hrs, hn', hsh => by
    obtain ⟨s, hs, rfl⟩ := hrs r List.mem_cons_self
    obtain ⟨hm, ho⟩ := ownRun_of_segment (a := a) hn hs
    have ho' := ho.shift hsh (hl _ hm)
    have hsw := swept_tidy hn hc hdown hs hn' ho' hsh
    have hless : Swept Spent (fun _ => False) n a c' (tidy s.run c') := tidy_swept hn' ho'
    exact shift_tidied hl hdown rs (fun i hi => hrs i (List.mem_cons_of_mem _ hi))
      (hn'.sublist (hless.ids_sublist fun _ h => h)) (hsh.trans hsw.shift (Nat.le_refl n))

/-- What leaves the content of a paragraph that is revised, and what comes. -/
theorem Revision.apply_shift {r : Revision} (hl : ∀ i ∈ c.ids, i < n)
    (hdown : ∀ x t, x :: t ∈ ts → t ∈ trails a c → x :: t ∈ trails a c)
    (hf : Fits n r.changes none c) (hfr : Fresh n r.changes)
    (ht : ∀ i ∈ r.touched, ∃ s ∈ segmentsIn none c, s.run = i) (ha : r.appended = .nil) :
    Shift (Departs a ts c) Arrives n (trails a c) (trails a (r.apply c)) := by
  rw [Revision.apply, ha, Content.append_nil]
  exact shift_tidied hn hc hl hdown r.touched ht (nodup_changed hfr hn hl) (shift_changed hn hc hf)

end Revision

end MailMerge.Word
