import MailMerge.Proofs.Copies
import MailMerge.Proofs.Splice

/-!
# The text after a replacement

A replacement looks at segments and changes elements. For the pieces of the paragraph it comes to
`splice` (`pieces_revision`): the new text goes where the span begins, also if that is a tab or a
line break.
-/

namespace MailMerge.Word

open MailMerge.Xml

/-- The changes of segments, by the numbers of their elements. -/
def byNode (cuts : List (Segment × Change)) : List (Nat × Change) :=
  cuts.map fun (s, change) => (s.node, change)

theorem cut_subset {start stop : Nat} : ∀ {pos : Nat} {segments : List Segment},
    ∀ x ∈ cut start stop pos segments, x.1 ∈ segments
  | pos, s :: rest, x, hx => by
    simp only [cut] at hx
    split at hx
    · rcases List.mem_cons.1 hx with rfl | hx
      · exact List.mem_cons_self
      · exact List.mem_cons_of_mem _ (cut_subset x hx)
    · exact List.mem_cons_of_mem _ (cut_subset x hx)

theorem lookup_byNode_eq_none {start stop pos i : Nat} {segments : List Segment}
    (h : i ∉ segments.map (·.node)) : (byNode (cut start stop pos segments)).lookup i = none := by
  rw [List.lookup_eq_none_iff]
  intro x hx
  obtain ⟨y, hy, rfl⟩ := List.mem_map.1 hx
  simp only [bne_iff_ne, ne_eq]
  exact fun e => h (e ▸ List.mem_map_of_mem (cut_subset y hy))

theorem applied_of_none {changes : List (Nat × Change)} {s : Segment}
    (h : changes.lookup s.node = none) : applied changes s = [s] := by
  simp [applied, h]

theorem flatMap_applied_cons {i : Nat} {x : Change} {changes : List (Nat × Change)}
    {segments : List Segment} (h : i ∉ segments.map (·.node)) :
    segments.flatMap (applied ((i, x) :: changes)) = segments.flatMap (applied changes) := by
  refine List.flatMap_congr fun s hs => ?_
  have hne : (s.node == i) = false :=
    beq_eq_false_iff_ne.2 fun e => h (e ▸ List.mem_map_of_mem hs)
  simp [applied, List.lookup_cons, hne]

/-- Whether segments that cannot be edited show one character each. -/
def Single (segments : List Segment) : Prop :=
  ∀ s ∈ segments, s.editable = false → s.chars.length = 1

section Cut

variable {start stop : Nat}

theorem drop_min (cs : List Char) (pos : Nat) :
    cs.drop (min stop (pos + cs.length) - pos) = cs.drop (stop - pos) := by
  rcases Nat.le_total stop (pos + cs.length) with h | h
  · rw [Nat.min_eq_left h]
  · rw [Nat.min_eq_right h, List.drop_eq_nil_of_le (by omega), List.drop_eq_nil_of_le (by omega)]

/-- Behind the beginning of a span, what belongs to the span is trimmed. -/
theorem pieces_cut : ∀ {pos : Nat} {segments : List Segment}, start ≤ pos →
    (segments.map (·.node)).Nodup → Single segments →
      pieces (segments.flatMap (applied (byNode (cut start stop pos segments)))) =
        trim (stop - pos) (pieces segments)
  | pos, [], _, _, _ => rfl
  | pos, s :: rest, hpos, hn, hsingle => by
    simp only [List.map_cons, List.nodup_cons] at hn
    have hnext : start ≤ pos + s.chars.length := by omega
    have ih := pieces_cut hnext hn.2 fun t ht => hsingle t (List.mem_cons_of_mem _ ht)
    have hsub : stop - (pos + s.chars.length) = stop - pos - s.chars.length := by omega
    rw [hsub] at ih
    -- The first segment has something of the span, or the span is over.
    by_cases hc : max start pos < min stop (pos + s.chars.length)
    · have hlt : pos < stop ∧ 0 < s.chars.length := by omega
      have hne : s.chars ≠ [] := List.ne_nil_of_length_pos hlt.2
      have hmax : max start pos = pos := by omega
      rw [cut, if_pos hc, pieces_cons s rest, if_neg hne]
      simp only [byNode, List.map_cons, List.flatMap_cons, pieces_append]
      rw [flatMap_applied_cons hn.1]
      simp only [byNode] at ih
      rw [ih, List.singleton_append, trim]
      congr 1
      simp only [applied, List.lookup_cons_self]
      by_cases he : s.editable = true
      · simp only [he, if_true, hmax, Nat.sub_self, List.take_zero, List.nil_append, drop_min,
          pieces_cons, pieces_nil, List.append_nil, List.drop_eq_nil_iff]
        by_cases hl : stop - pos < s.chars.length
        · rw [if_neg (by omega), if_pos hl]
        · rw [if_pos (by omega), if_neg hl]
      · have h1 := hsingle s (by simp) (by simpa using he)
        rw [if_neg (by omega : ¬stop - pos < s.chars.length)]
        simp [he, segmentsIn]
    · rw [cut, if_neg hc, List.flatMap_cons,
        applied_of_none (lookup_byNode_eq_none hn.1), pieces_append, ih, pieces_cons s rest]
      by_cases hne : s.chars = []
      · simp [hne, pieces_cons]
      · have hpos' : 0 < s.chars.length := List.length_pos_of_ne_nil hne
        have hstop : stop - pos = 0 := by omega
        simp [hne, pieces_cons, trim, hstop, hpos']

theorem anchor?_of_lt : ∀ {pos : Nat} {segments : List Segment}, start < pos →
    anchor? start stop pos segments = none
  | _, [], _ => rfl
  | pos, s :: rest, h => by
    have hle : decide (pos ≤ start) = false := decide_eq_false (by omega)
    rw [anchor?]
    simp only [hle, Bool.and_false, Bool.false_and]
    exact anchor?_of_lt (by omega)

/-- What is done to the segment in which a span begins, with what it keeps left and right. -/
def firstChange (s : Segment) (left right : List Char) : Change :=
  if s.editable then .retext (left ++ right) else .swap .nil

/-- The segment in which a span begins: new text goes there, and it is the first one that is cut. -/
theorem exists_anchor (hlt : start < stop) : ∀ {pos : Nat} {segments : List Segment}, pos ≤ start →
    Single segments → start - pos < (shownBy segments).length →
    ∃ front x back left right, segments = front ++ x :: back ∧
      (shownBy front).length ≤ start - pos ∧
      start - pos < (shownBy front).length + x.chars.length ∧
      left = x.chars.take (start - pos - (shownBy front).length) ∧
      right = x.chars.drop (stop - pos - (shownBy front).length) ∧
      (anchor? start stop pos segments = some (.segment x left right) ∨
        x.editable = false ∧ anchor? start stop pos segments = none) ∧
      cut start stop pos segments = (x, firstChange x left right) ::
        cut start stop (pos + (shownBy front).length + x.chars.length) back
  | pos, [], _, _, h => by simp [shownBy] at h
  | pos, s :: rest, hpos, hsingle, h => by
    have hshown : ∀ l : List Segment, (shownBy (s :: l)).length =
        s.chars.length + (shownBy l).length := fun l => by simp [shownBy]
    rw [hshown] at h
    by_cases hs : pos + s.chars.length ≤ start
    · have hlt' : start - (pos + s.chars.length) < (shownBy rest).length := by omega
      obtain ⟨front, x, back, _, _, rfl, h₁, h₂, rfl, rfl, h₃, h₄⟩ :=
        exists_anchor hlt hs (fun t ht => hsingle t (List.mem_cons_of_mem _ ht)) hlt'
      refine ⟨s :: front, x, back, _, _, rfl, by rw [hshown]; omega, by rw [hshown]; omega, rfl,
        rfl, ?_, ?_⟩
      · have hc : (s.editable && decide (pos ≤ start) && (decide (start < pos + s.chars.length) ||
            (decide (start = stop) && decide (start = pos + s.chars.length)))) = false := by
          have h₁ : decide (start < pos + s.chars.length) = false := decide_eq_false (by omega)
          have h₂ : decide (start = stop) = false := decide_eq_false (by omega)
          simp [h₁, h₂]
        rw [anchor?]
        simp only [hc, Bool.false_eq_true, if_false, hshown]
        simpa only [Nat.sub_sub, Nat.add_assoc] using h₃
      · rw [cut, if_neg (by omega), h₄, hshown]
        simp only [Nat.sub_sub, Nat.add_assoc]
    · refine ⟨[], s, rest, s.chars.take (start - pos), s.chars.drop (stop - pos), rfl,
        by simp [shownBy], by simp [shownBy]; omega, by simp [shownBy], by simp [shownBy], ?_, ?_⟩
      · have h₁ : decide (start < pos + s.chars.length) = true := decide_eq_true (by omega)
        rw [anchor?]
        by_cases he : s.editable = true
        · simp [he, hpos, h₁, drop_min]
        · simp only [he, Bool.false_and, Bool.false_eq_true, if_false]
          exact .inr ⟨trivial, anchor?_of_lt (by omega)⟩
      · have hmax : max start pos = start := by omega
        rw [cut, if_pos (by omega)]
        simp [firstChange, hmax, drop_min, shownBy]

/-- What cannot be edited goes away with the first character of a span. -/
theorem left_right_nil {s : Segment} (hs : s.editable = false → s.chars.length = 1)
    (he : s.editable = false) {i j : Nat} (hi : i < s.chars.length) (hj : i < j) :
    s.chars.take i = [] ∧ s.chars.drop j = [] := by
  have h := hs he
  obtain rfl : i = 0 := by omega
  exact ⟨List.take_zero .., List.drop_eq_nil_of_le (by omega)⟩

end Cut

theorem splice_append {new : List Char} {qs : List Piece} :
    ∀ {start stop : Nat} {ps : List Piece}, (spelled ps).length ≤ start →
      splice start stop new (ps ++ qs) =
        ps ++ splice (start - (spelled ps).length) (stop - (spelled ps).length) new qs
  | _, _, [], _ => by simp
  | start, stop, p :: ps, h => by
    rw [spelled_cons, List.length_append] at h
    rw [List.cons_append, splice, if_pos (by omega), splice_append (by omega), spelled_cons,
      List.length_append, Nat.sub_sub, Nat.sub_sub, List.cons_append]

/-! ## New text -/

/-- The element that an inline item is. -/
theorem exists_node (lead : Option String) (i : Inline) : ∃ e : Element,
    i.node lead = .element e ∧ e.tag.name ∈ Names.showing ∧ e.inner.elements = [] ∧
      ∀ r, (Segment.of? r e.tag e.inner).map Segment.look = some (i.shown, i.editable) := by
  have ht : Names.tab ≠ Names.text := by decide
  have hb : Names.lineBreak ≠ Names.text ∧ Names.lineBreak ≠ Names.tab := by decide
  cases i with
  | tab =>
    refine ⟨_, rfl, (by decide : Names.tab ∈ Names.showing), rfl, fun r => ?_⟩
    simp [Segment.of?, newTag, ht, Segment.look, Inline.editable]
  | lineBreak =>
    refine ⟨_, rfl, (by decide : Names.lineBreak ∈ Names.showing), rfl, fun r => ?_⟩
    simp [Segment.of?, newTag, hb, Segment.look, Inline.editable]
  | chars cs =>
    refine ⟨_, rfl, ?_, rfl, fun r => ?_⟩
    · rw [withText_name]
      exact (by decide : Names.text ∈ Names.showing)
    · rw [of?_withText rfl]
      rfl

theorem ofInlines_ofList (lead : Option String) : ∀ is : List Inline,
    OfInlines (.ofList (is.map (·.node lead))) ∧
      ∀ r, (segmentsIn (some r) (.ofList (is.map (·.node lead)))).map Segment.look =
        is.map fun i => (i.shown, i.editable)
  | [] => ⟨trivial, fun _ => rfl⟩
  | i :: is => by
    obtain ⟨h₁, h₂⟩ := ofInlines_ofList lead is
    obtain ⟨e, he, hs, hi, ho⟩ := exists_node lead i
    have hc : Content.ofList ((i :: is).map (·.node lead)) =
        .element e.tag e.inner (.ofList (is.map (·.node lead))) := by
      simp [Content.ofList, he, Content.cons]
    rw [hc]
    refine ⟨⟨hs, hi, h₁⟩, fun r => ?_⟩
    rw [segmentsIn_leaf hi, List.map_append, h₂ r, Option.bind_some, ← Option.toList_map, ho r]
    rfl

theorem ofInlines_textContent (lead : Option String) (cs : List Char) :
    OfInlines (textContent lead cs) := (ofInlines_ofList lead _).1

theorem ofInlines_of_face : ∀ {c d : Content}, c.face = d.face → OfInlines d → OfInlines c
  | .nil, _, _, _ => trivial
  | .text _ _, .nil, h, _ | .text _ _, .element .., h, _ => by simp [Content.face] at h
  | .markup _ _, .nil, h, _ | .markup _ _, .element .., h, _ => by simp [Content.face] at h
  | .element .., .nil, h, _ => by simp [Content.face] at h
  | .element tag inner rest, .element tag' inner' rest', h, ⟨h₁, h₂, h₃⟩ => by
    simp only [Content.face, Content.element.injEq] at h
    obtain ⟨ht, hi, hr⟩ := h
    have hn : tag.name = tag'.name := by simpa using congrArg Tag.name ht
    refine ⟨hn ▸ h₁, ?_, ofInlines_of_face hr h₃⟩
    have := congrArg Content.elements hi
    rw [Content.elements_face, Content.elements_face, h₂] at this
    simpa using this

theorem run_of_ofInlines {r : Nat} : ∀ {c : Content}, OfInlines c →
    ∀ s ∈ segmentsIn (some r) c, s.run = r
  | .nil, _, s, hs => by cases hs
  | .element tag inner rest, ⟨_, hi, hr⟩, s, hs => by
    rw [segmentsIn_leaf hi, List.mem_append, Option.mem_toList] at hs
    rcases hs with hs | hs
    · exact (of?_eq_some hs).2.1
    · exact run_of_ofInlines hr s hs

theorem pieces_of_looks {r : Nat} {segments : List Segment} (h : ∀ s ∈ segments, s.run = r) :
    pieces segments = ((segments.map Segment.look).filter (·.1 ≠ [])).map fun l =>
      ⟨r, l.1, l.2⟩ := by
  rw [List.filter_map, List.map_map]
  refine List.map_congr_left fun s hs => ?_
  simp [Segment.look, h s (List.mem_of_mem_filter hs)]

/-- New text shows the pieces that it is written with. -/
theorem pieces_textContent {r : Nat} {lead : Option String} {cs : List Char} {c : Content}
    (h : c.face = (textContent lead cs).face) :
    pieces (segmentsIn (some r) c) = written r cs := by
  have hi := ofInlines_of_face h (ofInlines_textContent lead cs)
  rw [pieces_of_looks (run_of_ofInlines hi),
    looks_of_face h (rfl : (some r).isSome = (some r).isSome), textContent,
    (ofInlines_ofList lead _).2 r, List.filter_eq_self.2]
  · simp [written]
  · intro l hl
    obtain ⟨i, hm, rfl⟩ := List.mem_map.1 hl
    simpa using inlines_ne_nil i hm

/-! ## Numbering a revision -/

/-- A change with the same text, but for numbers and prefixes. -/
inductive SameChange : Nat × Change → Nat × Change → Prop
  | retext (i : Nat) (cs : List Char) : SameChange (i, .retext cs) (i, .retext cs)
  | swap (i : Nat) {c d : Content} (h : d.face = c.face) : SameChange (i, .swap c) (i, .swap d)

theorem SameChange.key {x y : Nat × Change} (h : SameChange x y) : y.1 = x.1 := by
  cases h <;> rfl

theorem exists_of_lookup {changes changes' : List (Nat × Change)}
    (h : List.Forall₂ SameChange changes changes') {i : Nat} {x' : Change}
    (hx : changes'.lookup i = some x') :
    ∃ x, changes.lookup i = some x ∧ SameChange (i, x) (i, x') := by
  induction h with
  | nil => cases hx
  | @cons a b l l' hab _ ih =>
    rw [List.lookup_cons] at hx ⊢
    rw [← hab.key]
    by_cases hi : i = b.1
    · subst hi
      simp only [beq_self_eq_true, Option.some.injEq] at hx ⊢
      subst hx
      have ha : a = (b.1, a.2) := Prod.ext hab.key.symm rfl
      exact ⟨a.2, rfl, ha ▸ hab⟩
    · have hb : (i == b.1) = false := beq_eq_false_iff_ne.2 hi
      simp only [hb] at hx ⊢
      exact ih hx

theorem lookup_cons_some {id i : Nat} {x y : Change} {rest : List (Nat × Change)}
    (h : ((id, x) :: rest).lookup i = some y) : i = id ∧ y = x ∨ rest.lookup i = some y := by
  rw [List.lookup_cons] at h
  by_cases hi : i = id
  · simp only [hi, beq_self_eq_true, Option.some.injEq] at h
    exact .inl ⟨hi, h.symm⟩
  · simp only [beq_eq_false_iff_ne.2 hi] at h
    exact .inr h

theorem number_eq (c : Content) (f : Forest) : Edit.number c f =
    .ok (c.renumber f.next).1 { f with next := (c.renumber f.next).2 } := rfl

/-- Numbered changes are the same changes; their numbers are those from `f.next` on. -/
theorem numberAll_spec : ∀ (changes : List (Nat × Change)) (f : Forest), ∃ changes' m,
    Edit.numberAll changes f = .ok changes' { f with next := m } ∧ f.next ≤ m ∧
      List.Forall₂ SameChange changes changes' ∧ Fresh f.next changes' ∧
        ∀ i x, changes'.lookup i = some (.swap x) → ∀ j ∈ x.ids, j < m
  | [], f => ⟨[], f.next, rfl, Nat.le_refl _, .nil, ⟨by simp, by simp⟩, by simp⟩
  | (id, .retext cs) :: rest, f => by
    obtain ⟨changes', m, h₁, h₂, h₃, h₄, h₅⟩ := numberAll_spec rest f
    have tail : ∀ {i x}, ((id, Change.retext cs) :: changes').lookup i = some (.swap x) →
        changes'.lookup i = some (.swap x) := fun hx =>
      (lookup_cons_some hx).resolve_left fun h => by cases h.2
    refine ⟨(id, .retext cs) :: changes', m, ?_, h₂, .cons (.retext id cs) h₃,
      ⟨fun i x hx => h₄.nodup i x (tail hx), fun i j x y hx hy =>
        h₄.apart i j x y (tail hx) (tail hy)⟩, fun i x hx => h₅ i x (tail hx)⟩
    simp only [Edit.numberAll, bind, EStateM.bind, h₁]
    rfl
  | (id, .swap c) :: rest, f => by
    obtain ⟨changes', m, h₁, h₂, h₃, h₄, h₅⟩ :=
      numberAll_spec rest { f with next := (c.renumber f.next).2 }
    have hle : f.next ≤ (c.renumber f.next).2 := by
      rw [Content.renumber_next]
      omega
    simp only at h₁ h₂
    refine ⟨(id, .swap (c.renumber f.next).1) :: changes', m, ?_, Nat.le_trans hle h₂,
      .cons (.swap id (Content.face_renumber c _)) h₃,
      ⟨fun i x hx => ?_, fun i j x y hx hy k hkx hky => ?_⟩, fun i x hx j hj => ?_⟩
    · simp only [Edit.numberAll, bind, EStateM.bind, number_eq, h₁]
      rfl
    · rcases lookup_cons_some hx with ⟨-, hx⟩ | hx
      · obtain rfl := Change.swap.inj hx
        exact ⟨Content.nodup_renumber _ _, fun j hj => (Content.mem_ids_renumber.1 hj).1⟩
      · exact ⟨(h₄.nodup i x hx).1, fun j hj => Nat.le_trans hle ((h₄.nodup i x hx).2 j hj)⟩
    · rcases lookup_cons_some hx with ⟨hi, ex⟩ | hx' <;>
        rcases lookup_cons_some hy with ⟨hj, ey⟩ | hy'
      · exact hi.trans hj.symm
      · obtain rfl := Change.swap.inj ex
        exact absurd (Content.mem_ids_renumber.1 hkx).2
          (Nat.not_lt.2 ((h₄.nodup _ _ hy').2 k hky))
      · obtain rfl := Change.swap.inj ey
        exact absurd (Content.mem_ids_renumber.1 hky).2
          (Nat.not_lt.2 ((h₄.nodup _ _ hx').2 k hkx))
      · exact h₄.apart i j x y hx' hy' k hkx hky
    · rcases lookup_cons_some hx with ⟨-, hx⟩ | hx
      · obtain rfl := Change.swap.inj hx
        exact Nat.lt_of_lt_of_le (Content.mem_ids_renumber.1 hj).2 h₂
      · exact h₅ i x hx j hj

/-! ## Revisions of segments -/

/-- What all revisions have in common: they change segments, and either these or only what stands
behind them. -/
structure Revision.Suits (r : Revision) (segments : List Segment) : Prop where
  node : ∀ x ∈ r.changes, ∃ s ∈ segments, s.node = x.1 ∧ ∀ cs, x.2 = .retext cs → s.editable = true
  new : ∀ x ∈ r.changes, ∀ c, x.2 = .swap c → OfInlines c
  touched : ∀ i ∈ r.touched, ∃ s ∈ segments, s.run = i
  appended : r.appended = .nil ∨ r.changes = [] ∧ r.touched = [] ∧
    ∃ lead inner, r.appended = newRun lead inner ∧ OfInlines inner

/-- What is cut out is not replaced by anything. -/
theorem cut_swap {start stop : Nat} : ∀ {pos : Nat} {segments : List Segment},
    ∀ x ∈ cut start stop pos segments, ∀ c, x.2 = .swap c → c = .nil
  | pos, s :: rest, x, hx, c, hc => by
    simp only [cut] at hx
    split at hx
    · rcases List.mem_cons.1 hx with rfl | hx
      · by_cases he : s.editable = true
        · simp [he] at hc
        · simpa [he, eq_comm] using hc
      · exact cut_swap x hx c hc
    · exact cut_swap x hx c hc

theorem cut_change {start stop : Nat} : ∀ {pos : Nat} {segments : List Segment},
    ∀ x ∈ cut start stop pos segments, x.2 = .swap .nil ∨ x.1.editable = true
  | pos, s :: rest, x, hx => by
    simp only [cut] at hx
    split at hx
    · rcases List.mem_cons.1 hx with rfl | hx
      · by_cases he : s.editable = true
        · exact .inr he
        · exact .inl (by simp [he])
      · exact cut_change x hx
    · exact cut_change x hx

theorem cut_chars {start stop : Nat} : ∀ {pos : Nat} {segments : List Segment},
    ∀ x ∈ cut start stop pos segments, x.1.chars ≠ []
  | pos, s :: rest, x, hx => by
    simp only [cut] at hx
    split at hx
    · next hc =>
      rcases List.mem_cons.1 hx with rfl | hx
      · exact List.ne_nil_of_length_pos (by simp only; omega)
      · exact cut_chars x hx
    · exact cut_chars x hx

theorem anchor?_mem {start stop : Nat} {s : Segment} {b a : List Char} :
    ∀ {pos : Nat} {segments : List Segment},
      anchor? start stop pos segments = some (.segment s b a) → s ∈ segments
  | pos, t :: rest, h => by
    simp only [anchor?] at h
    split at h
    · obtain ⟨rfl, -⟩ := Target.segment.inj (Option.some.inj h)
      exact List.mem_cons_self
    · exact List.mem_cons_of_mem _ (anchor?_mem h)

theorem anchor?_ne_behind {start stop : Nat} : ∀ {pos : Nat} {segments : List Segment},
    anchor? start stop pos segments ≠ some .behind
  | _, [] => by simp [anchor?]
  | pos, t :: rest => by
    simp only [anchor?]
    split
    · simp
    · exact anchor?_ne_behind

theorem target_mem {start stop : Nat} {segments : List Segment} {s : Segment} {b a : List Char}
    (h : target start stop segments = .segment s b a) : s ∈ segments := by
  unfold target at h
  split at h
  · next t ht => exact anchor?_mem (h ▸ ht)
  · split at h
    · next t _ _ hc =>
      obtain ⟨rfl, -⟩ := Target.segment.inj h
      exact cut_subset _ (hc ▸ List.mem_cons_self)
    · cases h

theorem cut_of_behind {start stop : Nat} {segments : List Segment}
    (h : target start stop segments = .behind) : cut start stop 0 segments = [] := by
  unfold target at h
  split at h
  · next t ht => exact absurd (h ▸ ht) anchor?_ne_behind
  · split at h
    · cases h
    · next hc => exact hc

/-- New text that replaces characters goes where these are. -/
theorem appended_revision {p start stop : Nat} {lead : Nat → Option String} {new : List Char}
    {segments : List Segment} (hlt : start < stop) (hsingle : Single segments)
    (hstart : start < (shownBy segments).length) :
    (revision p lead start stop new segments).appended = .nil := by
  obtain ⟨_, _, _, _, _, _, _, _, _, _, _, hc⟩ :=
    exists_anchor hlt (Nat.zero_le start) hsingle hstart
  unfold revision
  simp only
  split
  · rfl
  · split
    · rfl
    · next hb =>
      rw [cut_of_behind hb] at hc
      cases hc

section Suits

variable {p start stop : Nat} {lead : Nat → Option String} {segments : List Segment}

theorem cuts_node : ∀ x ∈ byNode (cut start stop 0 segments),
    ∃ s ∈ segments, s.node = x.1 ∧ ∀ cs, x.2 = .retext cs → s.editable = true := by
  intro x hx
  obtain ⟨y, hy, rfl⟩ := List.mem_map.1 hx
  refine ⟨y.1, cut_subset y hy, rfl, fun cs hc => (cut_change y hy).resolve_left fun hn => ?_⟩
  cases hn.symm.trans hc

theorem cuts_new : ∀ x ∈ byNode (cut start stop 0 segments), ∀ c, x.2 = .swap c → OfInlines c := by
  intro x hx c hc
  obtain ⟨y, hy, rfl⟩ := List.mem_map.1 hx
  rw [cut_swap y hy c hc]
  trivial

theorem suits_revision (new : List Char) :
    (revision p lead start stop new segments).Suits segments := by
  have ht : ∀ i ∈ ((cut start stop 0 segments).map (·.1.run)).eraseDups,
      ∃ s ∈ segments, s.run = i := by
    intro i hi
    obtain ⟨y, hy, rfl⟩ := List.mem_map.1 (List.mem_eraseDups.1 hi)
    exact ⟨y.1, cut_subset y hy, rfl⟩
  unfold revision
  simp only
  split
  · exact ⟨cuts_node, cuts_new, ht, .inl rfl⟩
  · split
    · next s b a hs =>
      refine ⟨fun x hx => ?_, fun x hx c hc => ?_, ht, .inl rfl⟩
      · rcases List.mem_cons.1 hx with rfl | hx
        · exact ⟨s, target_mem hs, rfl, fun cs hc => by cases hc⟩
        · exact cuts_node x hx
      · rcases List.mem_cons.1 hx with rfl | hx
        · obtain rfl := Change.swap.inj hc
          exact ofInlines_textContent _ _
        · exact cuts_new x hx c hc
    · next hs =>
      simp only [cut_of_behind hs]
      exact ⟨by simp, by simp, by simp, .inr ⟨rfl, rfl, _, _, rfl, ofInlines_textContent _ _⟩⟩

theorem suits_brokenRevision : (brokenRevision p lead start stop segments).Suits segments := by
  have hmade : ∀ lead, OfInlines (.element (newTag Names.text lead) .nil .nil) := fun lead =>
    ⟨(by decide : Names.text ∈ Names.showing), rfl, trivial⟩
  unfold brokenRevision
  simp only
  split
  · next s b a hs =>
    refine ⟨fun x hx => ?_, fun x hx c hc => ?_, by simp, .inl rfl⟩
    · split at hx
      · exact cuts_node x hx
      · rcases List.mem_cons.1 hx with rfl | hx
        · exact ⟨s, target_mem hs, rfl, fun cs hc => by cases hc⟩
        · exact cuts_node x hx
    · split at hx
      · exact cuts_new x hx c hc
      · rcases List.mem_cons.1 hx with rfl | hx
        · obtain rfl := Change.swap.inj hc
          exact hmade _
        · exact cuts_new x hx c hc
  · next hs =>
    simp only [cut_of_behind hs]
    exact ⟨by simp, by simp, by simp, .inr ⟨rfl, rfl, _, _, rfl, hmade _⟩⟩

end Suits

theorem mem_of_lookup {changes : List (Nat × Change)} {i : Nat} {x : Change}
    (h : changes.lookup i = some x) : (i, x) ∈ changes := by
  induction changes with
  | nil => cases h
  | cons y rest ih =>
    rcases lookup_cons_some h with ⟨rfl, rfl⟩ | h
    · exact List.mem_cons_self
    · exact List.mem_cons_of_mem _ (ih h)

/-- Numbered changes of segments fit the content that the segments are from. -/
theorem Revision.Suits.fits {n : Nat} {r : Revision} {c : Content} {changes' : List (Nat × Change)}
    (hr : r.Suits (segmentsIn none c)) (hs : List.Forall₂ SameChange r.changes changes')
    (hf : Fresh n changes') : Fits n changes' none c where
  node i _ x' hx' := by
    obtain ⟨x, hx, h⟩ := exists_of_lookup hs hx'
    obtain ⟨s, hm, hn, he⟩ := hr.node _ (mem_of_lookup hx)
    refine ⟨s, hm, hn, fun cs hc => he cs ?_⟩
    subst hc
    cases h
    rfl
  new i x' hx' := by
    obtain ⟨x, hx, h⟩ := exists_of_lookup hs hx'
    refine ⟨?_, (hf.nodup i x' hx').2⟩
    cases h with
    | swap _ h => exact ofInlines_of_face h (hr.new _ (mem_of_lookup hx) _ rfl)

/-- The revision `r'` is `r` with numbers from `n` up to `m` for what is new. -/
structure Revision.Numbered (n m : Nat) (r r' : Revision) : Prop where
  le : n ≤ m
  changes : List.Forall₂ SameChange r.changes r'.changes
  fresh : Fresh n r'.changes
  below : ∀ i x, r'.changes.lookup i = some (.swap x) → ∀ j ∈ x.ids, j < m
  face : r'.appended.face = r.appended.face
  nodup : r'.appended.ids.Nodup
  ids : ∀ i ∈ r'.appended.ids, n ≤ i ∧ i < m
  touched : r'.touched = r.touched

/-- How a revision is done: it is numbered, and then the content is changed. -/
theorem perform_eq (p : Nat) (r : Revision) (f : Forest) : ∃ r' m,
    Edit.perform p r f = .ok () ({ f with next := m }.update p fun e =>
      { e with inner := r'.apply e.inner }) ∧ r.Numbered f.next m r' := by
  obtain ⟨changes', m, h₁, h₂, h₃, h₄, h₅⟩ := numberAll_spec r.changes f
  have hle : m ≤ (r.appended.renumber m).2 := by
    rw [Content.renumber_next]
    omega
  refine ⟨⟨changes', (r.appended.renumber m).1, r.touched⟩, (r.appended.renumber m).2, ?_,
    Nat.le_trans h₂ hle, h₃, h₄, fun i x hx j hj => Nat.lt_of_lt_of_le (h₅ i x hx j hj) hle,
    Content.face_renumber _ _, Content.nodup_renumber _ _, fun i hi => ?_, rfl⟩
  · simp only [Edit.perform, bind, EStateM.bind, h₁, number_eq]
    rfl
  · have := Content.mem_ids_renumber.1 hi
    omega

theorem eq_of_same {changes changes' : List (Nat × Change)}
    (hc : ∀ x ∈ changes, ∀ c, x.2 = .swap c → c = .nil)
    (hs : List.Forall₂ SameChange changes changes') : changes' = changes := by
  induction hs with
  | nil => rfl
  | cons h _ ih =>
    rw [ih fun x hx => hc x (List.mem_cons_of_mem _ hx)]
    congr 1
    cases h with
    | retext => rfl
    | @swap i c d h =>
      obtain rfl := hc _ List.mem_cons_self _ rfl
      rw [Content.eq_nil_of_face h]

/-- Cuts bring nothing new, so there is nothing to number in them. -/
theorem byNode_of_same {start stop pos : Nat} {segments : List Segment}
    {changes' : List (Nat × Change)}
    (h : List.Forall₂ SameChange (byNode (cut start stop pos segments)) changes') :
    changes' = byNode (cut start stop pos segments) := by
  refine eq_of_same (fun y hy c hc => ?_) h
  obtain ⟨z, hz, rfl⟩ := List.mem_map.1 hy
  exact cut_swap z hz c hc

theorem lookup_own {changes : List (Nat × Change)} {i j : Nat} (h : j ≠ i) :
    ∀ own : List Change, (own.map (i, ·) ++ changes).lookup j = changes.lookup j
  | [] => rfl
  | x :: own => by
    rw [List.map_cons, List.cons_append, List.lookup_cons, beq_eq_false_iff_ne.2 h]
    exact lookup_own h own

/-- Changes of one segment do not touch the other ones. -/
theorem flatMap_applied_own {front back : List Segment} {x : Segment}
    {changes : List (Nat × Change)} (own : List Change)
    (hn : ((front ++ x :: back).map (·.node)).Nodup)
    (hf : ∀ s ∈ front, changes.lookup s.node = none) :
    (front ++ x :: back).flatMap (applied (own.map (x.node, ·) ++ changes)) =
      front ++ (applied (own.map (x.node, ·) ++ changes) x ++ back.flatMap (applied changes)) := by
  simp only [List.map_append, List.map_cons, List.nodup_append, List.nodup_cons] at hn
  obtain ⟨-, ⟨hxb, -⟩, hfx⟩ := hn
  have other : ∀ s : Segment, s.node ≠ x.node →
      applied (own.map (x.node, ·) ++ changes) s = applied changes s :=
    fun s h => by simp only [applied, lookup_own h]
  have hfront : front.flatMap (applied (own.map (x.node, ·) ++ changes)) = front := by
    rw [List.flatMap_congr (g := fun s => [s]), List.flatMap_singleton']
    intro s hs
    rw [other s fun e => hfx _ (List.mem_map_of_mem hs) _ List.mem_cons_self e]
    exact applied_of_none (hf s hs)
  have hback : back.flatMap (applied (own.map (x.node, ·) ++ changes)) =
      back.flatMap (applied changes) :=
    List.flatMap_congr fun s hs => other s fun e => hxb (e ▸ List.mem_map_of_mem hs)
  rw [List.flatMap_append, List.flatMap_cons, hfront, hback]

/-- The segments after a replacement: those in front of the one in which the span begins are what
they were, the new text is in the place of that one, and those behind it are cut. -/
theorem segments_revision {p start stop : Nat} {lead : Nat → Option String} {new : List Char}
    {segments : List Segment} {changes' : List (Nat × Change)} (hlt : start < stop)
    (hstart : start < (shownBy segments).length) (hn : (segments.map (·.node)).Nodup)
    (hsingle : Single segments)
    (hs : List.Forall₂ SameChange (revision p lead start stop new segments).changes changes') :
    ∃ front x back left right y, segments = front ++ x :: back ∧
      (shownBy front).length ≤ start ∧ start < (shownBy front).length + x.chars.length ∧
      left = x.chars.take (start - (shownBy front).length) ∧
      right = x.chars.drop (stop - (shownBy front).length) ∧
      changes'.lookup x.node = some y ∧ SameChange (x.node, if new = [] then firstChange x left right
        else .swap (textContent (lead x.run) (left ++ new ++ right))) (x.node, y) ∧
      segments.flatMap (applied changes') = front ++ (applied changes' x ++ back.flatMap (applied
        (byNode (cut start stop ((shownBy front).length + x.chars.length) back)))) := by
  obtain ⟨front, x, back, left, right, rfl, h₁, h₂, hleft, hright, ha, hc⟩ :=
    exists_anchor hlt (Nat.zero_le start) hsingle hstart
  simp only [Nat.sub_zero, Nat.zero_add] at h₁ h₂ hleft hright ha hc
  have hcuts : byNode (cut start stop 0 (front ++ x :: back)) = (x.node, firstChange x left right) ::
      byNode (cut start stop ((shownBy front).length + x.chars.length) back) := by
    rw [hc]
    rfl
  have hfront : ∀ s ∈ front, (byNode (cut start stop ((shownBy front).length + x.chars.length)
      back)).lookup s.node = none := by
    intro s hs
    refine lookup_byNode_eq_none fun hm => ?_
    rw [List.map_append, List.map_cons, List.nodup_append] at hn
    exact hn.2.2 _ (List.mem_map_of_mem hs) _ (List.mem_cons_of_mem _ hm) rfl
  unfold revision at hs
  simp only at hs
  split at hs
  · next hnew =>
    obtain rfl := byNode_of_same hs
    rw [hcuts]
    refine ⟨front, x, back, left, right, firstChange x left right, rfl, h₁, h₂, hleft, hright,
      List.lookup_cons_self .., ?_, flatMap_applied_own [firstChange x left right] hn hfront⟩
    rw [if_pos hnew]
    unfold firstChange
    split
    · exact .retext _ _
    · exact .swap _ rfl
  · next hnew =>
    have ht : target start stop (front ++ x :: back) = .segment x left right := by
      unfold target
      rcases ha with ha | ⟨he, ha⟩
      · rw [ha]
      · obtain ⟨rfl, rfl⟩ : left = [] ∧ right = [] :=
          hleft ▸ hright ▸ left_right_nil (hsingle x (by simp)) he (by omega) (by omega)
        rw [ha, hc]
    simp only [ht] at hs
    cases hs with
    | @cons _ b _ l hb hl =>
      obtain rfl := byNode_of_same hl
      cases hb with
      | @swap _ _ d hd =>
        rw [hcuts]
        exact ⟨front, x, back, left, right, .swap d, rfl, h₁, h₂, hleft, hright,
          List.lookup_cons_self .., if_neg hnew ▸ .swap _ hd,
          flatMap_applied_own [.swap d, firstChange x left right] hn hfront⟩

/-- For the pieces of a paragraph, a replacement is a splice. -/
theorem pieces_revision {p start stop : Nat} {lead : Nat → Option String} {new : List Char}
    {segments : List Segment} {changes' : List (Nat × Change)} (hlt : start < stop)
    (hstart : start < (shownBy segments).length) (hn : (segments.map (·.node)).Nodup)
    (hsingle : Single segments)
    (hs : List.Forall₂ SameChange (revision p lead start stop new segments).changes changes') :
    pieces (segments.flatMap (applied changes')) = splice start stop new (pieces segments) := by
  obtain ⟨front, x, back, left, right, y, rfl, h₁, h₂, hleft, hright, hy, hsame, hall⟩ :=
    segments_revision hlt hstart hn hsingle hs
  have hnil : x.editable = false → left = [] ∧ right = [] := fun he =>
    hleft ▸ hright ▸ left_right_nil (hsingle x (by simp)) he (by omega) (by omega)
  have hxs : x.chars ≠ [] := List.ne_nil_of_length_pos (by omega)
  simp only [List.map_append, List.map_cons, List.nodup_append, List.nodup_cons] at hn
  obtain ⟨-, ⟨-, hnb⟩, -⟩ := hn
  have hsb : Single back := fun s hs => hsingle s (by simp [hs])
  rw [hall, pieces_append, pieces_append, pieces_cut (by omega) hnb hsb, ← Nat.sub_sub,
    pieces_append front, splice_append (by rw [spelled_pieces]; exact h₁), spelled_pieces,
    pieces_cons x, if_neg hxs, List.singleton_append, splice, if_neg (by simp only; omega),
    ← hleft, ← hright]
  congr 2
  simp only [applied, hy]
  split at hsame
  · next hnew =>
    rw [if_pos hnew]
    by_cases he : x.editable = true
    · simp only [firstChange, he, if_true] at hsame
      cases hsame
      simp [refilled, pieces_cons]
    · obtain ⟨rfl, rfl⟩ := hnil (by simpa using he)
      simp only [firstChange, he] at hsame
      cases hsame with
      | swap _ h =>
        rw [Content.eq_nil_of_face h]
        simp [refilled, segmentsIn]
  · next hnew =>
    rw [if_neg hnew]
    cases hsame with
    | swap _ h => exact pieces_textContent h

end MailMerge.Word
