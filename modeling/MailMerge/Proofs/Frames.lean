import MailMerge.Proofs.Forests

/-!
# What an edit leaves as it is

An edit of a forest comes with a frame: it says which paragraphs may have changed what they show,
and how the trails of the attached elements have shifted. All other paragraphs are kept, those in
elements that have been lost among them, and a number still names an element of the same kind.
Frames of edits that follow each other fit together (`Frame.trans`).
-/

namespace MailMerge.Word

open MailMerge.Xml

/-- Whether a paragraph is still there and shows the same. -/
def Kept (f : Forest) (q : Element) : Prop :=
  ∃ q', f.Has q' ∧ q'.tag = q.tag ∧ Alike none q.inner q'.inner

/-- An edit that changes no paragraphs but those with numbers in `but`. -/
structure Frame (gone : List Key → List Key → Prop) (come : List Key → Prop) (n : Nat)
    (but : Nat → Prop) (f f' : Forest) : Prop where
  numbered : f'.Numbered
  next : f.next ≤ f'.next
  kept : ∀ q, f.Has q → q.tag.name = Names.paragraph → ¬but q.tag.id → Firm none q.inner → Kept f' q
  known : ∀ q', f'.Has q' → q'.tag.id < n → ∃ q, f.Has q ∧ key q.tag = key q'.tag
  shift : Shift gone come n (trails [] f.attached) (trails [] f'.attached)

namespace Frame

variable {gone gone' : List Key → List Key → Prop} {come come' : List Key → Prop} {n m : Nat}
  {but but' : Nat → Prop} {f f' f'' : Forest}

theorem refl (hf : f.Numbered) : Frame gone come n but f f :=
  ⟨hf, Nat.le_refl _, fun q hq _ _ h => ⟨q, hq, rfl, .refl h⟩, fun q hq _ => ⟨q, hq, rfl⟩, .refl _⟩

theorem trans (h : Frame gone come n but f f') (h' : Frame gone come m but f' f'') (hn : n ≤ m) :
    Frame gone come n but f f'' where
  numbered := h'.numbered
  next := Nat.le_trans h.next h'.next
  kept q hq hp hb hfirm := by
    obtain ⟨q', hq', ht, ha⟩ := h.kept q hq hp hb hfirm
    obtain ⟨q'', hq'', ht', ha'⟩ := h'.kept q' hq' (ht ▸ hp) (ht ▸ hb) ha.firm
    exact ⟨q'', hq'', ht'.trans ht, ha.trans ha'⟩
  known q'' hq'' hlt := by
    obtain ⟨q', hq', hk'⟩ := h'.known q'' hq'' (Nat.lt_of_lt_of_le hlt hn)
    have hid : q'.tag.id = q''.tag.id := congrArg Key.id hk'
    obtain ⟨q, hq, hk⟩ := h.known q' hq' (hid ▸ hlt)
    exact ⟨q, hq, hk.trans hk'⟩
  shift := h.shift.trans h'.shift hn

theorem mono (h : Frame gone come m but f f') (hn : n ≤ m) (hg : ∀ w s, gone w s → gone' w s)
    (hc : ∀ t, come t → come' t) (hb : ∀ i, but i → but' i) :
    Frame gone' come' n but' f f' where
  numbered := h.numbered
  next := h.next
  kept q hq hp hnb := h.kept q hq hp fun h => hnb (hb _ h)
  known q' hq' hlt := h.known q' hq' (Nat.lt_of_lt_of_le hlt hn)
  shift := (h.shift.of_le hn).mono hg hc

/-- Numbers may be given before an edit. -/
theorem of_next (h : Frame gone come n but { f with next := m } f') (hm : f.next ≤ m) :
    Frame gone come n but f f' :=
  ⟨h.numbered, Nat.le_trans hm h.next, h.kept, h.known, h.shift⟩

theorem with_shift (h : Frame gone come n but f f')
    (hs : Shift gone' come' n (trails [] f.attached) (trails [] f'.attached)) :
    Frame gone' come' n but f f' :=
  ⟨h.numbered, h.next, h.kept, h.known, hs⟩

/-- Old elements with a name are in their order. -/
theorem named_sublist (h : Frame gone come f.next but f f') (hf : f.Numbered) (name : Name) :
    (((f'.attached.named name).map (·.tag.id)).filter (· ∈ f.attached.ids)).Sublist
      ((f.attached.named name).map (·.tag.id)) := by
  have ids : ∀ c : Content, (c.named name).map (·.tag.id) =
      (((trails [] c).filterMap List.head?).filter (·.name = name)).map Key.id := by
    intro c
    rw [heads_trails, List.filter_map, List.map_map]
    rfl
  have old : (((trails [] f'.attached).filterMap List.head?).filter (·.id < f.next)).Sublist
      ((trails [] f.attached).filterMap List.head?) := by
    have heq : ((trails [] f'.attached).filterMap List.head?).filter (·.id < f.next) =
        ((trails [] f'.attached).filter (isOld f.next)).filterMap List.head? := by
      rw [List.filter_filterMap, List.filterMap_filter]
      refine List.filterMap_congr fun t _ => ?_
      cases t with
      | nil => rfl
      | cons k u => simp [Option.filter, isOld_cons]
    exact heq ▸ h.shift.order.filterMap _
  rw [ids, ids, List.filter_map]
  refine List.Sublist.map _ ?_
  rw [List.filter_filter]
  refine .trans ?_ (old.filter _)
  rw [List.filter_filter]
  refine List.monotone_filter_right _ fun k hk => ?_
  simp only [Function.comp_apply, Bool.and_eq_true, decide_eq_true_eq] at hk ⊢
  exact ⟨hk.2, hf.side_lt .attached _ hk.1⟩

end Frame

/-- A paragraph around a quiet change, or beside it. -/
theorem kept_fill {h : Hole} {c c' : Content} (hc : c.elements ≠ []) (hq : Quiet c c')
    {q : Element} (hm : q ∈ (h.fill c).elements) (hf : Firm none q.inner) :
    q ∈ c.elements ∨
      ∃ q' ∈ (h.fill c').elements, q'.tag = q.tag ∧ Alike none q.inner q'.inner := by
  rcases Hole.mem_elements_fill.1 hm with hm | hm | hm
  · exact .inr ⟨q, Hole.mem_elements_fill.2 (.inl hm), rfl, .refl hf⟩
  · obtain ⟨g, k, rest, rfl, hk⟩ := Hole.exists_of_mem_around hm
    refine .inr ⟨_, Hole.mem_fill_of_around Hole.mem_around_comp, rfl, ?_⟩
    rw [hk] at hf ⊢
    exact hq.fill hc k none hf
  · exact .inl hm

section Edits

variable {gone : List Key → List Key → Prop} {come : List Key → Prop} {n : Nat} {f : Forest}
  {s : Forest.Side} {h : Hole} {tag : Tag} {inner rest : Content}

theorem has_of_side {e : Element} (he : e ∈ (f.side s).elements) : f.Has e :=
  Forest.has_iff.2 ⟨s, he⟩

/-- What is on the other side is not touched. -/
theorem kept_of_fill (extra : Content) {c c' : Content} {next : Nat} (hs : f.side s = h.fill c)
    (hc : c.elements ≠ []) (hq : Quiet c c') {q : Element} (hm : f.Has q)
    (hfirm : Firm none q.inner) :
    q ∈ c.elements ∨ Kept { f.setSide s (h.fill c') with
      detached := (f.setSide s (h.fill c')).detached ++ extra, next } q := by
  obtain ⟨s', hm⟩ := Forest.has_iff.1 hm
  by_cases he : s' = s
  · rw [he, hs] at hm
    refine (kept_fill hc hq hm hfirm).imp id ?_
    rintro ⟨q', hq', ht, ha⟩
    exact ⟨q', Forest.has_setSide.2 (.inl hq'), ht, ha⟩
  · exact .inr ⟨q, Forest.has_setSide.2 (.inr (.inr ⟨s', he, hm⟩)), rfl, .refl hfirm⟩

/-- An old element of changed content was there before, with the same key. -/
theorem known_of_fill (extra : Content) {c c' : Content} {next : Nat} (hs : f.side s = h.fill c)
    (hsh : Shift gone come n (trails (Around.trail h []) c) (trails (Around.trail h []) c'))
    (hx : ∀ e ∈ extra.elements, e ∈ (h.fill c).elements) {q' : Element}
    (hq : Forest.Has { f.setSide s (h.fill c') with
      detached := (f.setSide s (h.fill c')).detached ++ extra, next } q')
    (hlt : q'.tag.id < n) : ∃ q, f.Has q ∧ key q.tag = key q'.tag := by
  rcases Forest.has_setSide.1 hq with hq | hq | ⟨s', -, hq⟩
  · obtain ⟨u, hu⟩ := exists_trail [] hq
    have hold := (Shift.fill hsh).order.subset (List.mem_filter.2 ⟨hu, decide_eq_true hlt⟩)
    obtain ⟨q, hq, hk⟩ := exists_of_head hold
    exact ⟨q, has_of_side (s := s) (hs ▸ hq), hk⟩
  · exact ⟨q', has_of_side (s := s) (hs ▸ hx _ hq), rfl⟩
  · exact ⟨q', has_of_side hq, rfl⟩

theorem shift_of_fill {c c' : Content} (hs : f.side s = h.fill c)
    (hsh : Shift gone come n (trails (Around.trail h []) c) (trails (Around.trail h []) c')) :
    Shift gone come n (trails [] f.attached) (trails [] (f.setSide s (h.fill c')).attached) := by
  cases s
  · simp only [Forest.side] at hs
    rw [hs]
    exact hsh.fill
  · exact .refl _

/-- A place is filled with other content. What is lost of the old one, `extra`, is kept apart. -/
theorem frame_of_fill {m : Nat} {but : Nat → Prop} {c c' extra : Content}
    (hf : f.NumberedBelow m) (hm : m ≤ f.next) (hs : f.side s = h.fill c) (hne : c.elements ≠ [])
    (hquiet : Quiet c c') (hnd : c'.ids.Nodup)
    (hids : ∀ i ∈ c'.ids, i ∈ c.ids ∨ m ≤ i ∧ i < f.next)
    (hx : ∀ e ∈ extra.elements, e ∈ c.elements) (hnx : extra.ids.Nodup)
    (hapart : ∀ i ∈ extra.ids, i ∉ c'.ids)
    (hpar : ∀ q ∈ c.elements, q.tag.name = Names.paragraph → ¬but q.tag.id →
      q ∈ c'.elements ∨ q ∈ extra.elements)
    (hsh : Shift gone come n (trails (Around.trail h []) c) (trails (Around.trail h []) c')) :
    Frame gone come n but f { f.setSide s (h.fill c') with
      detached := (f.setSide s (h.fill c')).detached ++ extra } := by
  obtain ⟨hh, -, hd⟩ := Hole.nodup_fill.1 (hs ▸ hf.side_nodup s)
  have hd' : ∀ i ∈ h.ids, i ∉ c'.ids := fun i hi hi' => by
    have hlt : i < m := hf.side_lt s i (hs ▸ Hole.mem_ids_fill.2 (.inl hi))
    rcases hids i hi' with hc | hc
    · exact hd i hi hc
    · exact absurd hlt (Nat.not_lt.2 hc.1)
  have hxi : ∀ i ∈ extra.ids, i ∈ c.ids := fun i hi => by
    obtain ⟨e, he, rfl⟩ := Content.mem_ids.1 hi
    exact Content.id_mem_ids (hx e he)
  refine ⟨?_, by simp, fun q hq hqp hb hqf => ?_, fun q hq hlt => ?_, ?_⟩
  · simp only [Forest.Numbered, Forest.setSide_next]
    refine hf.setSide (Hole.nodup_fill.2 ⟨hh, hnd, hd'⟩) hnx hm (fun i hi => ?_) fun i hi => ?_
    · rw [hs, Hole.mem_ids_fill]
      rcases Hole.mem_ids_fill.1 hi with hi | hi
      · exact .inl (.inl hi)
      · exact (hids i hi).imp .inr id
    · rw [hs, Hole.mem_ids_fill, Hole.mem_ids_fill, not_or]
      exact ⟨.inr (hxi i hi), fun hih => hd i hih (hxi i hi), hapart i hi⟩
  · rcases kept_of_fill extra hs hne hquiet hq hqf with hqc | hk
    · exact ⟨q, Forest.has_setSide.2 ((hpar q hqc hqp hb).imp Hole.mem_fill .inl), rfl, .refl hqf⟩
    · exact hk
  · exact known_of_fill extra hs hsh (fun e he => Hole.mem_fill (hx e he)) hq hlt
  · have := shift_of_fill hs hsh
    cases s <;> exact this

/-- A paragraph that is still in changed content is the one that was there. -/
theorem mem_of_shift {a : List Key} {c c' : Content} (hc : c.ids.Nodup)
    (hl : ∀ i ∈ c.ids, i < n) (hsh : Shift gone come n (trails a c) (trails a c'))
    (hpar : ∀ q ∈ c'.elements, q.tag.name = Names.paragraph → q ∈ c.elements) {q : Element}
    (hq : q ∈ c.elements) (hqp : q.tag.name = Names.paragraph) (hk : q.tag.id ∈ c'.ids) :
    q ∈ c'.elements := by
  obtain ⟨q', hq', hi⟩ := Content.mem_ids.1 hk
  have hlt : q.tag.id < n := hl _ (Content.id_mem_ids hq)
  obtain ⟨u, hu⟩ := exists_trail a hq'
  have hold := hsh.order.subset (List.mem_filter.2 ⟨hu, by simpa [hi] using hlt⟩)
  obtain ⟨v, hv⟩ := exists_trail a hq
  have hkey := (List.cons.inj (trail_eq_of_id hc hold hv hi)).1
  have hq'p : q'.tag.name = Names.paragraph := (congrArg Key.name hkey).trans hqp
  obtain rfl := Content.eq_of_id hc (hpar q' hq' hq'p) hq hi
  exact hq'

/-- The content of a paragraph is changed. The numbers below `n` have been in use, those from `n`
on have been given for the change. -/
theorem update_frame {g : Element → Element} {inner' : Content} (hf : f.NumberedBelow n)
    (hn : n ≤ f.next) (hs : f.side s = h.fill (.element tag inner rest))
    (hp : tag.name = Names.paragraph) (hg : g ⟨tag, inner⟩ = ⟨tag, inner'⟩)
    (hsh : Shift gone come n (trails (key tag :: Around.trail h []) inner)
      (trails (key tag :: Around.trail h []) inner'))
    (hpar : ∀ q ∈ inner'.elements, q.tag.name = Names.paragraph → q ∈ inner.elements)
    (hnd : inner'.ids.Nodup) (hid : ∀ i ∈ inner'.ids, i ∈ inner.ids ∨ n ≤ i ∧ i < f.next) :
    Frame gone come n (· = tag.id) f (f.update tag.id g) ∧ (f.update tag.id g).Has ⟨tag, inner'⟩ := by
  obtain ⟨-, hc, -⟩ := Hole.nodup_fill.1 (hs ▸ hf.side_nodup s)
  obtain ⟨⟨hti, htr⟩, hin, hnr, hir⟩ := Content.nodup_ids_element.1 hc
  have hl : ∀ i ∈ (Content.element tag inner rest).ids, i < n := fun i hi =>
    hf.side_lt s i (hs ▸ Hole.mem_ids_fill.2 (.inr hi))
  have hil : ∀ i ∈ inner.ids, i < n := fun i hi =>
    hl i (Content.mem_ids_element.2 (.inr (.inl hi)))
  have hlost : ∀ i ∈ (inner.lost inner'.ids).ids, i ∈ inner.ids := (Content.lost_sublist _ _).subset
  have hdis : ∀ i ∈ (inner.lost inner'.ids).ids, i ∉ inner'.ids :=
    Content.lost_disjoint (closed_of_shift hin hil hsh)
  -- What is next to the old content is not in the new one.
  have apart : ∀ i ∈ (Content.element tag inner rest).ids, i ∉ inner.ids → i ∉ inner'.ids := by
    intro i hi hni hi'
    rcases hid i hi' with hi' | hi'
    · exact hni hi'
    · exact absurd (hl i hi) (Nat.not_lt.2 hi'.1)
  have hnd' : (Content.element tag inner' rest).ids.Nodup :=
    Content.nodup_ids_element.2
      ⟨⟨apart _ (Content.mem_ids_element.2 (.inl rfl)) hti, htr⟩, hnd, hnr, fun i hi hr =>
        apart i (Content.mem_ids_element.2 (.inr (.inr hr))) (fun hi => hir i hi hr) hi⟩
  rw [Forest.update_eq hf hs, hg]
  refine ⟨frame_of_fill hf hn hs (by simp [Content.elements])
    (quiet_paragraph hp : Quiet (.element tag inner rest) (.element tag inner' rest)) hnd'
    (fun i hi => ?_) (fun e he => ?_) (hin.sublist (Content.lost_sublist _ _)) (fun i hi => ?_)
    (fun q hq hqp hb => ?_) hsh.element, ?_⟩
  · simp only [Content.mem_ids_element] at hi ⊢
    rcases hi with hi | hi | hi
    · exact .inl (.inl hi)
    · exact (hid i hi).imp (fun hi => .inr (.inl hi)) id
    · exact .inl (.inr (.inr hi))
  · exact Content.mem_element.2 (.inr (.inl (Content.lost_elements he)))
  · have hold := hlost i hi
    exact Content.notMem_ids_element.2 ⟨fun e => hti (e ▸ hold), hdis i hi, hir i hold⟩
  · rw [Content.mem_element]
    rcases Content.mem_element.1 hq with rfl | hq | hq
    · exact absurd rfl hb
    · by_cases hk : q.tag.id ∈ inner'.ids
      · exact .inl (.inr (.inl (mem_of_shift hin hil hsh hpar hq hqp hk)))
      · exact .inr (Content.mem_lost hq hk)
    · exact .inl (.inr (.inr hq))
  · exact Forest.has_setSide.2 (.inl (Hole.self_mem_fill _ _ _ _))

/-- A paragraph, a row or a table is taken away. -/
theorem detach_frame (hf : f.Numbered) (hs : f.side s = h.fill (.element tag inner rest))
    (hp : tag.name ∈ [Names.paragraph, Names.row, Names.table])
    (hg : ∀ w, w ++ key tag :: Around.trail h [] ∈ trails [] (f.side s) →
      gone w (key tag :: Around.trail h [])) :
    Frame gone come n (fun _ => False) f (f.detach tag.id) := by
  obtain ⟨-, hc, -⟩ := Hole.nodup_fill.1 (hs ▸ hf.side_nodup s)
  obtain ⟨⟨hti, htr⟩, hni, hnr, hir⟩ := Content.nodup_ids_element.1 hc
  have hsh : Shift gone come n (trails (Around.trail h []) (.element tag inner rest))
      (trails (Around.trail h []) rest.dropText) := by
    refine (Swept.lose (fun w hw => hg w ?_) (Swept.refl rest).dropText).shift
    rw [hs, mem_trails_fill]
    refine .inr (.inl (mem_trails_element.2 ?_))
    exact (mem_trails_element.1 hw).imp id (.imp id (absurd · List.not_mem_nil))
  rw [Forest.detach_eq hf hs]
  -- What is taken away stays among the detached trees, with its numbers.
  refine frame_of_fill hf (Nat.le_refl _) hs (by simp [Content.elements])
    (quiet_erase hp : Quiet (.element tag inner rest) rest.dropText) (by simpa using hnr)
    (fun i hi => .inl ?_) (fun e he => ?_)
    (Content.nodup_ids_element.2 ⟨⟨hti, List.not_mem_nil⟩, hni, List.nodup_nil, by simp⟩)
    (fun i hi => ?_) (fun q hq _ _ => ?_) hsh
  · rw [Content.ids_dropText] at hi
    exact Content.mem_ids_element.2 (.inr (.inr hi))
  · exact Content.mem_element.2 ((Content.mem_element_nil.1 he).imp id .inl)
  · rw [Content.ids_dropText]
    rcases Content.mem_ids_element.1 hi with rfl | hi | hi
    · exact htr
    · exact hir i hi
    · cases hi
  · rw [Content.elements_dropText, Content.mem_element_nil]
    exact or_assoc.2 (Content.mem_element.1 hq) |>.symm

/-- A new paragraph is put behind an element. Its numbers, from `n` on, have been given for it. -/
theorem insertAfter_frame {new : Element} (hf : f.NumberedBelow n) (hn : n ≤ f.next)
    (hs : f.side s = h.fill (.element tag inner rest)) (hp : new.tag.name = Names.paragraph)
    (hnd : (Content.element new.tag new.inner .nil).ids.Nodup)
    (hid : ∀ i ∈ (Content.element new.tag new.inner .nil).ids, n ≤ i ∧ i < f.next)
    (hc : ∀ t ∈ trails (Around.trail h []) (.element new.tag new.inner .nil), come t) :
    Frame gone come n (fun _ => False) f (f.insertAfter tag.id new) ∧
      (f.insertAfter tag.id new).Has new := by
  obtain ⟨-, hcn, -⟩ := Hole.nodup_fill.1 (hs ▸ hf.side_nodup s)
  have hl : ∀ i ∈ (Content.element tag inner rest).ids, i < n := fun i hi =>
    hf.side_lt s i (hs ▸ Hole.mem_ids_fill.2 (.inr hi))
  have hperm : (Content.element tag inner (rest.insertBehindText new)).ids.Perm
      ((Content.element tag inner rest).ids ++ (Content.element new.tag new.inner .nil).ids) := by
    rw [List.perm_iff_count]
    intro i
    simp [Content.ids_insertBehindText, List.count_cons]
    omega
  -- An insertion is an update with nothing left over.
  have he : f.insertAfter tag.id new =
      { f.setSide s (h.fill (.element tag inner (rest.insertBehindText new))) with
        detached := (f.setSide s (h.fill (.element tag inner
          (rest.insertBehindText new)))).detached ++ .nil } := by
    rw [Forest.insertAfter_eq hf hs, Content.append_nil]
  have hsh : Shift gone come n (trails (Around.trail h []) (.element tag inner rest))
      (trails (Around.trail h []) (.element tag inner (rest.insertBehindText new))) := by
    simp only [trails, trails_insertBehindText, List.append_nil]
    set front := (key tag :: Around.trail h []) :: trails (key tag :: Around.trail h []) inner
    set back := trails (Around.trail h []) rest
    have hnew : Shift gone come n []
        (trails (Around.trail h []) (.element new.tag new.inner .nil)) := by
      refine ⟨?_, fun t ht => .inr (hc t ht), by simp⟩
      rw [List.filter_eq_nil_iff.2]
      intro t ht
      obtain ⟨k, u, rfl⟩ := above_suffix ht
      have := (hid k.id (mem_ids_iff_trail.2 ⟨k, _, ht, rfl⟩)).1
      simpa using this
    simpa [trails] using hnew.around front back
  have hmem : ∀ q, q ∈ (Content.element tag inner (rest.insertBehindText new)).elements ↔
      q = new ∨ q ∈ new.inner.elements ∨ q ∈ (Content.element tag inner rest).elements := by
    intro q
    simp only [Content.mem_element, Content.mem_insertBehindText]
    tauto
  rw [he]
  refine ⟨frame_of_fill hf hn hs (by simp [Content.elements])
    (quiet_insertBehindText hp : Quiet (.element tag inner rest) _) ?_ (fun i hi => ?_)
    (by simp [Content.elements]) List.nodup_nil (by simp) (fun q hq _ _ => ?_) hsh, ?_⟩
  · rw [hperm.nodup_iff, List.nodup_append]
    refine ⟨hcn, hnd, fun i hi j hj e => ?_⟩
    have := hl i hi
    have := (hid j hj).1
    omega
  · exact (List.mem_append.1 (hperm.subset hi)).imp id (hid i)
  · exact .inl ((hmem q).2 (.inr (.inr hq)))
  · exact Forest.has_setSide.2 (.inl (Hole.mem_fill ((hmem new).2 (.inl rfl))))

end Edits

end MailMerge.Word
