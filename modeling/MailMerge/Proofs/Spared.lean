import MailMerge.Proofs.Shape

/-!
# What the edits of a merge spare

An edit at a paragraph spares the paragraphs that are not around it (`Spares`): they stay in the
trees as they are, or they go away in a row all of whose paragraphs are empty. This holds of each
edit in a document of the right shape, and so of all of them one after the other (`Spares.trans`).
-/

namespace MailMerge.Word

open MailMerge.Xml

variable {f f' f'' : Forest} {e q : Element} {t u v : List Key}

/-! ## Trails of what stays -/

theorem Frame.old_trail {gone : List Key → List Key → Prop} {come : List Key → Prop}
    {but : Nat → Prop} {k : Key} (h : Frame gone come f.next but f f')
    (ht : k :: u ∈ trails [] f'.attached) (hk : k.id < f.next) : k :: u ∈ trails [] f.attached :=
  h.shift.order.subset (List.mem_filter.2 ⟨ht, by simpa using hk⟩)

/-- What is still attached stands where it stood. -/
theorem Frame.trail_of_mem {gone : List Key → List Key → Prop} {come : List Key → Prop}
    {but : Nat → Prop} {q' : Element} (h : Frame gone come f.next but f f') (hf : f.Numbered)
    (hq : key q.tag :: u ∈ trails [] f.attached) (hq' : q' ∈ f'.attached.elements)
    (hid : q'.tag.id = q.tag.id) : key q'.tag = key q.tag ∧
      key q.tag :: u ∈ trails [] f'.attached := by
  obtain ⟨u', hu'⟩ := exists_root_trail hq'
  have hlt : q.tag.id < f.next := hf.lt _ (.inl (mem_ids_iff_trail.2 ⟨_, _, hq, rfl⟩))
  have heq := trail_eq_of_id hf.attached (h.old_trail hu' (by simpa [hid] using hlt)) hq hid
  exact ⟨(List.cons.inj heq).1, heq ▸ hu'⟩

/-- What is not around a place is there whatever the place is filled with, if it is not in there. -/
theorem mem_fill_of_off {h : Hole} {c : Content} (c' : Content) (hq : q ∈ (h.fill c).elements)
    (ho : ∀ k ∈ Around.trail h [], k.id ≠ q.tag.id) : q ∈ (h.fill c').elements ∨ q ∈ c.elements := by
  rcases Hole.mem_elements_fill.1 hq with hq | hq | hq
  · exact .inl (Hole.mem_elements_fill.2 (.inl hq))
  · refine absurd rfl (ho (key q.tag) ?_)
    rw [Around.trail_eq c h]
    exact List.mem_map_of_mem hq
  · exact .inr hq

/-- What is around an attached element is what its trail leads through. -/
theorem place?_of_trail (hf : f.Numbered) (he : f.Has e)
    (ht : key e.tag :: u ∈ trails [] f.attached) : ∃ around,
      f.place? e.tag.id = some ⟨e, around⟩ ∧ around.map (fun x => key x.tag) = u ∧
        ∀ x ∈ around, f.Has x := by
  obtain ⟨h, rest, hs, rfl⟩ := exists_attached hf he ht
  refine ⟨_, hf.place?_fill (s := .attached) hs, (Around.trail_eq _ h).symm, fun x hx => .inl ?_⟩
  rw [hs]
  exact Hole.mem_fill_of_around hx

/-! ## Sparing -/

/-- A row has been taken away with `q` in it, all of whose paragraphs are empty. It stood around `q`
according to the trails. -/
def InEmptyRow (ts : List (List Key)) (f : Forest) (q : Element) : Prop :=
  ∃ r ∈ f.detached.elements, r.tag.name = Names.row ∧ q ∈ r.inner.elements ∧
    (∀ x ∈ r.inner.elements, x.tag.name = Names.paragraph → Paragraph.isEmpty x = true) ∧
    ∃ w v, key q.tag :: (w ++ key r.tag :: v) ∈ ts

/-- The paragraphs that are not on a trail stay or go away in an empty row, and nothing but empty
paragraphs goes away. -/
structure Spares (t : List Key) (f f' : Forest) : Prop where
  step : Step (fun _ => True) f f'
  kept : ∀ q ∈ f.attached.elements, q.tag.name = Names.paragraph → (∀ k ∈ t, k.id ≠ q.tag.id) →
    q ∈ f'.attached.elements ∨ InEmptyRow (trails [] f.attached) f' q
  away : ∀ x ∈ f'.detached.elements, x.tag.name = Names.paragraph →
    x ∈ f.detached.elements ∨ Paragraph.isEmpty x = true
  lost : ∀ x ∈ f.detached.elements, x ∈ f'.detached.elements

namespace Spares

theorem refl (hf : f.Numbered) : Spares t f f :=
  ⟨.refl hf, fun _ hq _ _ => .inl hq, fun _ hx _ => .inl hx, fun _ hx => hx⟩

theorem mono (h : Spares t f f') (ht : t ⊆ u) : Spares u f f' :=
  ⟨h.step, fun q hq hp ho => h.kept q hq hp fun k hk => ho k (ht hk), h.away, h.lost⟩

theorem trans (h : Spares t f f') (h' : Spares t f' f'') (hf : f.Numbered) : Spares t f f'' where
  step := h.step.trans h'.step
  kept q hq hp ho := by
    rcases h.kept q hq hp ho with hq' | ⟨r, hr, hrow⟩
    · refine (h'.kept q hq' hp ho).imp id ?_
      rintro ⟨r, hr, hrn, hqr, hempty, w, v, ht⟩
      exact ⟨r, hr, hrn, hqr, hempty, w, v, h.step.old_trail ht (hf.has_lt (.inl hq))⟩
    · exact .inr ⟨r, h'.lost r hr, hrow⟩
  away x hx hp := (h'.away x hx hp).elim (fun hx => h.away x hx hp) .inr
  lost x hx := h'.lost x (h.lost x hx)

end Spares

/-! ## Edits -/

section Edits

variable (hf : f.Numbered)

include hf

/-- What is taken away is kept detached. -/
theorem detached_detach (he : f.Has e) (ht : key e.tag :: u ∈ trails [] f.attached) :
    (f.detach e.tag.id).detached.elements = f.detached.elements ++
      (Content.element e.tag e.inner .nil).elements := by
  obtain ⟨h, rest, hs, rfl⟩ := exists_attached hf he ht
  rw [Forest.detach_eq (s := .attached) hf hs, Content.elements_append]
  rfl

theorem detach_step (he : f.Has e) (ht : key e.tag :: u ∈ trails [] f.attached)
    (hn : e.tag.name ∈ [Names.paragraph, Names.row, Names.table]) :
    Step (fun _ => True) f (f.detach e.tag.id) := by
  obtain ⟨h, rest, hs, -⟩ := exists_attached hf he ht
  exact (detach_frame (s := .attached) hf hs hn fun _ _ => trivial).mono (Nat.le_refl _)
    (fun _ _ h => h) (fun _ h => h) fun _ h => h.elim

/-- An element that is no root is not attached when it has been taken away. -/
theorem notMem_removed (he : f.Has e) (ht : key e.tag :: u ∈ trails [] f.attached) (hu : u ≠ [])
    (hn : e.tag.name ∈ [Names.paragraph, Names.row, Names.table]) :
    e.tag.id ∉ (removed f e.tag.id).attached.ids := by
  obtain ⟨around, hplace, rfl, -⟩ := place?_of_trail hf he ht
  obtain ⟨x, around, rfl⟩ := List.exists_cons_of_ne_nil (fun e => hu (List.map_eq_nil_iff.2 e))
  have hremoved : removed f e.tag.id = f.detach e.tag.id := by rw [removed, hplace]
  have hm : e.tag.id ∈ (f.detach e.tag.id).detached.ids := by
    refine Content.id_mem_ids ?_
    rw [detached_detach hf he ht]
    simp [Content.elements]
  rw [hremoved]
  exact fun hi => (detach_step hf he ht hn).numbered.apart _ hi hm

/-- An element with nothing but empty paragraphs is taken away. If it has any, it is a row. -/
theorem spares_detach (he : f.Has e) (ht : key e.tag :: u ∈ trails [] f.attached)
    (hn : e.tag.name ∈ [Names.paragraph, Names.row, Names.table])
    (hempty : ∀ x ∈ (Content.element e.tag e.inner .nil).elements,
      x.tag.name = Names.paragraph → Paragraph.isEmpty x = true)
    (hrow : ∀ x ∈ e.inner.elements, x.tag.name = Names.paragraph → e.tag.name = Names.row) :
    Spares (key e.tag :: u) f (f.detach e.tag.id) := by
  have hd := detached_detach hf he ht
  have hstep := detach_step hf he ht hn
  obtain ⟨h, rest, hs, rfl⟩ := exists_attached hf he ht
  have heq := Forest.detach_eq (s := .attached) hf hs
  refine ⟨hstep, fun q hq hp ho => ?_, fun x hx hp => ?_, fun x hx => ?_⟩
  · rw [hs] at hq
    rw [show (f.detach e.tag.id).attached = h.fill rest.dropText from heq ▸ rfl]
    rcases mem_fill_of_off rest.dropText hq fun k hk => ho k (List.mem_cons_of_mem _ hk)
      with hq | hq
    · exact .inl hq
    · simp only [Content.mem_element] at hq
      rcases hq with rfl | hq | hq
      · exact absurd rfl (ho (key e.tag) List.mem_cons_self)
      · obtain ⟨w, hw⟩ := exists_trail (key e.tag :: Around.trail h []) hq
        refine .inr ⟨e, by rw [hd]; simp [Content.elements], hrow q hq hp, hq, fun x hx => ?_, w, _,
          mem_trails_attached hf he ht hw⟩
        exact hempty x (by simp [Content.elements, hx])
      · exact .inl (Hole.mem_fill (by simpa using hq))
  · rw [hd, List.mem_append] at hx
    exact hx.imp id fun hx => hempty x hx hp
  · rw [hd]
    exact List.mem_append_left _ hx

theorem spares_removed (he : f.Has e) (ht : key e.tag :: u ∈ trails [] f.attached)
    (hn : e.tag.name ∈ [Names.paragraph, Names.row, Names.table])
    (hempty : ∀ x ∈ (Content.element e.tag e.inner .nil).elements,
      x.tag.name = Names.paragraph → Paragraph.isEmpty x = true)
    (hrow : ∀ x ∈ e.inner.elements, x.tag.name = Names.paragraph → e.tag.name = Names.row) :
    Spares (key e.tag :: u) f (removed f e.tag.id) := by
  unfold removed
  split
  · exact spares_detach hf he ht hn hempty hrow
  · exact .refl hf

theorem Inserted.spares {cs : List Char} {new : Element} (hi : Inserted f f' e cs new)
    (ht : key e.tag :: u ∈ Word.trails [] f.attached) : Spares u f f' := by
  obtain ⟨s, h, rest, hs, ha, hd⟩ := hi.place
  cases s with
  | detached => exact absurd (mem_ids_iff_trail.2 ⟨_, u, ht, rfl⟩) (Forest.notMem_other hf hs)
  | attached =>
    simp only [Forest.side, Forest.setSide] at hs ha hd
    have hold : key e.tag :: Around.trail h [] ∈ Word.trails [] f.attached := hs ▸ trail_mem_fill
    obtain rfl := (List.cons.inj (trail_eq_of_id hf.attached ht hold rfl)).2
    refine ⟨hi.step.mono (Nat.le_refl _) (fun _ _ h => h) (fun _ h => h) fun _ h => h.elim,
      fun q hq hp ho => .inl ?_, fun x hx _ => .inl (hd ▸ hx), fun x hx => hd ▸ hx⟩
    rw [hs] at hq
    rw [ha]
    rcases mem_fill_of_off (.element e.tag e.inner (rest.insertBehindText new)) hq ho with hq | hq
    · exact hq
    · refine Hole.mem_fill ?_
      simp only [Content.elements, List.cons_append, List.mem_cons, List.mem_append,
        Content.mem_insertBehindText] at hq ⊢
      exact hq.imp id (.imp id fun h => .inr (.inr h))

theorem Listed.spares {lines : List (List Char)} {items : List Element}
    (hl : Listed e f lines items f') (ht : key e.tag :: u ∈ trails [] f.attached) :
    Spares u f f' := by
  induction hl with
  | nil => exact .refl hf
  | cons hi _ ih =>
    have h₁ := hi.spares hf ht
    exact h₁.trans (ih h₁.step.numbered ((hi.order hf ht).subset (by simp))) hf

omit hf in
/-- The content of an element is changed, and no paragraph of it goes away. -/
theorem spares_of_inner {h : Hole} {rest inner extra : Content}
    (hstep : Step (fun _ => True) f f') (hs : f.attached = h.fill (.element e.tag e.inner rest))
    (ha : f'.attached = h.fill (.element e.tag inner rest))
    (hd : f'.detached = f.detached ++ extra)
    (hin : ∀ x ∈ e.inner.elements, x.tag.name = Names.paragraph → x ∈ inner.elements)
    (hx : ∀ x ∈ extra.elements, x.tag.name ≠ Names.paragraph) :
    Spares (key e.tag :: Around.trail h []) f f' := by
  refine ⟨hstep, fun q hq hqp ho => .inl ?_, fun x hm hxp => .inl ?_, fun x hm => ?_⟩
  · rw [hs] at hq
    rw [ha]
    rcases mem_fill_of_off (.element e.tag inner rest) hq
      fun k hk => ho k (List.mem_cons_of_mem _ hk) with hq | hq
    · exact hq
    · refine Hole.mem_fill ?_
      simp only [Content.mem_element] at hq ⊢
      rcases hq with rfl | hq | hq
      · exact absurd rfl (ho (key e.tag) List.mem_cons_self)
      · exact .inr (.inl (hin q hq hqp))
      · exact .inr (.inr hq)
  · rw [hd, Content.elements_append, List.mem_append] at hm
    exact hm.resolve_right fun hm => hx x hm hxp
  · rw [hd, Content.elements_append]
    exact List.mem_append_left _ hm

/-- A paragraph that is revised stands where it stood. -/
theorem Performed.trail {s : Forest.Side} {h : Hole} {rest inner : Content}
    (hr : Performed f f' e s h rest inner) (ht : key e.tag :: u ∈ trails [] f.attached) :
    key e.tag :: u ∈ trails [] f'.attached := by
  have hside := hr.side
  cases s with
  | detached => exact absurd (mem_ids_iff_trail.2 ⟨_, u, ht, rfl⟩) (Forest.notMem_other hf hside)
  | attached =>
    simp only [Forest.side] at hside
    have hold : key e.tag :: Around.trail h [] ∈ trails [] f.attached := hside ▸ trail_mem_fill
    rw [trail_eq_of_id hf.attached ht hold rfl, hr.attached]
    exact trail_mem_fill

/-- A paragraph that is revised spares all others. -/
theorem Performed.spares {s : Forest.Side} {h : Hole} {rest inner : Content} (hs : InShape f)
    (hp : e.tag.name = Names.paragraph) (hr : Performed f f' e s h rest inner)
    (ht : key e.tag :: u ∈ trails [] f.attached) : Spares (key e.tag :: u) f f' := by
  have hside := hr.side
  cases s with
  | detached => exact absurd (mem_ids_iff_trail.2 ⟨_, u, ht, rfl⟩) (Forest.notMem_other hf hside)
  | attached =>
    have hold : key e.tag :: Around.trail h [] ∈ trails [] f.attached :=
      (show f.attached = _ from hside) ▸ trail_mem_fill
    obtain rfl := (List.cons.inj (trail_eq_of_id hf.attached ht hold rfl)).2
    have hm : e ∈ f.attached.elements :=
      (show f.attached = _ from hside) ▸
        Hole.self_mem_fill _ _ _ _
    have hin : e.inner.ids.Nodup := Content.nodup_inner hf.attached hm
    have hlt : ∀ i ∈ e.inner.ids, i < f.next := fun i hi =>
      hf.side_lt .attached i ((Content.inner_ids_sublist hm).subset hi)
    have inside : ∀ x ∈ e.inner.elements, x.tag.name = Names.paragraph → x ∈ inner.elements := by
      intro x hx hxp
      obtain ⟨w, hw⟩ := exists_trail (key e.tag :: Around.trail h []) hx
      rcases hr.reworked.shift.lost _ hw with hw' | ⟨w', v, heq, hspent⟩
      · obtain ⟨y, hy, hk⟩ := exists_of_head hw'
        have hyp : y.tag.name = Names.paragraph := (congrArg Key.name hk).trans hxp
        exact Content.eq_of_id hin (hr.reworked.paragraph_mem hy hyp) hx (congrArg Key.id hk) ▸ hy
      · exact absurd hspent (hs.not_spent (mem_trails_attached hf (.inl hm) ht hw) hxp heq)
    have hstep : Step (fun _ => True) f f' :=
      (hr.step hp).mono (Nat.le_refl _) (fun _ _ h => h) (fun _ h => h) fun _ _ => trivial
    refine spares_of_inner hstep hside hr.attached hr.detached inside fun x hx hxp => ?_
    refine Content.lost_disjoint (closed_of_shift hin hlt hr.reworked.shift) _
      (Content.id_mem_ids hx) (Content.id_mem_ids ?_)
    exact inside x (Content.lost_elements hx) hxp

/-- An empty paragraph that is taken away or emptied spares all others. -/
theorem Lifted.spares (hs : InShape f) (hp : e.tag.name = Names.paragraph)
    (hm : Paragraph.isEmpty e = true) (he : f.Has e) (ht : key e.tag :: u ∈ trails [] f.attached)
    (hl : Lifted e.tag.id f f') : Spares (key e.tag :: u) f f' := by
  have hno := hs.notMem_of_isEmpty hf (mem_attached hf he ht) hp hm
  cases hl with
  | none => exact .refl hf
  | away =>
    refine spares_detach hf he ht (by simp [hp]) (fun x hx hxp => ?_)
      fun x hx hxp => absurd hxp (hno x hx)
    rw [Content.mem_element_nil] at hx
    rcases hx with rfl | hx
    · exact hm
    · exact absurd hxp (hno x hx)
  | @emptied x parent above hx =>
    have heq : f.element? e.tag.id = some e := hf.element?_of_has he
    obtain rfl : x = e := by simpa [Forest.element?, hx] using heq
    obtain ⟨h, rest, hside, rfl⟩ := exists_attached hf he ht
    have hloss : Loss f.next (fun _ => True) f _ :=
      lifted_frame hf (fun e' he' => Option.some.inj (heq.symm.trans he') ▸ hp)
        (fun _ _ _ => trivial) (Lifted.emptied hx)
    have hupdate := Forest.update_eq (s := .attached) hf hside
      fun e => { e with inner := Edit.propertiesOf e.inner }
    exact spares_of_inner (hloss.step fun _ h => h.elim) hside (congrArg Forest.attached hupdate)
      (congrArg Forest.detached hupdate) (fun y hy hyp => absurd hyp (hno y hy))
      fun y hy hyp => hno y (Content.lost_elements hy) hyp

end Edits

end MailMerge.Word
