import MailMerge.Proofs.Frames
import MailMerge.Proofs.Replaced

/-!
# Doing a revision

A revision of a paragraph is numbered and done in the forest. What it does is said at the place of
the paragraph: the content there is swept, or a new run is put behind it, and the rest of the forest
is framed (`perform_spec`).
-/

namespace MailMerge.Word

open MailMerge.Xml

/-- The content of a paragraph after a revision: swept, or with a new run behind it. -/
def Reworked (n : Nat) (a : List Key) (c c' : Content) : Prop :=
  Sweeps (Written n (trails a c)) n a c c' ∨
    ∃ tag inner, c' = c ++ .element tag inner .nil ∧ tag.name = Names.run ∧ n ≤ tag.id ∧
      OfInlines inner ∧ ∀ i ∈ inner.ids, n ≤ i

theorem paragraph_notMem_ofInlines : ∀ {c : Content}, OfInlines c →
    ∀ q ∈ c.elements, q.tag.name ∈ Names.showing
  | .nil, _, q, hq => by simp [Content.elements] at hq
  | .element tag inner rest, ⟨hs, hi, hr⟩, q, hq => by
    simp only [Content.elements, hi, List.cons_append, List.nil_append, List.mem_cons] at hq
    rcases hq with rfl | hq
    · exact hs
    · exact paragraph_notMem_ofInlines hr q hq

theorem Reworked.paragraph_mem {n : Nat} {a : List Key} {c c' : Content} (h : Reworked n a c c')
    {q : Element} (hq : q ∈ c'.elements) (hp : q.tag.name = Names.paragraph) : q ∈ c.elements := by
  rcases h with h | ⟨tag, inner, rfl, ht, -, hi, -⟩
  · exact h.paragraph_mem hq hp
  · simp only [Content.elements_append, List.mem_append, Content.elements, List.append_nil,
      List.mem_cons] at hq
    rcases hq with hq | rfl | hq
    · exact hq
    · exact absurd (hp.symm.trans ht) (by decide)
    · exact absurd (hp ▸ paragraph_notMem_ofInlines hi q hq) paragraph_notMem_showing

theorem Reworked.shift {n : Nat} {a : List Key} {c c' : Content} (h : Reworked n a c c') :
    Shift Spent (fun _ => True) n (trails a c) (trails a c') := by
  rcases h with h | ⟨tag, inner, rfl, -, hn, -, hi⟩
  · exact h.shift.mono (fun _ _ h => h) fun _ _ => trivial
  · refine .append (fun _ _ => trivial) fun i hm => ?_
    simp only [Content.ids_element, Content.ids_nil, List.append_nil, List.mem_cons] at hm
    exact hm.elim (fun h => h ▸ hn) (hi i)

/-- An old element is where it has been, unless the content has been swept. -/
theorem Reworked.old {n : Nat} {a : List Key} {c c' : Content} (h : Reworked n a c c') {z : Element}
    (hz : z ∈ c'.elements) (hlt : z.tag.id < n) :
    Sweeps (Written n (trails a c)) n a c c' ∨ z ∈ c.elements := by
  refine h.imp id ?_
  rintro ⟨tag, inner, rfl, -, hn, -, hi⟩
  rw [Content.elements_append, List.mem_append] at hz
  refine hz.resolve_right fun hz => ?_
  have hid := Content.id_mem_ids hz
  simp only [Content.ids_element, Content.ids_nil, List.append_nil, List.mem_cons] at hid
  have : n ≤ z.tag.id := hid.elim (fun h => h ▸ hn) (hi _)
  omega

/-- A new run has nothing behind it, whatever its numbers are. -/
theorem eq_run_of_face {lead : Option String} {c d : Content} (h : d.face = (newRun lead c).face) :
    ∃ tag inner, d = .element tag inner .nil ∧ tag.name = Names.run ∧ inner.face = c.face := by
  obtain ⟨tag, inner, rest, rfl, htag, hinner, hrest⟩ := Content.eq_element_of_face h
  obtain rfl := Content.eq_nil_of_face hrest
  exact ⟨tag, inner, rfl, htag, hinner⟩

/-! ### The content after a revision -/

section Content

variable {n m : Nat} {a : List Key} {c : Content} {r r' : Revision}

theorem Revision.Numbered.appended_nil (h : r.Numbered n m r') (ha : r.appended = .nil) :
    r'.appended = .nil :=
  Content.eq_nil_of_face (ha ▸ h.face)

theorem Revision.Numbered.mem_changed (h : r.Numbered n m r') {i : Nat}
    (hi : i ∈ (changed r'.changes c).ids) : i ∈ c.ids ∨ n ≤ i ∧ i < m := by
  refine (mem_ids_changed hi).imp id ?_
  rintro ⟨j, -, x, hx, hi⟩
  exact ⟨(h.fresh.nodup j x hx).2 i hi, h.below j x hx i hi⟩

variable (hr : r.Suits (segmentsIn none c)) (h : r.Numbered n m r') (hn : c.ids.Nodup)
  (hl : ∀ i ∈ c.ids, i < n)

include hr h

/-- A revision that puts a new run behind the content does nothing else. -/
theorem Revision.Suits.append (ha : r.appended ≠ .nil) :
    ∃ tag inner, r'.appended = .element tag inner .nil ∧ r'.apply c = c ++ r'.appended ∧
      tag.name = Names.run ∧ OfInlines inner := by
  obtain ⟨hc, ht, lead, inner, hrun, hi⟩ := hr.appended.resolve_left ha
  obtain ⟨tag, inner', he, htag, hface⟩ := eq_run_of_face (hrun ▸ h.face)
  have hc' : r'.changes = [] := List.forall₂_nil_left_iff.1 (hc ▸ h.changes)
  have hnone : changed r'.changes c = c := changed_of_none (by simp [hc'])
  refine ⟨tag, inner', he, ?_, htag, ofInlines_of_face hface hi⟩
  simp only [Revision.apply, h.touched, ht, hnone, List.foldl_nil]

include hn hl

/-- A revision that puts no run behind the content: its structure, its numbers and its text. -/
theorem Revision.Suits.sweeps (ha : r.appended = .nil) :
    Sweeps (Written n (trails a c)) n a c (r'.apply c) ∧
      (r'.apply c).ids.Nodup ∧ (r'.apply c).ids.Sublist (changed r'.changes c).ids ∧
        (Firm none c → Firm none (r'.apply c) ∧ pieces (segmentsIn none (r'.apply c)) =
          pieces ((segmentsIn none c).flatMap (applied r'.changes))) :=
  Revision.apply_sweeps hn hl (hr.fits h.changes h.fresh) (h.touched ▸ hr.touched)
    (h.appended_nil ha) h.fresh

/-- The content after a revision, its structure and its numbers. -/
theorem Revision.Suits.reworked :
    Reworked n a c (r'.apply c) ∧ (r'.apply c).ids.Nodup ∧
      ∀ i ∈ (r'.apply c).ids, i ∈ c.ids ∨ n ≤ i ∧ i < m := by
  by_cases ha : r.appended = .nil
  · obtain ⟨h₁, h₂, h₃, -⟩ := hr.sweeps (a := a) h hn hl ha
    exact ⟨.inl h₁, h₂, fun i hi => h.mem_changed (h₃.subset hi)⟩
  · obtain ⟨tag, inner, he, happ, htag, hi⟩ := hr.append h ha
    have hids : ∀ i ∈ (Content.element tag inner .nil).ids, n ≤ i ∧ i < m := he ▸ h.ids
    rw [happ, he]
    refine ⟨.inr ⟨tag, inner, rfl, htag, (hids _ (by simp)).1, hi,
      fun i hi => (hids i (by simp [hi])).1⟩, ?_, fun i hi => ?_⟩
    · rw [Content.ids_append, List.nodup_append']
      exact ⟨hn, he ▸ h.nodup, fun i hi hj => Nat.not_le.2 (hl i hi) (hids i hj).1⟩
    · rw [Content.ids_append, List.mem_append] at hi
      exact hi.imp id (hids i)

end Content

/-! ### Doing it in the forest -/

section Perform

variable {f f' : Forest} {p : Nat} {e : Element} {r : Revision}

/-- What a revision of a paragraph does: `inner` is the content after it. -/
structure Performed (f f' : Forest) (e : Element) (s : Forest.Side) (h : Hole)
    (rest inner : Content) : Prop where
  side : f.side s = h.fill (.element e.tag e.inner rest)
  attached : f'.attached = (f.setSide s (h.fill (.element e.tag inner rest))).attached
  detached : f'.detached =
    (f.setSide s (h.fill (.element e.tag inner rest))).detached ++ e.inner.lost inner.ids
  reworked : Reworked f.next (key e.tag :: Around.trail h []) e.inner inner
  frame : Frame Spent (fun _ => True) f.next (· = e.tag.id) f f'
  has : f'.Has ⟨e.tag, inner⟩

/-- Trails that text is written in are those of attached elements, or they are not seen. -/
theorem Performed.frame_of_sweeps {s : Forest.Side} {h : Hole} {rest inner : Content}
    (hp : Performed f f' e s h rest inner)
    (hs : Sweeps (Written f.next (trails (key e.tag :: Around.trail h []) e.inner)) f.next
      (key e.tag :: Around.trail h []) e.inner inner) :
    Frame Spent (Written f.next (trails [] f.attached)) f.next (· = e.tag.id) f f' := by
  refine hp.frame.with_shift ?_
  rw [hp.attached]
  cases s with
  | attached =>
    refine shift_of_fill hp.side (.element (hs.shift.mono (fun _ _ h => h) ?_))
    rintro t ⟨ht, hk, hm, hk', hn⟩
    refine .mk ?_ hk hm hk' hn
    have hside : f.attached = _ := hp.side
    exact hside ▸ trails_inner_subset ht
  | detached => exact .refl _

/-- How a revision of segments is done. -/
theorem perform_numbered (hf : f.Numbered) (he : f.element? p = some e)
    (hp : e.tag.name = Names.paragraph) (hr : r.Suits (Paragraph.segments e)) :
    ∃ f' s h rest r' m, Edit.perform p r f = .ok () f' ∧ r.Numbered f.next m r' ∧
      Performed f f' e s h rest (r'.apply e.inner) := by
  obtain ⟨hhas, rfl⟩ := hf.element?_eq_some.1 he
  obtain ⟨s, hm⟩ := Forest.has_iff.1 hhas
  obtain ⟨h, rest, hs⟩ := Hole.exists_fill_of_mem hm
  obtain ⟨r', m, hok, hnum⟩ := perform_eq e.tag.id r f
  obtain ⟨hre, hnd, hid⟩ := hr.reworked (a := key e.tag :: Around.trail h []) hnum
    (hf.nodup_inner hhas) (hf.inner_lt hhas)
  have hs' : ({ f with next := m } : Forest).side s = h.fill (.element e.tag e.inner rest) :=
    (f.side_next m s).trans hs
  obtain ⟨hframe, hhas'⟩ := update_frame (g := fun e => { e with inner := r'.apply e.inner })
    (hf.withNext m) hnum.le hs' hp rfl hre.shift (fun q hq hqp => hre.paragraph_mem hq hqp) hnd hid
  refine ⟨_, s, h, rest, r', m, hok, hnum, hs, ?_, ?_, hre, hframe.of_next hnum.le, hhas'⟩
  · rw [Forest.update_eq (hf.withNext m) hs']
    cases s <;> rfl
  · rw [Forest.update_eq (hf.withNext m) hs']
    cases s <;> rfl

/-- How a revision of segments is done, and the content that the paragraph has then. -/
theorem perform_apply (hf : f.Numbered) (he : f.element? p = some e)
    (hp : e.tag.name = Names.paragraph) (hr : r.Suits (Paragraph.segments e)) :
    ∃ f' s h rest changes' appended', Edit.perform p r f = .ok () f' ∧
      Performed f f' e s h rest (Revision.apply ⟨changes', appended', r.touched⟩ e.inner) ∧
        List.Forall₂ SameChange r.changes changes' ∧ Fresh f.next changes' ∧
          appended'.face = r.appended.face ∧ ∀ i ∈ appended'.ids, f.next ≤ i := by
  obtain ⟨f', s, h, rest, ⟨changes', appended', touched⟩, m, hok, hnum, hperf⟩ :=
    perform_numbered hf he hp hr
  obtain rfl : touched = r.touched := hnum.touched
  exact ⟨f', s, h, rest, changes', appended', hok, hperf, hnum.changes, hnum.fresh, hnum.face,
    fun i hi => (hnum.ids i hi).1⟩

/-- How a revision of segments is done. What it is without a new run is said apart. -/
theorem perform_spec (hf : f.Numbered) (he : f.element? p = some e)
    (hp : e.tag.name = Names.paragraph) (hr : r.Suits (Paragraph.segments e)) :
    ∃ f' s h rest inner, Edit.perform p r f = .ok () f' ∧ Performed f f' e s h rest inner ∧
      (r.appended = .nil → Frame Spent (Written f.next (trails [] f.attached)) f.next
        (· = e.tag.id) f f' ∧ ∃ changes', List.Forall₂ SameChange r.changes changes' ∧
          Fresh f.next changes' ∧ inner = Revision.apply ⟨changes', .nil, r.touched⟩ e.inner ∧
          (Firm none e.inner → Firm none inner ∧ pieces (segmentsIn none inner) =
            pieces ((Paragraph.segments e).flatMap (applied changes')))) := by
  obtain ⟨f', s, h, rest, r', m, hok, hnum, hperf⟩ := perform_numbered hf he hp hr
  have hhas := (hf.element?_eq_some.1 he).1
  refine ⟨f', s, h, rest, _, hok, hperf, fun ha => ?_⟩
  obtain ⟨hsw, -, -, htext⟩ :=
    hr.sweeps (a := key e.tag :: Around.trail h []) hnum (hf.nodup_inner hhas) (hf.inner_lt hhas) ha
  refine ⟨hperf.frame_of_sweeps hsw, r'.changes, hnum.changes, hnum.fresh, ?_, htext⟩
  rw [← hnum.touched, ← hnum.appended_nil ha]

end Perform

end MailMerge.Word
