import MailMerge.Proofs.Turns

/-!
# Rows that end up empty

Behind an emptied paragraph only the innermost row around it is looked at: it stays if it has text,
and goes away otherwise (`Tidied.innermost`). So a row that has had text ends up empty only if a row
inside it has gone away (`Merge.rows_stay_full`); there are documents in which one does
(`Merge.outer_row_left`).
-/

namespace MailMerge

open Xml Word

namespace Word

variable {f f' : Forest} {e r : Element} {t u v w : List Key} {k k' : Key}

/-! ## The innermost row -/

theorem exists_first {α : Type} {p : α → Prop} {l : List α} (h : ∃ x ∈ l, p x) :
    ∃ a x b, l = a ++ x :: b ∧ p x ∧ ∀ y ∈ a, ¬p y := by
  classical
  obtain ⟨x, hx, hp⟩ := h
  have hsome : (l.find? fun x => decide (p x)).isSome :=
    List.find?_isSome.2 ⟨x, hx, decide_eq_true hp⟩
  obtain ⟨y, hy⟩ := Option.isSome_iff_exists.1 hsome
  obtain ⟨hpy, a, b, rfl, ha⟩ := List.find?_eq_some_iff_append.1 hy
  exact ⟨a, y, b, rfl, of_decide_eq_true hpy, fun z hz => by simpa using ha z hz⟩

/-- Around what is in the cells of rows there is an innermost row, and all others are around it. -/
theorem exists_rowAround (hu : Enclosed Names.row [Names.cell] false ((w ++ k :: v).map (·.name)))
    (hk : k.name = Names.row) : ∃ k₀ v₀, RowAround (w ++ k :: v) k₀ v₀ ∧ k :: v <:+ k₀ :: v₀ := by
  obtain ⟨a, k₀, v₀, hl, hk₀, ha⟩ :=
    exists_first (l := w ++ k :: v) (p := fun z => z.name = Names.row) ⟨k, by simp, hk⟩
  have hsuffix : k :: v <:+ k₀ :: v₀ := by
    have h₁ : k :: v <:+ w ++ k :: v := List.suffix_append ..
    have h₂ : k₀ :: v₀ <:+ w ++ k :: v := hl ▸ List.suffix_append ..
    refine (List.suffix_or_suffix_of_suffix h₁ h₂).elim id fun h => ?_
    rcases List.suffix_cons_iff.1 h with h | ⟨z, rfl⟩
    · exact h ▸ List.suffix_rfl
    · have heq : (w ++ k :: z) ++ k₀ :: v₀ = a ++ k₀ :: v₀ := by simpa using hl
      exact absurd hk (ha k (List.append_cancel_right heq ▸ by simp))
  rw [hl] at hu ⊢
  obtain ⟨w₁, x, w₂, rfl, hx, -⟩ := exists_between hu hk₀
  obtain ⟨b, c, b', hb, hc, hbn⟩ := exists_first (l := w₁ ++ x :: w₂)
    (p := fun z => z.name = Names.cell) ⟨x, by simp, List.mem_singleton.1 hx⟩
  rw [hb] at ha ⊢
  exact ⟨k₀, v₀, ⟨hk₀, b, c, b', by simp, hc, hbn, fun z hz => ha z (by simp [hz])⟩, hsuffix⟩

theorem RowAround.unique {v' : List Key} (h : RowAround u k v) (h' : RowAround u k' v') :
    k = k' ∧ v = v' := by
  obtain ⟨hk, w₁, c, w₂, hu, hc, hw₁, hw₂⟩ := h
  obtain ⟨hk', w₁', c', w₂', hu', hc', hw₁', hw₂'⟩ := h'
  obtain ⟨-, heq⟩ := first_unique (p := fun z => z.name = Names.cell) (hu.symm.trans hu') hc hc'
    hw₁ hw₁'
  exact first_unique (p := fun z => z.name = Names.row) heq hk hk' hw₂ hw₂'

theorem RowAround.suffix (h : RowAround u k v) : k :: v <:+ u := by
  obtain ⟨-, w, c, w', rfl, -⟩ := h
  exact ⟨w ++ c :: w', by simp⟩

theorem Frame.ids_subset {n : Nat} {but : Nat → Prop} (h : Loss n but f f') :
    f'.attached.ids ⊆ f.attached.ids := by
  intro i hi
  obtain ⟨k, u, ht, rfl⟩ := mem_ids_iff_trail.1 hi
  exact mem_ids_iff_trail.2 ⟨k, u, (h.shift.new _ ht).resolve_right id, rfl⟩

/-- After cleaning up behind a paragraph, it has text, or the innermost row has, or that row is
gone. -/
theorem Tidied.innermost (hf : f.Numbered) (he : f.Has e) (hp : e.tag.name = Names.paragraph)
    (ht : key e.tag :: u ∈ trails [] f.attached) (h : Tidied e u f f') (hu : RowAround u k v)
    (hv : v ≠ []) : Paragraph.isEmpty e = false ∧ f' = f ∨
      (∃ x ∈ f'.attached.elements, key x.tag = k ∧ k :: v ∈ trails [] f'.attached ∧
        Row.isEmpty x = false) ∨ k.id ∉ f'.attached.ids := by
  have around : ∀ {f₁}, Lifted e.tag.id f f₁ → k :: v ∈ trails [] f₁.attached := fun hl =>
    around_of_lifted hf he ht hu.suffix (by simp) hl
  have gone : ∀ {f₁} {r : Element} {v' : List Key}, Lifted e.tag.id f f₁ → f₁.Has r →
      RowAround u (key r.tag) v' → f₁.Numbered ∧ r.tag.name = Names.row ∧
        k.id ∉ (removed f₁ r.tag.id).attached.ids := by
    intro f₁ r v' hl hr hu'
    obtain ⟨rfl, rfl⟩ := hu.unique hu'
    have hrow : r.tag.name = Names.row := hu.1
    have hf₁ : f₁.Numbered := (hl.move hf fun x hx =>
      Option.some.inj ((hf.element?_of_has he).symm.trans hx) ▸ hp).numbered
    exact ⟨hf₁, hrow, notMem_removed hf₁ hr (around hl) hv (by simp [hrow])⟩
  cases h with
  | full hm => exact .inl ⟨hm, rfl⟩
  | lifted _ hl hrow =>
    obtain ⟨x, hx, rfl⟩ := exists_of_head (around hl)
    exact .inr (.inl ⟨x, hx, rfl, around hl, hrow x v hu (.inl hx)⟩)
  | row _ hl hr hu' _ => exact .inr (.inr (gone hl hr hu').2.2)
  | @table f₁ r t _ _ _ _ hl hr hu' _ _ hn htab _ =>
    obtain ⟨hf₁, hrn, hgone⟩ := gone hl hr hu'
    refine .inr (.inr fun hi => hgone ?_)
    have h₁ : Loss f₁.next (fun _ => False) f₁ _ := removed_row hf₁ (hf₁.element?_of_has hr) hrn
    have h₂ : Loss _ (fun _ => False) (removed f₁ r.tag.id) (removed (removed f₁ r.tag.id) t.tag.id) :=
      removed_frame h₁.numbered fun x hx => by
        obtain rfl := Option.some.inj ((h₁.numbered.element?_of_has htab).symm.trans hx)
        simp [hn]
    exact h₂.ids_subset hi

/-! ## Rows with text -/

/-- What the trail leads from has a paragraph in it that is not empty. -/
def Busy (t : List Key) (f : Forest) : Prop :=
  ∃ q ∈ f.attached.elements, q.tag.name = Names.paragraph ∧ Paragraph.isEmpty q = false ∧
    ∃ w, key q.tag :: (w ++ t) ∈ trails [] f.attached

theorem Busy.suffix (h : Busy u f) (ht : t <:+ u) : Busy t f := by
  obtain ⟨z, rfl⟩ := ht
  obtain ⟨q, hq, hp, hm, w, hw⟩ := h
  exact ⟨q, hq, hp, hm, w ++ z, by simpa using hw⟩

theorem InShape.row_busy_iff (hs : InShape f) (hf : f.Numbered) (hr : r ∈ f.attached.elements)
    (hn : r.tag.name = Names.row) (ht : key r.tag :: u ∈ trails [] f.attached) :
    Row.isEmpty r = false ↔ Busy (key r.tag :: u) f := by
  constructor
  · intro hfull
    by_contra hbusy
    rw [← Bool.not_eq_true, hs.row_isEmpty_iff hf hr hn] at hfull
    refine hfull fun x hx hp => ?_
    by_contra hm
    obtain ⟨w, hw⟩ := exists_trail (key r.tag :: u) hx
    exact hbusy ⟨x, Content.mem_trans hr hx, hp, by simpa using hm, w,
      mem_trails_attached hf (.inl hr) ht hw⟩
  · rintro ⟨q, hq, hp, hm, w, hw⟩
    rw [← Bool.not_eq_true]
    intro hempty
    have := (hs.row_isEmpty_iff hf hr hn).1 hempty q (mem_inner_of_trail hf (.inl hq) (.inl hr) hw) hp
    simp [this] at hm

/-- What cleaning up does to a row around the paragraph: it has text, unless one inside is gone. -/
theorem Tidied.busy (hf : f.Numbered) (hs : InShape f) (he : f.Has e)
    (hp : e.tag.name = Names.paragraph) (ht : key e.tag :: u ∈ trails [] f.attached)
    (h : Tidied e u f f') (hu : u = w ++ k :: v) (hk : k.name = Names.row) (hv : v ≠ [])
    (hin : k :: v ∈ trails [] f'.attached) : Busy (k :: v) f' ∨
      ∃ k' w', k'.name = Names.row ∧ k' :: (w' ++ k :: v) <:+ u ∧ k'.id ∉ f'.attached.ids := by
  have hsp := h.spares hf hs he hp ht
  obtain ⟨-, -, hshape⟩ := hs _ ht
  obtain ⟨-, henclosed, -⟩ := hshape hp
  change Enclosed _ _ _ (u.map (·.name)) at henclosed
  subst hu
  obtain ⟨k₀, v₀, ha, hsuffix⟩ := exists_rowAround henclosed hk
  have hv₀ : v₀ ≠ [] := by
    rintro rfl
    have := hsuffix.length_le
    have := List.length_pos_iff.2 hv
    simp only [List.length_cons, List.length_nil] at *
    omega
  rcases h.innermost hf he hp ht ha hv₀ with ⟨hm, rfl⟩ | ⟨x, hx, rfl, hxt, hfull⟩ | hgone
  · exact .inl ⟨e, mem_attached hf he ht, hp, hm, w, ht⟩
  · have hbusy := ((hsp.step.inShape hs).row_busy_iff hsp.step.numbered hx ha.1 hxt).1 hfull
    exact .inl (hbusy.suffix hsuffix)
  · rcases List.suffix_cons_iff.1 hsuffix with heq | ⟨w', rfl⟩
    · obtain ⟨rfl, rfl⟩ := List.cons.inj heq
      exact absurd (mem_ids_iff_trail.2 ⟨_, _, hin, rfl⟩) hgone
    · exact .inr ⟨k₀, w', ha.1, ha.suffix, hgone⟩

end Word

namespace Merge

variable {f₀ f f' : Forest} {s : Substitution} {k : Key} {v : List Key}

/-- A turn leaves text in a row that is still there, unless a row inside it goes away. -/
theorem Turn.busy (h : Turn f₀ s f f') (hf : f.Numbered) (hs : InShape f)
    (hk : k.name = Names.row) (hv : v ≠ []) (hb : Busy (k :: v) f)
    (hin : k :: v ∈ trails [] f'.attached) : Busy (k :: v) f' ∨ ∃ k' w', k'.name = Names.row ∧
      k' :: (w' ++ k :: v) ∈ trails [] f₀.attached ∧ k'.id ∉ f'.attached.ids := by
  obtain @⟨e, u, lines, ⟨he, -, hn, ht, hold⟩, -, hr⟩ := h
  obtain ⟨q, hq, hqp, hqm, w, hw⟩ := hb
  by_cases hoff : ∀ z ∈ key e.tag :: u, z.id ≠ q.tag.id
  · have hsp := hr.spares hf hs (.inl he) hn ht
    rcases hsp.kept q hq hqp hoff with hq' | ⟨x, -, -, hqx, hempty, -⟩
    · exact .inl ⟨q, hq', hqp, hqm, w, (hsp.step.trail_of_mem hf hw hq' rfl).2⟩
    · simp [hempty q hqx hqp] at hqm
  · -- The paragraph with text is the one of the turn, or around it.
    push Not at hoff
    obtain ⟨z, hz, hid⟩ := hoff
    obtain ⟨a, b, hab⟩ := List.append_of_mem hz
    have heq : z :: b = key q.tag :: (w ++ k :: v) :=
      trail_eq_of_id hf.attached (suffix_mem_trails (u := a) (hab ▸ ht) (by simp)) hw hid
    obtain ⟨w₁, hu⟩ : ∃ w₁, u = w₁ ++ k :: v := by
      rw [heq] at hab
      cases a with
      | nil => exact ⟨w, (List.cons.inj hab).2⟩
      | cons y a => exact ⟨a ++ key q.tag :: w, by simpa using (List.cons.inj hab).2⟩
    obtain ⟨f₂, e₂, hsp, hs₂, he₂, hk₂, ht₂, htidy⟩ := hr.exists_tidied hf hs (.inl he) hn ht
    have hn₂ : e₂.tag.name = Names.paragraph := (congrArg Key.name hk₂).trans hn
    refine (htidy.busy hsp.step.numbered hs₂ he₂ hn₂ ht₂ hu hk hv hin).imp id ?_
    rintro ⟨k', w', hk', ⟨y, hy⟩, hgone⟩
    exact ⟨k', w', hk', suffix_mem_trails (u := key e.tag :: y) (by simpa [hy] using hold)
      (by simp), hgone⟩

variable {fields : FieldMap} {d d₁ : Document} {found : List Story}

/-- A row that is not empty before a merge is not empty after it, if it is still there and no row
inside it has gone away. -/
theorem rows_stay_full (hs : d.Sound) (hfound : Document.stories d = .ok found d₁)
    (hshape : InShape d₁.forest) : Meets (run fields) d
      (fun _ d' => ∀ r ∈ d₁.forest.attached.elements, r.tag.name = Names.row →
        d₁.forest.isRoot r.tag.id = false → Row.isEmpty r = false →
          ∀ r' ∈ d'.forest.attached.elements, r'.tag.id = r.tag.id → Row.isEmpty r' = false ∨
            ∃ x ∈ r.inner.elements, x.tag.name = Names.row ∧ x.tag.id ∉ d'.forest.attached.ids)
      fun _ _ => True := by
  have hf := ((Meets.of_ok (Document.reading_stories hs) hfound).1.sound hs).numbered
  refine (run_turns fields hs hfound hshape
    (fun f => ∀ r ∈ d₁.forest.attached.elements, r.tag.name = Names.row → Row.isEmpty r = false →
      ∀ v, key r.tag :: v ∈ trails [] d₁.forest.attached → v ≠ [] →
        key r.tag :: v ∈ trails [] f.attached → Busy (key r.tag :: v) f ∨
          ∃ x ∈ r.inner.elements, x.tag.name = Names.row ∧ x.tag.id ∉ f.attached.ids) ?_ ?_).mono ?_
    fun _ _ _ => trivial
  · exact fun r hr hn hfull v ht _ _ => .inl ((hshape.row_busy_iff hf hr hn ht).1 hfull)
  · intro s hm f f' ho hinv ht r hr hn hfull v hv hne hin
    have hnum := ho.step.numbered
    have hstep := (ho.turn_step ht).step
    obtain ⟨_, -, hsp⟩ := ht.spares hnum ho.shape
    have old : ∀ {x : Element}, x ∈ d₁.forest.attached.elements → x.tag.id < f.next := fun hx =>
      Nat.lt_of_lt_of_le (hf.has_lt (.inl hx)) ho.step.next
    rcases hinv r hr hn hfull v hv hne (hsp.step.old_trail hin (old hr)) with hb | ⟨x, hx, hxn, hgone⟩
    · refine (ht.busy hnum ho.shape hn hne hb hin).imp id ?_
      rintro ⟨k, w, hk, hkt, hgone⟩
      obtain ⟨x, hx, rfl⟩ := exists_of_head hkt
      exact ⟨x, mem_inner_of_trail hf (.inl hx) (.inl hr) hkt, hk, hgone⟩
    · refine .inr ⟨x, hx, hxn, fun hi => hgone ?_⟩
      obtain ⟨k, u, hkt, hid⟩ := mem_ids_iff_trail.1 hi
      exact mem_ids_iff_trail.2
        ⟨k, u, hsp.step.old_trail hkt (hid ▸ old (Content.mem_trans hr hx)), hid⟩
  · rintro _ d' ⟨ho, hinv⟩ r hr hn hroot hfull r' hr' hid
    have hnum := ho.step.numbered
    obtain ⟨v, hv⟩ := exists_trail [] hr
    rw [List.append_nil] at hv
    obtain ⟨hk, hin⟩ := ho.step.trail_of_mem hf hv hr' hid
    have hne : v ≠ [] := by
      rintro rfl
      obtain ⟨x, hx, hxk⟩ := mem_trails_root hv
      have : d₁.forest.isRoot r.tag.id = true :=
        List.any_eq_true.2 ⟨x, hx, decide_eq_true (congrArg Key.id hxk)⟩
      simp [this] at hroot
    refine (hinv r hr hn hfull v hv hne hin).imp (fun hb => ?_) id
    rw [← hk] at hb hin
    exact (ho.shape.row_busy_iff hnum hr' ((congrArg Key.name hk).trans hn) hin).2 hb

/-- A row with two tags, only one of which has a value that is not empty. -/
def twoCells : Document := .ofBody [
  Document.node Names.table [Document.node Names.row [
    Document.node Names.cell [Document.node Names.paragraph [Document.textRun "<<A>>"]],
    Document.node Names.cell [Document.node Names.paragraph [Document.textRun "<<B>>"]]]],
  Document.node Names.paragraph []]

theorem rows_stay_full_twoCells : ∃ stats d', run oneEmpty twoCells = .ok stats d' ∧
    stats.applied = 2 ∧ ∃ r ∈ d'.forest.attached.elements, r.tag.name = Names.row ∧
      Row.isEmpty r = false := by
  have hstories : Meets Document.stories twoCells
      (fun _ d₁ => InShape d₁.forest ∧ ∃ r ∈ d₁.forest.attached.elements, r.tag.id = 3 ∧
        r.tag.name = Names.row ∧ d₁.forest.isRoot r.tag.id = false ∧ Row.isEmpty r = false ∧
          ∀ x ∈ r.inner.elements, x.tag.name ≠ Names.row) fun _ _ => False := by decide +kernel
  have hrun : Meets (run oneEmpty) twoCells (fun stats d' => stats.applied = 2 ∧
      ∃ r ∈ d'.forest.attached.elements, r.tag.id = 3 ∧ r.tag.name = Names.row)
      fun _ _ => False := by decide +kernel
  obtain ⟨found, d₁, hfound, hshape, r, hr, hid, hn, hroot, hfull, hno⟩ := hstories.exists_ok
  obtain ⟨stats, d', hd', happlied, r', hr', hid', hn'⟩ := hrun.exists_ok
  have hrows := (rows_stay_full (Document.sound_ofRoot _) hfound hshape).of_ok hd' r hr hn hroot
    hfull r' hr' (hid'.trans hid.symm)
  exact ⟨stats, d', hd', happlied, r', hr', hn', hrows.resolve_right fun ⟨x, hx, hxn, _⟩ =>
    hno x hx hxn⟩

/-- A row with a table in its cell, all text of which is a tag. -/
def tableInCell : Document := .ofBody [
  Document.node Names.table [Document.node Names.row [Document.node Names.cell [
    Document.node Names.table [Document.node Names.row [Document.node Names.cell [
      Document.node Names.paragraph [Document.textRun "<<B>>"]]]],
    Document.node Names.paragraph []]]],
  Document.node Names.paragraph []]

/-- The inner row and its table go away, and the outer row is left without text. -/
theorem outer_row_left : ∃ found d₁ stats d', Document.stories tableInCell = .ok found d₁ ∧
    InShape d₁.forest ∧ run oneEmpty tableInCell = .ok stats d' ∧
    ∃ r ∈ d₁.forest.attached.elements, r.tag.name = Names.row ∧ Row.isEmpty r = false ∧
      ∃ r' ∈ d'.forest.attached.elements, r'.tag.id = r.tag.id ∧ Row.isEmpty r' = true := by
  have hstories : Meets Document.stories tableInCell (fun _ d₁ => InShape d₁.forest ∧
      ∃ r ∈ d₁.forest.attached.elements, r.tag.id = 3 ∧ r.tag.name = Names.row ∧
        Row.isEmpty r = false) fun _ _ => False := by decide +kernel
  have hrun : Meets (run oneEmpty) tableInCell (fun _ d' =>
      ∃ r ∈ d'.forest.attached.elements, r.tag.id = 3 ∧ Row.isEmpty r = true)
      fun _ _ => False := by decide +kernel
  obtain ⟨found, d₁, hfound, hshape, r, hr, hid, hn, hfull⟩ := hstories.exists_ok
  obtain ⟨stats, d', hd', r', hr', hid', hempty⟩ := hrun.exists_ok
  exact ⟨found, d₁, stats, d', hfound, hshape, hd', r, hr, hn, hfull, r', hr',
    hid'.trans hid.symm, hempty⟩

end Merge

end MailMerge
