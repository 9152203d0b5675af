import MailMerge.Proofs.Outline
import MailMerge.Proofs.Rows

/-!
# Paragraphs that stay where they are

A paragraph that shows text stays where it stands, whatever a merge takes away around it: a paragraph
or a row that goes shows nothing, and a table that goes has no rows. So the trail of the paragraph is
there after each edit if it was there before (`Standing`), in documents whose outline is regular
around the paragraph (`Sheltered`).
-/

namespace MailMerge.Word

open MailMerge.Xml

/-- A paragraph that is where it should be, with `u` leading on from it, as long as it shows
anything. -/
structure Standing (u : List Key) (f : Forest) (q : Element) : Prop where
  has : f.Has q
  name : q.tag.name = Names.paragraph
  firm : Firm none q.inner
  place : Paragraph.text q ≠ [] → Sheltered (u.map (·.name)) ∧ key q.tag :: u ∈ trails [] f.attached

theorem text_of_pieces {q q' : Element}
    (h : pieces (Paragraph.segments q') = pieces (Paragraph.segments q)) :
    Paragraph.text q' = Paragraph.text q := by
  rw [Paragraph.text, Paragraph.text, ← spelled_pieces, ← spelled_pieces, h]

section Lost

variable {f f' : Forest} {e : Element} {s : Forest.Side} {h : Hole} {rest : Content} {t u : List Key}

/-- An element that a trail leads from is attached there. -/
theorem exists_attached (hf : f.Numbered) (he : f.Has e)
    (ht : key e.tag :: u ∈ trails [] f.attached) : ∃ (h : Hole) (rest : Content),
      f.attached = h.fill (.element e.tag e.inner rest) ∧ u = Around.trail h [] := by
  obtain ⟨h, tag, inner, rest, hs, hkey⟩ := exists_fill_of_trail ht
  obtain ⟨hk, rfl⟩ := List.cons.inj hkey
  have hin : f.Has ⟨tag, inner⟩ :=
    .inl (hs ▸ Hole.self_mem_fill _ _ _ _)
  obtain rfl := hf.eq_of_id he hin (congrArg Key.id hk)
  exact ⟨h, rest, hs, rfl⟩

/-- A trail that leads through an element is one of what is in the element. -/
theorem trail_inside (hf : f.Numbered) (he : f.Has e) {k : Key} {w v : List Key}
    (ht : k :: (w ++ key e.tag :: v) ∈ trails [] f.attached) :
    k :: (w ++ key e.tag :: v) ∈ trails (key e.tag :: v) e.inner := by
  have hm := suffix_mem_trails (u := k :: w) (s := key e.tag :: v) ht (by simp)
  obtain ⟨h, rest, hs, rfl⟩ := exists_attached hf he hm
  rw [hs] at ht
  exact mem_inner_of_suffix (hs ▸ hf.attached) ht

theorem mem_attached (hf : f.Numbered) (he : f.Has e)
    (hu : key e.tag :: u ∈ trails [] f.attached) : e ∈ f.attached.elements := by
  obtain ⟨h, rest, hs, -⟩ := exists_attached hf he hu
  exact hs ▸ Hole.self_mem_fill _ _ _ _

theorem mem_trails_attached (hf : f.Numbered) (he : f.Has e)
    (hu : key e.tag :: u ∈ trails [] f.attached) (ht : t ∈ trails (key e.tag :: u) e.inner) :
    t ∈ trails [] f.attached := by
  obtain ⟨h, rest, hs, rfl⟩ := exists_attached hf he hu
  exact hs ▸ trails_inner_subset ht

theorem exists_trail_inside {x : Element} (hf : f.Numbered) (he : e ∈ f.attached.elements)
    (hx : x ∈ e.inner.elements) : ∃ w v, key e.tag :: v ∈ trails [] f.attached ∧
      key x.tag :: (w ++ key e.tag :: v) ∈ trails [] f.attached := by
  obtain ⟨v, hv⟩ := exists_root_trail he
  obtain ⟨w, hw⟩ := exists_trail (key e.tag :: v) hx
  exact ⟨w, v, hv, mem_trails_attached hf (.inl he) hv hw⟩

/-- The trails that lead through an attached element are those of the element and of all that is in
it. -/
theorem mem_elements_iff_trail (hf : f.Numbered) (he : f.Has e)
    (hu : key e.tag :: u ∈ trails [] f.attached) {x : Element} :
    x ∈ (Content.element e.tag e.inner .nil).elements ↔ f.Has x ∧ ∃ v,
      key x.tag :: v ∈ trails [] f.attached ∧ key e.tag :: u <:+ key x.tag :: v := by
  rw [Content.mem_element_nil]
  constructor
  · rintro (rfl | hx)
    · exact ⟨he, u, hu, List.suffix_rfl⟩
    · obtain ⟨w, hw⟩ := exists_trail (key e.tag :: u) hx
      exact ⟨he.inner hx, _, mem_trails_attached hf he hu hw, ⟨key x.tag :: w, rfl⟩⟩
  · rintro ⟨hx, v, hv, w, hw⟩
    rcases w with _ | ⟨k, w⟩
    · exact .inl (hf.eq_of_id hx he (congrArg Key.id (List.cons.inj hw).1).symm)
    · obtain ⟨rfl, rfl⟩ := List.cons.inj hw
      obtain ⟨y, hy, hk⟩ := exists_of_head (trail_inside hf he hv)
      exact .inr (hf.eq_of_id (he.inner hy) hx (congrArg Key.id hk) ▸ hy)

/-- The trails of the children of an attached element. -/
theorem mem_childKeys_iff_trail (hf : f.Numbered) (he : f.Has e)
    (hu : key e.tag :: u ∈ trails [] f.attached) {k : Key} :
    k ∈ childKeys e.inner ↔ k :: key e.tag :: u ∈ trails [] f.attached := by
  constructor
  · intro hk
    obtain ⟨x, hx, rfl⟩ := List.mem_map.1 hk
    exact mem_trails_attached hf he hu (trails_of_child hx _)
  · intro ht
    obtain ⟨w, x, hx, hm⟩ := last_mem_childKeys (trail_inside (w := []) hf he ht)
    have hlen := congrArg List.length hx
    simp only [List.nil_append, List.length_cons, List.length_append] at hlen
    obtain rfl := List.length_eq_zero_iff.1 (show w.length = 0 by omega)
    exact (List.cons.inj hx).1 ▸ hm

/-- What is taken away takes the trails with it that lead through it, and no others. -/
theorem trail_detach (hf : f.Numbered) {id : Nat} (he : f.element? id = some e)
    (ht : t ∈ trails [] f.attached) :
    t ∈ trails [] (f.detach id).attached ∨ ∃ w v, t = w ++ key e.tag :: v := by
  obtain ⟨hhas, rfl⟩ := hf.element?_eq_some.1 he
  obtain ⟨s, hm⟩ := Forest.has_iff.1 hhas
  obtain ⟨h, rest, hs⟩ := Hole.exists_fill_of_mem hm
  rw [Forest.detach_eq hf hs]
  cases s with
  | detached => exact .inl ht
  | attached =>
    simp only [Forest.side] at hs
    simp only [Forest.setSide, hs, mem_trails_fill, trails_dropText] at ht ⊢
    rcases ht with ht | ht | ht
    · exact .inl (.inl ht)
    · simp only [mem_trails_element] at ht
      rcases ht with rfl | ht | ht
      · exact .inr ⟨[], _, rfl⟩
      · obtain ⟨k, w, rfl⟩ := above_suffix ht
        exact .inr ⟨k :: w, _, rfl⟩
      · exact .inl (.inr (.inl ht))
    · exact .inl (.inr (.inr ht))

theorem trail_removed (hf : f.Numbered) (he : f.element? e.tag.id = some e)
    (ht : t ∈ trails [] f.attached) :
    t ∈ trails [] (removed f e.tag.id).attached ∨ ∃ w v, t = w ++ key e.tag :: v := by
  unfold removed
  split
  · exact trail_detach hf he ht
  · exact .inl ht

/-- An emptied paragraph is still there. -/
theorem trail_lifted (hf : f.Numbered) (he : f.element? e.tag.id = some e)
    (hl : Lifted e.tag.id f f') (ht : t ∈ trails [] f.attached) :
    t ∈ trails [] f'.attached ∨ ∃ w v, t = w ++ key e.tag :: v := by
  cases hl with
  | none => exact .inl ht
  | away => exact trail_detach hf he ht
  | @emptied x _ _ hx =>
    obtain rfl : x = e := by simpa [Forest.element?, hx] using he
    obtain ⟨s, h, rest, hs, -, -⟩ := hf.place?_eq hx
    rw [Forest.update_eq hf hs]
    cases s with
    | detached => exact .inl ht
    | attached =>
      simp only [Forest.side] at hs
      simp only [Forest.setSide, hs, mem_trails_fill, trails, List.cons_append, List.mem_cons,
        List.mem_append] at ht ⊢
      rcases ht with ht | (rfl | ht | ht) | ht
      · exact .inl (.inl ht)
      · exact .inl (.inr (.inl (.inl rfl)))
      · obtain ⟨k, w, rfl⟩ := above_suffix ht
        exact .inr ⟨k :: w, _, rfl⟩
      · exact .inl (.inr (.inl (.inr (.inr ht))))
      · exact .inl (.inr (.inr ht))

/-- What goes with a revision is an element that shows text, a run, or something in one of these or
in the properties of a run. -/
theorem not_spent_of_names {k : Key} {w v : List Key} (hr : k.name ≠ Names.run)
    (hn : ∀ x ∈ k :: u, x.name ∉ Names.showing ∧ x.name ≠ Names.runProperties)
    (h : k :: u = w ++ v) : ¬Spent w v := by
  intro hs
  cases hs with
  | shown hx _ => exact (hn _ (h ▸ by simp)).1 hx
  | run hk =>
    obtain ⟨rfl, -⟩ := List.cons.inj h
    exact hr hk
  | @inRun w m r v hm _ =>
    have hmem := hn m (h ▸ by simp)
    rcases hm with hm | hm
    · exact hmem.2 hm
    · exact hmem.1 (hm ▸ by decide)

/-- What goes with a revision has no paragraph with text in it. -/
theorem not_spent {k : Key} (hk : k.name = Names.paragraph) (hu : Sheltered (u.map (·.name)))
    {w v : List Key} (h : k :: u = w ++ v) : ¬Spent w v := by
  refine not_spent_of_names (by rw [hk]; decide) (fun x hx => ?_) h
  rcases List.mem_cons.1 hx with rfl | hx
  · rw [hk]
    decide
  · have hm := List.mem_map_of_mem (f := (·.name)) hx
    exact ⟨hu.showing _ hm, fun e => hu.properties _ hm (e ▸ by decide)⟩

/-- On the way outwards from a paragraph that shows text, what is between the elements. -/
theorem exists_between {outer : Name} {inner : List Name} {k : Key} {w v : List Key}
    (hu : Enclosed outer inner false ((w ++ k :: v).map (·.name))) (hk : k.name = outer) :
    ∃ w₁ x w₂, w = w₁ ++ x :: w₂ ∧ x.name ∈ inner ∧ ∀ y ∈ w₂, y.name ≠ outer := by
  rw [List.map_append, List.map_cons, hk] at hu
  rcases hu.exists_inner with ⟨h, -⟩ | ⟨a₁, n, a₂, ha, hn, ho⟩
  · cases h
  obtain ⟨w₁, w', rfl, -, hw'⟩ := List.map_eq_append_iff.1 ha
  obtain ⟨x, w₂, rfl, rfl, rfl⟩ := List.map_eq_cons_iff.1 hw'
  exact ⟨w₁, x, w₂, rfl, hn, fun y hy e => ho (e ▸ List.mem_map_of_mem hy)⟩

/-- What a trail leads through has the element of the trail in it. -/
theorem mem_inner_of_trail {x : Element} {w v : List Key} (hf : f.Numbered) (hx : f.Has x)
    (he : f.Has e) (ht : key x.tag :: (w ++ key e.tag :: v) ∈ trails [] f.attached) :
    x ∈ e.inner.elements := by
  obtain ⟨y, hy, hk⟩ := exists_of_head (trail_inside hf he ht)
  exact hf.eq_of_id (he.inner hy) hx (congrArg Key.id hk) ▸ hy

/-- Where each `e` is reached from one of `inner` in it, that one is around `x` in `e`. -/
theorem exists_enclosing {inner : List Name} {x : Element} {w v : List Key} (hf : f.Numbered)
    (hx : f.Has x) (he : f.Has e)
    (ht : key x.tag :: (w ++ key e.tag :: v) ∈ trails [] f.attached)
    (hu : Enclosed e.tag.name inner false ((w ++ key e.tag :: v).map (·.name))) :
    ∃ y ∈ e.inner.elements, y.tag.name ∈ inner ∧ x ∈ y.inner.elements ∧ ∃ w₂,
      key y.tag :: (w₂ ++ key e.tag :: v) ∈ trails (key e.tag :: v) e.inner ∧
        ∀ z ∈ w₂, z.name ≠ e.tag.name := by
  obtain ⟨w₁, k, w₂, rfl, hk, hw⟩ := exists_between hu rfl
  have hm := suffix_mem_trails (u := key x.tag :: w₁) (s := k :: (w₂ ++ key e.tag :: v))
    (by simpa using ht) (by simp)
  have hin := trail_inside hf he hm
  obtain ⟨y, hy, rfl⟩ := exists_of_head hin
  refine ⟨y, hy, hk, ?_, w₂, hin, hw⟩
  exact mem_inner_of_trail (w := w₁) (v := w₂ ++ key e.tag :: v) hf hx (he.inner hy)
    (by simpa using ht)

/-- What is in a cell of a row is in one that the row has. -/
theorem exists_cell {x : Element} {w v : List Key} (hf : f.Numbered) (hx : f.Has x) (he : f.Has e)
    (hr : e.tag.name = Names.row)
    (ht : key x.tag :: (w ++ key e.tag :: v) ∈ trails [] f.attached)
    (hu : Enclosed Names.row [Names.cell] false ((w ++ key e.tag :: v).map (·.name))) :
    ∃ c ∈ Row.cells e, x ∈ c.inner.elements := by
  obtain ⟨y, hy, hn, hxy, w₂, hin, hw⟩ := exists_enclosing hf hx he ht (hr ▸ hu)
  obtain ⟨c, hc, hk⟩ : ∃ c ∈ within Names.cell Names.row e.inner, key c.tag = key y.tag :=
    exists_within (List.mem_singleton.1 hn) (hr ▸ hw) hin
  have hce : f.Has c := he.inner (mem_within (a := []) hc).1
  exact ⟨c, hc, hf.eq_of_id hce (he.inner hy) (congrArg Key.id hk) ▸ hxy⟩

/-- What is in a row of a table is in one that the table has. -/
theorem table_rows_ne_nil {x : Element} {w v : List Key} (hf : f.Numbered) (hx : f.Has x)
    (he : f.Has e) (hn : e.tag.name = Names.table)
    (ht : key x.tag :: (w ++ key e.tag :: v) ∈ trails [] f.attached)
    (hu : Enclosed Names.table [Names.row] false ((w ++ key e.tag :: v).map (·.name))) :
    Table.rows e ≠ [] := by
  obtain ⟨y, -, hyn, -, w₂, hin, hw⟩ := exists_enclosing hf hx he ht (hn ▸ hu)
  obtain ⟨r, hr, -⟩ : ∃ r ∈ within Names.row Names.table e.inner, key r.tag = key y.tag :=
    exists_within (List.mem_singleton.1 hyn) (hn ▸ hw) hin
  exact List.ne_nil_of_mem hr

end Lost

section Empty

variable {f f' : Forest} {q e : Element} {u w v : List Key} (hf : f.Numbered)
  (hq : Standing u f q) (hne : Paragraph.text q ≠ [])

include hf hq hne

/-- No paragraph with text is in one that has neither text nor anything else to show. -/
theorem not_in_paragraph (he : f.Has e) (hp : e.tag.name = Names.paragraph)
    (hm : Paragraph.isEmpty e = true) : key q.tag :: u ≠ w ++ key e.tag :: v := by
  intro h
  obtain ⟨hs, ht⟩ := hq.place hne
  simp only [Paragraph.isEmpty, Bool.and_eq_true, decide_eq_true_eq, Bool.not_eq_true'] at hm
  cases w with
  | nil =>
    obtain ⟨hk, -⟩ := List.cons.inj h
    obtain rfl := hf.eq_of_id hq.has he (congrArg Key.id hk)
    exact hne hm.1
  | cons k w =>
    obtain ⟨rfl, rfl⟩ := List.cons.inj h
    obtain ⟨y, hy, hye, -⟩ := exists_enclosing hf hq.has he ht (hp ▸ hs.paragraphs)
    exact absurd hm.2 (by simpa using ⟨y, hy, hye⟩)

theorem not_in_row (he : f.Has e) (hr : e.tag.name = Names.row) (hm : Row.isEmpty e = true) :
    key q.tag :: u ≠ w ++ key e.tag :: v := by
  intro h
  obtain ⟨hs, ht⟩ := hq.place hne
  cases w with
  | nil =>
    obtain ⟨hk, -⟩ := List.cons.inj h
    exact absurd (hq.name.symm.trans ((congrArg Key.name hk).trans hr)) (by decide)
  | cons k w =>
    obtain ⟨rfl, rfl⟩ := List.cons.inj h
    obtain ⟨c, hc, hqc⟩ := exists_cell hf hq.has he hr ht hs.rows
    have hempty := List.all_eq_true.1 (List.all_eq_true.1 hm c hc) q
      (List.mem_filter.2 ⟨hqc, by simpa using hq.name⟩)
    simp only [Paragraph.isEmpty, Bool.and_eq_true, decide_eq_true_eq] at hempty
    exact hne hempty.1

theorem not_in_table (he : f.Has e) (hn : e.tag.name = Names.table) (hm : Table.rows e = []) :
    key q.tag :: u ≠ w ++ key e.tag :: v := by
  intro h
  obtain ⟨hs, ht⟩ := hq.place hne
  cases w with
  | nil =>
    obtain ⟨hk, -⟩ := List.cons.inj h
    exact absurd (hq.name.symm.trans ((congrArg Key.name hk).trans hn)) (by decide)
  | cons k w =>
    obtain ⟨rfl, rfl⟩ := List.cons.inj h
    exact table_rows_ne_nil hf hq.has he hn ht hs.tables hm

end Empty

/-! ## What edits keep -/

section Edits

variable {f f' : Forest} {q e : Element} {u : List Key}

/-- A paragraph that is kept stands where it stood, if its trail is kept. -/
theorem Standing.of_kept (h : Standing u f q) (hk : Kept f' q)
    (ht : Paragraph.text q ≠ [] → key q.tag :: u ∈ trails [] f.attached →
      key q.tag :: u ∈ trails [] f'.attached) :
    ∃ q', q'.tag = q.tag ∧ pieces (Paragraph.segments q') = pieces (Paragraph.segments q) ∧
      Standing u f' q' := by
  obtain ⟨q', hq', htag, ha⟩ := hk
  have htext : Paragraph.text q' = Paragraph.text q := text_of_pieces ha.pieces
  refine ⟨q', htag, ha.pieces, hq', htag ▸ h.name, ha.firm, fun hne => ?_⟩
  obtain ⟨hs, hm⟩ := h.place (htext ▸ hne)
  exact ⟨hs, htag ▸ ht (htext ▸ hne) hm⟩

/-- A paragraph with text stays in its place when it is revised or another one is. -/
theorem Standing.trail_revised {n : Nat} {come : List Key → Prop} {but : Nat → Prop}
    (h : Standing u f q) (hne : Paragraph.text q ≠ []) (hr : Frame Spent come n but f f') :
    key q.tag :: u ∈ trails [] f'.attached := by
  obtain ⟨hu, ht⟩ := h.place hne
  refine (hr.shift.lost _ ht).resolve_right ?_
  rintro ⟨w, v, heq, hspent⟩
  exact not_spent h.name hu heq hspent

theorem Standing.revised {n : Nat} {come : List Key → Prop} {but : Nat → Prop}
    (h : Standing u f q) (hb : ¬but q.tag.id) (hr : Frame Spent come n but f f') :
    ∃ q', q'.tag = q.tag ∧ pieces (Paragraph.segments q') = pieces (Paragraph.segments q) ∧
      Standing u f' q' :=
  h.of_kept (hr.kept q h.has h.name hb h.firm) fun hne _ => h.trail_revised hne hr

theorem trail_inserted {cs : List Char} {new : Element} (hi : Inserted f f' e cs new)
    {t : List Key} (ht : t ∈ trails [] f.attached) : t ∈ trails [] f'.attached := by
  rcases hi.trails with ha | ⟨v, front, inner, back, h₁, h₂⟩
  · exact ha ▸ ht
  · rw [h₁] at ht
    rw [h₂]
    simp only [List.mem_append] at ht ⊢
    tauto

theorem trail_listed {lines : List (List Char)} {items : List Element}
    (hl : Listed e f lines items f') {t : List Key} (ht : t ∈ trails [] f.attached) :
    t ∈ trails [] f'.attached := by
  induction hl with
  | nil => exact ht
  | cons hi _ ih => exact ih (trail_inserted hi ht)

theorem Standing.listed {lines : List (List Char)} {items : List Element} (h : Standing u f q)
    (hf : f.Numbered) (hl : Listed e f lines items f') :
    ∃ q', q'.tag = q.tag ∧ pieces (Paragraph.segments q') = pieces (Paragraph.segments q) ∧
      Standing u f' q' :=
  h.of_kept ((hl.step hf).kept q h.has h.name id h.firm) fun _ hm => trail_listed hl hm

theorem Standing.cleanedRow (h : Standing u f q) (hf : f.Numbered) (hc : CleanedRow f f') :
    Paragraph.text q ≠ [] → key q.tag :: u ∈ trails [] f'.attached := by
  intro hne
  have hm := (h.place hne).2
  have row : ∀ {r : Element}, f.element? r.tag.id = some r → r.tag.name = Names.row →
      Row.isEmpty r = true → key q.tag :: u ∈ trails [] (removed f r.tag.id).attached := by
    intro r hr hn he
    refine (trail_removed hf hr hm).resolve_right ?_
    rintro ⟨w, v, heq⟩
    exact not_in_row hf h hne (hf.element?_eq_some.1 hr).1 hn he heq
  cases hc with
  | none => exact hm
  | row hr hn he _ => exact row hr hn he
  | @table r t t' hr hn he ht ht' hrows =>
    obtain ⟨h₁, h₂⟩ : Loss f.next (fun _ => False) f _ ∧ _ := removed_table hf hr hn ht
    have hf₁ := h₁.numbered
    obtain ⟨q₁, htag, hp₁, hq₁⟩ := h.of_kept (h₁.kept q h.has h.name id h.firm)
      fun _ _ => row hr hn he
    have hne₁ : Paragraph.text q₁ ≠ [] := text_of_pieces hp₁ ▸ hne
    obtain ⟨hhas, hid⟩ := hf₁.element?_eq_some.1 ht'
    rw [← hid] at ht' ⊢
    have hm₁ := (hq₁.place hne₁).2
    rw [htag] at hm₁
    refine (trail_removed hf₁ ht' hm₁).resolve_right ?_
    rintro ⟨w, v, heq⟩
    exact not_in_table hf₁ hq₁ hne₁ hhas (h₂ t' (hid ▸ ht')) hrows (htag ▸ heq)

/-- What is cleaned away behind a paragraph shows no text. -/
theorem Standing.cleaned {p : Nat} (h : Standing u f q) (hf : f.Numbered)
    (hp : ∀ e, f.element? p = some e → e.tag.name = Names.paragraph) (hc : Cleaned p f f') :
    ∃ q', q'.tag = q.tag ∧ pieces (Paragraph.segments q') = pieces (Paragraph.segments q) ∧
      Standing u f' q' := by
  cases hc with
  | none => exact ⟨q, rfl, rfl, h⟩
  | @away e f₁ _ he hm h₁ h₂ =>
    obtain ⟨hhas, rfl⟩ := hf.element?_eq_some.1 he
    have htext : Paragraph.text e = [] := by
      simp only [Paragraph.isEmpty, Bool.and_eq_true, decide_eq_true_eq] at hm
      exact hm.1
    have hl : Loss f.next (fun _ => False) f f₁ := lifted_frame hf hp
      (fun e' he' ht => absurd (Option.some.inj (he'.symm.trans he) ▸ htext) ht) h₁
    obtain ⟨q₁, htag₁, hp₁, hq₁⟩ := h.of_kept (hl.kept q h.has h.name id h.firm) fun hne hm₀ => by
      refine (trail_lifted hf he h₁ hm₀).resolve_right ?_
      rintro ⟨w, v, heq⟩
      exact not_in_paragraph hf h hne hhas (hp e he) hm heq
    have hr : Loss f₁.next (fun _ => False) f₁ f' := cleanedRow_frame hl.numbered h₂
    obtain ⟨q₂, htag₂, hp₂, hq₂⟩ := hq₁.of_kept (hr.kept q₁ hq₁.has hq₁.name id hq₁.firm)
      fun hne _ => hq₁.cleanedRow hl.numbered h₂ hne
    exact ⟨q₂, htag₂.trans htag₁, hp₂.trans hp₁, hq₂⟩

end Edits

end MailMerge.Word
