import MailMerge.Proofs.Spared

/-!
# Cleaning up behind a paragraph

Which elements are looked at behind a paragraph that has been emptied, and what becomes of them
(`Tidied`): the innermost row around the innermost cell goes away if it is empty. In a document of
the right shape all this spares the other paragraphs (`Tidied.spares`), and so does a replacement as
a whole (`Replaced.spares`).
-/

namespace MailMerge.Word

open MailMerge.Xml

variable {f f' : Forest} {e r : Element} {t u v : List Key}

/-! ## What is around a paragraph -/

/-- The innermost element of a name, as a part of the trail. -/
theorem nearest?_of_trail {name : Name} {around : List Element} {x : Element}
    (h : nearest? name ⟨e, around⟩ = some x) : x ∈ around ∧ x.tag.name = name ∧ ∃ w v,
      around.map (fun x => key x.tag) = w ++ key x.tag :: v ∧ ∀ z ∈ w, z.name ≠ name := by
  obtain ⟨hn, front, back, rfl, hfront⟩ := List.find?_eq_some_iff_append.1 h
  refine ⟨by simp, of_decide_eq_true hn, _, _, by rw [List.map_append, List.map_cons], ?_⟩
  rintro z hz
  obtain ⟨y, hy, rfl⟩ := List.mem_map.1 hz
  simpa using hfront y hy

theorem nearest?_eq_none {name : Name} {around : List Element}
    (h : nearest? name ⟨e, around⟩ = none) :
    ∀ k ∈ around.map (fun x => key x.tag), k.name ≠ name := by
  intro k hk
  obtain ⟨x, hx, rfl⟩ := List.mem_map.1 hk
  simpa using List.find?_eq_none.1 h x hx

/-- What is around an attached element is attached. -/
theorem attached_of_nearest? {name : Name} {place : Content.Place} {x : Element} (hf : f.Numbered)
    (he : e ∈ f.attached.elements) (hplace : f.place? e.tag.id = some place)
    (hx : nearest? name place = some x) : x ∈ f.attached.elements ∧ x.tag.name = name ∧
      ∃ w v, key e.tag :: (w ++ key x.tag :: v) ∈ trails [] f.attached := by
  obtain ⟨u, ht⟩ := exists_root_trail he
  obtain ⟨around, hplace', rfl, hhas⟩ := place?_of_trail hf (.inl he) ht
  obtain rfl := Option.some.inj (hplace.symm.trans hplace')
  obtain ⟨hxa, hxn, w, v, hw, -⟩ := nearest?_of_trail hx
  rw [hw] at ht
  have hxt := suffix_mem_trails (u := key e.tag :: w) (s := key x.tag :: v) ht (by simp)
  exact ⟨mem_attached hf (hhas x hxa) hxt, hxn, w, v, ht⟩

/-- The first element of a kind is at one place. -/
theorem first_unique {α : Type} {p : α → Prop} {a b : α} {l l' m m' : List α}
    (h : l ++ a :: m = l' ++ b :: m') (ha : p a) (hb : p b) (hl : ∀ x ∈ l, ¬p x)
    (hl' : ∀ x ∈ l', ¬p x) : a = b ∧ m = m' := by
  induction l generalizing l' with
  | nil =>
    cases l' with
    | nil => exact List.cons.inj h
    | cons y l' => exact absurd ((List.cons.inj h).1 ▸ ha) (hl' y List.mem_cons_self)
  | cons x l ih =>
    cases l' with
    | nil => exact absurd ((List.cons.inj h).1 ▸ hb) (hl x List.mem_cons_self)
    | cons y l' =>
      exact ih (List.cons.inj h).2 (fun z hz => hl z (.tail _ hz)) fun z hz => hl' z (.tail _ hz)

/-- The innermost row around the innermost cell on a trail, with the trail that leads on from it. -/
def RowAround (u : List Key) (r : Key) (v : List Key) : Prop :=
  r.name = Names.row ∧ ∃ w c w', u = w ++ c :: (w' ++ r :: v) ∧ c.name = Names.cell ∧
    (∀ z ∈ w, z.name ≠ Names.cell) ∧ ∀ z ∈ w', z.name ≠ Names.row

/-- What comes of cleaning up behind the paragraph `e`, around which `u` is: nothing if it is not
empty; else it is lifted, and its row goes if it is empty, and with it its table if it has no rows
then. -/
inductive Tidied (e : Element) (u : List Key) (f : Forest) : Forest → Prop
  | full (h : Paragraph.isEmpty e = false) : Tidied e u f f
  | lifted {f₁ : Forest} (h : Paragraph.isEmpty e = true) (hl : Lifted e.tag.id f f₁)
      (hr : ∀ r v, RowAround u (key r.tag) v → f₁.Has r → Row.isEmpty r = false) : Tidied e u f f₁
  | row {f₁ : Forest} {r : Element} {v : List Key} (h : Paragraph.isEmpty e = true)
      (hl : Lifted e.tag.id f f₁) (hr : f₁.Has r) (hu : RowAround u (key r.tag) v)
      (hm : Row.isEmpty r = true) : Tidied e u f (removed f₁ r.tag.id)
  | table {f₁ : Forest} {r t : Element} {v w v' : List Key} (h : Paragraph.isEmpty e = true)
      (hl : Lifted e.tag.id f f₁) (hr : f₁.Has r) (hu : RowAround u (key r.tag) v)
      (hm : Row.isEmpty r = true) (hv : v = w ++ key t.tag :: v') (hn : t.tag.name = Names.table)
      (ht : (removed f₁ r.tag.id).Has t) (hrows : Table.rows t = []) :
      Tidied e u f (removed (removed f₁ r.tag.id) t.tag.id)

section Around

variable (hf : f.Numbered) (he : f.Has e) (ht : key e.tag :: u ∈ trails [] f.attached)
  (hs : t <:+ u) (hne : t ≠ [])

include hf ht hs hne

/-- What is around an element is attached, and not in the element. -/
theorem mem_trails_of_suffix : t ∈ trails [] f.attached ∧ ∀ w v, t ≠ w ++ key e.tag :: v := by
  obtain ⟨w, rfl⟩ := hs
  have hm : t ∈ trails [] f.attached :=
    suffix_mem_trails (u := key e.tag :: w) ht (List.length_pos_iff.2 hne)
  refine ⟨hm, ?_⟩
  rintro w' v rfl
  have hself := suffix_mem_trails (u := w') (s := key e.tag :: v) hm (by simp)
  have hlen := congrArg List.length (trail_eq_of_id hf.attached ht hself rfl)
  simp only [List.length_cons, List.length_append] at hlen
  omega

include he

theorem around_of_lifted (hl : Lifted e.tag.id f f') : t ∈ trails [] f'.attached := by
  obtain ⟨hm, hno⟩ := mem_trails_of_suffix hf ht hs hne
  refine (trail_lifted hf (hf.element?_of_has he) hl hm).resolve_right ?_
  rintro ⟨w, v, h⟩
  exact hno w v h

theorem around_of_removed : t ∈ trails [] (removed f e.tag.id).attached := by
  obtain ⟨hm, hno⟩ := mem_trails_of_suffix hf ht hs hne
  refine (trail_removed hf (hf.element?_of_has he) hm).resolve_right ?_
  rintro ⟨w, v, h⟩
  exact hno w v h

end Around

section Clean

variable {d : Document} {stats : Stats}

/-- A row goes whose trail is known, and with it the table around it. -/
theorem cleanRow_tidied (hd : d.forest.Numbered) (hm : Paragraph.isEmpty e = true)
    (hl : Lifted e.tag.id f d.forest) (hr : d.forest.Has r)
    (ht : key r.tag :: v ∈ trails [] d.forest.attached) (hu : RowAround u (key r.tag) v)
    (hrow : Row.isEmpty r = true) : Meets (Merge.cleanRow r.tag.id stats) d
      (fun _ d' => Tidied e u f d'.forest) fun _ _ => False := by
  refine cleanRow_cases.mono ?_ fun _ _ h => h
  rintro _ d' ⟨-, ⟨-, hf', -⟩ | ⟨-, t, t', htab, ht', hrows, hf'⟩⟩
  · exact hf' ▸ .row hm hl hr hu hrow
  · have hloss : Loss d.forest.next (fun _ => False) d.forest (removed d.forest r.tag.id) :=
      removed_row hd (hd.element?_of_has hr) hu.1
    obtain ⟨around, hplace, rfl, hhas⟩ := place?_of_trail hd hr ht
    rw [Merge.around?, hplace, Option.bind_some] at htab
    obtain ⟨hta, htn, w, v', hv, -⟩ := nearest?_of_trail htab
    obtain ⟨hht', hid⟩ := hloss.numbered.element?_eq_some.1 ht'
    -- The table is still the same one without the row.
    obtain ⟨x, hx, hk⟩ := hloss.known t' hht' (hid ▸ hd.has_lt (hhas t hta))
    obtain rfl := hd.eq_of_id hx (hhas t hta) ((congrArg Key.id hk).trans hid)
    rw [← hid] at hf'
    refine hf' ▸ .table hm hl hr hu hrow (hk ▸ hv) ?_ hht' hrows
    exact (congrArg Key.name hk).symm.trans htn

/-- What is done with the cell around a lifted paragraph. -/
theorem cleanCell_tidied {c : Key} {w : List Key} (hf : f.Numbered) (hd : d.forest.Numbered)
    (he : f.Has e) (ht : key e.tag :: u ∈ trails [] f.attached) (hm : Paragraph.isEmpty e = true)
    (hl : Lifted e.tag.id f d.forest) (hu : u = w ++ c :: v) (hc : c.name = Names.cell)
    (hw : ∀ z ∈ w, z.name ≠ Names.cell) :
    Meets (Merge.cleanCell c.id stats) d (fun _ d' => Tidied e u f d'.forest)
      fun _ _ => False := by
  have hct : c :: v ∈ trails [] d.forest.attached :=
    around_of_lifted hf he ht ⟨w, hu.symm⟩ (by simp) hl
  obtain ⟨x, hx, rfl⟩ := exists_of_head hct
  obtain ⟨around, hplace, rfl, hhas⟩ := place?_of_trail hd (.inl hx) hct
  -- The row that the cell is looked at for is empty only if the cell is.
  have first : ∀ r v, RowAround u (key r.tag) v → d.forest.Has r → Row.isEmpty r = true →
      Cell.isEmpty x = true ∧ nearest? Names.row ⟨x, around⟩ = some r := by
    rintro r v ⟨hrn, w₂, c₂, w', hu', hc₂, hw₂, hw'⟩ hr hempty
    obtain ⟨-, hv⟩ := first_unique (p := fun k => k.name = Names.cell) (hu.symm.trans hu') hc hc₂
      hw hw₂
    refine ⟨?_, ?_⟩
    · rw [hv] at hct
      obtain ⟨y, hy, hk⟩ := exists_within hc hw' (trail_inside hd hr hct)
      obtain rfl := hd.eq_of_id (hr.inner (mem_within (a := []) hy).1) (.inl hx)
        (congrArg Key.id hk)
      exact List.all_eq_true.1 hempty y hy
    · cases hnear : nearest? Names.row ⟨x, around⟩ with
      | none => exact absurd hrn (nearest?_eq_none hnear _ (by simp [hv]))
      | some r₁ =>
        obtain ⟨hra, hrn₁, w₁, v₁, hv₁, hw₁⟩ := nearest?_of_trail hnear
        obtain ⟨hk, -⟩ := first_unique (p := fun k => k.name = Names.row) (hv₁.symm.trans hv) hrn₁
          hrn hw₁ hw'
        exact congrArg some (hd.eq_of_id (hhas r₁ hra) hr (congrArg Key.id hk))
  refine cleanCell_meets (fun hstays => .lifted hm hl fun r v hr hhr => ?_)
    fun place r hplace' _ hnear hrow => ?_
  · rw [← Bool.not_eq_true]
    intro hempty
    obtain ⟨hcell, hnear⟩ := first r v hr hhr hempty
    simp [hstays ⟨x, around⟩ r hplace hcell hnear] at hempty
  · obtain rfl := Option.some.inj (hplace.symm.trans hplace')
    obtain ⟨hra, hrn, w₁, v₁, hv₁, hw₁⟩ := nearest?_of_trail hnear
    have hrt : key r.tag :: v₁ ∈ trails [] d.forest.attached := by
      rw [hv₁] at hct
      exact suffix_mem_trails (u := key x.tag :: w₁) hct (by simp)
    refine cleanRow_tidied hd hm hl (hhas r hra) hrt ⟨hrn, w, _, w₁, ?_, hc, hw, hw₁⟩ hrow
    rw [hu, hv₁]

theorem clean_tidied (hd : d.forest.Numbered) (he : d.forest.Has e)
    (hp : e.tag.name = Names.paragraph) (ht : key e.tag :: u ∈ trails [] d.forest.attached) :
    Meets (Merge.clean e.tag.id stats) d (fun _ d' => Tidied e u d.forest d'.forest)
      fun _ _ => False := by
  obtain ⟨around, hplace, hmap, -⟩ := place?_of_trail hd he ht
  have hpar : ∀ x, d.forest.element? e.tag.id = some x → x.tag.name = Names.paragraph := by
    intro x hx
    exact Option.some.inj ((hd.element?_of_has he).symm.trans hx) ▸ hp
  refine clean_meets (fun hfull => .full (hfull _ hplace)) fun place hplace' hm => ?_
  obtain rfl := Option.some.inj (hplace.symm.trans hplace')
  refine (removeParagraph_spec e.tag.id d.forest).mono ?_ fun _ _ h => h
  rintro - _ h₁ stats₁ d₁ - - rfl
  refine ⟨fun hcell => .lifted hm h₁ ?_, fun c hcell => ?_⟩
  · rintro r v ⟨-, w, c, w', hu, hc, -⟩ _
    exact absurd hc (nearest?_eq_none hcell c (by simp [hmap, hu]))
  · obtain ⟨-, hcn, w, v, hu, hw⟩ := nearest?_of_trail hcell
    exact cleanCell_tidied (c := key c.tag) hd (h₁.move hd hpar).numbered he ht hm h₁
      (hmap.symm.trans hu) hcn hw

end Clean

/-- Cleaning up spares all other paragraphs. -/
theorem Tidied.spares (hf : f.Numbered) (hs : InShape f) (he : f.Has e)
    (hp : e.tag.name = Names.paragraph) (ht : key e.tag :: u ∈ trails [] f.attached)
    (h : Tidied e u f f') : Spares (key e.tag :: u) f f' := by
  -- A row without text is taken away from around the lifted paragraph.
  have away : ∀ {f₁ : Forest} {r : Element} {v : List Key}, Paragraph.isEmpty e = true →
      Lifted e.tag.id f f₁ → f₁.Has r → RowAround u (key r.tag) v → Row.isEmpty r = true →
        Spares (key e.tag :: u) f (removed f₁ r.tag.id) ∧ f₁.Numbered ∧ InShape f₁ ∧
          key r.tag :: v ∈ trails [] f₁.attached := by
    rintro f₁ r v hm hl hr ⟨hrn', w, c, w', rfl, -⟩ hrow
    have hrn : r.tag.name = Names.row := hrn'
    have h₁ := hl.spares hf hs hp hm he ht
    have hf₁ := h₁.step.numbered
    have hs₁ := h₁.step.inShape hs
    have hrt : key r.tag :: v ∈ trails [] f₁.attached :=
      around_of_lifted hf he ht ⟨w ++ c :: w', by simp⟩ (by simp) hl
    refine ⟨h₁.trans ((spares_removed hf₁ hr hrt (by simp [hrn]) (fun x hx hxp => ?_)
      fun _ _ _ => hrn).mono (List.IsSuffix.subset ⟨key e.tag :: (w ++ c :: w'), by simp⟩)) hf, hf₁,
      hs₁, hrt⟩
    rw [Content.mem_element_nil] at hx
    rcases hx with rfl | hx
    · exact absurd (hxp.symm.trans hrn) (by decide)
    · exact (hs₁.row_isEmpty_iff hf₁ (mem_attached hf₁ hr hrt) hrn).1 hrow x hx hxp
  cases h with
  | full => exact .refl hf
  | lifted hm hl _ => exact hl.spares hf hs hp hm he ht
  | row hm hl hr hu hrow => exact (away hm hl hr hu hrow).1
  | @table f₁ r t v w v' hm hl hr hu hrow hv hn htab hrows =>
    obtain ⟨h₂, hf₁, hs₁, hrt⟩ := away hm hl hr hu hrow
    have hf₂ := h₂.step.numbered
    have htt : key t.tag :: v' ∈ trails [] (removed f₁ r.tag.id).attached :=
      around_of_removed hf₁ hr hrt ⟨w, hv.symm⟩ (by simp)
    have hno := (h₂.step.inShape hs).notMem_of_rows_eq_nil hf₂ (mem_attached hf₂ htab htt) hn hrows
    obtain ⟨-, w₁, c, w₂, hu, -⟩ := hu
    refine h₂.trans ((spares_removed hf₂ htab htt (by simp [hn]) (fun x hx hxp => ?_)
      fun x hx hxp => absurd hxp (hno x hx)).mono
        (List.IsSuffix.subset ⟨key e.tag :: (w₁ ++ c :: (w₂ ++ key r.tag :: w)), by simp [hu, hv]⟩)) hf
    rw [Content.mem_element_nil] at hx
    rcases hx with rfl | hx
    · exact absurd (hxp.symm.trans hn) (by decide)
    · exact absurd hxp (hno x hx)

/-! ## Replacements -/

/-- What comes of a replacement in the paragraph `e`, around which `u` is. The first of `lines` is
written into it, and the other ones are list items. -/
inductive Replaced (f : Forest) (e : Element) (u : List Key) (lines : List (List Char))
    (f' : Forest) : Prop
  | mk {f₁ f₂ : Forest} {e₁ e₂ : Element} {items : List Element}
    (revised : Revised e.tag.id f f₁) (has₁ : f₁.Has e₁) (key₁ : key e₁.tag = key e.tag)
    (trail₁ : key e.tag :: u ∈ trails [] f₁.attached) (listed : Listed e₁ f₁ lines.tail items f₂)
    (has₂ : f₂.Has e₂) (key₂ : key e₂.tag = key e.tag)
    (trail₂ : key e.tag :: u ∈ trails [] f₂.attached) (tidied : Tidied e₂ u f₂ f')

/-- The forest in which it is cleaned up behind the paragraph. -/
theorem Replaced.exists_tidied {lines : List (List Char)} (h : Replaced f e u lines f')
    (hf : f.Numbered) (hs : InShape f) (he : f.Has e) (hp : e.tag.name = Names.paragraph)
    (ht : key e.tag :: u ∈ trails [] f.attached) : ∃ f₂ e₂, Spares (key e.tag :: u) f f₂ ∧
      InShape f₂ ∧ f₂.Has e₂ ∧ key e₂.tag = key e.tag ∧ key e₂.tag :: u ∈ trails [] f₂.attached ∧
        Tidied e₂ u f₂ f' := by
  obtain @⟨f₁, f₂, e₁, e₂, items, hr, h₁, hk₁, ht₁, hl, h₂, hk₂, ht₂, htidy⟩ := h
  have hspares₁ : Spares (key e.tag :: u) f f₁ := by
    rcases hr with rfl | ⟨x, s, k, rest, inner, hx, -, -, hr⟩
    · exact .refl hf
    · obtain rfl := Option.some.inj ((hf.element?_of_has he).symm.trans hx)
      exact hr.spares hf hs hp ht
  have hf₁ := hspares₁.step.numbered
  have hspares₂ : Spares (key e.tag :: u) f₁ f₂ :=
    (hl.spares hf₁ (hk₁ ▸ ht₁)).mono (List.subset_cons_self ..)
  exact ⟨f₂, e₂, hspares₁.trans hspares₂ hf, hspares₂.step.inShape (hspares₁.step.inShape hs), h₂,
    hk₂, hk₂ ▸ ht₂, htidy⟩

theorem Replaced.spares {lines : List (List Char)} (h : Replaced f e u lines f') (hf : f.Numbered)
    (hs : InShape f) (he : f.Has e) (hp : e.tag.name = Names.paragraph)
    (ht : key e.tag :: u ∈ trails [] f.attached) : Spares (key e.tag :: u) f f' := by
  obtain ⟨f₂, e₂, hspares, hs₂, h₂, hk, ht₂, htidy⟩ := h.exists_tidied hf hs he hp ht
  have hp₂ : e₂.tag.name = Names.paragraph := (congrArg Key.name hk).trans hp
  exact hspares.trans (hk ▸ htidy.spares hspares.step.numbered hs₂ h₂ hp₂ ht₂) hf

section Substitute

variable {d : Document} {stats : Stats} {s : Substitution}

/-- The paragraph in which a replacement is made has text, as it has the tag. -/
theorem substitute_text (hs : s.tag.found.text ≠ []) : Meets (Merge.substitute stats s) d
    (fun _ _ => ∃ e, d.forest.element? s.tag.paragraph = some e ∧ Paragraph.text e ≠ [])
    fun _ _ => True := by
  simp only [Merge.substitute, meets_bind, meets_report, meets_view]
  split
  · trivial
  next htext =>
  rw [ne_eq, not_not] at htext
  have hne : ∃ e, d.forest.element? s.tag.paragraph = some e ∧ Paragraph.text e ≠ [] := by
    cases he : d.forest.element? s.tag.paragraph with
    | none => simp [he, hs.symm] at htext
    | some e =>
      refine ⟨e, rfl, fun hnil => hs ?_⟩
      rw [← htext]
      simp [he, hnil]
  exact (meets_self _ _).mono (fun _ _ _ => hne) fun _ _ _ => trivial

/-- A replacement in an attached paragraph. -/
theorem substitute_replaced (hd : d.forest.Numbered) (he : d.forest.Has e)
    (hid : e.tag.id = s.tag.paragraph) (hp : e.tag.name = Names.paragraph)
    (ht : key e.tag :: u ∈ trails [] d.forest.attached) : Meets (Merge.substitute stats s) d
      (fun _ d' => ∃ lines, (lines = [s.value] ∨ lines = Text.splitLines s.value) ∧
        Replaced d.forest e u lines d'.forest) fun _ _ => True := by
  have heq : d.forest.element? e.tag.id = some e := hd.element?_of_has he
  -- What is known of the forest after each of the three steps.
  refine Merge.substitute_rule
    (P := fun lines f₁ => (lines = [s.value] ∨ lines = Text.splitLines s.value) ∧
      Revised e.tag.id d.forest f₁ ∧ f₁.Numbered ∧ ∃ e₁ : Element, f₁.Has e₁ ∧
        key e₁.tag = key e.tag ∧ key e.tag :: u ∈ trails [] f₁.attached)
    (Q := fun lines f₂ => f₂.Numbered ∧ ∃ f₁ e₁ e₂ items,
      (lines = [s.value] ∨ lines = Text.splitLines s.value) ∧ Revised e.tag.id d.forest f₁ ∧
      f₁.Has e₁ ∧ key e₁.tag = key e.tag ∧ key e.tag :: u ∈ trails [] f₁.attached ∧
      Listed e₁ f₁ lines.tail items f₂ ∧ f₂.Has e₂ ∧ key e₂.tag = key e.tag ∧
      key e.tag :: u ∈ trails [] f₂.attached)
    (R := fun _ f' => ∃ lines, (lines = [s.value] ∨ lines = Text.splitLines s.value) ∧
      Replaced d.forest e u lines f') ?_ ?_ ?_
  · intro lines hlines
    rw [← hid]
    refine (replaceSpan_revised hd fun x hx => Option.some.inj (heq.symm.trans hx) ▸ hp).mono ?_
      fun _ _ _ => trivial
    intro _ f₁ hr
    refine ⟨hlines, hr, ?_⟩
    rcases hr with rfl | ⟨x, side, h, rest, inner, hx, -, -, hr⟩
    · exact ⟨hd, e, he, rfl, ht⟩
    · obtain rfl := Option.some.inj (heq.symm.trans hx)
      exact ⟨hr.frame.numbered, _, hr.has, rfl, hr.trail hd ht⟩
  · rintro lines f₁ ⟨hlines, hr, hf₁, e₁, h₁, hk₁, ht₁⟩
    have hid₁ : e₁.tag.id = s.tag.paragraph := (congrArg Key.id hk₁).trans hid
    rw [← hid₁]
    refine (addItems_spec lines.tail hf₁ h₁ ((congrArg Key.name hk₁).trans hp)).mono ?_
      fun _ _ _ => trivial
    rintro _ f₂ ⟨items, hl⟩
    have ht₂ := trail_listed hl ht₁
    obtain ⟨e₂, h₂, hk₂⟩ := exists_of_head ht₂
    exact ⟨(hl.step hf₁).numbered, f₁, e₁, e₂, items, hlines, hr, h₁, hk₁, ht₁, hl, .inl h₂, hk₂,
      ht₂⟩
  · rintro lines d' ⟨hf₂, f₁, e₁, e₂, items, hlines, hr, h₁, hk₁, ht₁, hl, h₂, hk₂, ht₂⟩
    have hid₂ : e₂.tag.id = s.tag.paragraph := (congrArg Key.id hk₂).trans hid
    rw [← hid₂]
    refine (clean_tidied hf₂ h₂ ((congrArg Key.name hk₂).trans hp) (hk₂ ▸ ht₂)).mono ?_
      fun _ _ h => h.elim
    exact fun _ d'' htidy => ⟨lines, hlines, hr, h₁, hk₁, ht₁, hl, h₂, hk₂, ht₂, htidy⟩

end Substitute

end MailMerge.Word
