import MailMerge.Proofs.Namesakes
import MailMerge.Proofs.Simultaneous

/-!
# Sections

The properties of a section stand at the end of the body, or in the properties of the paragraph that
the section ends with (`Seated`). A merge leaves them where they are (`Merge.sections_stay`): a
paragraph that ends a section is not taken away, and keeps its properties when it is emptied. But it
must not become several list items: each of them has a copy of the section
(`Merge.section_for_each_item`).
-/

namespace MailMerge

open Xml Xml.Reader Word

namespace Word

variable {f f' f'' : Forest} {e : Element} {k : Key} {t u v w : List Key} {p : Nat}

/-! ## Where sections are -/

/-- Whether section properties stand where they should: in no run, no row and no table, and in a
paragraph only if that has them, or others around them, in its own properties. -/
def Seated (t : List Name) : Prop :=
  t.head? = some Names.section_ → (∀ n ∈ t, n ∉ [Names.run, Names.row, Names.table]) ∧
    ∀ i : Fin t.length, t[i] = Names.paragraph →
      [Names.section_, Names.paragraphProperties] <:+ t.take i

instance : DecidablePred Seated := fun _ => inferInstanceAs (Decidable (_ → _ ∧ _))

/-- All section properties in the attached trees are where they should be. -/
abbrev SectionsSeated (f : Forest) : Prop := ∀ t ∈ trails [] f.attached, Seated (t.map (·.name))

theorem SectionsSeated.notMem (hs : SectionsSeated f) (ht : k :: u ∈ trails [] f.attached)
    (hk : k.name = Names.section_) : ∀ m ∈ k :: u,
      m.name ≠ Names.run ∧ m.name ≠ Names.row ∧ m.name ≠ Names.table := by
  intro m hm
  simpa using (hs _ ht (by simp [hk])).1 _ (List.mem_map_of_mem hm)

theorem SectionsSeated.between (hs : SectionsSeated f) {m : Key}
    (ht : k :: (w ++ m :: v) ∈ trails [] f.attached) (hk : k.name = Names.section_)
    (hm : m.name = Names.paragraph) : ∃ a x y, k :: w = a ++ [x, y] ∧
      x.name = Names.section_ ∧ y.name = Names.paragraphProperties := by
  obtain ⟨-, h⟩ := hs _ ht (by simp [hk])
  have hget := h ⟨(k :: w).length, by simp⟩ (by simp [hm])
  obtain ⟨a, ha⟩ := hget
  simp only [List.map_cons, List.map_append, List.length_cons, List.take_succ_cons] at ha
  rw [List.take_append_of_le_length (by simp), List.take_of_length_le (by simp)] at ha
  have hnames : (k :: w).map (·.name) = a ++ [Names.section_, Names.paragraphProperties] := by
    simpa using ha.symm
  obtain ⟨a, b, hab, -, hb⟩ := List.map_eq_append_iff.1 hnames
  obtain ⟨x, b, rfl, hx, hb⟩ := List.map_eq_cons_iff.1 hb
  obtain ⟨y, b, rfl, hy, hb⟩ := List.map_eq_cons_iff.1 hb
  obtain rfl := List.map_eq_nil_iff.1 hb
  exact ⟨a, x, y, hab, hx, hy⟩

/-- A paragraph around section properties ends a section. -/
theorem SectionsSeated.endsSection (hs : SectionsSeated f) (hf : f.Numbered) (he : f.Has e)
    (hp : e.tag.name = Names.paragraph) (ht : k :: (w ++ key e.tag :: v) ∈ trails [] f.attached)
    (hk : k.name = Names.section_) : Paragraph.endsSection e = true := by
  obtain ⟨a, x, y, hab, hx, hy⟩ := hs.between ht hk hp
  have ht' : a ++ x :: y :: key e.tag :: v ∈ trails [] f.attached := by
    have hsplit : k :: (w ++ key e.tag :: v) = (k :: w) ++ key e.tag :: v := rfl
    rw [hsplit, hab] at ht
    simpa using ht
  have hyt := suffix_mem_trails (u := a ++ [x]) (s := y :: key e.tag :: v) (by simpa using ht')
    (by simp)
  have hxt := suffix_mem_trails (u := a) (s := x :: y :: key e.tag :: v) ht' (by simp)
  have het := suffix_mem_trails (u := [y]) (s := key e.tag :: v) hyt (by simp)
  obtain ⟨q, hq, rfl⟩ := List.mem_map.1 ((mem_childKeys_iff_trail hf he het).2 hyt)
  have hqf := he.inner (Content.children_subset _ _ hq)
  obtain ⟨z, hz, rfl⟩ := List.mem_map.1 ((mem_childKeys_iff_trail hf hqf hyt).2 hxt)
  refine List.findSome?_isSome_iff.2 ⟨q, List.mem_filter.2 ⟨hq, decide_eq_true hy⟩, ?_⟩
  exact List.find?_isSome.2 ⟨z, hz, decide_eq_true hx⟩

/-! ## Edits that leave sections alone -/

/-- The same section properties stand in the same places. -/
abbrev SameSections : Forest → Forest → Prop := SameNamed Names.section_

theorem SameSections.seated (h : SameSections f f') (hs : SectionsSeated f) :
    SectionsSeated f' := by
  intro t ht hk
  cases t with
  | nil => cases hk
  | cons k u => exact hs _ ((h.trail k u (by simpa using hk)).1 ht) hk

theorem Spent.exists_run (h : Spent w v) : ∃ m ∈ w ++ v, m.name = Names.run := by
  cases h with
  | @shown w k m u hk hm => exact ⟨m, by simp, hm⟩
  | @run k u hk => exact ⟨k, by simp, hk⟩
  | @inRun w m k u hm hk => exact ⟨k, by simp, hk⟩

section Edits

variable (hf : f.Numbered) (hs : SectionsSeated f)

include hf hs

theorem Revised.sameSections (hr : Revised p f f') : SameSections f f' := by
  refine hr.sameNamed (by decide) (fun k u w v hk ht heq hspent => ?_) hf
  obtain ⟨m, hm, hrun⟩ := hspent.exists_run
  exact (hs.notMem ht hk m (heq ▸ hm)).1 hrun

omit hs in
/-- A list item behind a paragraph without section properties has none either. -/
theorem Inserted.sameSections {cs : List Char} {new : Element} (hi : Inserted f f' e cs new)
    (hno : ∀ u, key e.tag :: u ∈ Word.trails [] f.attached →
      ∀ x ∈ e.inner.elements, x.tag.name ≠ Names.section_) : SameSections f f' ∧
        ∀ u, key new.tag :: u ∈ Word.trails [] f'.attached →
          ∀ x ∈ new.inner.elements, x.tag.name ≠ Names.section_ := by
  have hstep : Step (fun _ => True) f f' :=
    hi.step.mono (Nat.le_refl _) (fun _ _ h => h) (fun _ h => h) fun _ h => h.elim
  rcases hi.trails with hsame | ⟨u, front, inner, back, ht, ht'⟩
  · refine ⟨⟨hstep, fun _ _ _ => by rw [hsame]⟩, fun u hu => ?_⟩
    have hlt := hf.side_lt .attached _ (mem_ids_iff_trail.2 ⟨_, _, hsame ▸ hu, rfl⟩)
    have hle := hi.ids new.tag.id (by simp)
    exact absurd hlt (Nat.not_lt.2 hle)
  · have hu : key e.tag :: u ∈ Word.trails [] f.attached := by simp [ht]
    have hin : e.inner.ids.Nodup := Content.nodup_inner hf.attached (mem_attached hf hi.old_has hu)
    have hnew : ∀ x ∈ new.inner.elements, x.tag.name ≠ Names.section_ := by
      intro x hx hn
      obtain ⟨q, hq, -, y, hy, hyn, -⟩ := hi.item.inside hin hx (hn ▸ by decide)
      exact hno u hu y (Content.mem_trans hq hy) (hyn.trans hn)
    refine ⟨⟨hstep, fun k v hk => ?_⟩, fun _ _ => hnew⟩
    rw [ht, ht']
    have : k :: v ∉ Word.trails u (.element new.tag new.inner .nil) := by
      intro hm
      obtain ⟨x, hx, rfl⟩ := exists_of_head hm
      rw [Content.mem_element_nil] at hx
      rcases hx with rfl | hx
      · exact absurd (hi.item.name.symm.trans hk) (by decide)
      · exact hnew x hx hk
    simp only [List.mem_append, this, or_false]

omit hs in
theorem Listed.sameSections {lines : List (List Char)} {items : List Element}
    (hl : Listed e f lines items f') (hno : ∀ u, key e.tag :: u ∈ trails [] f.attached →
      ∀ x ∈ e.inner.elements, x.tag.name ≠ Names.section_) : SameSections f f' := by
  induction hl with
  | nil => exact .refl hf
  | cons hi _ ih =>
    obtain ⟨h₁, hnew⟩ := hi.sameSections hf hno
    exact h₁.trans (ih h₁.step.numbered hnew)

theorem Lifted.sameSections (hp : ∀ e, f.element? p = some e → e.tag.name = Names.paragraph)
    (hl : Lifted p f f') : SameSections f f' := by
  have hloss : Loss f.next (fun _ => True) f f' := lifted_frame hf hp (fun _ _ _ => trivial) hl
  refine hloss.sameNamed fun k u hk ht => ?_
  cases hl with
  | none => exact ht
  | @away e parent above hplace _ hends =>
    have he : f.element? p = some e := Forest.element?_of_place? hplace
    refine (trail_detach hf he ht).resolve_right ?_
    rintro ⟨w, v, heq⟩
    cases w with
    | nil =>
      exact absurd ((congrArg Key.name (List.cons.inj heq).1).symm.trans hk) (by
        rw [key_name, hp e he]
        decide)
    | cons x w =>
      obtain ⟨rfl, rfl⟩ := List.cons.inj heq
      have := hs.endsSection hf (hf.element?_eq_some.1 he).1 (hp e he) ht hk
      simp [this] at hends
  | @emptied e parent above hplace =>
    have he : f.element? p = some e := Forest.element?_of_place? hplace
    obtain ⟨s, h, rest, hside, rfl, -⟩ := hf.place?_eq hplace
    rw [Forest.update_eq hf hside]
    cases s with
    | detached => exact ht
    | attached =>
      simp only [Forest.side, Forest.setSide] at hside ⊢
      have hin := ht
      rw [hside] at hin
      simp only [mem_trails_fill, trails, List.cons_append, List.mem_cons, List.mem_append] at hin ⊢
      refine hin.imp id (.imp (.imp id (.imp (fun hin => ?_) id)) id)
      -- What is dropped is not in the properties of the paragraph.
      have hswept : Swept (fun _ s => ∃ m : Key, m.name ≠ Names.paragraphProperties ∧
          s = m :: key e.tag :: Around.trail h []) (fun _ => True) f.next
          (key e.tag :: Around.trail h []) e.inner (Edit.propertiesOf e.inner) :=
        propertiesOf_swept (fun m hm _ => ⟨m, hm, rfl⟩) _
      refine (hswept.shift.lost _ hin).resolve_right ?_
      rintro ⟨w, _, heq, m, hm, rfl⟩
      have hsplit : k :: u = (w ++ [m]) ++ key e.tag :: Around.trail h [] := by simpa using heq
      obtain ⟨b, hb⟩ : ∃ b, w ++ [m] = k :: b := by
        cases w with
        | nil => exact ⟨[], by simp [(List.cons.inj heq).1]⟩
        | cons x w => exact ⟨w ++ [m], by simp [(List.cons.inj heq).1]⟩
      rw [hsplit, hb] at ht
      obtain ⟨a, x, y, hab, -, hy⟩ := hs.between ht hk (hp e he)
      have hlast : (w ++ [m]).getLast? = (a ++ [x, y]).getLast? := by rw [hb, hab]
      simp only [List.getLast?_append, List.getLast?_singleton, List.getLast?_cons_cons,
        Option.some_or, Option.some.injEq] at hlast
      exact hm (hlast ▸ hy)

theorem removed_sameSections (he : f.element? e.tag.id = some e)
    (hn : e.tag.name = Names.row ∨ e.tag.name = Names.table) :
    SameSections f (removed f e.tag.id) := by
  have hloss : Loss f.next (fun _ => True) f (removed f e.tag.id) := removed_frame hf fun x hx => by
    obtain rfl := Option.some.inj (hx.symm.trans he)
    exact List.mem_cons_of_mem _ (by simpa using hn)
  refine hloss.sameNamed fun k u hk ht => (trail_removed hf he ht).resolve_right ?_
  rintro ⟨w, v, heq⟩
  obtain ⟨-, hrow, htable⟩ := hs.notMem ht hk (key e.tag) (heq ▸ by simp)
  exact hn.elim hrow htable

theorem Cleaned.sameSections (hp : ∀ e, f.element? p = some e → e.tag.name = Names.paragraph)
    (hc : Cleaned p f f') : SameSections f f' := by
  cases hc with
  | none => exact .refl hf
  | @away e f₁ _ _ _ h₁ h₂ =>
    have hl := h₁.sameSections hf hs hp
    have hf₁ := hl.step.numbered
    have hs₁ := hl.seated hs
    cases h₂ with
    | none => exact hl
    | row hr hn _ _ => exact hl.trans (removed_sameSections hf₁ hs₁ hr (.inl hn))
    | @table r t t' hr hn _ ht ht' _ =>
      have h₂ := removed_sameSections hf₁ hs₁ hr (.inl hn)
      obtain ⟨-, htn⟩ : Loss f₁.next (fun _ => True) f₁ _ ∧ _ := removed_table hf₁ hr hn ht
      have hid : t'.tag.id = t.tag.id := (h₂.step.numbered.element?_eq_some.1 ht').2
      refine (hl.trans h₂).trans ?_
      rw [← hid] at ht' ⊢
      exact removed_sameSections h₂.step.numbered (h₂.seated hs₁) ht' (.inr (htn t' (hid ▸ ht')))

end Edits

end Word

namespace Merge

variable {fields : FieldMap} {d d₁ : Document} {found : List Story}

/-- The turn of a replacement, if its paragraph becomes several items only where no section ends. -/
theorem substitute_sameSections {f₀ : Forest} {d : Document} {s : Substitution} {stats : Stats}
    (hf : f₀.Numbered) (hseated : SectionsSeated f₀) (hp : NamesParagraph s.tag.paragraph f₀)
    (hone : ∀ p ∈ f₀.attached.elements, p.tag.id = s.tag.paragraph →
      Paragraph.endsSection p = true → (Text.splitLines s.value).length ≤ 1)
    (h : SameSections f₀ d.forest) :
    Meets (substitute stats s) d (fun _ d' => SameSections f₀ d'.forest) fun _ _ => True := by
  have names : ∀ {f}, SameSections f₀ f → NamesParagraph s.tag.paragraph f := fun h =>
    hp.move hf h.step.move
  refine substitute_rule (P := fun lines f => (lines.tail ≠ [] → lines = Text.splitLines s.value) ∧
    SameSections f₀ f) (Q := fun _ => SameSections f₀) (R := fun _ => SameSections f₀) ?_ ?_ ?_
  · intro lines hlines
    refine (replaceSpan_revised h.step.numbered (names h).2).mono ?_ fun _ _ _ => trivial
    exact fun _ f hr => ⟨fun hne => hlines.resolve_left fun e => hne (congrArg List.tail e),
      h.trans (hr.sameSections h.step.numbered (h.seated hseated))⟩
  · rintro lines f ⟨hlines, h⟩
    refine (addItems_cases lines.tail h.step.numbered (names h)).mono ?_ fun _ _ _ => trivial
    rintro _ f' (rfl | ⟨e, items, hid, hhas, hn, hl⟩)
    · exact h
    · by_cases hnil : lines.tail = []
      · rw [hnil] at hl
        cases hl
        exact h
      · refine h.trans (hl.sameSections h.step.numbered fun u hu x hx hxn => hnil ?_)
        -- A section in the paragraph has been there before, and the paragraph as well.
        obtain ⟨w, hw⟩ := exists_trail (key e.tag :: u) hx
        have hold := (h.trail _ _ hxn).1 (mem_trails_attached h.step.numbered hhas hu hw)
        have heold := suffix_mem_trails (u := key x.tag :: w) (s := key e.tag :: u) hold (by simp)
        obtain ⟨p, hpa, hk⟩ := exists_of_head heold
        have hpid : p.tag.id = e.tag.id := congrArg Key.id hk
        have hpn : p.tag.name = Names.paragraph := (congrArg Key.name hk).trans hn
        have hlen := hone p hpa (hpid.trans hid)
          (hseated.endsSection hf (.inl hpa) hpn (hk ▸ hold) hxn)
        rw [hlines hnil]
        exact List.length_eq_zero_iff.1 (by rw [List.length_tail]; omega)
  · intro lines d' h
    refine (clean_spec h.step.numbered (names h).2).mono ?_ fun _ _ h => h.elim
    rintro _ d'' ⟨-, hc⟩
    exact h.trans (hc.sameSections h.step.numbered (h.seated hseated) (names h).2)

/-- Where sections are in their places and none ends with a paragraph that gets several lines, a
merge neither drops a section nor makes one. -/
theorem sections_stay (hs : d.Sound) (hfound : Document.stories d = .ok found d₁)
    (hseated : SectionsSeated d₁.forest)
    (hone : ∀ s ∈ planned fields d₁.forest found, ∀ p ∈ d₁.forest.attached.elements,
      p.tag.id = s.tag.paragraph → Paragraph.endsSection p = true →
        (Text.splitLines s.value).length ≤ 1) : Meets (run fields) d
      (fun _ d' => (d'.forest.attached.named Names.section_).map (·.tag.id) =
        (d₁.forest.attached.named Names.section_).map (·.tag.id)) fun _ _ => True := by
  have hf := ((Meets.of_ok (Document.reading_stories hs) hfound).1.sound hs).numbered
  refine (meets_self (run fields) d).mono ?_ fun _ _ _ => trivial
  intro stats d' hrun
  obtain ⟨d₂, d₃, hl, happly, hl'⟩ := exists_apply hfound hrun
  have hall : Meets (apply (planned fields d₁.forest found) (opening fields d₁.forest found)) d₂
      (fun _ d' => SameSections d₁.forest d'.forest) fun _ _ => True := by
    refine apply_inv (fun _ _ _ f => SameSections d₁.forest f) ?_ ?_
    · rw [hl.forest]
      exact .refl hf
    · intro todo s done stats d' hchosen h
      have hm : s ∈ planned fields d₁.forest found := by simp [hchosen]
      exact substitute_sameSections hf hseated (namesParagraph_of_planned hf s hm) (hone s hm) h
  exact hl'.forest ▸ (hall.of_ok happly).ids hf

/-- A section that ends with a paragraph whose text goes away, a list item with two lines, and the
section at the end. -/
def twoSections : Document := .ofBody [
  Document.node Names.paragraph [
    Document.node Names.paragraphProperties [Document.node Names.section_ []],
    Document.textRun "<<B?>>"],
  Document.node Names.paragraph [
    Document.node Names.paragraphProperties [Document.node Names.numbering []],
    Document.textRun "<<C>>"],
  Document.node Names.section_ []]

theorem sections_stay_twoSections : ∃ stats d', run letterFields twoSections = .ok stats d' ∧
    stats.applied = 2 ∧ stats.items = 1 ∧
    (d'.forest.attached.named Names.section_).length = 2 := by
  have hstories : Meets Document.stories twoSections (fun found d₁ => SectionsSeated d₁.forest ∧
      (∀ s ∈ planned letterFields d₁.forest found, ∀ p ∈ d₁.forest.attached.elements,
        p.tag.id = s.tag.paragraph → Paragraph.endsSection p = true →
          (Text.splitLines s.value).length ≤ 1) ∧
      (d₁.forest.attached.named Names.section_).length = 2) fun _ _ => False := by decide +kernel
  have hrun : Meets (run letterFields) twoSections
      (fun stats _ => stats.applied = 2 ∧ stats.items = 1) fun _ _ => False := by decide +kernel
  obtain ⟨found, d₁, hfound, hseated, hone, hlength⟩ := hstories.exists_ok
  obtain ⟨stats, d', hd', happlied, hitems⟩ := hrun.exists_ok
  have hsame := (sections_stay (Document.sound_ofRoot _) hfound hseated hone).of_ok hd'
  refine ⟨stats, d', hd', happlied, hitems, ?_⟩
  rw [← hlength]
  simpa using congrArg List.length hsame

/-- A list item that a section ends with. -/
def sectionInItem : Document := .ofBody [
  Document.node Names.paragraph [
    Document.node Names.paragraphProperties
      [Document.node Names.numbering [], Document.node Names.section_ []],
    Document.textRun "<<C>>"],
  Document.node Names.paragraph []]

/-- The second item of two gets a copy of the section. -/
theorem section_for_each_item : ∃ found d₁ stats d',
    Document.stories sectionInItem = .ok found d₁ ∧ SectionsSeated d₁.forest ∧
    (d₁.forest.attached.named Names.section_).length = 1 ∧
    run letterFields sectionInItem = .ok stats d' ∧
    (d'.forest.attached.named Names.section_).length = 2 := by
  have hstories : Meets Document.stories sectionInItem (fun _ d₁ => SectionsSeated d₁.forest ∧
      (d₁.forest.attached.named Names.section_).length = 1) fun _ _ => False := by decide +kernel
  have hrun : Meets (run letterFields) sectionInItem
      (fun _ d' => (d'.forest.attached.named Names.section_).length = 2)
      fun _ _ => False := by decide +kernel
  obtain ⟨found, d₁, hfound, hseated, hlength⟩ := hstories.exists_ok
  obtain ⟨stats, d', hd', hlength'⟩ := hrun.exists_ok
  exact ⟨found, d₁, stats, d', hfound, hseated, hlength, hd', hlength'⟩

end Merge

end MailMerge
