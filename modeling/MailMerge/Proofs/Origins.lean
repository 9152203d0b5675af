import MailMerge.Proofs.Substituted

/-!
# Where attached paragraphs come from

After a replacement each attached paragraph has been there before and shows the same, is the one with
the tag, or is a list item for a line of the value; or it shows nothing (`Substituted.origins`). A
paragraph that comes up in the copied properties of a list item shows nothing, since none shows
anything where it is a copy from.
-/

namespace MailMerge.Word

open MailMerge.Xml MailMerge.Xml.Reader

variable {f f' f'' : Forest} {u : List Key} {i : Nat} {texts : List (List Char)}

/-- Whether every attached paragraph stands where it is attached. -/
def AllStand (f : Forest) : Prop :=
  ∀ x ∈ f.attached.elements, x.tag.name = Names.paragraph → ∀ u,
    key x.tag :: u ∈ trails [] f.attached → Standing u f x

/-- Where an attached paragraph comes from: it is the one with the number `i`, it has been in `f` and
has shown the same, it shows nothing, or it is new and shows one of `texts`. -/
inductive ComesFrom (f : Forest) (i : Nat) (texts : List (List Char)) (x : Element) : Prop
  | changed (h : x.tag.id = i)
  | kept {y : Element} (hy : y ∈ f.attached.elements) (ht : y.tag = x.tag)
      (hs : Paragraph.text x = Paragraph.text y)
  | empty (h : Paragraph.text x = [])
  | new (h : Paragraph.text x ∈ texts)

/-- All attached paragraphs stand where they are attached, and where they come from. -/
structure Origins (i : Nat) (texts : List (List Char)) (f f' : Forest) : Prop where
  stand : AllStand f'
  comes : ∀ x ∈ f'.attached.elements, x.tag.name = Names.paragraph → ComesFrom f i texts x

theorem Origins.refl (h : AllStand f) : Origins i texts f f := ⟨h, fun _ hx _ => .kept hx rfl rfl⟩

theorem Origins.trans (h : Origins i texts f f') (h' : Origins i texts f' f'') :
    Origins i texts f f'' := by
  refine ⟨h'.stand, fun x hx hp => ?_⟩
  cases h'.comes x hx hp with
  | changed hi => exact .changed hi
  | empty ht => exact .empty ht
  | new ht => exact .new ht
  | @kept y hy ht hs =>
    cases h.comes y hy (ht ▸ hp) with
    | changed hi => exact .changed (ht ▸ hi)
    | kept hz ht' hs' => exact .kept hz (ht'.trans ht) (hs.trans hs')
    | empty hs' => exact .empty (hs.trans hs')
    | new hs' => exact .new (hs ▸ hs')

theorem Standing.at_trail {v : List Key} {q : Element} (h : Standing v f q) (hf : f.Numbered)
    (ht : key q.tag :: u ∈ trails [] f.attached) : Standing u f q := by
  refine ⟨h.has, h.name, h.firm, fun hne => ?_⟩
  obtain ⟨hs, hm⟩ := h.place hne
  obtain rfl := (List.cons.inj (trail_eq_of_id hf.attached ht hm rfl)).2
  exact ⟨hs, ht⟩

theorem Origins.mono {texts' : List (List Char)} (h : Origins i texts f f')
    (hs : texts ⊆ texts') : Origins i texts' f f' := by
  refine ⟨h.stand, fun x hx hp => ?_⟩
  cases h.comes x hx hp with
  | changed hi => exact .changed hi
  | kept hy ht hs => exact .kept hy ht hs
  | empty ht => exact .empty ht
  | new ht => exact .new (hs ht)

/-- It is enough to know that the paragraphs that were there still stand, and what comes up. -/
theorem Origins.intro (hf' : f'.Numbered) (ha : AllStand f)
    (hold : ∀ x u, Standing u f x → ∃ x' v, x'.tag = x.tag ∧ Standing v f' x' ∧
      (x.tag.id = i ∨ Paragraph.text x' = Paragraph.text x))
    (hnew : ∀ x ∈ f'.attached.elements, x.tag.name = Names.paragraph → ∀ u,
      key x.tag :: u ∈ trails [] f'.attached → key x.tag :: u ∉ trails [] f.attached →
        (∃ v, Standing v f' x) ∧ (Paragraph.text x = [] ∨ Paragraph.text x ∈ texts)) :
    Origins i texts f f' := by
  have each : ∀ x ∈ f'.attached.elements, x.tag.name = Names.paragraph → ∀ u,
      key x.tag :: u ∈ trails [] f'.attached → Standing u f' x ∧ ComesFrom f i texts x := by
    intro x hx hp u ht
    by_cases hm : key x.tag :: u ∈ trails [] f.attached
    · obtain ⟨y, hy, hk⟩ := exists_of_head hm
      obtain ⟨x', w, htag, hst, htext⟩ :=
        hold y _ (ha y hy ((congrArg Key.name hk).trans hp) _ (hk ▸ hm))
      have hid : y.tag.id = x.tag.id := congrArg Key.id hk
      obtain rfl := hf'.eq_of_id hst.has (.inl hx) (htag ▸ hid)
      exact ⟨hst.at_trail hf' ht, htext.elim (fun hi => .changed (hid.symm.trans hi))
        fun htext => .kept hy htag.symm htext⟩
    · obtain ⟨⟨v, hst⟩, htext⟩ := hnew x hx hp u ht hm
      exact ⟨hst.at_trail hf' ht, htext.elim .empty .new⟩
  refine ⟨fun x hx hp u ht => (each x hx hp u ht).1, fun x hx hp => ?_⟩
  obtain ⟨u, ht⟩ := exists_trail [] hx
  exact (each x hx hp _ ht).2

/-! ## Revisions -/

theorem origins_revised {q q₁ : Element} (ha : AllStand f) (hf : f.Numbered)
    (hq : Standing u f q) (hne : Paragraph.text q ≠ [])
    (hr : Frame Spent (Written f.next (trails [] f.attached)) f.next (· = q.tag.id) f f')
    (hhas : f'.Has q₁) (htag : q₁.tag = q.tag) (hfirm : Firm none q₁.inner) :
    Origins q.tag.id texts f f' := by
  refine .intro hr.numbered ha (fun x v hx => ?_) fun x hx hp v ht hn => ?_
  · by_cases hid : x.tag.id = q.tag.id
    · obtain rfl := hf.eq_of_id hx.has hq.has hid
      exact ⟨q₁, u, htag, ⟨hhas, htag ▸ hq.name, hfirm, fun _ =>
        ⟨(hq.place hne).1, htag ▸ hq.trail_revised hne hr⟩⟩, .inl rfl⟩
    · obtain ⟨x', ht, hp, hst⟩ := hx.revised hid hr
      exact ⟨x', v, ht, hst, .inr (text_of_pieces hp)⟩
  · -- What is written shows text itself.
    rcases hr.shift.new _ ht with hm | hw
    · exact absurd hm hn
    · cases hw with
      | mk _ _ _ hk => exact absurd (hp ▸ hk) paragraph_notMem_showing

/-! ## List items -/

theorem exists_of_face {c d : Content} (h : c.face = d.face) {x : Element}
    (hx : x ∈ c.elements) : ∃ y ∈ d.elements, y.tag.name = x.tag.name ∧
      y.inner.face = x.inner.face := by
  have hm : (⟨x.tag.face, x.inner.face⟩ : Element) ∈ d.face.elements := by
    rw [← h, Content.elements_face]
    exact List.mem_map.2 ⟨x, hx, rfl⟩
  rw [Content.elements_face] at hm
  obtain ⟨y, hy, he⟩ := List.mem_map.1 hm
  obtain ⟨htag, hinner⟩ := Element.mk.inj he
  have hname : y.tag.face.name = x.tag.face.name := congrArg Tag.name htag
  exact ⟨y, hy, hname, hinner⟩

/-- What is in a copy, but for the element itself, is a copy of what is in the original. -/
theorem CopyOf.inside {name : Name} {e : Element} {c : Content} (h : CopyOf name e c) {x : Element}
    (hx : x ∈ c.elements) (hn : x.tag.name ≠ name) : ∃ p ∈ e.inner.children, p.tag.name = name ∧
      ∃ y ∈ p.inner.elements, y.tag.name = x.tag.name ∧ y.inner.face = x.inner.face := by
  rcases h.cases with rfl | ⟨p, hp, hpn, tail, hf⟩
  · cases hx
  obtain ⟨y, hy, hyn, hyf⟩ := exists_of_face hf hx
  refine ⟨p, hp, hpn, y, ?_, hyn, hyf⟩
  simp only [Content.elements, List.append_nil, List.mem_cons] at hy
  exact hy.resolve_left fun e => hn (by rw [← hyn, e, hpn])

/-- What is in a list item, but for properties and what shows its line, is a copy of something in
properties. -/
theorem ItemOf.inside {e new : Element} {cs : List Char} (h : ItemOf e cs new)
    (hn : e.inner.ids.Nodup) {x : Element} (hx : x ∈ new.inner.elements)
    (hp : x.tag.name ∉ Names.run :: (Names.properties ++ Names.showing)) :
    ∃ p ∈ e.inner.elements, (p.tag.name = Names.runProperties ∨
      p.tag.name = Names.paragraphProperties ∧ p ∈ e.inner.children) ∧
      ∃ y ∈ p.inner.elements, y.tag.name = x.tag.name ∧ y.inner.face = x.inner.face := by
  obtain ⟨properties, formatting, lead, hpr, hr, hf⟩ := h.inner
  obtain ⟨y, hy, hyn, hyf⟩ := exists_of_face hf hx
  rw [← hyn] at hp
  rw [← hyn, ← hyf]
  simp only [Names.properties, List.cons_append, List.nil_append, List.mem_cons, not_or] at hp
  obtain ⟨hrun, hproperties, hparagraph, hshowing⟩ := hp
  rw [Content.elements_append, List.mem_append] at hy
  rcases hy with hy | hy
  · obtain ⟨p, hpc, hpn, z, hz⟩ := hpr.inside hy hparagraph
    exact ⟨p, Content.children_subset _ _ hpc, .inr ⟨hpn, hpc⟩, z, hz⟩
  split at hy
  · cases hy
  simp only [newRun, Content.elements, Content.elements_append, List.append_nil, List.mem_cons,
    List.mem_append] at hy
  rcases hy with rfl | hy | hy
  · exact absurd rfl hrun
  · rcases hr with ⟨-, rfl⟩ | ⟨r, hr, hc⟩
    · cases hy
    obtain ⟨-, k, rest, hk, -⟩ := firstRun?_spec hn hr
    have hm : r ∈ e.inner.elements :=
      hk ▸ Hole.self_mem_fill _ _ _ _
    obtain ⟨p, hpc, hpn, z, hz⟩ := hc.inside hy hproperties
    exact ⟨p, Content.mem_trans hm (Content.children_subset _ _ hpc), .inl hpn, z, hz⟩
  · exact absurd (paragraph_notMem_ofInlines (ofInlines_textContent lead cs) y hy) hshowing

/-- What is in the properties of a paragraph shows nothing where all paragraphs stand. -/
theorem text_of_inside {e p y : Element} (ha : AllStand f) (hf : f.Numbered) (he : f.Has e)
    (hu : key e.tag :: u ∈ trails [] f.attached) (hp : p ∈ e.inner.elements)
    (hn : p.tag.name ∈ Names.properties) (hy : y ∈ p.inner.elements)
    (hyn : y.tag.name = Names.paragraph) : Firm none y.inner ∧ Paragraph.text y = [] := by
  obtain ⟨v, hv⟩ := exists_trail (key e.tag :: u) hp
  have hpt := mem_trails_attached hf he hu hv
  have hpe : f.Has p := he.inner hp
  obtain ⟨w, hw⟩ := exists_trail (key p.tag :: (v ++ key e.tag :: u)) hy
  have hyt := mem_trails_attached hf hpe hpt hw
  have hst := ha y (Content.mem_trans (mem_attached hf hpe hpt) hy) hyn _ hyt
  refine ⟨hst.firm, ?_⟩
  by_contra hne
  have hout : key p.tag ∈ w ++ key p.tag :: (v ++ key e.tag :: u) := by simp
  exact (hst.place hne).1.properties _ (List.mem_map_of_mem hout) hn

/-- What comes up with a list item is the item itself, or shows nothing. -/
theorem Inserted.origins {e new : Element} {cs : List Char} (hi : Inserted f f' e cs new)
    (ha : AllStand f) (hf : f.Numbered) (hb : Bare f) (hp : e.tag.name = Names.paragraph)
    (he : f.Has e) (hfirm : Firm none e.inner) (hu : Sheltered (u.map (·.name)))
    (ht : key e.tag :: u ∈ Word.trails [] f.attached) : Origins i [lineFeeds cs] f f' := by
  obtain ⟨htext, hst, -⟩ := hi.standing hf hb hp hfirm hu ht
  have hin : e.inner.ids.Nodup := Content.nodup_inner hf.attached (mem_attached hf he ht)
  refine .intro hi.step.numbered ha (fun x v hx => ?_) fun x hx hxp v hv hn => ?_
  · obtain ⟨x', htag, hpieces, hst'⟩ := hx.listed hf (.cons hi .nil)
    exact ⟨x', v, htag, hst', .inr (text_of_pieces hpieces)⟩
  · rcases hi.trails with hsame | ⟨w, front, inner, back, h₁, h₂⟩
    · exact absurd (hsame ▸ hv) hn
    rw [h₁] at hn
    rw [h₂] at hv
    simp only [List.mem_append, not_or] at hv hn
    have hnew : key x.tag :: v ∈ Word.trails w (.element new.tag new.inner .nil) := by
      tauto
    simp only [Word.trails, List.append_nil, List.mem_cons] at hnew
    rcases hnew with hnew | hnew
    · obtain rfl := hi.step.numbered.eq_of_id (.inl hx) hi.has (congrArg Key.id (List.cons.inj hnew).1)
      exact ⟨⟨u, hst⟩, .inr (htext ▸ List.mem_singleton_self _)⟩
    · obtain ⟨z, hz, hkey⟩ := exists_of_head hnew
      obtain rfl := hi.step.numbered.eq_of_id (.inl hx) (hi.has.inner hz)
        (congrArg Key.id hkey).symm
      obtain ⟨p, hpe, hpn, y, hy, hyn, hyf⟩ := hi.item.inside hin hz
        (hxp ▸ by decide)
      have hpn : p.tag.name ∈ Names.properties := by
        rcases hpn with hpn | ⟨hpn, -⟩ <;> exact hpn ▸ by decide
      obtain ⟨hyfirm, hytext⟩ := text_of_inside ha hf he ht hpe hpn hy (hyn.trans hxp)
      have hxtext : Paragraph.text x = [] := by
        rw [← hytext]
        exact shownBy_of_face hyf.symm rfl
      refine ⟨⟨v, .inl hx, hxp, (firm_of_face hyf.symm rfl).2 hyfirm, fun h => absurd hxtext h⟩,
        .inl hxtext⟩

theorem Listed.origins {e : Element} {lines : List (List Char)} {items : List Element}
    (hl : Listed e f lines items f') (ha : AllStand f) (hf : f.Numbered) (hb : Bare f)
    (hp : e.tag.name = Names.paragraph) (he : f.Has e) (hfirm : Firm none e.inner)
    (hu : Sheltered (u.map (·.name))) (ht : key e.tag :: u ∈ Word.trails [] f.attached) :
    Origins i (lines.map lineFeeds) f f' := by
  induction hl with
  | nil => exact .refl ha
  | cons hi hl ih =>
    have h₁ := hi.origins (i := i) ha hf hb hp he hfirm hu ht
    obtain ⟨-, hst, horder⟩ := hi.standing hf hb hp hfirm hu ht
    have h₂ := ih h₁.stand hi.step.numbered (hi.step.bare hb) hst.name hst.has hst.firm
      (horder.subset (by simp))
    refine (h₁.mono ?_).trans (h₂.mono ?_)
    · simp
    · simp

/-! ## Cleaning up -/

theorem Cleaned.origins {p : Nat} (hc : Cleaned p f f') (ha : AllStand f) (hf : f.Numbered)
    (hp : ∀ e, f.element? p = some e → e.tag.name = Names.paragraph) :
    Origins i texts f f' := by
  have hloss : Loss f.next (fun _ => False) f f' := cleaned_frame hf hp hc
  refine .intro hloss.numbered ha (fun x v hx => ?_) fun x hx hxp v hv hn => ?_
  · obtain ⟨x', htag, hpieces, hst⟩ := hx.cleaned hf hp hc
    exact ⟨x', v, htag, hst, .inr (text_of_pieces hpieces)⟩
  · exact ((hloss.shift.new _ hv).elim hn id).elim

/-- A replacement puts no paragraphs into the attached trees but those for its lines. -/
theorem Substituted.origins {q : Element} {found : Found} {lines : List (List Char)}
    (h : Substituted f q found lines f') (ha : AllStand f) (hf : f.Numbered) (hb : Bare f)
    (hq : Standing u f q) (hne : Paragraph.text q ≠ []) :
    Origins q.tag.id (lines.tail.map lineFeeds) f f' := by
  obtain @⟨f₁, f₂, q₁, items, hr, hhas, htag, hfirm, -, hl, hc⟩ := h
  obtain ⟨hu, -⟩ := hq.place hne
  have hstep : Step (· = q.tag.id) f f₁ := hr.step fun _ ht => made_of_written ht
  have hnum := (hl.step hr.numbered).numbered
  have h₁ : Origins q.tag.id (lines.tail.map lineFeeds) f f₁ :=
    origins_revised ha hf hq hne hr hhas htag hfirm
  have h₂ := hl.origins (i := q.tag.id) h₁.stand hr.numbered (hstep.bare hb) (htag ▸ hq.name) hhas
    hfirm hu (htag ▸ hq.trail_revised hne hr)
  exact (h₁.trans h₂).trans (hc.origins h₂.stand hnum (Substituted.namesParagraph hf hq hr hl).2)

end MailMerge.Word
