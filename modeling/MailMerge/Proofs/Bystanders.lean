import MailMerge.Proofs.Departed
import MailMerge.Proofs.Edits
import MailMerge.Proofs.Reading

/-!
# What is around a replacement

Replacing text of a paragraph does not change what other paragraphs show, be they around it, inside
of it or elsewhere. In the tree that the paragraph is in nothing is moved, and only elements that
show its text and emptied runs leave (`replaceSpan_bystanders`). So whatever else is in a run of the
paragraph stays, and the run with it.
-/

namespace MailMerge.Xml

/-- The tree that an element is in. -/
def Content.Place.tree (p : Content.Place) : Content :=
  let root := p.around.getLast?.getD p.element
  .element root.tag root.inner .nil

def Forest.tree? (f : Forest) (id : Nat) : Option Content := (f.place? id).map (·.tree)

/-- The tree around a place, whatever the element there has in it. -/
theorem Hole.exists_tree (tag : Tag) (rest : Content) : ∀ h : Hole, ∃ (g : Hole) (rest' : Content),
    g.above = h.above ∧ ∀ inner, Content.Place.tree
      ⟨⟨tag, inner⟩, h.around (.element tag inner rest)⟩ = g.fill (.element tag inner rest')
  | .here => ⟨.here, .nil, rfl, fun _ => rfl⟩
  | .text _ h | .markup _ h | .behind _ _ h => exists_tree tag rest h
  | .inside t h more => ⟨.inside t h .nil, rest, rfl, fun _ => by
      simp [Content.Place.tree, Hole.around, Hole.fill]⟩

theorem Content.place?_append_of_some {id : Nat} {p : Content.Place} (d : Content) :
    ∀ {c : Content}, c.place? id = some p → (c ++ d).place? id = some p
  | .text _ rest, h | .markup _ rest, h => place?_append_of_some d (c := rest) h
  | .element tag inner rest, h => by
    simp only [Content.element_append, Content.place?] at h ⊢
    split at h
    · next ht => rwa [if_pos ht]
    · next ht =>
      rw [if_neg ht]
      split at h
      · exact h
      · exact place?_append_of_some d h

namespace Forest.NumberedBelow

variable {f : Forest} {n : Nat}

theorem tree_ids (hf : f.NumberedBelow n) {id : Nat} {c : Content} (hc : f.tree? id = some c) :
    c.ids.Nodup ∧ ∀ i ∈ c.ids, i < n := by
  obtain ⟨p, hp, rfl⟩ := Option.map_eq_some_iff.1 hc
  obtain ⟨s, h, rest, hs, -, ha⟩ := hf.place?_eq hp
  set root := p.around.getLast?.getD p.element with hroot
  have hm : root ∈ (f.side s).elements := by
    rw [hs, Hole.mem_elements_fill]
    cases hl : p.around.getLast? with
    | none => exact .inr (.inr (by simp [hroot, hl, Content.elements]))
    | some q => exact .inr (.inl (ha ▸ by simpa [hroot, hl] using List.mem_of_getLast? hl))
  have htree : p.tree.ids = root.tag.id :: root.inner.ids := by simp [Content.Place.tree, hroot]
  refine ⟨hf.nodup_element (has_iff.2 ⟨s, hm⟩), htree ▸ List.forall_mem_cons.2 ⟨?_, fun i hi => ?_⟩⟩
  · exact hf.side_lt s _ (Content.id_mem_ids hm)
  · exact hf.side_lt s i ((Content.inner_ids_sublist hm).subset hi)

end Forest.NumberedBelow

end MailMerge.Xml

namespace MailMerge.Word

open MailMerge.Xml

/-! ## Other paragraphs -/

theorem leadingText_fill_element {tag : Tag} {rest : Content} (c d : Content) : ∀ h : Hole,
    (h.fill (.element tag c rest)).leadingText = (h.fill (.element tag d rest)).leadingText
  | .here => rfl
  | .text cs h => congrArg (cs ++ ·) (leadingText_fill_element c d h)
  | .markup _ _ | .behind _ _ _ | .inside _ _ _ => rfl

/-- What a paragraph has in it is not shown around it. -/
theorem segmentsIn_fill_paragraph {tag : Tag} {rest : Content} (hp : tag.name = Names.paragraph)
    (c d : Content) : ∀ (run : Option Nat) (h : Hole),
      segmentsIn run (h.fill (.element tag c rest)) = segmentsIn run (h.fill (.element tag d rest))
  | _, .here => (segmentsIn_paragraph hp).trans (segmentsIn_paragraph hp).symm
  | run, .text _ h | run, .markup _ h => segmentsIn_fill_paragraph hp c d run h
  | run, .behind _ _ h => by
    simp only [Hole.fill, segmentsIn, segmentsIn_fill_paragraph hp c d run h]
  | run, .inside t h _ => by
    simp only [Hole.fill, segmentsIn, Segment.of?, leadingText_fill_element c d h,
      segmentsIn_fill_paragraph hp c d (runOf t) h]

namespace Performed

variable {f f' : Forest} {e : Element} {s : Forest.Side} {h : Hole} {rest inner : Content}
  (hperf : Performed f f' e s h rest inner)

include hperf

theorem has_iff {x : Element} : f'.Has x ↔ x ∈ (h.fill (.element e.tag inner rest)).elements ∨
    x ∈ (e.inner.lost inner.ids).elements ∨ ∃ s', s' ≠ s ∧ x ∈ (f.side s').elements := by
  rw [Forest.Has, hperf.attached, hperf.detached]
  exact Forest.has_setSide

/-- Paragraphs in the paragraph are what they were, also if they have left it. -/
theorem has_nested (hf : f.Numbered) {q : Element} (hq : q ∈ e.inner.elements)
    (hp : q.tag.name = Names.paragraph) : f'.Has q := by
  have hm : e ∈ (f.side s).elements :=
    hperf.side ▸ Hole.self_mem_fill _ _ _ _
  have hin : e.inner.ids.Nodup := Content.nodup_inner (hf.side_nodup s) hm
  by_cases hk : q.tag.id ∈ inner.ids
  · obtain ⟨q', hq', hi⟩ := Content.mem_ids.1 hk
    have hlt : q.tag.id < f.next :=
      hf.side_lt s _ ((Content.inner_ids_sublist hm).subset (Content.id_mem_ids hq))
    obtain ⟨u, hu⟩ := exists_trail (key e.tag :: Around.trail h []) hq'
    obtain ⟨v, hv⟩ := exists_trail (key e.tag :: Around.trail h []) hq
    have hold := hperf.reworked.shift.order.subset
      (List.mem_filter.2 ⟨hu, by simpa [hi] using hlt⟩)
    have hkey := (List.cons.inj (trail_eq_of_id hin hold hv hi)).1
    have hq'p : q'.tag.name = Names.paragraph := (congrArg Key.name hkey).trans hp
    obtain rfl := Content.eq_of_id hin (hperf.reworked.paragraph_mem hq' hq'p) hq hi
    exact hperf.has.inner hq'
  · exact hperf.has_iff.2 (.inr (.inl (Content.mem_lost hq hk)))

/-- Other paragraphs show what they have shown. -/
theorem kept (hf : f.Numbered) (hp : e.tag.name = Names.paragraph) {q : Element} (hq : f.Has q)
    (hqp : q.tag.name = Names.paragraph) (hne : q.tag.id ≠ e.tag.id) :
    ∃ q', f'.Has q' ∧ q'.tag = q.tag ∧ Paragraph.text q' = Paragraph.text q := by
  have same : f'.Has q → ∃ q', f'.Has q' ∧ q'.tag = q.tag ∧ Paragraph.text q' = Paragraph.text q :=
    fun h => ⟨q, h, rfl, rfl⟩
  obtain ⟨s', hm⟩ := Forest.has_iff.1 hq
  by_cases hs : s' = s
  · rw [hs, hperf.side, Hole.mem_elements_fill] at hm
    rcases hm with hm | hm | hm
    · exact same (hperf.has_iff.2 (.inl (Hole.mem_elements_fill.2 (.inl hm))))
    · -- A paragraph around this one conceals what this one shows.
      obtain ⟨g, k, more, rfl, hk⟩ := Hole.exists_of_mem_around hm
      refine ⟨⟨q.tag, k.fill (.element e.tag inner rest)⟩, hperf.has_iff.2 (.inl
        (Hole.mem_fill_of_around Hole.mem_around_comp)), rfl, ?_⟩
      simp only [Paragraph.text, Paragraph.segments, hk]
      exact congrArg shownBy (segmentsIn_fill_paragraph hp inner e.inner none k)
    · simp only [Content.mem_element] at hm
      rcases hm with rfl | hm | hm
      · exact absurd rfl hne
      · exact same (hperf.has_nested hf hm hqp)
      · refine same (hperf.has_iff.2 (.inl (Hole.mem_fill ?_)))
        simp [Content.elements, hm]
  · exact same (hperf.has_iff.2 (.inr (.inr ⟨s', hs, hm⟩)))

/-- The tree that the paragraph is in, before and after. -/
theorem exists_tree (hf : f.Numbered) : ∃ (g : Hole) (more : Content), g.above = h.above ∧
    f.tree? e.tag.id = some (g.fill (.element e.tag e.inner more)) ∧
      f'.tree? e.tag.id = some (g.fill (.element e.tag inner more)) := by
  obtain ⟨g, more, hg, htree⟩ := Hole.exists_tree e.tag rest h
  refine ⟨g, more, hg, ?_, ?_⟩
  · rw [Forest.tree?, hf.place?_fill hperf.side, Option.map_some, htree]
  · have hid := (Hole.id_notMem (hperf.side ▸ hf.side_nodup s)).1
    have hplace : (h.fill (.element e.tag inner rest)).place? e.tag.id = _ := Hole.place?_fill hid
    have : f'.place? e.tag.id =
        some ⟨⟨e.tag, inner⟩, h.around (.element e.tag inner rest)⟩ := by
      have hother := Forest.notMem_other hf hperf.side
      have ha := hperf.attached
      have hd := hperf.detached
      cases s with
      | attached =>
        simp only [Forest.setSide] at ha
        simp only [Forest.place?, ha, hplace]
      | detached =>
        simp only [Forest.setSide] at ha hd
        simp only [Forest.place?, ha, hd, Content.place?_of_notMem hother,
          Content.place?_append_of_some _ hplace]
    rw [Forest.tree?, this, Option.map_some, htree]

end Performed

/-! ## Elements -/

/-- Where only what is not lasting leaves or comes, the lasting trails are the same, in the same
order. -/
theorem Shift.filter_lasting {gone : List Key → List Key → Prop} {n : Nat} {ts ts' : List (List Key)}
    (h : Shift gone Arrives n ts ts') (hn : ts.Nodup) (hold : ∀ t ∈ ts, isOld n t = true)
    (hg : ∀ w s, w ++ s ∈ ts → gone w s → lasting (w ++ s) = false) :
    ts'.filter lasting = ts.filter lasting := by
  have hold' : ∀ t ∈ ts', lasting t = true → t ∈ ts := fun t ht hl =>
    (h.new t ht).resolve_right fun ha => by simp [ha.not_lasting] at hl
  have hsub : (ts'.filter lasting).Sublist (ts.filter lasting) := by
    have heq : ts'.filter lasting = (ts'.filter (isOld n)).filter lasting := by
      rw [List.filter_filter]
      refine List.filter_congr fun t ht => ?_
      cases hl : lasting t
      · rfl
      · simp [hold t (hold' t ht hl)]
    exact heq ▸ h.order.filter _
  have hsup : ts.filter lasting ⊆ ts'.filter lasting := by
    intro t ht
    obtain ⟨ht, hl⟩ := List.mem_filter.1 ht
    refine List.mem_filter.2 ⟨(h.lost t ht).resolve_right ?_, hl⟩
    rintro ⟨w, s, rfl, hgone⟩
    simp [hg w s ht hgone] at hl
  exact hsub.eq_of_length_le (List.subperm_of_subset (hn.filter _) hsup).length_le

theorem arrives_run {tag : Tag} {inner : Content} {a : List Key} (ht : tag.name = Names.run)
    (hi : OfInlines inner) : ∀ t ∈ trails a (.element tag inner .nil), Arrives t := by
  intro t h
  simp only [trails, List.append_nil, List.mem_cons] at h
  rcases h with rfl | h
  · exact ⟨key tag, a, rfl, .inr ht⟩
  · obtain ⟨x, hx, u, rfl⟩ := exists_of_trail h
    exact ⟨key x.tag, _, rfl, .inl (paragraph_notMem_ofInlines hi x hx)⟩

/-- What leaves the content of a paragraph with a revision of its segments, and what comes. -/
theorem shift_revised {n : Nat} {a : List Key} {ts : List (List Key)} {c appended' : Content}
    {r : Revision} {changes' : List (Nat × Change)} (hn : c.ids.Nodup) (hl : ∀ i ∈ c.ids, i < n)
    (hc : LeafText c) (hdown : ∀ x t, x :: t ∈ ts → t ∈ trails a c → x :: t ∈ trails a c)
    (hr : r.Suits (segmentsIn none c)) (hs : List.Forall₂ SameChange r.changes changes')
    (hf : Fresh n changes') (hface : appended'.face = r.appended.face)
    (hnew : ∀ i ∈ appended'.ids, n ≤ i) :
    Shift (fun w s => Leaves (segmentsIn none c) ts (w ++ s)) Arrives n (trails a c)
      (trails a (Revision.apply ⟨changes', appended', r.touched⟩ c)) := by
  have departs : Shift (Departs a ts c) Arrives n (trails a c)
      (trails a (Revision.apply ⟨changes', appended', r.touched⟩ c)) := by
    rcases hr.appended with hnil | ⟨hch, ht, lead, inner, hrun, hinner⟩
    · exact Revision.apply_shift hn hc hl hdown (hr.fits hs hf) hf hr.touched
        (Content.eq_nil_of_face (hnil ▸ hface))
    · rw [hch] at hs
      cases hs
      obtain ⟨tag, inner', rfl, htag, hinner'⟩ := eq_run_of_face (hrun ▸ hface)
      rw [Revision.apply, ht, changed_of_none fun _ _ => rfl]
      exact .append (arrives_run htag (ofInlines_of_face hinner' hinner)) hnew
  refine ⟨departs.order, departs.new, fun t ht => (departs.lost t ht).imp id ?_⟩
  rintro ⟨w, s, rfl, hd⟩
  exact ⟨w, s, rfl, hd ht⟩

/-- Replacing text of a paragraph leaves other paragraphs their text. From the tree that the
paragraph is in, only elements that show its text leave, and runs that have lost all but their
properties; what is not of these kinds is where it was. -/
theorem replaceSpan_bystanders {f : Forest} {p : Nat} {e : Element} {c : Content}
    {start last : Int} {new : List Char} (hf : f.Numbered) (he : f.element? p = some e)
    (hp : e.tag.name = Names.paragraph) (hc : f.tree? p = some c) (hleaf : LeafText c) :
    Meets (Edit.replaceSpan p start last new) f
      (fun _ f' =>
        (∀ i q, f.element? i = some q → q.tag.name = Names.paragraph → i ≠ p →
          ∃ q', f'.element? i = some q' ∧ q'.tag = q.tag ∧
            Paragraph.text q' = Paragraph.text q) ∧
        ∃ c', f'.tree? p = some c' ∧
          (∀ t ∈ trails [] c, t ∈ trails [] c' ∨
            Leaves (Paragraph.segments e) (trails [] c) t) ∧
          (trails [] c').filter lasting = (trails [] c).filter lasting)
      fun _ _ => True := by
  simp only [Edit.replaceSpan, meets_bind, meets_get, he]
  split
  · trivial
  split
  · have hr : (revision p (Edit.leadIn f) start.toNat (last + 1).toNat new
        (Paragraph.segments e)).Suits (Paragraph.segments e) := suits_revision new
    obtain ⟨f', s, h, rest, changes', appended', hok, hperf, hsame, hfresh, hface, hnew⟩ :=
      perform_apply hf he hp hr
    refine (meets_of_ok hok).2 ⟨fun i q hq hqp hne => ?_, ?_⟩
    · obtain ⟨hhas, rfl⟩ := hf.element?_eq_some.1 hq
      obtain ⟨q', hq', htag, htext⟩ :=
        hperf.kept hf hp hhas hqp ((hf.element?_eq_some.1 he).2 ▸ hne)
      exact ⟨q', htag ▸ hperf.frame.numbered.element?_of_has hq', htag, htext⟩
    · obtain ⟨-, rfl⟩ := hf.element?_eq_some.1 he
      obtain ⟨g, more, -, htree, htree'⟩ := hperf.exists_tree hf
      obtain rfl := Option.some.inj (hc.symm.trans htree)
      obtain ⟨hnodup, hlt⟩ := hf.tree_ids hc
      have hm : e ∈ (g.fill (.element e.tag e.inner more)).elements :=
        Hole.mem_elements_fill.2 (.inr (.inr (by simp [Content.elements])))
      have hdown : ∀ x t, x :: t ∈ trails [] (g.fill (.element e.tag e.inner more)) →
          t ∈ trails (key e.tag :: Around.trail g []) e.inner →
            x :: t ∈ trails (key e.tag :: Around.trail g []) e.inner := by
        intro x t hx ht
        obtain ⟨k, u, rfl⟩ := above_suffix ht
        exact mem_inner_of_suffix (u := k :: u) hnodup hx
      have hinner := shift_revised (Content.nodup_inner hnodup hm)
        (fun i hi => hlt i ((Content.inner_ids_sublist hm).subset hi))
        (fun x hx => hleaf x (Content.mem_trans hm hx)) hdown hr hsame hfresh hface hnew
      have hall : Shift _ Arrives f.next (trails [] (g.fill (.element e.tag e.inner more)))
          (trails [] (g.fill (.element e.tag _ more))) := hinner.element.fill
      refine ⟨_, htree', fun t ht => (hall.lost t ht).imp id ?_,
        hall.filter_lasting (trails_nodup hnodup) (fun t ht => ?_) fun _ _ _ h => h.not_lasting⟩
      · rintro ⟨w, s, rfl, hgone⟩
        exact hgone
      · obtain ⟨x, hx, u, rfl⟩ := exists_of_trail ht
        exact decide_eq_true (hlt _ (Content.id_mem_ids hx))
  · next hnot =>
    have hr : (brokenRevision p (Edit.leadIn f) start.toNat (last + 1).toNat
        (Paragraph.segments e)).Suits (Paragraph.segments e) := suits_brokenRevision
    obtain ⟨f', -, -, -, -, hok, -⟩ := perform_spec hf he hp hr
    exact meets_bind.2 ((meets_of_ok hok).2 trivial)

/-- A paragraph with a bookmark, a run in bold and a text box beside its text. -/
def boxed : Document := .ofBody [
  Document.node Names.paragraph [
    Document.textRun "ab",
    Document.node (name "bookmarkStart") [],
    Document.node Names.run [
      Document.node Names.runProperties [Document.node (name "b") []],
      Document.node Names.text [.text "c".toList]],
    Document.node Names.run [
      Document.node Names.drawing [Document.node Names.textBox [
        Document.node Names.paragraph [Document.textRun "box"]]],
      Document.node Names.text [.text "d".toList]]]]

/-- The run in bold leaves with its text. The one with the text box loses its text only, and the
paragraph in the box shows what it has shown. -/
theorem replaceSpan_bystanders_boxed : ∃ e c f' c' q', boxed.forest.element? 2 = some e ∧
    boxed.forest.tree? 2 = some c ∧
    Edit.replaceSpan 2 1 3 "x".toList boxed.forest = .ok () f' ∧ f'.tree? 2 = some c' ∧
    c.elements.length = 17 ∧ c'.elements.length = 12 ∧
    (∀ t ∈ trails [] c, t ∈ trails [] c' ∨ Leaves (Paragraph.segments e) (trails [] c) t) ∧
    (trails [] c').filter lasting = (trails [] c).filter lasting ∧
    f'.element? 13 = some q' ∧ Paragraph.text q' = "box".toList := by
  obtain ⟨e, he⟩ : ∃ e, boxed.forest.element? 2 = some e :=
    Option.isSome_iff_exists.1 (by decide +kernel)
  obtain ⟨c, hc⟩ : ∃ c, boxed.forest.tree? 2 = some c :=
    Option.isSome_iff_exists.1 (by decide +kernel)
  obtain ⟨q, hq⟩ : ∃ q, boxed.forest.element? 13 = some q :=
    Option.isSome_iff_exists.1 (by decide +kernel)
  have hparagraph : ∀ e ∈ boxed.forest.element? 2, e.tag.name = Names.paragraph := by
    decide +kernel
  have hcontent : ∀ c ∈ boxed.forest.tree? 2, LeafText c ∧ c.elements.length = 17 := by
    decide +kernel
  have hbox : ∀ q ∈ boxed.forest.element? 13, q.tag.name = Names.paragraph ∧
      Paragraph.text q = "box".toList := by decide +kernel
  obtain ⟨_, f', hok, hcount⟩ := exists_of_ok (p := fun f' : Forest =>
      (f'.tree? 2).map (·.elements.length) = some 12)
    (x := Edit.replaceSpan 2 1 3 "x".toList) (s := boxed.forest) (by decide +kernel)
  obtain ⟨hothers, c', hc', hlost, hlasting⟩ :=
    (replaceSpan_bystanders (Document.sound_ofRoot _ : boxed.Sound).1.numbered he
      (hparagraph e he) hc (hcontent c hc).1).of_ok hok
  obtain ⟨q', hq', -, htext⟩ := hothers 13 q hq (hbox q hq).1 (by decide)
  refine ⟨e, c, f', c', q', he, hc, hok, hc', (hcontent c hc).2, ?_, hlost, hlasting, hq',
    htext.trans (hbox q hq).2⟩
  simpa [hc'] using hcount

end MailMerge.Word
