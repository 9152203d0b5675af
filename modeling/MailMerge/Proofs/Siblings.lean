import MailMerge.Proofs.Edited

/-!
# What stands beside a paragraph

The element directly around a paragraph keeps its other children, each where it has been, when the
paragraph is revised, list items are put behind it, and it is taken away or emptied. Elements are
found by their numbers, so there is only one place for an edit to be at (`Hole.eq_of_fill`).
-/

namespace MailMerge.Xml

namespace Hole

variable {tag : Tag} {inner inner' rest rest' : Content}

/-- In content in which no number is used twice there is one place for each number. -/
theorem eq_of_fill : ∀ {h h' : Hole},
    h.fill (.element tag inner rest) = h'.fill (.element tag inner' rest') → tag.id ∉ h.ids →
      tag.id ∉ h'.ids → h = h' ∧ inner = inner' ∧ rest = rest'
  | .here, .here, he, _, _ => by
    obtain ⟨-, hi, hr⟩ := Content.element.inj he
    exact ⟨rfl, hi, hr⟩
  | .here, .behind t i k, he, _, hn => by
    obtain ⟨rfl, -⟩ := Content.element.inj he
    exact absurd (by simp [ids, beside]) hn
  | .here, .inside t k r, he, _, hn => by
    obtain ⟨rfl, -⟩ := Content.element.inj he
    exact absurd (by simp [ids, above]) hn
  | .behind t i k, .here, he, hn, _ => by
    obtain ⟨rfl, -⟩ := Content.element.inj he
    exact absurd (by simp [ids, beside]) hn
  | .inside t k r, .here, he, hn, _ => by
    obtain ⟨rfl, -⟩ := Content.element.inj he
    exact absurd (by simp [ids, above]) hn
  | .text _ h, .text _ k, he, hn, hn' => by
    obtain ⟨rfl, he'⟩ := Content.text.inj he
    obtain ⟨rfl, hi⟩ := @eq_of_fill h k he' hn hn'
    exact ⟨rfl, hi⟩
  | .markup _ h, .markup _ k, he, hn, hn' => by
    obtain ⟨rfl, he'⟩ := Content.markup.inj he
    obtain ⟨rfl, hi⟩ := @eq_of_fill h k he' hn hn'
    exact ⟨rfl, hi⟩
  | .behind t i h, .behind t' i' h', he, hn, hn' => by
    obtain ⟨rfl, rfl, he'⟩ := Content.element.inj he
    obtain ⟨rfl, hi⟩ := eq_of_fill he' (fun hm => hn (mem_ids_behind.2 (.inr (.inr hm))))
      fun hm => hn' (mem_ids_behind.2 (.inr (.inr hm)))
    exact ⟨rfl, hi⟩
  | .inside t h r, .inside t' h' r', he, hn, hn' => by
    obtain ⟨rfl, he', rfl⟩ := Content.element.inj he
    obtain ⟨rfl, hi⟩ := eq_of_fill he' (fun hm => hn (mem_ids_inside.2 (.inr (.inr hm))))
      fun hm => hn' (mem_ids_inside.2 (.inr (.inr hm)))
    exact ⟨rfl, hi⟩
  | .behind t i h, .inside t' h' r', he, hn, hn' => by
    obtain ⟨rfl, rfl, rfl⟩ := Content.element.inj he
    refine absurd (mem_ids_behind.2 (.inr (.inl ?_))) hn
    simp [mem_ids_fill]
  | .inside t h r, .behind t' i' h', he, hn, hn' => by
    obtain ⟨rfl, rfl, rfl⟩ := Content.element.inj he
    refine absurd (mem_ids_behind.2 (.inr (.inl ?_))) hn'
    simp [mem_ids_fill]

/-- A place with something around it is in the innermost element around it. -/
theorem exists_comp : ∀ {h : Hole} {t : Tag} {ts : List Tag}, h.above = t :: ts →
    ∃ g k r, h = Hole.comp g (.inside t k r) ∧ k.above = []
  | .text cs h, _, _, ha => by
    obtain ⟨g, k, r, rfl, hk⟩ := exists_comp (h := h) ha
    exact ⟨.text cs g, k, r, rfl, hk⟩
  | .markup m h, _, _, ha => by
    obtain ⟨g, k, r, rfl, hk⟩ := exists_comp (h := h) ha
    exact ⟨.markup m g, k, r, rfl, hk⟩
  | .behind tag inner h, _, _, ha => by
    obtain ⟨g, k, r, rfl, hk⟩ := exists_comp (h := h) ha
    exact ⟨.behind tag inner g, k, r, rfl, hk⟩
  | .inside tag h r, t, ts, ha => by
    rcases hh : h.above with _ | ⟨t', ts'⟩
    · simp only [above, hh, List.nil_append, List.cons.injEq] at ha
      exact ⟨.here, h, r, by rw [ha.1]; rfl, hh⟩
    · simp only [above, hh, List.cons_append, List.cons.injEq] at ha
      obtain ⟨g, k, r', rfl, hk⟩ := exists_comp (ha.1 ▸ hh)
      exact ⟨.inside tag g r, k, r', rfl, hk⟩

/-- What is in a place that nothing is around stands behind the same children. -/
theorem exists_front : ∀ {h : Hole}, h.above = [] →
    ∃ front, ∀ c : Content, (h.fill c).children = front ++ c.children
  | .here, _ => ⟨[], fun _ => rfl⟩
  | .text _ h, ha | .markup _ h, ha => exists_front (h := h) ha
  | .behind tag inner h, ha => by
    obtain ⟨front, hf⟩ := exists_front (h := h) ha
    exact ⟨⟨tag, inner⟩ :: front, fun c => by simp [fill, Content.children, hf c]⟩
  | .inside _ _ _, ha => by simp [above] at ha

end Hole

/-- The place of a child, with the children in front of it and behind it. -/
theorem Content.exists_fill_of_children {e : Element} {back : List Element} :
    ∀ {c : Content} {front : List Element}, c.children = front ++ e :: back →
      ∃ (k : Hole) (rest : Content), c = k.fill (.element e.tag e.inner rest) ∧ k.above = [] ∧
        rest.children = back ∧ ∀ d : Content, (k.fill d).children = front ++ d.children
  | .nil, front, h => by simp [children] at h
  | .text cs c, _, h => by
    obtain ⟨k, rest, rfl, hk⟩ := exists_fill_of_children (c := c) h
    exact ⟨.text cs k, rest, rfl, hk⟩
  | .markup m c, _, h => by
    obtain ⟨k, rest, rfl, hk⟩ := exists_fill_of_children (c := c) h
    exact ⟨.markup m k, rest, rfl, hk⟩
  | .element tag inner c, [], h => by
    obtain ⟨rfl, rfl⟩ := List.cons.inj h
    exact ⟨.here, c, rfl, rfl, rfl, fun _ => rfl⟩
  | .element tag inner c, x :: front, h => by
    obtain ⟨rfl, h'⟩ := List.cons.inj h
    obtain ⟨k, rest, rfl, hk, hb, hf⟩ := exists_fill_of_children h'
    exact ⟨.behind tag inner k, rest, rfl, hk, hb, fun d => by simp [Hole.fill, children, hf d]⟩

end MailMerge.Xml

namespace MailMerge.Word

open MailMerge.Xml

variable {f f' : Forest} {e : Element} {t : Tag} {front back : List Element}

/-- Whether an attached element with a tag has certain children. -/
def HasChildren (f : Forest) (t : Tag) (children : List Element) : Prop :=
  ∃ parent ∈ f.attached.elements, parent.tag = t ∧ parent.inner.children = children

/-- An attached element that is no root is a child of another one. -/
theorem exists_hasChildren (he : e ∈ f.attached.elements) (hr : f.isRoot e.tag.id = false) :
    ∃ t front back, HasChildren f t (front ++ e :: back) := by
  obtain ⟨h, rest, hs⟩ := Hole.exists_fill_of_mem he
  rcases ha : h.above with _ | ⟨t, ts⟩
  · obtain ⟨front, hf⟩ := Hole.exists_front ha
    rw [← Bool.not_eq_true] at hr
    refine absurd (List.any_eq_true.2 ⟨e, ?_, by simp⟩) hr
    rw [hs, hf]
    simp [Content.children]
  · obtain ⟨g, k, r, rfl, hk⟩ := Hole.exists_comp ha
    obtain ⟨front, hf⟩ := Hole.exists_front hk
    refine ⟨t, front, rest.children, ⟨t, k.fill (.element e.tag e.inner rest)⟩, ?_, rfl, hf _⟩
    rw [hs, Hole.mem_elements_fill]
    exact .inr (.inl Hole.mem_around_comp)

namespace HasChildren

/-- An edit at the place of a child changes the children there. -/
theorem replace {s : Forest.Side} {h : Hole} {rest c' : Content} (new : List Element)
    (hf : f.Numbered) (hc : HasChildren f t (front ++ e :: back))
    (hs : f.side s = h.fill (.element e.tag e.inner rest))
    (ha : f'.attached = (f.setSide s (h.fill c')).attached)
    (hn : c'.children = new ++ rest.children) : HasChildren f' t (front ++ new ++ back) := by
  obtain ⟨parent, hp, rfl, hch⟩ := hc
  obtain ⟨g, more, hg⟩ := Hole.exists_fill_of_mem hp
  obtain ⟨k, rest', hk, -, hb, hfront⟩ := Content.exists_fill_of_children hch
  have hplace : f.attached =
      (g.comp (.inside parent.tag k more)).fill (.element e.tag e.inner rest') := by
    rw [hg, Hole.fill_comp, hk]
    rfl
  have hother := Forest.notMem_other hf hs
  cases s with
  | detached => exact absurd (by simp [hplace, Hole.mem_ids_fill]) hother
  | attached =>
    simp only [Forest.side, Forest.setSide] at hs ha
    have hnodup := hf.attached
    obtain ⟨rfl, -, rfl⟩ := Hole.eq_of_fill (hs.symm.trans hplace)
      (Hole.id_notMem (hs ▸ hnodup)).1 (Hole.id_notMem (hplace ▸ hnodup)).1
    refine ⟨⟨parent.tag, k.fill c'⟩, ?_, rfl, ?_⟩
    · rw [ha, Hole.mem_elements_fill]
      exact .inr (.inl Hole.mem_around_comp)
    · rw [hfront, hn, hb, List.append_assoc]

/-- A child has its parent directly around it. -/
theorem place? (hf : f.Numbered) (hc : HasChildren f t (front ++ e :: back)) :
    ∃ parent above, f.place? e.tag.id = some ⟨e, parent :: above⟩ := by
  obtain ⟨parent, hp, rfl, hch⟩ := hc
  obtain ⟨g, more, hg⟩ := Hole.exists_fill_of_mem hp
  obtain ⟨k, rest, hk, -⟩ := Content.exists_fill_of_children hch
  have hplace : f.side .attached =
      (g.comp (.inside parent.tag k more)).fill (.element e.tag e.inner rest) := by
    rw [Forest.side, hg, Hole.fill_comp, hk]
    rfl
  rw [hf.place?_fill hplace]
  rcases ha : (g.comp (.inside parent.tag k more)).around (.element e.tag e.inner rest) with _ | ⟨x, xs⟩
  · have := @Hole.mem_around_comp g k parent.tag more (.element e.tag e.inner rest)
    simp [ha] at this
  · exact ⟨x, xs, rfl⟩

theorem has_of_mem {children : List Element} (hc : HasChildren f t children) (he : e ∈ children) :
    e ∈ f.attached.elements := by
  obtain ⟨parent, hp, rfl, rfl⟩ := hc
  exact Content.mem_trans hp (Content.children_subset _ _ he)

theorem has (hc : HasChildren f t (front ++ e :: back)) : e ∈ f.attached.elements :=
  hc.has_of_mem (by simp)

theorem performed {s : Forest.Side} {h : Hole} {rest inner : Content} (hf : f.Numbered)
    (hc : HasChildren f t (front ++ e :: back)) (hr : Performed f f' e s h rest inner) :
    HasChildren f' t (front ++ ⟨e.tag, inner⟩ :: back) := by
  simpa using hc.replace [⟨e.tag, inner⟩] hf hr.side hr.attached rfl

theorem inserted {cs : List Char} {new : Element} (hf : f.Numbered)
    (hc : HasChildren f t (front ++ e :: back)) (hi : Inserted f f' e cs new) :
    HasChildren f' t (front ++ [e] ++ new :: back) := by
  obtain ⟨s, h, rest, hs, ha, -⟩ := hi.place
  simpa using hc.replace [e, new] hf hs ha
    (congrArg (e :: ·) (Content.children_insertBehindText new rest))

/-- List items come directly behind the paragraph, in the order of their lines. -/
theorem listed {lines : List (List Char)} {items : List Element} (hf : f.Numbered)
    (hc : HasChildren f t (front ++ e :: back)) (hl : Listed e f lines items f') :
    HasChildren f' t (front ++ [e] ++ items ++ back) := by
  induction hl generalizing front with
  | nil => simpa using hc
  | cons hi _ ih => simpa using ih hi.step.numbered (hc.inserted hf hi)

theorem detach (hf : f.Numbered) (hc : HasChildren f t (front ++ e :: back)) :
    HasChildren (f.detach e.tag.id) t (front ++ back) := by
  obtain ⟨s, hm⟩ := Forest.has_iff.1 (.inl hc.has)
  obtain ⟨h, rest, hs⟩ := Hole.exists_fill_of_mem hm
  rw [Forest.detach_eq hf hs]
  simpa using hc.replace [] hf hs (by cases s <;> rfl) (by simp)

theorem emptied (hf : f.Numbered) (hc : HasChildren f t (front ++ e :: back)) :
    HasChildren (f.update e.tag.id fun e => { e with inner := Edit.propertiesOf e.inner }) t
      (front ++ ⟨e.tag, Edit.propertiesOf e.inner⟩ :: back) := by
  obtain ⟨s, hm⟩ := Forest.has_iff.1 (.inl hc.has)
  obtain ⟨h, rest, hs⟩ := Hole.exists_fill_of_mem hm
  rw [Forest.update_eq hf hs]
  simpa using hc.replace [⟨e.tag, Edit.propertiesOf e.inner⟩] hf hs (by cases s <;> rfl) rfl

end HasChildren

end MailMerge.Word
