import MailMerge.Proofs.Shown
import MailMerge.Proofs.Swept

/-!
# Forests

In a forest that is worked on no number is used twice, and none beyond the next free one
(`Forest.Numbered`). Every element is at one place then, attached or detached. An edit at that place
keeps all other paragraphs: they are still in the forest, and show what they showed (`Kept`).
-/

namespace MailMerge.Xml

namespace Content

theorem lost_sublist (kept : List Nat) : ∀ c : Content, (c.lost kept).ids.Sublist c.ids
  | nil => .slnil
  | text _ rest | markup _ rest => lost_sublist kept rest
  | element tag inner rest => by
    rw [lost]
    split
    · rw [ids_append, ids_element]
      exact ((lost_sublist kept inner).append (lost_sublist kept rest)).cons _
    · rw [ids_element, ids_element]
      exact ((List.Sublist.refl _).append (lost_sublist kept rest)).cons_cons _

theorem lost_elements {kept : List Nat} {e : Element} : ∀ {c : Content},
    e ∈ (c.lost kept).elements → e ∈ c.elements
  | text _ rest, he | markup _ rest, he => lost_elements (c := rest) he
  | element tag inner rest, he => by
    simp only [mem_element]
    rw [lost] at he
    split at he
    · rw [elements_append, List.mem_append] at he
      exact .inr (he.imp lost_elements lost_elements)
    · simp only [mem_element] at he
      exact he.imp id (.imp id lost_elements)

theorem mem_lost {kept : List Nat} {e : Element} : ∀ {c : Content}, e ∈ c.elements →
    e.tag.id ∉ kept → e ∈ (c.lost kept).elements
  | text _ rest, he, hk | markup _ rest, he, hk => mem_lost (c := rest) he hk
  | element tag inner rest, he, hk => by
    simp only [mem_element] at he
    rw [lost]
    split
    · next ht =>
      rw [elements_append, List.mem_append]
      rcases he with rfl | he | he
      · exact absurd ht hk
      · exact .inl (mem_lost he hk)
      · exact .inr (mem_lost he hk)
    · simp only [mem_element]
      exact he.imp id (.imp id fun he => mem_lost he hk)

/-- What is lost has no numbers that are kept, if nothing in a lost element is kept. -/
theorem lost_disjoint {kept : List Nat} : ∀ {c : Content},
    (∀ e ∈ c.elements, e.tag.id ∉ kept → ∀ i ∈ e.inner.ids, i ∉ kept) →
      ∀ i ∈ (c.lost kept).ids, i ∉ kept
  | text _ rest, h, i, hi | markup _ rest, h, i, hi => lost_disjoint (c := rest) h i hi
  | element tag inner rest, h, i, hi => by
    simp only [mem_element] at h
    have hr : ∀ i ∈ (rest.lost kept).ids, i ∉ kept :=
      lost_disjoint fun e he => h e (.inr (.inr he))
    rw [lost] at hi
    split at hi
    · rw [ids_append, List.mem_append] at hi
      rcases hi with hi | hi
      · exact lost_disjoint (fun e he => h e (.inr (.inl he))) i hi
      · exact hr i hi
    · next ht =>
      simp only [mem_ids_element] at hi
      rcases hi with rfl | hi | hi
      · exact ht
      · exact h _ (.inl rfl) ht i hi
      · exact hr i hi

end Content

namespace Hole

theorem around_comp (k : Hole) (c : Content) : ∀ h : Hole,
    (h.comp k).around c = k.around c ++ h.around (k.fill c)
  | here => by simp [comp, around]
  | text _ h | markup _ h | behind _ _ h => around_comp k c h
  | inside tag h rest => by simp [comp, around, around_comp k c h]

/-- An element around a place parts what is around the place into what is inside and outside of
it. -/
theorem exists_of_mem_around {q : Element} {c : Content} : ∀ {h : Hole}, q ∈ h.around c →
    ∃ g k rest, h = Hole.comp g (.inside q.tag k rest) ∧ q.inner = k.fill c
  | text cs h, hq => by
    obtain ⟨g, k, rest, rfl, hk⟩ := exists_of_mem_around (h := h) hq
    exact ⟨.text cs g, k, rest, rfl, hk⟩
  | markup m h, hq => by
    obtain ⟨g, k, rest, rfl, hk⟩ := exists_of_mem_around (h := h) hq
    exact ⟨.markup m g, k, rest, rfl, hk⟩
  | behind tag inner h, hq => by
    obtain ⟨g, k, rest, rfl, hk⟩ := exists_of_mem_around (h := h) hq
    exact ⟨.behind tag inner g, k, rest, rfl, hk⟩
  | inside tag h rest, hq => by
    simp only [around, List.mem_append, List.mem_singleton] at hq
    rcases hq with hq | rfl
    · obtain ⟨g, k, rest', rfl, hk⟩ := exists_of_mem_around hq
      exact ⟨.inside tag g rest, k, rest', rfl, hk⟩
    · exact ⟨.here, h, rest, rfl, rfl⟩

theorem mem_around_comp {g k : Hole} {tag : Tag} {rest c : Content} :
    ⟨tag, k.fill c⟩ ∈ (g.comp (.inside tag k rest)).around c := by
  simp [around_comp, around]

end Hole

end MailMerge.Xml

namespace MailMerge.Word

open MailMerge.Xml

/-- An element below which an edit has lost elements loses all that is in these. -/
theorem closed_of_shift {gone : List Key → List Key → Prop} {come : List Key → Prop} {n : Nat}
    {a : List Key} {c c' : Content} (hc : c.ids.Nodup) (hl : ∀ i ∈ c.ids, i < n)
    (hs : Shift gone come n (trails a c) (trails a c')) :
    ∀ e ∈ c.elements, e.tag.id ∉ c'.ids → ∀ i ∈ e.inner.ids, i ∉ c'.ids := by
  intro e he hk i hi hi'
  obtain ⟨h, rest, rfl⟩ := Hole.exists_fill_of_mem he
  obtain ⟨k, u, hku, rfl⟩ := mem_ids_iff_trail.1 hi'
  have hlt : k.id < n := hl _ ((Content.inner_ids_sublist he).subset hi)
  have hold := hs.order.subset (List.mem_filter.2 ⟨hku, by simpa using hlt⟩)
  obtain ⟨k', u', hku', hid⟩ : ∃ k' u',
      k' :: u' ∈ trails (key e.tag :: Around.trail h a) e.inner ∧ k'.id = k.id :=
    mem_ids_iff_trail.1 hi
  obtain ⟨_, v, hv⟩ := above_suffix hku'
  obtain ⟨rfl, rfl⟩ := List.cons.inj
    (trail_eq_of_id hc hold (trails_inner_subset hku') hid.symm)
  obtain ⟨-, rfl⟩ := List.cons.inj hv
  have hm := suffix_mem_trails (u := k :: v) (s := key e.tag :: Around.trail h a) hku
    (by simp only [Around.trail, List.length_cons, List.length_append]; omega)
  exact hk (mem_ids_iff_trail.2 ⟨_, _, hm, rfl⟩)

end MailMerge.Word

namespace MailMerge.Xml

namespace Forest

/-- An element of a forest, attached or detached. -/
def Has (f : Forest) (e : Element) : Prop := e ∈ f.attached.elements ∨ e ∈ f.detached.elements

/-- Whether no number is used twice, and none from `n` on. -/
structure NumberedBelow (n : Nat) (f : Forest) : Prop where
  attached : f.attached.ids.Nodup
  detached : f.detached.ids.Nodup
  apart : ∀ i ∈ f.attached.ids, i ∉ f.detached.ids
  lt : ∀ i, i ∈ f.attached.ids ∨ i ∈ f.detached.ids → i < n

/-- Whether no number is used twice, and only such as have been given. -/
abbrev Numbered (f : Forest) : Prop := f.NumberedBelow f.next

/-- Where in a forest an element is. -/
inductive Side where
  | attached
  | detached

def side (f : Forest) : Side → Content
  | .attached => f.attached
  | .detached => f.detached

def setSide (f : Forest) (s : Side) (c : Content) : Forest :=
  match s with
  | .attached => { f with attached := c }
  | .detached => { f with detached := c }

@[simp] theorem setSide_next (f : Forest) (s : Side) (c : Content) :
    (f.setSide s c).next = f.next := by cases s <;> rfl

@[simp] theorem side_next (f : Forest) (m : Nat) (s : Side) :
    ({ f with next := m } : Forest).side s = f.side s := by cases s <;> rfl

variable {f : Forest} {n : Nat}

theorem has_iff {e : Element} : f.Has e ↔ ∃ s, e ∈ (f.side s).elements :=
  ⟨fun h => h.elim (fun h => ⟨.attached, h⟩) fun h => ⟨.detached, h⟩, fun ⟨s, h⟩ => by
    cases s
    · exact .inl h
    · exact .inr h⟩

/-- What is in an element of a forest is in the forest. -/
theorem Has.inner {e x : Element} (he : f.Has e) (hx : x ∈ e.inner.elements) : f.Has x :=
  he.imp (fun he => Content.mem_trans he hx) fun he => Content.mem_trans he hx

theorem element?_of_place? {id : Nat} {e : Element} {around : List Element}
    (h : f.place? id = some ⟨e, around⟩) : f.element? id = some e := by
  simp [element?, h]

namespace NumberedBelow

variable (hf : f.NumberedBelow n)

include hf

theorem withNext (m : Nat) : ({ f with next := m } : Forest).NumberedBelow n :=
  ⟨hf.attached, hf.detached, hf.apart, hf.lt⟩

theorem side_nodup (s : Side) : (f.side s).ids.Nodup := by
  cases s
  · exact hf.attached
  · exact hf.detached

theorem nodup_inner {e : Element} (he : f.Has e) : e.inner.ids.Nodup := by
  obtain ⟨s, hm⟩ := has_iff.1 he
  exact Content.nodup_inner (hf.side_nodup s) hm

theorem nodup_element {e : Element} (he : f.Has e) :
    (Content.element e.tag e.inner .nil).ids.Nodup := by
  obtain ⟨s, hm⟩ := has_iff.1 he
  rw [Content.ids_element, Content.ids_nil, List.append_nil]
  exact List.nodup_cons.2 ⟨Content.id_notMem_inner (hf.side_nodup s) hm, hf.nodup_inner he⟩

theorem side_lt (s : Side) : ∀ i ∈ (f.side s).ids, i < n := by
  intro i hi
  cases s
  · exact hf.lt i (.inl hi)
  · exact hf.lt i (.inr hi)

theorem has_lt {e : Element} (he : f.Has e) : e.tag.id < n :=
  hf.lt _ (he.imp Content.id_mem_ids Content.id_mem_ids)

theorem inner_lt {e : Element} (he : f.Has e) : ∀ i ∈ e.inner.ids, i < n := by
  obtain ⟨s, hm⟩ := has_iff.1 he
  exact fun i hi => hf.side_lt s i ((Content.inner_ids_sublist hm).subset hi)

theorem eq_of_id {e e' : Element} (he : f.Has e) (he' : f.Has e') (h : e.tag.id = e'.tag.id) :
    e = e' := by
  rcases he with he | he <;> rcases he' with he' | he'
  · exact Content.eq_of_id hf.attached he he' h
  · exact absurd (h ▸ Content.id_mem_ids he') (hf.apart _ (Content.id_mem_ids he))
  · exact absurd (h ▸ Content.id_mem_ids he) (hf.apart _ (Content.id_mem_ids he'))
  · exact Content.eq_of_id hf.detached he he' h

/-- The place of an element, on the side that it is on. -/
theorem place?_eq {id : Nat} {e : Element} {around : List Element}
    (hp : f.place? id = some ⟨e, around⟩) : ∃ (s : Side) (h : Hole) (rest : Content),
      f.side s = h.fill (.element e.tag e.inner rest) ∧ e.tag.id = id ∧
        around = h.around (.element e.tag e.inner rest) := by
  unfold place? at hp
  split at hp
  · next q hq =>
    obtain rfl := Option.some.inj hp
    exact ⟨.attached, Content.place?_eq hf.attached hq⟩
  · exact ⟨.detached, Content.place?_eq hf.detached hp⟩

theorem place?_fill {s : Side} {h : Hole} {tag : Tag} {inner rest : Content}
    (hs : f.side s = h.fill (.element tag inner rest)) :
    f.place? tag.id = some ⟨⟨tag, inner⟩, h.around (.element tag inner rest)⟩ := by
  have hn := hf.side_nodup s
  rw [hs] at hn
  have hp : (h.fill (.element tag inner rest)).place? tag.id = _ :=
    Hole.place?_fill (Hole.id_notMem hn).1
  have hm : tag.id ∈ (f.side s).ids := hs ▸ by simp [Hole.mem_ids_fill]
  cases s
  · simp only [side] at hs
    simp only [place?, hs, hp]
  · simp only [side] at hs hm
    have : tag.id ∉ f.attached.ids := fun ha => hf.apart _ ha hm
    simp only [place?, Content.place?_of_notMem this, hs, hp]

theorem element?_eq_some {id : Nat} {e : Element} :
    f.element? id = some e ↔ f.Has e ∧ e.tag.id = id := by
  constructor
  · intro h
    obtain ⟨p, hp, rfl⟩ := Option.map_eq_some_iff.1 h
    obtain ⟨s, k, rest, hs, hi, -⟩ := hf.place?_eq hp
    refine ⟨has_iff.2 ⟨s, ?_⟩, hi⟩
    rw [hs]
    exact Hole.self_mem_fill _ _ _ _
  · rintro ⟨h, rfl⟩
    obtain ⟨s, h⟩ := has_iff.1 h
    obtain ⟨k, rest, hs⟩ := Hole.exists_fill_of_mem h
    simp only [element?, hf.place?_fill hs, Option.map_some]

theorem element?_of_has {e : Element} (he : f.Has e) : f.element? e.tag.id = some e :=
  hf.element?_eq_some.2 ⟨he, rfl⟩

end NumberedBelow

/-! ## Edits at one place -/

section Place

variable {s : Side} {h : Hole} {tag : Tag} {inner rest : Content}

theorem element?_fill (hf : f.NumberedBelow n)
    (hs : f.side s = h.fill (.element tag inner rest)) : f.element? tag.id = some ⟨tag, inner⟩ := by
  simp only [element?, hf.place?_fill hs, Option.map_some]

theorem notMem_other (hf : f.NumberedBelow n) (hs : f.side s = h.fill (.element tag inner rest)) :
    match s with
    | .attached => tag.id ∉ f.detached.ids
    | .detached => tag.id ∉ f.attached.ids := by
  have hm : tag.id ∈ (f.side s).ids := hs ▸ by simp [Hole.mem_ids_fill]
  cases s
  · exact hf.apart _ hm
  · exact fun ha => hf.apart _ ha hm

theorem update_eq (hf : f.NumberedBelow n) (hs : f.side s = h.fill (.element tag inner rest))
    (g : Element → Element) : f.update tag.id g =
      { f.setSide s (h.fill (.element (g ⟨tag, inner⟩).tag (g ⟨tag, inner⟩).inner rest)) with
        detached := (f.setSide s (h.fill (.element (g ⟨tag, inner⟩).tag (g ⟨tag, inner⟩).inner
          rest))).detached ++ inner.lost (g ⟨tag, inner⟩).inner.ids } := by
  have ho := notMem_other hf hs
  have hn := Hole.id_notMem (hs ▸ hf.side_nodup s)
  have hu : (h.fill (.element tag inner rest)).update tag.id g = _ :=
    Hole.update_fill hn.2.2 hn.1
  simp only [update, element?_fill hf hs]
  cases s
  · simp only [side] at hs ho
    simp only [setSide, hs, hu, Content.update_of_notMem ho]
  · simp only [side] at hs ho
    simp only [setSide, hs, hu, Content.update_of_notMem ho]

theorem detach_eq (hf : f.NumberedBelow n) (hs : f.side s = h.fill (.element tag inner rest)) :
    f.detach tag.id = { f.setSide s (h.fill rest.dropText) with
      detached := (f.setSide s (h.fill rest.dropText)).detached ++ .element tag inner .nil } := by
  have ho := notMem_other hf hs
  have hn := Hole.id_notMem (hs ▸ hf.side_nodup s)
  have he : (h.fill (.element tag inner rest)).erase tag.id = _ := Hole.erase_fill hn.1
  simp only [detach, element?_fill hf hs]
  cases s
  · simp only [side] at hs ho
    simp only [setSide, hs, he, Content.erase_of_notMem ho]
  · simp only [side] at hs ho
    simp only [setSide, hs, he, Content.erase_of_notMem ho]

theorem insertAfter_eq (hf : f.NumberedBelow n)
    (hs : f.side s = h.fill (.element tag inner rest)) (new : Element) :
    f.insertAfter tag.id new =
      f.setSide s (h.fill (.element tag inner (rest.insertBehindText new))) := by
  have ho := notMem_other hf hs
  have hn := Hole.id_notMem (hs ▸ hf.side_nodup s)
  have hi : (h.fill (.element tag inner rest)).insertAfter tag.id new = _ :=
    Hole.insertAfter_fill hn.1
  cases s
  · simp only [side] at hs ho
    simp only [insertAfter, setSide, hs, hi, Content.insertAfter_of_notMem ho]
  · simp only [side] at hs ho
    simp only [insertAfter, setSide, hs, hi, Content.insertAfter_of_notMem ho]

end Place

theorem has_setSide {s : Side} {c extra : Content} {e : Element} :
    ({ f.setSide s c with detached := (f.setSide s c).detached ++ extra } : Forest).Has e ↔
      e ∈ c.elements ∨ e ∈ extra.elements ∨ ∃ s', s' ≠ s ∧ e ∈ (f.side s').elements := by
  have hne : Side.detached ≠ Side.attached := by rintro ⟨⟩
  cases s
  · simp only [Has, setSide, Content.elements_append, List.mem_append]
    constructor
    · rintro (h | h | h)
      · exact .inl h
      · exact .inr (.inr ⟨.detached, hne, h⟩)
      · exact .inr (.inl h)
    · rintro (h | h | ⟨s', hs, h⟩)
      · exact .inl h
      · exact .inr (.inr h)
      · cases s'
        · exact absurd rfl hs
        · exact .inr (.inl h)
  · simp only [Has, setSide, Content.elements_append, List.mem_append]
    constructor
    · rintro (h | h | h)
      · exact .inr (.inr ⟨.attached, hne.symm, h⟩)
      · exact .inl h
      · exact .inr (.inl h)
    · rintro (h | h | ⟨s', hs, h⟩)
      · exact .inr (.inl h)
      · exact .inr (.inr h)
      · cases s'
        · exact .inl h
        · exact absurd rfl hs

/-- New content on one side, and what that side has lost. -/
theorem NumberedBelow.setSide (hf : f.NumberedBelow n) {s : Side} {c extra : Content} {m next : Nat}
    (hc : c.ids.Nodup) (he : extra.ids.Nodup) (hm : n ≤ m)
    (hold : ∀ i ∈ c.ids, i ∈ (f.side s).ids ∨ n ≤ i ∧ i < m)
    (hlost : ∀ i ∈ extra.ids, i ∈ (f.side s).ids ∧ i ∉ c.ids) :
    ({ f.setSide s c with detached := (f.setSide s c).detached ++ extra, next } :
      Forest).NumberedBelow m := by
  have other : ∀ s' ≠ s, ∀ i ∈ (f.side s').ids, i ∉ c.ids ∧ i ∉ extra.ids := by
    intro s' hs i hi
    have hside : i ∉ (f.side s).ids := by
      cases s <;> cases s'
      · exact absurd rfl hs
      · exact fun ha => hf.apart i ha hi
      · exact hf.apart i hi
      · exact absurd rfl hs
    refine ⟨fun hic => ?_, fun hie => hside (hlost i hie).1⟩
    rcases hold i hic with hi' | hi'
    · exact hside hi'
    · exact absurd (hf.side_lt s' i hi) (Nat.not_lt.2 hi'.1)
  have hlt : ∀ s', ∀ i ∈ (f.side s').ids, i < m := fun s' i hi =>
    Nat.lt_of_lt_of_le (hf.side_lt s' i hi) hm
  have hclt : ∀ i ∈ c.ids, i < m := fun i hi => (hold i hi).elim (hlt s i) And.right
  have helt : ∀ i ∈ extra.ids, i < m := fun i hi => hlt s i (hlost i hi).1
  cases s
  · have ho := other .detached (by rintro ⟨⟩)
    simp only [side] at ho
    refine ⟨hc, ?_, fun i hi => ?_, fun i hi => ?_⟩
    · simp only [Forest.setSide, Content.ids_append]
      refine List.nodup_append.2 ⟨hf.detached, he, fun i hi j hj e => (ho i hi).2 (e ▸ hj)⟩
    · simp only [Forest.setSide, Content.ids_append, List.mem_append, not_or]
      exact ⟨fun hd => (ho i hd).1 hi, fun hd => (hlost i hd).2 hi⟩
    · simp only [Forest.setSide, Content.ids_append, List.mem_append] at hi
      rcases hi with hi | hi | hi
      · exact hclt i hi
      · exact hlt .detached i hi
      · exact helt i hi
  · have ho := other .attached (by rintro ⟨⟩)
    simp only [side] at ho
    refine ⟨hf.attached, ?_, fun i hi => ?_, fun i hi => ?_⟩
    · simp only [Forest.setSide, Content.ids_append]
      refine List.nodup_append.2 ⟨hc, he, fun i hi j hj e => (hlost j hj).2 (e ▸ hi)⟩
    · simp only [Forest.setSide, Content.ids_append, List.mem_append, not_or]
      exact ho i hi
    · simp only [Forest.setSide, Content.ids_append, List.mem_append] at hi
      rcases hi with hi | hi | hi
      · exact hlt .attached i hi
      · exact hclt i hi
      · exact helt i hi

end Forest

end MailMerge.Xml
