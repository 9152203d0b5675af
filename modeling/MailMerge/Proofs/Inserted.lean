import MailMerge.Proofs.Items

/-!
# Putting list items behind a paragraph

A list item goes directly behind its paragraph, with new numbers (`Inserted`), and the next one goes
behind it in the same way (`Listed`).
-/

namespace MailMerge.Word

open MailMerge.Xml

variable {f f' : Forest} {p : Nat} {e : Element}

theorem Frame.setMade {gone : List Key → List Key → Prop} {come : List Key → Prop} {n : Nat}
    {but : Nat → Prop} (h : Frame gone come n but f f') (root made : Nat) :
    Frame gone come n but f (f'.setMade root made) :=
  ⟨⟨h.numbered.1, h.numbered.2, h.numbered.3, h.numbered.4⟩, h.next, h.kept, h.known, h.shift⟩

/-- `new` has been put behind `e` as a list item that shows `cs`. -/
structure Inserted (f f' : Forest) (e : Element) (cs : List Char) (new : Element) : Prop where
  item : ItemOf e cs new
  place : ∃ (s : Forest.Side) (h : Hole) (rest : Content),
    f.side s = h.fill (.element e.tag e.inner rest) ∧ f'.attached =
      (f.setSide s (h.fill (.element e.tag e.inner (rest.insertBehindText new)))).attached ∧
    f'.detached =
      (f.setSide s (h.fill (.element e.tag e.inner (rest.insertBehindText new)))).detached
  ids : ∀ i ∈ (Content.element new.tag new.inner .nil).ids, f.next ≤ i
  step : Step (fun _ => False) f f'

namespace Inserted

variable {cs : List Char} {new : Element}

theorem has (h : Inserted f f' e cs new) : f'.Has new := by
  obtain ⟨s, k, rest, -, ha, hd⟩ := h.place
  have hm : new ∈ (k.fill (.element e.tag e.inner (rest.insertBehindText new))).elements :=
    Hole.mem_fill (by simp [Content.elements, Content.mem_insertBehindText])
  cases s
  · exact .inl (ha ▸ hm)
  · exact .inr (hd ▸ hm)

theorem old_has (h : Inserted f f' e cs new) : f.Has e := by
  obtain ⟨s, k, rest, hs, -, -⟩ := h.place
  exact has_of_side (s := s) (hs ▸ Hole.self_mem_fill _ _ _ _)

/-- Where the item has been put, everything else has been there before. -/
theorem old_mem (hi : Inserted f f' e cs new) {rest : Content} {z : Element}
    (hz : z ∈ (Content.element e.tag e.inner (rest.insertBehindText new)).elements)
    (hlt : z.tag.id < f.next) : z ∈ (Content.element e.tag e.inner rest).elements := by
  simp only [Content.elements, List.cons_append, List.mem_cons, List.mem_append,
    Content.mem_insertBehindText] at hz ⊢
  have hnew : z.tag.id ∉ (Content.element new.tag new.inner .nil).ids := fun hm => by
    have := hi.ids _ hm
    omega
  rcases hz with hz | hz | rfl | hz | hz
  · exact .inl hz
  · exact .inr (.inl hz)
  · exact absurd (by simp) hnew
  · exact absurd (by simp [Content.id_mem_ids hz]) hnew
  · exact .inr (.inr hz)

end Inserted

theorem insertItem_of_none {cs : List Char} (h : f.element? p = none) :
    Edit.insertItem p cs f = .ok p f := by
  have hn : f.place? p = none := by simpa [Forest.element?] using h
  have hget : (get : Edit Forest) f = .ok f f := rfl
  simp only [Edit.insertItem, bind, EStateM.bind, hget, hn]
  rfl

/-- A numbered item is put behind a paragraph. -/
theorem inserted_of_numbered {cs : List Char} {s : Forest.Side} {h : Hole} {rest inner : Content}
    {tag : Tag} {m : Nat} (hf : f.Numbered) (hp : e.tag.name = Names.paragraph)
    (hs : f.side s = h.fill (.element e.tag e.inner rest)) (hitem : ItemOf e cs ⟨tag, inner⟩)
    (hle : f.next ≤ m) (hnd : (Content.element tag inner .nil).ids.Nodup)
    (hids : ∀ i ∈ (Content.element tag inner .nil).ids, f.next ≤ i ∧ i < m) (root made : Nat) :
    Inserted f ((({ f with next := m } : Forest).insertAfter e.tag.id ⟨tag, inner⟩).setMade root
      made) e cs ⟨tag, inner⟩ := by
  have hfm := hf.withNext m
  have hsm : ({ f with next := m } : Forest).side s = h.fill (.element e.tag e.inner rest) :=
    (f.side_next m s).trans hs
  have hin : e.inner.ids.Nodup :=
    hf.nodup_inner (has_of_side (s := s) (hs ▸ Hole.self_mem_fill _ _ _ _))
  have hins := Forest.insertAfter_eq hfm hsm ⟨tag, inner⟩
  have frame : ∀ {come : List Key → Prop},
      (∀ t ∈ trails (Around.trail h []) (.element tag inner .nil), come t) →
        Frame (fun _ _ => True) come f.next (fun _ => False) f
          (({ f with next := m } : Forest).insertAfter e.tag.id ⟨tag, inner⟩) := fun hcome =>
    (insertAfter_frame hfm hle hsm hitem.name hnd hids hcome).1.of_next hle
  have hstep : Step (fun _ => False) f
      (({ f with next := m } : Forest).insertAfter e.tag.id ⟨tag, inner⟩) := by
    -- What is known of the new trails depends on the side: only attached ones are seen.
    cases s with
    | attached =>
      refine frame (hitem.made hin hp fun t ht => ?_)
      have hside : f.attached = _ := hs
      rw [hside, mem_trails_fill]
      exact .inr (.inl (mem_trails_element.2
        ((mem_trails_element.1 ht).imp id (.imp id (absurd · List.not_mem_nil)))))
    | detached =>
      refine (frame fun _ _ => trivial : Frame _ (fun _ => True) _ _ _ _).with_shift ?_
      rw [hins]
      exact .refl _
  refine ⟨hitem, ⟨s, h, rest, hs, ?_, ?_⟩, fun i hi => (hids i hi).1, hstep.setMade root made⟩
  · simp only [Forest.setMade, hins]
    cases s <;> rfl
  · simp only [Forest.setMade, hins]
    cases s <;> rfl

theorem insertItem_spec {cs : List Char} (hf : f.Numbered) (he : f.element? p = some e)
    (hp : e.tag.name = Names.paragraph) :
    Meets (Edit.insertItem p cs) f
      (fun i f' => ∃ new : Element, new.tag.id = i ∧ f.isRoot p = false ∧ Inserted f f' e cs new)
      fun err f' => f' = f ∧ (err = .notXmlText ∧ cs.all isXmlChar = false ∨
        err = .besideRoot ∧ f.isRoot p = true) := by
  obtain ⟨-, rfl⟩ := hf.element?_eq_some.1 he
  obtain ⟨place, hplace, rfl⟩ := Option.map_eq_some_iff.1 he
  obtain ⟨s, h, rest, hs, -, -⟩ := hf.place?_eq hplace
  simp only [Edit.insertItem, meets_bind, meets_get, hplace]
  split
  · next hcs => exact ⟨rfl, .inl ⟨rfl, by simpa using hcs⟩⟩
  split
  · next hroot => exact ⟨rfl, .inr ⟨rfl, hroot⟩⟩
  next hroot =>
  set origin := f.origin ((place.around.getLast?.map (·.tag.id)).getD place.element.tag.id)
  set moved := (Edit.newItem place.element cs).moveInto (Scope.ofElements place.around)
    (f.madeFor origin) with hmoved
  set c : Content := .element moved.1.tag moved.1.inner .nil with hc
  obtain ⟨properties, formatting, lead, hpr, hr, hface⟩ :=
    newItem_face place.element cs (Scope.ofElements place.around) (f.madeFor origin)
  rw [← hmoved, ← hc, ← Content.face_renumber c f.next] at hface
  have hnd := Content.nodup_renumber c f.next
  have hids : ∀ i ∈ (c.renumber f.next).1.ids, f.next ≤ i ∧ i < (c.renumber f.next).2 :=
    fun i hi => Content.mem_ids_renumber.1 hi
  have hle : f.next ≤ (c.renumber f.next).2 := by
    rw [Content.renumber_next]
    omega
  rw [meets_bind, meets_of_ok (number_eq c f)]
  -- From here on all that counts of the new numbers is that they are new.
  generalize (c.renumber f.next).1 = c' at *
  generalize (c.renumber f.next).2 = m at *
  obtain ⟨tag, inner, more, rfl, -, -, hmore⟩ := Content.eq_element_of_face hface
  obtain rfl := Content.eq_nil_of_face hmore
  simp only [meets_bind, meets_modify, meets_pure]
  exact ⟨⟨tag, inner⟩, rfl, by simpa using hroot, inserted_of_numbered hf hp hs
    ⟨properties, formatting, lead, hpr, hr, hface⟩ hle hnd hids origin moved.2⟩

/-- `items` have been put behind `e`, each one behind the one before. -/
inductive Listed : Element → Forest → List (List Char) → List Element → Forest → Prop
  | nil {e : Element} {f : Forest} : Listed e f [] [] f
  | cons {e new : Element} {f f₁ f' : Forest} {line : List Char} {lines : List (List Char)}
      {items : List Element} (h : Inserted f f₁ e line new) (hs : Listed new f₁ lines items f') :
      Listed e f (line :: lines) (new :: items) f'

theorem Listed.step {lines : List (List Char)} {items : List Element} (hf : f.Numbered)
    (h : Listed e f lines items f') : Step (fun _ => False) f f' := by
  induction h with
  | nil => exact .refl hf
  | cons h _ ih => exact h.step.trans (ih h.step.numbered)

/-- The trails of an item come directly behind those of the paragraph, if that is attached. -/
theorem Inserted.trails {cs : List Char} {new : Element} (h : Inserted f f' e cs new) :
    f'.attached = f.attached ∨ ∃ (u : List Key) (front inner back : List (List Key)),
      Word.trails [] f.attached = front ++ (key e.tag :: u) :: inner ++ back ∧
        Word.trails [] f'.attached = front ++ (key e.tag :: u) :: inner ++
          Word.trails u (.element new.tag new.inner .nil) ++ back := by
  obtain ⟨s, k, rest, hs, ha, -⟩ := h.place
  cases s with
  | detached => exact .inl ha
  | attached =>
    simp only [Forest.side, Forest.setSide] at hs ha
    refine .inr ⟨Around.trail k [], Around.front [] k,
      Word.trails (key e.tag :: Around.trail k []) e.inner,
      Word.trails (Around.trail k []) rest ++ Around.back [] k, ?_, ?_⟩
    · rw [hs, trails_fill]
      simp [Word.trails]
    · rw [ha, trails_fill]
      simp [Word.trails, trails_insertBehindText]

/-- Behind an attached paragraph, an item has the same elements around it. -/
theorem Inserted.order {cs : List Char} {new : Element} {u : List Key}
    (h : Inserted f f' e cs new) (hf : f.Numbered)
    (ht : key e.tag :: u ∈ Word.trails [] f.attached) :
    [key e.tag :: u, key new.tag :: u].Sublist (Word.trails [] f'.attached) := by
  obtain ⟨s, k, rest, hs, ha, -⟩ := h.place
  cases s with
  | detached => exact absurd (mem_ids_iff_trail.2 ⟨_, u, ht, rfl⟩) (Forest.notMem_other hf hs)
  | attached =>
    simp only [Forest.side, Forest.setSide] at hs ha
    have hold : key e.tag :: Around.trail k [] ∈ Word.trails [] f.attached := hs ▸ trail_mem_fill
    obtain rfl := (List.cons.inj (trail_eq_of_id hf.attached ht hold rfl)).2
    rw [ha, trails_fill, List.append_assoc]
    refine List.sublist_append_of_sublist_right (List.sublist_append_of_sublist_left ?_)
    simp only [Word.trails, trails_insertBehindText, List.cons_append]
    refine .cons_cons _ (List.sublist_append_of_sublist_right ?_)
    exact .cons_cons _ (List.nil_sublist _)

theorem mem_trails_root {k : Key} : ∀ {c : Content}, [k] ∈ trails [] c →
    ∃ x ∈ c.children, key x.tag = k
  | .text _ rest, h | .markup _ rest, h => mem_trails_root (c := rest) h
  | .element tag inner rest, h => by
    simp only [mem_trails_element] at h
    rcases h with h | h | h
    · exact ⟨⟨tag, inner⟩, by simp [Content.children], (List.cons.inj h).1.symm⟩
    · obtain ⟨_, u, hu⟩ := above_suffix h
      simp at hu
    · obtain ⟨x, hx, hk⟩ := mem_trails_root h
      exact ⟨x, by simp [Content.children, hx], hk⟩

theorem trails_of_child {x : Element} {c : Content} (h : x ∈ c.children) (a : List Key) :
    key x.tag :: a ∈ trails a c := by
  obtain ⟨front, rest, rfl⟩ := Content.exists_of_mem_children h
  simp [trails]

/-- What is put behind an element that is no root is none either. -/
theorem Inserted.isRoot {cs : List Char} {new : Element} (h : Inserted f f' e cs new)
    (hf : f.Numbered) (hr : f.isRoot e.tag.id = false) : f'.isRoot new.tag.id = false := by
  rw [← Bool.not_eq_true] at hr ⊢
  intro hn
  obtain ⟨x, hx, hi⟩ := List.any_eq_true.1 hn
  simp only [decide_eq_true_eq] at hi
  rcases h.trails with ha | ⟨u, front, inner, back, ht, ht'⟩
  · have := hf.lt _ (.inl (Content.id_mem_ids (Content.children_subset _ _ (ha ▸ hx))))
    have := h.ids new.tag.id (by simp)
    omega
  · have hnew : key new.tag :: u ∈ Word.trails [] f'.attached := by simp [ht', Word.trails]
    have hroot := trail_eq_of_id h.step.numbered.attached (trails_of_child hx []) hnew hi
    obtain rfl := (List.cons.inj hroot).2
    obtain ⟨y, hy, hk⟩ := mem_trails_root (k := key e.tag) (c := f.attached) (by simp [ht])
    refine hr (List.any_eq_true.2 ⟨y, hy, ?_⟩)
    have : y.tag.id = e.tag.id := congrArg Key.id hk
    simp [this]

theorem addItems_spec : ∀ (lines : List (List Char)) {f : Forest} {e : Element}, f.Numbered →
    f.Has e → e.tag.name = Names.paragraph →
      Meets (Merge.addItems e.tag.id lines) f (fun _ f' => ∃ items, Listed e f lines items f')
        fun err f' => (∃ items lines', Listed e f lines' items f') ∧
          (err = .notXmlText ∧ (∃ line ∈ lines, line.all isXmlChar = false) ∨
            err = .besideRoot ∧ f.isRoot e.tag.id = true ∧ lines ≠ [])
  | [], f, e, _, _, _ => ⟨[], .nil⟩
  | line :: lines, f, e, hf, he, hp => by
    rw [Merge.addItems, meets_bind]
    refine (insertItem_spec hf (hf.element?_of_has he) hp).mono ?_ ?_
    · rintro _ f₁ ⟨new, rfl, hr, hi⟩
      refine (addItems_spec lines hi.step.numbered hi.has hi.item.name).mono ?_ ?_
      · rintro _ f' ⟨items, hl⟩
        exact ⟨new :: items, .cons hi hl⟩
      · rintro err f' ⟨⟨items, lines', hl⟩, herr⟩
        refine ⟨⟨new :: items, line :: lines', .cons hi hl⟩, herr.imp ?_ fun herr => ?_⟩
        · exact fun ⟨herr, l, hl, hx⟩ => ⟨herr, l, List.mem_cons_of_mem _ hl, hx⟩
        · exact absurd herr.2.1 (by simp [hi.isRoot hf hr])
    · rintro err f' ⟨rfl, ⟨rfl, hx⟩ | ⟨rfl, hroot⟩⟩
      · exact ⟨⟨[], [], .nil⟩, .inl ⟨rfl, line, List.mem_cons_self, hx⟩⟩
      · exact ⟨⟨[], [], .nil⟩, .inr ⟨rfl, hroot, List.cons_ne_nil _ _⟩⟩

end MailMerge.Word
