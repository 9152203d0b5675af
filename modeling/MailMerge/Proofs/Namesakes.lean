import MailMerge.Proofs.Origins
import MailMerge.Proofs.Spared

/-!
# Elements of one name

What an edit does to the attached elements of one name, as long as it is neither that of a run nor
that of an element that shows text. A revision leaves them where they are (`SameNamed`). What is put
in or taken away changes how many there are, by as many as are in it (`length_named_fill`).
-/

namespace MailMerge.Word

open MailMerge.Xml

variable {f f' f'' : Forest} {e : Element} {k : Key} {u v w : List Key} {p : Nat} {name : Name}

/-! ## Counting -/

theorem mem_named_ids {c : Content} {i : Nat} : i ∈ (c.named name).map (·.tag.id) ↔
    ∃ k u, k :: u ∈ trails [] c ∧ k.name = name ∧ k.id = i := by
  simp only [Content.named, List.mem_map, List.mem_filter, decide_eq_true_eq]
  constructor
  · rintro ⟨x, ⟨hx, hn⟩, rfl⟩
    obtain ⟨u, hu⟩ := exists_trail [] hx
    exact ⟨_, _, hu, hn, rfl⟩
  · rintro ⟨k, u, ht, hk, rfl⟩
    obtain ⟨x, hx, rfl⟩ := exists_of_head ht
    exact ⟨x, ⟨hx, hk⟩, rfl⟩

theorem nodup_named_ids {c : Content} (hc : c.ids.Nodup) :
    ((c.named name).map (·.tag.id)).Nodup :=
  hc.sublist (List.filter_sublist.map _)

@[simp]
theorem length_named_element {tag : Tag} {inner rest : Content} :
    ((Content.element tag inner rest).named name).length =
      (if tag.name = name then 1 else 0) + (inner.named name).length +
        (rest.named name).length := by
  simp only [Content.named, Content.elements, List.cons_append, List.filter_cons,
    List.filter_append, decide_eq_true_eq]
  split
  all_goals
    simp only [List.length_append, List.length_cons]
    omega

@[simp] theorem named_nil : Content.nil.named name = [] := rfl

@[simp] theorem named_dropText (c : Content) : c.dropText.named name = c.named name := by
  simp [Content.named]

theorem length_named_insertBehindText (new : Element) : ∀ c : Content,
    ((c.insertBehindText new).named name).length =
      ((Content.element new.tag new.inner .nil).named name).length + (c.named name).length
  | .text _ rest => length_named_insertBehindText new rest
  | .nil | .markup _ _ | .element _ _ _ => by simp [Content.insertBehindText]

theorem length_named_eq_zero {c : Content} :
    (c.named name).length = 0 ↔ ∀ x ∈ c.elements, x.tag.name ≠ name := by
  simp [Content.named, List.filter_eq_nil_iff]

/-- There are as many elements of a name more than in other content, wherever it stands. -/
theorem length_named_fill (name : Name) (c c' : Content) : ∀ h : Hole,
    ((h.fill c).named name).length + (c'.named name).length =
      ((h.fill c').named name).length + (c.named name).length
  | .here => Nat.add_comm ..
  | .text _ h | .markup _ h => length_named_fill name c c' h
  | .behind tag inner h | .inside tag h inner => by
    have := length_named_fill name c c' h
    simp only [Hole.fill, length_named_element]
    omega

/-! ## Edits that leave the elements of a name alone -/

/-- The same elements of a name stand in the same places. -/
structure SameNamed (name : Name) (f f' : Forest) : Prop where
  step : Step (fun _ => True) f f'
  trail : ∀ k u, k.name = name →
    (k :: u ∈ trails [] f'.attached ↔ k :: u ∈ trails [] f.attached)

namespace SameNamed

theorem refl (hf : f.Numbered) : SameNamed name f f := ⟨.refl hf, fun _ _ _ => .rfl⟩

theorem trans (h : SameNamed name f f') (h' : SameNamed name f' f'') : SameNamed name f f'' :=
  ⟨h.step.trans h'.step, fun k u hk => (h'.trail k u hk).trans (h.trail k u hk)⟩

theorem ids (h : SameNamed name f f') (hf : f.Numbered) :
    (f'.attached.named name).map (·.tag.id) = (f.attached.named name).map (·.tag.id) := by
  have hold : ∀ i ∈ (f'.attached.named name).map (·.tag.id), i ∈ f.attached.ids := by
    intro i hi
    obtain ⟨k, u, ht, hk, rfl⟩ := mem_named_ids.1 hi
    exact mem_ids_iff_trail.2 ⟨k, u, (h.trail k u hk).1 ht, rfl⟩
  have hsub := h.step.named_sublist hf name
  rw [List.filter_eq_self.2 fun i hi => decide_eq_true (hold i hi)] at hsub
  refine hsub.eq_of_length_le (List.Subperm.length_le (List.subperm_of_subset ?_ fun i hi => ?_))
  · exact nodup_named_ids hf.attached
  · obtain ⟨k, u, ht, hk, rfl⟩ := mem_named_ids.1 hi
    exact mem_named_ids.2 ⟨k, u, (h.trail k u hk).2 ht, hk, rfl⟩

theorem length_eq (h : SameNamed name f f') (hf : f.Numbered) :
    (f'.attached.named name).length = (f.attached.named name).length := by
  simpa using congrArg List.length (h.ids hf)

end SameNamed

/-- Where nothing comes up, elements of a name stay where they are if none of them is lost. -/
theorem Frame.sameNamed {but : Nat → Prop} (hl : Loss f.next but f f')
    (hlost : ∀ k u, k.name = name → k :: u ∈ trails [] f.attached →
      k :: u ∈ trails [] f'.attached) : SameNamed name f f' := by
  refine ⟨hl.mono (Nat.le_refl _) (fun _ _ h => h) (fun _ h => h.elim) fun _ _ => trivial,
    fun k u hk => ⟨fun ht => (hl.shift.new _ ht).resolve_right id, hlost k u hk⟩⟩

/-! ## Revisions -/

/-- What a revision brings up is a run, or shows text. -/
theorem Reworked.come {n : Nat} {a : List Key} {c c' : Content} (h : Reworked n a c c')
    (ht : k :: u ∈ trails a c') :
    k :: u ∈ trails a c ∨ k.name ∈ Names.showing ∨ k.name = Names.run := by
  rcases h with hsw | ⟨tag, c, rfl, htag, -, hc, -⟩
  · refine (hsw.shift.new _ ht).imp id fun hw => ?_
    cases hw with
    | mk _ _ _ hk => exact .inl hk
  · rw [trails_append, List.mem_append] at ht
    refine ht.imp id fun ht => ?_
    simp only [trails, List.append_nil, List.mem_cons] at ht
    rcases ht with ht | ht
    · obtain ⟨rfl, -⟩ := List.cons.inj ht
      exact .inr htag
    · obtain ⟨x, hx, hkx⟩ := trails_ofInlines hc ht
      exact .inl ((List.cons.inj hkx).1 ▸ hx)

section Revisions

variable (hname : name ∉ Names.run :: Names.showing)
  (hkeep : ∀ k u w v, k.name = name → k :: u ∈ trails [] f.attached → k :: u = w ++ v → ¬Spent w v)

include hname hkeep

theorem Performed.sameNamed {s : Forest.Side} {h : Hole} {rest inner : Content}
    (hp : e.tag.name = Names.paragraph) (hr : Performed f f' e s h rest inner) :
    SameNamed name f f' := by
  refine ⟨(hr.step hp).mono (Nat.le_refl _) (fun _ _ h => h) (fun _ h => h) fun _ _ => trivial,
    fun k u hk => ⟨fun ht => ?_, fun ht => ?_⟩⟩
  · have hside := hr.side
    rw [hr.attached] at ht
    cases s with
    | detached => exact ht
    | attached =>
      simp only [Forest.side, Forest.setSide] at hside ht
      rw [hside]
      simp only [mem_trails_fill, trails, List.cons_append, List.mem_cons, List.mem_append] at ht ⊢
      refine ht.imp id (.imp (.imp id (.imp (fun ht => ?_) id)) id)
      rcases hr.reworked.come ht with ht | hsh | hrun
      · exact ht
      · exact absurd (List.mem_cons_of_mem _ (hk ▸ hsh)) hname
      · exact absurd (hk ▸ hrun ▸ List.mem_cons_self) hname
  · refine (hr.frame.shift.lost _ ht).resolve_right ?_
    rintro ⟨w, v, heq, hspent⟩
    exact hkeep k u w v hk ht heq hspent

theorem Revised.sameNamed (hf : f.Numbered) (hr : Revised p f f') : SameNamed name f f' := by
  rcases hr with rfl | ⟨e, s, h, rest, inner, -, hp, -, hr⟩
  · exact .refl hf
  · exact hr.sameNamed hname hkeep hp

end Revisions

/-! ## Edits that change how many there are -/

section Attached

variable (name) (hf : f.Numbered) (he : f.Has e) (ht : key e.tag :: u ∈ Word.trails [] f.attached)

include hf ht

/-- A list item behind an attached paragraph is counted, and what is in it. -/
theorem Inserted.length_named {cs : List Char} {new : Element} (hi : Inserted f f' e cs new) :
    (f'.attached.named name).length = (f.attached.named name).length +
      ((Content.element new.tag new.inner .nil).named name).length := by
  obtain ⟨s, h, rest, hs, ha, -⟩ := hi.place
  cases s with
  | detached => exact absurd (mem_ids_iff_trail.2 ⟨_, u, ht, rfl⟩) (Forest.notMem_other hf hs)
  | attached =>
    simp only [Forest.side, Forest.setSide] at hs ha
    have := length_named_fill name (.element e.tag e.inner rest)
      (.element e.tag e.inner (rest.insertBehindText new)) h
    simp only [length_named_element, length_named_insertBehindText] at this
    rw [hs, ha, length_named_element]
    omega

include he

/-- What is taken away is not counted any more. -/
theorem length_named_detach : (f.attached.named name).length =
    ((f.detach e.tag.id).attached.named name).length +
      ((Content.element e.tag e.inner .nil).named name).length := by
  obtain ⟨h, rest, hs, -⟩ := exists_attached hf he ht
  have := length_named_fill name (.element e.tag e.inner rest) rest.dropText h
  rw [Forest.detach_eq hf (s := .attached) hs, hs]
  simp only [Forest.setSide, length_named_element, named_dropText, named_nil] at this ⊢
  simp only [List.length_nil] at this ⊢
  omega

theorem length_named_update {g : Element → Element} (hg : (g e).tag = e.tag) :
    ((f.update e.tag.id g).attached.named name).length + (e.inner.named name).length =
      (f.attached.named name).length + ((g e).inner.named name).length := by
  obtain ⟨h, rest, hs, -⟩ := exists_attached hf he ht
  have := length_named_fill name (.element e.tag e.inner rest)
    (.element e.tag (g e).inner rest) h
  rw [Forest.update_eq hf (s := .attached) hs, hs]
  have heta : (⟨e.tag, e.inner⟩ : Element) = e := rfl
  simp only [Forest.setSide, length_named_element, hg, heta] at this ⊢
  omega

omit ht in
/-- With an element that is no root, what is in it is not counted any more. -/
theorem length_named_removed {k : Key} (ht : key e.tag :: k :: u ∈ Word.trails [] f.attached) :
    (f.attached.named name).length = ((removed f e.tag.id).attached.named name).length +
      ((if e.tag.name = name then 1 else 0) + (e.inner.named name).length) := by
  obtain ⟨around, hplace, hmap, -⟩ := place?_of_trail hf he ht
  obtain ⟨parent, above, rfl⟩ := List.exists_cons_of_ne_nil
    (l := around) fun h => by simp [h] at hmap
  have hremoved : removed f e.tag.id = f.detach e.tag.id := by simp [removed, hplace]
  rw [hremoved, length_named_detach name hf he ht, length_named_element]
  simp

end Attached

end MailMerge.Word
