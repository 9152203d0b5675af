import Mathlib.Data.List.Nodup
import Mathlib.Data.List.Perm.Basic
import MailMerge.Xml.Forest

/-!
# Content around one place

An edit changes content at one place and leaves all around it as it is. A `Hole` is content with a
place left open. Where numbers are not used twice, content is a hole filled with the element of a
given number and what follows it (`exists_fill`), and an edit of that element only changes what the
hole is filled with (`update_fill`, `replace_fill`, `insertAfter_fill`).
-/

namespace MailMerge.Xml

namespace Content

@[simp] theorem ids_nil : nil.ids = [] := rfl

@[simp] theorem ids_text (cs : List Char) (c : Content) : (text cs c).ids = c.ids := rfl

@[simp] theorem ids_markup (m : Markup) (c : Content) : (markup m c).ids = c.ids := rfl

@[simp] theorem ids_element (tag : Tag) (inner rest : Content) :
    (element tag inner rest).ids = tag.id :: (inner.ids ++ rest.ids) := by
  simp [ids, elements]

theorem mem_ids_element {tag : Tag} {inner rest : Content} {id : Nat} :
    id ∈ (element tag inner rest).ids ↔ id = tag.id ∨ id ∈ inner.ids ∨ id ∈ rest.ids := by simp

theorem notMem_ids_element {tag : Tag} {inner rest : Content} {id : Nat} :
    id ∉ (element tag inner rest).ids ↔ id ≠ tag.id ∧ id ∉ inner.ids ∧ id ∉ rest.ids := by
  simp

theorem nodup_ids_element {tag : Tag} {inner rest : Content} :
    (element tag inner rest).ids.Nodup ↔ (tag.id ∉ inner.ids ∧ tag.id ∉ rest.ids) ∧
      inner.ids.Nodup ∧ rest.ids.Nodup ∧ ∀ i ∈ inner.ids, i ∉ rest.ids := by
  rw [ids_element, List.nodup_cons, List.mem_append, not_or, List.nodup_append']
  rfl

theorem mem_element {tag : Tag} {inner rest : Content} {e : Element} :
    e ∈ (element tag inner rest).elements ↔
      e = ⟨tag, inner⟩ ∨ e ∈ inner.elements ∨ e ∈ rest.elements := by
  simp [elements]

theorem mem_element_nil {tag : Tag} {inner : Content} {e : Element} :
    e ∈ (element tag inner nil).elements ↔ e = ⟨tag, inner⟩ ∨ e ∈ inner.elements := by
  simp [elements]

theorem self_mem_element (tag : Tag) (inner rest : Content) :
    ⟨tag, inner⟩ ∈ (element tag inner rest).elements := mem_element.2 (.inl rfl)

theorem mem_ids {c : Content} {id : Nat} : id ∈ c.ids ↔ ∃ e ∈ c.elements, e.tag.id = id := by
  simp [ids]

theorem id_mem_ids {c : Content} {e : Element} (h : e ∈ c.elements) : e.tag.id ∈ c.ids :=
  mem_ids.2 ⟨e, h, rfl⟩

@[simp] theorem elements_dropText : ∀ c : Content, c.dropText.elements = c.elements
  | nil => rfl
  | text _ rest => elements_dropText rest
  | markup _ _ => rfl
  | element _ _ _ => rfl

@[simp] theorem ids_dropText (c : Content) : c.dropText.ids = c.ids := by simp [ids]

@[simp] theorem children_dropText : ∀ c : Content, c.dropText.children = c.children
  | nil => rfl
  | text _ rest => children_dropText rest
  | markup _ _ => rfl
  | element _ _ _ => rfl

@[simp] theorem leadingText_dropText : ∀ c : Content, c.dropText.leadingText = []
  | nil => rfl
  | text _ rest => leadingText_dropText rest
  | markup _ _ => rfl
  | element _ _ _ => rfl

theorem mem_insertBehindText {new e : Element} : ∀ {c : Content},
    e ∈ (c.insertBehindText new).elements ↔
      e = new ∨ e ∈ new.inner.elements ∨ e ∈ c.elements
  | nil => by simp [insertBehindText, elements]
  | text _ rest => by simpa [insertBehindText, elements] using mem_insertBehindText (c := rest)
  | markup _ _ => by simp [insertBehindText, elements]
  | element _ _ _ => by simp [insertBehindText, elements]

theorem ids_insertBehindText (new : Element) : ∀ c : Content,
    (c.insertBehindText new).ids = new.tag.id :: (new.inner.ids ++ c.ids)
  | nil => by simp [insertBehindText]
  | text _ rest => by simpa [insertBehindText] using ids_insertBehindText new rest
  | markup _ _ => by simp [insertBehindText]
  | element _ _ _ => by simp [insertBehindText]

theorem children_insertBehindText (new : Element) : ∀ c : Content,
    (c.insertBehindText new).children = new :: c.children
  | nil => rfl
  | text _ rest => children_insertBehindText new rest
  | markup _ _ => rfl
  | element _ _ _ => rfl

theorem mem_trans {c : Content} {a e : Element} (ha : a ∈ c.elements)
    (he : e ∈ a.inner.elements) : e ∈ c.elements := by
  induction c with
  | nil => simp [elements] at ha
  | text _ _ ih => exact ih ha
  | markup _ _ ih => exact ih ha
  | element tag inner rest ihi ihr =>
    rw [mem_element] at ha ⊢
    rcases ha with rfl | ha | ha
    · exact .inr (.inl he)
    · exact .inr (.inl (ihi ha))
    · exact .inr (.inr (ihr ha))

theorem children_sublist : ∀ c : Content, c.children.Sublist c.elements
  | nil => .slnil
  | text _ rest | markup _ rest => children_sublist rest
  | element _ inner rest =>
    ((children_sublist rest).trans (List.sublist_append_right inner.elements _)).cons_cons _

theorem children_subset (c : Content) : ∀ e ∈ c.children, e ∈ c.elements :=
  fun _ he => (children_sublist c).subset he

theorem exists_of_mem_children {e : Element} : ∀ {c : Content}, e ∈ c.children →
    ∃ front rest, c = front ++ element e.tag e.inner rest
  | text cs c, h => by
    obtain ⟨front, rest, rfl⟩ := exists_of_mem_children (c := c) h
    exact ⟨text cs front, rest, rfl⟩
  | markup m c, h => by
    obtain ⟨front, rest, rfl⟩ := exists_of_mem_children (c := c) h
    exact ⟨markup m front, rest, rfl⟩
  | element tag inner c, h => by
    rcases List.mem_cons.1 h with rfl | h
    · exact ⟨nil, c, rfl⟩
    · obtain ⟨front, rest, rfl⟩ := exists_of_mem_children (c := c) h
      exact ⟨element tag inner front, rest, rfl⟩

/-- Where numbers are not used twice, an element is known by its number. -/
theorem eq_of_id {c : Content} (hc : c.ids.Nodup) {e e' : Element} (he : e ∈ c.elements)
    (he' : e' ∈ c.elements) (h : e.tag.id = e'.tag.id) : e = e' :=
  List.inj_on_of_nodup_map hc he he' h

theorem inner_ids_sublist {c : Content} {e : Element} (he : e ∈ c.elements) :
    e.inner.ids.Sublist c.ids := by
  induction c with
  | nil => simp [elements] at he
  | text _ _ ih => exact ih he
  | markup _ _ ih => exact ih he
  | element tag inner rest ihi ihr =>
    rw [ids_element]
    rcases mem_element.1 he with rfl | he | he
    · exact (List.sublist_append_left _ _).cons _
    · exact ((ihi he).trans (List.sublist_append_left _ _)).cons _
    · exact ((ihr he).trans (List.sublist_append_right _ _)).cons _

theorem nodup_inner {c : Content} (hc : c.ids.Nodup) {e : Element} (he : e ∈ c.elements) :
    e.inner.ids.Nodup :=
  hc.sublist (inner_ids_sublist he)

/-- An element is not inside of itself. -/
theorem id_notMem_inner {c : Content} (hc : c.ids.Nodup) {e : Element} (he : e ∈ c.elements) :
    e.tag.id ∉ e.inner.ids := by
  induction c with
  | nil => simp [elements] at he
  | text _ _ ih => exact ih hc he
  | markup _ _ ih => exact ih hc he
  | element tag inner rest ihi ihr =>
    obtain ⟨⟨hi, -⟩, hni, hnr, -⟩ := nodup_ids_element.1 hc
    rcases mem_element.1 he with rfl | he | he
    · exact hi
    · exact ihi hni he
    · exact ihr hnr he

/-! ## Edits where the element is not -/

theorem update_of_notMem {id : Nat} {f : Element → Element} :
    ∀ {c : Content}, id ∉ c.ids → c.update id f = c
  | nil, _ => rfl
  | text _ rest, h | markup _ rest, h => by rw [update, update_of_notMem (c := rest) h]
  | element tag inner rest, h => by
    obtain ⟨ht, hi, hr⟩ := notMem_ids_element.1 h
    rw [update, if_neg (Ne.symm ht), update_of_notMem hi, update_of_notMem hr]

theorem replace_of_notMem {id : Nat} {new : Content} :
    ∀ {c : Content}, id ∉ c.ids → c.replace id new = c
  | nil, _ => rfl
  | text _ rest, h | markup _ rest, h => by rw [replace, replace_of_notMem (c := rest) h]
  | element tag inner rest, h => by
    obtain ⟨ht, hi, hr⟩ := notMem_ids_element.1 h
    rw [replace, if_neg (Ne.symm ht), replace_of_notMem hi, replace_of_notMem hr]

theorem erase_of_notMem {id : Nat} {c : Content} (h : id ∉ c.ids) : c.erase id = c :=
  replace_of_notMem h

theorem insertAfter_of_notMem {id : Nat} {new : Element} :
    ∀ {c : Content}, id ∉ c.ids → c.insertAfter id new = c
  | nil, _ => rfl
  | text _ rest, h | markup _ rest, h => by rw [insertAfter, insertAfter_of_notMem (c := rest) h]
  | element tag inner rest, h => by
    obtain ⟨ht, hi, hr⟩ := notMem_ids_element.1 h
    rw [insertAfter, if_neg (Ne.symm ht), insertAfter_of_notMem hi, insertAfter_of_notMem hr]

theorem place?_of_notMem {id : Nat} : ∀ {c : Content}, id ∉ c.ids → c.place? id = none
  | nil, _ => rfl
  | text _ rest, h | markup _ rest, h => place?_of_notMem (c := rest) h
  | element tag inner rest, h => by
    obtain ⟨ht, hi, hr⟩ := notMem_ids_element.1 h
    rw [place?, if_neg (Ne.symm ht), place?_of_notMem hi]
    exact place?_of_notMem hr

end Content

/-- Content with a place left open: at its end, behind an element, or inside of one. -/
inductive Hole where
  | here
  | text (cs : List Char) (h : Hole)
  | markup (m : Markup) (h : Hole)
  | behind (tag : Tag) (inner : Content) (h : Hole)
  | inside (tag : Tag) (h : Hole) (rest : Content)

namespace Hole

/-- The content with the place filled. -/
def fill : Hole → Content → Content
  | here, c => c
  | text cs h, c => .text cs (h.fill c)
  | markup m h, c => .markup m (h.fill c)
  | behind tag inner h, c => .element tag inner (h.fill c)
  | inside tag h rest, c => .element tag (h.fill c) rest

/-- The elements around the place, the innermost first, when it is filled. -/
def around : Hole → Content → List Element
  | here, _ => []
  | text _ h, c | markup _ h, c | behind _ _ h, c => h.around c
  | inside tag h _, c => h.around c ++ [⟨tag, h.fill c⟩]

/-- The elements that are not around the place. -/
def beside : Hole → List Element
  | here => []
  | text _ h | markup _ h => h.beside
  | behind tag inner h => ⟨tag, inner⟩ :: inner.elements ++ h.beside
  | inside _ h rest => h.beside ++ rest.elements

/-- The tags of the elements around the place, the innermost first. -/
def above : Hole → List Tag
  | here => []
  | text _ h | markup _ h | behind _ _ h => h.above
  | inside tag h _ => h.above ++ [tag]

/-- The numbers used around the place. -/
def ids (h : Hole) : List Nat := h.above.map (·.id) ++ h.beside.map (·.tag.id)

theorem around_map_tag (c : Content) : ∀ h : Hole, (h.around c).map (·.tag) = h.above
  | here => rfl
  | text _ h | markup _ h | behind _ _ h => around_map_tag c h
  | inside tag h _ => by simp [around, above, around_map_tag c h]

theorem above_ne_nil {h : Hole} {c : Content} {e : Element} {es : List Element}
    (ha : e :: es = h.around c) : h.above ≠ [] := by
  rw [← around_map_tag c h, ← ha]
  exact List.cons_ne_nil _ _

theorem mem_elements_fill {e : Element} {c : Content} : ∀ {h : Hole},
    e ∈ (h.fill c).elements ↔ e ∈ h.beside ∨ e ∈ h.around c ∨ e ∈ c.elements
  | here => by simp [fill, beside, around]
  | text _ h | markup _ h => mem_elements_fill (h := h)
  | behind tag inner h => by
    simp only [fill, beside, around, Content.elements, List.cons_append, List.mem_cons,
      List.mem_append, mem_elements_fill (h := h)]
    tauto
  | inside tag h rest => by
    simp only [fill, beside, around, Content.elements, List.cons_append, List.mem_cons,
      List.mem_append, List.not_mem_nil, or_false, mem_elements_fill (h := h)]
    tauto

/-- What a place is filled with is there. -/
theorem mem_fill {h : Hole} {c : Content} {e : Element} (he : e ∈ c.elements) :
    e ∈ (h.fill c).elements := mem_elements_fill.2 (.inr (.inr he))

theorem mem_fill_of_around {h : Hole} {c : Content} {e : Element} (he : e ∈ h.around c) :
    e ∈ (h.fill c).elements := mem_elements_fill.2 (.inr (.inl he))

theorem self_mem_fill (h : Hole) (tag : Tag) (inner rest : Content) :
    ⟨tag, inner⟩ ∈ (h.fill (.element tag inner rest)).elements :=
  mem_fill (Content.self_mem_element tag inner rest)

theorem ids_fill_perm (c : Content) : ∀ h : Hole, (h.fill c).ids.Perm (h.ids ++ c.ids)
  | here => by simp [fill, ids, above, beside]
  | text _ h | markup _ h => ids_fill_perm c h
  | behind tag inner h => by
    have ih := (ids_fill_perm c h).append_left (tag.id :: inner.ids)
    refine (List.Perm.of_eq (by simp [fill])).trans (ih.trans ?_)
    rw [List.perm_iff_count]
    intro a
    simp [ids, above, beside, Content.ids, List.count_cons]
    omega
  | inside tag h rest => by
    have ih := ((ids_fill_perm c h).append_right rest.ids).cons tag.id
    refine (List.Perm.of_eq (by simp [fill])).trans (ih.trans ?_)
    rw [List.perm_iff_count]
    intro a
    simp [ids, above, beside, Content.ids, List.count_cons]
    omega

theorem mem_ids_fill {h : Hole} {c : Content} {i : Nat} :
    i ∈ (h.fill c).ids ↔ i ∈ h.ids ∨ i ∈ c.ids := by
  rw [(ids_fill_perm c h).mem_iff, List.mem_append]

theorem nodup_fill {h : Hole} {c : Content} :
    (h.fill c).ids.Nodup ↔ h.ids.Nodup ∧ c.ids.Nodup ∧ ∀ i ∈ h.ids, i ∉ c.ids := by
  rw [(ids_fill_perm c h).nodup_iff, List.nodup_append]
  refine and_congr_right fun _ => and_congr_right fun _ => ?_
  exact ⟨fun hd i hi hc => hd i hi i hc rfl, fun hd i hi j hj e => hd i hi (e ▸ hj)⟩

/-- A hole in what fills another one. -/
def comp : Hole → Hole → Hole
  | here, k => k
  | text cs h, k => text cs (h.comp k)
  | markup m h, k => markup m (h.comp k)
  | behind tag inner h, k => behind tag inner (h.comp k)
  | inside tag h rest, k => inside tag (h.comp k) rest

@[simp] theorem fill_comp (k : Hole) (c : Content) : ∀ h : Hole,
    (h.comp k).fill c = h.fill (k.fill c)
  | here => rfl
  | text _ h | markup _ h | behind _ _ h | inside _ h _ => by simp [comp, fill, fill_comp k c h]

/-- Where the element with a number is. -/
theorem exists_fill {id : Nat} : ∀ {c : Content}, id ∈ c.ids →
    ∃ (h : Hole) (tag : Tag) (inner rest : Content),
      c = h.fill (.element tag inner rest) ∧ tag.id = id
  | .text cs rest, hc => by
    obtain ⟨h, tag, inner, more, rfl, ht⟩ := exists_fill (c := rest) hc
    exact ⟨.text cs h, tag, inner, more, rfl, ht⟩
  | .markup m rest, hc => by
    obtain ⟨h, tag, inner, more, rfl, ht⟩ := exists_fill (c := rest) hc
    exact ⟨.markup m h, tag, inner, more, rfl, ht⟩
  | .element tag inner rest, hc => by
    rcases Content.mem_ids_element.1 hc with rfl | hc | hc
    · exact ⟨.here, tag, inner, rest, rfl, rfl⟩
    · obtain ⟨h, t, i, more, rfl, ht⟩ := exists_fill hc
      exact ⟨.inside tag h rest, t, i, more, rfl, ht⟩
    · obtain ⟨h, t, i, more, rfl, ht⟩ := exists_fill hc
      exact ⟨.behind tag inner h, t, i, more, rfl, ht⟩

/-- Where an element is. -/
theorem exists_fill_of_mem {e : Element} : ∀ {c : Content}, e ∈ c.elements →
    ∃ (h : Hole) (rest : Content), c = h.fill (.element e.tag e.inner rest)
  | .text cs rest, hc => by
    obtain ⟨h, more, rfl⟩ := exists_fill_of_mem (c := rest) hc
    exact ⟨.text cs h, more, rfl⟩
  | .markup m rest, hc => by
    obtain ⟨h, more, rfl⟩ := exists_fill_of_mem (c := rest) hc
    exact ⟨.markup m h, more, rfl⟩
  | .element tag inner rest, hc => by
    rcases Content.mem_element.1 hc with rfl | hc | hc
    · exact ⟨.here, rest, rfl⟩
    · obtain ⟨h, more, rfl⟩ := exists_fill_of_mem hc
      exact ⟨.inside tag h rest, more, rfl⟩
    · obtain ⟨h, more, rfl⟩ := exists_fill_of_mem hc
      exact ⟨.behind tag inner h, more, rfl⟩

section Edits

variable {tag : Tag} {inner rest : Content}

theorem id_notMem {h : Hole} (hn : (h.fill (.element tag inner rest)).ids.Nodup) :
    tag.id ∉ h.ids ∧ tag.id ∉ inner.ids ∧ tag.id ∉ rest.ids := by
  obtain ⟨-, hc, hd⟩ := nodup_fill.1 hn
  exact ⟨fun hi => hd _ hi (by simp), (Content.nodup_ids_element.1 hc).1⟩

theorem mem_ids_behind {t : Tag} {c : Content} {h : Hole} {i : Nat} :
    i ∈ (behind t c h).ids ↔ i = t.id ∨ i ∈ c.ids ∨ i ∈ h.ids := by
  simp only [ids, above, beside, List.mem_append, List.map_append, List.map_cons, List.cons_append,
    List.mem_cons, Content.ids]
  tauto

theorem mem_ids_inside {t : Tag} {c : Content} {h : Hole} {i : Nat} :
    i ∈ (inside t h c).ids ↔ i = t.id ∨ i ∈ c.ids ∨ i ∈ h.ids := by
  simp only [ids, above, beside, List.mem_append, List.map_append, List.map_cons, List.map_nil,
    List.mem_cons, List.not_mem_nil, Content.ids]
  tauto

theorem update_fill {f : Element → Element} (hr : tag.id ∉ rest.ids) :
    ∀ {h : Hole}, tag.id ∉ h.ids → (h.fill (.element tag inner rest)).update tag.id f =
      h.fill (.element (f ⟨tag, inner⟩).tag (f ⟨tag, inner⟩).inner rest)
  | here, _ => by simp [fill, Content.update, Content.update_of_notMem hr]
  | text _ h, hi | markup _ h, hi => by simp [fill, Content.update, update_fill hr (h := h) hi]
  | behind t c h, hi => by
    simp only [mem_ids_behind, not_or] at hi
    simp [fill, Content.update, Ne.symm hi.1, Content.update_of_notMem hi.2.1, update_fill hr hi.2.2]
  | inside t h c, hi => by
    simp only [mem_ids_inside, not_or] at hi
    simp [fill, Content.update, Ne.symm hi.1, Content.update_of_notMem hi.2.1, update_fill hr hi.2.2]

theorem replace_fill {new : Content} :
    ∀ {h : Hole}, tag.id ∉ h.ids →
      (h.fill (.element tag inner rest)).replace tag.id new = h.fill (new ++ rest.dropText)
  | here, _ => by simp [fill, Content.replace]
  | text _ h, hi | markup _ h, hi => by simp [fill, Content.replace, replace_fill (h := h) hi]
  | behind t c h, hi => by
    simp only [mem_ids_behind, not_or] at hi
    simp [fill, Content.replace, Ne.symm hi.1, Content.replace_of_notMem hi.2.1,
      replace_fill hi.2.2]
  | inside t h c, hi => by
    simp only [mem_ids_inside, not_or] at hi
    simp [fill, Content.replace, Ne.symm hi.1, Content.replace_of_notMem hi.2.1,
      replace_fill hi.2.2]

theorem erase_fill {h : Hole} (hi : tag.id ∉ h.ids) :
    (h.fill (.element tag inner rest)).erase tag.id = h.fill rest.dropText :=
  replace_fill hi

theorem insertAfter_fill {new : Element} :
    ∀ {h : Hole}, tag.id ∉ h.ids → (h.fill (.element tag inner rest)).insertAfter tag.id new =
      h.fill (.element tag inner (rest.insertBehindText new))
  | here, _ => by simp [fill, Content.insertAfter]
  | text _ h, hi | markup _ h, hi => by
    simp [fill, Content.insertAfter, insertAfter_fill (h := h) hi]
  | behind t c h, hi => by
    simp only [mem_ids_behind, not_or] at hi
    simp [fill, Content.insertAfter, Ne.symm hi.1, Content.insertAfter_of_notMem hi.2.1,
      insertAfter_fill hi.2.2]
  | inside t h c, hi => by
    simp only [mem_ids_inside, not_or] at hi
    simp [fill, Content.insertAfter, Ne.symm hi.1, Content.insertAfter_of_notMem hi.2.1,
      insertAfter_fill hi.2.2]

theorem place?_fill : ∀ {h : Hole}, tag.id ∉ h.ids →
    (h.fill (.element tag inner rest)).place? tag.id =
      some ⟨⟨tag, inner⟩, h.around (.element tag inner rest)⟩
  | here, _ => by simp [fill, Content.place?, around]
  | text _ h, hi | markup _ h, hi => place?_fill (h := h) hi
  | behind t c h, hi => by
    simp only [mem_ids_behind, not_or] at hi
    simp [fill, Content.place?, around, Ne.symm hi.1, Content.place?_of_notMem hi.2.1,
      place?_fill hi.2.2]
  | inside t h c, hi => by
    simp only [mem_ids_inside, not_or] at hi
    simp [fill, Content.place?, around, Ne.symm hi.1, place?_fill hi.2.2]

end Edits

end Hole

namespace Content

/-- The place of the only element with a number. -/
theorem place?_eq {c : Content} (hc : c.ids.Nodup) {id : Nat} {e : Element} {around : List Element}
    (hp : c.place? id = some ⟨e, around⟩) : ∃ (h : Hole) (rest : Content),
      c = h.fill (.element e.tag e.inner rest) ∧ e.tag.id = id ∧
        around = h.around (.element e.tag e.inner rest) := by
  by_cases hi : id ∈ c.ids
  · obtain ⟨h, tag, inner, rest, rfl, rfl⟩ := Hole.exists_fill hi
    rw [Hole.place?_fill (Hole.id_notMem hc).1] at hp
    cases hp
    exact ⟨h, rest, rfl, rfl, rfl⟩
  · rw [place?_of_notMem hi] at hp
    cases hp

end Content

end MailMerge.Xml
