import Mathlib.Data.List.Flatten
import MailMerge.Proofs.Expanded

/-!
# Waiting for a turn

While text is replaced in other paragraphs, a paragraph shows nothing that it has not shown, and its
place in a list is what it was. What is changed in it is in paragraphs of their own, and all else
that happens to it is that something is taken away (`Wanes`). So a paragraph whose tags are to be
replaced later has no more text when their turn comes (`Waits`, `substitute_waits`).
-/

namespace MailMerge.Word

open MailMerge.Xml

variable {tag : Tag} {inner inner' rest rest' c c' d : Content} {n : Name}

/-! ## The place in a list -/

/-- The elements that the place of a list item is read from. -/
def Names.placing : List Name := [paragraphProperties, style, numbering, numberId, level]

/-- Content with nothing but the elements that the place of a list item is read from. -/
def placing : Content → Content
  | .nil => .nil
  | .text _ rest => placing rest
  | .markup _ rest => placing rest
  | .element tag inner rest =>
    if tag.name ∈ Names.placing then .element tag (placing inner) (placing rest) else placing rest

/-- An element with nothing else in it. -/
def placed (e : Element) : Element := ⟨e.tag, placing e.inner⟩

theorem placing_of_notMem (h : tag.name ∉ Names.placing) :
    placing (.element tag inner rest) = placing rest := if_neg h

@[simp] theorem placing_dropText : ∀ c : Content, placing c.dropText = placing c
  | .nil => rfl
  | .text _ rest => placing_dropText rest
  | .markup _ _ => rfl
  | .element _ _ _ => rfl

theorem placing_append (c d : Content) : placing (c ++ d) = placing c ++ placing d := by
  induction c with
  | nil => rfl
  | text _ _ ih => exact ih
  | markup _ _ ih => exact ih
  | element _ _ _ _ ih => simp [placing, ih, apply_ite (· ++ placing d)]

theorem placing_insertBehindText {new : Element} (h : new.tag.name ∉ Names.placing) :
    ∀ c : Content, placing (c.insertBehindText new) = placing c
  | .nil => placing_of_notMem h
  | .text _ rest => placing_insertBehindText h rest
  | .markup _ _ => placing_of_notMem h
  | .element _ _ _ => placing_of_notMem h

theorem children_placing : ∀ c : Content,
    (placing c).children = (c.children.filter (·.tag.name ∈ Names.placing)).map placed
  | .nil => rfl
  | .text _ rest | .markup _ rest => children_placing rest
  | .element tag inner rest => by
    rw [placing]
    split <;> simp [Content.children, children_placing rest, placed, *]

theorem child?_placing (c : Content) (hn : n ∈ Names.placing) :
    (placing c).child? n = (c.child? n).map placed := by
  rw [Content.child?, children_placing, List.find?_map, List.find?_filter, Content.child?]
  congr 2
  funext e
  by_cases he : e.tag.name = n <;> simp [placed, he, hn]

theorem filter_placing (c : Content) (hn : n ∈ Names.placing) :
    (placing c).children.filter (fun e => e.tag.name = n) =
      (c.children.filter fun e => e.tag.name = n).map placed := by
  have hfilter : c.children.filter (fun e => ((fun e => decide (e.tag.name = n)) ∘ placed) e &&
      decide (e.tag.name ∈ Names.placing)) = c.children.filter fun e => e.tag.name = n := by
    refine List.filter_congr fun e _ => ?_
    by_cases he : e.tag.name = n <;> simp [placed, he, hn]
  rw [children_placing, List.filter_map, List.filter_filter, hfilter]

theorem grandchild?_placing (c : Content) {m : Name} (hm : m ∈ Names.placing)
    (hn : n ∈ Names.placing) :
    (placing c).grandchild? m n = (c.grandchild? m n).map placed := by
  rw [Content.grandchild?, filter_placing c hm, List.findSome?_map, Content.grandchild?,
    List.map_findSome?]
  exact congrArg (List.findSome? · _) (funext fun e => child?_placing e.inner hn)

theorem properties_placing (c : Content) : properties (placing c) = (properties c).map placed :=
  filter_placing c (by decide)

theorem style_placed (e : Element) : Paragraph.style (placed e) = Paragraph.style e := by
  unfold Paragraph.style
  rw [placed, grandchild?_placing _ (by decide) (by decide)]
  cases e.inner.grandchild? Names.paragraphProperties Names.style <;> rfl

theorem glyph_placed (e : Element) : Paragraph.glyph (placed e) = Paragraph.glyph e := by
  unfold Paragraph.glyph
  rw [style_placed, placed, grandchild?_placing _ (by decide) (by decide)]
  cases e.inner.grandchild? Names.paragraphProperties Names.numbering with
  | none => rfl
  | some numbering =>
    simp only [Option.map_some, placed]
    rw [child?_placing _ (by decide), child?_placing _ (by decide)]
    cases numbering.inner.child? Names.numberId <;> cases numbering.inner.child? Names.level <;> rfl

/-- The place in a list is the same where all is the same that it is read from. -/
theorem glyph_of_placing {e e' : Element} (h : placing e'.inner = placing e.inner) :
    Paragraph.glyph e' = Paragraph.glyph e := by
  have hinner : Paragraph.glyph (placed e') = Paragraph.glyph (placed e) :=
    congrArg (fun c => Paragraph.glyph ⟨e.tag, c⟩) h
  rw [← glyph_placed e', hinner, glyph_placed]

/-! ## Content that wanes -/

theorem legible_paragraph {run : Option Nat} (h : tag.name = Names.paragraph) :
    Legible run (.element tag inner rest) ↔ Legible run rest := by
  have hc : tag.name ∈ Names.concealing := h ▸ by decide
  have hs : tag.name ∉ Names.showing := h ▸ paragraph_notMem_showing
  simp [Legible, hc, hs]

theorem legible_insertBehindText {run : Option Nat} {new : Element}
    (h : new.tag.name = Names.paragraph) : ∀ {c : Content},
    Legible run (c.insertBehindText new) ↔ Legible run c
  | .nil => legible_paragraph h
  | .text _ rest => legible_insertBehindText h (c := rest)
  | .markup _ _ => legible_paragraph h
  | .element _ _ _ => legible_paragraph h

/-- Content that shows nothing that it has not shown, has no text in new places, and has all that
the place of a list item is read from. -/
structure Wanes (c c' : Content) : Prop where
  leading : c'.leadingText = c.leadingText
  shown : ∀ run, (segmentsIn run c').Sublist (segmentsIn run c)
  place : placing c' = placing c
  leaf : c.elements = [] → c'.elements = []
  legible : ∀ run, Legible run c → Legible run c'
  clear : ClearProperties c → ClearProperties c'

namespace Wanes

theorem refl (c : Content) : Wanes c c := ⟨rfl, fun _ => .refl _, rfl, id, fun _ => id, id⟩

theorem trans (h : Wanes c c') (h' : Wanes c' d) : Wanes c d :=
  ⟨h'.leading.trans h.leading, fun run => (h'.shown run).trans (h.shown run),
    h'.place.trans h.place, fun hc => h'.leaf (h.leaf hc),
    fun run hc => h'.legible run (h.legible run hc), fun hc => h'.clear (h.clear hc)⟩

theorem text (cs : List Char) (h : Wanes c c') : Wanes (.text cs c) (.text cs c') :=
  ⟨congrArg (cs ++ ·) h.leading, h.shown, h.place, h.leaf, h.legible, h.clear⟩

theorem markup (m : Markup) (h : Wanes c c') : Wanes (.markup m c) (.markup m c') :=
  ⟨rfl, h.shown, h.place, h.leaf, h.legible, h.clear⟩

theorem element (tag : Tag) (hi : Wanes inner inner') (hr : Wanes rest rest') :
    Wanes (.element tag inner rest) (.element tag inner' rest') where
  leading := rfl
  shown run := by
    have head : ∀ r, Segment.of? r tag inner' = Segment.of? r tag inner := fun r => by
      simp only [Segment.of?, hi.leading]
    simp only [segmentsIn, head]
    refine ((List.Sublist.refl _).append ?_).append (hr.shown run)
    split
    · exact .refl _
    · exact hi.shown _
  place := by simp only [placing, hi.place, hr.place]
  leaf h := by simp [Content.elements] at h
  legible run h := ⟨fun hr hs => hi.leaf (h.1 hr hs), fun hc => ⟨hi.legible _ (h.2.1 hc).1,
    fun hn => List.sublist_nil.1 ((h.2.1 hc).2 hn ▸ hi.shown _)⟩, hr.legible run h.2.2⟩
  clear h q hq := by
    simp only [ClearProperties, properties_element, List.mem_append] at h hq
    rcases hq with hq | hq
    · split at hq
      · next hn =>
        obtain rfl := List.mem_singleton.1 hq
        exact List.sublist_nil.1 (h ⟨tag, inner⟩ (.inl (by simp [hn])) ▸ hi.shown none)
      · cases hq
    · exact hr.clear (fun q hq => h q (.inr hq)) q hq

/-- An element is taken away, with the text behind it. -/
theorem drop (h : tag.name ∉ Names.placing) : Wanes (.element tag inner rest) rest.dropText where
  leading := Content.leadingText_dropText rest
  shown run := by
    rw [segmentsIn_dropText]
    exact List.sublist_append_right _ _
  place := by rw [placing_dropText, placing_of_notMem h]
  leaf h := by simp [Content.elements] at h
  legible _ h := legible_dropText.2 h.2.2
  clear h q hq := h q <| by
    rw [properties_element]
    exact List.mem_append_right _ (by simpa [properties] using hq)

/-- What is in a paragraph does not count around it. -/
theorem paragraph (h : tag.name = Names.paragraph) :
    Wanes (.element tag inner rest) (.element tag inner' rest) where
  leading := rfl
  shown run := by
    rw [segmentsIn_paragraph h, segmentsIn_paragraph h]
  place := by
    have hn : tag.name ∉ Names.placing := h ▸ by decide
    rw [placing_of_notMem hn, placing_of_notMem hn]
  leaf h := by simp [Content.elements] at h
  legible run hl := (legible_paragraph h).2 ((legible_paragraph h).1 hl)
  clear hc := by
    have hn : ¬tag.name = Names.paragraphProperties := h ▸ by decide
    simpa [ClearProperties, hn] using hc

/-- A paragraph is put behind an element. -/
theorem behind {new : Element} (h : new.tag.name = Names.paragraph) :
    Wanes (.element tag inner rest) (.element tag inner (rest.insertBehindText new)) where
  leading := rfl
  shown run := by
    simp only [segmentsIn, segmentsIn_insertBehindText h]
    exact .refl _
  place := by
    have hn : new.tag.name ∉ Names.placing := h ▸ by decide
    simp only [placing, placing_insertBehindText hn]
  leaf h := by simp [Content.elements] at h
  legible run hl := ⟨hl.1, hl.2.1, (legible_insertBehindText h).2 hl.2.2⟩
  clear hc := by
    have hn : ¬new.tag.name = Names.paragraphProperties := h ▸ by decide
    simpa [ClearProperties, properties, Content.children, Content.children_insertBehindText, hn]
      using hc

theorem fill (h : Wanes c c') : ∀ k : Hole, Wanes (k.fill c) (k.fill c')
  | .here => h
  | .text cs k => (fill h k).text cs
  | .markup m k => (fill h k).markup m
  | .behind tag inner k => element tag (refl inner) (fill h k)
  | .inside tag k rest => element tag (fill h k) (refl rest)

/-- What is there after a change at one place has been there before, or is at that place. -/
theorem mem_fill (h : Wanes c c') {k : Hole} {x' : Element} (hx : x' ∈ (k.fill c').elements) :
    x' ∈ c'.elements ∨ ∃ x ∈ (k.fill c).elements, x.tag = x'.tag ∧ Wanes x.inner x'.inner := by
  rcases Hole.mem_elements_fill.1 hx with hx | hx | hx
  · exact .inr ⟨x', Hole.mem_elements_fill.2 (.inl hx), rfl, .refl _⟩
  · obtain ⟨g, k, rest, rfl, hk⟩ := Hole.exists_of_mem_around hx
    exact .inr ⟨⟨x'.tag, k.fill c⟩, Hole.mem_fill_of_around Hole.mem_around_comp,
      rfl, hk ▸ h.fill k⟩
  · exact .inl hx

end Wanes

/-! ## Paragraphs that wait -/

variable {f f' f'' : Forest} {e : Element} {i p : Nat}

/-- What is left of the paragraph `i`, if it has text, has waned. -/
def Waits (i : Nat) (f f' : Forest) : Prop :=
  ∀ x', f'.Has x' → x'.tag.id = i → x'.tag.name = Names.paragraph → Paragraph.text x' ≠ [] →
    ∃ x, f.Has x ∧ x.tag = x'.tag ∧ Wanes x.inner x'.inner

theorem Wanes.text_sublist {x x' : Element} (h : Wanes x.inner x'.inner) :
    (Paragraph.text x').Sublist (Paragraph.text x) :=
  (h.shown none).flatMap _

namespace Waits

theorem refl (f : Forest) : Waits i f f := fun x hx _ _ _ => ⟨x, hx, rfl, .refl _⟩

theorem trans (h : Waits i f f') (h' : Waits i f' f'') : Waits i f f'' := by
  intro x hx hid hn ht
  obtain ⟨x₁, hx₁, htag₁, hw₁⟩ := h' x hx hid hn ht
  have ht₁ : Paragraph.text x₁ ≠ [] := fun hnil =>
    ht (List.sublist_nil.1 (hnil ▸ hw₁.text_sublist))
  obtain ⟨x₂, hx₂, htag₂, hw₂⟩ := h x₁ hx₁ (htag₁ ▸ hid) (htag₁ ▸ hn) ht₁
  exact ⟨x₂, hx₂, htag₂.trans htag₁, hw₂.trans hw₁⟩

/-- An edit at one place, by which trees that have been there before are detached. -/
theorem of_fill {s : Forest.Side} {h : Hole} {c c' extra : Content} (hs : f.side s = h.fill c)
    (ha : f'.attached = (f.setSide s (h.fill c')).attached)
    (hd : f'.detached = (f.setSide s (h.fill c')).detached ++ extra) (hw : Wanes c c')
    (hc : ∀ x ∈ c'.elements, x.tag.id = i → x.tag.name = Names.paragraph →
      Paragraph.text x ≠ [] → f.Has x) (hextra : ∀ x ∈ extra.elements, f.Has x) :
    Waits i f f' := by
  intro x hx hid hn ht
  have hx' : ({ f.setSide s (h.fill c') with
      detached := (f.setSide s (h.fill c')).detached ++ extra } : Forest).Has x :=
    hx.imp (fun hx => ha ▸ hx) fun hx => hd ▸ hx
  rcases Forest.has_setSide.1 hx' with hx | hx | ⟨s', -, hx⟩
  · rcases hw.mem_fill hx with hx | ⟨y, hy, htag, hyw⟩
    · exact ⟨x, hc x hx hid hn ht, rfl, .refl _⟩
    · exact ⟨y, has_of_side (s := s) (hs ▸ hy), htag, hyw⟩
  · exact ⟨x, hextra x hx, rfl, .refl _⟩
  · exact ⟨x, has_of_side hx, rfl, .refl _⟩

end Waits

/-! ### Edits of other paragraphs -/

/-- What is inside of an element, or behind it, is in the forest. -/
theorem has_of_element {s : Forest.Side} {h : Hole} {rest : Content}
    (hs : f.side s = h.fill (.element e.tag e.inner rest)) {x : Element}
    (hx : x = e ∨ x ∈ e.inner.elements ∨ x ∈ rest.elements) : f.Has x :=
  has_of_side (s := s) (hs ▸ Hole.mem_fill (by simpa [Content.elements]))

theorem Revised.waits (h : Revised p f f') (hp : p ≠ i) (hf : f.Numbered) : Waits i f f' := by
  rcases h with rfl | ⟨e, s, k, rest, inner, he, hn, -, h⟩
  · exact .refl _
  obtain ⟨-, rfl⟩ := hf.element?_eq_some.1 he
  refine .of_fill h.side h.attached h.detached (.paragraph hn) (fun x hx hid hxn _ => ?_)
    fun x hx => has_of_element h.side (.inr (.inl (Content.lost_elements hx)))
  simp only [Content.mem_element] at hx
  rcases hx with rfl | hx | hx
  · exact absurd hid hp
  · exact has_of_element h.side (.inr (.inl (h.reworked.paragraph_mem hx hxn)))
  · exact has_of_element h.side (.inr (.inr hx))

theorem Inserted.waits {cs : List Char} {new : Element} (h : Inserted f f' e cs new)
    (hi : i < f.next) : Waits i f f' := by
  obtain ⟨s, k, rest, hs, ha, hd⟩ := h.place
  refine .of_fill hs ha (hd.trans (Content.append_nil _).symm) (.behind h.item.name)
    (fun x hx hid _ _ => ?_) (by simp [Content.elements])
  have hold := h.old_mem hx (hid ▸ hi)
  simp only [Content.mem_element] at hold
  exact has_of_element hs hold

theorem Listed.waits {lines : List (List Char)} {items : List Element}
    (h : Listed e f lines items f') (hi : i < f.next) : Waits i f f' := by
  induction h with
  | nil => exact .refl _
  | cons h _ ih => exact (h.waits hi).trans (ih (Nat.lt_of_lt_of_le hi h.step.next))

theorem waits_detach {s : Forest.Side} {h : Hole} {rest : Content} (hf : f.Numbered)
    (hs : f.side s = h.fill (.element e.tag e.inner rest)) (hn : e.tag.name ∉ Names.placing) :
    Waits i f (f.detach e.tag.id) := by
  rw [Forest.detach_eq hf hs]
  refine .of_fill hs (by cases s <;> rfl) (by cases s <;> rfl) (.drop hn) (fun x hx _ _ _ => ?_)
    fun x hx => ?_
  · exact has_of_element hs (.inr (.inr (by simpa using hx)))
  · refine has_of_element hs ?_
    rw [Content.mem_element_nil] at hx
    exact hx.imp id .inl

/-- A paragraph without text may go away. -/
theorem Lifted.waits (h : Lifted p f f') (hf : f.Numbered)
    (hp : ∀ e, f.element? p = some e → e.tag.name = Names.paragraph ∧ Paragraph.text e = []) :
    Waits i f f' := by
  cases h with
  | none => exact .refl f
  | @away e _ _ he =>
    obtain ⟨hn, -⟩ := hp e (Forest.element?_of_place? he)
    obtain ⟨s, k, rest, hs, rfl, -⟩ := hf.place?_eq he
    exact waits_detach hf hs (hn ▸ by decide)
  | @emptied e _ _ he =>
    obtain ⟨hn, ht⟩ := hp e (Forest.element?_of_place? he)
    obtain ⟨s, k, rest, hs, rfl, -⟩ := hf.place?_eq he
    rw [Forest.update_eq hf hs]
    refine .of_fill hs (by cases s <;> rfl) (by cases s <;> rfl) (.paragraph hn)
      (fun x hx _ hxn hxt => ?_) fun x hx =>
        has_of_element hs (.inr (.inl (Content.lost_elements hx)))
    simp only [Content.mem_element] at hx
    rcases hx with rfl | hx | hx
    · have hsub := (propertiesOf_segments Option.none e.inner).1.flatMap (·.chars)
      exact absurd (List.sublist_nil.1 (ht ▸ hsub)) hxt
    · have hsw : Swept (fun _ _ => True) (fun _ => False) f.next (key e.tag :: Around.trail k [])
          e.inner (Edit.propertiesOf e.inner) := propertiesOf_swept (fun _ _ _ => trivial) _
      exact has_of_element hs (.inr (.inl (hsw.paragraph_mem hx hxn)))
    · exact has_of_element hs (.inr (.inr hx))

theorem waits_removed {id : Nat} (hf : f.Numbered)
    (hn : ∀ e, f.element? id = some e → e.tag.name ∉ Names.placing) : Waits i f (removed f id) := by
  unfold removed
  split
  · next e parent above he =>
    have hne := hn e (Forest.element?_of_place? he)
    obtain ⟨s, k, rest, hs, rfl, -⟩ := hf.place?_eq he
    exact waits_detach hf hs hne
  · exact .refl f

theorem CleanedRow.waits (h : CleanedRow f f') (hf : f.Numbered) : Waits i f f' := by
  have row : ∀ {r : Element}, f.element? r.tag.id = some r → r.tag.name = Names.row →
      Waits i f (removed f r.tag.id) := fun hr hn => waits_removed hf fun e he => by
    obtain rfl := Option.some.inj (he.symm.trans hr)
    exact hn ▸ by decide
  cases h with
  | none => exact .refl f
  | row hr hn => exact row hr hn
  | table hr hn _ ht =>
    obtain ⟨-, htable⟩ : Loss f.next (fun _ => True) f _ ∧ _ := removed_table hf hr hn ht
    exact (row hr hn).trans (waits_removed (removed_row_move hf hr hn).numbered fun e he =>
      htable e he ▸ by decide)

theorem Cleaned.waits (h : Cleaned p f f') (hf : f.Numbered)
    (hp : ∀ e, f.element? p = some e → e.tag.name = Names.paragraph) : Waits i f f' := by
  cases h with
  | none => exact .refl f
  | @away e _ _ he hm h₁ h₂ =>
    refine (h₁.waits hf fun x hx => ?_).trans (h₂.waits (h₁.move hf hp).numbered)
    obtain rfl := Option.some.inj (he.symm.trans hx)
    exact ⟨hp e he, (isEmpty_iff.1 hm).1⟩

end MailMerge.Word

namespace MailMerge.Merge

open Xml Word

variable {d : Document} {stats : Stats} {s : Substitution} {i : Nat}

/-- A paragraph waits while text is replaced in another one. -/
theorem substitute_waits (hd : d.forest.Numbered) (hp : NamesParagraph s.tag.paragraph d.forest)
    (hne : s.tag.paragraph ≠ i) (hi : i < d.forest.next) : Meets (substitute stats s) d
      (fun _ d' => Waits i d.forest d'.forest) fun _ _ => True := by
  have start : ∀ {f}, Revised s.tag.paragraph d.forest f → Move d.forest f := fun h =>
    Edits.move hd (.single (.revised h))
  refine substitute_rule (P := fun _ => Revised s.tag.paragraph d.forest)
    (Q := fun _ f => Waits i d.forest f ∧ f.Numbered ∧ NamesParagraph s.tag.paragraph f)
    (R := fun _ f => Waits i d.forest f) (fun lines _ => ?_) (fun lines f hr => ?_)
    fun lines d' ⟨hw, hd', hp'⟩ => ?_
  · exact (replaceSpan_revised hd hp.2).mono (fun _ _ h => h) fun _ _ _ => trivial
  · have hm := start hr
    have hw := hr.waits hne hd
    have hp₁ := hp.move hd hm
    refine (addItems_cases lines.tail hm.numbered hp₁).mono ?_ fun _ _ _ => trivial
    rintro _ f' (rfl | ⟨e, items, hid, hhas, hn, hl⟩)
    · exact ⟨hw, hm.numbered, hp₁⟩
    · have hl' := Edits.move hm.numbered (hl.edits hn)
      exact ⟨hw.trans (hl.waits (Nat.lt_of_lt_of_le hi hm.next)), hl'.numbered,
        hp₁.move hm.numbered hl'⟩
  · refine (clean_spec hd' hp'.2).mono (fun _ _ h => ?_) fun _ _ h => h.elim
    exact hw.trans (h.2.waits hd' hp'.2)

end MailMerge.Merge
