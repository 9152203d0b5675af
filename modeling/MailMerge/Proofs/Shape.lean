import MailMerge.Proofs.Standing

/-!
# The shape of word processing documents

How elements stand in each other in a word processing document (`Shaped`). This is less than what a
regular outline is: nothing is said of where text may be. Whatever a merge makes has the shape as
well (`inherited_shaped`). In it a row without text has empty paragraphs only, and there are none in
an empty paragraph or in a table without rows. So nothing but empty paragraphs goes away with these.
-/

namespace MailMerge.Word

open MailMerge.Xml

/-- Whether the names of an element and of what is around it are those of a word processing
document: nothing is in an element that shows text; no paragraph and no table is in the properties of
a run; a paragraph in another one is in a drawing, a picture or an object of it; a paragraph in a row
is in a cell of the row, and one in a table is in a row of the table. -/
def Shaped : List Name → Prop
  | [] => True
  | k :: u => (∀ n ∈ u, n ∉ Names.showing) ∧
    (k = Names.paragraph ∨ k = Names.table → Names.runProperties ∉ u) ∧
    (k = Names.paragraph → Enclosed Names.paragraph Names.embedded false u ∧
      Enclosed Names.row [Names.cell] false u ∧ Enclosed Names.table [Names.row] false u)

instance : DecidablePred Shaped
  | [] => inferInstanceAs (Decidable True)
  | _ :: _ => inferInstanceAs (Decidable (_ ∧ _ ∧ _))

/-- The attached trees are those of word processing documents. -/
abbrev InShape (f : Forest) : Prop := ∀ t ∈ trails [] f.attached, Shaped (t.map (·.name))

theorem inherited_shaped : Inherited Shaped where
  written k k' u _ hk' h := by
    have hp : k' ≠ Names.paragraph := fun e => paragraph_notMem_showing (e ▸ hk')
    have ht : k' ≠ Names.table := fun e => absurd (e ▸ hk') (by decide)
    exact ⟨h.1, fun e => absurd e (by simp [hp, ht]), fun e => absurd e hp⟩
  run u h := by
    refine ⟨List.forall_mem_cons.2 ⟨paragraph_notMem_showing, h.1⟩, ?_, ?_⟩ <;>
      exact fun e => absurd e (by decide)
  shown k u hk h := by
    have hp : k ≠ Names.paragraph := fun e => paragraph_notMem_showing (e ▸ hk)
    have ht : k ≠ Names.table := fun e => absurd (e ▸ hk) (by decide)
    refine ⟨?_, fun e => absurd e (by simp [hp, ht]), fun e => absurd e hp⟩
    exact List.forall_mem_cons.2 ⟨by decide, List.forall_mem_cons.2 ⟨paragraph_notMem_showing, h.1⟩⟩
  formatting w v u _ h := by
    cases w with
    | nil =>
      rw [List.nil_append] at h ⊢
      refine ⟨fun n hn => h.1 n ?_, ?_, ?_⟩
      · rcases List.mem_cons.1 hn with rfl | hn
        · exact List.mem_cons_self
        · exact List.mem_cons_of_mem _ (List.mem_append_right _ hn)
      · exact fun e => absurd e (by decide)
      · exact fun e => absurd e (by decide)
    | cons k w =>
      rw [List.cons_append] at h ⊢
      -- Neither a paragraph nor a table is in the properties of a run.
      have hk : ¬(k = Names.paragraph ∨ k = Names.table) := fun e => h.2.1 e (by simp)
      refine ⟨fun n hn => h.1 n ?_, fun e => absurd e hk, fun e => absurd (.inl e) hk⟩
      simp only [List.mem_cons, List.mem_append] at hn ⊢
      rcases hn with hn | hn | hn | hn
      · exact .inl hn
      · exact .inr (.inl hn)
      · exact .inr (.inr (.inl hn))
      · exact .inr (.inr (.inr (.inr hn)))

variable {f f' : Forest} {e x : Element}

theorem Step.inShape {but : Nat → Prop} (h : Step but f f') (hs : InShape f) : InShape f' :=
  fun t ht => (h.made t ht).names inherited_shaped hs

namespace InShape

variable (hs : InShape f) (hf : f.Numbered) (he : e ∈ f.attached.elements)

include hs

/-- A paragraph does not go with a revision of another one. -/
theorem not_spent {k : Key} {u w v : List Key} (ht : k :: u ∈ trails [] f.attached)
    (hk : k.name = Names.paragraph) (h : k :: u = w ++ v) : ¬Spent w v := by
  obtain ⟨h₁, h₂, -⟩ := hs _ ht
  refine not_spent_of_names (by rw [hk]; decide) (List.forall_mem_cons.2 ⟨?_, fun y hy => ?_⟩) h
  · rw [hk]
    decide
  · exact ⟨h₁ _ (List.mem_map_of_mem hy), fun hn => h₂ (.inl hk) (hn ▸ List.mem_map_of_mem hy)⟩

include hf he

/-- A paragraph in an attached element, with its trail. -/
theorem trail_of_paragraph (hx : x ∈ e.inner.elements) (hp : x.tag.name = Names.paragraph) :
    ∃ w v, key x.tag :: (w ++ key e.tag :: v) ∈ trails [] f.attached ∧
      Enclosed Names.paragraph Names.embedded false ((w ++ key e.tag :: v).map (·.name)) ∧
      Enclosed Names.row [Names.cell] false ((w ++ key e.tag :: v).map (·.name)) ∧
      Enclosed Names.table [Names.row] false ((w ++ key e.tag :: v).map (·.name)) := by
  obtain ⟨w, v, -, ht⟩ := exists_trail_inside hf he hx
  exact ⟨w, v, ht, (hs _ ht).2.2 hp⟩

omit hs in
/-- What is reached only from something embedded is in no empty paragraph. -/
theorem not_enclosed_of_isEmpty (hp : e.tag.name = Names.paragraph)
    (hm : Paragraph.isEmpty e = true) (hx : x ∈ e.inner.elements) {w v : List Key}
    (ht : key x.tag :: (w ++ key e.tag :: v) ∈ trails [] f.attached) :
    ¬Enclosed Names.paragraph Names.embedded false ((w ++ key e.tag :: v).map (·.name)) := by
  intro hu
  have hhas : f.Has e := .inl he
  obtain ⟨y, hy, hye, -⟩ := exists_enclosing hf (hhas.inner hx) hhas ht (hp ▸ hu)
  simp only [Paragraph.isEmpty, Bool.and_eq_true, Bool.not_eq_true'] at hm
  exact absurd hm.2 (by simpa using ⟨y, hy, hye⟩)

theorem notMem_of_isEmpty (hp : e.tag.name = Names.paragraph) (hm : Paragraph.isEmpty e = true) :
    ∀ x ∈ e.inner.elements, x.tag.name ≠ Names.paragraph := by
  intro x hx hxp
  obtain ⟨w, v, ht, hu, -⟩ := hs.trail_of_paragraph hf he hx hxp
  exact not_enclosed_of_isEmpty hf he hp hm hx ht hu

theorem row_isEmpty_iff (hr : e.tag.name = Names.row) : Row.isEmpty e = true ↔
    ∀ x ∈ e.inner.elements, x.tag.name = Names.paragraph → Paragraph.isEmpty x = true := by
  constructor
  · intro hm x hx hxp
    obtain ⟨w, v, ht, -, hu, -⟩ := hs.trail_of_paragraph hf he hx hxp
    have hhas : f.Has e := .inl he
    obtain ⟨c, hc, hxc⟩ := exists_cell hf (hhas.inner hx) hhas hr ht hu
    exact List.all_eq_true.1 (List.all_eq_true.1 hm c hc) x
      (List.mem_filter.2 ⟨hxc, by simpa using hxp⟩)
  · intro h
    refine List.all_eq_true.2 fun c hc => List.all_eq_true.2 fun x hx => ?_
    obtain ⟨hx, hxp⟩ := List.mem_filter.1 hx
    exact h x (Content.mem_trans (mem_within (a := []) hc).1 hx) (of_decide_eq_true hxp)

theorem notMem_of_rows_eq_nil (hn : e.tag.name = Names.table) (hm : Table.rows e = []) :
    ∀ x ∈ e.inner.elements, x.tag.name ≠ Names.paragraph := by
  intro x hx hxp
  obtain ⟨w, v, ht, -, -, hu⟩ := hs.trail_of_paragraph hf he hx hxp
  have hhas : f.Has e := .inl he
  exact table_rows_ne_nil hf (hhas.inner hx) hhas hn ht hu hm

end InShape

end MailMerge.Word
