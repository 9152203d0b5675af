import MailMerge.Proofs.Operations

/-!
# The structure of documents stays valid

What must end with a paragraph still does so after any operations, and a merge leaves no table
without rows, as far as rows are directly in their tables. What must end with a paragraph and has
one among its children keeps one there, wherever that stands; the paragraphs that stand further in,
as in a content control, may all go (`wrapped_paragraph_goes`).
-/

namespace MailMerge

open Xml Word

variable {d d' : Document}

/-- An element that ends with a paragraph does so as long as it is there. -/
theorem Sequel.endsInParagraph {f f' : Forest} (hq : Sequel f f') (hf : f.Numbered)
    {e e' : Element} (he : e ∈ f.attached.elements) (hn : e.tag.name ∈ Names.endingWithParagraph)
    (hp : EndsInParagraph e.inner) (he' : e' ∈ f'.attached.elements) (hid : e'.tag.id = e.tag.id) :
    EndsInParagraph e'.inner := by
  rw [endsInParagraph_iff] at hp ⊢
  exact (hq.stays lasting_lastIsParagraph).good_of hq.move hf he he' hid hn hp

/-- A table that has rows has some as long as it is there, unless it is the root of a part. -/
theorem Merge.rows_of_run {fields : FieldMap} {stats : Stats} {found : List Story} {d₁ : Document}
    (hd : d.Sound) (hfound : Document.stories d = .ok found d₁) (ho : Orderly d₁.forest)
    (hrun : Merge.run fields d = .ok stats d') {t t' : Element}
    (ht : t ∈ d₁.forest.attached.elements) (hn : t.tag.name = Names.table)
    (hrows : Table.rows t ≠ []) (ht' : t' ∈ d'.forest.attached.elements)
    (hid : t'.tag.id = t.tag.id) (hroot : d'.forest.isRoot t'.tag.id = false) :
    Table.rows t' ≠ [] := by
  obtain ⟨hs, hf⟩ := follows_of_run hd hfound hrun
  have hcar : Rows (fun i => d'.forest.isRoot i = true) d₁.forest d'.forest :=
    hf.2.rows ho hs.numbered fun _ h => h
  exact hcar.good_of (hf.2.move hs.numbered) hs.numbered ht ht' hid ⟨hn, by simp [← hid, hroot]⟩ hrows

/-- Whatever must end with a paragraph does so after any operations, also in the parts that a merge
has read before it edits, and after a merge every table below a root has rows, if it had rows and
all rows are directly in their tables. -/
theorem structure_stays_valid (hd : d.Sound) :
    (∀ d', Operations d d' → ∀ e ∈ d.forest.attached.elements,
      e.tag.name ∈ Names.endingWithParagraph → EndsInParagraph e.inner →
        ∀ e' ∈ d'.forest.attached.elements, e'.tag.id = e.tag.id → EndsInParagraph e'.inner) ∧
    ∀ fields stats d' found d₁, Document.stories d = .ok found d₁ →
      Merge.run fields d = .ok stats d' →
        (∀ e ∈ d₁.forest.attached.elements, e.tag.name ∈ Names.endingWithParagraph →
          EndsInParagraph e.inner → ∀ e' ∈ d'.forest.attached.elements, e'.tag.id = e.tag.id →
            EndsInParagraph e'.inner) ∧
        ((∀ t ∈ trails [] d₁.forest.attached, Direct (t.map (·.name))) →
          ∀ t ∈ d₁.forest.attached.elements, t.tag.name = Names.table → Table.rows t ≠ [] →
            ∀ t' ∈ d'.forest.attached.elements, t'.tag.id = t.tag.id →
              d'.forest.isRoot t'.tag.id = false → Table.rows t' ≠ []) := by
  refine ⟨fun d' h e he hn hp e' he' hid => ?_, fun fields stats d' found d₁ hfound hrun => ⟨?_, ?_⟩⟩
  · exact (h.sequel hd).2.endsInParagraph hd.numbered he hn hp he' hid
  · intro e he hn hp e' he' hid
    obtain ⟨hs, hf⟩ := Merge.follows_of_run hd hfound hrun
    exact (hf.sequel hs).2.endsInParagraph hs.numbered he hn hp he' hid
  · intro ho t ht hn hrows t' ht' hid hroot
    exact Merge.rows_of_run hd hfound ho hrun ht hn hrows ht' hid hroot

/-- A table with a row whose text is about to go, and another row. -/
def twoRows : Document := .ofBody [
  Document.node Names.table [
    Document.node Names.row [Document.node Names.cell [
      Document.node Names.paragraph [Document.textRun "<<A>>"]]],
    Document.node Names.row [Document.node Names.cell [
      Document.node Names.paragraph [Document.textRun "B"]]]],
  Document.node Names.paragraph []]

def noText : FieldMap := .of [(points ['A'], .text [])]

theorem structure_stays_valid_twoRows : ∃ stats d', Merge.run noText twoRows = .ok stats d' ∧
    (∃ e' ∈ d'.forest.attached.elements, e'.tag.id = 9 ∧ e'.tag.name = Names.cell ∧
      EndsInParagraph e'.inner) ∧
    ∃ t' ∈ d'.forest.attached.elements, t'.tag.id = 2 ∧ t'.tag.name = Names.table ∧
      Table.rows t' ≠ [] := by
  have hd : twoRows.Sound := Document.sound_ofRoot _
  obtain ⟨found, d₁, hfound, h₁⟩ := exists_of_ok
    (x := Document.stories) (s := twoRows) (p := fun d₁ => decide
      (Orderly d₁.forest ∧
        ∃ t ∈ d₁.forest.attached.elements, t.tag.id = 2 ∧ t.tag.name = Names.table ∧
          Table.rows t ≠ [])) (by decide +kernel)
  obtain ⟨stats, d', hrun, h₂⟩ := exists_of_ok
    (x := Merge.run noText) (s := twoRows) (p := fun d' => decide
      ((∃ e' ∈ d'.forest.attached.elements, e'.tag.id = 9 ∧ e'.tag.name = Names.cell) ∧
        ∃ t' ∈ d'.forest.attached.elements, t'.tag.id = 2 ∧ t'.tag.name = Names.table ∧
          d'.forest.isRoot t'.tag.id = false)) (by decide +kernel)
  obtain ⟨ho, t, ht, hti, htn, hrows⟩ := of_decide_eq_true h₁
  obtain ⟨⟨e', he', hi, hn⟩, t', ht', hti', htn', hroot⟩ := of_decide_eq_true h₂
  obtain ⟨hends, hkeep⟩ := structure_stays_valid hd
  have hcell : ∃ e ∈ twoRows.forest.attached.elements, e.tag.id = 9 ∧
      e.tag.name ∈ Names.endingWithParagraph ∧ EndsInParagraph e.inner := by decide +kernel
  obtain ⟨e, he, hie, hne, hpe⟩ := hcell
  refine ⟨stats, d', hrun, ⟨e', he', hi, hn, ?_⟩, t', ht', hti', htn', ?_⟩
  · have hops : Operations twoRows d' := by
      refine .single ⟨.merge noText, fun _ _ h => (by cases h), .inl ?_⟩
      simp only [Operation.work, bind, EStateM.bind, hrun]
      rfl
    exact hends d' hops e he hne hpe e' he' (hi.trans hie.symm)
  · exact (hkeep noText stats d' found d₁ hfound hrun).2 ho t ht htn hrows t' ht'
      (hti'.trans hti.symm) hroot

/-- A row that is not directly in its table: it stands in a paragraph there. -/
def rowInParagraph : Document := .ofBody [
  Document.node Names.table [
    Document.node Names.paragraph [Document.textRun "<<A>>",
      Document.node Names.row [Document.node Names.cell [Document.node Names.paragraph []]]]],
  Document.node Names.paragraph []]

/-- With the paragraph its table loses the only row, and stays. -/
theorem table_without_rows : ∃ stats d', Merge.run noText rowInParagraph = .ok stats d' ∧
    ∃ t ∈ rowInParagraph.forest.attached.elements, t.tag.name = Names.table ∧ Table.rows t ≠ [] ∧
      ∃ t' ∈ d'.forest.attached.elements, t'.tag.id = t.tag.id ∧
        d'.forest.isRoot t'.tag.id = false ∧ Table.rows t' = [] := by
  obtain ⟨stats, d', hrun, h⟩ := exists_of_ok
    (x := Merge.run noText) (s := rowInParagraph) (p := fun d' => decide
      (∃ t ∈ rowInParagraph.forest.attached.elements, t.tag.name = Names.table ∧ Table.rows t ≠ [] ∧
        ∃ t' ∈ d'.forest.attached.elements, t'.tag.id = t.tag.id ∧
          d'.forest.isRoot t'.tag.id = false ∧ Table.rows t' = [])) (by decide +kernel)
  exact ⟨stats, d', hrun, of_decide_eq_true h⟩

/-! ## Paragraphs of one's own -/

/-- Whether there is a paragraph among the children of an element. -/
def OwnsParagraph (c : Content) : Prop := ∃ p ∈ c.children, p.tag.name = Names.paragraph

instance (c : Content) : Decidable (OwnsParagraph c) := inferInstanceAs (Decidable (∃ p ∈ _, _))

theorem ownsParagraph_iff {c : Content} : OwnsParagraph c ↔ HasParagraph (childKeys c) := by
  simp [OwnsParagraph, HasParagraph, childKeys]

theorem Sequel.ownsParagraph {f f' : Forest} (hq : Sequel f f') (hf : f.Numbered) {e e' : Element}
    (he : e ∈ f.attached.elements) (hn : e.tag.name ∈ Names.endingWithParagraph)
    (hp : OwnsParagraph e.inner) (he' : e' ∈ f'.attached.elements) (hid : e'.tag.id = e.tag.id) :
    OwnsParagraph e'.inner := by
  rw [ownsParagraph_iff] at hp ⊢
  exact (hq.stays lasting_hasParagraph).good_of hq.move hf he he' hid hn hp

/-- A cell, a header, a footer, a note or a text box with a paragraph among its children has one
there as long as it is there itself, whatever is done to the document; a merge may also fail. The
parts that the merge has read before it edits count as well. -/
theorem own_paragraph_stays (hd : d.Sound) :
    (∀ d', Operations d d' → ∀ e ∈ d.forest.attached.elements,
      e.tag.name ∈ Names.endingWithParagraph → OwnsParagraph e.inner →
        ∀ e' ∈ d'.forest.attached.elements, e'.tag.id = e.tag.id → OwnsParagraph e'.inner) ∧
    ∀ fields stats d' found d₁, Document.stories d = .ok found d₁ →
      Merge.run fields d = .ok stats d' → ∀ e ∈ d₁.forest.attached.elements,
        e.tag.name ∈ Names.endingWithParagraph → OwnsParagraph e.inner →
          ∀ e' ∈ d'.forest.attached.elements, e'.tag.id = e.tag.id → OwnsParagraph e'.inner := by
  refine ⟨fun d' h e he hn hp e' he' hid => ?_, fun fields stats d' found d₁ hfound hrun e he hn hp
    e' he' hid => ?_⟩
  · exact (h.sequel hd).2.ownsParagraph hd.numbered he hn hp he' hid
  · obtain ⟨hs, hf⟩ := Merge.follows_of_run hd hfound hrun
    exact (hf.sequel hs).2.ownsParagraph hs.numbered he hn hp he' hid

/-- A row with a cell whose only paragraph is about to lose its text. -/
def oneCell : Document := .ofBody [
  Document.node Names.table [Document.node Names.row [
    Document.node Names.cell [Document.node Names.paragraph [Document.textRun "<<A>>"]],
    Document.node Names.cell [Document.node Names.paragraph [Document.textRun "B"]]]],
  Document.node Names.paragraph []]

theorem own_paragraph_stays_oneCell : ∃ stats d', Merge.run noText oneCell = .ok stats d' ∧
    ∃ e' ∈ d'.forest.attached.elements, e'.tag.name = Names.cell ∧ e'.tag.id = 4 ∧
      OwnsParagraph e'.inner := by
  have hd : oneCell.Sound := Document.sound_ofRoot _
  obtain ⟨found, d₁, hfound, h₁⟩ := exists_of_ok
    (x := Document.stories) (s := oneCell) (p := fun d₁ => decide
      (∃ e ∈ d₁.forest.attached.elements, e.tag.id = 4 ∧
        e.tag.name ∈ Names.endingWithParagraph ∧ OwnsParagraph e.inner)) (by decide +kernel)
  obtain ⟨stats, d', hrun, h₂⟩ := exists_of_ok
    (x := Merge.run noText) (s := oneCell) (p := fun d' => decide
      (∃ e' ∈ d'.forest.attached.elements, e'.tag.name = Names.cell ∧ e'.tag.id = 4))
    (by decide +kernel)
  obtain ⟨e, he, hi, hn, hp⟩ := of_decide_eq_true h₁
  obtain ⟨e', he', hn', hi'⟩ := of_decide_eq_true h₂
  exact ⟨stats, d', hrun, e', he', hn', hi',
    (own_paragraph_stays hd).2 noText stats d' found d₁ hfound hrun e he hn hp e' he'
      (hi'.trans hi.symm)⟩

/-- A cell whose only paragraph stands in a content control. -/
def wrappedParagraph : Document := .ofBody [
  Document.node Names.table [Document.node Names.row [
    Document.node Names.cell [Document.node (name "sdt") [Document.node (name "sdtContent") [
      Document.node Names.paragraph [Document.textRun "<<A>>"]]]],
    Document.node Names.cell [Document.node Names.paragraph [Document.textRun "B"]]]],
  Document.node Names.paragraph []]

/-- With its text the paragraph goes, and the cell stays without any. -/
theorem wrapped_paragraph_goes : ∃ stats d', Merge.run noText wrappedParagraph = .ok stats d' ∧
    ∃ e ∈ wrappedParagraph.forest.attached.elements, e.tag.name = Names.cell ∧
      Cell.paragraphs e ≠ [] ∧ ∃ e' ∈ d'.forest.attached.elements, e'.tag.id = e.tag.id ∧
        Cell.paragraphs e' = [] := by
  obtain ⟨stats, d', hrun, h⟩ := exists_of_ok
    (x := Merge.run noText) (s := wrappedParagraph) (p := fun d' => decide
      (∃ e ∈ wrappedParagraph.forest.attached.elements, e.tag.name = Names.cell ∧
        Cell.paragraphs e ≠ [] ∧ ∃ e' ∈ d'.forest.attached.elements, e'.tag.id = e.tag.id ∧
          Cell.paragraphs e' = [])) (by decide +kernel)
  exact ⟨stats, d', hrun, of_decide_eq_true h⟩

end MailMerge
