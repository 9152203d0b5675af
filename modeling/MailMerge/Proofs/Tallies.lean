import MailMerge.Proofs.Tabular
import MailMerge.Proofs.Turns

/-!
# What a merge counts

The numbers that a merge gives account for what has become of the document, as far as tables lie
apart in it: each edit changes the numbers as it changes the trees (`Balanced`), so a whole merge
does (`Merge.run_counts`). Without a condition on properties this is not so: a list item gets copies
of what is in those of its paragraph, and a run without text goes with its own
(`Merge.uncounted_copies`).
-/

namespace MailMerge

open Xml Word

namespace Word

variable {f f' f'' : Forest} {stats stats' stats'' : Stats} {e : Element} {u : List Key} {p : Nat}
  {name : Name}

/-! ## Accounts -/

/-- The numbers of rows and of tables have changed as the trees have, and the numbers of list items
and paragraphs as well, if no row has gone away. -/
structure Balanced (stats : Stats) (f : Forest) (stats' : Stats) (f' : Forest) : Prop where
  found : stats'.found = stats.found
  skipped : stats'.skipped = stats.skipped
  more : stats.rows ≤ stats'.rows
  rows : (f'.attached.named Names.row).length + stats'.rows =
    (f.attached.named Names.row).length + stats.rows
  tables : (f'.attached.named Names.table).length + stats'.tables =
    (f.attached.named Names.table).length + stats.tables
  paragraphs : stats'.rows = stats.rows →
    (f'.attached.named Names.paragraph).length + stats'.paragraphs - stats'.items =
      (f.attached.named Names.paragraph).length + stats.paragraphs - stats.items

namespace Balanced

theorem refl : Balanced stats f stats f := ⟨rfl, rfl, Int.le_refl _, rfl, rfl, fun _ => rfl⟩

theorem trans (h : Balanced stats f stats' f') (h' : Balanced stats' f' stats'' f'') :
    Balanced stats f stats'' f'' where
  found := h'.found.trans h.found
  skipped := h'.skipped.trans h.skipped
  more := Int.le_trans h.more h'.more
  rows := h'.rows.trans h.rows
  tables := h'.tables.trans h.tables
  paragraphs heq := by
    have := h.more
    have := h'.more
    rw [h'.paragraphs (by omega), h.paragraphs (by omega)]

/-- An edit after which there is as much of everything. -/
theorem of_same (h : ∀ name ∈ counted,
    (f'.attached.named name).length = (f.attached.named name).length) :
    Balanced stats f stats f' := by
  have hp := h Names.paragraph (by decide)
  have hr := h Names.row (by decide)
  have ht := h Names.table (by decide)
  exact ⟨rfl, rfl, Int.le_refl _, by rw [hr], by rw [ht], fun _ => by rw [hp]⟩

end Balanced

/-! ## Edits -/

theorem Revised.sameCounted (ho : TablesApart f) (h : Revised p f f') (hn : name ∈ counted) :
    SameNamed name f f' := by
  have hname : name ∉ Names.run :: Names.showing := by
    revert name
    decide
  refine h.sameNamed hname (fun k u w v hk ht => ?_) ho.numbered
  exact ho.not_spent ht (hk ▸ hn)

/-- List items behind an attached paragraph are all that is counted more. -/
theorem Listed.length_named {lines : List (List Char)} {items : List Element} (ho : TablesApart f)
    (hp : e.tag.name = Names.paragraph) (ht : key e.tag :: u ∈ trails [] f.attached)
    (hn : name ∈ counted) (h : Listed e f lines items f') : (f'.attached.named name).length =
      (f.attached.named name).length + if name = Names.paragraph then lines.length else 0 := by
  induction h with
  | nil => simp
  | @cons e new f f₁ f' line lines items hi hl ih =>
    have he : e ∈ f.attached.elements := mem_attached ho.numbered hi.old_has ht
    have hnew : key new.tag :: u ∈ trails [] f₁.attached :=
      (hi.order ho.numbered ht).subset (by simp)
    have hno := length_named_eq_zero.2 fun x hx hxn =>
      ho.notMem_item he hi.item hp x hx (hxn ▸ hn)
    rw [ih (ho.step hi.step) hi.item.name hnew, hi.length_named name ho.numbered ht,
      length_named_element, hno, hi.item.name]
    by_cases hname : name = Names.paragraph
    · subst hname
      simp only [if_pos, named_nil, List.length_nil, List.length_cons]
      omega
    · simp [hname, Ne.symm hname]

theorem Listed.balanced {lines : List (List Char)} {items : List Element} (ho : TablesApart f)
    (hp : e.tag.name = Names.paragraph) (ht : key e.tag :: u ∈ trails [] f.attached)
    (h : Listed e f lines items f') : Balanced stats f (stats.replaced lines.length) f' := by
  have hpar := h.length_named ho hp ht (show Names.paragraph ∈ counted by decide)
  have hrow := h.length_named ho hp ht (show Names.row ∈ counted by decide)
  have htable := h.length_named ho hp ht (show Names.table ∈ counted by decide)
  rw [if_pos rfl] at hpar
  rw [if_neg (by decide)] at hrow htable
  refine ⟨rfl, rfl, Int.le_refl _, ?_, ?_, fun _ => ?_⟩ <;> simp only [Stats.replaced] <;> omega

section Attached

variable (ho : TablesApart f) (he : e ∈ f.attached.elements)

include ho he

/-- An empty paragraph that is lifted is counted if it is away. -/
theorem removeParagraph_balanced (stats : Stats) (hp : e.tag.name = Names.paragraph)
    (hm : Paragraph.isEmpty e = true) : Meets (Edit.removeParagraph e.tag.id) f
      (fun away f' => Balanced stats f
        (if away then { stats with paragraphs := stats.paragraphs + 1 } else stats) f')
      fun _ _ => False := by
  obtain ⟨u, ht⟩ := exists_root_trail he
  have hno : ∀ name ∈ counted, (e.inner.named name).length = 0 := fun name hn =>
    length_named_eq_zero.2 fun x hx hxn =>
      ho.notMem_of_isEmpty he hp hm x hx (hxn ▸ hn)
  refine (removeParagraph_cases e.tag.id f).mono (fun away f' h => ?_) fun _ _ h => h
  cases away with
  | true =>
    obtain rfl : f' = f.detach e.tag.id := h
    have hcount : ∀ name ∈ counted, (f.attached.named name).length =
        ((f.detach e.tag.id).attached.named name).length +
          if Names.paragraph = name then 1 else 0 := by
      intro name hn
      rw [length_named_detach name ho.numbered (.inl he) ht, length_named_element, hno name hn, hp]
      simp
    have hpar := hcount Names.paragraph (by decide)
    have hrow := hcount Names.row (by decide)
    have htable := hcount Names.table (by decide)
    rw [if_pos rfl] at hpar
    rw [if_neg (by decide)] at hrow htable
    refine ⟨rfl, rfl, Int.le_refl _, ?_, ?_, fun _ => ?_⟩ <;> simp only [if_true] <;> omega
  | false =>
    refine .of_same fun name hn => ?_
    rcases h with rfl | rfl
    · rfl
    · have hle := length_named_eq_zero.2 fun x hx =>
        length_named_eq_zero.1 (hno name hn) x (propertiesOf_elements (c := e.inner) hx)
      have := length_named_update name ho.numbered (.inl he) ht
        (g := fun e => { e with inner := Edit.propertiesOf e.inner }) rfl
      simp only [hno name hn, hle] at this
      omega

/-- With a row no table goes away and no other row. -/
theorem balanced_removed_row (hn : e.tag.name = Names.row) :
    Balanced stats f { stats with rows := stats.rows + 1 } (removed f e.tag.id) := by
  obtain ⟨k, u, ht⟩ := ho.exists_trail_cons he (.inl hn)
  have hno := ho.notMem_row he hn
  have hrow := length_named_removed Names.row ho.numbered (.inl he) ht
  have htable := length_named_removed Names.table ho.numbered (.inl he) ht
  rw [if_pos hn, length_named_eq_zero.2 fun x hx => (hno x hx).1] at hrow
  rw [if_neg (hn ▸ by decide), length_named_eq_zero.2 fun x hx => (hno x hx).2] at htable
  refine ⟨rfl, rfl, ?_, ?_, ?_, fun h => ?_⟩ <;> simp only at * <;> omega

/-- With a table without rows nothing else goes away that is counted. -/
theorem balanced_removed_table (hn : e.tag.name = Names.table) (hm : Table.rows e = []) :
    Balanced stats f { stats with tables := stats.tables + 1 } (removed f e.tag.id) := by
  obtain ⟨k, u, ht⟩ := ho.exists_trail_cons he (.inr hn)
  have hno := ho.notMem_of_rows_eq_nil he hn hm
  have hpar := length_named_removed Names.paragraph ho.numbered (.inl he) ht
  have hrow := length_named_removed Names.row ho.numbered (.inl he) ht
  have htable := length_named_removed Names.table ho.numbered (.inl he) ht
  rw [if_neg (hn ▸ by decide),
    length_named_eq_zero.2 (ho.shape.notMem_of_rows_eq_nil ho.numbered he hn hm)] at hpar
  rw [if_neg (hn ▸ by decide), length_named_eq_zero.2 fun x hx => (hno x hx).1] at hrow
  rw [if_pos hn, length_named_eq_zero.2 fun x hx => (hno x hx).2] at htable
  refine ⟨rfl, rfl, ?_, ?_, ?_, fun h => ?_⟩ <;> simp only at * <;> omega

end Attached

/-! ## Cleaning up -/

section Clean

variable {d : Document} (ho : TablesApart d.forest) (he : e ∈ d.forest.attached.elements)

include ho he

/-- The row is counted, and its table if that goes with it. -/
theorem cleanRow_balanced (hr : e.tag.name = Names.row) : Meets (Merge.cleanRow e.tag.id stats) d
    (fun stats' d' => stats'.applied = stats.applied ∧ Balanced stats d.forest stats' d'.forest)
    fun _ _ => False := by
  have hrow : Balanced stats d.forest { stats with rows := stats.rows + 1 } _ :=
    balanced_removed_row ho he hr
  refine cleanRow_cases.mono ?_ fun _ _ h => h
  rintro _ d' ⟨-, ⟨rfl, hf, -⟩ | ⟨rfl, t, t', htab, ht', hrows, hf⟩⟩
  · exact ⟨rfl, hf ▸ hrow⟩
  · have heq := ho.numbered.element?_of_has (.inl he)
    obtain ⟨hloss, hname⟩ : Loss d.forest.next (fun _ => False) d.forest _ ∧ _ :=
      removed_table ho.numbered heq hr htab
    have ho' := ho.loss hloss
    obtain ⟨place, hplace, hnear⟩ := Option.bind_eq_some_iff.1 htab
    obtain ⟨-, -, w, v, hw⟩ := attached_of_nearest? ho.numbered he hplace hnear
    -- The table has its place without the row.
    have htt : key t.tag :: v ∈ trails [] (removed d.forest e.tag.id).attached :=
      around_of_removed ho.numbered (.inl he) hw ⟨w, rfl⟩ (by simp)
    obtain ⟨x, hx, hk⟩ := exists_of_head htt
    obtain ⟨hhas, hid⟩ := ho'.numbered.element?_eq_some.1 ht'
    obtain rfl := ho'.numbered.eq_of_id (.inl hx) hhas ((congrArg Key.id hk).trans hid.symm)
    rw [hf, ← hid]
    exact ⟨rfl, hrow.trans (balanced_removed_table ho' hx (hname x ht') hrows)⟩

theorem cleanCell_balanced : Meets (Merge.cleanCell e.tag.id stats) d
    (fun stats' d' => stats'.applied = stats.applied ∧ Balanced stats d.forest stats' d'.forest)
    fun _ _ => False := by
  refine cleanCell_meets (fun _ => ⟨rfl, .refl⟩) fun place r hplace _ hnear _ => ?_
  obtain ⟨hrow, hn, -⟩ := attached_of_nearest? ho.numbered he hplace hnear
  exact cleanRow_balanced ho hrow hn

theorem clean_balanced (hp : e.tag.name = Names.paragraph) : Meets (Merge.clean e.tag.id stats) d
    (fun stats' d' => stats'.applied = stats.applied ∧ Balanced stats d.forest stats' d'.forest)
    fun _ _ => False := by
  refine clean_meets (fun _ => ⟨rfl, .refl⟩) fun place hplace hm => ?_
  have heq := ho.numbered.element?_of_has (.inl he)
  have hpar : ∀ x, d.forest.element? e.tag.id = some x → x.tag.name = Names.paragraph := fun x hx =>
    Option.some.inj (heq.symm.trans hx) ▸ hp
  have hplaced : place.element = e :=
    Option.some.inj ((Forest.element?_of_place? hplace).symm.trans heq)
  refine ((removeParagraph_spec e.tag.id d.forest).and
    (removeParagraph_balanced ho he stats hp (hplaced ▸ hm))).mono ?_ fun _ _ h => h.1
  rintro away _ ⟨hlift, hbal⟩ stats₁ d₁ rfl - rfl
  have happlied : (if away then { stats with paragraphs := stats.paragraphs + 1 }
      else stats).applied = stats.applied := by cases away <;> rfl
  refine ⟨fun _ => ⟨happlied, hbal⟩, fun cell hnear => ?_⟩
  have hloss : Loss d.forest.next (fun _ => True) d.forest d₁.forest :=
    lifted_frame ho.numbered hpar (fun _ _ _ => trivial) hlift
  obtain ⟨-, -, w, v, hw⟩ := attached_of_nearest? ho.numbered he hplace hnear
  -- The cell has its place without the paragraph.
  have hct : key cell.tag :: v ∈ trails [] d₁.forest.attached :=
    around_of_lifted ho.numbered (.inl he) hw ⟨w, rfl⟩ (by simp) hlift
  obtain ⟨c, hc, hk⟩ := exists_of_head hct
  have hid : c.tag.id = cell.tag.id := congrArg Key.id hk
  rw [← hid]
  exact (cleanCell_balanced (ho.loss hloss) hc).mono
    (fun _ _ h => ⟨h.1.trans happlied, hbal.trans h.2⟩) fun _ _ h => h

end Clean

end Word

namespace Merge

variable {fields : FieldMap} {d d₁ : Document} {found : List Story} {f₀ : Forest}
  {s : Substitution} {e : Element} {u : List Key} {stats : Stats}

/-- A replacement is counted, with all that it puts in and takes away. -/
theorem Site.balanced (h : Site f₀ s d.forest e u) (ho : TablesApart d.forest) :
    Meets (substitute stats s) d (fun stats' d' => stats'.applied = stats.applied + 1 ∧
      Balanced stats d.forest stats' d'.forest) fun _ _ => True := by
  have heq := ho.numbered.element?_of_has (.inl h.attached)
  refine substitute_rule
    (P := fun _ f => TablesApart f ∧ Balanced stats d.forest stats f ∧
      key e.tag :: u ∈ trails [] f.attached)
    (Q := fun lines f => TablesApart f ∧
      Balanced stats d.forest (stats.replaced lines.tail.length) f ∧
      key e.tag :: u ∈ trails [] f.attached)
    (R := fun stats' f => stats'.applied = stats.applied + 1 ∧ Balanced stats d.forest stats' f)
    ?_ ?_ ?_
  · intro lines _
    rw [← h.id]
    refine (replaceSpan_revised ho.numbered fun x hx =>
      Option.some.inj (heq.symm.trans hx) ▸ h.name).mono ?_ fun _ _ _ => trivial
    intro _ f hr
    have same : ∀ name ∈ counted, SameNamed name d.forest f := fun _ => hr.sameCounted ho
    have hpar := same Names.paragraph (by decide)
    exact ⟨ho.step hpar.step, .of_same fun name hn => (same name hn).length_eq ho.numbered,
      (hpar.trail _ _ h.name).2 h.trail⟩
  · rintro lines f ⟨ho₁, hbal, ht⟩
    obtain ⟨e₁, he₁, hk⟩ := exists_of_head ht
    have hid : e₁.tag.id = s.tag.paragraph := (congrArg Key.id hk).trans h.id
    have hn : e₁.tag.name = Names.paragraph := (congrArg Key.name hk).trans h.name
    rw [← hid]
    refine (addItems_spec lines.tail ho₁.numbered (.inl he₁) hn).mono ?_ fun _ _ _ => trivial
    rintro _ f' ⟨items, hl⟩
    exact ⟨ho₁.step (hl.step ho₁.numbered), hbal.trans (hl.balanced ho₁ hn (hk ▸ ht)),
      trail_listed hl ht⟩
  · rintro lines d' ⟨ho₂, hbal, ht⟩
    obtain ⟨e₂, he₂, hk⟩ := exists_of_head ht
    have hid : e₂.tag.id = s.tag.paragraph := (congrArg Key.id hk).trans h.id
    rw [← hid]
    exact (clean_balanced ho₂ he₂ ((congrArg Key.name hk).trans h.name)).mono
      (fun _ _ h => ⟨h.1, hbal.trans h.2⟩) fun _ _ h => h.elim

/-- Where tables lie apart and nothing that is counted is in copied properties, the numbers that a
merge gives account for the change. -/
theorem run_counts (hs : d.Sound) (hfound : Document.stories d = .ok found d₁)
    (hshape : InShape d₁.forest)
    (htabular : ∀ t ∈ trails [] d₁.forest.attached, Tabular (t.map (·.name)))
    (huncounted : ∀ t ∈ trails [] d₁.forest.attached, Uncounted (t.map (·.name))) :
    Meets (run fields) d (fun stats d' =>
      stats.found = ((listing d₁.forest found).flatMap fun p =>
        Construct.scan (Paragraph.text p)).length ∧
      stats.found = stats.applied + stats.skipped ∧
      (d'.forest.attached.named Names.row).length + stats.rows =
        (d₁.forest.attached.named Names.row).length ∧
      (d'.forest.attached.named Names.table).length + stats.tables =
        (d₁.forest.attached.named Names.table).length ∧
      (stats.rows = 0 → (d'.forest.attached.named Names.paragraph).length =
        (d₁.forest.attached.named Names.paragraph).length + stats.items - stats.paragraphs))
      fun _ _ => True := by
  have ho : TablesApart d₁.forest :=
    ⟨((Meets.of_ok (Document.reading_stories hs) hfound).1.sound hs).numbered, hshape, htabular,
      huncounted⟩
  have hsites := run_sites fields hs hfound hshape (fun done stats f =>
    stats.applied = done.length ∧ Balanced (opening fields d₁.forest found) d₁.forest stats f)
    ⟨rfl, .refl⟩ ?_
  · refine hsites.mono ?_ fun _ _ _ => trivial
    rintro stats d' ⟨-, happlied, hbal⟩
    have hfoundTags := hbal.found
    have hskipped := hbal.skipped
    have hrows := hbal.rows
    have htables := hbal.tables
    have hparagraphs := hbal.paragraphs
    simp only [opening] at hfoundTags hskipped hrows htables hparagraphs
    refine ⟨?_, by omega, by omega, by omega, fun h => ?_⟩
    · rw [hfoundTags]
      simp [List.length_flatMap, tagsOf]
    · have := hparagraphs h
      omega
  · intro s _ done stats d' e u hongoing hinv hsite
    refine (hsite.balanced (ho.step hongoing.step)).mono ?_ fun _ _ _ => trivial
    rintro stats' d'' ⟨happlied, hbal⟩
    exact ⟨by rw [happlied, hinv.1, List.length_cons, Int.natCast_succ], hinv.2.trans hbal⟩

/-- A list item, an optional paragraph, a table with an optional text, and an unknown tag. -/
def offer : Document := .ofBody [
  Document.node Names.paragraph [
    Document.node Names.paragraphProperties [Document.node Names.numbering []],
    Document.textRun "<<C>>"],
  Document.node Names.paragraph [Document.textRun "<<B?>>"],
  Document.node Names.table [Document.node Names.row [Document.node Names.cell [
    Document.node Names.paragraph [Document.textRun "<<D?>>"]]]],
  Document.node Names.paragraph [Document.textRun "<<X>>"]]

def fullFields : FieldMap := .of ((points ['D'], .text (points ['1'])) :: letterFields.entries)

/-- Without a text for it, the table goes away with its row. -/
theorem run_counts_offer : ∃ found d₁ stats d' stats' d'',
    Document.stories offer = .ok found d₁ ∧ run letterFields offer = .ok stats d' ∧
    stats = ⟨4, 3, 1, 1, 1, 1, 1⟩ ∧ (d'.forest.attached.named Names.row).length = 0 ∧
    (d'.forest.attached.named Names.table).length = 0 ∧
    run fullFields offer = .ok stats' d'' ∧ stats' = ⟨4, 3, 1, 1, 1, 0, 0⟩ ∧
    (d''.forest.attached.named Names.paragraph).length = 4 := by
  have hstories : Meets Document.stories offer (fun _ d₁ => InShape d₁.forest ∧
      (∀ t ∈ trails [] d₁.forest.attached, Tabular (t.map (·.name))) ∧
      (∀ t ∈ trails [] d₁.forest.attached, Uncounted (t.map (·.name))) ∧
      (d₁.forest.attached.named Names.row).length = 1 ∧
      (d₁.forest.attached.named Names.table).length = 1 ∧
      (d₁.forest.attached.named Names.paragraph).length = 4) fun _ _ => False := by decide +kernel
  have hrun : Meets (run letterFields) offer (fun stats _ => stats = ⟨4, 3, 1, 1, 1, 1, 1⟩)
      fun _ _ => False := by decide +kernel
  have hrun' : Meets (run fullFields) offer (fun stats _ => stats = ⟨4, 3, 1, 1, 1, 0, 0⟩)
      fun _ _ => False := by decide +kernel
  obtain ⟨found, d₁, hfound, hshape, htabular, huncounted, hrow, htable, hpar⟩ :=
    hstories.exists_ok
  obtain ⟨stats, d', hd', hstats⟩ := hrun.exists_ok
  obtain ⟨stats', d'', hd'', hstats'⟩ := hrun'.exists_ok
  have hsound : offer.Sound := Document.sound_ofRoot _
  obtain ⟨-, -, hrows, htables, -⟩ :=
    (run_counts hsound hfound hshape htabular huncounted).of_ok hd'
  obtain ⟨-, -, -, -, hpars⟩ := (run_counts hsound hfound hshape htabular huncounted).of_ok hd''
  refine ⟨found, d₁, stats, d', stats', d'', hfound, hd', hstats, ?_, ?_, hd'', hstats', ?_⟩
  · simp only [hstats] at hrows
    omega
  · simp only [hstats] at htables
    omega
  · simp only [hstats', forall_const] at hpars
    omega

/-- A list item with a paragraph and a table in its properties, and a row in those of a run. -/
def itemWithDrawing : Document := .ofBody [
  Document.node Names.paragraph [
    Document.node Names.paragraphProperties [Document.node Names.numbering [],
      Document.node Names.drawing [Document.node Names.paragraph [], Document.node Names.table []]],
    Document.textRun "<<C>>"],
  Document.node Names.paragraph [Document.node Names.run [Document.node Names.drawing [
    Document.node Names.textBox [Document.node Names.table [Document.node Names.run [
      Document.node Names.runProperties [Document.node Names.row []],
      Document.node Names.text [.text "<<B?>>".toList]]]]]]]]

/-- The second item of two gets a copy of the drawing, and a run without text goes with all of its
properties. Neither is counted. -/
theorem uncounted_copies : ∃ found d₁ stats d', Document.stories itemWithDrawing = .ok found d₁ ∧
    InShape d₁.forest ∧ (∀ t ∈ trails [] d₁.forest.attached, Tabular (t.map (·.name))) ∧
    (listing d₁.forest found).Nodup ∧ run letterFields itemWithDrawing = .ok stats d' ∧
    stats = ⟨2, 2, 0, 1, 0, 0, 0⟩ ∧
    (d₁.forest.attached.named Names.paragraph).length = 3 ∧
    (d'.forest.attached.named Names.paragraph).length = 5 ∧
    (d₁.forest.attached.named Names.table).length = 2 ∧
    (d'.forest.attached.named Names.table).length = 3 ∧
    (d₁.forest.attached.named Names.row).length = 1 ∧
    (d'.forest.attached.named Names.row).length = 0 := by
  have hstories : Meets Document.stories itemWithDrawing (fun found d₁ => InShape d₁.forest ∧
      (∀ t ∈ trails [] d₁.forest.attached, Tabular (t.map (·.name))) ∧
      (listing d₁.forest found).Nodup ∧
      (d₁.forest.attached.named Names.paragraph).length = 3 ∧
      (d₁.forest.attached.named Names.table).length = 2 ∧
      (d₁.forest.attached.named Names.row).length = 1) fun _ _ => False := by decide +kernel
  have hrun : Meets (run letterFields) itemWithDrawing (fun stats d' =>
      stats = ⟨2, 2, 0, 1, 0, 0, 0⟩ ∧
      (d'.forest.attached.named Names.paragraph).length = 5 ∧
      (d'.forest.attached.named Names.table).length = 3 ∧
      (d'.forest.attached.named Names.row).length = 0) fun _ _ => False := by decide +kernel
  obtain ⟨found, d₁, hfound, hshape, htabular, honce, hpar, htable, hrow⟩ := hstories.exists_ok
  obtain ⟨stats, d', hd', hstats, hpar', htable', hrow'⟩ := hrun.exists_ok
  exact ⟨found, d₁, stats, d', hfound, hshape, htabular, honce, hd', hstats, hpar, hpar', htable,
    htable', hrow, hrow'⟩

end Merge

end MailMerge
