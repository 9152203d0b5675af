import MailMerge.Proofs.Filled
import MailMerge.Proofs.Itemised

/-!
# Values of several lines in list items

A tag that is all the text of a list item and has a value of several lines: the first line takes the
place of the text, and the other ones become items directly behind it (`Expansion`). Then it is
cleaned up behind the paragraph, which goes away or is emptied if nothing is left in it
(`CleanedUp`).
-/

namespace MailMerge

open Xml Word

variable {d d' : Document} {f f' : Forest} {e : Element} {t : Tag} {front back : List Element}
  {first : List Char} {rest : List (List Char)} {stats stats' : Stats} {s : Substitution}

namespace Word

theorem isRoot_iff {p : Nat} : f.isRoot p = true ↔ ∃ k ∈ childKeys f.attached, k.id = p := by
  simp [Forest.isRoot, childKeys]

theorem KeepsRoots.isRoot {p : Nat} (h : KeepsRoots f f') (hr : f'.isRoot p = false) :
    f.isRoot p = false := by
  by_contra hn
  rw [Bool.not_eq_false, isRoot_iff] at hn
  obtain ⟨k, hk, hid⟩ := hn
  exact absurd (isRoot_iff.2 ⟨k, h k hk, hid⟩) (by simp [hr])

/-- What is put behind a paragraph has something around it. -/
theorem addItems_isRoot {lines : List (List Char)} (hf : f.Numbered) (he : f.Has e)
    (hp : e.tag.name = Names.paragraph) (hlines : lines ≠ []) :
    Meets (Merge.addItems e.tag.id lines) f (fun _ _ => f.isRoot e.tag.id = false)
      fun _ _ => True := by
  obtain ⟨line, more, rfl⟩ := List.exists_cons_of_ne_nil hlines
  rw [Merge.addItems, meets_bind]
  refine (insertItem_spec hf (hf.element?_of_has he) hp).mono ?_ fun _ _ _ => trivial
  rintro i f₁ ⟨-, -, hr, -⟩
  exact (meets_self (Merge.addItems i more) f₁).mono (fun _ _ _ => hr) fun _ _ _ => trivial

/-- All text of a paragraph has been replaced. -/
def ReplacedAll (n : Nat) (e e' : Element) (new : List Char) : Prop :=
  ∃ p lead changes, List.Forall₂ SameChange (revision p lead 0 (Paragraph.text e).length new
      (Paragraph.segments e)).changes changes ∧ Fresh n changes ∧
    e' = ⟨e.tag, Revision.apply ⟨changes, .nil, (revision p lead 0 (Paragraph.text e).length new
      (Paragraph.segments e)).touched⟩ e.inner⟩

/-- A list item with a new first line, `e'` in the place of `e`, and items for the other lines, the
paragraph having the children `front` in front of it and `back` behind it. -/
structure Expansion (f : Forest) (e : Element) (first : List Char) (rest : List (List Char))
    (t : Tag) (front back : List Element) (e' : Element) (items : List Element)
    (f₁ f₂ : Forest) : Prop where
  before : HasChildren f t (front ++ e :: back)
  replaced : ReplacedAll f.next e e' first
  has : f₁.Has e'
  step : Step (· = e.tag.id) f f₁
  listed : Listed e' f₁ rest items f₂
  numbered : f₂.Numbered
  after : HasChildren f₂ t (front ++ e' :: (items ++ back))

/-- What comes of cleaning up behind a paragraph that has something around it: it stays if it is not
empty, and otherwise goes away or is emptied, and no row with it unless a cell has nothing else. -/
def CleanedUp (e : Element) (f : Forest) (stats stats' : Stats) (f' : Forest) : Prop :=
  Paragraph.isEmpty e = false ∧ stats' = stats ∧ f' = f ∨
    Paragraph.isEmpty e = true ∧ ∃ f₁, (f₁ = f.detach e.tag.id ∨
      f₁ = f.update e.tag.id fun e => { e with inner := Edit.propertiesOf e.inner }) ∧
      Lifted e.tag.id f f₁ ∧ (stats'.rows = stats.rows ∧ f' = f₁ ∨ stats'.rows = stats.rows + 1 ∧
        ∃ place cell, f.place? e.tag.id = some place ∧ cell ∈ place.around ∧
          ∃ x, f₁.element? cell.tag.id = some x ∧ Cell.isEmpty x = true)

theorem cleanCell_rows {cell : Nat} : Meets (Merge.cleanCell cell stats) d
    (fun stats' d' => stats'.rows = stats.rows ∧ d'.forest = d.forest ∨
      stats'.rows = stats.rows + 1 ∧
        ∃ x, d.forest.element? cell = some x ∧ Cell.isEmpty x = true) fun _ _ => False := by
  refine cleanCell_meets (fun _ => .inl ⟨rfl, rfl⟩) fun place r hplace hempty _ _ => ?_
  have hx : ∃ x, d.forest.element? cell = some x ∧ Cell.isEmpty x = true :=
    ⟨place.element, Forest.element?_of_place? hplace, hempty⟩
  refine cleanRow_cases.mono ?_ fun _ _ h => h
  rintro _ _ ⟨-, ⟨rfl, -⟩ | ⟨rfl, -⟩⟩
  · exact .inr ⟨rfl, hx⟩
  · exact .inr ⟨rfl, hx⟩

theorem clean_cleanedUp {parent : Element} {above : List Element}
    (hplace : d.forest.place? e.tag.id = some ⟨e, parent :: above⟩) :
    Meets (Merge.clean e.tag.id stats) d
      (fun stats' d' => CleanedUp e d.forest stats stats' d'.forest) fun _ _ => False := by
  refine clean_meets (fun hfull => .inl ⟨hfull _ hplace, rfl, rfl⟩) fun place hplace' hm => ?_
  obtain rfl := Option.some.inj (hplace.symm.trans hplace')
  have hremove : Meets (Edit.removeParagraph e.tag.id) d.forest (fun _ f₁ =>
      f₁ = d.forest.detach e.tag.id ∨
        f₁ = d.forest.update e.tag.id fun e => { e with inner := Edit.propertiesOf e.inner })
      fun _ _ => False := by
    simp only [Edit.removeParagraph, meets_bind, meets_get, hplace]
    split
    · exact .inr rfl
    · exact .inl rfl
  refine (hremove.and (removeParagraph_spec e.tag.id d.forest)).mono ?_ fun _ _ h => h.1
  rintro away _ ⟨hkind, hlifted⟩ stats₁ d₁ rfl - rfl
  have hrows : (if away then { stats with paragraphs := stats.paragraphs + 1 } else stats).rows =
      stats.rows := by cases away <;> rfl
  refine ⟨fun _ => .inr ⟨hm, _, hkind, hlifted, .inl ⟨hrows, rfl⟩⟩, fun cell hcell => ?_⟩
  have hc : cell ∈ parent :: above := (nearest?_spec hcell).1
  refine cleanCell_rows.mono ?_ fun _ _ h => h
  rintro stats' d' (⟨hr, hf'⟩ | ⟨hr, hx⟩)
  · exact .inr ⟨hm, _, hkind, hlifted, .inl ⟨hr.trans hrows, hf'⟩⟩
  · exact .inr ⟨hm, _, hkind, hlifted, .inr ⟨by rw [hr, hrows], _, cell, hplace, hc, hx⟩⟩

/-! ## What is left of the paragraph -/

theorem ReplacedAll.rewritten {n : Nat} {e' : Element} (h : ReplacedAll n e e' first)
    (hin : e.inner.ids.Nodup) (hil : ∀ i ∈ e.inner.ids, i < n) (hl : Legible none e.inner)
    (hc : ClearProperties e.inner) (ht : Paragraph.text e ≠ []) : Rewritten e e' first := by
  obtain ⟨p, lead, changes, hsame, hfresh, rfl⟩ := h
  exact rewritten_apply hin hil hl hc ht hsame hfresh

theorem children_propertiesOf : ∀ c : Content, (Edit.propertiesOf c).children = properties c
  | .nil => rfl
  | .text _ rest => children_propertiesOf rest
  | .markup _ rest => by
    rw [Edit.propertiesOf, Content.children_dropText, children_propertiesOf rest]
    rfl
  | .element tag inner rest => by
    rw [Edit.propertiesOf, properties_element]
    split
    · rw [Content.children, children_propertiesOf rest, List.singleton_append]
    · rw [Content.children_dropText, children_propertiesOf rest, List.nil_append]

theorem id_notMem_detach (hf : f.Numbered) (he : e ∈ f.attached.elements) :
    e.tag.id ∉ (f.detach e.tag.id).attached.ids := by
  obtain ⟨h, rest, hs⟩ := Hole.exists_fill_of_mem he
  have hid := Hole.id_notMem (hs ▸ hf.attached)
  rw [Forest.detach_eq hf (show f.side .attached = _ from hs)]
  show e.tag.id ∉ (h.fill rest.dropText).ids
  simp [Hole.mem_ids_fill, hid]

/-- What stands in the place of a list item of which the first line is all that is left. It goes
away or is emptied only if that line is empty and nothing embedded is outside of what goes with
text. -/
inductive Left (e : Element) (first : List Char) : List Element → Prop
  | stays {e' : Element} (ht : e'.tag = e.tag) (htext : Paragraph.text e' = first)
      (hp : properties e'.inner = properties e.inner) (hf : first = [] → Embeds e.inner) :
      Left e first [e']
  | emptied {e' : Element} (hf : first = []) (hn : ¬Carries e.inner) (ht : e'.tag = e.tag)
      (hp : e'.inner.children = properties e.inner) : Left e first [e']
  | away (hf : first = []) (hn : ¬Carries e.inner) : Left e first []

theorem Rewritten.left {e' : Element} (h : Rewritten e e' first) (hfirst : '\r' ∉ first)
    (hf : f.Numbered) (hc : HasChildren f t (front ++ e' :: back))
    (hcl : CleanedUp e' f stats stats' f') (hrows : stats'.rows = stats.rows) :
    ∃ own, HasChildren f' t (front ++ own ++ back) ∧ Left e first own ∧
      (own = [] → e.tag.id ∉ f'.attached.ids) := by
  have htext := h.text hfirst
  rcases hcl with ⟨hne, -, rfl⟩ | ⟨hempty, f₁, hf₁, -, hcl⟩
  · refine ⟨[e'], by simpa using hc, .stays h.tag htext h.properties fun hnil => ?_, by simp⟩
    have hn : ¬Paragraph.isEmpty e' = true := by simp [hne]
    rw [isEmpty_iff, not_and, not_not] at hn
    exact h.embeds (hn (htext.trans hnil))
  · obtain ⟨hnil, hembeds⟩ := isEmpty_iff.1 hempty
    have hfirst : first = [] := htext.symm.trans hnil
    have hcarries : ¬Carries e.inner := fun hc => hembeds (h.carries hc).embeds
    obtain rfl : f' = f₁ := by
      rcases hcl with ⟨-, hcl⟩ | ⟨hr, -⟩
      · exact hcl
      · omega
    rcases hf₁ with rfl | rfl
    · refine ⟨[], by simpa using hc.detach hf, .away hfirst hcarries, fun _ => ?_⟩
      exact h.tag ▸ id_notMem_detach hf hc.has
    · refine ⟨[⟨e'.tag, Edit.propertiesOf e'.inner⟩], by simpa using hc.emptied hf,
        .emptied hfirst hcarries h.tag ?_, by simp⟩
      rw [children_propertiesOf, h.properties]

end Word

namespace Merge

/-- A tag that is all there is in a list item: all of the text, without anything around it in the
construct. -/
structure IsWhole (s : Substitution) (e : Element) : Prop where
  item : Paragraph.isListItem e = .ok true
  tag : s.tag ∈ tagsOf e
  text : s.tag.found.text = Paragraph.text e
  lead : s.tag.found.parts.lead = []
  tail : s.tag.found.parts.tail = []

instance (s : Substitution) (e : Element) : Decidable (IsWhole s e) :=
  decidable_of_iff (Paragraph.isListItem e = .ok true ∧ s.tag ∈ tagsOf e ∧
    s.tag.found.text = Paragraph.text e ∧ s.tag.found.parts.lead = [] ∧
      s.tag.found.parts.tail = []) ⟨fun ⟨h₁, h₂, h₃, h₄, h₅⟩ => ⟨h₁, h₂, h₃, h₄, h₅⟩,
        fun ⟨h₁, h₂, h₃, h₄, h₅⟩ => ⟨h₁, h₂, h₃, h₄, h₅⟩⟩

namespace IsWhole

variable (h : IsWhole s e)

include h

theorem paragraph : s.tag.paragraph = e.tag.id := by
  obtain ⟨found, -, ht⟩ := List.mem_map.1 h.tag
  exact congrArg Tagged.paragraph ht.symm

theorem scan : s.tag.found.StandsIn 0 (Paragraph.text e) ∧ s.tag.found.text ≠ [] := by
  obtain ⟨found, hm, ht⟩ := List.mem_map.1 h.tag
  obtain ⟨hstands, hne, -⟩ := Construct.scan_spec hm
  rw [show s.tag.found = found from congrArg Tagged.found ht.symm]
  exact ⟨hstands, hne⟩

theorem start : s.tag.found.start = 0 := by
  have hle : s.tag.found.stop ≤ 0 + (Paragraph.text e).length := h.scan.1.stop_le
  rw [Found.stop, h.text] at hle
  omega

theorem text_ne_nil : Paragraph.text e ≠ [] := h.text ▸ h.scan.2

theorem last : s.tag.found.last + 1 = (Paragraph.text e).length := by
  have := List.length_pos_iff.2 h.text_ne_nil
  rw [Found.last, h.start, h.text]
  omega

theorem fills (hd : d.forest.Numbered) (he : d.forest.Has e) : Fills d.forest s.tag :=
  ⟨e, h.paragraph ▸ hd.element?_of_has he, h.item, h.text.symm, h.lead, h.tail⟩

end IsWhole

/-- A tag that is all there is in an attached list item is replaced by the first line, the other
lines become items, and it is cleaned up behind the paragraph. -/
theorem substitute_expands (hd : d.forest.Numbered) (he : e ∈ d.forest.attached.elements)
    (hp : e.tag.name = Names.paragraph) (hw : IsWhole s e)
    (hv : Text.splitLines s.value = first :: rest) (hrest : rest ≠ []) :
    Meets (substitute stats s) d (fun stats' d' => ∃ t front back e' items f₁ f₂,
      Expansion d.forest e first rest t front back e' items f₁ f₂ ∧
        CleanedUp e' f₂ (stats.replaced rest.length) stats' d'.forest) fun _ _ => True := by
  have hhas : d.forest.Has e := .inl he
  have hpar := hw.paragraph
  have hlast := hw.last
  refine substitute_steps
    (P := fun lines f₁ => lines = first :: rest ∧ ∃ e' k h more, ReplacedAll d.forest.next e e' first ∧
      Performed d.forest f₁ e k h more e'.inner)
    (Q := fun lines f₂ => lines = first :: rest ∧ ∃ t front back e' items f₁,
      Expansion d.forest e first rest t front back e' items f₁ f₂)
    (R := fun stats' f' => ∃ t front back e' items f₁ f₂,
      Expansion d.forest e first rest t front back e' items f₁ f₂ ∧
        CleanedUp e' f₂ (stats.replaced rest.length) stats' f') ?_ ?_ ?_
  · rintro lines hlines -
    obtain rfl : lines = first :: rest := by
      rcases hlines with ⟨-, rfl⟩ | ⟨hn, -⟩
      · exact hv
      · exact absurd (hw.fills hd hhas) hn
    rw [List.headD_cons, replacement_of_bare hw.lead hw.tail, hpar]
    refine (replaceSpan_apply hd (hd.element?_of_has hhas) hp
      (by rw [hw.start]; exact Nat.zero_le _) (by omega)).mono ?_ fun _ _ _ => trivial
    rintro _ f₁ ⟨k, h, more, changes, hperf, hsame, hfresh⟩
    rw [hlast, hw.start] at hsame hperf
    exact ⟨rfl, ⟨e.tag, _⟩, k, h, more, ⟨_, _, _, hsame, hfresh, rfl⟩, hperf⟩
  · rintro lines f₁ ⟨rfl, e', k, h, more, hrep, hperf⟩
    have htag : e'.tag = e.tag := by
      obtain ⟨_, _, _, -, -, rfl⟩ := hrep
      rfl
    have hhas' : f₁.Has e' := by
      have := hperf.has
      rwa [← htag] at this
    have hnum := hperf.frame.numbered
    rw [List.tail_cons, hpar, ← htag]
    refine ((addItems_spec rest hnum hhas' (htag ▸ hp)).and
      (addItems_isRoot hnum hhas' (htag ▸ hp) hrest)).mono ?_ fun _ _ _ => trivial
    rintro _ f₂ ⟨⟨items, hl⟩, hroot⟩
    have hroots : KeepsRoots d.forest f₁ :=
      .of_fill hperf.side hperf.attached fun _ k hk => hk
    obtain ⟨t, front, back, hc⟩ := exists_hasChildren he (hroots.isRoot (htag ▸ hroot))
    have hc₁ : HasChildren f₁ t (front ++ e' :: back) := by
      have := hc.performed hd hperf
      rwa [← htag] at this
    refine ⟨rfl, t, front, back, e', items, f₁, hc, hrep, hhas', hperf.step hp, hl,
      (hl.step hnum).numbered, ?_⟩
    simpa using hc₁.listed hnum hl
  · rintro lines d₂ ⟨rfl, t, front, back, e', items, f₁, hex⟩
    have htag : e'.tag = e.tag := by
      obtain ⟨_, _, _, -, -, rfl⟩ := hex.replaced
      rfl
    obtain ⟨parent, above, hplace⟩ := hex.after.place? hex.numbered
    rw [List.tail_cons, hpar, ← htag]
    exact (clean_cleanedUp hplace).mono (fun stats' d'' hc => ⟨t, front, back, e', items, f₁, _,
      hex, hc⟩) fun _ _ _ => trivial

/-- An attached list item with legible text and none in its properties, of which a tag is all the
text, and a value of several lines for that. If the replacement is made and no row goes away with
it, there is one item for each further line directly behind the place of the paragraph, in order,
with new numbers, its line and a copy of the properties, and all else around it is what it was. -/
theorem expansion_keeps_order (hd : d.forest.Numbered) (he : e ∈ d.forest.attached.elements)
    (hp : e.tag.name = Names.paragraph) (hw : IsWhole s e) (hl : Legible none e.inner)
    (hc : ClearProperties e.inner) (hv : Text.splitLines s.value = first :: rest)
    (hrest : rest ≠ []) (h : substitute stats s d = .ok stats' d')
    (hrows : stats'.rows = stats.rows) :
    ∃ t front back own items, HasChildren d.forest t (front ++ e :: back) ∧
      HasChildren d'.forest t (front ++ own ++ items ++ back) ∧
      List.Forall₂ (fun line new => ItemLike e new line ∧
        (∀ i ∈ (Content.element new.tag new.inner .nil).ids, d.forest.next ≤ i) ∧
        ((properties e.inner).length ≤ 1 → Paragraph.glyph new = Paragraph.glyph e ∧
          Paragraph.style new = Paragraph.style e)) rest items ∧
      Left e first own ∧ (own = [] → e.tag.id ∉ d'.forest.attached.ids) := by
  obtain ⟨t, front, back, e', items, f₁, f₂, hex, hcl⟩ :=
    (substitute_expands hd he hp hw hv hrest).of_ok h
  have hlines : ∀ line ∈ first :: rest, '\r' ∉ line := fun line hm =>
    Text.cr_notMem_splitLines (hv ▸ hm)
  have hin : e.inner.ids.Nodup := Content.nodup_inner hd.attached he
  have hil : ∀ i ∈ e.inner.ids, i < d.forest.next := fun i hi =>
    hd.lt i (.inl ((Content.inner_ids_sublist he).subset hi))
  have hrew := hex.replaced.rewritten hin hil hl hc hw.text_ne_nil
  have hclear : ClearProperties e'.inner := fun q hq => hc q (hrew.properties ▸ hq)
  have hitems := hex.listed.itemsLike hex.step.numbered hex.has hrew.legible hclear
    fun line hm => hlines line (List.mem_cons_of_mem _ hm)
  have like : ∀ {line new}, ItemLike e' new line → ItemLike e new line := fun hx =>
    ⟨hx.name, hx.text, by rw [hx.properties, hrew.properties]⟩
  obtain ⟨own, hafter, hleft, haway⟩ := hrew.left (hlines first List.mem_cons_self) hex.numbered
    hex.after hcl hrows
  refine ⟨t, front, back, own, items, hex.before, by simpa using hafter,
    hitems.imp fun line new ⟨hx, hids⟩ => ⟨like hx, fun i hi => ?_, (like hx).glyph⟩, hleft, haway⟩
  exact Nat.le_trans hex.step.next (hids i hi)

/-- A list item between two other paragraphs. -/
def listBetween : Document := .ofBody [
  Document.node Names.paragraph [Document.textRun "a"],
  Document.node Names.paragraph [
    Document.node Names.paragraphProperties [Document.node Names.numbering []],
    Document.textRun "<<", Document.textRun "A>>"],
  Document.node Names.paragraph [Document.textRun "b"]]

theorem expansion_keeps_order_listBetween : ∃ e s stats' d' t front back own items,
    IsWhole s e ∧ substitute {} s listBetween = .ok stats' d' ∧
    HasChildren listBetween.forest t (front ++ e :: back) ∧
    HasChildren d'.forest t (front ++ own ++ items ++ back) ∧
    items.map Paragraph.text = ["".toList, "y".toList] ∧ Left e "x".toList own := by
  have hfacts : ∃ e ∈ listBetween.forest.attached.elements, ∃ t ∈ tagsOf e,
      e.tag.name = Names.paragraph ∧ IsWhole ⟨t, "x\n\ny".toList⟩ e ∧ Legible none e.inner ∧
      ClearProperties e.inner ∧ Meets (substitute {} ⟨t, "x\n\ny".toList⟩) listBetween
        (fun stats' _ => stats'.rows = 0) fun _ _ => False := by decide +kernel
  obtain ⟨e, he, tag, -, hp, hw, hl, hc, hok⟩ := hfacts
  obtain ⟨stats', d', h, hrows⟩ := hok.exists_ok
  obtain ⟨t, front, back, own, items, hbefore, hafter, hitems, hleft, -⟩ :=
    expansion_keeps_order (Document.sound_ofRoot _ : listBetween.Sound).numbered he hp hw hl hc
      (show Text.splitLines "x\n\ny".toList = "x".toList :: ["".toList, "y".toList] by decide)
      (by simp) h hrows
  refine ⟨e, _, stats', d', t, front, back, own, items, hw, h, hbefore, hafter, ?_, hleft⟩
  obtain _ | ⟨h₁, _ | ⟨h₂, _ | _⟩⟩ := hitems
  rw [List.map_cons, List.map_cons, h₁.1.text, h₂.1.text, List.map_nil]

/-- A list item with a run in a text element. -/
def nestedText : Document := .ofBody [Document.node Names.paragraph [
  Document.node Names.paragraphProperties [Document.node Names.numbering []],
  Document.node Names.run [
    Document.node Names.text [Document.node Names.run [
      Document.node Names.text [.text "<<A".toList]]],
    Document.node Names.text [.text ">>".toList]]]]

/-- A list item with its numbering in the second of two elements with properties. -/
def latelyNumbered : Document := .ofBody [Document.node Names.paragraph [
  Document.node Names.paragraphProperties [],
  Document.node Names.paragraphProperties [Document.node Names.numbering []],
  Document.textRun "<<A>>"]]

/-- A list item with a drawing in the properties of its run. -/
def drawnFormatting : Document := .ofBody [Document.node Names.paragraph [
  Document.node Names.paragraphProperties [Document.node Names.numbering []],
  Document.node Names.run [Document.node Names.runProperties [Document.node Names.drawing []],
    Document.node Names.text [.text "<<A>>".toList]]]]

/-- Where text elements have elements inside of them, the first line goes with these; items get the
first properties only; and what is embedded in run properties goes with the run. -/
theorem expansion_out_of_order :
    (∃ e ∈ nestedText.forest.attached.elements, ∃ t ∈ tagsOf e,
      IsWhole ⟨t, "x\ny".toList⟩ e ∧ ClearProperties e.inner ∧
      (∀ q ∈ e.inner.named Names.runProperties, q.inner.named Names.text = []) ∧
      Meets (substitute {} ⟨t, "x\ny".toList⟩) nestedText (fun stats' d' => stats'.rows = 0 ∧
        e.tag.id ∉ d'.forest.attached.ids ∧
        (d'.forest.attached.named Names.paragraph).map Paragraph.text = ["y".toList])
        fun _ _ => False) ∧
    (∃ e ∈ latelyNumbered.forest.attached.elements, ∃ t ∈ tagsOf e,
      IsWhole ⟨t, "x\ny".toList⟩ e ∧ Legible none e.inner ∧ ClearProperties e.inner ∧
      Meets (substitute {} ⟨t, "x\ny".toList⟩) latelyNumbered (fun stats' d' => stats'.rows = 0 ∧
        (d'.forest.attached.named Names.paragraph).map Paragraph.text = ["x".toList, "y".toList] ∧
        ((d'.forest.attached.named Names.paragraph).map fun p =>
          decide (Paragraph.isListItem p = .ok true)) = [true, false])
        fun _ _ => False) ∧
    ∃ e ∈ drawnFormatting.forest.attached.elements, ∃ t ∈ tagsOf e,
      IsWhole ⟨t, "\ny".toList⟩ e ∧ Legible none e.inner ∧ ClearProperties e.inner ∧
      Embeds e.inner ∧ Meets (substitute {} ⟨t, "\ny".toList⟩) drawnFormatting
        (fun stats' d' => stats'.rows = 0 ∧ e.tag.id ∉ d'.forest.attached.ids) fun _ _ => False := by
  refine ⟨?_, ?_, ?_⟩ <;> decide +kernel

end Merge

end MailMerge
