import MailMerge.Proofs.Leading
import MailMerge.Proofs.Spared

/-!
# The formatting of new list items

An item has the formatting of the first text of the paragraph that it is put behind
(`ItemOf.run`), and of items put one behind the other, each has it from the one before: so all have
it from the list item that they are made for, up to the first line that no text element is written
for, and none behind that has any (`Listed.formatted`).
-/

namespace MailMerge.Xml.Content

theorem exists_append_of_face {c d₁ d₂ : Content} (h : c.face = (d₁ ++ d₂).face) :
    ∃ c₁ c₂, c = c₁ ++ c₂ ∧ c₁.face = d₁.face ∧ c₂.face = d₂.face := by
  induction d₁ generalizing c with
  | nil => exact ⟨.nil, c, rfl, rfl, h⟩
  | text cs d ih =>
    cases c with
    | text cs' c =>
      simp only [text_append, face, text.injEq] at h
      obtain ⟨c₁, c₂, rfl, h₁, h₂⟩ := ih h.2
      exact ⟨.text cs' c₁, c₂, rfl, by simp [face, h.1, h₁], h₂⟩
    | nil | markup | element => simp [face] at h
  | markup m d ih =>
    cases c with
    | markup m' c =>
      simp only [markup_append, face, markup.injEq] at h
      obtain ⟨c₁, c₂, rfl, h₁, h₂⟩ := ih h.2
      exact ⟨.markup m' c₁, c₂, rfl, by simp [face, h.1, h₁], h₂⟩
    | nil | text | element => simp [face] at h
  | element tag inner d _ ih =>
    cases c with
    | element tag' inner' c =>
      simp only [element_append, face, element.injEq] at h
      obtain ⟨c₁, c₂, rfl, h₁, h₂⟩ := ih h.2.2
      exact ⟨.element tag' inner' c₁, c₂, rfl, by simp [face, h.1, h.2.1, h₁], h₂⟩
    | nil | text | markup => simp [face] at h

theorem child?_append (c d : Content) (name : Name) :
    (c ++ d).child? name = (c.child? name).or (d.child? name) := by
  rw [child?, children_append, List.find?_append]
  rfl

end MailMerge.Xml.Content

namespace MailMerge

open Xml Word

namespace Word

variable {f f' : Forest} {e e' new : Element} {line : List Char} {c c' : Content} {name : Name}

/-! ## What an item consists of -/

theorem CopyOf.of_face (h : CopyOf name e c) (hf : c'.face = c.face) : CopyOf name e c' := by
  rcases h with ⟨hn, rfl⟩ | ⟨p, hc, tail, hp⟩
  · exact .inl ⟨hn, Content.eq_nil_of_face hf⟩
  · exact .inr ⟨p, hc, tail, hf.trans hp⟩

theorem FormattingOf.of_face (h : FormattingOf e c) (hf : c'.face = c.face) : FormattingOf e c' := by
  rcases h with ⟨hn, rfl⟩ | ⟨r, hr, hc⟩
  · exact .inl ⟨hn, Content.eq_nil_of_face hf⟩
  · exact .inr ⟨r, hr, hc.of_face hf⟩

theorem CopyOf.child? (h : CopyOf name e c) :
    (c.child? name).map Element.face = (e.inner.child? name).map Element.face := by
  rcases h with ⟨hn, rfl⟩ | ⟨p, hc, tail, hp⟩
  · rw [hn]
    rfl
  · have hname : p.tag.name = name := by simpa using List.find?_some hc
    rw [← Content.child?_face, hp, Content.child?_face, hc]
    simp [Content.child?, Content.children, hname]

theorem FormattingOf.child? (h : FormattingOf e c) :
    (c.child? Names.runProperties).map Element.face = (firstFormatting? e).map Element.face := by
  rcases h with ⟨hn, rfl⟩ | ⟨r, hr, hc⟩
  · rw [firstFormatting?, hn]
    rfl
  · rw [hc.child?, firstFormatting?, hr]
    rfl

theorem child?_ofInlines (hc : OfInlines c) (hn : name ∉ Names.showing) : c.child? name = none := by
  rw [Content.child?, List.find?_eq_none]
  intro q hq hname
  have := paragraph_notMem_ofInlines hc q (Content.children_subset _ _ hq)
  exact hn (of_decide_eq_true hname ▸ this)

/-- A new item has copies of properties, and a run if its line is not empty. -/
theorem ItemOf.parts (h : ItemOf e line new) : ∃ (copy formatting shown : Content) (tag : Tag)
    (lead : Option String), CopyOf Names.paragraphProperties e copy ∧ FormattingOf e formatting ∧
      shown.face = (textContent lead line).face ∧ tag.name = Names.run ∧
        new.inner = copy ++ if line = [] then .nil else .element tag (formatting ++ shown) .nil := by
  obtain ⟨copy, formatting, lead, hc, hr, hf⟩ := h.inner
  obtain ⟨copy', rest, hinner, hc', hrest⟩ := Content.exists_append_of_face hf
  split at hrest
  · next hline =>
    exact ⟨copy', formatting, textContent lead line, newTag Names.run lead, lead, hc.of_face hc', hr,
      rfl, rfl, by rw [hinner, if_pos hline, Content.eq_nil_of_face hrest]⟩
  · next hline =>
    obtain ⟨tag, inner, rfl, htag, hin⟩ := eq_run_of_face hrest
    obtain ⟨formatting', shown, rfl, hr', hs⟩ := Content.exists_append_of_face hin
    exact ⟨copy', formatting', shown, tag, lead, hc.of_face hc', hr.of_face hr', hs, htag,
      by rw [hinner, if_neg hline]⟩

/-- The runs on top of content. -/
def runs (c : Content) : List Element := c.children.filter fun e => e.tag.name = Names.run

theorem CopyOf.runs_eq_nil (h : CopyOf name e c) (hn : name ≠ Names.run) : runs c = [] := by
  rcases h.cases with rfl | ⟨p, -, hp, tail, hf⟩
  · rfl
  · have hface : runs c.face = [] := by
      rw [hf, runs, Content.filter_face]
      simp [Content.children, hp, hn]
    rw [runs, Content.filter_face, List.map_eq_nil_iff] at hface
    exact hface

/-- An item with a line that is not empty has one run, which has the formatting of the first text
of the paragraph that the item has been put behind. -/
theorem ItemOf.run (h : ItemOf e line new) (hline : line ≠ []) : ∃ r, runs new.inner = [r] ∧
    (r.inner.child? Names.runProperties).map Element.face =
      (firstFormatting? e).map Element.face := by
  obtain ⟨copy, formatting, shown, tag, lead, hc, hr, hs, htag, hinner⟩ := h.parts
  rw [if_neg hline] at hinner
  refine ⟨⟨tag, formatting ++ shown⟩, ?_, ?_⟩
  · have hcopy : copy.children.filter (fun e => e.tag.name = Names.run) = [] :=
      hc.runs_eq_nil (by decide)
    rw [runs, hinner, Content.children_append, List.filter_append, hcopy]
    simp [Content.children, htag]
  · rw [Content.child?_append, child?_ofInlines (ofInlines_of_face hs (ofInlines_textContent _ _))
      (by decide), Option.or_none, hr.child?]

/-- The first text of an item is in its run, if it has any. -/
theorem ItemOf.firstFormatting? (h : ItemOf e line new) (hn : e.inner.ids.Nodup)
    (hn' : new.inner.ids.Nodup) (hl : Legible none e.inner) (hc : ClearProperties e.inner)
    (hends : ∀ c ∈ line, Text.isLineEnd c = false) :
    (Word.firstFormatting? new).map Element.face =
      if HasLetters line then (Word.firstFormatting? e).map Element.face else none := by
  obtain ⟨copy, formatting, shown, tag, lead, hcopy, hr, hs, htag, hinner⟩ := h.parts
  have hclear : segmentsIn none copy = [] := by
    rcases (properties_shown hl hcopy).2 with h | ⟨p, hp, hname, hlook⟩
    · exact h
    · rwa [hc p (List.mem_filter.2 ⟨hp, by simpa using hname⟩), List.map_nil,
        List.map_eq_nil_iff] at hlook
  have hsegs : Paragraph.segments new =
      if line = [] then [] else segmentsIn (some tag.id) shown := by
    rw [Paragraph.segments, hinner, segmentsIn_append, hclear, List.nil_append]
    split
    · rfl
    · have hconceal : tag.name ∉ Names.concealing := htag ▸ by decide
      have hrun : runOf tag = some tag.id := if_pos htag
      simp [segmentsIn, hconceal, hrun, segmentsIn_append, (formattingOf_shown hn hl hr tag.id).2]
  have hin := ofInlines_of_face hs (ofInlines_textContent lead line)
  have hlooks : (segmentsIn (some tag.id) shown).map Segment.look =
      (inlines line).map fun i => (i.shown, i.editable) :=
    (looks_of_face hs rfl).trans ((ofInlines_ofList lead _).2 tag.id)
  rw [firstFormatting?_eq, firstRunId?, hsegs]
  by_cases hlet : HasLetters line
  · have hline : line ≠ [] := by
      rintro rfl
      simp [HasLetters] at hlet
    obtain ⟨i, hi, hed⟩ := (inlines_editable hends).2 hlet
    obtain ⟨s, hsm, hsl⟩ := List.mem_map.1 (hlooks ▸ List.mem_map_of_mem hi)
    have hse : s.editable = true := (congrArg Prod.snd hsl).trans hed
    obtain ⟨y, hy⟩ := Option.isSome_iff_exists.1 (List.find?_isSome.2 ⟨s, hsm, hse⟩)
    have hrun : y.run = tag.id := run_of_ofInlines hin y (List.mem_of_find?_eq_some hy)
    have hz : (⟨tag, formatting ++ shown⟩ : Element) ∈ new.inner.elements := by
      simp [hinner, hline, Content.elements]
    rw [if_pos hlet, if_neg hline, hy, Option.map_some, Option.bind_some, hrun,
      formattingOf_eq hn' hz, ← child?_formatting, Content.child?_append,
      child?_ofInlines hin (by decide), Option.or_none, hr.child?]
  · have hnone : (if line = [] then [] else segmentsIn (some tag.id) shown).find? (·.editable) =
        none := by
      split
      · rfl
      rw [List.find?_eq_none]
      intro s hsm hed
      obtain ⟨i, hi, his⟩ := List.mem_map.1 (hlooks ▸ List.mem_map_of_mem hsm)
      exact hlet ((inlines_editable hends).1 ⟨i, hi, (congrArg Prod.snd his).trans hed⟩)
    rw [hnone, if_neg hlet]
    rfl

theorem Listed.paragraph {lines : List (List Char)} {items : List Element}
    (h : Listed e f lines items f') : ∀ x ∈ items, x.tag.name = Names.paragraph := by
  induction h with
  | nil => simp
  | cons hi _ ih => exact List.forall_mem_cons.2 ⟨hi.item.name, ih⟩

/-- Of items put one behind the other, those with a line that is not empty have the formatting of
the first text of the paragraph, unless a line in front of theirs has no text. -/
theorem Listed.formatted {lines : List (List Char)} {items : List Element} (hf : f.Numbered)
    (he : f.Has e) (hl : Legible none e.inner) (hc : ClearProperties e.inner)
    (hends : ∀ line ∈ lines, ∀ c ∈ line, Text.isLineEnd c = false)
    (h : Listed e f lines items f') {k : Nat} (hk : lines[k]? = some line)
    (hitem : items[k]? = some new) (hline : line ≠ []) : ∃ r, runs new.inner = [r] ∧
      (r.inner.child? Names.runProperties).map Element.face =
        if ∀ l ∈ lines.take k, HasLetters l then (Word.firstFormatting? e).map Element.face
        else none := by
  induction h generalizing k with
  | nil => simp at hk
  | @cons e mid f f₁ f' first lines items hi _ ih =>
    have hn : e.inner.ids.Nodup := hf.nodup_inner he
    rcases k with _ | k
    · obtain rfl : first = line := by simpa using hk
      obtain rfl : mid = new := by simpa using hitem
      simpa using hi.item.run hline
    · obtain ⟨r, hr, hrf⟩ := ih hi.step.numbered hi.has (hi.item.legible hn hl)
        (clearProperties_of_face hc hi.item.properties)
        (fun l hl => hends l (List.mem_cons_of_mem _ hl)) (by simpa using hk) (by simpa using hitem)
      refine ⟨r, hr, hrf.trans ?_⟩
      rw [hi.item.firstFormatting? hn (hi.step.numbered.nodup_inner hi.has) hl hc
        (hends first List.mem_cons_self)]
      by_cases hfirst : HasLetters first
      · simp [hfirst]
      · simp [hfirst]

/-! ## Where the items are -/

theorem HasChildren.trail {t : Tag} {children : List Element} {x : Element} (hf : f.Numbered)
    (hc : HasChildren f t children) (hx : x ∈ children) : ∃ u, key t :: u ∈ trails [] f.attached ∧
      key x.tag :: key t :: u ∈ trails [] f.attached := by
  obtain ⟨parent, hp, rfl, rfl⟩ := hc
  obtain ⟨u, hu⟩ := exists_root_trail hp
  exact ⟨u, hu, mem_trails_attached hf (.inl hp) hu (trails_of_child hx _)⟩

/-- No row goes with a paragraph if there is another one beside it that has text. -/
theorem CleanedUp.rows_eq {t : Tag} {front back : List Element} {stats stats' : Stats} {x : Element}
    (h : CleanedUp e f stats stats' f') (hf : f.Numbered) (hp : e.tag.name = Names.paragraph)
    (hc : HasChildren f t (front ++ e :: back)) (hx : x ∈ front ++ back)
    (hxp : x.tag.name = Names.paragraph) (ht : Paragraph.text x ≠ []) :
    stats'.rows = stats.rows := by
  rcases h with ⟨-, rfl, -⟩ | ⟨hempty, f₁, hf₁, hl, ⟨hr, -⟩ | ⟨-, place, cell, hplace, hcell, y, hy, hye⟩⟩
  · rfl
  · exact hr
  exfalso
  have he : f.element? e.tag.id = some e := hf.element?_of_has (.inl hc.has)
  have hloss : Loss f.next (fun _ => True) f f₁ := lifted_frame hf
    (fun q hq => Option.some.inj (he.symm.trans hq) ▸ hp) (fun _ _ _ => trivial) hl
  have hf₁n := hloss.numbered
  -- The cell is around the element that has the paragraph as a child.
  obtain ⟨u, hu, hue⟩ := hc.trail hf (x := e) (by simp)
  obtain ⟨w, v, hwv⟩ : ∃ w v, key t :: u = w ++ key cell.tag :: v := by
    obtain ⟨around, hplace', hmap, -⟩ := place?_of_trail hf (.inl hc.has) hue
    obtain rfl := Option.some.inj (hplace.symm.trans hplace')
    exact List.append_of_mem (hmap ▸ List.mem_map_of_mem hcell)
  obtain ⟨own, hc₁⟩ : ∃ own, HasChildren f₁ t (front ++ own ++ back) := by
    rcases hf₁ with rfl | rfl
    · exact ⟨[], by simpa using hc.detach hf⟩
    · exact ⟨[_], by simpa using hc.emptied hf⟩
  obtain ⟨u₁, hu₁, hux⟩ := hc₁.trail hf₁n (x := x) (by
    rcases List.mem_append.1 hx with h | h <;> simp [h])
  have hold : key t :: u₁ ∈ trails [] f.attached := (hloss.shift.new _ hu₁).resolve_right id
  rw [trail_eq_of_id hf.attached hold hu rfl, hwv] at hux
  obtain ⟨hyf, hid⟩ := hf₁n.element?_eq_some.1 hy
  have hkey : key y.tag = key cell.tag := by
    obtain ⟨z, hz, hk⟩ := exists_of_head (suffix_mem_trails (u := key x.tag :: w) hux (by simp))
    rw [← hk, hf₁n.eq_of_id hyf (.inl hz) (hid.trans (congrArg Key.id hk).symm)]
  have hxf : f₁.Has x := .inl (HasChildren.has_of_mem hc₁ (by
    rcases List.mem_append.1 hx with h | h <;> simp [h]))
  have hxy : x ∈ y.inner.elements := mem_inner_of_trail hf₁n hxf hyf (hkey ▸ hux)
  have hxe : Paragraph.isEmpty x = true := List.all_eq_true.1 hye x
    (List.mem_filter.2 ⟨hxy, by simpa using hxp⟩)
  exact ht (isEmpty_iff.1 hxe).1

end Word

namespace Merge

variable {d d' : Document} {e : Element} {s : Substitution} {first : List Char}
  {rest : List (List Char)} {stats stats' : Stats}

theorem IsWhole.head?_text (h : IsWhole s e) : (Paragraph.text e).head? = some '<' := by
  obtain ⟨found, hm, ht⟩ := List.mem_map.1 h.tag
  obtain ⟨-, -, hparts⟩ := Construct.scan_spec hm
  rw [← h.text, ← show found = s.tag.found from congrArg Tagged.found ht]
  exact (Construct.of_decompose? hparts).1

/-- An attached list item with legible text, no run in another one and no text in its properties, of
which a tag is all the text, and a value of several lines for that, not all of them empty but the
first. If the replacement is made, there is one item for each further line directly behind the place
of the paragraph, and each that is not empty has one run. If no line in front is made of tabs alone
or empty, that run has the formatting of the first text of the paragraph. If one of the further
lines in front is, it has none. -/
theorem items_keep_formatting (hd : d.forest.Numbered) (he : e ∈ d.forest.attached.elements)
    (hp : e.tag.name = Names.paragraph) (hw : IsWhole s e) (hl : Legible none e.inner)
    (hc : ClearProperties e.inner) (hflat : Flat e.inner)
    (hv : Text.splitLines s.value = first :: rest) (hrest : ∃ line ∈ rest, line ≠ [])
    (h : substitute stats s d = .ok stats' d') :
    ∃ t front back own items, HasChildren d.forest t (front ++ e :: back) ∧
      HasChildren d'.forest t (front ++ own ++ items ++ back) ∧ Left e first own ∧
      items.map Paragraph.text = rest ∧
      ∀ k line item, rest[k]? = some line → items[k]? = some item → line ≠ [] →
        ∃ r, runs item.inner = [r] ∧
          ((∀ l ∈ first :: rest.take k, HasLetters l) →
            (r.inner.child? Names.runProperties).map Element.face =
              (firstFormatting? e).map Element.face) ∧
          ((∃ l ∈ rest.take k, ¬HasLetters l) → r.inner.child? Names.runProperties = none) := by
  have hends : ∀ line ∈ first :: rest, ∀ c ∈ line, Text.isLineEnd c = false :=
    hv ▸ Text.isLineEnd_of_mem_splitLines
  have hcr : ∀ line ∈ first :: rest, '\r' ∉ line := fun line hm =>
    Text.cr_notMem_splitLines (hv ▸ hm)
  have hends' := fun l hl => hends l (List.mem_cons_of_mem first hl)
  obtain ⟨t, front, back, e', items, f₁, f₂, hex, hcl⟩ :=
    (substitute_expands hd he hp hw hv (by rintro rfl; simp at hrest)).of_ok h
  have hin : e.inner.ids.Nodup := Content.nodup_inner hd.attached he
  have hil : ∀ i ∈ e.inner.ids, i < d.forest.next := fun i hi =>
    hd.lt i (.inl ((Content.inner_ids_sublist he).subset hi))
  have hrew := hex.replaced.rewritten hin hil hl hc hw.text_ne_nil
  have hclear : ClearProperties e'.inner := fun q hq => hc q (hrew.properties ▸ hq)
  have hitems := hex.listed.itemsLike hex.step.numbered hex.has hrew.legible hclear
    fun line hm => hcr line (List.mem_cons_of_mem _ hm)
  have htexts : items.map Paragraph.text = rest := by
    have heq : List.Forall₂ (fun line new => line = Paragraph.text new) rest items :=
      hitems.imp fun _ _ h => h.1.text.symm
    rw [← List.forall₂_map_right_iff, List.forall₂_eq_eq_eq] at heq
    exact heq.symm
  have hrows : stats'.rows = stats.rows := by
    obtain ⟨line, hline, hne⟩ := hrest
    obtain ⟨x, hx, rfl⟩ := List.mem_map.1 (htexts ▸ hline)
    exact hcl.rows_eq hex.numbered (hrew.tag ▸ hp) hex.after (by simp [hx])
      (hex.listed.paragraph x hx) hne
  obtain ⟨own, hafter, hleft, -⟩ := hrew.left (hcr first List.mem_cons_self) hex.numbered
    hex.after hcl hrows
  refine ⟨t, front, back, own, items, hex.before, by simpa using hafter, hleft, htexts, ?_⟩
  intro k line item hk hitem hline
  obtain ⟨r, hr, hrf⟩ := hex.listed.formatted hex.step.numbered hex.has hrew.legible hclear hends'
    hk hitem hline
  refine ⟨r, hr, fun hall => ?_, fun hnone => ?_⟩
  · obtain ⟨hfirst, hall⟩ := List.forall_mem_cons.1 hall
    have hlead := hex.replaced.leading hin hil hl hflat hw.head?_text
      (hends first List.mem_cons_self) hfirst
    rw [hrf, if_pos hall, hrew.formatting.firstFormatting? hin
      (hex.step.numbered.nodup_inner hex.has) hlead]
  · rw [if_neg (by simpa using hnone)] at hrf
    simpa using hrf

/-- A list item in bold. -/
def boldItem : Document := .ofBody [Document.node Names.paragraph [
  Document.node Names.paragraphProperties [Document.node Names.numbering []],
  Document.node Names.run [
    Document.node Names.runProperties [Document.node (name "b") []],
    Document.node Names.text [.text "<<A>>".toList]]]]

theorem items_keep_formatting_boldItem : ∃ e s stats' d' x y r r' t front own back, IsWhole s e ∧
    substitute {} s boldItem = .ok stats' d' ∧
    HasChildren d'.forest t (front ++ own ++ [x, y] ++ back) ∧
    [x, y].map Paragraph.text = ["y".toList, "z".toList] ∧ runs x.inner = [r] ∧
    runs y.inner = [r'] ∧ (firstFormatting? e).isSome ∧
    ∀ q ∈ [r, r'], (q.inner.child? Names.runProperties).map Element.face =
      (firstFormatting? e).map Element.face := by
  have hfacts : ∃ e ∈ boldItem.forest.attached.elements, ∃ t ∈ tagsOf e,
      e.tag.name = Names.paragraph ∧ IsWhole ⟨t, "x\ny\nz".toList⟩ e ∧ Legible none e.inner ∧
      ClearProperties e.inner ∧ Flat e.inner ∧ (firstFormatting? e).isSome ∧
      Meets (substitute {} ⟨t, "x\ny\nz".toList⟩) boldItem (fun _ _ => True)
        fun _ _ => False := by decide +kernel
  obtain ⟨e, he, tag, -, hp, hw, hl, hc, hflat, hsome, hok⟩ := hfacts
  obtain ⟨stats', d', h, -⟩ := hok.exists_ok
  obtain ⟨t, front, back, own, items, -, hafter, -, htexts, hall⟩ :=
    items_keep_formatting (Document.sound_ofRoot _ : boldItem.Sound).numbered he hp hw hl hc hflat
      (show Text.splitLines "x\ny\nz".toList = "x".toList :: ["y".toList, "z".toList] by decide)
      ⟨"y".toList, by simp, by decide⟩ h
  obtain ⟨x, y, rfl⟩ : ∃ x y, items = [x, y] := by
    have hlen := congrArg List.length htexts
    rw [List.length_map] at hlen
    exact List.length_eq_two.1 hlen
  obtain ⟨r, hr, hrf, -⟩ := hall 0 _ x rfl rfl (by decide)
  obtain ⟨r', hr', hrf', -⟩ := hall 1 _ y rfl rfl (by decide)
  exact ⟨e, _, stats', d', x, y, r, r', t, front, own, back, hw, h, hafter, htexts, hr, hr', hsome,
    List.forall_mem_cons.2 ⟨hrf (by decide), List.forall_mem_cons.2 ⟨hrf' (by decide), by simp⟩⟩⟩

/-- Behind an empty line, items have no formatting, and neither have those of a value that begins
with one. -/
theorem items_lose_formatting : ∃ e ∈ boldItem.forest.attached.elements, ∃ t ∈ tagsOf e,
    IsWhole ⟨t, "x\n\ny".toList⟩ e ∧ Legible none e.inner ∧ ClearProperties e.inner ∧
    Flat e.inner ∧ (firstFormatting? e).isSome ∧
    ∀ value ∈ ["x\n\ny".toList, "\n\ny".toList, "\ny".toList],
      Meets (substitute {} ⟨t, value⟩) boldItem (fun _ d' =>
        ∃ x ∈ d'.forest.attached.named Names.paragraph, Paragraph.text x = "y".toList ∧
          (runs x.inner).map (fun r => (r.inner.child? Names.runProperties).isSome) = [false])
        fun _ _ => False := by
  decide +kernel

end Merge

end MailMerge
