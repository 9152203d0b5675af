import MailMerge.Proofs.Cleanup
import MailMerge.Proofs.Shrunk
import MailMerge.Proofs.Substituted

/-!
# What a replacement comes to

A replacement that is made writes a value out in lines (`WrittenOut`, `substitute_writesOut`): the
first one is put into the paragraph, the other ones become items behind it. Whether there is more
than one line is decided by what the paragraph shows then. If the tag is all of that in a list item,
every line of the value is the text of an item (`WrittenOut.items_of_fills`).
-/

namespace MailMerge.Merge

open Xml Word

variable {d d' : Document} {stats : Stats} {s : Substitution} {f f' : Forest} {e q q' : Element}
  {lines : List (List Char)} {items : List Element} {k : Nat}

/-- The text of a tag in the paragraph `q` is replaced by the first of `lines`, `q'` being what has
become of `q`; the other ones are `items` directly behind it; and it is cleaned up. There is a line
of its own for each line of the value if the tag fills a list item. -/
structure WrittenOut (f : Forest) (s : Substitution) (q : Element) (lines : List (List Char))
    (q' : Element) (items : List Element) (f' : Forest) : Prop where
  place : f.element? s.tag.paragraph = some q
  stands : ((Paragraph.text q).drop s.tag.found.start).take s.tag.found.text.length =
    s.tag.found.text
  chosen : Fills f s.tag ∧ lines = Text.splitLines s.value ∨ ¬Fills f s.tag ∧ lines = [s.value]
  replaced : ReplacedSpan f.next s.tag.found.start s.tag.found.stop q q'
    (replacement s.tag.found.parts (lines.headD []))
  made : ∃ f₁ f₂ side h rest, Performed f f₁ q side h rest q'.inner ∧
    Listed q' f₁ lines.tail items f₂ ∧ Cleaned s.tag.paragraph f₂ f'

theorem clean_items (p : Nat) (stats : Stats) :
    Meets (clean p stats) d (fun stats' _ => stats'.items = stats.items) fun _ _ => True := by
  refine clean_meets (fun _ => rfl) fun place _ _ =>
    (removeParagraph_spec p d.forest).mono ?_ fun _ _ h => h
  rintro away f₁ - stats₁ d₁ rfl - -
  have hitems : (if away then { stats with paragraphs := stats.paragraphs + 1 } else stats).items =
      stats.items := by cases away <;> rfl
  refine ⟨fun _ => hitems, fun cell _ => cleanCell_meets (fun _ => hitems) fun _ r _ _ _ _ =>
    cleanRow_cases.mono ?_ fun _ _ _ => trivial⟩
  rintro _ _ ⟨-, ⟨rfl, -⟩ | ⟨rfl, -⟩⟩ <;> exact hitems

theorem length_of_listed (h : Listed e f lines items f') : items.length = lines.length := by
  induction h with
  | nil => rfl
  | cons _ _ ih => rw [List.length_cons, List.length_cons, ih]

/-- A tag that is replaced stands in its paragraph, and is written out. -/
theorem substitute_writesOut (hd : d.forest.Numbered)
    (hp : NamesParagraph s.tag.paragraph d.forest)
    (hparts : Construct.decompose? s.tag.found.text = some s.tag.found.parts) :
    Meets (substitute stats s) d (fun stats' d' => ∃ q lines q' items,
      WrittenOut d.forest s q lines q' items d'.forest ∧
        stats'.items = stats.items + items.length) fun _ _ => True := by
  obtain ⟨hlast, hle⟩ := Found.bounds hparts
  have hne := Found.text_ne_nil hparts
  by_cases hq : ∃ q, d.forest.element? s.tag.paragraph = some q
  swap
  · exact (substitute_text hne).mono (fun _ _ ⟨q, h, _⟩ => absurd ⟨q, h⟩ hq) fun _ _ _ => trivial
  obtain ⟨q, hq⟩ := hq
  have hn := hp.2 q hq
  obtain ⟨hhas, hid⟩ := hd.element?_eq_some.1 hq
  -- What is known of the forest once the first line is in, and of what cleaning up will lead to.
  refine substitute_steps
    (P := fun lines f₁ => ∃ q' side h rest,
      ((Paragraph.text q).drop s.tag.found.start).take s.tag.found.text.length =
        s.tag.found.text ∧
      (Fills d.forest s.tag ∧ lines = Text.splitLines s.value ∨
        ¬Fills d.forest s.tag ∧ lines = [s.value]) ∧
      ReplacedSpan d.forest.next s.tag.found.start s.tag.found.stop q q'
        (replacement s.tag.found.parts (lines.headD [])) ∧
      Performed d.forest f₁ q side h rest q'.inner)
    (Q := fun lines f₂ => f₂.Numbered ∧ NamesParagraph s.tag.paragraph f₂ ∧
      ∃ q' items, items.length = lines.tail.length ∧ ∀ f', Cleaned s.tag.paragraph f₂ f' →
        WrittenOut d.forest s q lines q' items f')
    (R := fun stats' f' => ∃ q lines q' items, WrittenOut d.forest s q lines q' items f' ∧
      stats'.items = stats.items + items.length) ?_ ?_ ?_
  · intro lines hlines hslice
    rw [tagText, hq, Option.map_some, Option.getD_some] at hslice
    have hlen := congrArg List.length hslice
    rw [List.length_take, List.length_drop] at hlen
    rw [Found.stop] at hlast
    refine (replaceSpan_apply hd hq hn hle (by omega)).mono ?_ fun _ _ _ => trivial
    rintro _ f₁ ⟨side, h, rest, changes, hperf, hsame, hfresh⟩
    rw [hlast] at hsame hperf
    exact ⟨⟨q.tag, _⟩, side, h, rest, hslice, hlines, ⟨_, _, changes, hsame, hfresh, rfl⟩, hperf⟩
  · rintro lines f₁ ⟨q', side, h, rest, hslice, hlines, hrep, hperf⟩
    have hnum := hperf.frame.numbered
    rw [← hid, ← hrep.sameTag]
    refine (addItems_spec lines.tail hnum (hrep.has hperf) (hrep.sameTag ▸ hn)).mono ?_
      fun _ _ _ => trivial
    rintro _ f₂ ⟨items, hl⟩
    have hm : Move d.forest f₂ := hperf.frame.move.trans (hl.step hnum).move
    rw [hrep.sameTag, hid]
    exact ⟨hm.numbered, hp.move hd hm, q', items, length_of_listed hl, fun f' hc =>
      ⟨hq, hslice, hlines, hrep, f₁, f₂, side, h, rest, hperf, hl, hc⟩⟩
  · rintro lines d₂ ⟨hnum, hp₂, q', items, hlen, hwritten⟩
    refine ((clean_spec hnum hp₂.2).and (clean_items _ _)).mono ?_ fun _ _ _ => trivial
    rintro stats' d' ⟨⟨-, hc⟩, hitems⟩
    exact ⟨q, lines, q', items, hwritten _ hc, by rw [hitems, hlen]; rfl⟩

namespace WrittenOut

theorem lines_of_nil (h : WrittenOut f s q lines q' items f') (hv : s.value = []) :
    lines = [[]] := by
  have hlines := h.chosen
  rw [hv] at hlines
  exact hlines.elim (fun h => h.2) fun h => h.2

theorem text_ne_nil (h : WrittenOut f s q lines q' items f') (hne : s.tag.found.text ≠ []) :
    Paragraph.text q ≠ [] := by
  intro hnil
  have hstands := h.stands
  rw [hnil, List.drop_nil, List.take_nil] at hstands
  exact hne hstands.symm

/-- What has the number of the paragraph then, and has text, is what is left of it. -/
theorem waned (h : WrittenOut f s q lines q' items f') (hf : f.Numbered)
    (hp : NamesParagraph s.tag.paragraph f) {x : Element} (hx : f'.Has x)
    (hid : x.tag.id = q.tag.id) (hn : x.tag.name = Names.paragraph)
    (ht : Paragraph.text x ≠ []) : x.tag = q'.tag ∧ Wanes q'.inner x.inner := by
  obtain ⟨hplace, -, -, hrep, f₁, f₂, side, hole, rest, hperf, hlisted, hc⟩ := h
  obtain ⟨hhas, hqid⟩ := hf.element?_eq_some.1 hplace
  have hnum := hperf.frame.numbered
  have hstep := hlisted.step hnum
  have hp₂ := hp.move hf (hperf.frame.move.trans hstep.move)
  have hwaits : Waits q.tag.id f₁ f' :=
    (hlisted.waits (Nat.lt_of_lt_of_le (hf.has_lt hhas) hperf.frame.next)).trans
      (hc.waits hstep.numbered hp₂.2)
  obtain ⟨y, hy, htag, hwanes⟩ := hwaits x hx hid hn ht
  obtain rfl := hnum.eq_of_id hy (hrep.has hperf) (by rw [htag, hid, hrep.sameTag])
  exact ⟨htag.symm, hwanes⟩

/-- A replacement does not move its paragraph in a list. -/
theorem placing (h : WrittenOut f s q lines q' items f') (hf : f.Numbered) :
    Word.placing q'.inner = Word.placing q.inner := by
  obtain ⟨hhas, -⟩ := hf.element?_eq_some.1 h.place
  obtain ⟨side, hm⟩ := Forest.has_iff.1 hhas
  exact h.replaced.placing (hf.nodup_inner hhas) fun i hi =>
    hf.side_lt side i ((Content.inner_ids_sublist hm).subset hi)

/-! ### Tags that are all there is -/

theorem start_eq_zero (h : WrittenOut f s q lines q' items f') (hne : s.tag.found.text ≠ [])
    (hlen : (Paragraph.text q).length ≤ s.tag.found.text.length) : s.tag.found.start = 0 := by
  have hpos := List.length_pos_iff.2 hne
  have hcut := congrArg List.length h.stands
  rw [List.length_take, List.length_drop] at hcut
  omega

/-- A tag is all that is left of a paragraph when the rest of the text has gone. -/
theorem fills (h : WrittenOut f s q lines q' items f') (hne : s.tag.found.text ≠ [])
    (hs : Shrunk k e q) (hitem : Paragraph.isListItem e = .ok true)
    (hlead : s.tag.found.parts.lead = []) (htail : s.tag.found.parts.tail = [])
    (hlen : (Paragraph.text e).length ≤ s.tag.found.text.length + k) : Fills f s.tag := by
  have hshort : (Paragraph.text q).length ≤ s.tag.found.text.length := by
    have := hs.text
    omega
  have hstands := h.stands
  rw [h.start_eq_zero hne hshort, List.drop_zero, List.take_of_length_le hshort] at hstands
  exact ⟨q, h.place, hs.isListItem.trans hitem, hstands, hlead, htail⟩

/-- A tag with something in front of it is not all of the text. -/
theorem not_fills (h : WrittenOut f s q lines q' items f') (hne : s.tag.found.text ≠ [])
    (hstart : 0 < s.tag.found.start) : ¬Fills f s.tag := by
  rintro ⟨x, hx, -, htext, -⟩
  obtain rfl := Option.some.inj (h.place.symm.trans hx)
  exact absurd (h.start_eq_zero hne (by rw [htext])) hstart.ne'

theorem lines_of_fills (h : WrittenOut f s q lines q' items f') (hf : Fills f s.tag) :
    lines = Text.splitLines s.value :=
  h.chosen.elim (fun h => h.2) fun h => absurd hf h.1

theorem lines_of_not_fills (h : WrittenOut f s q lines q' items f') (hf : ¬Fills f s.tag) :
    lines = [s.value] :=
  h.chosen.elim (fun h => absurd h.1 hf) fun h => h.2

theorem length_items (h : WrittenOut f s q lines q' items f') :
    items.length + 1 = lines.length := by
  have hpos : lines ≠ [] := by
    rcases h.chosen with ⟨-, rfl⟩ | ⟨-, rfl⟩
    · exact Text.splitLines_ne_nil s.value
    · exact List.cons_ne_nil _ _
  obtain ⟨_, _, _, _, _, -, hlisted, -⟩ := h.made
  have := List.length_pos_iff.2 hpos
  rw [length_of_listed hlisted, List.length_tail]
  omega

/-- Where a tag is all of the text of a list item, there is a paragraph for each line. -/
theorem rewritten (h : WrittenOut f s q lines q' items f') (hf : f.Numbered)
    (hne : s.tag.found.text ≠ []) (hfill : Fills f s.tag) (hl : Legible none q.inner)
    (hc : ClearProperties q.inner) : ∃ first rest, Text.splitLines s.value = first :: rest ∧
      Word.Rewritten q q' first ∧ List.Forall₂ (fun line x => ItemLike q' x line) rest items := by
  have hlines := h.lines_of_fills hfill
  have hq := h.text_ne_nil hne
  obtain ⟨x, hx, -, htext, hlead, htail⟩ := hfill
  obtain rfl := Option.some.inj (h.place.symm.trans hx)
  have hstart := h.start_eq_zero hne (by rw [htext])
  obtain ⟨hplace, -, -, hrep, f₁, f₂, side, hole, more, hperf, hlisted, -⟩ := h
  obtain ⟨hhas, -⟩ := hf.element?_eq_some.1 hplace
  obtain ⟨first, rest, hsplit⟩ := List.exists_cons_of_ne_nil (Text.splitLines_ne_nil s.value)
  obtain rfl := hlines.trans hsplit
  have hlf : ∀ line ∈ first :: rest, '\r' ∉ line := fun line hm =>
    Text.cr_notMem_splitLines (hsplit ▸ hm)
  have hall : ReplacedAll f.next q q' first := by
    rw [replacement_of_bare hlead htail, Found.stop, hstart, Nat.zero_add, ← htext] at hrep
    exact hrep
  have hrew := hall.rewritten (hf.nodup_inner hhas) (hf.inner_lt hhas) hl hc hq
  have hclear : ClearProperties q'.inner := fun p hp => hc p (hrew.properties ▸ hp)
  have hitems := hlisted.itemsLike hperf.frame.numbered (hrep.has hperf) hrew.legible hclear
    fun line hm => hlf line (List.mem_cons_of_mem _ hm)
  exact ⟨first, rest, hsplit, hrew, hitems.imp fun _ _ h => h.1⟩

/-- There are as many items as lines, each with its line and in the same place in the list. -/
theorem items_of_fills (h : WrittenOut f s q lines q' items f') (hf : f.Numbered)
    (hne : s.tag.found.text ≠ []) (hfill : Fills f s.tag) (hl : Legible none q.inner)
    (hc : ClearProperties q.inner) :
    (q' :: items).map Paragraph.text = Text.splitLines s.value ∧
      ((properties q.inner).length ≤ 1 →
        ∀ x ∈ q' :: items, Paragraph.glyph x = Paragraph.glyph q) := by
  obtain ⟨first, rest, hsplit, hrew, hlike⟩ := h.rewritten hf hne hfill hl hc
  have hfirst : '\r' ∉ first := Text.cr_notMem_splitLines (hsplit ▸ List.mem_cons_self)
  have hglyph : Paragraph.glyph q' = Paragraph.glyph q :=
    (glyph_of_properties (by rw [hrew.properties])).1
  refine ⟨?_, fun hone => List.forall_mem_cons.2 ⟨hglyph, ?_⟩⟩
  · have heq : List.Forall₂ (fun line x => line = Paragraph.text x) rest items :=
      hlike.imp fun _ _ h => h.text.symm
    rw [← List.forall₂_map_right_iff, List.forall₂_eq_eq_eq] at heq
    rw [List.map_cons, hrew.text hfirst, hsplit, heq]
  · have hitems : List.Forall₂ (fun x line => Paragraph.glyph x = Paragraph.glyph q ∧
        ItemLike q' x line) items rest := hlike.flip.imp fun _ _ hx =>
      ⟨(hx.glyph (hrew.properties ▸ hone)).1.trans hglyph, hx⟩
    exact ((List.forall₂_and_left items rest).1 hitems).1

end WrittenOut

/-! ## Places in lists -/

/-- What is left of the paragraph `i`, if it has text, had text before and is in the same place of a
list. -/
def StaysListed (i : Nat) (f f' : Forest) : Prop :=
  ∀ x', f'.Has x' → x'.tag.id = i → x'.tag.name = Names.paragraph → Paragraph.text x' ≠ [] →
    ∃ x, f.Has x ∧ x.tag = x'.tag ∧ Paragraph.text x ≠ [] ∧ placing x'.inner = placing x.inner

theorem StaysListed.refl (i : Nat) (f : Forest) : StaysListed i f f :=
  fun x hx _ _ ht => ⟨x, hx, rfl, ht, rfl⟩

theorem StaysListed.trans {f'' : Forest} {i : Nat} (h : StaysListed i f f')
    (h' : StaysListed i f' f'') : StaysListed i f f'' := by
  intro x hx hid hn ht
  obtain ⟨y, hy, htag, hty, hplace⟩ := h' x hx hid hn ht
  obtain ⟨z, hz, htag', htz, hplace'⟩ := h y hy (htag ▸ hid) (htag ▸ hn) hty
  exact ⟨z, hz, htag'.trans htag, htz, hplace.trans hplace'⟩

/-- No replacement moves a paragraph in a list. -/
theorem substitute_staysListed {i : Nat} (hd : d.forest.Numbered)
    (hp : NamesParagraph s.tag.paragraph d.forest)
    (hparts : Construct.decompose? s.tag.found.text = some s.tag.found.parts)
    (hi : i < d.forest.next) :
    Meets (substitute stats s) d (fun _ d' => StaysListed i d.forest d'.forest)
      fun _ _ => True := by
  by_cases hne : s.tag.paragraph = i
  · refine (substitute_writesOut hd hp hparts).mono ?_ fun _ _ _ => trivial
    rintro _ d' ⟨q, lines, q', items, hw, -⟩ x hx hid hn ht
    obtain ⟨hhas, hqid⟩ := hd.element?_eq_some.1 hw.place
    obtain ⟨htag, hwanes⟩ := hw.waned hd hp hx (hid.trans (hne.symm.trans hqid.symm)) hn ht
    exact ⟨q, hhas, hw.replaced.sameTag.symm.trans htag.symm,
      hw.text_ne_nil (Found.text_ne_nil hparts), hwanes.place.trans (hw.placing hd)⟩
  · refine (substitute_waits hd hp hne hi).mono (fun _ d' hw => ?_) fun _ _ _ => trivial
    intro x hx hid hn ht
    obtain ⟨y, hy, htag, hwanes⟩ := hw x hx hid hn ht
    exact ⟨y, hy, htag, fun hnil => ht (List.sublist_nil.1 (hnil ▸ hwanes.text_sublist)),
      hwanes.place⟩

end MailMerge.Merge
