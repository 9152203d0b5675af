import Mathlib.Data.List.Nodup
import MailMerge.Proofs.Shrunk
import MailMerge.Proofs.Standing

/-!
# One replacement

What a replacement does to the trees: the paragraph of the tag is revised, list items go behind it,
and what is empty then is cleaned away (`Substituted`, `substitute_spec`). Other paragraphs stand as
they did (`Substituted.others`). So does the paragraph of the tag, and the list items stand in order
behind it (`Substituted.own`).
-/

namespace MailMerge.Word

open MailMerge.Xml MailMerge.Xml.Reader

variable {f f' : Forest} {e : Element} {u : List Key}

/-! ## The order of trails -/

/-- Where nothing comes twice, what is there of a part of a list is in the order of the list. -/
theorem sublist_of_subset {α : Type} [DecidableEq α] {l m ts : List α} (hn : ts.Nodup)
    (hl : l.Sublist ts) (hm : m.Sublist ts) (hs : l ⊆ m) : l.Sublist m := by
  have hp : (m.filter (· ∈ l)).Perm l :=
    (List.perm_ext_iff_of_nodup ((hn.sublist hm).filter _) (hn.sublist hl)).2 fun x => by
      simpa using fun hx => hs hx
  rw [← (hn.perm_iff_eq_of_sublist (List.filter_sublist.trans hm) hl).1 hp]
  exact List.filter_sublist

/-- Where nothing comes twice, what comes in front of the first of others comes in front of all. -/
theorem sublist_cons_of_pair {α : Type} {a b : α} {l ts : List α} (hn : ts.Nodup)
    (hab : [a, b].Sublist ts) (hl : (b :: l).Sublist ts) : (a :: b :: l).Sublist ts := by
  obtain ⟨front, back, rfl, ha, hb⟩ := List.cons_sublist_iff.1 hab
  refine List.cons_sublist_iff.2 ⟨front, back, rfl, ha, ?_⟩
  obtain ⟨l₁, l₂, hlist, h₁, h₂⟩ := List.sublist_append_iff.1 hl
  cases l₁ with
  | nil => exact hlist ▸ h₂
  | cons x l₁ =>
    obtain ⟨rfl, -⟩ := List.cons.inj hlist
    exact absurd rfl ((List.nodup_append.1 hn).2.2 b (h₁.subset (by simp)) b (hb.subset (by simp)))

/-- Trails that are kept are in the order they were in. -/
theorem Frame.sublist {gone : List Key → List Key → Prop} {come : List Key → Prop}
    {but : Nat → Prop} {l : List (List Key)} (h : Frame gone come f.next but f f')
    (hf : f.Numbered) (hl : l.Sublist (trails [] f.attached))
    (hk : ∀ t ∈ l, t ∈ trails [] f'.attached) : l.Sublist (trails [] f'.attached) := by
  refine (sublist_of_subset (trails_nodup hf.attached) hl h.shift.order fun t ht => ?_).trans
    List.filter_sublist
  obtain ⟨k, v, rfl⟩ := above_suffix (hl.subset ht)
  have hlt := hf.lt k.id (.inl (mem_ids_iff_trail.2 ⟨k, _, hl.subset ht, rfl⟩))
  exact List.mem_filter.2 ⟨hk _ ht, by simpa using hlt⟩

/-! ## Paragraphs one behind the other -/

/-- What is seen of a paragraph: which one it is, and its text. -/
def seen (x : Element) : Tag × List Char := (x.tag, Paragraph.text x)

/-- Paragraphs that stand one behind the other, as far as they show anything. -/
structure Lined (u : List Key) (f : Forest) (l : List Element) : Prop where
  each : ∀ x ∈ l, Standing u f x
  order : ((l.filter (Paragraph.text · ≠ [])).map fun x => key x.tag :: u).Sublist
    (trails [] f.attached)

theorem exists_seen {good : Element → Prop} : ∀ {l : List Element},
    (∀ x ∈ l, ∃ x', seen x' = seen x ∧ good x') →
      ∃ l' : List Element, l'.map seen = l.map seen ∧ ∀ x' ∈ l', good x'
  | [], _ => ⟨[], rfl, by simp⟩
  | x :: l, h => by
    obtain ⟨⟨x', hx, hg⟩, h⟩ := List.forall_mem_cons.1 h
    obtain ⟨l', hl, hgs⟩ := exists_seen h
    exact ⟨x' :: l', by rw [List.map_cons, List.map_cons, hx, hl], List.forall_mem_cons.2 ⟨hg, hgs⟩⟩

theorem trails_of_seen {l l' : List Element} (h : l'.map seen = l.map seen) :
    (l'.filter (Paragraph.text · ≠ [])).map (fun x => key x.tag :: u) =
      (l.filter (Paragraph.text · ≠ [])).map fun x => key x.tag :: u := by
  have trailsOf : ∀ l : List Element, (l.filter (Paragraph.text · ≠ [])).map
      (fun x => key x.tag :: u) = ((l.map seen).filter (·.2 ≠ [])).map fun y => key y.1 :: u := by
    intro l
    rw [List.filter_map, List.map_map]
    rfl
  rw [trailsOf, trailsOf, h]

/-- Paragraphs that each stand where they did are in the same order. -/
theorem Lined.carry {gone : List Key → List Key → Prop} {come : List Key → Prop}
    {but : Nat → Prop} {l : List Element} (h : Lined u f l) (hf : f.Numbered)
    (hfr : Frame gone come f.next but f f')
    (hall : ∀ x ∈ l, ∃ x', seen x' = seen x ∧ Standing u f' x') :
    ∃ l' : List Element, l'.map seen = l.map seen ∧ Lined u f' l' := by
  obtain ⟨l', hseen, hstand⟩ := exists_seen hall
  refine ⟨l', hseen, hstand, hfr.sublist hf (trails_of_seen hseen ▸ h.order) fun t ht => ?_⟩
  obtain ⟨x', hx', rfl⟩ := List.mem_map.1 ht
  obtain ⟨hx', hne⟩ := List.mem_filter.1 hx'
  exact ((hstand x' hx').place (by simpa using hne)).2

/-! ## List items -/

/-- Whether no attached text is in properties. -/
def Bare (f : Forest) : Prop :=
  ∀ t ∈ trails [] f.attached, Clear Names.properties (t.map (·.name))

theorem Step.bare {but : Nat → Prop} (h : Step but f f') (hb : Bare f) : Bare f' :=
  fun t ht => (h.made t ht).names (inherited_clear (by decide)) hb

/-- A list item stands behind the paragraph that it is put behind. -/
theorem Inserted.standing {cs : List Char} {new : Element} (hi : Inserted f f' e cs new)
    (hf : f.Numbered) (hb : Bare f) (hp : e.tag.name = Names.paragraph) (hfirm : Firm none e.inner)
    (hu : Sheltered (u.map (·.name))) (ht : key e.tag :: u ∈ Word.trails [] f.attached) :
    Paragraph.text new = lineFeeds cs ∧ Standing u f' new ∧
      [key e.tag :: u, key new.tag :: u].Sublist (Word.trails [] f'.attached) := by
  have horder := hi.order hf ht
  have hm := mem_attached hf hi.old_has ht
  have hin : e.inner.ids.Nodup := Content.nodup_inner hf.attached hm
  obtain ⟨w, htext, hw⟩ := hi.item.shown hin hfirm.legible
  refine ⟨?_, ⟨hi.has, hi.item.name, hi.item.firm hin hfirm,
    fun _ => ⟨hu, horder.subset (by simp)⟩⟩, horder⟩
  obtain rfl : w = [] := by
    rcases hw with hw | ⟨p, hpc, hpn, rfl⟩
    · exact hw
    · rw [properties_show_nothing (fun t h => hb t (mem_trails_attached hf hi.old_has ht h)) hp hpc
        hpn]
      rfl
  exact htext

/-- List items stand behind the paragraph in order. -/
theorem Listed.order {lines : List (List Char)} {items : List Element}
    (hl : Listed e f lines items f') (hf : f.Numbered) (hb : Bare f)
    (hp : e.tag.name = Names.paragraph) (hfirm : Firm none e.inner)
    (hu : Sheltered (u.map (·.name))) (ht : key e.tag :: u ∈ trails [] f.attached) :
    ((e :: items).map fun x => key x.tag :: u).Sublist (trails [] f'.attached) := by
  induction hl with
  | nil => simpa using ht
  | cons hi hl ih =>
    obtain ⟨-, hst, horder⟩ := hi.standing hf hb hp hfirm hu ht
    have hf₁ := hi.step.numbered
    have hstep := hl.step hf₁
    refine sublist_cons_of_pair (trails_nodup hstep.numbered.attached)
      (hstep.sublist hf₁ horder fun t ht => trail_listed hl (horder.subset ht)) ?_
    exact ih hf₁ (hi.step.bare hb) hst.name hst.firm (horder.subset (by simp))

theorem Listed.standing {lines : List (List Char)} {items : List Element}
    (hl : Listed e f lines items f') (hf : f.Numbered) (hb : Bare f)
    (hp : e.tag.name = Names.paragraph) (hfirm : Firm none e.inner)
    (hu : Sheltered (u.map (·.name))) (ht : key e.tag :: u ∈ trails [] f.attached) :
    ∃ items' : List Element, items'.map (·.tag) = items.map (·.tag) ∧
      items'.map Paragraph.text = lines.map lineFeeds ∧
        ∀ x ∈ items', Standing u f' x ∧ f.next ≤ x.tag.id := by
  induction hl with
  | nil => exact ⟨[], rfl, rfl, by simp⟩
  | cons hi hl ih =>
    obtain ⟨htext, hst, horder⟩ := hi.standing hf hb hp hfirm hu ht
    have hf₁ := hi.step.numbered
    obtain ⟨items', htags, htexts, hall⟩ :=
      ih hf₁ (hi.step.bare hb) hst.name hst.firm (horder.subset (by simp))
    obtain ⟨x, htag, hpieces, hx⟩ := hst.listed hf₁ hl
    refine ⟨x :: items', by simp [htags, htag], by simp [htexts, text_of_pieces hpieces, htext],
      List.forall_mem_cons.2 ⟨⟨hx, ?_⟩, fun y hy => ?_⟩⟩
    · exact htag ▸ hi.ids _ (by simp)
    · exact ⟨(hall y hy).1, Nat.le_trans hi.step.next (hall y hy).2⟩

/-! ## Replacements -/

theorem Standing.namesParagraph {q : Element} (h : Standing u f q) (hf : f.Numbered) :
    NamesParagraph q.tag.id f := by
  refine ⟨hf.has_lt h.has, fun e he => ?_⟩
  obtain ⟨hhas, hid⟩ := hf.element?_eq_some.1 he
  rw [hf.eq_of_id hhas h.has hid, h.name]

/-- What comes of the replacement of a tag in the paragraph `q`: the first one of `lines` stands in
its place, and the other ones are list items. -/
inductive Substituted (f : Forest) (q : Element) (found : Found) (lines : List (List Char))
    (f' : Forest) : Prop
  | mk {f₁ f₂ : Forest} {q₁ : Element} {items : List Element}
    (revised : Frame Spent (Written f.next (trails [] f.attached)) f.next (· = q.tag.id) f f₁)
    (has : f₁.Has q₁) (tag : q₁.tag = q.tag) (firm : Firm none q₁.inner)
    (shown : pieces (Paragraph.segments q₁) = splice found.start found.stop
      (Merge.replacement found.parts (lines.headD [])) (pieces (Paragraph.segments q)))
    (listed : Listed q₁ f₁ lines.tail items f₂) (cleaned : Cleaned q.tag.id f₂ f')

namespace Substituted

variable {q : Element} {found : Found} {lines : List (List Char)} {l : List Element}
  {v : List Key}

/-- Up to where it is cleaned up, the paragraph is one. -/
theorem namesParagraph {f₁ f₂ : Forest} {q₁ : Element} {items : List Element} (hf : f.Numbered)
    (hq : Standing u f q) (hr : Frame Spent (Written f.next (trails [] f.attached)) f.next
      (· = q.tag.id) f f₁) (hl : Listed q₁ f₁ lines.tail items f₂) :
    NamesParagraph q.tag.id f₂ :=
  (hq.namesParagraph hf).move hf (hr.move.trans (hl.step hr.numbered).move)

theorem step (h : Substituted f q found lines f') (hf : f.Numbered) (hq : Standing u f q) :
    Step (· = q.tag.id) f f' := by
  obtain ⟨hr, -, -, -, -, hl, hc⟩ := h
  have h₁ : Step (· = q.tag.id) f _ := hr.step fun _ ht => made_of_written ht
  have h₂ : Step (· = q.tag.id) _ _ :=
    (hl.step hr.numbered).mono (Nat.le_refl _) (fun _ _ h => h) (fun _ h => h) fun _ h => h.elim
  have h₃ : Step (· = q.tag.id) _ f' :=
    (cleaned_frame h₂.numbered (namesParagraph hf hq hr hl).2 hc).step fun _ h => h.elim
  exact (h₁.trans h₂).trans h₃

/-- Other paragraphs show what they did. -/
theorem others (h : Substituted f q found lines f') (hf : f.Numbered) (hq : Standing u f q)
    (hl : Lined v f l) (hne : ∀ x ∈ l, x.tag.id ≠ q.tag.id) :
    ∃ l' : List Element, l'.map seen = l.map seen ∧ Lined v f' l' := by
  refine hl.carry hf (h.step hf hq) fun x hx => ?_
  obtain ⟨hr, -, -, -, -, hl', hc⟩ := h
  obtain ⟨x₁, ht₁, hp₁, hx₁⟩ := (hl.each x hx).revised (hne x hx) hr
  obtain ⟨x₂, ht₂, hp₂, hx₂⟩ := hx₁.listed hr.numbered hl'
  obtain ⟨x₃, ht₃, hp₃, hx₃⟩ := hx₂.cleaned (hl'.step hr.numbered).numbered
    (namesParagraph hf hq hr hl').2 hc
  have htag := ht₃.trans (ht₂.trans ht₁)
  have htext := text_of_pieces (hp₃.trans (hp₂.trans hp₁))
  exact ⟨x₃, Prod.ext htag htext, hx₃⟩

/-- The paragraph of the tag, with the list items behind it. -/
theorem own (h : Substituted f q found lines f') (hf : f.Numbered) (hb : Bare f)
    (hq : Standing u f q) (hne : Paragraph.text q ≠ []) :
    ∃ (q' : Element) (items : List Element), q'.tag = q.tag ∧
      Paragraph.text q' = spelled (splice found.start found.stop
        (Merge.replacement found.parts (lines.headD [])) (pieces (Paragraph.segments q))) ∧
      items.map Paragraph.text = lines.tail.map lineFeeds ∧ Lined u f' (q' :: items) ∧
      ∀ x ∈ items, f.next ≤ x.tag.id := by
  obtain @⟨f₁, f₂, q₁, items, hr, hhas, htag, hfirm, hshown, hl, hc⟩ := h
  obtain ⟨hu, -⟩ := hq.place hne
  have ht₁ : key q₁.tag :: u ∈ trails [] f₁.attached := htag ▸ hq.trail_revised hne hr
  have hn₁ : q₁.tag.name = Names.paragraph := htag ▸ hq.name
  have hb₁ : Bare f₁ :=
    (hr.step fun _ ht => made_of_written ht : Step (· = q.tag.id) f f₁).bare hb
  have hq₁ : Standing u f₁ q₁ := ⟨hhas, hn₁, hfirm, fun _ => ⟨hu, ht₁⟩⟩
  obtain ⟨q₂, ht₂, hp₂, hq₂⟩ := hq₁.listed hr.numbered hl
  obtain ⟨items₂, htags, htexts, hitems⟩ := hl.standing hr.numbered hb₁ hn₁ hfirm hu ht₁
  have hlined : Lined u f₂ (q₂ :: items₂) := by
    refine ⟨List.forall_mem_cons.2 ⟨hq₂, fun x hx => (hitems x hx).1⟩, ?_⟩
    refine (List.filter_sublist.map _).trans ?_
    have := hl.order hr.numbered hb₁ hn₁ hfirm hu ht₁
    have hkeys : (q₂ :: items₂).map (fun x => key x.tag :: u) =
        (q₁ :: items).map fun x => key x.tag :: u := by
      have := congrArg (List.map fun t => key t :: u) htags
      simpa [ht₂, Function.comp_def] using this
    exact hkeys ▸ this
  -- What is cleaned up around them has no text.
  have hnum := (hl.step hr.numbered).numbered
  have hpar := (namesParagraph hf hq hr hl).2
  have hclean : Loss f₂.next (fun _ => False) f₂ f' := cleaned_frame hnum hpar hc
  obtain ⟨l, hseen, hl'⟩ := hlined.carry hnum hclean fun x hx => by
    obtain ⟨x', htx, hpx, hx'⟩ := (hlined.each x hx).cleaned hnum hpar hc
    exact ⟨x', Prod.ext htx (text_of_pieces hpx), hx'⟩
  obtain ⟨q₃, items₃, rfl, hq₃, hitems₃⟩ := List.map_eq_cons_iff.1 hseen
  obtain ⟨htag₃, htext₃⟩ := Prod.mk.inj hq₃
  refine ⟨q₃, items₃, htag₃.trans (ht₂.trans htag), ?_, ?_, hl', fun x hx => ?_⟩
  · rw [htext₃, text_of_pieces hp₂, Paragraph.text, ← spelled_pieces, hshown]
  · have := congrArg (List.map Prod.snd) hitems₃
    rw [List.map_map, List.map_map] at this
    exact this.trans htexts
  · obtain ⟨y, hy, hyx⟩ := List.mem_map.1 (hitems₃ ▸ List.mem_map_of_mem hx)
    have hid : y.tag = x.tag := congrArg Prod.fst hyx
    exact hid ▸ Nat.le_trans hr.next (hitems y hy).2

end Substituted

end MailMerge.Word

namespace MailMerge

open Xml Word

/-- A construct is not empty. -/
theorem Found.text_ne_nil {found : Found}
    (hp : Construct.decompose? found.text = some found.parts) : found.text ≠ [] := by
  intro hn
  have := (Construct.of_decompose? hp).1
  simp [hn] at this

theorem Found.bounds {found : Found} (hp : Construct.decompose? found.text = some found.parts) :
    found.last + 1 = found.stop ∧ found.start ≤ found.last := by
  have hpos := List.length_pos_iff.2 (text_ne_nil hp)
  exact ⟨by rw [Found.last, Found.stop]; omega, by rw [Found.last]; omega⟩

namespace Merge

/-- The lines that the value of a replacement in `q` is written in: several ones only if the tag is
all the text of `q` and there is no text around the name in it. -/
def LinesFor (s : Substitution) (q : Element) (lines : List (List Char)) : Prop :=
  lines = [s.value] ∨ lines = Text.splitLines s.value ∧ Paragraph.text q = s.tag.found.text ∧
    s.tag.found.parts.lead = [] ∧ s.tag.found.parts.tail = []

/-- Characters that cannot be written in one of the lines are in the whole replacement. -/
theorem LinesFor.unwritable {s : Substitution} {q : Element} {lines : List (List Char)}
    (h : LinesFor s q lines) : ((replacement s.tag.found.parts (lines.headD [])).all isXmlChar = false →
      (replacement s.tag.found.parts s.value).all isXmlChar = false) ∧
    ∀ line ∈ lines.tail, line.all isXmlChar = false →
      (replacement s.tag.found.parts s.value).all isXmlChar = false := by
  rcases h with rfl | ⟨rfl, -, hlead, htail⟩
  · exact ⟨id, fun line hl => by cases hl⟩
  · have inValue : ∀ line ∈ Text.splitLines s.value, line.all isXmlChar = false →
        s.value.all isXmlChar = false := by
      intro line hl hx
      simp only [List.all_eq_false] at hx ⊢
      exact hx.imp fun c hc => ⟨Text.mem_of_mem_splitLines hl hc.1, hc.2⟩
    rw [replacement_of_bare hlead htail, replacement_of_bare hlead htail]
    obtain ⟨line, more, hsplit⟩ := List.exists_cons_of_ne_nil (Text.splitLines_ne_nil s.value)
    refine ⟨fun hx => ?_, fun line hl => inValue line (List.mem_of_mem_tail hl)⟩
    rw [hsplit, List.headD_cons] at hx
    exact inValue line (hsplit ▸ List.mem_cons_self) hx

/-- What a replacement in a paragraph that has the tag comes to, or why it fails: with a character
that cannot be written, with a level that is no integer, or with items beside a root. -/
theorem substitute_spec {d : Document} {stats : Stats} {s : Substitution} {q : Element}
    {u : List Key} (hd : d.forest.Numbered) (hq : Standing u d.forest q)
    (hid : q.tag.id = s.tag.paragraph) (hs : s.tag.found.StandsIn 0 (Paragraph.text q))
    (hp : Construct.decompose? s.tag.found.text = some s.tag.found.parts) :
    Meets (substitute stats s) d
      (fun _ d' => ∃ lines, Substituted d.forest q s.tag.found lines d'.forest ∧ LinesFor s q lines)
      fun err _ =>
        err = .notXmlText ∧ (replacement s.tag.found.parts s.value).all isXmlChar = false ∨
        Paragraph.glyph q = .error err ∨
        err = .besideRoot ∧ u = [] ∧ (Text.splitLines s.value).tail ≠ [] ∧
          s.tag.found.parts.lead = [] ∧ s.tag.found.parts.tail = [] := by
  have he : d.forest.element? s.tag.paragraph = some q := hid ▸ hd.element?_of_has hq.has
  obtain ⟨hlast, hle⟩ := Found.bounds hp
  have hlt : s.tag.found.last < (Paragraph.text q).length := by
    have := hs.stop_le
    omega
  have hne : Paragraph.text q ≠ [] := List.ne_nil_of_length_pos (by omega)
  have htext : tagText d.forest s.tag = Paragraph.text q := by rw [tagText, he]; rfl
  obtain ⟨side, hm⟩ := Forest.has_iff.1 hq.has
  have hin : ∀ i ∈ q.inner.ids, i < d.forest.next := fun i hi =>
    hd.side_lt side i ((Content.inner_ids_sublist hm).subset hi)
  -- What is known of the paragraph with the first line in, and of what cleaning up will lead to.
  refine substitute_meets
    (P := fun lines f₁ => LinesFor s q lines ∧
      Frame Spent (Written d.forest.next (trails [] d.forest.attached)) d.forest.next
        (· = q.tag.id) d.forest f₁ ∧
      ∃ inner, f₁.Has ⟨q.tag, inner⟩ ∧ Firm none inner ∧ placing inner = placing q.inner ∧
        pieces (segmentsIn none inner) = splice s.tag.found.start s.tag.found.stop
          (replacement s.tag.found.parts (lines.headD [])) (pieces (Paragraph.segments q)))
    (Q := fun lines f₂ => f₂.Numbered ∧ NamesParagraph q.tag.id f₂ ∧ ∀ f',
      Cleaned q.tag.id f₂ f' → Substituted d.forest q s.tag.found lines f' ∧ LinesFor s q lines)
    (R := fun _ f' => ∃ lines, Substituted d.forest q s.tag.found lines f' ∧ LinesFor s q lines)
    (fun hstale => absurd (htext ▸ hs.take) hstale) ?_ ?_ ?_ ?_
  · rintro f e err (rfl | ⟨lines, -, hr, inner, hhas, -, hplace, -⟩) - hfe hglyph
    · obtain rfl := Option.some.inj (he.symm.trans hfe)
      exact .inr (.inl hglyph)
    · rw [← hid, hr.numbered.element?_of_has hhas, Option.some.injEq] at hfe
      subst hfe
      exact .inr (.inl ((@glyph_of_placing q ⟨q.tag, inner⟩ hplace).symm.trans hglyph))
  · intro lines hlines _
    have hlines' : LinesFor s q lines := by
      rcases hlines with ⟨⟨e, he', -, htext, hbare⟩, hlines⟩ | ⟨-, hlines⟩
      · obtain rfl := Option.some.inj (he.symm.trans he')
        exact .inr ⟨hlines, htext, hbare⟩
      · exact .inl hlines
    refine (replaceSpan_spec hd he hq.name hle hlt).mono ?_ fun _ _ h =>
      .inl ⟨h.1, hlines'.unwritable.1 h.2⟩
    rintro _ f₁ ⟨side, h, rest, inner, hperf, hr, hfirmly, r, changes, hsuits, hsame, hfresh,
      rfl, -⟩
    obtain ⟨hfirm, hshown⟩ := hfirmly hq.firm
    have hplace := placing_apply hsuits hsame hfresh (hd.nodup_inner hq.has) hin
    exact ⟨hlines', hid ▸ hr, _, hperf.has, hfirm, hplace, hlast ▸ hshown⟩
  · rintro lines f₁ ⟨hlines, hr, inner, hhas, hfirm, -, hshown⟩
    rw [← hid]
    refine (addItems_spec lines.tail hr.numbered hhas hq.name).mono ?_ ?_
    · rintro _ f₂ ⟨items, hl⟩
      exact ⟨(hl.step hr.numbered).numbered, Substituted.namesParagraph hd hq hr hl,
        fun f' hc => ⟨⟨hr, hhas, rfl, hfirm, hshown, hl, hc⟩, hlines⟩⟩
    · rintro err f₂ ⟨-, ⟨rfl, line, hl, hx⟩ | ⟨rfl, hroot, hitems⟩⟩
      · exact .inl ⟨rfl, hlines.unwritable.2 line hl hx⟩
      · obtain ⟨x, hx, hxid⟩ := List.any_eq_true.1 hroot
        have ht := hq.trail_revised hne hr
        have heq := trail_eq_of_id hr.numbered.attached ht (trails_of_child hx [])
          (of_decide_eq_true hxid).symm
        obtain rfl | ⟨rfl, -, hbare⟩ := hlines
        · exact absurd rfl hitems
        · exact .inr (.inr ⟨rfl, (List.cons.inj heq).2, hitems, hbare⟩)
  · rintro lines d₂ ⟨hnum, hnames, hcleaned⟩
    rw [← hid]
    exact (clean_spec hnum hnames.2).mono (fun _ d' h => ⟨lines, hcleaned _ h.2⟩)
      fun _ _ h => h.elim

end Merge

end MailMerge
