import MailMerge.Proofs.Expanded

/-!
# The first text of a paragraph

A list item takes its formatting from the run that the first text of a paragraph is in
(`firstFormatting?`). Where no run is in another one, the segments of each run stand together
(`grouped_segments`), and the first text of a paragraph is in the same run after all of the text has
been replaced, unless no text is written for what replaces it (`ReplacedAll.leading`).
-/

namespace MailMerge.Word

open MailMerge.Xml

variable {n : Nat} {c : Content} {e e' : Element} {new : List Char} {l m : List Segment}

/-! ## Runs side by side -/

/-- Whether no run is in another one. -/
def Flat (c : Content) : Prop := ∀ r ∈ c.named Names.run, r.inner.named Names.run = []

instance : DecidablePred Flat := fun _ => inferInstanceAs (Decidable (∀ _ ∈ _, _))

/-- Whether the segments of each run stand together. -/
def Grouped (l : List Segment) : Prop := ∀ x y z, [x, y, z].Sublist l → x.run = z.run → y.run = x.run

theorem Grouped.append (hl : Grouped l) (hm : Grouped m) (h : ∀ x ∈ l, ∀ y ∈ m, x.run ≠ y.run) :
    Grouped (l ++ m) := by
  intro x y z hs hr
  obtain ⟨l₁, l₂, he, h₁, h₂⟩ := List.sublist_append_iff.1 hs
  rcases l₁ with _ | ⟨x', _ | ⟨y', _ | ⟨z', l₁⟩⟩⟩
  · exact hm x y z (he ▸ h₂) hr
  · obtain ⟨rfl, rfl⟩ := List.cons.inj he
    exact absurd hr (h x (h₁.subset (by simp)) z (h₂.subset (by simp)))
  · simp only [List.cons_append, List.nil_append, List.cons.injEq] at he
    obtain ⟨rfl, rfl, rfl⟩ := he
    exact absurd hr (h x (h₁.subset (by simp)) z (h₂.subset (by simp)))
  · simp only [List.cons_append, List.cons.injEq] at he
    obtain ⟨rfl, rfl, rfl, he⟩ := he
    obtain rfl := (List.append_eq_nil_iff.1 he.symm).1
    exact hl x y z h₁ hr

/-- What is shown by content without runs is in the run that the content stands in. -/
theorem run_of_unnested {run : Option Nat} (hc : c.named Names.run = []) {s : Segment}
    (hs : s ∈ segmentsIn run c) : run = some s.run := by
  obtain ⟨x, -, -, ⟨hr, -⟩ | ⟨k, v, ht, -, hk, -⟩⟩ := segment_trail [] hs
  · exact hr
  · obtain ⟨r, hr, u, hu⟩ := exists_of_trail (suffix_mem_trails (u := [x]) ht (by simp))
    have hm : r ∈ c.named Names.run := by
      refine List.mem_filter.2 ⟨hr, ?_⟩
      have : (key r.tag).name = Names.run := (List.cons.inj hu).1 ▸ hk
      simpa using this
    rw [hc] at hm
    cases hm

/-- In content in which no run is in another one, the segments of each run stand together. -/
theorem grouped_segments : ∀ {c : Content}, c.ids.Nodup → Flat c → Grouped (segmentsIn none c)
  | .nil, _, _ => fun _ _ _ hs _ => by simp [segmentsIn] at hs
  | .text _ rest, hn, hf | .markup _ rest, hn, hf => grouped_segments (c := rest) hn hf
  | .element tag inner rest, hn, hf => by
    have hsplit : segmentsIn none (.element tag inner rest) =
        segmentsIn none (.element tag inner .nil) ++ segmentsIn none rest := by
      rw [← segmentsIn_append, Content.element_append, Content.nil_append]
    have hids : (Content.element tag inner rest).ids =
        (Content.element tag inner .nil).ids ++ rest.ids := by simp
    rw [hids, List.nodup_append] at hn
    obtain ⟨hne, hnr, hdisj⟩ := hn
    have hin : inner.ids.Nodup := by
      simp only [Content.ids_element, Content.ids_nil, List.append_nil, List.nodup_cons] at hne
      exact hne.2
    have part : ∀ {d : Content}, d.elements ⊆ (Content.element tag inner rest).elements → Flat d :=
      fun hd r hr => hf r (List.filter_subset _ hd hr)
    rw [hsplit]
    refine .append ?_ (grouped_segments hnr (part fun r hr => by simp [Content.elements, hr]))
      fun x hx y hy hr => hdisj _ (ownRun_of_segment (a := []) hne hx).1 _
        (ownRun_of_segment (a := []) hnr hy).1 hr
    simp only [segmentsIn, Option.bind_none, Option.toList_none, List.nil_append, List.append_nil]
    split
    · exact fun _ _ _ hs _ => by simp at hs
    by_cases hrun : tag.name = Names.run
    · have hone : ∀ s ∈ segmentsIn (runOf tag) inner, runOf tag = some s.run := fun s hs =>
        run_of_unnested (hf ⟨tag, inner⟩ (by simp [Content.named, Content.elements, hrun])) hs
      intro x y z hs _
      exact Option.some.inj ((hone y (hs.subset (by simp))).symm.trans
        (hone x (hs.subset (by simp))))
    · rw [runOf, if_neg hrun]
      exact grouped_segments hin (part fun r hr => by simp [Content.elements, hr])

/-! ## The first text -/

/-- The run properties of the run that the first text of a paragraph is in. -/
def firstFormatting? (e : Element) : Option Element :=
  (firstRun? e).bind fun r => r.inner.child? Names.runProperties

/-- The run that the first text of a paragraph is in, by its number. -/
def firstRunId? (e : Element) : Option Nat :=
  ((Paragraph.segments e).find? (·.editable)).map (·.run)

theorem child?_formatting (c : Content) : c.child? Names.runProperties = (formatting c).head? := by
  rw [Content.child?, formatting, List.head?_filter]

theorem firstFormatting?_eq (e : Element) :
    firstFormatting? e = (firstRunId? e).bind fun r => (formattingOf e.inner r).head? := by
  unfold firstFormatting? firstRun? firstRunId? formattingOf
  cases (Paragraph.segments e).find? (·.editable) with
  | none => rfl
  | some s =>
    simp only [Option.bind_some, Option.map_some]
    cases e.inner.place? s.run with
    | none => rfl
    | some place => exact child?_formatting place.element.inner

/-- The first formatting is kept if the first text stays in its run. -/
theorem SameFormatting.firstFormatting? (h : SameFormatting e.inner e'.inner)
    (hn : e.inner.ids.Nodup) (hn' : e'.inner.ids.Nodup) (hr : firstRunId? e' = firstRunId? e) :
    firstFormatting? e' = firstFormatting? e := by
  rw [firstFormatting?_eq, firstFormatting?_eq, ← hr]
  refine Option.bind_congr fun r hm => ?_
  obtain ⟨s, hs, rfl⟩ := Option.map_eq_some_iff.1 hm
  rw [h.of_segment hn hn' (List.mem_of_find?_eq_some hs)]

/-- Whether a line has something else than tabs, so that text elements are written for it. -/
def HasLetters (line : List Char) : Prop := ∃ c ∈ line, c ≠ '\t'

instance : DecidablePred HasLetters := List.decidableBEx _

theorem inlines_editable {cs : List Char} (hcs : ∀ c ∈ cs, Text.isLineEnd c = false) :
    (∃ i ∈ inlines cs, i.editable = true) ↔ HasLetters cs := by
  fun_induction inlines cs with
  | case1 => simp [HasLetters]
  | case2 rest ih => exact absurd (hcs '\r' (by simp)) (by decide)
  | case3 rest h ih => simpa [HasLetters, Inline.editable] using ih (List.forall_mem_cons.1 hcs).2
  | case4 c rest h hc hl ih => exact absurd (hcs c (by simp)) (by simp [hl])
  | case5 c rest h hc hl cs more hm ih => simp [HasLetters, Inline.editable, hc]
  | case6 c rest h hc hl hm ih => simp [HasLetters, Inline.editable, hc]

/-- What shows no characters can be edited. -/
theorem editable_of_nil {run : Option Nat} {s : Segment} (hs : s ∈ segmentsIn run c)
    (h : s.chars = []) : s.editable = true := by
  by_contra he
  have := single_segments run c s hs (by simpa using he)
  simp [h] at this

/-- What begins with a bracket is a text element. -/
theorem editable_of_bracket {run : Option Nat} {s : Segment} (hs : s ∈ segmentsIn run c)
    (h : s.chars.head? = some '<') : s.editable = true := by
  by_contra he
  obtain ⟨x, -, hx⟩ := segment_mem hs
  rcases (of?_eq_some hx).2.2.2.2 (by simpa using he) with hc | hc <;> simp [hc] at h

/-- The runs that lose text in a replacement have some. -/
theorem touched_revision {p start stop i : Nat} {lead : Nat → Option String}
    (hi : i ∈ (revision p lead start stop new l).touched) : ∃ s ∈ l, s.run = i ∧ s.chars ≠ [] := by
  have ht : (revision p lead start stop new l).touched =
      ((cut start stop 0 l).map (·.1.run)).eraseDups := by
    unfold revision
    dsimp only
    split
    · rfl
    · split <;> rfl
  obtain ⟨y, hy, rfl⟩ := List.mem_map.1 (List.mem_eraseDups.1 (ht ▸ hi))
  exact ⟨y.1, cut_subset y hy, rfl, cut_chars y hy⟩

/-- What the segments `front ++ x :: back` become when all that they show is replaced: `x` is the
first one that shows something, and `mid` is written in its place. -/
structure Rewriting (new : List Char) (front : List Segment) (x : Segment)
    (back mid after : List Segment) (touched : List Nat) (l : List Segment) : Prop where
  blank : shownBy front = []
  shows : x.chars ≠ []
  inRun : ∀ s ∈ mid, s.run = x.run
  cleared : Word.pieces after = []
  losing : ∀ i ∈ touched, ∃ s ∈ front ++ x :: back, s.run = i ∧ s.chars ≠ []
  sublist : l.Sublist (front ++ (mid ++ after))
  others : l.filter (fun s => s.run ∉ touched) =
    (front ++ (mid ++ after)).filter fun s => s.run ∉ touched
  pieces : Word.pieces l = written x.run new

theorem ReplacedAll.segments (h : ReplacedAll n e e' new) (hin : e.inner.ids.Nodup)
    (hil : ∀ i ∈ e.inner.ids, i < n) (hl : Legible none e.inner) (ht : Paragraph.text e ≠ [])
    (hnew : new ≠ []) : ∃ front x back mid after touched,
      Paragraph.segments e = front ++ x :: back ∧
        Rewriting new front x back mid after touched (Paragraph.segments e') := by
  obtain ⟨p, lead, changes, hsame, hfresh, rfl⟩ := h
  have hpos := List.length_pos_iff.2 ht
  have hnodes : ((Paragraph.segments e).map (·.node)).Nodup := nodup_nodes hin
  have hsingle : Single (Paragraph.segments e) := single_segments none e.inner
  obtain ⟨front, x, back, left, right, y, hsegs, h₁, h₂, hleft, hright, hy, hchange, hall⟩ :=
    segments_revision hpos hpos hnodes hsingle hsame
  have hsuits : (revision p lead 0 (Paragraph.text e).length new (Paragraph.segments e)).Suits
    (Paragraph.segments e) := suits_revision new
  obtain ⟨-, -, hpieces, hsub, hothers⟩ := Revision.apply_legible (r := ⟨changes, .nil,
    (revision p lead 0 (Paragraph.text e).length new (Paragraph.segments e)).touched⟩) hin hil
    (hsuits.fits hsame hfresh) hfresh hsuits.touched rfl hl
  have hfront : shownBy front = [] := List.eq_nil_of_length_eq_zero (by omega)
  have hlen : (Paragraph.text e).length = x.chars.length + (shownBy back).length := by
    rw [Paragraph.text, hsegs, shownBy_append, hfront]
    simp [shownBy]
  -- All of the text goes, and `new` is written alone.
  obtain ⟨d, rfl, hd⟩ : ∃ d, y = .swap d ∧ d.face = (textContent (lead x.run) new).face := by
    rw [if_neg hnew, hleft, hright, hfront, List.drop_eq_nil_of_le (by simp; omega)] at hchange
    simp only [List.length_nil, Nat.sub_zero, List.take_zero, List.nil_append,
      List.append_nil] at hchange
    cases hchange with
    | swap _ h => exact ⟨_, rfl, h⟩
  have hmid : applied changes x = segmentsIn (some x.run) d := by simp [applied, hy]
  have hall : (segmentsIn none e.inner).flatMap (applied changes) = _ := hmid ▸ hall
  rw [hall] at hsub hothers hpieces
  have hback : pieces (back.flatMap (applied (byNode (cut 0 (Paragraph.text e).length
      ((shownBy front).length + x.chars.length) back)))) = [] := by
    rw [hsegs] at hnodes hsingle
    simp only [List.map_append, List.map_cons, List.nodup_append, List.nodup_cons] at hnodes
    rw [pieces_cut (Nat.zero_le _) hnodes.2.1.2 fun s hs => hsingle s (by simp [hs])]
    exact trim_eq_nil (by rw [spelled_pieces, hfront, hlen, List.length_nil]; omega)
  refine ⟨front, x, back, _, _, _, hsegs, hfront, List.ne_nil_of_length_pos (by omega),
    run_of_ofInlines (ofInlines_of_face hd (ofInlines_textContent _ _)), hback,
    fun i hi => hsegs ▸ touched_revision hi, hsub, hothers, ?_⟩
  rw [Paragraph.segments, hpieces, pieces_append, pieces_append, hback, pieces_of_text hfront,
    List.nil_append, List.append_nil, pieces_textContent hd]

namespace Rewriting

variable {front back mid after : List Segment} {x : Segment} {touched : List Nat}

/-- If all in front is in the run in which the new text is written, the first text is too. -/
theorem find?_run (h : Rewriting new front x back mid after touched l)
    (hends : ∀ c ∈ new, Text.isLineEnd c = false) (hnew : HasLetters new)
    (hfr : ∀ s ∈ front, s.run = x.run) : (l.find? (·.editable)).map (·.run) = some x.run := by
  have hpieces := h.pieces
  obtain ⟨u, vw, rfl, hu, hvw⟩ := List.sublist_append_iff.1 h.sublist
  obtain ⟨v, w, rfl, hv, hw⟩ := List.sublist_append_iff.1 hvw
  have hnu : Word.pieces u = [] :=
    List.sublist_nil.1 (pieces_of_text h.blank ▸ pieces_sublist hu)
  have hnw : Word.pieces w = [] := List.sublist_nil.1 (h.cleared ▸ pieces_sublist hw)
  rw [pieces_append, pieces_append, hnu, hnw, List.nil_append, List.append_nil] at hpieces
  obtain ⟨i, hi, hed⟩ := (inlines_editable hends).2 hnew
  have hq : (⟨x.run, i.shown, i.editable⟩ : Piece) ∈ Word.pieces v :=
    hpieces ▸ List.mem_map_of_mem hi
  obtain ⟨s, hs, hsq⟩ := List.mem_map.1 hq
  have hse : s.editable = true := (congrArg Piece.editable hsq).trans hed
  obtain ⟨y, hy⟩ : ∃ y, (u ++ v).find? (·.editable) = some y :=
    Option.isSome_iff_exists.1 (List.find?_isSome.2
      ⟨s, List.mem_append_right _ (List.mem_of_mem_filter hs), hse⟩)
  rw [← List.append_assoc, List.find?_append, hy]
  refine congrArg some ?_
  rcases List.mem_append.1 (List.mem_of_find?_eq_some hy) with hm | hm
  · exact hfr y (hu.subset hm)
  · exact h.inRun y (hv.subset hm)

/-- If the first segment shows nothing, nor does any other one in its run, it stays what it is. -/
theorem find?_bare {a : Segment} (h : Rewriting new (a :: front) x back mid after touched l)
    (ha : a.editable = true) (hbare : ∀ s ∈ a :: front ++ x :: back, s.run = a.run → s.chars = []) :
    l.find? (·.editable) = some a := by
  have hnot : a.run ∉ touched := fun hm => by
    obtain ⟨s, hs, hrun, hchars⟩ := h.losing _ hm
    exact hchars (hbare s hs hrun)
  rcases List.sublist_cons_iff.1 h.sublist with hsub | ⟨more, rfl, -⟩
  · have hlen := (hsub.filter fun s => s.run ∉ touched).length_le
    rw [h.others, List.cons_append, List.filter_cons_of_pos (by simpa using hnot)] at hlen
    exact absurd hlen (Nat.not_succ_le_self _)
  · exact List.find?_cons_of_pos ha

end Rewriting

/-- Where no run is in another one, the first text of a paragraph stays in its run when all text is
replaced by some that text elements are written for. -/
theorem ReplacedAll.leading (h : ReplacedAll n e e' new) (hin : e.inner.ids.Nodup)
    (hil : ∀ i ∈ e.inner.ids, i < n) (hl : Legible none e.inner) (hflat : Flat e.inner)
    (ht : (Paragraph.text e).head? = some '<') (hends : ∀ c ∈ new, Text.isLineEnd c = false)
    (hnew : HasLetters new) : firstRunId? e' = firstRunId? e := by
  obtain ⟨front, x, back, mid, after, touched, hsegs, hr⟩ := h.segments hin hil hl
    (by rintro h; simp [h] at ht) (by rintro rfl; simp [HasLetters] at hnew)
  have hmem : ∀ s ∈ front ++ x :: back, s ∈ segmentsIn none e.inner := fun s hs => by
    rwa [← hsegs] at hs
  have hempty : ∀ s ∈ front, s.chars = [] := List.flatMap_eq_nil_iff.1 hr.blank
  have hfront : ∀ s ∈ front, s.editable = true := fun s hs =>
    editable_of_nil (hmem s (by simp [hs])) (hempty s hs)
  have hx : x.editable = true := by
    refine editable_of_bracket (hmem x (by simp)) ?_
    rw [Paragraph.text, hsegs, shownBy_append, hr.blank, List.nil_append, shownBy,
      List.flatMap_cons, List.head?_append_of_ne_nil _ hr.shows] at ht
    exact ht
  simp only [firstRunId?, hsegs]
  by_cases hone : ∀ s ∈ front, s.run = x.run
  · rw [hr.find?_run hends hnew hone]
    rcases front with _ | ⟨a, front⟩
    · rw [List.nil_append, List.find?_cons_of_pos hx]
      rfl
    · rw [List.cons_append, List.find?_cons_of_pos (hfront a List.mem_cons_self), Option.map_some,
        hone a List.mem_cons_self]
  · -- The first text is empty, in another run, and as runs stand together, that one has no text.
    rcases front with _ | ⟨a, front⟩
    · simp at hone
    have ha := hfront a List.mem_cons_self
    rw [hr.find?_bare ha, List.cons_append, List.find?_cons_of_pos ha]
    intro s hs hrun
    have hgroup : Grouped (a :: front ++ x :: back) := hsegs ▸ grouped_segments hin hflat
    by_contra hchars
    have hsx : s ∈ x :: back := (List.mem_append.1 hs).resolve_left fun hm => hchars (hempty s hm)
    have hxa : x.run = a.run := by
      rcases List.mem_cons.1 hsx with rfl | hsb
      · exact hrun
      · exact hgroup a x s (by simp [hsb]) hrun.symm
    refine hone fun z hz => hxa ▸ ?_
    rcases List.mem_cons.1 hz with rfl | hz
    · rfl
    · have hzx : ([z] ++ [x]).Sublist (front ++ x :: back) :=
        (List.singleton_sublist.2 hz).append (List.singleton_sublist.2 List.mem_cons_self)
      exact hgroup a z x (hzx.cons_cons a) hxa.symm

end MailMerge.Word
