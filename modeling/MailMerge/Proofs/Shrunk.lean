import MailMerge.Proofs.Blanks
import MailMerge.Proofs.Rewritten
import MailMerge.Proofs.Waiting

/-!
# Text that is cut out

Where characters of a paragraph are replaced by nothing, as many are gone, and nothing else shows
that has not been shown (`ReplacedSpan.shrunk`). What is left is in the same place in a list, and
stays legible (`Shrunk`).
-/

namespace MailMerge.Word

open MailMerge.Xml

variable {n : Nat} {changes : List (Nat × Change)} {run : Option Nat} {tag : Tag}
  {inner rest new c : Content}

/-! ## Text that is changed -/

theorem leadingText_changed
    (hnew : ∀ i x, changes.lookup i = some (.swap x) → x.leadingText = []) :
    ∀ c : Content, (changed changes c).leadingText = c.leadingText
  | .nil => rfl
  | .text cs rest => congrArg (cs ++ ·) (leadingText_changed hnew rest)
  | .markup _ _ => rfl
  | .element tag inner rest => by
    rcases hl : changes.lookup tag.id with _ | (cs | new)
    · simp only [changed, hl]
      rfl
    · simp only [changed, hl]
      rfl
    · simp only [changed, hl]
      exact leadingText_append (hnew _ _ hl) (Content.leadingText_dropText _)

/-- A text element with other text shows that, and what is in it. -/
theorem segmentsIn_withText {cs : List Char} {r : Nat} (h : tag.name = Names.text) :
    segmentsIn (some r)
      (.element (withText cs ⟨tag, inner⟩).tag (withText cs ⟨tag, inner⟩).inner rest) =
      [⟨tag.id, r, cs, true⟩] ++ (if tag.name ∈ Names.concealing then [] else
        segmentsIn (runOf tag) inner) ++ segmentsIn (some r) rest := by
  have hconceal : tag.name ∉ Names.concealing := h ▸ by decide
  have hinner : (withText cs ⟨tag, inner⟩).inner = .text cs inner.dropText := rfl
  simp only [segmentsIn, Option.bind_some, @of?_withText cs r ⟨tag, inner⟩ h, Option.toList_some,
    withText_name, hconceal, if_false, runOf, withText_id]
  rw [hinner, segmentsIn, segmentsIn_dropText]

/-- An element that is changed shows what it is given, and then no more than what is in it. -/
theorem segmentsIn_changed_element (hn : (Content.element tag inner rest).ids.Nodup)
    (hf : Fits n changes run (.element tag inner rest)) : ∃ within,
      within.Sublist (if tag.name ∈ Names.concealing then [] else
        segmentsIn (runOf tag) (changed changes inner)) ∧
      segmentsIn run (changed changes (.element tag inner rest)) =
        (run.bind fun r => Segment.of? r tag inner).toList.flatMap (applied changes) ++ within ++
          segmentsIn run (changed changes rest) := by
  have lead := leadingText_changed fun i x h => leadingText_ofInlines (hf.new i x h).1
  obtain ⟨hhead, -, -, -⟩ := hf.element hn
  rcases hl : changes.lookup tag.id with _ | x
  · refine ⟨_, .refl _, ?_⟩
    have head : (run.bind fun r => Segment.of? r tag (changed changes inner)).toList =
        (run.bind fun r => Segment.of? r tag inner).toList.flatMap (applied changes) := by
      rcases run with _ | r
      · rfl
      have hof : Segment.of? r tag (changed changes inner) = Segment.of? r tag inner := by
        simp only [Segment.of?, lead]
      rcases ho : Segment.of? r tag inner with _ | s
      · simp [hof, ho]
      · simp [hof, ho, applied, (of?_eq_some ho).1, hl]
    simp only [changed, hl, segmentsIn, head]
  · obtain ⟨hrun, hs, ht⟩ := hhead x hl
    obtain ⟨r, rfl⟩ := Option.isSome_iff_exists.1 hrun
    obtain ⟨s, ho⟩ : ∃ s, Segment.of? r tag inner = some s :=
      Option.ne_none_iff_exists'.1 fun ho => of?_eq_none.1 ho hs
    obtain ⟨hsn, rfl, -⟩ := of?_eq_some ho
    have hx : changes.lookup s.node = some x := hsn ▸ hl
    simp only [changed, hl, Option.bind_some, ho, Option.toList_some, List.flatMap_singleton,
      applied, hx]
    rcases x with cs | new
    · refine ⟨_, .refl _, ?_⟩
      have hq : s = ⟨tag.id, s.run, inner.leadingText, true⟩ := by
        have := ho.symm
        simpa [Segment.of?, ht cs rfl] using this
      rw [hq]
      exact segmentsIn_withText (ht cs rfl)
    · refine ⟨[], List.nil_sublist _, ?_⟩
      simp only [segmentsIn_append, segmentsIn_dropText, List.append_nil]

/-- Elements that are changed show what they are given. Other elements inside of them may go. -/
theorem segmentsIn_changed_sublist : ∀ {run : Option Nat} {c : Content}, c.ids.Nodup →
    Fits n changes run c →
      (segmentsIn run (changed changes c)).Sublist ((segmentsIn run c).flatMap (applied changes))
  | _, .nil, _, _ => .slnil
  | run, .text _ rest, hn, hf | run, .markup _ rest, hn, hf =>
    segmentsIn_changed_sublist (c := rest) hn ⟨hf.node, hf.new⟩
  | run, .element tag inner rest, hn, hf => by
    obtain ⟨within, hwithin, hshown⟩ := segmentsIn_changed_element hn hf
    obtain ⟨-, -, hi, hr⟩ := hf.element hn
    obtain ⟨-, hni, hnr, -⟩ := Content.nodup_ids_element.1 hn
    have hinner : (if tag.name ∈ Names.concealing then [] else
        segmentsIn (runOf tag) (changed changes inner)).Sublist ((if tag.name ∈ Names.concealing
          then [] else segmentsIn (runOf tag) inner).flatMap (applied changes)) := by
      split
      · exact .slnil
      · next ht => exact segmentsIn_changed_sublist hni (hi ht)
    rw [hshown, segmentsIn, List.flatMap_append, List.flatMap_append]
    exact ((List.Sublist.refl _).append (hwithin.trans hinner)).append
      (segmentsIn_changed_sublist hnr hr)

theorem showing_notMem_placing {m : Name} (hm : m ∈ Names.showing) : m ∉ Names.placing :=
  (by decide : ∀ m ∈ Names.showing, m ∉ Names.placing) m hm

theorem placing_ofInlines : ∀ {c : Content}, OfInlines c → placing c = .nil
  | .nil, _ => rfl
  | .element _ _ _, ⟨hs, _, hr⟩ => by
    rw [placing_of_notMem (showing_notMem_placing hs), placing_ofInlines hr]

theorem placing_changed : ∀ {run : Option Nat} {c : Content}, c.ids.Nodup →
    Fits n changes run c → placing (changed changes c) = placing c
  | _, .nil, _, _ => rfl
  | run, .text _ rest, hn, hf | run, .markup _ rest, hn, hf =>
    placing_changed (c := rest) hn ⟨hf.node, hf.new⟩
  | run, .element tag inner rest, hn, hf => by
    obtain ⟨hh, hc, hi, hr⟩ := hf.element hn
    obtain ⟨-, hni, hnr, -⟩ := Content.nodup_ids_element.1 hn
    have ir := placing_changed hnr hr
    have ii : placing (changed changes inner) = placing inner := by
      by_cases ht : tag.name ∈ Names.concealing
      · rw [changed_of_none (hc ht)]
      · exact placing_changed hni (hi ht)
    rcases hl : changes.lookup tag.id with _ | x
    · simp only [changed, hl, placing, ii, ir]
    · have hs : tag.name ∉ Names.placing := showing_notMem_placing (hh x hl).2.1
      rw [placing_of_notMem hs, ← ir]
      rcases x with cs | new
      · simp only [changed, hl]
        exact placing_of_notMem (by simpa using hs)
      · simp only [changed, hl, placing_append, placing_dropText,
          placing_ofInlines (hf.new _ _ hl).1, Content.nil_append]

/-! ## Runs that are tidied -/

theorem wanes_withoutEmptyText : ∀ c : Content, Wanes c (withoutEmptyText c)
  | .nil => .refl .nil
  | .text cs rest => (wanes_withoutEmptyText rest).text cs
  | .markup m rest => (wanes_withoutEmptyText rest).markup m
  | .element tag inner rest => by
    have hr : Wanes (.element tag inner rest) (.element tag inner (withoutEmptyText rest)) :=
      .element tag (.refl inner) (wanes_withoutEmptyText rest)
    rw [withoutEmptyText]
    split
    · next h =>
      simp only [Bool.and_eq_true, decide_eq_true_eq] at h
      exact hr.trans (.drop (h.1 ▸ by decide))
    · exact hr

theorem TidiedRun.wanes (h : TidiedRun tag inner rest new) (hr : tag.name = Names.run) :
    Wanes (.element tag inner rest) new := by
  cases h with
  | dropped => exact .drop (hr ▸ by decide)
  | kept => exact .element tag (wanes_withoutEmptyText inner) (.refl rest)

theorem wanes_tidy_all : ∀ (rs : List Nat) {c : Content}, c.ids.Nodup →
    (∀ r ∈ rs, r < n ∧ OwnRun r [] c) → Wanes c (rs.foldl (fun c r => tidy r c) c)
  | [], c, _, _ => .refl c
  | r :: rs, c, hn, ho => by
    obtain ⟨hr, hor⟩ := ho r List.mem_cons_self
    have hs : Swept Spent (fun _ => False) n [] c (tidy r c) := tidy_swept hn hor
    have hw : Wanes c (tidy r c) := by
      rcases tidy_cases hn hor with he | ⟨k, tag, inner, rest, new, rfl, he, ht, -, hrun, -⟩ <;>
        rw [he]
      · exact .refl c
      · exact (ht.wanes hrun).fill k
    exact hw.trans (wanes_tidy_all rs (hn.sublist (hs.ids_sublist fun _ => id)) fun i hi =>
      have ⟨hlt, hi⟩ := ho i (List.mem_cons_of_mem _ hi); ⟨hlt, hi.swept hs hlt⟩)

/-! ## Spans that are cut out -/

theorem spelled_cutOut : ∀ {start stop : Nat} (ps : List Piece), start ≤ stop →
    spelled (splice start stop [] ps) = (spelled ps).take start ++ (spelled ps).drop stop
  | _, _, [], _ => by simp [splice]
  | start, stop, p :: ps, hle => by
    rw [splice, spelled_cons]
    split
    · next hp =>
      rw [spelled_cons, spelled_cutOut ps (by omega), List.take_append, List.drop_append,
        List.take_of_length_le hp, List.drop_eq_nil_of_le (hp.trans hle), List.nil_append,
        List.append_assoc]
    · next hp =>
      have htrim : spelled (trim (stop - p.chars.length) ps) =
          (spelled ps).drop (stop - p.chars.length) := by
        rw [spelled_eq, marks_trim, List.map_drop, ← spelled_eq]
      have hstart : start - p.chars.length = 0 := by omega
      rw [if_pos rfl, spelled_append, htrim, spelled_eq, marks_refilled, List.take_append,
        List.drop_append, hstart]
      simp [Function.comp_def]

/-- Characters of a paragraph have been replaced. -/
def ReplacedSpan (n start stop : Nat) (e e' : Element) (new : List Char) : Prop :=
  ∃ p lead changes, List.Forall₂ SameChange (revision p lead start stop new
      (Paragraph.segments e)).changes changes ∧ Fresh n changes ∧
    e' = ⟨e.tag, Revision.apply ⟨changes, .nil, (revision p lead start stop new
      (Paragraph.segments e)).touched⟩ e.inner⟩

theorem ReplacedSpan.sameTag {start stop : Nat} {e e' : Element} {new : List Char}
    (h : ReplacedSpan n start stop e e' new) : e'.tag = e.tag := by
  obtain ⟨_, _, _, -, -, rfl⟩ := h
  rfl

theorem ReplacedSpan.has {f f₁ : Forest} {start stop : Nat} {e e' : Element} {new : List Char}
    {side : Forest.Side} {h : Hole} (hr : ReplacedSpan f.next start stop e e' new)
    (hp : Performed f f₁ e side h rest e'.inner) : f₁.Has e' := by
  have := hp.has
  rwa [← hr.sameTag] at this

/-- What is left of a paragraph that has lost `k` characters or more: it is in the same place in a
list, and has no text in new places. -/
structure Shrunk (k : Nat) (e e' : Element) : Prop where
  tag : e'.tag = e.tag
  text : (Paragraph.text e').length + k ≤ (Paragraph.text e).length
  place : placing e'.inner = placing e.inner
  legible : Legible none e.inner → Legible none e'.inner
  clear : ClearProperties e.inner → ClearProperties e'.inner

namespace Shrunk

variable {k m : Nat} {e e' e'' : Element}

theorem trans (h : Shrunk k e e') (h' : Shrunk m e' e'') : Shrunk (k + m) e e'' where
  tag := h'.tag.trans h.tag
  text := by
    have := h.text
    have := h'.text
    omega
  place := h'.place.trans h.place
  legible hl := h'.legible (h.legible hl)
  clear hc := h'.clear (h.clear hc)

theorem of_wanes (ht : e'.tag = e.tag) (h : Wanes e.inner e'.inner) : Shrunk 0 e e' :=
  ⟨ht, h.text_sublist.length_le, h.place, h.legible none, h.clear⟩

theorem isListItem (h : Shrunk k e e') : Paragraph.isListItem e' = Paragraph.isListItem e := by
  rw [Paragraph.isListItem, glyph_of_placing h.place]
  rfl

theorem length_properties (h : Shrunk k e e') :
    (properties e'.inner).length = (properties e.inner).length := by
  have := congrArg (fun c => (properties c).length) h.place
  simpa only [properties_placing, List.length_map] using this

end Shrunk

/-- Tidying up behind changed characters takes away only. -/
theorem wanes_tidied {r : Revision} {changes : List (Nat × Change)} {c : Content}
    (hsuits : r.Suits (segmentsIn none c)) (hsame : List.Forall₂ SameChange r.changes changes)
    (hfresh : Fresh n changes) (hin : c.ids.Nodup) (hil : ∀ i ∈ c.ids, i < n) :
    Wanes (changed changes c) (Revision.apply ⟨changes, .nil, r.touched⟩ c) := by
  have hfits := hsuits.fits hsame hfresh
  rw [Revision.apply, Content.append_nil]
  refine wanes_tidy_all (n := n) r.touched (nodup_changed hfresh hin hil) fun i hi => ?_
  obtain ⟨s, hs, rfl⟩ := hsuits.touched i hi
  obtain ⟨hm, ho⟩ := ownRun_of_segment (a := []) hin hs
  exact ⟨hil _ hm, ho.swept (changed_sweeps (r := ⟨changes, .nil, []⟩) hin hfits) (hil _ hm)⟩

/-- What is written into a paragraph does not move it in a list. -/
theorem placing_apply {r : Revision} {changes : List (Nat × Change)} {c : Content}
    (hsuits : r.Suits (segmentsIn none c)) (hsame : List.Forall₂ SameChange r.changes changes)
    (hfresh : Fresh n changes) (hin : c.ids.Nodup) (hil : ∀ i ∈ c.ids, i < n) :
    placing (Revision.apply ⟨changes, .nil, r.touched⟩ c) = placing c :=
  (wanes_tidied hsuits hsame hfresh hin hil).place.trans
    (placing_changed hin (hsuits.fits hsame hfresh))

theorem ReplacedSpan.placing {start stop : Nat} {e e' : Element} {new : List Char}
    (h : ReplacedSpan n start stop e e' new) (hin : e.inner.ids.Nodup)
    (hil : ∀ i ∈ e.inner.ids, i < n) : placing e'.inner = Word.placing e.inner := by
  obtain ⟨p, lead, changes, hsame, hfresh, rfl⟩ := h
  exact placing_apply (suits_revision new) hsame hfresh hin hil

/-- Where nothing is put in for characters, as many are gone. -/
theorem ReplacedSpan.shrunk {start stop : Nat} {e e' : Element}
    (h : ReplacedSpan n start stop e e' []) (hin : e.inner.ids.Nodup)
    (hil : ∀ i ∈ e.inner.ids, i < n) (hlt : start < stop)
    (hstop : stop ≤ (Paragraph.text e).length) : Shrunk (stop - start) e e' := by
  have hplace := h.placing hin hil
  obtain ⟨p, lead, changes, hsame, hfresh, rfl⟩ := h
  have hsuits : (revision p lead start stop [] (Paragraph.segments e)).Suits
    (Paragraph.segments e) := suits_revision []
  obtain ⟨r, hr⟩ : ∃ r, r = revision p lead start stop [] (Paragraph.segments e) := ⟨_, rfl⟩
  have hpieces := pieces_revision hlt (Nat.lt_of_lt_of_le hlt hstop) (@nodup_nodes none _ hin)
    (single_segments none e.inner) hsame
  rw [← hr] at hsame hsuits hplace ⊢
  have hfits := hsuits.fits hsame hfresh
  have htidy := wanes_tidied hsuits hsame hfresh hin hil
  refine ⟨rfl, ?_, hplace, fun hl => ?_, fun hc => ?_⟩
  · have hsub := ((htidy.shown none).trans (segmentsIn_changed_sublist hin hfits)).flatMap (·.chars)
    have hlen := hsub.length_le
    rw [show ((segmentsIn none e.inner).flatMap (applied changes)).flatMap (·.chars) =
      shownBy ((Paragraph.segments e).flatMap (applied changes)) from rfl, ← spelled_pieces,
      hpieces, spelled_cutOut _ hlt.le, spelled_pieces, List.length_append, List.length_take,
      List.length_drop] at hlen
    have htext : (shownBy (Paragraph.segments e)).length = (Paragraph.text e).length := rfl
    have : (Paragraph.text ⟨e.tag, Revision.apply ⟨changes, .nil, r.touched⟩ e.inner⟩).length ≤
        min start (shownBy (Paragraph.segments e)).length +
          ((shownBy (Paragraph.segments e)).length - stop) := hlen
    omega
  · exact (Revision.apply_legible (r := ⟨changes, .nil, r.touched⟩) hin hil hfits hfresh
      hsuits.touched rfl hl).legible
  · have hprops := Revision.properties_apply (r := ⟨changes, .nil, r.touched⟩) hin hil hfits hfresh
      hsuits.touched rfl hc
    exact fun q hq => hc q (hprops ▸ hq)

end MailMerge.Word
