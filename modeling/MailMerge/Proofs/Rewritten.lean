import MailMerge.Proofs.Letters

/-!
# Paragraphs with new text

What a paragraph is when all of its text has been replaced (`Rewritten`): its properties are what
they were, it shows the new text in the run that its first characters were in, and what is embedded
in it is still there, unless it goes with a run.
-/

namespace MailMerge.Word

open MailMerge.Xml MailMerge.Xml.Reader

variable {n : Nat} {changes : List (Nat × Change)} {c c' : Content}

/-! ## Properties -/

/-- The paragraph properties on top of content. -/
def properties (c : Content) : List Element :=
  c.children.filter fun e => e.tag.name = Names.paragraphProperties

@[simp] theorem properties_element (tag : Tag) (inner rest : Content) :
    properties (.element tag inner rest) =
      (if tag.name = Names.paragraphProperties then [⟨tag, inner⟩] else []) ++ properties rest := by
  by_cases h : tag.name = Names.paragraphProperties <;> simp [properties, Content.children, h]

@[simp] theorem properties_append (c d : Content) :
    properties (c ++ d) = properties c ++ properties d := by simp [properties]

@[simp] theorem properties_dropText : ∀ c : Content, properties c.dropText = properties c
  | .nil | .markup _ _ | .element _ _ _ => rfl
  | .text _ rest => properties_dropText rest

theorem runOf_properties {tag : Tag} (h : tag.name = Names.paragraphProperties) :
    runOf tag = none := if_neg (h ▸ by decide)

/-- Whether no run with text is in the paragraph properties on top of content. -/
def ClearProperties (c : Content) : Prop := ∀ q ∈ properties c, segmentsIn none q.inner = []

instance : DecidablePred ClearProperties := fun _ => inferInstanceAs (Decidable (∀ _ ∈ _, _))

/-- Text is not changed in paragraph properties if there is none. -/
theorem properties_changed : ∀ {c : Content}, c.ids.Nodup → Fits n changes none c →
    ClearProperties c → properties (changed changes c) = properties c
  | .nil, _, _, _ => rfl
  | .text _ rest, hn, hf, hc | .markup _ rest, hn, hf, hc =>
    properties_changed (c := rest) hn ⟨hf.node, hf.new⟩ hc
  | .element tag inner rest, hn, hf, hc => by
    obtain ⟨hh, -, hi, hr⟩ := hf.element hn
    simp only [Content.ids_element, List.nodup_cons, List.nodup_append] at hn
    -- What stands in no run shows nothing, and is not changed itself.
    have hl : changes.lookup tag.id = none := by
      rcases hl : changes.lookup tag.id with _ | x
      · rfl
      · cases (hh x hl).1
    have ih := properties_changed hn.2.2.1 hr fun q hq => hc q (by simp [hq])
    simp only [changed, hl, properties_element, ih]
    split
    · next ht =>
      have hin := hi (ht ▸ by decide)
      rw [runOf_properties ht] at hin
      rw [hin.changed_eq (hc ⟨tag, inner⟩ (by simp [ht]))]
    · rfl

/-- Whether nothing in the paragraph properties on top of content has a number. -/
def OutsideProperties (i : Nat) (c : Content) : Prop := ∀ q ∈ properties c, i ∉ q.inner.ids

/-- A change at a place outside of paragraph properties does not change these. -/
theorem properties_fill {i : Nat} (hi : i ∈ c.ids) (hc : properties c' = properties c) :
    ∀ {h : Hole}, OutsideProperties i (h.fill c) → properties (h.fill c') = properties (h.fill c)
  | .here, _ => hc
  | .text _ h, ho | .markup _ h, ho => properties_fill hi hc (h := h) ho
  | .behind tag inner h, ho => by
    have ih := properties_fill hi hc (h := h) fun q hq => ho q (by simp [Hole.fill, hq])
    simp only [Hole.fill, properties_element, ih]
  | .inside tag h rest, ho => by
    have ht : tag.name ≠ Names.paragraphProperties := fun ht =>
      ho ⟨tag, h.fill c⟩ (by simp [Hole.fill, ht]) (by simp [Hole.mem_ids_fill, hi])
    simp [Hole.fill, ht]

theorem properties_tidy {r : Nat} (hn : c.ids.Nodup) (hr : OwnRun r [] c)
    (ho : OutsideProperties r c) : properties (tidy r c) = properties c := by
  rcases tidy_cases hn hr with he | ⟨h, tag, inner, rest, new, rfl, he, ht, rfl, hrun, -⟩
  · rw [he]
  · rw [he]
    refine properties_fill (by simp) ?_ ho
    have hp : tag.name ≠ Names.paragraphProperties := fun e => absurd (hrun.symm.trans e) (by decide)
    cases ht <;> simp [hp]

theorem properties_tidy_all : ∀ (rs : List Nat) {c : Content}, c.ids.Nodup →
    (∀ r ∈ rs, r < n ∧ OwnRun r [] c ∧ OutsideProperties r c) →
      properties (rs.foldl (fun c r => tidy r c) c) = properties c
  | [], _, _, _ => rfl
  | r :: rs, c, hn, hrs => by
    obtain ⟨-, hr, ho⟩ := hrs r List.mem_cons_self
    have hs : Swept Spent (fun _ => False) n [] c (tidy r c) := tidy_swept hn hr
    have hp := properties_tidy hn hr ho
    refine (properties_tidy_all rs (hn.sublist (hs.ids_sublist fun _ h => h)) fun i hi => ?_).trans hp
    obtain ⟨hlt, hi, ho⟩ := hrs i (List.mem_cons_of_mem _ hi)
    exact ⟨hlt, hi.swept hs hlt, fun q hq => ho q (hp ▸ hq)⟩

/-- A run with text is not in paragraph properties without. -/
theorem outside_of_segment (hn : c.ids.Nodup) (hc : ClearProperties c) {s : Segment}
    (hs : s ∈ segmentsIn none c) : OutsideProperties s.run c := by
  intro q hq hi
  obtain ⟨hm, hname⟩ := List.mem_filter.1 hq
  have ht : q.tag.name = Names.paragraphProperties := of_decide_eq_true hname
  obtain ⟨front, rest, rfl⟩ := Content.exists_of_mem_children hm
  have hnil := hc q hq
  simp only [Content.ids_append, Content.ids_element, List.nodup_append, List.nodup_cons,
    List.mem_cons, List.mem_append] at hn
  obtain ⟨hnf, ⟨-, -, hnr, hqr⟩, hfq⟩ := hn
  have hconceal : q.tag.name ∉ Names.concealing := ht ▸ by decide
  simp only [segmentsIn_append, segmentsIn, Option.bind_none, Option.toList_none, List.nil_append,
    hconceal, if_false, runOf_properties ht, hnil, List.mem_append] at hs
  rcases hs with hs | hs
  · exact hfq _ (ownRun_of_segment (a := []) hnf hs).1 _ (.inr (.inl hi)) rfl
  · exact hqr _ hi _ (ownRun_of_segment (a := []) hnr hs).1 rfl

/-- A revision keeps the properties of a paragraph. -/
theorem Revision.properties_apply {r : Revision} (hn : c.ids.Nodup) (hl : ∀ i ∈ c.ids, i < n)
    (hf : Fits n r.changes none c) (hfr : Fresh n r.changes)
    (ht : ∀ i ∈ r.touched, ∃ s ∈ segmentsIn none c, s.run = i) (ha : r.appended = .nil)
    (hc : ClearProperties c) : properties (r.apply c) = properties c := by
  have hp := properties_changed hn hf hc
  rw [Revision.apply, ha, Content.append_nil]
  refine (properties_tidy_all (n := n) r.touched (nodup_changed hfr hn hl) fun i hi => ?_).trans hp
  obtain ⟨s, hs, rfl⟩ := ht i hi
  obtain ⟨hm, ho⟩ := ownRun_of_segment (a := []) hn hs
  exact ⟨hl _ hm, ho.swept (changed_sweeps hn hf) (hl _ hm),
    fun q hq => outside_of_segment hn hc hs q (hp ▸ hq)⟩

/-! ## What is embedded -/

/-- Whether there is something embedded in content. -/
def Embeds (c : Content) : Prop := ∃ x ∈ c.elements, x.tag.name ∈ Names.embedded

instance : DecidablePred Embeds := fun _ => inferInstanceAs (Decidable (∃ _ ∈ _, _))

/-- Whether there is something embedded in content, neither in run properties nor in elements that
show text. -/
def Carries (c : Content) : Prop := ∃ t ∈ trails [] c, (t.head?.any fun k => k.name ∈ Names.embedded)
  ∧ ∀ m ∈ t.tail, m.name ∉ Names.runProperties :: Names.showing

instance : DecidablePred Carries := fun _ => inferInstanceAs (Decidable (∃ _ ∈ _, _))

theorem isEmpty_iff {e : Element} :
    Paragraph.isEmpty e = true ↔ Paragraph.text e = [] ∧ ¬Embeds e.inner := by
  simp [Paragraph.isEmpty, Embeds]

theorem Carries.embeds (h : Carries c) : Embeds c := by
  obtain ⟨t, ht, hk, -⟩ := h
  obtain ⟨x, hx, u, rfl⟩ := exists_of_trail ht
  exact ⟨x, hx, of_decide_eq_true hk⟩

/-- Nothing embedded is written. -/
theorem Shift.embeds {gone : List Key → List Key → Prop}
    (h : Shift gone (Written n (trails [] c)) n (trails [] c) (trails [] c')) (he : Embeds c') :
    Embeds c := by
  obtain ⟨x, hx, hname⟩ := he
  obtain ⟨u, hu⟩ := exists_root_trail hx
  rcases h.new _ hu with ht | ht
  · obtain ⟨y, hy, v, hv⟩ := exists_of_trail ht
    have hk : (key x.tag).name = (key y.tag).name := congrArg Key.name (List.cons.inj hv).1
    exact ⟨y, hy, (show x.tag.name = y.tag.name from hk) ▸ hname⟩
  · obtain ⟨-, -, -, hk, -⟩ := ht
    have : ∀ name ∈ Names.embedded, name ∉ Names.showing := by decide
    exact absurd hk (this _ hname)

/-- What a revision takes away holds nothing embedded but in run properties and in elements that
show text. -/
theorem Shift.carries {come : List Key → Prop}
    (h : Shift Spent come n (trails [] c) (trails [] c')) (hc : Carries c) : Carries c' := by
  obtain ⟨t, ht, hk, hu⟩ := hc
  refine (h.lost t ht).elim (fun ht => ⟨t, ht, hk, hu⟩) ?_
  rintro ⟨w, s, rfl, hs⟩
  exfalso
  have hshow : ∀ name ∈ Names.embedded, name ∉ Names.runProperties :: Names.showing ∧
      name ≠ Names.run := by decide
  -- The outermost of what goes is no object, and no object is in it.
  have out : ∀ {w s : List Key} {m : Key}, m.name ∈ Names.runProperties :: Names.showing →
      ((w ++ m :: s).head?.any fun k => k.name ∈ Names.embedded) →
        ¬∀ x ∈ (w ++ m :: s).tail, x.name ∉ Names.runProperties :: Names.showing := by
    intro w s m hm hk hu
    rcases w with _ | ⟨x, w⟩
    · exact absurd hm (hshow _ (by simpa using hk)).1
    · exact hu m (by simp) hm
  cases hs with
  | shown hk' _ => exact out (List.mem_cons_of_mem _ hk') hk hu
  | run hr => exact absurd hr (hshow _ (by simpa using hk)).2
  | @inRun w m k u hm _ =>
    rw [List.append_assoc] at hk hu
    exact out (by rcases hm with hm | hm <;> rw [hm] <;> decide) hk hu

/-! ## Replacing all text -/

theorem trim_eq_nil : ∀ {k : Nat} {ps : List Piece}, (spelled ps).length ≤ k → trim k ps = []
  | _, [], _ => rfl
  | k, p :: ps, h => by
    rw [spelled_cons, List.length_append] at h
    rw [trim, if_neg (by omega), trim_eq_nil (by omega), List.append_nil]

/-- All pieces are replaced by what is written in the run of the first one. -/
theorem splice_all {p : Piece} {ps : List Piece} (hp : p.chars ≠ []) (new : List Char) :
    splice 0 (spelled (p :: ps)).length new (p :: ps) = written p.run new := by
  have hpos := List.length_pos_iff.2 hp
  have hdrop : p.chars.drop (p.chars ++ spelled ps).length = [] :=
    List.drop_eq_nil_of_le (by simp)
  rw [splice, if_neg (by omega), spelled_cons, trim_eq_nil (by simp), hdrop]
  split
  · next hn => simp [hn, refilled, written, inlines]
  · simp

/-- The first segment of a paragraph that shows characters. -/
def firstShown? (e : Element) : Option Segment :=
  (Paragraph.segments e).find? fun s => s.chars ≠ []

/-- A paragraph after all of its text has been replaced. -/
structure Rewritten (e e' : Element) (cs : List Char) : Prop where
  tag : e'.tag = e.tag
  properties : properties e'.inner = properties e.inner
  legible : Legible none e'.inner
  formatting : SameFormatting e.inner e'.inner
  pieces : ∃ s, firstShown? e = some s ∧ pieces (Paragraph.segments e') = written s.run cs
  embeds : Embeds e'.inner → Embeds e.inner
  carries : Carries e.inner → Carries e'.inner

theorem Rewritten.text {e e' : Element} {cs : List Char} (h : Rewritten e e' cs) (hcs : '\r' ∉ cs) :
    Paragraph.text e' = cs := by
  obtain ⟨s, -, hp⟩ := h.pieces
  rw [Paragraph.text, ← spelled_pieces, hp, spelled_eq, marks_written, lineFeeds_eq_self hcs]
  simp [Function.comp_def]

/-- What a paragraph with legible text is after the revision that replaces all of it. -/
theorem rewritten_apply {e : Element} {p : Nat} {lead : Nat → Option String} {new : List Char}
    (hin : e.inner.ids.Nodup) (hil : ∀ i ∈ e.inner.ids, i < n) (hl : Legible none e.inner)
    (hc : ClearProperties e.inner) (ht : Paragraph.text e ≠ [])
    (hsame : List.Forall₂ SameChange (revision p lead 0 (Paragraph.text e).length new
      (Paragraph.segments e)).changes changes) (hfresh : Fresh n changes) :
    Rewritten e ⟨e.tag, Revision.apply ⟨changes, .nil, (revision p lead 0
      (Paragraph.text e).length new (Paragraph.segments e)).touched⟩ e.inner⟩ new := by
  have hpos := List.length_pos_iff.2 ht
  obtain ⟨r, hr⟩ : ∃ r, r = revision p lead 0 (Paragraph.text e).length new
    (Paragraph.segments e) := ⟨_, rfl⟩
  rw [← hr] at hsame ⊢
  have hsuits : r.Suits (Paragraph.segments e) := hr ▸ suits_revision new
  have hfits := hsuits.fits hsame hfresh
  have hshift := (Revision.apply_sweeps (a := []) (r := ⟨changes, .nil, r.touched⟩) hin hil hfits
    hsuits.touched rfl hfresh).1.shift
  obtain ⟨hformat, hlegible, happlied, -, -⟩ := Revision.apply_legible
    (r := ⟨changes, .nil, r.touched⟩) hin hil hfits hfresh hsuits.touched rfl hl
  have hpieces := pieces_revision hpos hpos (@nodup_nodes none _ hin)
    (single_segments none e.inner) (hr ▸ hsame)
  refine ⟨rfl, Revision.properties_apply (r := ⟨changes, .nil, r.touched⟩) hin hil hfits hfresh
    hsuits.touched rfl hc, hlegible, hformat, ?_, hshift.embeds, hshift.carries⟩
  obtain ⟨s, hs⟩ : ∃ s, firstShown? e = some s := by
    refine Option.isSome_iff_exists.1 (List.find?_isSome.2 ?_)
    by_contra hnone
    refine ht (List.flatMap_eq_nil_iff.2 fun s hs => ?_)
    by_contra hne
    exact hnone ⟨s, hs, by simpa using hne⟩
  obtain ⟨qs, hqs⟩ : ∃ qs, Word.pieces (Paragraph.segments e) = ⟨s.run, s.chars, s.editable⟩ :: qs := by
    rw [firstShown?, ← List.head?_filter] at hs
    obtain ⟨qs, hqs⟩ := List.head?_eq_some_iff.1 hs
    exact ⟨_, by rw [Word.pieces, hqs, List.map_cons]⟩
  have hne : s.chars ≠ [] := by simpa using List.find?_some hs
  refine ⟨s, hs, ?_⟩
  have hlen : (Paragraph.text e).length =
      (spelled (⟨s.run, s.chars, s.editable⟩ :: qs)).length := by
    rw [← hqs, spelled_pieces, Paragraph.text]
  have hall : splice 0 (Paragraph.text e).length new (Word.pieces (Paragraph.segments e)) =
      written s.run new := by
    rw [hlen, hqs]
    exact splice_all hne new
  exact happlied.trans (hpieces.trans hall)

end MailMerge.Word
