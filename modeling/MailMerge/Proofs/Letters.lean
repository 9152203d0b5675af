import MailMerge.Proofs.Edits
import MailMerge.Proofs.Reading

/-!
# Letters

A paragraph shows letters: characters, each with its run and the formatting of that. Where the text
is legible, a span is replaced letter by letter (`replaceSpan_letters`). The letters outside the
span stay what they are, and the new ones are in the run of the first one that is replaced. For the
characters and the runs this is `marks_splice`; what is left is that no run loses its formatting
(`SameFormatting`) when text is changed and runs are tidied.
-/

namespace MailMerge.Word

open MailMerge.Xml MailMerge.Xml.Reader

variable {n : Nat} {changes : List (Nat × Change)} {run : Option Nat} {c c' d : Content}

/-! ## Formatting -/

/-- The run properties on top of content. -/
def formatting (c : Content) : List Element :=
  c.children.filter fun e => e.tag.name = Names.runProperties

theorem formatting_cons (tag : Tag) (inner rest : Content) :
    formatting (.element tag inner rest) =
      (if tag.name = Names.runProperties then [⟨tag, inner⟩] else []) ++ formatting rest := by
  by_cases h : tag.name = Names.runProperties <;> simp [formatting, Content.children, h]

/-- Content that has, on top and in its runs, the formatting that it had. -/
structure SameFormatting (c c' : Content) : Prop where
  top : formatting c' = formatting c
  runs : ∀ z' ∈ c'.elements, z'.tag.name = Names.run →
    ∃ z ∈ c.elements, z.tag = z'.tag ∧ formatting z'.inner = formatting z.inner

namespace SameFormatting

variable {tag : Tag} {inner inner' rest rest' new : Content}

theorem refl (c : Content) : SameFormatting c c := ⟨rfl, fun z hz _ => ⟨z, hz, rfl, rfl⟩⟩

theorem trans (h : SameFormatting c c') (h' : SameFormatting c' d) : SameFormatting c d where
  top := h'.top.trans h.top
  runs z hz hr := by
    obtain ⟨z₁, hz₁, ht₁, hf₁⟩ := h'.runs z hz hr
    obtain ⟨z₂, hz₂, ht₂, hf₂⟩ := h.runs z₁ hz₁ (ht₁ ▸ hr)
    exact ⟨z₂, hz₂, ht₂.trans ht₁, hf₁.trans hf₂⟩

theorem dropText (h : SameFormatting c c') : SameFormatting c c'.dropText where
  top := by
    refine Eq.trans ?_ h.top
    clear h
    induction c' with
    | text _ _ ih => exact ih
    | nil | markup _ _ _ | element _ _ _ _ _ => rfl
  runs z hz := h.runs z (by rwa [Content.elements_dropText] at hz)

theorem keep (hi : SameFormatting inner inner')
    (hp : tag.name = Names.runProperties → inner' = inner) (hr : SameFormatting rest rest') :
    SameFormatting (.element tag inner rest) (.element tag inner' rest') where
  top := by
    rw [formatting_cons, formatting_cons, hr.top]
    split
    · next h => rw [hp h]
    · rfl
  runs z hz hrun := by
    simp only [Content.mem_element] at hz ⊢
    rcases hz with rfl | hz | hz
    · exact ⟨_, .inl rfl, rfl, hi.top⟩
    · obtain ⟨z', hz', h⟩ := hi.runs z hz hrun
      exact ⟨z', .inr (.inl hz'), h⟩
    · obtain ⟨z', hz', h⟩ := hr.runs z hz hrun
      exact ⟨z', .inr (.inr hz'), h⟩

theorem lose (ht : tag.name ≠ Names.runProperties) (hr : SameFormatting rest rest') :
    SameFormatting (.element tag inner rest) rest' where
  top := by rw [formatting_cons, if_neg ht, hr.top, List.nil_append]
  runs z hz hrun := by
    obtain ⟨z', hz', h⟩ := hr.runs z hz hrun
    simp only [Content.mem_element]
    exact ⟨z', .inr (.inr hz'), h⟩

/-- Elements that show text bring no formatting. -/
theorem gain (h : SameFormatting c c') : ∀ {new : Content}, OfInlines new →
    SameFormatting c (new ++ c')
  | .nil, _ => h
  | .element tag inner new, ⟨hs, hi, hn⟩ => by
    have ih := gain h hn
    have hp : tag.name ≠ Names.runProperties := fun e => absurd (e ▸ hs) (by decide)
    refine ⟨?_, fun z hz hrun => ?_⟩
    · rw [Content.element_append, formatting_cons, if_neg hp, List.nil_append, ih.top]
    · simp only [Content.element_append, Content.elements, hi, List.cons_append, List.nil_append,
        List.mem_cons] at hz
      rcases hz with rfl | hz
      · exact absurd (hrun ▸ hs) (by decide)
      · exact ih.runs z hz hrun

theorem fill (h : SameFormatting c c') : ∀ {k : Hole},
    (∀ t ∈ k.above, t.name ≠ Names.runProperties) → SameFormatting (k.fill c) (k.fill c')
  | .here, _ => h
  | .text _ k, hk | .markup _ k, hk => by
    obtain ⟨h₁, h₂⟩ := fill h (k := k) hk
    exact ⟨h₁, h₂⟩
  | .behind _ inner k, hk => keep (refl inner) (fun _ => rfl) (fill h (k := k) hk)
  | .inside tag k rest, hk => by
    simp only [Hole.above, List.mem_append, List.mem_singleton] at hk
    exact keep (fill h fun t ht => hk t (.inl ht)) (fun hp => absurd hp (hk tag (.inr rfl)))
      (refl rest)

end SameFormatting

/-! ## Changing text -/

theorem legible_changed : ∀ {run : Option Nat} {c : Content}, c.ids.Nodup →
    Fits n changes run c → Legible run c → Legible run (changed changes c)
  | _, .nil, _, _, _ => trivial
  | run, .text _ rest, hn, hf, h | run, .markup _ rest, hn, hf, h =>
    legible_changed (c := rest) hn ⟨hf.node, hf.new⟩ h
  | run, .element tag inner rest, hn, hf, ⟨hleaf, hinner, hrest⟩ => by
    obtain ⟨hh, -, hi, hr⟩ := hf.element hn
    obtain ⟨-, hni, hnr, -⟩ := Content.nodup_ids_element.1 hn
    have lr := legible_changed hnr hr hrest
    rcases hl : changes.lookup tag.id with _ | (cs | new)
    · simp only [changed, hl]
      refine ⟨fun hr hs => ?_,
        fun ht => ⟨legible_changed hni (hi ht) (hinner ht).1, fun hp => ?_⟩, lr⟩
      · rw [changed_of_elements_nil (hleaf hr hs), hleaf hr hs]
      · rw [segmentsIn_changed hni (hi ht) (hinner ht).1.leafed, (hinner ht).2 hp, List.flatMap_nil]
    · obtain ⟨hrun, hs, -⟩ := hh _ hl
      have hd : (withText cs ⟨tag, changed changes inner⟩).inner.elements = [] := by
        simpa [withText, Content.elements, changed_of_elements_nil (hleaf hrun hs)] using
          hleaf hrun hs
      simp only [changed, hl]
      exact ⟨fun _ _ => hd, fun _ => ⟨legible_of_elements_nil hd,
        fun _ => segmentsIn_of_elements_nil hd⟩, lr⟩
    · simp only [changed, hl]
      exact legible_append.2 ⟨(firm_ofInlines (hf.new _ _ hl).1).legible, legible_dropText.2 lr⟩

/-- Where nothing is shown nothing is changed. -/
theorem Fits.changed_eq (h : Fits n changes run c) (hc : segmentsIn run c = []) :
    changed changes c = c := by
  refine changed_of_none fun i hi => ?_
  rcases hl : changes.lookup i with _ | x
  · rfl
  · obtain ⟨s, hs, -⟩ := h.node i hi x hl
    exact absurd (hc ▸ hs) List.not_mem_nil

theorem sameFormatting_changed : ∀ {run : Option Nat} {c : Content}, c.ids.Nodup →
    Fits n changes run c → Legible run c → SameFormatting c (changed changes c)
  | _, .nil, _, _, _ => .refl _
  | run, .text _ rest, hn, hf, h | run, .markup _ rest, hn, hf, h => by
    obtain ⟨h₁, h₂⟩ := sameFormatting_changed (c := rest) hn ⟨hf.node, hf.new⟩ h
    exact ⟨h₁, h₂⟩
  | run, .element tag inner rest, hn, hf, ⟨hleaf, hinner, hrest⟩ => by
    obtain ⟨hh, hc, hi, hr⟩ := hf.element hn
    obtain ⟨-, hni, hnr, -⟩ := Content.nodup_ids_element.1 hn
    have fr := sameFormatting_changed hnr hr hrest
    have hlose : ∀ x, changes.lookup tag.id = some x → tag.name ≠ Names.runProperties :=
      fun x hx e => absurd (e ▸ (hh x hx).2.1) (by decide)
    rcases hl : changes.lookup tag.id with _ | (cs | new)
    · simp only [changed, hl]
      by_cases ht : tag.name ∈ Names.concealing
      · rw [changed_of_none (hc ht)]
        exact .keep (.refl inner) (fun _ => rfl) fr
      · exact .keep (sameFormatting_changed hni (hi ht) (hinner ht).1)
          (fun hp => (hi ht).changed_eq ((hinner ht).2 hp)) fr
    · obtain ⟨hrun, hs, -⟩ := hh _ hl
      have hnew : OfInlines (.element (withText cs ⟨tag, changed changes inner⟩).tag
          (withText cs ⟨tag, changed changes inner⟩).inner .nil) := by
        refine ⟨by rwa [withText_name], ?_, trivial⟩
        simpa [withText, Content.elements, changed_of_elements_nil (hleaf hrun hs)] using
          hleaf hrun hs
      simp only [changed, hl]
      exact .gain (.lose (hlose _ hl) fr) hnew
    · simp only [changed, hl]
      exact .gain (.lose (hlose _ hl) fr.dropText) (hf.new _ _ hl).1

/-! ## Tidying -/

theorem sameFormatting_withoutEmptyText : ∀ c : Content, SameFormatting c (withoutEmptyText c)
  | .nil => .refl _
  | .text _ rest | .markup _ rest => by
    obtain ⟨h₁, h₂⟩ := sameFormatting_withoutEmptyText rest
    exact ⟨h₁, h₂⟩
  | .element tag inner rest => by
    have hr := sameFormatting_withoutEmptyText rest
    simp only [withoutEmptyText]
    split
    · next h =>
      simp only [Bool.and_eq_true, decide_eq_true_eq] at h
      exact .lose (fun e => absurd (h.1.symm.trans e) (by decide)) hr.dropText
    · exact .keep (.refl inner) (fun _ => rfl) hr

theorem TidiedRun.sameFormatting {tag : Tag} {inner rest new : Content}
    (h : TidiedRun tag inner rest new) (hr : tag.name = Names.run) :
    SameFormatting (.element tag inner rest) new := by
  have hp : tag.name ≠ Names.runProperties := fun e => absurd (hr.symm.trans e) (by decide)
  cases h with
  | dropped => exact .lose hp (SameFormatting.refl rest).dropText
  | kept => exact .keep (sameFormatting_withoutEmptyText inner) (fun e => absurd e hp) (.refl rest)

/-- Segments of which none have gone but some in a run. -/
structure Pruned (r : Nat) (l l' : List Segment) : Prop where
  sublist : l'.Sublist l
  others : l'.filter (fun s => s.run ≠ r) = l.filter fun s => s.run ≠ r

namespace Pruned

variable {r : Nat} {l l' m m' : List Segment}

theorem refl (l : List Segment) : Pruned r l l := ⟨.refl l, rfl⟩

theorem append (h : Pruned r l l') (h' : Pruned r m m') : Pruned r (l ++ m) (l' ++ m') :=
  ⟨h.sublist.append h'.sublist, by rw [List.filter_append, List.filter_append, h.others, h'.others]⟩

end Pruned

theorem pruned_withoutEmptyText {r : Nat} : ∀ {c : Content}, Legible (some r) c →
    Pruned r (segmentsIn (some r) c) (segmentsIn (some r) (withoutEmptyText c))
  | .nil, _ => .refl _
  | .text _ rest, h | .markup _ rest, h => pruned_withoutEmptyText (c := rest) h
  | .element tag inner rest, ⟨hs, hi, hr⟩ => by
    have ih := pruned_withoutEmptyText hr
    simp only [withoutEmptyText]
    split
    · next h =>
      simp only [Bool.and_eq_true, decide_eq_true_eq] at h
      have hq : Segment.of? r tag inner = some ⟨tag.id, r, [], true⟩ := by
        simp [Segment.of?, h]
      rw [segmentsIn_dropText, segmentsIn_leaf (hs rfl (h.1 ▸ by decide))]
      simp only [Option.bind_some, hq, Option.toList_some, List.singleton_append]
      exact ⟨ih.sublist.cons _, by rw [List.filter_cons_of_neg (by simp), ih.others]⟩
    · simp only [segmentsIn]
      exact .append (.refl _) ih

/-- Nothing but segments of the run itself goes when a run is tidied. -/
theorem TidiedRun.pruned {tag : Tag} {inner rest new : Content} (h : TidiedRun tag inner rest new)
    (hr : tag.name = Names.run) (hl : Legible run (.element tag inner rest)) :
    Pruned tag.id (segmentsIn run (.element tag inner rest)) (segmentsIn run new) := by
  have hrun : runOf tag = some tag.id := by simp [runOf, hr]
  have hc : tag.name ∉ Names.concealing := hr ▸ by decide
  have hs : ∀ d, run.bind (fun r => Segment.of? r tag d) = none := by
    intro d
    cases run with
    | none => rfl
    | some r => exact of?_eq_none.2 (hr ▸ by decide)
  have hi := hrun ▸ (hl.2.1 hc).1
  have hin := pruned_withoutEmptyText hi
  simp only [segmentsIn, hs, hc, hrun, if_false, Option.toList_none, List.nil_append]
  cases h with
  | dropped hb =>
    rw [segmentsIn_of_isBare hb (legible_withoutEmptyText hi)] at hin
    rw [segmentsIn_dropText]
    exact hin.append (.refl _)
  | kept =>
    simp only [segmentsIn, hs, hc, hrun, if_false, Option.toList_none, List.nil_append]
    exact hin.append (.refl _)

/-- A change that legible text does not show, whatever run it is in: nothing but segments without
characters in a run has gone. -/
def Unread (r : Nat) (c c' : Content) : Prop := ∀ run, Legible run c →
  Legible run c' ∧ pieces (segmentsIn run c') = pieces (segmentsIn run c) ∧
    Pruned r (segmentsIn run c) (segmentsIn run c')

theorem Unread.fill {r : Nat} (hc : c.elements ≠ []) (hu : Unread r c c') : ∀ {k : Hole},
    (∀ t ∈ k.above, t.name ≠ Names.runProperties) → Unread r (k.fill c) (k.fill c')
  | .here, _ => hu
  | .text _ k, hk | .markup _ k, hk => fun run hl => fill hc hu (k := k) hk run hl
  | .behind tag inner k, hk => fun run ⟨hs, hi, hl⟩ => by
    obtain ⟨h₁, h₂, h₃⟩ := fill hc hu (k := k) hk run hl
    simp only [Hole.fill, segmentsIn, pieces_append, h₂]
    exact ⟨⟨hs, hi, h₁⟩, trivial, .append (.refl _) h₃⟩
  | .inside tag k rest, hk => fun run ⟨hs, hi, hl⟩ => by
    simp only [Hole.above, List.mem_append, List.mem_singleton] at hk
    -- An element that shows text cannot be around the place, since it has nothing inside.
    have hn : run.isSome → tag.name ∉ Names.showing := fun hr ht =>
      elements_fill_ne_nil hc k (hs hr ht)
    have hsome : ∀ d, run.bind (fun r => Segment.of? r tag d) = none := by
      intro d
      cases run with
      | none => rfl
      | some r => exact of?_eq_none.2 (hn rfl)
    have hleaf : ∀ d : Content, run.isSome → tag.name ∈ Names.showing → d.elements = [] :=
      fun d hr ht => absurd ht (hn hr)
    by_cases ht : tag.name ∈ Names.concealing
    · refine ⟨⟨hleaf _, fun hn => absurd ht hn, hl⟩, ?_⟩
      simp only [Hole.fill, segmentsIn, hsome, ht, if_true]
      exact ⟨trivial, .refl _⟩
    · obtain ⟨h₁, h₂, h₃⟩ := fill hc hu (fun t ht => hk t (.inl ht)) (runOf tag) (hi ht).1
      refine ⟨⟨hleaf _, fun _ => ⟨h₁, fun hp => absurd hp (hk tag (.inr rfl))⟩, hl⟩, ?_⟩
      simp only [Hole.fill, segmentsIn, hsome, ht, if_false, Option.toList_none, List.nil_append,
        pieces_append, h₂]
      exact ⟨trivial, h₃.append (.refl _)⟩

/-- Whether what has a number in content is a run that is in no paragraph there, and in no run
properties. -/
def PlainRun (r : Nat) (c : Content) : Prop :=
  OwnRun r [] c ∧ ∀ k v, k :: v ∈ trails [] c → k.id = r → ∀ x ∈ v, x.name ≠ Names.runProperties

theorem PlainRun.swept {r : Nat} {gone : List Key → List Key → Prop} {come : List Key → Prop}
    (h : PlainRun r c) (hs : Swept gone come n [] c c') (hr : r < n) : PlainRun r c' := by
  refine ⟨h.1.swept hs hr, fun k v hk hi => ?_⟩
  refine h.2 k v (hs.shift.order.subset (List.mem_filter.2 ⟨hk, ?_⟩)) hi
  simpa [hi] using hr

theorem plainRun_of_segment (hn : c.ids.Nodup) (hl : Legible none c) {s : Segment}
    (hs : s ∈ segmentsIn none c) : s.run ∈ c.ids ∧ PlainRun s.run c := by
  obtain ⟨hm, ho⟩ := ownRun_of_segment (a := []) hn hs
  refine ⟨hm, ho, fun k v hk hi => ?_⟩
  obtain ⟨x, -, -, ⟨hr, -⟩ | ⟨m, w, ht, hmr, -, hw⟩⟩ := segment_trail [] hs
  · cases hr
  have hmt := suffix_mem_trails (u := [x]) ht (by simp)
  obtain ⟨rfl, rfl⟩ := List.cons.inj (trail_eq_of_id hn hk hmt (hi.trans hmr.symm))
  exact fun y hy => (hw y (by simpa using hy)).2 hl

theorem unread_tidy {r : Nat} (hn : c.ids.Nodup) (h : PlainRun r c) :
    SameFormatting c (tidy r c) ∧ Unread r c (tidy r c) := by
  rcases tidy_cases hn h.1 with he | ⟨k, tag, inner, rest, new, rfl, he, ht, rfl, hr, -⟩ <;> rw [he]
  · exact ⟨.refl c, fun _ hl => ⟨hl, rfl, .refl _⟩⟩
  · have hk : ∀ t ∈ k.above, t.name ≠ Names.runProperties := fun t ht =>
      h.2 (key tag) _ trail_mem_fill rfl _ (List.mem_append_left _ (List.mem_map_of_mem ht))
    exact ⟨(ht.sameFormatting hr).fill hk, Unread.fill (by simp [Content.elements])
      (fun run hl => ⟨ht.legible hr hl, (ht.pieces hr hl).1, ht.pruned hr hl⟩) hk⟩

/-- Legible text after the tidying of runs. -/
structure TidiedText (rs : List Nat) (c c' : Content) : Prop where
  formatting : SameFormatting c c'
  legible : Legible none c'
  pieces : pieces (segmentsIn none c') = pieces (segmentsIn none c)
  sublist : (segmentsIn none c').Sublist (segmentsIn none c)
  others : (segmentsIn none c').filter (fun s => s.run ∉ rs) =
    (segmentsIn none c).filter fun s => s.run ∉ rs

theorem tidiedText_all : ∀ (rs : List Nat) {c : Content}, c.ids.Nodup → Legible none c →
    (∀ r ∈ rs, r < n ∧ PlainRun r c) → TidiedText rs c (rs.foldl (fun c r => tidy r c) c)
  | [], c, _, hl, _ => ⟨.refl c, hl, rfl, .refl _, rfl⟩
  | r :: rs, c, hn, hl, hrs => by
    obtain ⟨hr, hp⟩ := hrs r List.mem_cons_self
    have hs : Swept Spent (fun _ => False) n [] c (tidy r c) := tidy_swept hn hp.1
    obtain ⟨hf, hu⟩ := unread_tidy hn hp
    obtain ⟨hl', hshown, hpruned⟩ := hu none hl
    have ih := tidiedText_all rs (hn.sublist (hs.ids_sublist fun _ h => h)) hl'
      fun i hi => have ⟨hlt, hi⟩ := hrs i (List.mem_cons_of_mem _ hi); ⟨hlt, hi.swept hs hlt⟩
    refine ⟨hf.trans ih.formatting, ih.legible, ih.pieces.trans hshown,
      ih.sublist.trans hpruned.sublist, ?_⟩
    have split : ∀ l : List Segment, (l.filter fun s => s.run ∉ r :: rs) =
        ((l.filter fun s => s.run ∉ rs).filter fun s => s.run ≠ r) := fun l => by
      rw [List.filter_filter]
      refine List.filter_congr fun s _ => ?_
      simp
    have swap : ∀ l : List Segment, ((l.filter fun s => s.run ∉ rs).filter fun s => s.run ≠ r) =
        ((l.filter fun s => s.run ≠ r).filter fun s => s.run ∉ rs) := fun l => by
      rw [List.filter_filter, List.filter_filter]
      exact List.filter_congr fun s _ => Bool.and_comm _ _
    rw [List.foldl_cons, split, ih.others, swap, hpruned.others, ← swap, ← split]

/-- Legible text after a revision. -/
structure RevisedText (r : Revision) (c : Content) : Prop where
  formatting : SameFormatting c (r.apply c)
  legible : Legible none (r.apply c)
  pieces : pieces (segmentsIn none (r.apply c)) =
    pieces ((segmentsIn none c).flatMap (applied r.changes))
  sublist : (segmentsIn none (r.apply c)).Sublist ((segmentsIn none c).flatMap (applied r.changes))
  others : (segmentsIn none (r.apply c)).filter (fun s => s.run ∉ r.touched) =
    ((segmentsIn none c).flatMap (applied r.changes)).filter fun s => s.run ∉ r.touched

/-- What legible text is after a revision, and that its runs keep their formatting. -/
theorem Revision.apply_legible {r : Revision} (hn : c.ids.Nodup) (hl : ∀ i ∈ c.ids, i < n)
    (hf : Fits n r.changes none c) (hfr : Fresh n r.changes)
    (ht : ∀ i ∈ r.touched, ∃ s ∈ segmentsIn none c, s.run = i) (ha : r.appended = .nil)
    (hleg : Legible none c) : RevisedText r c := by
  have hruns : ∀ i ∈ r.touched, i < n ∧ PlainRun i (changed r.changes c) := by
    intro i hi
    obtain ⟨s, hs, rfl⟩ := ht i hi
    obtain ⟨hm, hp⟩ := plainRun_of_segment hn hleg hs
    exact ⟨hl _ hm, hp.swept (changed_sweeps hn hf) (hl _ hm)⟩
  have h := tidiedText_all r.touched (nodup_changed hfr hn hl) (legible_changed hn hf hleg) hruns
  have happly : r.apply c = r.touched.foldl (fun c r => tidy r c) (changed r.changes c) := by
    rw [Revision.apply, ha, Content.append_nil]
  have hsegments := segmentsIn_changed hn hf hleg.leafed
  rw [← happly] at h
  exact ⟨(sameFormatting_changed hn hf hleg).trans h.formatting, h.legible, hsegments ▸ h.pieces,
    hsegments ▸ h.sublist, hsegments ▸ h.others⟩

/-! ## Letters -/

/-- A character that a paragraph shows, with the number of its run and the formatting of that. -/
structure Letter where
  char : Char
  run : Nat
  formatting : List Element
deriving DecidableEq

/-- The formatting of the run with a number. -/
def formattingOf (c : Content) (run : Nat) : List Element :=
  ((c.place? run).map fun place => formatting place.element.inner).getD []

/-- The letters of a paragraph. -/
def letters (p : Element) : List Letter :=
  (Paragraph.segments p).flatMap fun s =>
    s.chars.map fun c => ⟨c, s.run, formattingOf p.inner s.run⟩

theorem letters_eq (p : Element) : letters p =
    (marks (pieces (Paragraph.segments p))).map fun x => ⟨x.1, x.2, formattingOf p.inner x.2⟩ := by
  have hall : ∀ segments : List Segment,
      (segments.flatMap fun s => s.chars.map fun c =>
        (⟨c, s.run, formattingOf p.inner s.run⟩ : Letter)) =
      (marks (pieces segments)).map fun x => ⟨x.1, x.2, formattingOf p.inner x.2⟩ := by
    intro segments
    induction segments with
    | nil => rfl
    | cons s rest ih =>
      rw [List.flatMap_cons, ih, pieces_cons]
      by_cases h : s.chars = [] <;> simp [h]
  exact hall _

theorem run_of_mem_marks {segments : List Segment} {x : Char × Nat}
    (hx : x ∈ marks (pieces segments)) : ∃ s ∈ segments, s.run = x.2 := by
  obtain ⟨p, hp, hx⟩ := List.mem_flatMap.1 hx
  obtain ⟨s, hs, rfl⟩ := List.mem_map.1 hp
  obtain ⟨c, -, rfl⟩ := List.mem_map.1 hx
  exact ⟨s, List.mem_of_mem_filter hs, rfl⟩

theorem formattingOf_eq (hn : c.ids.Nodup) {z : Element} (hz : z ∈ c.elements) :
    formattingOf c z.tag.id = formatting z.inner := by
  obtain ⟨h, rest, rfl⟩ := Hole.exists_fill_of_mem hz
  rw [formattingOf, Hole.place?_fill (Hole.id_notMem hn).1]
  rfl

/-- A run that shows text has the formatting that it had. -/
theorem SameFormatting.of_segment (h : SameFormatting c c') (hn : c.ids.Nodup) (hn' : c'.ids.Nodup)
    {s : Segment} (hs : s ∈ segmentsIn none c') : formattingOf c' s.run = formattingOf c s.run := by
  obtain ⟨hm, ho⟩ := ownRun_of_segment (a := []) hn' hs
  obtain ⟨z', hz', hid⟩ := Content.mem_ids.1 hm
  obtain ⟨u, hu⟩ := exists_trail [] hz'
  obtain ⟨z, hz, ht, hf⟩ := h.runs z' hz' (ho _ _ hu hid).1
  rw [← hid, formattingOf_eq hn' hz', hf, ← ht, formattingOf_eq hn hz]

/-- A span of a paragraph with legible text and no carriage returns is replaced letter by letter. It
fails for nothing but characters that cannot be written. -/
theorem replaceSpan_letters {f : Forest} {p : Nat} {e : Element} {start last : Nat}
    {new : List Char} (hf : f.Numbered) (he : f.element? p = some e)
    (hp : e.tag.name = Names.paragraph) (hl : Legible none e.inner)
    (hcr : ∀ s ∈ Paragraph.segments e, '\r' ∉ s.chars) (hle : start ≤ last)
    (hlast : last < (Paragraph.text e).length) (hnew : new.getLast? ≠ some '\r') :
    Meets (Edit.replaceSpan p start last new) f
      (fun _ f' => ∃ e' x, f'.element? p = some e' ∧ (letters e)[start]? = some x ∧
        letters e' = (letters e).take start ++
          (lineFeeds new).map (fun c => { x with char := c }) ++ (letters e).drop (last + 1))
      fun err _ => err = .notXmlText ∧ new.all isXmlChar = false := by
  obtain ⟨hhas, hid⟩ := hf.element?_eq_some.1 he
  obtain ⟨s, hm⟩ := Forest.has_iff.1 hhas
  have hin : e.inner.ids.Nodup := Content.nodup_inner (hf.side_nodup s) hm
  have hil : ∀ i ∈ e.inner.ids, i < f.next := fun i hi =>
    hf.side_lt s i ((Content.inner_ids_sublist hm).subset hi)
  refine (replaceSpan_spec hf he hp hle hlast).mono ?_ fun _ _ h => h
  rintro _ f' ⟨s', h, rest, inner, hperf, hframe, -, r, changes', hr, hsame, hfresh, rfl, hpieces⟩
  obtain ⟨hformat, -, hshown, -, -⟩ := Revision.apply_legible (r := ⟨changes', .nil, r.touched⟩) hin
    hil (hr.fits hsame hfresh) hfresh hr.touched rfl hl
  set inner := Revision.apply ⟨changes', .nil, r.touched⟩ e.inner
  obtain ⟨t, hm'⟩ := Forest.has_iff.1 hperf.has
  have hin' : inner.ids.Nodup := Content.nodup_inner (hframe.numbered.side_nodup t) hm'
  have hstart : start < (spelled (pieces (Paragraph.segments e))).length := by
    rw [spelled_pieces]
    exact Nat.lt_of_le_of_lt hle hlast
  have hclear : ∀ q ∈ pieces (Paragraph.segments e), '\r' ∉ q.chars := by
    intro q hq
    obtain ⟨y, hy, rfl⟩ := List.mem_map.1 hq
    exact hcr y (List.mem_of_mem_filter hy)
  obtain ⟨x, hx, hmarks⟩ := marks_splice hstart (show start ≤ last + 1 by omega) hclear hnew
  refine ⟨⟨e.tag, inner⟩, ⟨x.1, x.2, formattingOf e.inner x.2⟩,
    hid ▸ hframe.numbered.element?_of_has hperf.has, ?_, ?_⟩
  · rw [letters_eq, List.getElem?_map, hx]
    rfl
  · have hall : letters ⟨e.tag, inner⟩ = (marks (pieces (segmentsIn none inner))).map
        fun x => ⟨x.1, x.2, formattingOf e.inner x.2⟩ := by
      rw [letters_eq]
      refine List.map_congr_left fun y hy => ?_
      obtain ⟨q, hq, hrun⟩ := run_of_mem_marks hy
      rw [← hrun, ← hformat.of_segment hin hin' hq]
    have hpieces' : pieces (segmentsIn none inner) = _ := hshown.trans hpieces
    rw [hall, hpieces', hmarks, letters_eq]
    simp [List.map_take, List.map_drop, Function.comp_def]

/-- A paragraph that shows a tab and two characters in bold between others. -/
def boldTab : Document := .ofBody [
  Document.node Names.paragraph [
    Document.textRun "a",
    Document.node Names.run [
      Document.node Names.runProperties [Document.node (name "b") []],
      Document.node Names.tab [], Document.node Names.text [.text "bc".toList]],
    Document.textRun "d"]]

/-- The new text is in bold, since the tab was. -/
theorem replaceSpan_letters_boldTab : ∃ e f' e' x, boldTab.forest.element? 2 = some e ∧
    Edit.replaceSpan 2 (1 : Nat) (2 : Nat) "x\r\ny".toList boldTab.forest = .ok () f' ∧
    f'.element? 2 = some e' ∧ (letters e)[1]? = some x ∧ x.char = '\t' ∧ x.formatting ≠ [] ∧
    letters e' = (letters e).take 1 ++ ['x', '\n', 'y'].map (fun c => { x with char := c }) ++
      (letters e).drop 3 := by
  obtain ⟨e, he⟩ : ∃ e, boldTab.forest.element? 2 = some e :=
    Option.isSome_iff_exists.1 (by decide +kernel)
  have hfacts : ∀ e ∈ boldTab.forest.element? 2, e.tag.name = Names.paragraph ∧
      Legible none e.inner ∧ (∀ s ∈ Paragraph.segments e, '\r' ∉ s.chars) ∧
      2 < (Paragraph.text e).length ∧
      ∀ x ∈ (letters e)[1]?, x.char = '\t' ∧ x.formatting ≠ [] := by decide +kernel
  obtain ⟨hp, hl, hcr, hlast, htab⟩ := hfacts e he
  have hmeets := replaceSpan_letters (Document.sound_ofRoot _ : boldTab.Sound).1.numbered he hp hl
    hcr (show 1 ≤ 2 by decide) hlast (show "x\r\ny".toList.getLast? ≠ some '\r' by decide)
  obtain ⟨_, f', hok, e', x, he', hx, hletters⟩ := (hmeets.mono (fun _ _ h => h) fun _ _ h =>
    absurd h.2 (by decide +kernel)).exists_ok
  exact ⟨e, f', e', x, he, hok, he', hx, (htab x hx).1, (htab x hx).2, hletters⟩

end MailMerge.Word
