import MailMerge.Proofs.Departed
import MailMerge.Proofs.Listing

/-!
# Whose text it is

The segments of a paragraph are found from the paragraph inwards. Seen from an element that shows
text the way leads outwards: the element stands in a run, and the innermost paragraph around the run
is the one that shows it, unless a tracked deletion is between the two (`InRunOf`). Both ways come
to the same (`place_of_segment`, `segment_of_place`), so the paragraphs of a story do not share what
they show, and together they leave nothing out but what is deleted or in no run of a paragraph
(`Story.shown_once`).
-/

namespace MailMerge

open Xml Word

variable {c : Content} {i : Nat} {e p : Element} {place : Content.Place} {f : Forest}

namespace Word

namespace Names

/-- What surrounds runs that a tracked change takes away. -/
def deleting : List Name := [deletion, moveFrom]

theorem mem_concealing {n : Name} : n ∈ concealing ↔ n = paragraph ∨ n ∈ deleting := by
  simp only [concealing, deleting, List.mem_cons, List.not_mem_nil, or_false]
  tauto

end Names

/-! ## Outwards -/

/-- Whether what has the given elements around it, the innermost first, is in a run of a paragraph:
the paragraph is the innermost one around the run, and no tracked deletion is between the two. -/
def InRunOf (p : Element) : List Element → Prop
  | [] => False
  | run :: above => run.tag.name = Names.run ∧ nearest? Names.paragraph ⟨run, above⟩ = some p ∧
      ∀ e ∈ above.takeWhile fun e => e.tag.name ≠ Names.paragraph, e.tag.name ∉ Names.deleting

instance (p : Element) : (around : List Element) → Decidable (InRunOf p around)
  | [] => inferInstanceAs (Decidable False)
  | _ :: _ => inferInstanceAs (Decidable (_ ∧ _ ∧ _))

theorem takeWhile_between {between outside : List Element} (hp : p.tag.name = Names.paragraph)
    (hb : ∀ e ∈ between, e.tag.name ≠ Names.paragraph) :
    (between ++ p :: outside).takeWhile (fun e => e.tag.name ≠ Names.paragraph) = between := by
  rw [List.takeWhile_append_of_pos (by simpa using hb), List.takeWhile_cons_of_neg (by simpa),
    List.append_nil]

/-- A paragraph is the innermost one, with no tracked deletion between, if nothing between conceals
what is in it. -/
theorem inRunOf_iff {around : List Element} : InRunOf p around ↔ p.tag.name = Names.paragraph ∧
    ∃ run between outside, around = run :: (between ++ p :: outside) ∧
      run.tag.name = Names.run ∧ ∀ e ∈ between, e.tag.name ∉ Names.concealing := by
  cases around with
  | nil => simp [InRunOf]
  | cons run above =>
    constructor
    · rintro ⟨hr, hn, hd⟩
      obtain ⟨hp, between, outside, rfl, hb⟩ := List.find?_eq_some_iff_append.1 hn
      have hp : p.tag.name = Names.paragraph := by simpa using hp
      have hb : ∀ e ∈ between, e.tag.name ≠ Names.paragraph := by simpa using hb
      rw [takeWhile_between hp hb] at hd
      refine ⟨hp, run, between, outside, rfl, hr, fun e he hc => ?_⟩
      exact (Names.mem_concealing.1 hc).elim (hb e he) (hd e he)
    · rintro ⟨hp, run', between, outside, h, hr, hc⟩
      obtain ⟨rfl, rfl⟩ := List.cons.inj h
      have hb : ∀ e ∈ between, e.tag.name ≠ Names.paragraph := fun e he h =>
        hc e he (Names.mem_concealing.2 (.inl h))
      refine ⟨hr, List.find?_eq_some_iff_append.2 ⟨by simpa, between, outside, rfl, by simpa⟩, ?_⟩
      rw [takeWhile_between hp hb]
      exact fun e he h => hc e he (Names.mem_concealing.2 (.inr h))

theorem InRunOf.unique {q : Element} {around : List Element} (hp : InRunOf p around)
    (hq : InRunOf q around) : p = q := by
  cases around with
  | nil => exact hp.elim
  | cons run above => exact Option.some.inj (hp.2.1.symm.trans hq.2.1)

theorem InRunOf.mem {around : List Element} (h : InRunOf p around) : p ∈ around := by
  obtain ⟨-, run, between, outside, rfl, -⟩ := inRunOf_iff.1 h
  simp

/-- In a run outside of all tracked deletions, what is in a paragraph is in a run of a paragraph. -/
theorem exists_inRunOf {run : Element} {above : List Element} (hr : run.tag.name = Names.run)
    (hp : ∃ p ∈ above, p.tag.name = Names.paragraph)
    (hd : ∀ e ∈ above, e.tag.name ∉ Names.deleting) : ∃ p, InRunOf p (run :: above) := by
  obtain ⟨p, hn⟩ : ∃ p, nearest? Names.paragraph ⟨run, above⟩ = some p :=
    Option.isSome_iff_exists.1 (List.find?_isSome.2 (by simpa using hp))
  exact ⟨p, hr, hn, fun e he => hd e ((List.takeWhile_prefix _).subset he)⟩

/-! ## Places and trails -/

/-- The trail of an element says what is around its place. -/
theorem trail_of_place? (hc : c.ids.Nodup) (h : c.place? i = some place) :
    place.element.tag.id = i ∧ (∀ e ∈ place.around, e ∈ c.elements) ∧
      key place.element.tag :: place.around.map (fun e => key e.tag) ∈ trails [] c := by
  obtain ⟨g, rest, rfl, hi, ha⟩ := Content.place?_eq hc h
  refine ⟨hi, fun e he => Hole.mem_fill_of_around (ha ▸ he), ?_⟩
  rw [ha, ← Around.trail_eq]
  exact trail_mem_fill

theorem exists_place? (hc : c.ids.Nodup) (he : e ∈ c.elements) :
    ∃ around, c.place? e.tag.id = some ⟨e, around⟩ := by
  obtain ⟨h, rest, rfl⟩ := Hole.exists_fill_of_mem he
  exact ⟨_, Hole.place?_fill (Hole.id_notMem hc).1⟩

/-- A segment of a paragraph is an element that shows text in a run of the paragraph. -/
theorem place_of_segment (hc : c.ids.Nodup) (hp : p ∈ c.elements)
    (hn : p.tag.name = Names.paragraph) {x : Segment} (hx : x ∈ Paragraph.segments p) :
    ∃ e run above, c.place? x.node = some ⟨e, run :: above⟩ ∧ InRunOf p (run :: above) ∧
      Segment.of? run.tag.id e.tag e.inner = some x := by
  obtain ⟨e, he, hxe⟩ := segment_mem hx
  obtain ⟨around, hplace⟩ := exists_place? hc (Content.mem_trans hp he)
  rw [← (of?_eq_some hxe).1] at hplace
  obtain ⟨hid, hin, ht⟩ := trail_of_place? hc hplace
  obtain ⟨h, rest, rfl⟩ := Hole.exists_fill_of_mem hp
  obtain ⟨k, hk, -, ⟨hr, -⟩ | ⟨m, v, hm, hrun, hr, hv⟩⟩ :=
    segment_trail (key p.tag :: Around.trail h []) hx
  · cases hr
  -- The trail of the segment in the paragraph is that of the element in the tree.
  have htrail := trail_eq_of_id hc ht (trails_inner_subset hm) (hid.trans hk.symm)
  obtain ⟨run, above, rfl, rfl, ha⟩ := List.map_eq_cons_iff.1 (List.cons.inj htrail).2
  obtain ⟨between, out, rfl, rfl, ho⟩ := List.map_eq_append_iff.1 ha
  obtain ⟨q, outside, rfl, hq, -⟩ := List.map_eq_cons_iff.1 ho
  obtain rfl := Content.eq_of_id hc (hin q (by simp)) hp (congrArg Key.id hq)
  have hbetween : ∀ y ∈ between, y.tag.name ∉ Names.concealing := fun y hy =>
    (hv _ (List.mem_map_of_mem hy)).1
  have hrun : run.tag.id = x.run := hrun
  exact ⟨e, run, _, hplace, inRunOf_iff.2 ⟨hn, run, between, outside, rfl, hr, hbetween⟩,
    by rw [hrun, hxe]⟩

/-- An element that shows text in a run of a paragraph is a segment of the paragraph. -/
theorem segment_of_place (hc : c.ids.Nodup) (hplace : c.place? i = some place)
    (hs : place.element.tag.name ∈ Names.showing) (hr : InRunOf p place.around) :
    p ∈ c.elements ∧ p.tag.name = Names.paragraph ∧ ∃ x ∈ Paragraph.segments p, x.node = i := by
  obtain ⟨hid, hin, ht⟩ := trail_of_place? hc hplace
  have hp : p ∈ c.elements := hin p hr.mem
  obtain ⟨hn, run, between, outside, ha, hr, hv⟩ := inRunOf_iff.1 hr
  refine ⟨hp, hn, ?_⟩
  obtain ⟨h, rest, rfl⟩ := Hole.exists_fill_of_mem hp
  simp only [ha, List.map_cons, List.map_append] at ht
  -- From the paragraph on, the trail is that of the paragraph.
  have hpt := suffix_mem_trails (u := key place.element.tag :: key run.tag ::
    between.map fun e => key e.tag) ht (by simp)
  rw [(List.cons.inj (trail_eq_of_id hc hpt trail_mem_fill rfl)).2] at ht
  have hm := mem_inner_of_suffix (u := key run.tag :: between.map fun e => key e.tag) hc ht
  obtain ⟨x, hx, hxi⟩ : ∃ x ∈ Paragraph.segments p, x.node = (key place.element.tag).id :=
    segment_of_trail hs hr hm (by simpa using hv)
  exact ⟨x, hx, hxi.trans hid⟩

end Word

namespace Story

/-- The tree of a story. -/
def tree (s : Story) (f : Forest) : Content :=
  match f.element? s.element with
  | some e => .element e.tag e.inner .nil
  | none => .nil

theorem nodup_tree (hf : f.Numbered) (s : Story) : (s.tree f).ids.Nodup := by
  unfold tree
  split
  · next e he => exact hf.nodup_element (hf.element?_eq_some.1 he).1
  · exact .nil

theorem mem_paragraphs {s : Story} :
    p ∈ s.paragraphs f ↔ p ∈ (s.tree f).elements ∧ p.tag.name = Names.paragraph := by
  cases he : f.element? s.element <;>
    simp [paragraphs, named, tree, he, Content.named, Content.elements]

/-- The elements that the paragraphs of a story show, by their numbers. -/
def shownNodes (s : Story) (f : Forest) : List Nat :=
  (s.paragraphs f).flatMap fun p => (Paragraph.segments p).map (·.node)

theorem nodup_shownNodes (hf : f.Numbered) (s : Story) : (s.shownNodes f).Nodup := by
  have hc := s.nodup_tree hf
  refine List.nodup_flatMap.2 ⟨fun p hp => ?_, ?_⟩
  · exact nodup_nodes (Content.nodup_inner hc (mem_paragraphs.1 hp).1)
  · refine (s.nodup_paragraphs hf).imp_of_mem fun {p q} hp hq hne i hip hiq => hne ?_
    obtain ⟨hp, hpn⟩ := mem_paragraphs.1 hp
    obtain ⟨hq, hqn⟩ := mem_paragraphs.1 hq
    obtain ⟨x, hx, rfl⟩ := List.mem_map.1 hip
    obtain ⟨y, hy, hyx⟩ := List.mem_map.1 hiq
    obtain ⟨_, _, _, hplace, hpr, -⟩ := place_of_segment hc hp hpn hx
    obtain ⟨_, _, _, hplace', hqr, -⟩ := place_of_segment hc hq hqn hy
    obtain ⟨-, rfl, rfl⟩ := Option.some.inj (hplace.symm.trans (hyx ▸ hplace'))
    exact hpr.unique hqr

/-- An element that shows text is a segment of the paragraph that it is in a run of, and of no other
paragraph of the story; what it shows are its own characters. So no element is shown twice, and all
those are shown that are in a run of a paragraph with no tracked deletion around. -/
theorem shown_once (hf : f.Numbered) (s : Story) :
    (∀ i place, (s.tree f).place? i = some place → place.element.tag.name ∈ Names.showing →
      ∀ p, (p ∈ s.paragraphs f ∧ ∃ x ∈ Paragraph.segments p, x.node = i) ↔
        InRunOf p place.around) ∧
    (∀ p ∈ s.paragraphs f, ∀ x ∈ Paragraph.segments p, ∃ e run above,
      (s.tree f).place? x.node = some ⟨e, run :: above⟩ ∧
        Segment.of? run.tag.id e.tag e.inner = some x) ∧
    (s.shownNodes f).Nodup ∧
    ∀ i e run above, (s.tree f).place? i = some ⟨e, run :: above⟩ →
      e.tag.name ∈ Names.showing → run.tag.name = Names.run →
        (∃ p ∈ above, p.tag.name = Names.paragraph) →
          (∀ y ∈ above, y.tag.name ∉ Names.deleting) → i ∈ s.shownNodes f := by
  have hc := s.nodup_tree hf
  refine ⟨fun i place hplace hs p => ⟨?_, fun hr => ?_⟩, fun p hp x hx => ?_,
    s.nodup_shownNodes hf, fun i e run above hplace hs hr hp hd => ?_⟩
  · rintro ⟨hp, x, hx, rfl⟩
    obtain ⟨hp, hn⟩ := mem_paragraphs.1 hp
    obtain ⟨e, run, above, hplace', hr, -⟩ := place_of_segment hc hp hn hx
    obtain rfl := Option.some.inj (hplace.symm.trans hplace')
    exact hr
  · obtain ⟨hp, hn, hx⟩ := segment_of_place hc hplace hs hr
    exact ⟨mem_paragraphs.2 ⟨hp, hn⟩, hx⟩
  · obtain ⟨hp, hn⟩ := mem_paragraphs.1 hp
    obtain ⟨e, run, above, hplace, -, hxe⟩ := place_of_segment hc hp hn hx
    exact ⟨e, run, above, hplace, hxe⟩
  · obtain ⟨p, hrun⟩ := exists_inRunOf hr hp hd
    obtain ⟨hp, hn, x, hx, hi⟩ := segment_of_place hc hplace hs hrun
    exact List.mem_flatMap.2 ⟨p, mem_paragraphs.2 ⟨hp, hn⟩, List.mem_map.2 ⟨x, hx, hi⟩⟩

/-- A paragraph with a tab stop among its properties, text of which some is inserted and some is
deleted, and a text box in front of a tab. -/
def reviewed : Document := .ofBody [
  Document.node Names.paragraph [
    Document.node Names.paragraphProperties [
      Document.node (name "tabs") [Document.node Names.tab []]],
    Document.textRun "a",
    Document.node (name "ins") [Document.textRun "b"],
    Document.node Names.deletion [Document.textRun "c"],
    Document.node Names.run [
      Document.node Names.drawing [Document.node Names.textBox [
        Document.node Names.paragraph [Document.textRun "d"]]],
      Document.node Names.tab []]]]

def reviewedBody : Story := ⟨.body, 1, PartName.main⟩

/-- No paragraph shows the tab stop or what is deleted. What is inserted is shown, and the paragraph
in the text box shows the text there. -/
theorem shown_once_reviewed :
    (∀ p ∈ reviewedBody.paragraphs reviewed.forest, ∀ x ∈ Paragraph.segments p,
      x.node ≠ 5 ∧ x.node ≠ 13) ∧
    10 ∈ reviewedBody.shownNodes reviewed.forest ∧
    (reviewedBody.shownNodes reviewed.forest).Nodup ∧
    ∃ p ∈ reviewedBody.paragraphs reviewed.forest, p.tag.id = 17 ∧
      ∃ x ∈ Paragraph.segments p, x.node = 19 := by
  obtain ⟨hsegment, -, hnodup, hall⟩ :=
    shown_once (Document.sound_ofRoot _ : reviewed.Sound).numbered reviewedBody
  set c := reviewedBody.tree reviewed.forest
  have hplaces : ∀ i ∈ [5, 10, 13, 19], ∃ place, c.place? i = some place := by
    simp only [← Option.isSome_iff_exists]
    decide +kernel
  have hhidden : ∀ i ∈ [5, 13], ∀ place ∈ c.place? i, place.element.tag.name ∈ Names.showing ∧
      ∀ p ∈ place.around, ¬InRunOf p place.around := by decide +kernel
  have hinserted : ∀ place ∈ c.place? 10, place.element.tag.name ∈ Names.showing ∧
      place.around ≠ [] ∧ (∀ run ∈ place.around.head?, run.tag.name = Names.run) ∧
        (∃ p ∈ place.around.tail, p.tag.name = Names.paragraph) ∧
          ∀ y ∈ place.around.tail, y.tag.name ∉ Names.deleting := by decide +kernel
  have hbox : ∀ place ∈ c.place? 19, place.element.tag.name ∈ Names.showing ∧
      ∃ p ∈ place.around, p.tag.id = 17 ∧ InRunOf p place.around := by decide +kernel
  have notShown : ∀ i ∈ [5, 13], ∀ p ∈ reviewedBody.paragraphs reviewed.forest,
      ∀ x ∈ Paragraph.segments p, x.node ≠ i := by
    intro i hi p hp x hx hxi
    obtain ⟨place, hplace⟩ := hplaces i (by simp at hi ⊢; omega)
    obtain ⟨hs, hnone⟩ := hhidden i hi place hplace
    have hr := (hsegment i place hplace hs p).1 ⟨hp, x, hx, hxi⟩
    exact hnone p hr.mem hr
  refine ⟨fun p hp x hx => ⟨notShown 5 (by simp) p hp x hx, notShown 13 (by simp) p hp x hx⟩,
    ?_, hnodup, ?_⟩
  · obtain ⟨⟨e, around⟩, hplace⟩ := hplaces 10 (by simp)
    obtain ⟨hs, hne, hr, hp, hd⟩ := hinserted _ hplace
    obtain ⟨run, above, rfl⟩ := List.exists_cons_of_ne_nil hne
    exact hall 10 e run above hplace hs (hr run rfl) hp hd
  · obtain ⟨place, hplace⟩ := hplaces 19 (by simp)
    obtain ⟨hs, p, -, hid, hr⟩ := hbox place hplace
    obtain ⟨hp, hx⟩ := (hsegment 19 place hplace hs p).2 hr
    exact ⟨p, hp, hid, hx⟩

end Story

end MailMerge
