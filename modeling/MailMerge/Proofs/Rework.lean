import Mathlib.Logic.Relation
import MailMerge.Proofs.Shown
import MailMerge.Proofs.Swept

/-!
# Replacing text in a paragraph

A revision changes elements that show text in the paragraph's own runs, and clears these runs up.
What this does to the structure of the content is a sweep (`changed_swept`, `tidy_swept`,
`propertiesOf_swept`), what it does to the text is read off the segments (`segmentsIn_changed`,
`quiet_tidy`).
-/

namespace MailMerge.Word

open MailMerge.Xml

/-! ## Segments and elements -/

theorem segment_mem {s : Segment} : ∀ {run : Option Nat} {c : Content}, s ∈ segmentsIn run c →
    ∃ e ∈ c.elements, Segment.of? s.run e.tag e.inner = some s
  | run, .text _ rest, h | run, .markup _ rest, h => segment_mem (c := rest) h
  | run, .element tag inner rest, h => by
    simp only [segmentsIn, List.mem_append, Option.mem_toList] at h
    simp only [Content.mem_element]
    rcases h with (h | h) | h
    · obtain ⟨r, rfl, h⟩ := Option.bind_eq_some_iff.1 h
      obtain rfl : s.run = r := (of?_eq_some h).2.1
      exact ⟨_, .inl rfl, h⟩
    · split at h
      · cases h
      · obtain ⟨e, he, h⟩ := segment_mem h
        exact ⟨e, .inr (.inl he), h⟩
    · obtain ⟨e, he, h⟩ := segment_mem h
      exact ⟨e, .inr (.inr he), h⟩

theorem nodes_sublist : ∀ (run : Option Nat) (c : Content),
    ((segmentsIn run c).map (·.node)).Sublist c.ids
  | _, .nil => .slnil
  | run, .text _ rest | run, .markup _ rest => nodes_sublist run rest
  | run, .element tag inner rest => by
    simp only [segmentsIn, List.map_append, Content.ids_element, List.append_assoc]
    have hh : ((run.bind fun r => Segment.of? r tag inner).toList.map (·.node)).Sublist
        [tag.id] := by
      rcases hs : run.bind fun r => Segment.of? r tag inner with _ | s
      · simp
      · obtain ⟨r, -, h⟩ := Option.bind_eq_some_iff.1 hs
        simp [(of?_eq_some h).1]
    have hi : ((if tag.name ∈ Names.concealing then [] else segmentsIn (runOf tag) inner).map
        (·.node)).Sublist inner.ids := by
      split
      · simp
      · exact nodes_sublist _ inner
    exact hh.append (hi.append (nodes_sublist run rest))

theorem node_mem_ids {run : Option Nat} {c : Content} {s : Segment} (h : s ∈ segmentsIn run c) :
    s.node ∈ c.ids :=
  (nodes_sublist run c).subset (List.mem_map_of_mem h)

/-- Where a segment is: in the given run, or in a run further in that nothing there conceals. If the
text is legible, it is not in run properties. -/
theorem segment_trail {s : Segment} : ∀ {run : Option Nat} (above : List Key) {c : Content},
    s ∈ segmentsIn run c → ∃ k : Key, k.id = s.node ∧ k.name ∈ Names.showing ∧
      ((run = some s.run ∧ k :: above ∈ trails above c) ∨
        ∃ (m : Key) (v : List Key), k :: m :: (v ++ above) ∈ trails above c ∧ m.id = s.run ∧
          m.name = Names.run ∧ ∀ x ∈ v, x.name ∉ Names.concealing ∧
            (Legible run c → x.name ≠ Names.runProperties))
  | run, above, .text _ rest, h | run, above, .markup _ rest, h => segment_trail above (c := rest) h
  | run, above, .element tag inner rest, h => by
    simp only [segmentsIn, List.mem_append, Option.mem_toList] at h
    simp only [mem_trails_element]
    rcases h with (h | h) | h
    · obtain ⟨r, rfl, h⟩ := Option.bind_eq_some_iff.1 h
      obtain ⟨hi, rfl, hs, -⟩ := of?_eq_some h
      exact ⟨key tag, hi.symm, hs, .inl ⟨rfl, .inl rfl⟩⟩
    · split at h
      · cases h
      · next hc =>
        obtain ⟨k, hk, hs, ⟨hr, ht⟩ | ⟨m, v, ht, hm, hmr, hv⟩⟩ :=
          segment_trail (key tag :: above) h
        · simp only [runOf, Option.ite_none_right_eq_some, Option.some.injEq] at hr
          exact ⟨k, hk, hs, .inr ⟨key tag, [], .inr (.inl ht), hr.2, hr.1, by simp⟩⟩
        · refine ⟨k, hk, hs, .inr ⟨m, v ++ [key tag], .inr (.inl (by simpa using ht)), hm, hmr, ?_⟩⟩
          intro x hx
          rcases List.mem_append.1 hx with hx | hx
          · exact (hv x hx).imp_right fun hp hl => hp (hl.2.1 hc).1
          · obtain rfl := List.mem_singleton.1 hx
            exact ⟨hc, fun hl hp => List.ne_nil_of_mem h ((hl.2.1 hc).2 hp)⟩
    · obtain ⟨k, hk, hs, ⟨hr, ht⟩ | ⟨m, v, ht, hm, hmr, hv⟩⟩ := segment_trail above h
      · exact ⟨k, hk, hs, .inl ⟨hr, .inr (.inr ht)⟩⟩
      · exact ⟨k, hk, hs, .inr ⟨m, v, .inr (.inr ht), hm, hmr, fun x hx =>
          (hv x hx).imp_right fun hp hl => hp hl.2.2⟩⟩

/-! ## Changes -/

/-- Content of elements that show text and have nothing in them. -/
def OfInlines : Content → Prop
  | .nil => True
  | .element tag inner rest => tag.name ∈ Names.showing ∧ inner.elements = [] ∧ OfInlines rest
  | _ => False

/-- Whether changes are those of elements that show text in content, and put in numbers from `n`
on. -/
structure Fits (n : Nat) (changes : List (Nat × Change)) (run : Option Nat) (c : Content) :
    Prop where
  node : ∀ i ∈ c.ids, ∀ x, changes.lookup i = some x → ∃ s ∈ segmentsIn run c,
    s.node = i ∧ ∀ cs, x = .retext cs → s.editable = true
  new : ∀ i x, changes.lookup i = some (.swap x) → OfInlines x ∧ ∀ j ∈ x.ids, n ≤ j

theorem firm_ofInlines {run : Option Nat} : ∀ {c : Content}, OfInlines c → Firm run c
  | .nil, _ => trivial
  | .element _ _ _, ⟨_, hi, hr⟩ =>
    ⟨fun _ _ => hi, fun _ => ⟨firm_of_elements_nil hi, fun _ => segmentsIn_of_elements_nil hi⟩,
      firm_ofInlines hr⟩

section Fits

variable {n : Nat} {changes : List (Nat × Change)} {run : Option Nat} {tag : Tag}
  {inner rest c : Content}

/-- Changes that fit an element, what is in it and what is behind it. -/
structure FitsElement (n : Nat) (changes : List (Nat × Change)) (run : Option Nat) (tag : Tag)
    (inner rest : Content) : Prop where
  head : ∀ x, changes.lookup tag.id = some x → run.isSome = true ∧ tag.name ∈ Names.showing ∧
    ∀ cs, x = .retext cs → tag.name = Names.text
  concealed : tag.name ∈ Names.concealing → ∀ i ∈ inner.ids, changes.lookup i = none
  inner : tag.name ∉ Names.concealing → Fits n changes (runOf tag) inner
  rest : Fits n changes run rest

theorem Fits.element (hn : (Content.element tag inner rest).ids.Nodup)
    (h : Fits n changes run (.element tag inner rest)) :
    FitsElement n changes run tag inner rest := by
  simp only [Content.ids_element, List.nodup_cons, List.mem_append, not_or, List.nodup_append] at hn
  obtain ⟨⟨hti, htr⟩, -, -, hir⟩ := hn
  -- A segment with a given number is in the part that the number is in.
  have part : ∀ s ∈ segmentsIn run (.element tag inner rest),
      (∃ r, run = some r ∧ Segment.of? r tag inner = some s ∧ s.node = tag.id) ∨
        (tag.name ∉ Names.concealing ∧ s ∈ segmentsIn (runOf tag) inner ∧ s.node ∈ inner.ids) ∨
          (s ∈ segmentsIn run rest ∧ s.node ∈ rest.ids) := by
    intro s hs
    simp only [segmentsIn, List.mem_append, Option.mem_toList] at hs
    rcases hs with (hs | hs) | hs
    · obtain ⟨r, hr, hs⟩ := Option.bind_eq_some_iff.1 hs
      exact .inl ⟨r, hr, hs, (of?_eq_some hs).1⟩
    · split at hs
      · cases hs
      · next hc => exact .inr (.inl ⟨hc, hs, node_mem_ids hs⟩)
    · exact .inr (.inr ⟨hs, node_mem_ids hs⟩)
  have hi : ∀ i ∈ inner.ids, ∀ x, changes.lookup i = some x → tag.name ∉ Names.concealing ∧
      ∃ s ∈ segmentsIn (runOf tag) inner, s.node = i ∧ ∀ cs, x = .retext cs → s.editable := by
    intro i hi x hx
    obtain ⟨s, hs, rfl, he⟩ := h.node i (by simp [hi]) x hx
    rcases part s hs with ⟨-, -, -, e⟩ | ⟨hc, hs, -⟩ | ⟨-, hr⟩
    · exact absurd (e ▸ hi) hti
    · exact ⟨hc, s, hs, rfl, he⟩
    · exact absurd rfl (hir _ hi _ hr)
  refine ⟨fun x hx => ?_, fun hc i h => ?_, fun _ => ⟨fun i h x hx => (hi i h x hx).2, h.new⟩,
    fun i h' x hx => ?_, h.new⟩
  · obtain ⟨s, hs, e, he⟩ := h.node tag.id (by simp) x hx
    rcases part s hs with ⟨r, hr, ho, -⟩ | ⟨-, -, hm⟩ | ⟨-, hm⟩
    · obtain ⟨-, -, hn, ht, -⟩ := of?_eq_some ho
      exact ⟨by simp [hr], hn, fun cs hx => (ht (he cs hx)).1⟩
    · exact absurd (e ▸ hm) hti
    · exact absurd (e ▸ hm) htr
  · rcases hl : changes.lookup i with _ | x
    · rfl
    · exact absurd hc (hi i h x hl).1
  · obtain ⟨s, hs, rfl, he⟩ := h.node i (by simp [h']) x hx
    rcases part s hs with ⟨-, -, -, e⟩ | ⟨-, -, hm⟩ | ⟨hs, -⟩
    · exact absurd (e ▸ h') htr
    · exact absurd rfl (hir _ hm _ h')
    · exact ⟨s, hs, rfl, he⟩

theorem changed_of_none : ∀ {c : Content}, (∀ i ∈ c.ids, changes.lookup i = none) →
    changed changes c = c
  | .nil, _ => rfl
  | .text _ rest, h | .markup _ rest, h => by rw [changed, changed_of_none (c := rest) h]
  | .element tag inner rest, h => by
    simp only [Content.mem_ids_element] at h
    rw [changed, h _ (.inl rfl), changed_of_none fun i hi => h i (.inr (.inl hi)),
      changed_of_none fun i hi => h i (.inr (.inr hi))]

theorem changed_of_elements_nil (h : c.elements = []) : changed changes c = c :=
  changed_of_none (by simp [Content.ids, h])

/-! ### What changes do to the structure -/

theorem swept_ofInlines {gone : List Key → List Key → Prop} {come : List Key → Prop}
    {a : List Key} {rest' : Content} (hs : Swept gone come n a rest rest') :
    ∀ {new : Content}, OfInlines new → (∀ i ∈ new.ids, n ≤ i) →
      (∀ k : Key, k.name ∈ Names.showing → n ≤ k.id → come (k :: a)) →
        Swept gone come n a rest (new ++ rest')
  | .nil, _, _, _ => hs
  | .element tag inner new, ⟨ht, hi, hnew⟩, hn, hc => by
    simp only [Content.mem_ids_element] at hn
    have hp : tag.name ≠ Names.paragraph := fun e => paragraph_notMem_showing (e ▸ ht)
    exact .gain (hc (key tag) ht (hn _ (.inl rfl))) (hn _ (.inl rfl)) hp hi
      (swept_ofInlines hs hnew (fun i h => hn i (.inr (.inr h))) hc)

@[simp] theorem withText_id (cs : List Char) (e : Element) : (withText cs e).tag.id = e.tag.id := by
  unfold withText
  split <;> simp [Tag.keepBlanks]

@[simp] theorem withText_name (cs : List Char) (e : Element) :
    (withText cs e).tag.name = e.tag.name := by
  unfold withText
  split <;> simp [Tag.keepBlanks]

theorem key_withText {cs : List Char} {e : Element} (h : e.tag.name = Names.text) :
    key (withText cs e).tag = key e.tag := by
  unfold withText
  split <;> simp [key, Tag.keepBlanks, h]

theorem changed_swept {gone : List Key → List Key → Prop} {come : List Key → Prop} :
    ∀ {run : Option Nat} {a : List Key} {c : Content}, c.ids.Nodup → Fits n changes run c →
      (∀ k u x, k :: u ∈ trails a c → changes.lookup k.id = some (.swap x) →
        (∀ w, gone w (k :: u)) ∧ ∀ k' : Key, k'.name ∈ Names.showing → n ≤ k'.id → come (k' :: u)) →
        Swept gone come n a c (changed changes c)
  | _, _, .nil, _, _, _ => .nil
  | run, a, .text _ rest, hn, hf, h => .text (changed_swept (c := rest) hn ⟨hf.node, hf.new⟩ h)
  | run, a, .markup _ rest, hn, hf, h =>
    .markup (changed_swept (c := rest) hn ⟨hf.node, hf.new⟩ h)
  | run, a, .element tag inner rest, hn, hf, h => by
    obtain ⟨hh, hc, hi, hr⟩ := hf.element hn
    obtain ⟨-, hni, hnr, -⟩ := Content.nodup_ids_element.1 hn
    simp only [mem_trails_element] at h
    have sr : Swept gone come n a rest (changed changes rest) :=
      changed_swept hnr hr fun k u x hk => h k u x (.inr (.inr hk))
    have si : Swept gone come n (key tag :: a) inner (changed changes inner) := by
      by_cases ht : tag.name ∈ Names.concealing
      · rw [changed_of_none (hc ht)]
        exact .refl _
      · exact changed_swept hni (hi ht) fun k u x hk => h k u x (.inr (.inl hk))
    rcases hl : changes.lookup tag.id with _ | (cs | new)
    · simp only [changed, hl]
      refine .keep rfl (fun hp => ⟨rfl, ?_⟩) si sr
      exact changed_of_none (hc (hp ▸ by decide))
    · simp only [changed, hl]
      obtain ⟨-, hs, ht⟩ := hh _ hl
      have ht := ht cs rfl
      refine .keep (key_withText ht) (fun hp => ?_) (.gainText si.dropText) sr
      exact absurd (hp ▸ hs) paragraph_notMem_showing
    · simp only [changed, hl]
      obtain ⟨hg, hcome⟩ := h (key tag) a new (.inl rfl) hl
      obtain ⟨hnew, hlt⟩ := hf.new _ _ hl
      exact .lose (fun w _ => hg w) (swept_ofInlines sr.dropText hnew hlt hcome)

theorem mem_ids_changed : ∀ {c : Content} {i : Nat}, i ∈ (changed changes c).ids →
    i ∈ c.ids ∨ ∃ j ∈ c.ids, ∃ x, changes.lookup j = some (.swap x) ∧ i ∈ x.ids
  | .text _ rest, i, h | .markup _ rest, i, h => mem_ids_changed (c := rest) h
  | .element tag inner rest, i, h => by
    simp only [Content.mem_ids_element]
    have hi : i ∈ (changed changes inner).ids → i ∈ inner.ids ∨
        ∃ j ∈ inner.ids, ∃ x, changes.lookup j = some (.swap x) ∧ i ∈ x.ids := mem_ids_changed
    have hr : i ∈ (changed changes rest).ids → i ∈ rest.ids ∨
        ∃ j ∈ rest.ids, ∃ x, changes.lookup j = some (.swap x) ∧ i ∈ x.ids := mem_ids_changed
    have up : ∀ {l : List Nat}, (∀ j ∈ l, j ∈ inner.ids ∨ j ∈ rest.ids) →
        (i ∈ l ∨ ∃ j ∈ l, ∃ x, changes.lookup j = some (.swap x) ∧ i ∈ x.ids) →
          (i = tag.id ∨ i ∈ inner.ids ∨ i ∈ rest.ids) ∨ ∃ j, (j = tag.id ∨ j ∈ inner.ids ∨
            j ∈ rest.ids) ∧ ∃ x, changes.lookup j = some (.swap x) ∧ i ∈ x.ids := by
      rintro l hl (hm | ⟨j, hj, hx⟩)
      · exact .inl (.inr (hl _ hm))
      · exact .inr ⟨j, .inr (hl _ hj), hx⟩
    rcases hl : changes.lookup tag.id with _ | (cs | new)
    · simp only [changed, hl, Content.ids_element, List.mem_cons, List.mem_append] at h
      rcases h with h | h | h
      · exact .inl (.inl h)
      · exact up (fun j hj => .inl hj) (hi h)
      · exact up (fun j hj => .inr hj) (hr h)
    · simp only [changed, hl, Content.ids_element, List.mem_cons, List.mem_append] at h
      rcases h with h | h | h
      · exact .inl (.inl (h.trans (withText_id _ _)))
      · exact up (fun j hj => .inl hj) (hi (by simpa [withText] using h))
      · exact up (fun j hj => .inr hj) (hr h)
    · simp only [changed, hl, Content.ids_append, Content.ids_dropText, List.mem_append] at h
      rcases h with h | h
      · exact .inr ⟨tag.id, .inl rfl, new, hl, h⟩
      · exact up (fun j hj => .inr hj) (hr h)

/-- Whether no number is put in twice, and only numbers from `n` on are. -/
structure Fresh (n : Nat) (changes : List (Nat × Change)) : Prop where
  nodup : ∀ i x, changes.lookup i = some (.swap x) → x.ids.Nodup ∧ ∀ j ∈ x.ids, n ≤ j
  apart : ∀ i j x y, changes.lookup i = some (.swap x) → changes.lookup j = some (.swap y) →
    ∀ k ∈ x.ids, k ∈ y.ids → i = j

theorem Fresh.disjoint (h : Fresh n changes) {d : Content} (hc : ∀ i ∈ c.ids, i < n)
    (hd : ∀ i ∈ d.ids, i < n) (hcd : ∀ i ∈ c.ids, i ∉ d.ids) :
    ∀ i ∈ (changed changes c).ids, i ∉ (changed changes d).ids := by
  intro i hi hi'
  rcases mem_ids_changed hi with hi | ⟨j, hj, x, hx, hi⟩
  · rcases mem_ids_changed hi' with hi' | ⟨j, -, x, hx, hi'⟩
    · exact hcd i hi hi'
    · exact absurd (hc i hi) (Nat.not_lt.2 ((h.nodup _ _ hx).2 i hi'))
  · rcases mem_ids_changed hi' with hi' | ⟨j', hj', y, hy, hi'⟩
    · exact absurd (hd i hi') (Nat.not_lt.2 ((h.nodup _ _ hx).2 i hi))
    · exact hcd j hj (h.apart _ _ _ _ hx hy i hi hi' ▸ hj')

theorem nodup_changed (h : Fresh n changes) : ∀ {c : Content}, c.ids.Nodup →
    (∀ i ∈ c.ids, i < n) → (changed changes c).ids.Nodup
  | .nil, _, _ => List.nodup_nil
  | .text _ rest, hn, hl | .markup _ rest, hn, hl => nodup_changed h (c := rest) hn hl
  | .element tag inner rest, hn, hl => by
    simp only [Content.ids_element, List.nodup_cons, List.mem_append, not_or,
      List.nodup_append] at hn
    simp only [Content.mem_ids_element] at hl
    obtain ⟨⟨hti, htr⟩, hni, hnr, hir⟩ := hn
    have hli : ∀ i ∈ inner.ids, i < n := fun i hi => hl i (.inr (.inl hi))
    have hlr : ∀ i ∈ rest.ids, i < n := fun i hi => hl i (.inr (.inr hi))
    have ht : ∀ {d : Content}, tag.id ∉ d.ids → tag.id ∉ (changed changes d).ids := by
      intro d hd hm
      rcases mem_ids_changed hm with hm | ⟨j, -, x, hx, hm⟩
      · exact hd hm
      · exact absurd (hl _ (.inl rfl)) (Nat.not_lt.2 ((h.nodup _ _ hx).2 _ hm))
    have hd := h.disjoint hli hlr fun i hi hr => hir i hi i hr rfl
    have kept : (tag.id :: ((changed changes inner).ids ++ (changed changes rest).ids)).Nodup := by
      simp only [List.nodup_cons, List.mem_append, not_or, List.nodup_append]
      exact ⟨⟨ht hti, ht htr⟩, nodup_changed h hni hli, nodup_changed h hnr hlr,
        fun i hi j hj e => hd i hi (e ▸ hj)⟩
    rcases hx : changes.lookup tag.id with _ | (cs | new)
    · simpa only [changed, hx, Content.ids_element] using kept
    · simp only [changed, hx, Content.ids_element, withText_id]
      simpa [withText] using kept
    · simp only [changed, hx, Content.ids_append, Content.ids_dropText, List.nodup_append]
      refine ⟨(h.nodup _ _ hx).1, nodup_changed h hnr hlr, fun i hi j hj e => ?_⟩
      rcases mem_ids_changed (e ▸ hj) with hm | ⟨j', hj', y, hy, hm⟩
      · exact absurd (hlr i hm) (Nat.not_lt.2 ((h.nodup _ _ hx).2 i hi))
      · exact htr (h.apart _ _ _ _ hx hy i hi hm ▸ hj')

/-! ### What changes do to the text -/

/-- What a segment has become. -/
def applied (changes : List (Nat × Change)) (s : Segment) : List Segment :=
  match changes.lookup s.node with
  | none => [s]
  | some (.retext cs) => [{ s with chars := cs }]
  | some (.swap new) => segmentsIn (some s.run) new

theorem of?_withText {cs : List Char} {r : Nat} {e : Element} (h : e.tag.name = Names.text) :
    Segment.of? r (withText cs e).tag (withText cs e).inner = some ⟨e.tag.id, r, cs, true⟩ := by
  have hl : (withText cs e).inner.leadingText = cs := by
    simp [withText, Content.leadingText]
  simp [Segment.of?, h, hl]

theorem segmentsIn_leaf (h : inner.elements = []) : segmentsIn run (.element tag inner rest) =
    (run.bind fun r => Segment.of? r tag inner).toList ++ segmentsIn run rest := by
  simp only [segmentsIn, segmentsIn_of_elements_nil h, ite_self, List.append_nil]

theorem segmentsIn_changed : ∀ {run : Option Nat} {c : Content}, c.ids.Nodup →
    Fits n changes run c → Leafed run c →
      segmentsIn run (changed changes c) = (segmentsIn run c).flatMap (applied changes)
  | _, .nil, _, _, _ => rfl
  | run, .text _ rest, hn, hf, h | run, .markup _ rest, hn, hf, h =>
    segmentsIn_changed (c := rest) hn ⟨hf.node, hf.new⟩ h
  | run, .element tag inner rest, hn, hf, ⟨hleaf, hinner, hrest⟩ => by
    obtain ⟨hh, hc, hi, hr⟩ := hf.element hn
    obtain ⟨-, hni, hnr, -⟩ := Content.nodup_ids_element.1 hn
    have ir := segmentsIn_changed hnr hr hrest
    rcases hl : changes.lookup tag.id with _ | x
    · have head : (run.bind fun r => Segment.of? r tag (changed changes inner)).toList =
          (run.bind fun r => Segment.of? r tag inner).toList.flatMap (applied changes) := by
        rcases run with _ | r
        · rfl
        by_cases hs : tag.name ∈ Names.showing
        · rw [changed_of_elements_nil (hleaf rfl hs)]
          rcases ho : Segment.of? r tag inner with _ | s
          · simp [ho]
          · simp [ho, applied, (of?_eq_some ho).1, hl]
        · simp [of?_eq_none.2 hs]
      have ii : (if tag.name ∈ Names.concealing then [] else
          segmentsIn (runOf tag) (changed changes inner)) = (if tag.name ∈ Names.concealing then []
            else segmentsIn (runOf tag) inner).flatMap (applied changes) := by
        split
        · rfl
        · next ht => exact segmentsIn_changed hni (hi ht) (hinner ht)
      simp only [changed, hl, segmentsIn, List.flatMap_append, head, ii, ir]
    · obtain ⟨hrun, hs, ht⟩ := hh x hl
      obtain ⟨r, rfl⟩ := Option.isSome_iff_exists.1 hrun
      have hin := hleaf rfl hs
      obtain ⟨s, ho⟩ : ∃ s, Segment.of? r tag inner = some s :=
        Option.ne_none_iff_exists'.1 fun ho => of?_eq_none.1 ho hs
      obtain ⟨hsn, rfl, -⟩ := of?_eq_some ho
      have hx : changes.lookup s.node = some x := hsn ▸ hl
      rw [segmentsIn_leaf hin]
      simp only [Option.bind_some, ho, Option.toList_some, List.singleton_append, List.flatMap_cons]
      rcases x with cs | new
      · have htext := ht cs rfl
        have hq : Segment.of? s.run tag inner = some ⟨tag.id, s.run, inner.leadingText, true⟩ := by
          simp [Segment.of?, htext]
        have hd : (withText cs ⟨tag, changed changes inner⟩).inner.elements = [] := by
          simpa [withText, Content.elements, changed_of_elements_nil hin] using hin
        simp only [changed, hl]
        rw [segmentsIn_leaf hd]
        simp only [Option.bind_some, of?_withText (e := ⟨tag, _⟩) htext, Option.toList_some, ir,
          applied, hx]
        rw [Option.some.inj (ho.symm.trans hq)]
      · simp only [changed, hl, segmentsIn_append, segmentsIn_dropText, ir, applied, hx]

theorem firm_changed : ∀ {run : Option Nat} {c : Content}, c.ids.Nodup → Fits n changes run c →
    Firm run c → Firm run (changed changes c)
  | _, .nil, _, _, _ => trivial
  | run, .text _ rest, hn, hf, h | run, .markup _ rest, hn, hf, h =>
    firm_changed (c := rest) hn ⟨hf.node, hf.new⟩ h
  | run, .element tag inner rest, hn, hf, ⟨hleaf, hinner, hrest⟩ => by
    obtain ⟨hh, -, hi, hr⟩ := hf.element hn
    obtain ⟨-, hni, hnr, -⟩ := Content.nodup_ids_element.1 hn
    have fr := firm_changed hnr hr hrest
    rcases hl : changes.lookup tag.id with _ | (cs | new)
    · simp only [changed, hl]
      refine ⟨fun hr hs => ?_, fun ht => ⟨firm_changed hni (hi ht) (hinner ht).1, fun hd => ?_⟩, fr⟩
      · rw [changed_of_elements_nil (hleaf hr hs), hleaf hr hs]
      · rw [segmentsIn_changed hni (hi ht) (hinner ht).1.legible.leafed, (hinner ht).2 hd,
          List.flatMap_nil]
    · obtain ⟨hrun, hs, -⟩ := hh _ hl
      have hd : (withText cs ⟨tag, changed changes inner⟩).inner.elements = [] := by
        simpa [withText, Content.elements, changed_of_elements_nil (hleaf hrun hs)] using
          hleaf hrun hs
      simp only [changed, hl]
      exact ⟨fun _ _ => hd, fun _ => ⟨firm_of_elements_nil hd,
        fun _ => segmentsIn_of_elements_nil hd⟩, fr⟩
    · simp only [changed, hl]
      exact firm_append.2 ⟨firm_ofInlines (hf.new _ _ hl).1, firm_dropText.2 fr⟩

end Fits

end MailMerge.Word
