import MailMerge.Proofs.Rework
import MailMerge.Word.Edit

/-!
# Clearing up after a replacement

Runs that have lost text are tidied: their empty text elements go, and the run with them if only
its properties are left. A paragraph that has to stay where it is keeps its properties only. None of
this takes firm text away (`quiet_tidy`), and a whole revision is a row of sweeps
(`Revision.apply_sweeps`).
-/

namespace MailMerge.Word

open MailMerge.Xml

variable {gone : List Key → List Key → Prop} {come : List Key → Prop} {n : Nat} {a : List Key}

theorem withoutEmptyText_swept (hg : ∀ k : Key, k.name = Names.text → ∀ w, gone w (k :: a)) :
    ∀ c : Content, Swept gone come n a c (withoutEmptyText c)
  | .nil => .nil
  | .text _ rest => .text (withoutEmptyText_swept hg rest)
  | .markup _ rest => .markup (withoutEmptyText_swept hg rest)
  | .element tag inner rest => by
    have hr := withoutEmptyText_swept hg rest
    simp only [withoutEmptyText]
    split
    · next h =>
      simp only [Bool.and_eq_true, decide_eq_true_eq] at h
      exact .lose (fun w _ => hg (key tag) h.1 w) hr.dropText
    · exact .keep rfl (fun _ => ⟨rfl, rfl⟩) (.refl inner) hr

theorem firm_withoutEmptyText {run : Option Nat} : ∀ {c : Content}, Firm run c →
    Firm run (withoutEmptyText c)
  | .nil, _ => trivial
  | .text _ rest, h | .markup _ rest, h => firm_withoutEmptyText (c := rest) h
  | .element _ _ _, ⟨hs, hi, hr⟩ => by
    simp only [withoutEmptyText]
    split
    · exact firm_dropText.2 (firm_withoutEmptyText hr)
    · exact ⟨hs, hi, firm_withoutEmptyText hr⟩

theorem legible_withoutEmptyText {run : Option Nat} : ∀ {c : Content}, Legible run c →
    Legible run (withoutEmptyText c)
  | .nil, _ => trivial
  | .text _ rest, h | .markup _ rest, h => legible_withoutEmptyText (c := rest) h
  | .element _ _ _, ⟨hs, hi, hr⟩ => by
    simp only [withoutEmptyText]
    split
    · exact legible_dropText.2 (legible_withoutEmptyText hr)
    · exact ⟨hs, hi, legible_withoutEmptyText hr⟩

/-- Empty text elements show nothing. -/
theorem pieces_withoutEmptyText {r : Nat} : ∀ {c : Content}, Legible (some r) c →
    pieces (segmentsIn (some r) (withoutEmptyText c)) = pieces (segmentsIn (some r) c) ∧
      (segmentsIn (some r) c = [] → segmentsIn (some r) (withoutEmptyText c) = [])
  | .nil, _ => ⟨rfl, id⟩
  | .text _ rest, h | .markup _ rest, h => pieces_withoutEmptyText (c := rest) h
  | .element tag inner rest, ⟨hs, hi, hr⟩ => by
    obtain ⟨h₁, h₂⟩ := pieces_withoutEmptyText hr
    simp only [withoutEmptyText]
    split
    · next h =>
      simp only [Bool.and_eq_true, decide_eq_true_eq] at h
      have hq : Segment.of? r tag inner = some ⟨tag.id, r, [], true⟩ := by
        simp [Segment.of?, h]
      have he : segmentsIn (some r) (.element tag inner rest) =
          ⟨tag.id, r, [], true⟩ :: segmentsIn (some r) rest := by
        rw [segmentsIn_leaf (hs rfl (h.1 ▸ by decide))]
        simp [hq]
      refine ⟨?_, ?_⟩
      · rw [segmentsIn_dropText, he, h₁, pieces_cons]
        simp
      · simp [he]
    · refine ⟨?_, fun hn => ?_⟩
      · simp only [segmentsIn, pieces_append, h₁]
      · simp only [segmentsIn, List.append_eq_nil_iff] at hn ⊢
        exact ⟨hn.1, h₂ hn.2⟩

theorem segmentsIn_of_isBare {run : Option Nat} : ∀ {c : Content}, isBare c = true →
    Legible run c → segmentsIn run c = []
  | .nil, _, _ => rfl
  | .text _ rest, h, hf => segmentsIn_of_isBare (c := rest) h hf
  | .markup _ _, h, _ => by cases h
  | .element tag inner rest, h, ⟨_, hi, hr⟩ => by
    simp only [isBare, Bool.and_eq_true, decide_eq_true_eq] at h
    have hs : ∀ r, Segment.of? r tag inner = none := fun r =>
      of?_eq_none.2 (h.1 ▸ by decide)
    have hc : tag.name ∉ Names.concealing := h.1 ▸ by decide
    cases run <;> simp [segmentsIn, hs, hc, (hi hc).2 h.1, segmentsIn_of_isBare h.2 hr]

/-! ## Tidying a run -/

/-- Whether what has a number in content is a run, and not one of a paragraph in it. -/
def OwnRun (r : Nat) (a : List Key) (c : Content) : Prop :=
  ∀ k v, k :: (v ++ a) ∈ trails a c → k.id = r →
    k.name = Names.run ∧ ∀ x ∈ v, x.name ≠ Names.paragraph

theorem OwnRun.hole {r : Nat} {h : Hole} {tag : Tag} {inner rest : Content}
    (ho : OwnRun r a (h.fill (.element tag inner rest))) (ht : tag.id = r) :
    tag.name = Names.run ∧ ∀ t ∈ h.above, t.name ≠ Names.paragraph := by
  obtain ⟨h₁, h₂⟩ := ho (key tag) (h.above.map key) trail_mem_fill ht
  exact ⟨h₁, fun t ht => h₂ (key t) (List.mem_map_of_mem ht)⟩

/-- What goes with a revision: elements that show text, and runs with nothing left in them but
their properties. -/
inductive Spent : List Key → List Key → Prop
  | shown {w : List Key} {k m : Key} {u : List Key} (hk : k.name ∈ Names.showing)
      (hm : m.name = Names.run) : Spent w (k :: m :: u)
  | run {k : Key} {u : List Key} (hk : k.name = Names.run) : Spent [] (k :: u)
  | inRun {w : List Key} {m k : Key} {u : List Key}
      (hm : m.name = Names.runProperties ∨ m.name = Names.text) (hk : k.name = Names.run) :
      Spent (w ++ [m]) (k :: u)

theorem last_mem_childKeys {above t : List Key} : ∀ {c : Content}, t ∈ trails above c →
    ∃ w k, t = w ++ k :: above ∧ k ∈ childKeys c
  | .text _ rest, h | .markup _ rest, h => last_mem_childKeys (c := rest) h
  | .element tag inner rest, h => by
    simp only [mem_trails_element] at h
    simp only [childKeys, Content.children, List.map_cons, List.mem_cons]
    rcases h with rfl | h | h
    · exact ⟨[], key tag, rfl, .inl rfl⟩
    · obtain ⟨k, u, rfl⟩ := above_suffix h
      exact ⟨k :: u, key tag, rfl, .inl rfl⟩
    · obtain ⟨w, k, rfl, hk⟩ := last_mem_childKeys h
      exact ⟨w, k, rfl, .inr hk⟩

/-- What is in a run that has nothing left but its properties. -/
theorem childKeys_of_isBare : ∀ {c : Content}, isBare (withoutEmptyText c) = true →
    ∀ k ∈ childKeys c, k.name = Names.runProperties ∨ k.name = Names.text
  | .nil, _, k, hk => by simp [childKeys, Content.children] at hk
  | .text _ rest, h, k, hk => childKeys_of_isBare (c := rest) h k hk
  | .markup _ _, h, _, _ => by cases h
  | .element tag inner rest, h, k, hk => by
    have hd : ∀ {c : Content}, isBare c.dropText = true → isBare c = true := by
      intro c
      induction c with
      | text _ _ ih => exact ih
      | nil | markup _ _ _ | element _ _ _ _ _ => exact id
    simp only [childKeys, Content.children, List.map_cons, List.mem_cons] at hk
    simp only [withoutEmptyText] at h
    split at h
    · next ht =>
      simp only [Bool.and_eq_true, decide_eq_true_eq] at ht
      rcases hk with rfl | hk
      · exact .inr ht.1
      · exact childKeys_of_isBare (hd h) k hk
    · simp only [isBare, Bool.and_eq_true, decide_eq_true_eq] at h
      rcases hk with rfl | hk
      · exact .inl h.1
      · exact childKeys_of_isBare h.2 k hk

/-- What a run, with what is behind it, is tidied to. -/
inductive TidiedRun (tag : Tag) (inner rest : Content) : Content → Prop
  | dropped (hb : isBare (withoutEmptyText inner) = true) : TidiedRun tag inner rest rest.dropText
  | kept : TidiedRun tag inner rest (.element tag (withoutEmptyText inner) rest)

namespace TidiedRun

variable {tag : Tag} {inner rest new : Content} {run : Option Nat}
  (h : TidiedRun tag inner rest new) (hr : tag.name = Names.run)

include h hr

/-- With the run what is in it goes, or its empty text elements do. -/
theorem swept_of (hg : isBare (withoutEmptyText inner) = true →
      ∀ w, w ++ key tag :: a ∈ trails a (.element tag inner .nil) → gone w (key tag :: a))
    (ht : ∀ k : Key, k.name = Names.text → ∀ w, gone w (k :: key tag :: a)) :
    Swept gone come n a (.element tag inner rest) new := by
  cases h with
  | dropped hb => exact .lose (hg hb) (Swept.refl rest).dropText
  | kept =>
    refine .keep rfl (fun hp => ?_) (withoutEmptyText_swept ht inner) (.refl rest)
    exact absurd (hr.symm.trans hp) (by decide)

theorem swept : Swept Spent come n a (.element tag inner rest) new := by
  refine h.swept_of hr (fun hb w hw => ?_) fun k hk w => .shown (hk ▸ by decide) hr
  -- What goes with the run is in its properties, or in its empty text elements.
  simp only [trails, List.append_nil, List.mem_cons] at hw
  rcases hw with hw | hw
  · obtain rfl : w = [] := List.append_left_eq_self.1 hw
    exact .run hr
  · obtain ⟨v, m, hv, hm⟩ := last_mem_childKeys hw
    obtain rfl : w = v ++ [m] := List.append_cancel_right (by simpa using hv)
    exact .inRun (childKeys_of_isBare hb m hm) hr

theorem firm (hf : Firm run (.element tag inner rest)) : Firm run new := by
  have hc : tag.name ∉ Names.concealing := hr ▸ by decide
  cases h with
  | dropped => exact firm_dropText.2 hf.2.2
  | kept =>
    exact ⟨fun _ hn => absurd hn (hr ▸ by decide), fun _ => ⟨firm_withoutEmptyText (hf.2.1 hc).1,
      fun hs => absurd hs (hr ▸ by decide)⟩, hf.2.2⟩

theorem legible (hl : Legible run (.element tag inner rest)) : Legible run new := by
  have hc : tag.name ∉ Names.concealing := hr ▸ by decide
  cases h with
  | dropped => exact legible_dropText.2 hl.2.2
  | kept =>
    exact ⟨fun _ hn => absurd hn (hr ▸ by decide), fun _ => ⟨legible_withoutEmptyText (hl.2.1 hc).1,
      fun hs => absurd hs (hr ▸ by decide)⟩, hl.2.2⟩

/-- A run shows the same when it is tidied. -/
theorem pieces (hl : Legible run (.element tag inner rest)) :
    pieces (segmentsIn run new) = pieces (segmentsIn run (.element tag inner rest)) ∧
      (segmentsIn run (.element tag inner rest) = [] → segmentsIn run new = []) := by
  have hrun : runOf tag = some tag.id := by simp [runOf, hr]
  have hc : tag.name ∉ Names.concealing := hr ▸ by decide
  have hs : ∀ d, run.bind (fun r => Segment.of? r tag d) = none := by
    intro d
    cases run with
    | none => rfl
    | some r => exact of?_eq_none.2 (hr ▸ by decide)
  have hi := hrun ▸ (hl.2.1 hc).1
  obtain ⟨h₁, h₂⟩ := pieces_withoutEmptyText hi
  simp only [segmentsIn, hs, hc, hrun, if_false, Option.toList_none, List.nil_append,
    List.append_eq_nil_iff, pieces_append]
  cases h with
  | dropped hb =>
    rw [segmentsIn_of_isBare hb (legible_withoutEmptyText hi), pieces_nil] at h₁
    rw [← h₁, segmentsIn_dropText]
    exact ⟨rfl, fun hn => hn.2⟩
  | kept =>
    simp only [segmentsIn, hs, hc, hrun, if_false, Option.toList_none, List.nil_append,
      List.append_eq_nil_iff, pieces_append, h₁]
    exact ⟨trivial, fun hn => ⟨h₂ hn.1, hn.2⟩⟩

end TidiedRun

section Tidy

variable {r : Nat} {c : Content} (hn : c.ids.Nodup) (ho : OwnRun r a c)

include hn ho

theorem tidy_cases : tidy r c = c ∨ ∃ (h : Hole) (tag : Tag) (inner rest new : Content),
    c = h.fill (.element tag inner rest) ∧ tidy r c = h.fill new ∧ TidiedRun tag inner rest new ∧
      tag.id = r ∧ tag.name = Names.run ∧ ∀ t ∈ h.above, t.name ≠ Names.paragraph := by
  unfold tidy
  rcases hp : c.place? r with _ | ⟨⟨tag, inner⟩, around⟩
  · exact .inl rfl
  obtain ⟨h, rest, rfl, ht, -⟩ := Content.place?_eq hn hp
  obtain ⟨hr, hpar⟩ := ho.hole ht
  obtain rfl : tag.id = r := ht
  have hid := Hole.id_notMem hn
  simp only
  split
  · next hb =>
    exact .inr ⟨h, tag, inner, rest, _, rfl, Hole.erase_fill hid.1, .dropped hb, rfl, hr, hpar⟩
  · exact .inr ⟨h, tag, inner, rest, _, rfl, Hole.update_fill hid.2.2 hid.1, .kept, rfl, hr, hpar⟩

theorem tidy_swept : Swept Spent come n a c (tidy r c) := by
  rcases tidy_cases hn ho with he | ⟨h, tag, inner, rest, new, rfl, he, ht, -, hr, hpar⟩ <;> rw [he]
  · exact .refl c
  · exact .fill hpar (ht.swept hr)

theorem quiet_tidy : Quiet c (tidy r c) := by
  rcases tidy_cases hn ho with he | ⟨h, tag, inner, rest, new, rfl, he, ht, -, hr, -⟩ <;> rw [he]
  · exact .refl c
  · refine Quiet.fill (by simp [Content.elements]) (fun run hf => ?_) h
    obtain ⟨h₁, h₂⟩ := ht.pieces hr hf.legible
    exact ⟨ht.firm hr hf, h₁, h₂⟩

end Tidy

theorem ownRun_of_segment {c : Content} (hn : c.ids.Nodup) {s : Segment}
    (hs : s ∈ segmentsIn none c) : s.run ∈ c.ids ∧ OwnRun s.run a c := by
  obtain ⟨k, -, -, ⟨hr, -⟩ | ⟨m, v, ht, hm, hr, hv⟩⟩ := segment_trail a hs
  · cases hr
  have hmt : m :: (v ++ a) ∈ trails a c :=
    suffix_mem_trails (u := [k]) ht (by simp only [List.length_cons, List.length_append]; omega)
  refine ⟨mem_ids_iff_trail.2 ⟨m, _, hmt, hm⟩, fun k' v' hk' hi => ?_⟩
  obtain ⟨rfl, he⟩ := List.cons.inj (trail_eq_of_id hn hk' hmt (hi.trans hm.symm))
  obtain rfl := List.append_cancel_right he
  exact ⟨hr, fun x hx hp => (hv x hx).1 (hp ▸ by decide)⟩

theorem OwnRun.shift {r : Nat} {c c' : Content} (ho : OwnRun r a c)
    (h : Shift gone come n (trails a c) (trails a c')) (hr : r < n) : OwnRun r a c' := by
  intro k v hk hi
  refine ho k v (h.order.subset (List.mem_filter.2 ⟨hk, ?_⟩)) hi
  simpa [hi] using hr

theorem OwnRun.swept {r : Nat} {c c' : Content} (ho : OwnRun r a c)
    (h : Swept gone come n a c c') (hr : r < n) : OwnRun r a c' := ho.shift h.shift hr

/-- Sweeps by which a revision goes on. -/
abbrev Sweeps (come : List Key → Prop) (n : Nat) (a : List Key) : Content → Content → Prop :=
  Relation.ReflTransGen (Swept Spent come n a)

theorem Sweeps.shift {c c' : Content} (h : Sweeps come n a c c') :
    Shift Spent come n (trails a c) (trails a c') := by
  induction h with
  | refl => exact .refl _
  | tail _ h ih => exact ih.trans h.shift (Nat.le_refl n)

theorem Sweeps.paragraph_mem {c c' : Content} (h : Sweeps come n a c c') {q : Element}
    (hq : q ∈ c'.elements) (hp : q.tag.name = Names.paragraph) : q ∈ c.elements := by
  induction h with
  | refl => exact hq
  | tail _ h ih => exact ih (h.paragraph_mem hq hp)

theorem tidy_all : ∀ (rs : List Nat) {c : Content}, c.ids.Nodup →
    (∀ r ∈ rs, r < n ∧ OwnRun r a c) →
      Sweeps come n a c (rs.foldl (fun c r => tidy r c) c) ∧
        Quiet c (rs.foldl (fun c r => tidy r c) c) ∧
          (rs.foldl (fun c r => tidy r c) c).ids.Sublist c.ids
  | [], c, _, _ => ⟨.refl, .refl c, .refl _⟩
  | r :: rs, c, hn, ho => by
    obtain ⟨hr, hor⟩ := ho r (by simp)
    have hs : ∀ come, Swept Spent come n a c (tidy r c) := fun come => tidy_swept hn hor
    have hids : (tidy r c).ids.Sublist c.ids := (hs fun _ => False).ids_sublist fun _ => id
    obtain ⟨h₁, h₂, h₃⟩ := tidy_all rs (hn.sublist hids) fun i hi =>
      ⟨(ho i (List.mem_cons_of_mem _ hi)).1, (ho i (List.mem_cons_of_mem _ hi)).2.swept
        (hs come) (ho i (List.mem_cons_of_mem _ hi)).1⟩
    exact ⟨.head (hs come) h₁, (quiet_tidy hn hor).trans h₂, h₃.trans hids⟩

/-! ## Revisions -/

/-- The trails of elements that text is written in: each in the place of one that showed text. -/
inductive Written (n : Nat) (ts : List (List Key)) : List Key → Prop
  | mk {k k' m : Key} {u : List Key} (ht : k :: m :: u ∈ ts) (hk : k.name ∈ Names.showing)
      (hm : m.name = Names.run) (hk' : k'.name ∈ Names.showing) (hn : n ≤ k'.id) :
      Written n ts (k' :: m :: u)

section Revision

variable {c : Content} {r : Revision} (hn : c.ids.Nodup) (hl : ∀ i ∈ c.ids, i < n)
  (hf : Fits n r.changes none c) (ht : ∀ i ∈ r.touched, ∃ s ∈ segmentsIn none c, s.run = i)
  (ha : r.appended = .nil)

include hn hf in
/-- The elements in the place of which others come are those that show text in a run. -/
theorem changed_sweeps : Swept Spent (Written n (trails a c)) n a c (changed r.changes c) := by
  refine changed_swept hn hf fun k u x hk hx => ?_
  have hk' : k.id ∈ c.ids := mem_ids_iff_trail.2 ⟨k, u, hk, rfl⟩
  obtain ⟨s, hs, hi, -⟩ := hf.node _ hk' _ hx
  obtain ⟨k', hi', hs', ⟨hr, -⟩ | ⟨m, v, ht, -, hm, -⟩⟩ := segment_trail a hs
  · cases hr
  obtain ⟨rfl, rfl⟩ := List.cons.inj (trail_eq_of_id hn hk ht (hi.symm.trans hi'.symm))
  exact ⟨fun w => .shown hs' hm, fun k' hk' hn' => .mk ht hs' hm hk' hn'⟩

include hn hl hf ht ha

/-- A revision that only changes elements: its structure, its numbers and its text. -/
theorem Revision.apply_sweeps (hfr : Fresh n r.changes) :
    Sweeps (Written n (trails a c)) n a c (r.apply c) ∧
      (r.apply c).ids.Nodup ∧ (r.apply c).ids.Sublist (changed r.changes c).ids ∧
        (Firm none c → Firm none (r.apply c) ∧ pieces (segmentsIn none (r.apply c)) =
          pieces ((segmentsIn none c).flatMap (applied r.changes))) := by
  have hc := changed_sweeps (a := a) hn hf
  have hnc := nodup_changed hfr hn hl
  have ho : ∀ i ∈ r.touched, i < n ∧ OwnRun i a (changed r.changes c) := by
    intro i hi
    obtain ⟨s, hs, rfl⟩ := ht i hi
    obtain ⟨hm, ho⟩ := ownRun_of_segment (a := a) hn hs
    exact ⟨hl _ hm, ho.swept hc (hl _ hm)⟩
  have he : r.apply c = r.touched.foldl (fun c r => tidy r c) (changed r.changes c) := by
    simp [Revision.apply, ha]
  obtain ⟨h₁, h₂, h₃⟩ : Sweeps (Written n (trails a c)) n a (changed r.changes c) _ ∧ _ :=
    tidy_all r.touched hnc ho
  rw [he]
  refine ⟨.head hc h₁, hnc.sublist h₃, h₃, fun h => ?_⟩
  obtain ⟨hf', hp, -⟩ := h₂ none (firm_changed hn hf h)
  exact ⟨hf', by rw [hp, segmentsIn_changed hn hf h.legible.leafed]⟩

end Revision

/-! ## Emptying a paragraph -/

theorem propertiesOf_swept
    (hg : ∀ k : Key, k.name ≠ Names.paragraphProperties → ∀ w, gone w (k :: a)) :
    ∀ c : Content, Swept gone come n a c (Edit.propertiesOf c)
  | .nil => .nil
  | .text _ rest => .text (propertiesOf_swept hg rest)
  | .markup _ rest => .loseMarkup (propertiesOf_swept hg rest).dropText
  | .element tag inner rest => by
    have hr := propertiesOf_swept hg rest
    simp only [Edit.propertiesOf]
    split
    · exact .keep rfl (fun _ => ⟨rfl, rfl⟩) (.refl inner) hr
    · next h => exact .lose (fun w _ => hg (key tag) h w) hr.dropText

theorem propertiesOf_segments (run : Option Nat) : ∀ c : Content,
    (segmentsIn run (Edit.propertiesOf c)).Sublist (segmentsIn run c) ∧
      (Firm run c → Firm run (Edit.propertiesOf c))
  | .nil => ⟨.slnil, id⟩
  | .text _ rest => propertiesOf_segments run rest
  | .markup _ rest => by
    simpa [Edit.propertiesOf, Firm, segmentsIn] using propertiesOf_segments run rest
  | .element tag inner rest => by
    obtain ⟨h₁, h₂⟩ := propertiesOf_segments run rest
    simp only [Edit.propertiesOf]
    split
    · exact ⟨(List.Sublist.refl _).append h₁, fun h => ⟨h.1, h.2.1, h₂ h.2.2⟩⟩
    · simp only [segmentsIn_dropText, firm_dropText]
      exact ⟨h₁.trans (List.sublist_append_right _ _), fun h => h₂ h.2.2⟩

theorem pieces_sublist {s t : List Segment} (h : s.Sublist t) : (pieces s).Sublist (pieces t) :=
  (h.filter _).map _

end MailMerge.Word
