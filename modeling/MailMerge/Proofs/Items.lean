import MailMerge.Proofs.Copies
import MailMerge.Proofs.Grown

/-!
# List items

A list item is a paragraph of its own, with copies of the properties of the paragraph it is put
behind and of those of the first run there (`ItemOf`). It shows what the paragraph's properties
show, which is nothing in most documents, and its own line (`ItemOf.shown`). Its trails are made out
of those of the other paragraph (`ItemOf.made`).
-/

namespace MailMerge.Word

open MailMerge.Xml MailMerge.Xml.Reader

/-- A list item made behind `e`, but for its numbers and prefixes. -/
def ItemOf (e : Element) (cs : List Char) (new : Element) : Prop :=
  ∃ (properties formatting : Content) (lead : Option String),
    CopyOf Names.paragraphProperties e properties ∧
      FormattingOf e formatting ∧
        (Content.element new.tag new.inner .nil).face =
          (Content.element (newTag Names.paragraph none) (properties ++ if cs = [] then .nil else
            newRun lead (formatting ++ textContent lead cs)) .nil).face

/-- Content around which nothing is concealed is firm if all is. -/
theorem firm_of_fill {tag : Tag} {inner rest : Content} : ∀ {h : Hole} {run : Option Nat},
    (∀ t ∈ h.above, t.name ∉ Names.concealing) → Firm run (h.fill (.element tag inner rest)) →
      ∃ run', Firm run' (.element tag inner rest)
  | .here, run, _, hf => ⟨run, hf⟩
  | .text _ h, _, ha, hf | .markup _ h, _, ha, hf => firm_of_fill (h := h) ha hf
  | .behind _ _ h, _, ha, hf => firm_of_fill (h := h) ha hf.2.2
  | .inside t h _, _, ha, hf =>
    firm_of_fill (h := h) (fun x hx => ha x (List.mem_append_left _ hx))
      (hf.2.1 (ha t (List.mem_append_right _ (List.mem_singleton_self t)))).1

theorem legible_of_fill {tag : Tag} {inner rest : Content} : ∀ {h : Hole} {run : Option Nat},
    (∀ t ∈ h.above, t.name ∉ Names.concealing) → Legible run (h.fill (.element tag inner rest)) →
      ∃ run', Legible run' (.element tag inner rest)
  | .here, run, _, hf => ⟨run, hf⟩
  | .text _ h, _, ha, hf | .markup _ h, _, ha, hf => legible_of_fill (h := h) ha hf
  | .behind _ _ h, _, ha, hf => legible_of_fill (h := h) ha hf.2.2
  | .inside t h _, _, ha, hf =>
    legible_of_fill (h := h) (fun x hx => ha x (List.mem_append_left _ hx))
      (hf.2.1 (ha t (List.mem_append_right _ (List.mem_singleton_self t)))).1

/-- The first run is a run of the paragraph's own. -/
theorem firstRun?_spec {e r : Element} (hn : e.inner.ids.Nodup) (h : firstRun? e = some r) :
    r.tag.name = Names.run ∧ ∃ (k : Hole) (rest : Content),
      e.inner = k.fill (.element r.tag r.inner rest) ∧
        ∀ t ∈ k.above, t.name ∉ Names.concealing := by
  obtain ⟨s, hs, hp⟩ := Option.bind_eq_some_iff.1 h
  obtain ⟨place, hplace, rfl⟩ := Option.map_eq_some_iff.1 hp
  obtain ⟨k, rest, hk, hid, -⟩ := Content.place?_eq hn hplace
  obtain ⟨x, -, -, ⟨hr, -⟩ | ⟨m, v, ht, hm, hmr, hv⟩⟩ :=
    segment_trail [] (List.mem_of_find?_eq_some hs)
  · cases hr
  have hmt := suffix_mem_trails (u := [x]) ht (by simp)
  have htr : key place.element.tag :: Around.trail k [] ∈ trails [] e.inner :=
    hk ▸ trail_mem_fill
  obtain ⟨rfl, hvk⟩ := List.cons.inj (trail_eq_of_id hn hmt htr (hm.trans hid.symm))
  refine ⟨hmr, k, rest, hk, fun t ht => ?_⟩
  have : key t ∈ v := by
    simp only [Around.trail, List.append_nil] at hvk
    exact hvk ▸ List.mem_map_of_mem ht
  exact (hv _ this).1

namespace ItemOf

variable {e new : Element} {cs : List Char}

theorem name (h : ItemOf e cs new) : new.tag.name = Names.paragraph := by
  obtain ⟨_, _, _, -, -, h⟩ := h
  obtain ⟨_, _, _, he, hn, -⟩ := Content.eq_element_of_face h
  cases he
  exact hn

end ItemOf

section Copies

variable {e new r : Element} {cs : List Char} {c : Content} {i : Nat}

/-- Copies of the properties of a legible run show nothing. -/
theorem formatting_shown (hr : Legible (some i) r.inner) (h : CopyOf Names.runProperties r c) :
    Legible (some i) c ∧ segmentsIn (some i) c = [] := by
  rcases h.cases with rfl | ⟨p, hp, hn, tail, hf⟩
  · exact ⟨trivial, rfl⟩
  obtain ⟨front, rest, hrest⟩ := Content.exists_of_mem_children hp
  rw [hrest, legible_append] at hr
  obtain ⟨-, -, hin, -⟩ := hr
  obtain ⟨hin, hnil⟩ := hin (hn ▸ by decide)
  have hs : Segment.of? i p.tag p.inner = none := of?_eq_none.2 (hn ▸ by decide)
  constructor
  · refine (legible_of_face hf rfl).2 ⟨fun _ hm => absurd hm (hn ▸ by decide),
      fun _ => ⟨hin, hnil⟩, ?_⟩
    exact trivial
  · have := looks_of_face hf (show (some i).isSome = (some i).isSome from rfl)
    simpa [segmentsIn, hs, hnil hn] using this

theorem formatting_firm (hr : Firm (some i) r.inner) (h : CopyOf Names.runProperties r c) :
    Firm (some i) c := by
  rcases h.cases with rfl | ⟨p, hp, hn, tail, hf⟩
  · exact trivial
  obtain ⟨front, rest, hrest⟩ := Content.exists_of_mem_children hp
  rw [hrest, firm_append] at hr
  obtain ⟨-, -, hin, -⟩ := hr
  refine (firm_of_face hf rfl).2 ⟨fun _ hm => absurd hm (hn ▸ by decide), hin, ?_⟩
  exact trivial

/-- Copies of the properties of a legible paragraph show what these show. -/
theorem properties_shown (he : Legible none e.inner) (h : CopyOf Names.paragraphProperties e c) :
    Legible none c ∧ (segmentsIn none c = [] ∨ ∃ p ∈ e.inner.children,
      p.tag.name = Names.paragraphProperties ∧
        (segmentsIn none c).map Segment.look = (segmentsIn none p.inner).map Segment.look) := by
  rcases h.cases with rfl | ⟨p, hp, hn, tail, hf⟩
  · exact ⟨trivial, .inl rfl⟩
  obtain ⟨front, rest, hrest⟩ := Content.exists_of_mem_children hp
  rw [hrest, legible_append] at he
  obtain ⟨-, -, hin, -⟩ := he
  have hr : runOf p.tag = none := if_neg (hn ▸ by decide)
  have hc : p.tag.name ∉ Names.concealing := hn ▸ by decide
  refine ⟨(legible_of_face hf rfl).2 ⟨fun h => (by cases h), hin, trivial⟩, .inr ⟨p, hp, hn, ?_⟩⟩
  rw [looks_of_face hf rfl]
  simp [segmentsIn, hc, hr]

theorem properties_firm (he : Firm none e.inner) (h : CopyOf Names.paragraphProperties e c) :
    Firm none c := by
  rcases h.cases with rfl | ⟨p, hp, hn, tail, hf⟩
  · exact trivial
  obtain ⟨front, rest, hrest⟩ := Content.exists_of_mem_children hp
  rw [hrest, firm_append] at he
  obtain ⟨-, -, hin, -⟩ := he
  exact (firm_of_face hf rfl).2 ⟨fun h => (by cases h), hin, trivial⟩

end Copies

namespace ItemOf

variable {e new : Element} {cs : List Char}

theorem inner (h : ItemOf e cs new) : ∃ (properties formatting : Content) (lead : Option String),
    CopyOf Names.paragraphProperties e properties ∧
      FormattingOf e formatting ∧
        new.inner.face = (properties ++ if cs = [] then .nil else
          newRun lead (formatting ++ textContent lead cs)).face := by
  obtain ⟨properties, formatting, lead, hp, hr, h⟩ := h
  obtain ⟨_, _, _, he, -, hf, -⟩ := Content.eq_element_of_face h
  cases he
  exact ⟨properties, formatting, lead, hp, hr, hf⟩

/-- The first run of a paragraph with legible text has legible text. -/
theorem legible_firstRun {r : Element} (hn : e.inner.ids.Nodup) (he : Legible none e.inner)
    (hr : firstRun? e = some r) (i : Nat) : Legible (some i) r.inner := by
  obtain ⟨hrn, k, rest, hk, ha⟩ := firstRun?_spec hn hr
  obtain ⟨run', hfill⟩ := legible_of_fill ha (hk ▸ he)
  have hin := (hfill.2.1 (hrn ▸ by decide)).1
  rw [runOf, if_pos hrn] at hin
  exact (legible_of_face rfl (show (some r.tag.id).isSome = (some i).isSome from rfl)).1 hin

theorem firm_firstRun {r : Element} (hn : e.inner.ids.Nodup) (he : Firm none e.inner)
    (hr : firstRun? e = some r) (i : Nat) : Firm (some i) r.inner := by
  obtain ⟨hrn, k, rest, hk, ha⟩ := firstRun?_spec hn hr
  obtain ⟨run', hfill⟩ := firm_of_fill ha (hk ▸ he)
  have hin := (hfill.2.1 (hrn ▸ by decide)).1
  rw [runOf, if_pos hrn] at hin
  exact (firm_of_face rfl (show (some r.tag.id).isSome = (some i).isSome from rfl)).1 hin

/-- The formatting of a list item shows nothing. -/
theorem formattingOf_shown {formatting : Content} (hn : e.inner.ids.Nodup)
    (he : Legible none e.inner) (h : FormattingOf e formatting) (i : Nat) :
    Legible (some i) formatting ∧ segmentsIn (some i) formatting = [] := by
  rcases h with ⟨-, rfl⟩ | ⟨r, hr, hc⟩
  · exact ⟨trivial, rfl⟩
  · exact formatting_shown (legible_firstRun hn he hr i) hc

/-- What is shown in the run of a list item: its line, and nothing of the formatting. -/
theorem run_shown {formatting : Content} (hn : e.inner.ids.Nodup) (he : Legible none e.inner)
    (h : FormattingOf e formatting) (i : Nat) (lead : Option String) (cs : List Char) :
    Legible (some i) (formatting ++ textContent lead cs) ∧
      segmentsIn (some i) (formatting ++ textContent lead cs) =
        segmentsIn (some i) (textContent lead cs) ∧
      shownBy (segmentsIn (some i) (textContent lead cs)) = lineFeeds cs := by
  obtain ⟨hl, hnil⟩ := formattingOf_shown hn he h i
  refine ⟨legible_append.2 ⟨hl, (firm_ofInlines (ofInlines_textContent lead cs)).legible⟩,
    by rw [segmentsIn_append, hnil, List.nil_append], ?_⟩
  rw [shownBy_eq, textContent, (ofInlines_ofList lead _).2, ← inlines_shown]
  simp [List.flatMap_map]

theorem segmentsIn_newRun (lead : Option String) (c : Content) :
    segmentsIn none (newRun lead c) = segmentsIn (some 0) c := by
  have hc : (newTag Names.run lead).name ∉ Names.concealing :=
    (by decide : Names.run ∉ Names.concealing)
  have hr : runOf (newTag Names.run lead) = some 0 := rfl
  rw [newRun, segmentsIn, if_neg hc]
  simp [hr, segmentsIn]

theorem firm (h : ItemOf e cs new) (hn : e.inner.ids.Nodup) (he : Firm none e.inner) :
    Firm none new.inner := by
  obtain ⟨properties, formatting, lead, hp, hr, hf⟩ := h.inner
  refine (firm_of_face hf (show (none : Option Nat).isSome = _ from rfl)).2
    (firm_append.2 ⟨properties_firm he hp, ?_⟩)
  split
  · exact trivial
  · refine ⟨fun h => (by cases h), fun _ => ⟨?_, fun h => absurd h ?_⟩, trivial⟩
    swap
    · exact (by decide : Names.run ∉ Names.shedding)
    refine firm_append.2 ⟨?_, firm_ofInlines (ofInlines_textContent lead cs)⟩
    rcases hr with ⟨-, rfl⟩ | ⟨r, hr, hc⟩
    · exact trivial
    · exact formatting_firm (firm_firstRun hn he hr _) hc

theorem legible (h : ItemOf e cs new) (hn : e.inner.ids.Nodup) (he : Legible none e.inner) :
    Legible none new.inner := by
  obtain ⟨properties, formatting, lead, hp, hr, hf⟩ := h.inner
  refine (legible_of_face hf (show (none : Option Nat).isSome = _ from rfl)).2
    (legible_append.2 ⟨(properties_shown he hp).1, ?_⟩)
  split
  · exact trivial
  · exact ⟨fun h => (by cases h), fun _ => ⟨(run_shown hn he hr _ lead cs).1,
      fun h => absurd h (by decide : Names.run ≠ Names.runProperties)⟩, trivial⟩

/-- An item shows what is in its copy of the properties, and its line. -/
theorem shown (h : ItemOf e cs new) (hn : e.inner.ids.Nodup) (he : Legible none e.inner) :
    ∃ u, Paragraph.text new = u ++ lineFeeds cs ∧
      (u = [] ∨ ∃ p ∈ e.inner.children, p.tag.name = Names.paragraphProperties ∧
        u = shownBy (segmentsIn none p.inner)) := by
  obtain ⟨properties, formatting, lead, hp, hr, hf⟩ := h.inner
  obtain ⟨-, hrun, htext⟩ := run_shown hn he hr 0 lead cs
  refine ⟨shownBy (segmentsIn none properties), ?_, ?_⟩
  · rw [Paragraph.text, Paragraph.segments, shownBy_of_face hf rfl, segmentsIn_append,
      shownBy_append]
    congr 1
    split
    · next hcs => rw [hcs]; rfl
    · rw [segmentsIn_newRun, hrun, htext]
  · refine (properties_shown he hp).2.imp (fun h => by rw [h]; rfl) ?_
    rintro ⟨p, hm, hn, hlook⟩
    exact ⟨p, hm, hn, by rw [shownBy_eq, hlook, ← shownBy_eq]⟩

end ItemOf

theorem trails_ofInlines {a t : List Key} : ∀ {c : Content}, OfInlines c → t ∈ trails a c →
    ∃ k : Key, k.name ∈ Names.showing ∧ t = k :: a
  | .element tag inner rest, ⟨hs, hi, hr⟩, ht => by
    simp only [trails, trails_of_elements_nil hi, List.cons_append, List.nil_append,
      List.mem_cons] at ht
    rcases ht with rfl | ht
    · exact ⟨key tag, hs, rfl⟩
    · exact trails_ofInlines hr ht

theorem exists_concat_of_map {α β : Type} {g : α → β} {l : List α} {v : List β} {x : β}
    (h : l.map g = v ++ [x]) : ∃ w y, l = w ++ [y] ∧ w.map g = v ∧ g y = x := by
  obtain ⟨w, l', rfl, hw, hl⟩ := List.map_eq_append_iff.1 h
  obtain ⟨y, rfl, hy⟩ := List.map_eq_singleton_iff.1 hl
  exact ⟨w, y, rfl, hw, hy⟩

/-- The trails in a copy, below the properties that it is a copy of. -/
theorem CopyOf.trails {name : Name} {e : Element} {c : Content} (h : CopyOf name e c)
    (a b : List Key) {t : List Key} (ht : t ∈ trails a c) :
    ∃ w x w' x', t = w ++ x :: a ∧ w' ++ x' :: b ∈ trails b e.inner ∧
      w.map Key.face = w'.map Key.face ∧ x.face = x'.face ∧ x'.name = name := by
  rcases h.cases with rfl | ⟨p, hpc, hpn, tail, hf⟩
  · cases ht
  obtain ⟨u, u', rfl, hu', hface⟩ := exists_trail_of_face (b := b) hf ht
  obtain ⟨w', x', hw', hx'⟩ := last_mem_childKeys hu'
  have hx' : x' = key p.tag := by simpa [childKeys, Content.children] using hx'
  obtain rfl : u' = w' ++ [x'] := by
    have : u' ++ b = (w' ++ [x']) ++ b := by simpa using hw'
    exact List.append_cancel_right this
  rw [List.map_append, List.map_singleton] at hface
  obtain ⟨w, x, rfl, hw, hx⟩ := exists_concat_of_map hface
  refine ⟨w, x, w', x', by simp, ?_, hw, hx, hx' ▸ hpn⟩
  obtain ⟨front, rest, hrest⟩ := Content.exists_of_mem_children hpc
  rw [hrest, trails_append, List.mem_append]
  simp only [Word.trails, List.cons_append, List.mem_cons, List.append_nil, List.mem_append,
    List.append_assoc] at hu' ⊢
  exact .inr (hu'.imp (by simp) .inl)

section Made

variable {e new : Element} {ts : List (List Key)} {u w w' : List Key}
  (hu : Made ts (key e.tag :: u)) (hin : ∀ t ∈ Word.trails (key e.tag :: u) e.inner, Made ts t)
  (hp : e.tag.name = Names.paragraph) (hnew : (key new.tag).name = Names.paragraph)
  (hface : w.map Key.face = w'.map Key.face)

include hu hin hp hnew hface

theorem CopyOf.made {properties : Content} (h : CopyOf Names.paragraphProperties e properties)
    (hw' : w' ∈ Word.trails [] properties) : Made ts (w ++ key new.tag :: u) := by
  obtain ⟨w₁, x₁, w₂, x₂, rfl, hmem, hw, hx, -⟩ := h.trails [] (key e.tag :: u) hw'
  have hold : Made ts ((w₂ ++ [x₂]) ++ key e.tag :: u) := hin _ (by simpa using hmem)
  refine .item hu hold ?_ hp hnew
  rw [hface, List.map_append, List.map_append, hw, List.map_singleton, List.map_singleton, hx]

theorem FormattingOf.made {formatting : Content} {m : Key} (h : FormattingOf e formatting)
    (hn : e.inner.ids.Nodup) (hm : m.name = Names.run) (hw' : w' ∈ trails [m] formatting) :
    Made ts (w ++ key new.tag :: u) := by
  rcases h with ⟨-, rfl⟩ | ⟨r₀, hr₀, hc⟩
  · cases hw'
  obtain ⟨hrn₀, k, rest, hk, -⟩ := firstRun?_spec hn hr₀
  obtain ⟨w₂, x₂, w₃, x₃, rfl, hmem, hw, hx, hxn⟩ :=
    hc.trails _ (key r₀.tag :: Around.trail k (key e.tag :: u)) hw'
  obtain ⟨w₁, r, rfl, hw₁, hr⟩ : ∃ w₁ r, w = w₁ ++ [r] ∧
      w₁.map Key.face = w₂.map Key.face ++ [x₂.face] ∧ r.face = m.face :=
    exists_concat_of_map (by simpa using hface)
  obtain ⟨w₄, x, rfl, hw₄, hx₄⟩ := exists_concat_of_map hw₁
  have hrn : r.name = Names.run := (congrArg Key.name hr).trans hm
  have hmade : Made ts (w₃ ++ x₃ :: key r₀.tag :: (k.above.map key ++ key e.tag :: u)) :=
    hin _ (hk ▸ trails_inner_subset hmem)
  have := Made.formatting hu hmade (hw₄.trans hw) hp hnew hrn hrn₀ (hx₄.trans hx) hxn
  simpa using this

omit hin in
theorem OfInlines.made {shown : Content} {m : Key} (h : OfInlines shown)
    (hm : m.name = Names.run) (hw' : w' ∈ trails [m] shown) : Made ts (w ++ key new.tag :: u) := by
  obtain ⟨x, hx, rfl⟩ := trails_ofInlines h hw'
  obtain ⟨w₁, r, rfl, hw₁, hr⟩ := exists_concat_of_map (v := [x.face]) hface
  obtain ⟨y, rfl, hy⟩ := List.map_eq_singleton_iff.1 hw₁
  have hyf : y.face.name = x.face.name := congrArg Key.name hy
  have hyx : y.name = x.name := hyf
  exact .shown hu hp hnew ((congrArg Key.name hr).trans hm) (hyx ▸ hx)

end Made

/-- The trails of a list item are made out of those of the paragraph it stands behind. -/
theorem ItemOf.made {e new : Element} {cs : List Char} (h : ItemOf e cs new)
    (hn : e.inner.ids.Nodup) (hp : e.tag.name = Names.paragraph) {ts : List (List Key)}
    {u : List Key} (hts : ∀ t ∈ trails u (.element e.tag e.inner .nil), t ∈ ts) :
    ∀ t ∈ trails u (.element new.tag new.inner .nil), Made ts t := by
  intro t ht
  have hu : Made ts (key e.tag :: u) := .old (hts _ (mem_trails_element.2 (.inl rfl)))
  have hin : ∀ t ∈ trails (key e.tag :: u) e.inner, Made ts t := fun t ht =>
    .old (hts t (mem_trails_element.2 (.inr (.inl ht))))
  rcases mem_trails_element.1 ht with rfl | ht | ht
  · exact .item (w := []) hu hu rfl hp h.name
  · obtain ⟨properties, formatting, lead, hpr, hr, hf⟩ := h.inner
    obtain ⟨w, w', rfl, hw', hface⟩ := exists_trail_of_face (b := []) hf ht
    rw [List.append_nil, trails_append, List.mem_append] at hw'
    rcases hw' with hw' | hw'
    · exact hpr.made hu hin hp h.name hface hw'
    split at hw'
    · cases hw'
    -- What is in the new run.
    rcases mem_trails_element.1 hw' with rfl | hw' | hw'
    · obtain ⟨r, rfl, hr⟩ := List.map_eq_singleton_iff.1 hface
      exact .run hu hp h.name (congrArg Key.name hr)
    · rw [trails_append, List.mem_append] at hw'
      rcases hw' with hw' | hw'
      · exact hr.made hu hin hp h.name hface hn rfl hw'
      · exact (ofInlines_textContent lead cs).made hu hp h.name hface rfl hw'
    · cases hw'
  · cases ht

end MailMerge.Word
