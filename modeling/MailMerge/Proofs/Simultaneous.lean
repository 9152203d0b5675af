import MailMerge.Proofs.Listing
import MailMerge.Proofs.Outcome

/-!
# Merging at once

A merge makes one replacement after the other, the last one first, and takes away what is empty in
between. In documents that are in order (`InOrder`), this comes to the same as making all
replacements at once (`Merge.replaces_at_once`): each tag is still where it has been planned when
its turn comes, and no text goes away with anything that is cleaned up (`Merge.Stage.step`). So no
tag is stale in a whole merge (`Merge.run_at_once`).
-/

namespace MailMerge

open Xml Xml.Reader Word

/-! ## Documents in order -/

namespace Word

theorem clearWay_of_union {ns ns' ms : List Name} (hm : ∀ n ∈ ms, n ∈ ns ∨ n ∈ ns') :
    ∀ {u : List Name}, ClearWay ns u → ClearWay ns' u → ClearWay ms u
  | [], _, _ => trivial
  | n :: _, h, h' => fun hn => ⟨fun hnm => (hm n hnm).elim (h hn).1 (h' hn).1,
      clearWay_of_union hm (h hn).2 (h' hn).2⟩

theorem clear_of_union {ns ns' ms : List Name} (hm : ∀ n ∈ ms, n ∈ ns ∨ n ∈ ns') :
    ∀ {t : List Name}, Clear ns t → Clear ns' t → Clear ms t
  | [], _, _ => trivial
  | _ :: _, h, h' => fun hk hu hp => clearWay_of_union hm (h hk hu hp) (h' hk hu hp)

/-- What the trees of a word processing document are like: the outline is regular, no row and no
table stands between a text and the paragraph that shows it, and no text has a carriage return. -/
structure InOrder (f : Forest) : Prop where
  regular : ∀ t ∈ trails [] f.attached, Regular (t.map (·.name))
  clear : ∀ t ∈ trails [] f.attached, Clear [Names.row, Names.table] (t.map (·.name))
  lineEnds : ∀ e ∈ f.attached.elements, e.tag.name = Names.text → '\r' ∉ e.inner.leadingText

variable {f : Forest} {p : Element} {u : List Key}

instance : Decidable (InOrder f) :=
  decidable_of_iff (_ ∧ _ ∧ _)
    ⟨fun h => ⟨h.1, h.2.1, h.2.2⟩, fun h => ⟨h.regular, h.clear, h.lineEnds⟩⟩

namespace InOrder

theorem bare (h : InOrder f) : Bare f := fun t ht => (h.regular t ht).clear

/-- In order, every attached paragraph stands where it does. -/
theorem standing (h : InOrder f) (hf : f.Numbered) (hp : p ∈ f.attached.elements)
    (hn : p.tag.name = Names.paragraph) (ht : key p.tag :: u ∈ trails [] f.attached) :
    Standing u f p := by
  obtain ⟨hole, rest, hs, rfl⟩ := exists_attached hf (.inl hp) ht
  have hsub : ∀ t ∈ trails (Around.trail hole []) (.element p.tag p.inner .nil),
      t ∈ trails [] f.attached := by
    intro t ht
    simp only [trails, List.append_nil, List.mem_cons] at ht
    rcases ht with rfl | ht
    · exact hs ▸ trail_mem_fill
    · exact hs ▸ trails_inner_subset ht
  refine ⟨.inl hp, hn, ?_, fun hne => ⟨?_, ht⟩⟩
  · refine firm_of_regular ⟨key p.tag, List.mem_cons_self, hn⟩
      (fun t ht => h.regular t (hs ▸ trails_inner_subset ht)) fun t ht => ?_
    have ht' : t ∈ trails [] f.attached := hs ▸ trails_inner_subset ht
    exact clear_of_union (by decide) (h.bare t ht') (h.clear t ht')
  · exact sheltered_of_regular hn (fun t ht => h.regular t (hsub t ht)) hne

theorem cr_notMem_text (h : InOrder f) (hp : p ∈ f.attached.elements) :
    '\r' ∉ Paragraph.text p := by
  intro hr
  obtain ⟨s, hs, hr⟩ := List.mem_flatMap.1 hr
  obtain ⟨e, he, hof⟩ := segment_mem hs
  obtain ⟨-, -, -, hed, hno⟩ := of?_eq_some hof
  cases hedit : s.editable with
  | true =>
    obtain ⟨hn, hchars⟩ := hed hedit
    exact h.lineEnds e (Content.mem_trans hp he) hn (hchars ▸ hr)
  | false =>
    rcases hno hedit with hc | hc
    · exact absurd (hc ▸ hr) (by decide)
    · exact absurd (hc ▸ hr) (by decide)

end InOrder

end Word

namespace Merge

theorem cr_notMem_filled {pos : Nat} {cs : List Char} {subs : List Substitution} (h : '\r' ∉ cs) :
    '\r' ∉ filled pos cs subs := by
  induction subs generalizing pos cs with
  | nil => exact h
  | cons s rest ih =>
    simp only [filled, List.mem_append, not_or]
    exact ⟨⟨fun hr => h (List.mem_of_mem_take hr), cr_notMem_lineFeeds _⟩,
      ih fun hr => h (List.mem_of_mem_drop hr)⟩

/-! ## Plans -/

/-- A plan for a forest: its tags are found in attached paragraphs, each one behind those in front
of it in its paragraph. -/
structure Planned (f : Forest) (subs : List Substitution) : Prop where
  found : ∀ s ∈ subs, ∃ p ∈ f.attached.elements, p.tag.name = Names.paragraph ∧
    p.tag.id = s.tag.paragraph ∧ s.tag.found ∈ Construct.scan (Paragraph.text p)
  apart : subs.Pairwise fun s t => s.tag.paragraph = t.tag.paragraph →
    s.tag.found.stop ≤ t.tag.found.start

theorem Planned.sublist {f : Forest} {subs chosen : List Substitution} (h : Planned f subs)
    (hc : chosen.Sublist subs) : Planned f chosen :=
  ⟨fun s hs => h.found s (hc.subset hs), h.apart.sublist hc⟩

/-- What is planned for a document that lists no paragraph twice. -/
theorem planned_spec {fields : FieldMap} {d d₁ : Document} {found : List Story} (hs : d.Sound)
    (hfound : Document.stories d = .ok found d₁) (honce : (listing d₁.forest found).Nodup) :
    Planned d₁.forest (planned fields d₁.forest found) := by
  have hf := ((Meets.of_ok (Document.reading_stories hs) hfound).1.sound hs).numbered
  have htags : ((listing d₁.forest found).flatMap tagsOf).Pairwise fun t t' =>
      t.paragraph = t'.paragraph → t.found.stop ≤ t'.found.start := by
    refine List.pairwise_flatMap.2 ⟨fun p _ => ?_, ?_⟩
    · refine List.pairwise_map.2 ((Construct.pairwise_scan _).imp ?_)
      exact fun h _ => h
    · refine honce.imp_of_mem fun {p p'} hp hp' hne t ht t' ht' hpar => ?_
      obtain ⟨_, -, rfl⟩ := List.mem_map.1 ht
      obtain ⟨_, -, rfl⟩ := List.mem_map.1 ht'
      exact absurd (hf.eq_of_id (mem_listing hf hp).1 (mem_listing hf hp').1 hpar) hne
  refine ⟨found_of_planned hs hfound, List.pairwise_filterMap.2 (htags.imp ?_)⟩
  intro t t' h s hm s' hm'
  rw [resolved?_tag hm, resolved?_tag hm']
  exact h

/-! ## What a merge has come to -/

/-- The replacements in a paragraph. -/
def forParagraph (p : Element) (subs : List Substitution) : List Substitution :=
  subs.filter (·.tag.paragraph = p.tag.id)

/-- What has become of the paragraph `p` when `done` has been replaced in it, and `todo` has not:
either its text is filled, or it has become the items of a list, and nothing is left to be done. -/
def Progress (n : Nat) (p : Element) (u : List Key) (todo done : List Substitution) (f : Forest) :
    Prop :=
  ∃ (q : Element) (items : List Element), q.tag = p.tag ∧ Lined u f (q :: items) ∧
    (∀ x ∈ items, n ≤ x.tag.id) ∧
    (items = [] ∧ Paragraph.text q = filled 0 (Paragraph.text p) done ∨
      todo = [] ∧ (q :: items).map Paragraph.text =
        Text.splitLines (filled 0 (Paragraph.text p) done) ∧
        ∃ s ∈ done, filled 0 (Paragraph.text p) done = lineFeeds s.value ∧
          s.tag.found.parts.lead = [] ∧ s.tag.found.parts.tail = [])

variable {n : Nat} {p q : Element} {u : List Key} {todo done : List Substitution}
  {s : Substitution} {f f' : Forest}

theorem replacement_getLast? {c : Construct} {value : List Char}
    (hv : value.getLast? ≠ some '\r') (ht : '\r' ∉ c.tail) :
    (replacement c value).getLast? ≠ some '\r' := by
  unfold replacement
  split
  · simp
  · next hne =>
    rw [List.getLast?_append]
    cases hlast : c.tail.getLast? with
    | some x => exact fun e => ht (List.mem_of_getLast? (hlast.trans e))
    | none => rwa [Option.none_or, List.getLast?_append_of_ne_nil _ hne]

/-- What a paragraph without carriage returns shows after a replacement. -/
theorem text_splice {found : Found} {new : List Char} (hs : found.StandsIn 0 (Paragraph.text q))
    (hne : found.text ≠ []) (hcr : '\r' ∉ Paragraph.text q) (hnew : new.getLast? ≠ some '\r') :
    spelled (splice found.start found.stop new (pieces (Paragraph.segments q))) =
      (Paragraph.text q).take found.start ++ lineFeeds new ++
        (Paragraph.text q).drop found.stop := by
  have hspelled : spelled (pieces (Paragraph.segments q)) = Paragraph.text q := spelled_pieces _
  have hlt : found.start < (Paragraph.text q).length := by
    have := hs.stop_le
    have := List.length_pos_iff.2 hne
    rw [Found.stop] at *
    omega
  rw [spelled_splice (hspelled ▸ hlt) (start_le_stop found) ?_ hnew, hspelled]
  exact fun x hx hr => hcr (hspelled ▸ List.mem_flatMap.2 ⟨x, hx, hr⟩)

/-- What a tag has to be like for its replacement: it stands in the text of the paragraph, with
those that are still to be replaced in front of it and those that have been behind it. -/
structure Due (p : Element) (todo done : List Substitution) (s : Substitution) : Prop where
  stands : s.tag.found.StandsIn 0 (Paragraph.text p)
  parts : Construct.decompose? s.tag.found.text = some s.tag.found.parts
  front : ∀ t ∈ todo, t.tag.found.stop ≤ s.tag.found.start ∧ t.tag.found.text ≠ []
  behind : ∀ r ∈ done, s.tag.found.stop ≤ r.tag.found.start
  value : s.value.getLast? ≠ some '\r'

theorem Due.ne_nil (h : Due p todo done s) : s.tag.found.text ≠ [] := Found.text_ne_nil h.parts

theorem Due.tail (h : Due p todo done s) (hcr : '\r' ∉ Paragraph.text p) :
    '\r' ∉ s.tag.found.parts.tail := by
  intro hr
  obtain ⟨front, back, he, -⟩ := h.stands
  have := (Construct.of_decompose? h.parts).2 hr
  exact hcr (he ▸ by simp [this])

/-- The replacement of a tag in its paragraph. -/
theorem Progress.replaced {lines : List (List Char)} (h : Due p todo done s) (hf : f.Numbered)
    (hb : Bare f) (hn : n ≤ f.next) (hcr : '\r' ∉ Paragraph.text p) (hq : q.tag = p.tag)
    (hstand : Standing u f q) (htext : Paragraph.text q = filled 0 (Paragraph.text p) done)
    (hsub : Substituted f q s.tag.found lines f')
    (hlines : LinesFor s q lines) : Progress n p u todo (s :: done) f' := by
  have hstands : s.tag.found.StandsIn 0 (Paragraph.text q) :=
    htext ▸ standsIn_filled h.stands h.behind
  have hcrq : '\r' ∉ Paragraph.text q := htext ▸ cr_notMem_filled hcr
  have hne : Paragraph.text q ≠ [] := by
    obtain ⟨front, back, he, -⟩ := hstands
    simp [he, h.ne_nil]
  obtain ⟨q', items, htag, hshown, hitems, hlined, hids⟩ := hsub.own hf hb hstand hne
  refine ⟨q', items, htag.trans hq, hlined, fun x hx => Nat.le_trans hn (hids x hx), ?_⟩
  rcases hlines with rfl | ⟨rfl, hwhole, hlead, htail⟩
  · refine .inl ⟨by simpa using hitems, ?_⟩
    rw [hshown, List.headD_cons,
      text_splice hstands h.ne_nil hcrq (replacement_getLast? h.value (h.tail hcr)),
      filled_cons h.stands h.behind, ← htext]
    rfl
  · -- Nothing but the tag is left of the text.
    obtain ⟨hstart, hfill⟩ := filled_cons_of_whole h.stands h.behind (htext.symm.trans hwhole)
    have hshownFor : shown s = lineFeeds s.value := by
      rw [shown, replacement_of_bare hlead htail]
    obtain ⟨line, more, hsplit⟩ := List.exists_cons_of_ne_nil (Text.splitLines_ne_nil s.value)
    have hline : ∀ l ∈ line :: more, '\r' ∉ l := fun l hl =>
      Text.cr_notMem_splitLines (hsplit ▸ hl)
    refine .inr ⟨?_, ?_, s, List.mem_cons_self, hfill.trans hshownFor, hlead, htail⟩
    · refine List.eq_nil_iff_forall_not_mem.2 fun t ht => ?_
      obtain ⟨hle, hne⟩ := h.front t ht
      have := List.length_pos_iff.2 hne
      rw [hstart, Found.stop] at hle
      omega
    · rw [hsplit] at hshown hitems
      have hlast : line.getLast? ≠ some '\r' := fun e =>
        hline line List.mem_cons_self (List.mem_of_getLast? e)
      rw [List.headD_cons, replacement_of_bare hlead htail,
        text_splice hstands h.ne_nil hcrq hlast,
        lineFeeds_eq_self (hline line List.mem_cons_self), hstart, Found.stop, hstart, hwhole]
        at hshown
      have hmore : more.map lineFeeds = more := by
        refine (List.map_congr_left fun l hl => ?_).trans (List.map_id more)
        exact lineFeeds_eq_self (hline l (List.mem_cons_of_mem _ hl))
      rw [List.map_cons, hitems, List.tail_cons, hmore, hfill, hshownFor,
        Text.splitLines_lineFeeds, hsplit, hshown]
      simp

/-! ## Whole merges -/

/-- How far a merge of the forest `f₀` has come, with `todo` to be replaced yet. -/
structure Stage (f₀ : Forest) (todo done : List Substitution) (f : Forest) : Prop where
  numbered : f.Numbered
  next : f₀.next ≤ f.next
  bare : Bare f
  listed : ∀ p ∈ f₀.attached.elements, StaysListed p.tag.id f₀ f
  each : ∀ p ∈ f₀.attached.elements, p.tag.name = Names.paragraph →
    ∀ u, key p.tag :: u ∈ trails [] f₀.attached →
      Progress f₀.next p u (forParagraph p todo) (forParagraph p done) f

variable {f₀ : Forest}

theorem Stage.start (hf : f₀.Numbered) (ho : InOrder f₀) (todo : List Substitution) :
    Stage f₀ todo [] f₀ where
  numbered := hf
  next := Nat.le_refl _
  bare := ho.bare
  listed p _ := .refl p.tag.id f₀
  each p hp hn u ht := by
    have hst := ho.standing hf hp hn ht
    refine ⟨p, [], rfl, ⟨by simpa using hst, ?_⟩, by simp, .inl ⟨rfl, rfl⟩⟩
    refine (List.filter_sublist.map _).trans ?_
    simpa using ht

theorem forParagraph_cons_of_eq (h : s.tag.paragraph = p.tag.id) :
    forParagraph p (s :: done) = s :: forParagraph p done := by
  simp [forParagraph, h]

theorem forParagraph_cons_of_ne (h : s.tag.paragraph ≠ p.tag.id) :
    forParagraph p (s :: done) = forParagraph p done := by
  simp [forParagraph, h]

theorem forParagraph_concat_of_ne (h : s.tag.paragraph ≠ p.tag.id) :
    forParagraph p (todo ++ [s]) = forParagraph p todo := by
  simp [forParagraph, h]

theorem Planned.due (h : Planned f₀ (todo ++ s :: done)) (hf : f₀.Numbered)
    (hp : p ∈ f₀.attached.elements) (hid : s.tag.paragraph = p.tag.id)
    (hvalue : s.value.getLast? ≠ some '\r') :
    Due p (forParagraph p todo) (forParagraph p done) s := by
  have found : ∀ r ∈ todo ++ s :: done, r.tag.paragraph = p.tag.id →
      r.tag.found ∈ Construct.scan (Paragraph.text p) := by
    intro r hr hrid
    obtain ⟨p', hp', -, hid', hscan⟩ := h.found r hr
    obtain rfl := hf.eq_of_id (.inl hp') (.inl hp) (hid'.trans hrid)
    exact hscan
  obtain ⟨-, hback, hfront⟩ := List.pairwise_append.1 h.apart
  obtain ⟨hback, -⟩ := List.pairwise_cons.1 hback
  obtain ⟨hstands, -, hparts⟩ := Construct.scan_spec (found s (by simp) hid)
  refine ⟨hstands, hparts, fun t ht => ?_, fun r hr => ?_, hvalue⟩
  · obtain ⟨ht, htid⟩ := List.mem_filter.1 ht
    have htid := of_decide_eq_true htid
    exact ⟨hfront t ht s List.mem_cons_self (htid.trans hid.symm),
      (Construct.scan_spec (found t (List.mem_append_left _ ht) htid)).2.1⟩
  · obtain ⟨hr, hrid⟩ := List.mem_filter.1 hr
    exact hback r hr (hid.trans (of_decide_eq_true hrid).symm)

/-- Paragraphs without the tag that is replaced. -/
theorem Progress.others {lines : List (List Char)} {found : Found} {v : List Key}
    (h : Progress n p u todo done f) (hf : f.Numbered) (hq : Standing v f q)
    (hsub : Substituted f q found lines f') (hne : p.tag.id ≠ q.tag.id) (hn : q.tag.id < n) :
    Progress n p u todo done f' := by
  obtain ⟨x, items, htag, hlined, hids, hcases⟩ := h
  obtain ⟨l, hseen, hl⟩ := hsub.others hf hq hlined <| List.forall_mem_cons.2
    ⟨fun e => hne (htag ▸ e), fun y hy e => Nat.not_lt.2 (hids y hy) (e ▸ hn)⟩
  have htexts : l.map Paragraph.text = (x :: items).map Paragraph.text := by
    have := congrArg (List.map Prod.snd) hseen
    rwa [List.map_map, List.map_map] at this
  obtain ⟨x', items', rfl, hx', hitems'⟩ := List.map_eq_cons_iff.1 hseen
  obtain ⟨htag', htext'⟩ := Prod.mk.inj hx'
  refine ⟨x', items', htag'.trans htag, hl, fun y hy => ?_, hcases.imp ?_ ?_⟩
  · obtain ⟨z, hz, hzy⟩ := List.mem_map.1 (hitems' ▸ List.mem_map_of_mem hy)
    have hid : z.tag = y.tag := congrArg Prod.fst hzy
    exact hid ▸ hids z hz
  · rintro ⟨rfl, htext⟩
    exact ⟨List.map_eq_nil_iff.1 hitems', htext'.trans htext⟩
  · rintro ⟨htodo, h⟩
    exact ⟨htodo, htexts ▸ h⟩

/-- The paragraph that the next replacement is made in: `p` in the forest that is merged, `q` as far
as the merge has come. -/
structure Pending (f₀ : Forest) (todo done : List Substitution) (s : Substitution) (f : Forest)
    (p q : Element) (u : List Key) : Prop where
  attached : p ∈ f₀.attached.elements
  name : p.tag.name = Names.paragraph
  id : p.tag.id = s.tag.paragraph
  trail : key p.tag :: u ∈ trails [] f₀.attached
  due : Due p (forParagraph p todo) (forParagraph p done) s
  tag : q.tag = p.tag
  stands : Standing u f q
  text : Paragraph.text q = filled 0 (Paragraph.text p) (forParagraph p done)
  listed : Paragraph.glyph q = Paragraph.glyph p

theorem Stage.exists_pending (h : Stage f₀ (todo ++ [s]) done f) (hf : f₀.Numbered)
    (hplan : Planned f₀ (todo ++ s :: done)) (hvalue : s.value.getLast? ≠ some '\r') :
    ∃ p q u, Pending f₀ todo done s f p q u := by
  obtain ⟨p, hp, hpn, hid, -⟩ := hplan.found s (by simp)
  obtain ⟨u, ht⟩ := exists_root_trail hp
  obtain ⟨q, items, htag, hlined, -, hcases⟩ := h.each p hp hpn u ht
  have hmem : s ∈ forParagraph p (todo ++ [s]) := by simp [forParagraph, hid]
  obtain ⟨-, htext⟩ := hcases.resolve_right fun h => by simp [h.1] at hmem
  have hdue := hplan.due hf hp hid.symm hvalue
  have hst := hlined.each q List.mem_cons_self
  have hid' : q.tag.id = p.tag.id := congrArg Tag.id htag
  have hne : Paragraph.text q ≠ [] := by
    obtain ⟨front, back, he, -⟩ := htext ▸ standsIn_filled hdue.stands hdue.behind
    simp [he, hdue.ne_nil]
  obtain ⟨p', hp', htag', -, hplace⟩ := h.listed p hp q hst.has hid' hst.name hne
  obtain rfl := hf.eq_of_id hp' (.inl hp) ((congrArg Tag.id htag').trans hid')
  exact ⟨p', q, u, hp, hpn, hid, ht, hdue, htag, hst, htext, glyph_of_placing hplace⟩

namespace Pending

theorem id_eq (h : Pending f₀ todo done s f p q u) : q.tag.id = p.tag.id :=
  congrArg Tag.id h.tag

theorem standsIn (h : Pending f₀ todo done s f p q u) :
    s.tag.found.StandsIn 0 (Paragraph.text q) :=
  h.text ▸ standsIn_filled h.due.stands h.due.behind

/-- What the replacement comes to. -/
theorem substitute {d : Document} {stats : Stats} (h : Pending f₀ todo done s d.forest p q u)
    (hd : d.forest.Numbered) : Meets (Merge.substitute stats s) d
      (fun _ d' => ∃ lines, Substituted d.forest q s.tag.found lines d'.forest ∧ LinesFor s q lines)
      fun err _ => ∀ {chosen}, s ∈ chosen → Refused f₀ chosen err := by
  refine (substitute_spec hd h.stands (h.id_eq.trans h.id) h.standsIn h.due.parts).mono
    (fun _ _ h => h) ?_
  rintro err _ (⟨rfl, hx⟩ | hglyph | ⟨rfl, rfl, hlines, hlead, htail⟩) chosen hs
  · exact .notXmlText hs hx
  · obtain ⟨fault, rfl, hlevel⟩ := Unlevelled.of_glyph (h.listed ▸ hglyph)
    exact .number hs h.attached h.id h.name hlevel
  · obtain ⟨root, hroot, hk⟩ := mem_trails_root h.trail
    exact .besideRoot hs hroot ((congrArg Key.id hk).trans h.id) ((congrArg Key.name hk).trans h.name)
      hlines hlead htail

end Pending

/-- One replacement, in the order in which a merge makes them. -/
theorem Stage.step {d : Document} {stats : Stats} (h : Stage f₀ (todo ++ [s]) done d.forest)
    (hf : f₀.Numbered) (ho : InOrder f₀) (hplan : Planned f₀ (todo ++ s :: done))
    (hvalue : s.value.getLast? ≠ some '\r') :
    Meets (substitute stats s) d (fun _ d' => Stage f₀ todo (s :: done) d'.forest)
      fun err _ => Refused f₀ (todo ++ s :: done) err := by
  obtain ⟨p, q, u, hp⟩ := h.exists_pending hf hplan hvalue
  have hpar : NamesParagraph s.tag.paragraph d.forest :=
    (hp.id_eq.trans hp.id) ▸ hp.stands.namesParagraph h.numbered
  have hlisted : ∀ p' (hp' : p' ∈ f₀.attached.elements), Meets (Merge.substitute stats s) d
      (fun _ d' => StaysListed p'.tag.id d.forest d'.forest) fun _ _ => True := fun p' hp' =>
    substitute_staysListed h.numbered hpar hp.due.parts
      (Nat.lt_of_lt_of_le (hf.has_lt (.inl hp')) h.next)
  refine ((hp.substitute h.numbered).and
    (meets_forall.2 fun p' => meets_forall.2 (hlisted p'))).mono ?_ ?_
  · rintro _ d' ⟨⟨lines, hsub, hlines⟩, hlisted⟩
    have hstep := hsub.step h.numbered hp.stands
    refine ⟨hstep.numbered, Nat.le_trans h.next hstep.next, hstep.bare h.bare,
      fun p' hp' => (h.listed p' hp').trans (hlisted p' hp'), fun p' hp' hpn' u' ht' => ?_⟩
    -- The paragraph of the tag gains a replacement; nothing shows a change in the others.
    by_cases heq : s.tag.paragraph = p'.tag.id
    · obtain rfl := hf.eq_of_id (.inl hp.attached) (.inl hp') (hp.id.trans heq)
      obtain rfl := (List.cons.inj (trail_eq_of_id hf.attached hp.trail ht' rfl)).2
      rw [forParagraph_cons_of_eq heq]
      exact .replaced hp.due h.numbered h.bare h.next (ho.cr_notMem_text hp') hp.tag hp.stands
        hp.text hsub hlines
    · have hother := h.each p' hp' hpn' u' ht'
      rw [forParagraph_concat_of_ne heq] at hother
      rw [forParagraph_cons_of_ne heq]
      refine hother.others h.numbered hp.stands hsub
        (fun e => heq (hp.id.symm.trans (hp.id_eq.symm.trans e.symm))) ?_
      exact hp.id_eq ▸ hf.has_lt (.inl hp.attached)
  · exact fun _ _ herr => herr.1 (by simp)

/-- A merge on its way through a plan, with `todo` to be replaced yet, the first one first. The plan
is worked off from its end, so what has been done is behind what is left to do. -/
def OnTheWay (inv : List Substitution → List Substitution → Stats → Forest → Prop)
    (chosen todo : List Substitution) (stats : Stats) (d : Document) : Prop :=
  ∃ done, chosen = todo.reverse ++ done ∧ inv todo.reverse done stats d.forest

/-- What every replacement keeps holds after the whole plan. -/
theorem apply_inv (inv : List Substitution → List Substitution → Stats → Forest → Prop)
    {chosen : List Substitution} {d : Document} {stats : Stats} {bad : Error → Document → Prop}
    (start : inv chosen [] stats d.forest)
    (step : ∀ todo s done stats d', chosen = todo ++ s :: done →
      inv (todo ++ [s]) done stats d'.forest →
        Meets (substitute stats s) d' (fun stats' d'' => inv todo (s :: done) stats' d''.forest)
          bad) :
    Meets (apply chosen stats) d (fun stats' d' => inv [] chosen stats' d'.forest) bad := by
  have start' : OnTheWay inv chosen chosen.reverse stats d := ⟨[], by simp, by simpa using start⟩
  refine (meets_foldlM start' ?_).mono ?_ fun _ _ h => h
  · rintro s rest stats d' ⟨done, hchosen, hinv⟩
    rw [List.reverse_cons] at hinv
    rw [List.reverse_cons, List.append_assoc, List.singleton_append] at hchosen
    exact (step _ s done stats d' hchosen hinv).mono (fun _ _ h => ⟨s :: done, hchosen, h⟩)
      fun _ _ h => h
  · rintro stats' d' ⟨done, rfl, hinv⟩
    exact hinv

theorem apply_stage {chosen : List Substitution} {d : Document} {stats : Stats}
    (hf : d.forest.Numbered) (ho : InOrder d.forest) (hplan : Planned d.forest chosen)
    (hends : ∀ s ∈ chosen, s.value.getLast? ≠ some '\r') :
    Meets (apply chosen stats) d (fun _ d' => Stage d.forest [] chosen d'.forest)
      fun err _ => Refused d.forest chosen err :=
  apply_inv (fun todo done _ => Stage d.forest todo done) (Stage.start hf ho chosen)
    fun _ s _ _ _ hchosen h =>
    hchosen ▸ h.step hf ho (hchosen ▸ hplan) (hends s (by simp [hchosen]))

/-- What a merge has made of the paragraph `p`: the paragraph `q`, and `items` behind it. They stand
where `p` stood, in order, as far as they show anything. Together they show the text of `p` with all
replacements made at once. The lines of a value that is all of that text are shown by one of them
each. -/
structure Rewritten (f f' : Forest) (p : Element) (subs : List Substitution) (q : Element)
    (items : List Element) : Prop where
  tag : q.tag = p.tag
  has : ∀ x ∈ q :: items, f'.Has x ∧ x.tag.name = Names.paragraph
  place : ∃ u, key p.tag :: u ∈ trails [] f.attached ∧
    (((q :: items).filter (Paragraph.text · ≠ [])).map fun x => key x.tag :: u).Sublist
      (trails [] f'.attached)
  text : items = [] ∧ Paragraph.text q = filled 0 (Paragraph.text p) subs ∨
    (q :: items).map Paragraph.text = Text.splitLines (filled 0 (Paragraph.text p) subs) ∧
      ∃ s ∈ subs, filled 0 (Paragraph.text p) subs = lineFeeds s.value ∧
        s.tag.found.parts.lead = [] ∧ s.tag.found.parts.tail = []

theorem Stage.rewritten {chosen : List Substitution} (h : Stage f₀ [] chosen f)
    (hp : p ∈ f₀.attached.elements) (hn : p.tag.name = Names.paragraph) :
    ∃ q items, Rewritten f₀ f p (forParagraph p chosen) q items := by
  obtain ⟨u, ht⟩ := exists_root_trail hp
  obtain ⟨q, items, htag, hlined, -, hcases⟩ := h.each p hp hn u ht
  exact ⟨q, items, htag, fun x hx => ⟨(hlined.each x hx).has, (hlined.each x hx).name⟩,
    ⟨u, ht, hlined.order⟩, hcases.imp id And.right⟩

/-- Joined again, the lines are the text. -/
theorem Rewritten.joined {subs : List Substitution} {items : List Element}
    (h : Rewritten f f' p subs q items) : Text.joinLines ((q :: items).map Paragraph.text) =
      filled 0 (Paragraph.text p) subs := by
  rcases h.text with ⟨rfl, htext⟩ | ⟨htexts, s, -, hvalue, -⟩
  · simp [htext, Text.joinLines, List.intercalate]
  · rw [htexts, Text.joinLines_splitLines, hvalue, lineFeeds_eq_self (cr_notMem_lineFeeds _)]

section Document

variable {fields : FieldMap} {d d₁ d₂ : Document} {found : List Story} {stats : Stats}
  {subs chosen : List Substitution}

theorem apply_rewritten (hs : d.Sound) (hfound : Document.stories d = .ok found d₁)
    (honce : (listing d₁.forest found).Nodup) (ho : InOrder d₁.forest)
    (hforest : d₂.forest = d₁.forest)
    (hchosen : chosen.Sublist (planned fields d₁.forest found))
    (hends : ∀ s ∈ chosen, s.value.getLast? ≠ some '\r') :
    Meets (apply chosen stats) d₂
      (fun _ d' => ∀ p ∈ d₁.forest.attached.elements, p.tag.name = Names.paragraph →
        ∃ q items, Rewritten d₁.forest d'.forest p (forParagraph p chosen) q items)
      fun err _ => Refused d₁.forest chosen err := by
  have hf := ((Meets.of_ok (Document.reading_stories hs) hfound).1.sound hs).numbered
  have hpl := (planned_spec hs hfound honce).sublist hchosen
  rw [← hforest] at hf ho hpl ⊢
  refine (apply_stage hf ho hpl hends).mono ?_ fun _ _ h => h
  exact fun _ d' h p hp hn => h.rewritten hp hn

/-- In a document in order that lists no paragraph twice, replacing tags one after the other is
replacing them at once: no tag is stale, and every paragraph shows its text with the chosen tags
replaced. No value must end in a carriage return. -/
theorem replaces_at_once (hs : d.Sound) (hfound : Document.stories d = .ok found d₁)
    (honce : (listing d₁.forest found).Nodup) (ho : InOrder d₁.forest)
    (hplan : (allTags >>= plan fields) d = .ok subs d₂) (hchosen : chosen.Sublist subs)
    (hends : ∀ s ∈ chosen, s.value.getLast? ≠ some '\r') :
    Meets (apply chosen stats) d₂
      (fun _ d' => ∀ p ∈ d₁.forest.attached.elements, p.tag.name = Names.paragraph →
        ∃ q items, Rewritten d₁.forest d'.forest p (forParagraph p chosen) q items)
      fun err _ => Refused d₁.forest chosen err := by
  have hspec : Meets (allTags >>= plan fields) d
      (fun subs d₂ => d₂.forest = d₁.forest ∧ subs = planned fields d₁.forest found)
      fun _ _ => True := by
    refine meets_bind.2 (allTags_spec.mono ?_ fun _ _ _ => trivial)
    rintro tags d' ⟨found', hfound', rfl⟩
    obtain ⟨rfl, rfl⟩ := EStateM.Result.ok.inj (hfound.symm.trans hfound')
    refine (plan_spec _).mono ?_ fun _ _ _ => trivial
    rintro subs d₂ ⟨hl, rfl⟩
    unfold SameButLog at hl
    exact ⟨by rw [hl], rfl⟩
  obtain ⟨hforest, rfl⟩ := hspec.of_ok hplan
  exact apply_rewritten hs hfound honce ho hforest hchosen hends

/-- A tag with text around it and an optional one behind it, a list item that is all of a value, and
a paragraph that goes away. -/
def letter : Document := .ofBody [
  Document.node Names.paragraph [Document.textRun "<Dear <A>, ><<B?>>!"],
  Document.node Names.paragraph [
    Document.node Names.paragraphProperties [Document.node Names.numbering []],
    Document.textRun "<<C>>"],
  Document.node Names.paragraph [Document.textRun "<<B?>>"]]

def letterFields : FieldMap :=
  .of [(points ['A'], .text (points "Ada".toList)), (points ['C'], .text (points "x\ny".toList))]

theorem replaces_at_once_letter : ∃ found d₁ subs d₂ stats d',
    Document.stories letter = .ok found d₁ ∧
    (allTags >>= plan letterFields) letter = .ok subs d₂ ∧ apply subs {} d₂ = .ok stats d' ∧
    (∀ p ∈ d₁.forest.attached.elements, p.tag.name = Names.paragraph →
      ∃ q items, Rewritten d₁.forest d'.forest p (forParagraph p subs) q items) ∧
    (d'.forest.attached.named Names.paragraph).map Paragraph.text =
      ["Dear Ada, !".toList, ['x'], ['y']] := by
  have hstories : Meets Document.stories letter
      (fun found d₁ => (listing d₁.forest found).Nodup ∧ InOrder d₁.forest)
      fun _ _ => False := by decide +kernel
  have hmerge : Meets (allTags >>= plan letterFields) letter
      (fun subs d₂ => (∀ s ∈ subs, s.value.getLast? ≠ some '\r') ∧
        Meets (apply subs {}) d₂ (fun _ d' => (d'.forest.attached.named Names.paragraph).map
          Paragraph.text = ["Dear Ada, !".toList, ['x'], ['y']]) fun _ _ => False)
      fun _ _ => False := by decide +kernel
  obtain ⟨found, d₁, hfound, honce, ho⟩ := hstories.exists_ok
  obtain ⟨subs, d₂, hplan, hends, happly⟩ := hmerge.exists_ok
  obtain ⟨stats, d', hd', htexts⟩ := happly.exists_ok
  have hall := Meets.of_ok (replaces_at_once (Document.sound_ofRoot _) hfound honce ho hplan
    (List.Sublist.refl subs) hends) hd'
  exact ⟨found, d₁, subs, d₂, stats, d', hfound, hplan, hd', hall, htexts⟩

/-- A text that stands in a row of a table in a text box, in none of the cells. -/
def rowAroundText : Document := .ofBody [
  Document.node Names.paragraph [Document.node Names.run [Document.node Names.drawing [
    Document.node Names.textBox [
      Document.node Names.table [Document.node Names.row [
        Document.textRun "<<A>>",
        Document.node Names.cell [Document.node Names.paragraph [Document.textRun "<<B>>"]]]],
      Document.node Names.paragraph []]]]]]

def oneEmpty : FieldMap := .of [(points ['A'], .text (points ['x'])), (points ['B'], .text [])]

/-- A regular outline is not enough: a row that has no text in its cells takes the text beside them
with it. -/
theorem row_around_text : ∃ found d₁ subs d₂ d', Document.stories rowAroundText = .ok found d₁ ∧
    (listing d₁.forest found).Nodup ∧
    (∀ t ∈ trails [] d₁.forest.attached, Regular (t.map (·.name))) ∧
    (∀ e ∈ d₁.forest.attached.elements, e.tag.name = Names.text → '\r' ∉ e.inner.leadingText) ∧
    (allTags >>= plan oneEmpty) rowAroundText = .ok subs d₂ ∧ (∀ s ∈ subs, '\r' ∉ s.value) ∧
    apply subs {} d₂ = .error (.stale ['A'] 0 4 "<<A>>".toList []) d' := by
  have hstories : Meets Document.stories rowAroundText
      (fun found d₁ => (listing d₁.forest found).Nodup ∧
        (∀ t ∈ trails [] d₁.forest.attached, Regular (t.map (·.name))) ∧
        ∀ e ∈ d₁.forest.attached.elements, e.tag.name = Names.text → '\r' ∉ e.inner.leadingText)
      fun _ _ => False := by decide +kernel
  have hmerge : Meets (allTags >>= plan oneEmpty) rowAroundText
      (fun subs d₂ => (∀ s ∈ subs, '\r' ∉ s.value) ∧ Meets (apply subs {}) d₂ (fun _ _ => False)
        fun err _ => err = .stale ['A'] 0 4 "<<A>>".toList []) fun _ _ => False := by
    decide +kernel
  obtain ⟨found, d₁, hfound, honce, hregular, hends⟩ := hstories.exists_ok
  obtain ⟨subs, d₂, hplan, hvalues, happly⟩ := hmerge.exists_ok
  obtain ⟨_, d', hd', rfl⟩ := happly.exists_error
  exact ⟨found, d₁, subs, d₂, d', hfound, honce, hregular, hends, hplan, hvalues, hd'⟩

/-- What is planned has the values of fields, or none. -/
theorem value_of_planned {f : Forest} : ∀ s ∈ planned fields f found, s.value = [] ∨
    ∃ name v text, fields.value? name = some v ∧ fields.text v = .ok text ∧ s.value = text.chars := by
  intro s hs
  obtain ⟨t, -, hr⟩ := List.mem_filterMap.1 hs
  unfold resolved? resolve at hr
  split at hr
  · next s' he =>
    subst hr
    split at he
    · next v hv =>
      split at he <;> cases he
      next text htext => exact .inr ⟨_, v, text, hv, htext, rfl⟩
    · split at he <;> cases he
      exact .inl rfl
  · cases hr

theorem ends_of_planned {f : Forest}
    (hends : ∀ name v text, fields.value? name = some v → fields.text v = .ok text →
      text.chars.getLast? ≠ some '\r') : ∀ s ∈ planned fields f found, s.value.getLast? ≠ some '\r' := by
  intro s hs
  rcases value_of_planned s hs with he | ⟨name, v, text, hv, htext, he⟩
  · simp [he]
  · exact he ▸ hends name v text hv htext

/-- A whole merge replaces all tags at once, and fails only with a field that has no text or where
replacing is refused. -/
theorem run_at_once (hs : d.Sound) (hfound : Document.stories d = .ok found d₁)
    (honce : (listing d₁.forest found).Nodup) (ho : InOrder d₁.forest)
    (hends : ∀ name v text, fields.value? name = some v → fields.text v = .ok text →
      text.chars.getLast? ≠ some '\r') :
    Meets (run fields) d
      (fun _ d' => ∀ p ∈ d₁.forest.attached.elements, p.tag.name = Names.paragraph →
        ∃ q items, Rewritten d₁.forest d'.forest p
          (forParagraph p (planned fields d₁.forest found)) q items)
      fun err _ => WithoutText fields err ∨
        Refused d₁.forest (planned fields d₁.forest found) err := by
  have happly : ∀ {d₂ : Document} (stats : Stats), SameButLog d₁ d₂ →
      Meets (apply (planned fields d₁.forest found) stats) d₂ _ _ := fun {d₂} stats hl =>
    apply_rewritten hs hfound honce ho (by unfold SameButLog at hl; rw [hl])
      (List.Sublist.refl _) (ends_of_planned hends)
  refine (run_steps fields d).mono ?_ ?_
  · rintro _ d' ⟨found', d₁', d₂, d₃, hfound', hl, hd₃, hl'⟩
    obtain ⟨rfl, rfl⟩ := EStateM.Result.ok.inj (hfound.symm.trans hfound')
    have hforest : d'.forest = d₃.forest := by
      unfold SameButLog at hl'
      rw [hl']
    exact hforest ▸ (happly _ hl).of_ok hd₃
  · rintro err d' (herr | ⟨found', d₁', hfound', ⟨-, hfault⟩ | ⟨d₂, stats, hl, herr⟩⟩)
    · cases hfound.symm.trans herr
    · exact .inl hfault
    · obtain ⟨rfl, rfl⟩ := EStateM.Result.ok.inj (hfound.symm.trans hfound')
      exact .inr ((happly stats hl).of_error herr)

theorem run_at_once_letter : ∃ found d₁ stats d', Document.stories letter = .ok found d₁ ∧
    run letterFields letter = .ok stats d' ∧
    (∀ p ∈ d₁.forest.attached.elements, p.tag.name = Names.paragraph →
      ∃ q items, Rewritten d₁.forest d'.forest p
        (forParagraph p (planned letterFields d₁.forest found)) q items) ∧
    stats.applied = 4 := by
  have hstories : Meets Document.stories letter
      (fun found d₁ => (listing d₁.forest found).Nodup ∧ InOrder d₁.forest)
      fun _ _ => False := by decide +kernel
  have hrun : Meets (run letterFields) letter (fun stats _ => stats.applied = 4)
      fun _ _ => False := by decide +kernel
  obtain ⟨found, d₁, hfound, honce, ho⟩ := hstories.exists_ok
  obtain ⟨stats, d', hd', happlied⟩ := hrun.exists_ok
  have hall := Meets.of_ok (run_at_once (Document.sound_ofRoot _) hfound honce ho
    fun name v text hv htext => ?_) hd'
  · exact ⟨found, d₁, stats, d', hfound, hd', hall, happlied⟩
  · have hv : v = .text (points "Ada".toList) ∨ v = .text (points "x\ny".toList) := by
      simp only [letterFields, FieldMap.of, FieldMap.value?, List.lookup_cons, List.lookup_nil] at hv
      split at hv
      · exact .inl (Option.some.inj hv).symm
      · split at hv
        · exact .inr (Option.some.inj hv).symm
        · cases hv
    rcases hv with rfl | rfl
    · obtain rfl : points "Ada".toList = text := Except.ok.inj htext
      decide
    · obtain rfl : points "x\ny".toList = text := Except.ok.inj htext
      decide

end Document

end Merge

end MailMerge
