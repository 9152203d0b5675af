import MailMerge.Proofs.Revised
import MailMerge.Proofs.Works

/-!
# Replacing text and taking elements away

What a replacement and the edits that take paragraphs, rows and tables away come to, as relations
between a forest and the one after it: `Revised`, and `Cleaned` for all that is taken away with a
paragraph that has no text. Both are framed.
-/

namespace MailMerge.Word

open MailMerge.Xml

section Replace

variable {f : Forest} {p : Nat} {e : Element}

/-- Content in which a span has been replaced, or has been cut out because the new text cannot be
written. New elements have numbers from `n` on. -/
def SpanReplaced (n : Nat) (c c' : Content) : Prop :=
  ∃ (p start stop : Nat) (lead : Nat → Option String) (r : Revision)
    (changes' : List (Nat × Change)) (appended' : Content),
    (r = brokenRevision p lead start stop (segmentsIn none c) ∨
      ∃ new, r = revision p lead start stop new (segmentsIn none c)) ∧
    List.Forall₂ SameChange r.changes changes' ∧ Fresh n changes' ∧
    appended'.face = r.appended.face ∧ (∀ i ∈ appended'.ids, n ≤ i) ∧
    c' = Revision.apply ⟨changes', appended', r.touched⟩ c

/-- A paragraph has been revised, or nothing has been done. -/
def Revised (p : Nat) (f f' : Forest) : Prop :=
  f' = f ∨ ∃ e s h rest inner, f.element? p = some e ∧ e.tag.name = Names.paragraph ∧
    SpanReplaced f.next e.inner inner ∧ Performed f f' e s h rest inner

theorem replaceSpan_revised {start last : Int} {new : List Char} (hf : f.Numbered)
    (hp : ∀ e, f.element? p = some e → e.tag.name = Names.paragraph) :
    Meets (Edit.replaceSpan p start last new) f (fun _ => Revised p f) fun _ => Revised p f := by
  simp only [Edit.replaceSpan, meets_bind, meets_get]
  have done : ∀ {e : Element} {r : Revision} {start stop : Nat}, f.element? p = some e →
      (r = brokenRevision p (Edit.leadIn f) start stop (Paragraph.segments e) ∨
        ∃ new, r = revision p (Edit.leadIn f) start stop new (Paragraph.segments e)) →
      r.Suits (Paragraph.segments e) → ∃ f', Edit.perform p r f = .ok () f' ∧ Revised p f f' := by
    intro e r start stop he hrev hr
    obtain ⟨f', s, h, rest, changes', appended', hperf, hspec, hsame, hfresh, hface, hnew⟩ :=
      perform_apply hf he (hp e he) hr
    exact ⟨f', hperf, .inr ⟨e, s, h, rest, _, he, hp e he, ⟨p, start, stop, _, r, changes',
      appended', hrev, hsame, hfresh, hface, hnew, rfl⟩, hspec⟩⟩
  split
  · exact .inl rfl
  · next e he =>
    split
    · exact .inl rfl
    · split
      · obtain ⟨f', hperf, hrev⟩ : ∃ f', Edit.perform p (revision p (Edit.leadIn f) start.toNat
            (last + 1).toNat new (Paragraph.segments e)) f = .ok () f' ∧ Revised p f f' :=
          done he (.inr ⟨new, rfl⟩) (suits_revision new)
        exact (meets_of_ok hperf).2 hrev
      · obtain ⟨f', hperf, hrev⟩ : ∃ f', Edit.perform p (brokenRevision p (Edit.leadIn f)
            start.toNat (last + 1).toNat (Paragraph.segments e)) f = .ok () f' ∧ Revised p f f' :=
          done he (.inl rfl) suits_brokenRevision
        exact (meets_bind.2 ((meets_of_ok hperf).2 hrev))

theorem single_segments (run : Option Nat) (c : Content) : Single (segmentsIn run c) := by
  intro s hs hed
  obtain ⟨e, -, he⟩ := segment_mem hs
  rcases (of?_eq_some he).2.2.2.2 hed with h | h <;> simp [h]

theorem nodup_nodes {run : Option Nat} {c : Content} (hc : c.ids.Nodup) :
    ((segmentsIn run c).map (·.node)).Nodup :=
  hc.sublist (nodes_sublist run c)

/-- What a replacement of characters comes to: the revision is done, unless there are characters
that cannot be written. -/
theorem replaceSpan_apply {start last : Nat} {new : List Char} (hf : f.Numbered)
    (he : f.element? p = some e) (hp : e.tag.name = Names.paragraph) (hle : start ≤ last)
    (hlast : last < (Paragraph.text e).length) :
    Meets (Edit.replaceSpan p start last new) f
      (fun _ f' => ∃ s h rest changes',
        Performed f f' e s h rest (Revision.apply ⟨changes', .nil, (revision p (Edit.leadIn f) start
          (last + 1) new (Paragraph.segments e)).touched⟩ e.inner) ∧
        List.Forall₂ SameChange (revision p (Edit.leadIn f) start (last + 1) new
          (Paragraph.segments e)).changes changes' ∧ Fresh f.next changes')
      fun err _ => err = .notXmlText ∧ new.all isXmlChar = false := by
  have hlast' : last < (shownBy (Paragraph.segments e)).length := hlast
  simp only [Edit.replaceSpan, meets_bind, meets_get, he]
  rw [if_neg (by omega)]
  split
  · simp only [Int.toNat_natCast, Int.toNat_natCast_add_one]
    have hr : (revision p (Edit.leadIn f) start (last + 1) new (Paragraph.segments e)).Suits
        (Paragraph.segments e) := suits_revision new
    obtain ⟨f', s, h, rest, changes', appended', hok, hperf, hsame, hfresh, hface, -⟩ :=
      perform_apply hf he hp hr
    have hnil : (revision p (Edit.leadIn f) start (last + 1) new
        (Paragraph.segments e)).appended = .nil :=
      appended_revision (by omega) (single_segments _ _) (Nat.lt_of_le_of_lt hle hlast')
    rw [hnil] at hface
    obtain rfl := Content.eq_nil_of_face hface
    exact (meets_of_ok hok).2 ⟨s, h, rest, changes', hperf, hsame, hfresh⟩
  · next hnew =>
    have hr : (brokenRevision p (Edit.leadIn f) (start : Int).toNat ((last : Int) + 1).toNat
        (Paragraph.segments e)).Suits (Paragraph.segments e) := suits_brokenRevision
    obtain ⟨f', -, -, -, -, hperf, -⟩ := perform_spec hf he hp hr
    exact meets_bind.2 ((meets_of_ok hperf).2 ⟨rfl, by simpa using hnew⟩)

/-- What becomes of a paragraph of which characters are replaced: its content is changed and tidied,
and shows the pieces with the new text in. -/
theorem replaceSpan_spec {start last : Nat} {new : List Char} (hf : f.Numbered)
    (he : f.element? p = some e) (hp : e.tag.name = Names.paragraph) (hle : start ≤ last)
    (hlast : last < (Paragraph.text e).length) :
    Meets (Edit.replaceSpan p start last new) f
      (fun _ f' => ∃ s h rest inner, Performed f f' e s h rest inner ∧
        Frame Spent (Written f.next (trails [] f.attached)) f.next (· = p) f f' ∧
        (Firm none e.inner → Firm none inner ∧ pieces (segmentsIn none inner) =
          splice start (last + 1) new (pieces (Paragraph.segments e))) ∧
        ∃ (r : Revision) (changes' : List (Nat × Change)), r.Suits (Paragraph.segments e) ∧
          List.Forall₂ SameChange r.changes changes' ∧ Fresh f.next changes' ∧
          inner = Revision.apply ⟨changes', .nil, r.touched⟩ e.inner ∧
          pieces ((Paragraph.segments e).flatMap (applied changes')) =
            splice start (last + 1) new (pieces (Paragraph.segments e)))
      fun err _ => err = .notXmlText ∧ new.all isXmlChar = false := by
  obtain ⟨hhas, hid⟩ := hf.element?_eq_some.1 he
  have hlast' : last < (shownBy (Paragraph.segments e)).length := hlast
  simp only [Edit.replaceSpan, meets_bind, meets_get, he]
  rw [if_neg (by omega)]
  split
  · simp only [Int.toNat_natCast, Int.toNat_natCast_add_one]
    have hr : (revision p (Edit.leadIn f) start (last + 1) new (Paragraph.segments e)).Suits
        (Paragraph.segments e) := suits_revision new
    obtain ⟨f', s, h, rest, inner, hperf, hspec, hpart⟩ := perform_spec hf he hp hr
    obtain ⟨hframe, changes', hsame, hfresh, happly, hshown⟩ :=
      hpart (appended_revision (by omega) (single_segments _ _) (Nat.lt_of_le_of_lt hle hlast'))
    have hpieces := pieces_revision (by omega) (Nat.lt_of_le_of_lt hle hlast')
      (nodup_nodes (hf.nodup_inner hhas)) (single_segments _ _) hsame
    rw [hid] at hframe
    exact (meets_of_ok hperf).2 ⟨s, h, rest, inner, hspec, hframe,
      fun hfirm => (hshown hfirm).imp_right (·.trans hpieces), _, changes', hr, hsame, hfresh,
      happly, hpieces⟩
  · next hnew =>
    have hr : (brokenRevision p (Edit.leadIn f) (start : Int).toNat ((last : Int) + 1).toNat
        (Paragraph.segments e)).Suits (Paragraph.segments e) := suits_brokenRevision
    obtain ⟨f', -, -, -, -, hperf, -⟩ := perform_spec hf he hp hr
    exact meets_bind.2 ((meets_of_ok hperf).2 ⟨rfl, by simpa using hnew⟩)

end Replace

section Clean

/-- What comes of taking a paragraph away. -/
inductive Lifted (p : Nat) (f : Forest) : Forest → Prop
  | none : Lifted p f f
  | emptied {e parent : Element} {above : List Element}
      (he : f.place? p = some ⟨e, parent :: above⟩) :
      Lifted p f (f.update p fun e => { e with inner := Edit.propertiesOf e.inner })
  | away {e parent : Element} {above : List Element}
      (he : f.place? p = some ⟨e, parent :: above⟩)
      (hg : parent.tag.name ∈ Names.endingWithParagraph → Edit.endsWithout p parent.inner = true)
      (hs : Paragraph.endsSection e = false) : Lifted p f (f.detach p)

theorem removeParagraph_spec (p : Nat) (f : Forest) :
    Meets (Edit.removeParagraph p) f (fun _ => Lifted p f) fun _ _ => False := by
  simp only [Edit.removeParagraph, meets_bind, meets_get]
  split
  · next e parent above he =>
    split
    · exact .emptied he
    · next hc =>
      simp only [Bool.or_eq_true, Bool.and_eq_true, not_or, Bool.not_eq_true] at hc
      refine .away he (fun hm => ?_) hc.1
      by_contra hw
      exact hc.2 (by simp [hm, hw])
  · exact .none

/-- Whether a paragraph is said to be away. -/
theorem removeParagraph_cases (p : Nat) (f : Forest) :
    Meets (Edit.removeParagraph p) f (fun away f' => if away then f' = f.detach p else
      f' = f ∨ f' = f.update p fun e => { e with inner := Edit.propertiesOf e.inner })
      fun _ _ => False := by
  simp only [Edit.removeParagraph, meets_bind, meets_get]
  split
  · split
    · exact .inr rfl
    · exact rfl
  · exact .inl rfl

/-- An element has been taken away, unless it is a root. -/
def removed (f : Forest) (id : Nat) : Forest :=
  match f.place? id with
  | some ⟨_, _ :: _⟩ => f.detach id
  | _ => f

/-- What comes of cleaning up in a row: nothing, or a row without text is away, and with it its
table if that has no other row. -/
inductive CleanedRow (f : Forest) : Forest → Prop
  | none : CleanedRow f f
  | row {r : Element} (hr : f.element? r.tag.id = some r) (hn : r.tag.name = Names.row)
      (he : Row.isEmpty r = true)
      (ht : ∀ t t', Merge.around? f Names.table r.tag.id = some t →
        (removed f r.tag.id).element? t.tag.id = some t' → Table.rows t' ≠ []) :
      CleanedRow f (removed f r.tag.id)
  | table {r t t' : Element} (hr : f.element? r.tag.id = some r) (hn : r.tag.name = Names.row)
      (he : Row.isEmpty r = true) (ht : Merge.around? f Names.table r.tag.id = some t)
      (ht' : (removed f r.tag.id).element? t.tag.id = some t') (hrows : Table.rows t' = []) :
      CleanedRow f (removed (removed f r.tag.id) t.tag.id)

/-- What comes of cleaning up behind a paragraph. -/
inductive Cleaned (p : Nat) (f : Forest) : Forest → Prop
  | none : Cleaned p f f
  | away {e : Element} {f₁ f₂ : Forest} (he : f.element? p = some e)
      (hm : Paragraph.isEmpty e = true) (h₁ : Lifted p f f₁) (h₂ : CleanedRow f₁ f₂) :
      Cleaned p f f₂

variable {d : Document}

/-- A row is taken away, and its table if it has no rows then. -/
theorem cleanRow_cases {r : Nat} {stats : Stats} : Meets (Merge.cleanRow r stats) d
    (fun stats' d' => SameParts d d' ∧ (stats' = { stats with rows := stats.rows + 1 } ∧
      d'.forest = removed d.forest r ∧
      (∀ t t', Merge.around? d.forest Names.table r = some t →
        (removed d.forest r).element? t.tag.id = some t' → Table.rows t' ≠ []) ∨
      stats' = { stats with rows := stats.rows + 1, tables := stats.tables + 1 } ∧
      ∃ t t', Merge.around? d.forest Names.table r = some t ∧
        (removed d.forest r).element? t.tag.id = some t' ∧ Table.rows t' = [] ∧
          d'.forest = removed (removed d.forest r) t.tag.id)) fun _ _ => False := by
  simp only [Merge.cleanRow, Edit.remove, meets_bind, meets_view, meets_edit, meets_modify,
    meets_report]
  split
  · next hnone =>
    refine ⟨rfl, .inl ⟨rfl, rfl, fun t t' ht => ?_⟩⟩
    simp [ht] at hnone
  · next table htable =>
    obtain ⟨t, ht, rfl⟩ := Option.map_eq_some_iff.1 htable
    simp only [meets_bind, meets_view]
    split
    · next hrows =>
      obtain ⟨t', ht', hr'⟩ := Option.map_eq_some_iff.1 hrows
      exact ⟨rfl, .inr ⟨rfl, t, t', ht, ht', hr', rfl⟩⟩
    · next hrows =>
      refine ⟨rfl, .inl ⟨rfl, rfl, fun t₁ t' ht₁ ht' hr' => hrows ?_⟩⟩
      obtain rfl := Option.some.inj (ht.symm.trans ht₁)
      exact Option.map_eq_some_iff.2 ⟨t', ht', hr'⟩

theorem cleanRow_spec {r : Element} {stats : Stats} (hr : d.forest.element? r.tag.id = some r)
    (hn : r.tag.name = Names.row) (he : Row.isEmpty r = true) :
    Meets (Merge.cleanRow r.tag.id stats) d
      (fun _ d' => SameParts d d' ∧ CleanedRow d.forest d'.forest) fun _ _ => False := by
  refine cleanRow_cases.mono ?_ fun _ _ h => h
  rintro _ d' ⟨hs, ⟨-, hf, ht⟩ | ⟨-, t, t', ht, ht', hrows, hf⟩⟩
  · exact ⟨hs, hf ▸ .row hr hn he ht⟩
  · exact ⟨hs, hf ▸ .table hr hn he ht ht' hrows⟩

theorem nearest?_spec {name : Name} {place : Content.Place} {e : Element}
    (h : nearest? name place = some e) : e ∈ place.around ∧ e.tag.name = name :=
  ⟨List.mem_of_find?_eq_some h, by simpa using List.find?_some h⟩

/-- What is said of cleaning up in a cell is said of a row that is taken away, and of nothing done. -/
theorem cleanCell_meets {cell : Nat} {stats : Stats} {good : Stats → Document → Prop}
    {bad : Error → Document → Prop}
    (stays : (∀ place r, d.forest.place? cell = some place → Cell.isEmpty place.element = true →
      nearest? Names.row place = some r → Row.isEmpty r = false) → good stats d)
    (row : ∀ place r, d.forest.place? cell = some place → Cell.isEmpty place.element = true →
      nearest? Names.row place = some r → Row.isEmpty r = true →
        Meets (Merge.cleanRow r.tag.id stats) d good bad) :
    Meets (Merge.cleanCell cell stats) d good bad := by
  simp only [Merge.cleanCell, meets_bind, meets_view]
  split
  · next hplace => exact stays fun place r h => by simp [hplace] at h
  · next place hplace =>
    split
    · next hm =>
      refine stays fun place' r h he => ?_
      obtain rfl := Option.some.inj (hplace.symm.trans h)
      simp [he] at hm
    · next hm =>
      have he : Cell.isEmpty place.element = true := by simpa using hm
      split
      · next hnone =>
        refine stays fun place' r h _ hr => ?_
        obtain rfl := Option.some.inj (hplace.symm.trans h)
        simp [hnone] at hr
      · next r hr =>
        split
        · next hrow => exact row place r hplace he hr hrow
        · next hrow =>
          refine stays fun place' r' h _ hr' => ?_
          obtain rfl := Option.some.inj (hplace.symm.trans h)
          obtain rfl := Option.some.inj (hr.symm.trans hr')
          simpa using hrow

theorem cleanCell_spec {cell : Nat} {stats : Stats} (hf : d.forest.Numbered) :
    Meets (Merge.cleanCell cell stats) d
      (fun _ d' => SameParts d d' ∧ CleanedRow d.forest d'.forest) fun _ _ => False := by
  refine cleanCell_meets (fun _ => ⟨rfl, .none⟩) fun place r hplace _ hr he => ?_
  obtain ⟨hm, hn⟩ := nearest?_spec hr
  obtain ⟨s, h, rest, hs, -, ha⟩ := hf.place?_eq hplace
  refine cleanRow_spec (hf.element?_of_has ?_) hn he
  exact Forest.has_iff.2 ⟨s, hs ▸ Hole.mem_fill_of_around (ha ▸ hm)⟩

/-- What is said of cleaning up behind a paragraph is said of nothing done, if it has text, and
otherwise of the forest it has been lifted in and of what is cleaned up in its cell then. -/
theorem clean_meets {p : Nat} {stats : Stats} {good : Stats → Document → Prop}
    {bad : Error → Document → Prop}
    (full : (∀ place, d.forest.place? p = some place →
      Paragraph.isEmpty place.element = false) → good stats d)
    (lifted : ∀ place, d.forest.place? p = some place → Paragraph.isEmpty place.element = true →
      Meets (Edit.removeParagraph p) d.forest (fun away f₁ => ∀ stats₁ d₁,
        stats₁ = (if away then { stats with paragraphs := stats.paragraphs + 1 } else stats) →
        SameParts d d₁ → d₁.forest = f₁ →
          (nearest? Names.cell place = none → good stats₁ d₁) ∧
          ∀ cell, nearest? Names.cell place = some cell →
            Meets (Merge.cleanCell cell.tag.id stats₁) d₁ good bad) fun _ _ => False) :
    Meets (Merge.clean p stats) d good bad := by
  simp only [Merge.clean, meets_bind, meets_view]
  split
  · next hplace => exact full fun place h => by simp [hplace] at h
  · next place hplace =>
    split
    · next hm =>
      refine full fun place' h => ?_
      obtain rfl := Option.some.inj (hplace.symm.trans h)
      simpa using hm
    · next hm =>
      simp only [meets_bind, meets_edit]
      refine (lifted place hplace (by simpa using hm)).mono (fun away f₁ h => ?_)
        fun _ _ h => h.elim
      -- What is reported changes nothing but the log.
      have logged : ∀ log, SameParts d { d with forest := f₁, log := log } := fun _ => rfl
      cases hcell : nearest? Names.cell place with
      | none => cases away <;> exact (h _ _ rfl (logged _) rfl).1 hcell
      | some cell => cases away <;> exact (h _ _ rfl (logged _) rfl).2 cell hcell

/-! ### Frames -/

/-- Nothing new comes up when something is taken away. -/
abbrev Loss (n : Nat) (but : Nat → Prop) (f f' : Forest) : Prop :=
  Frame (fun _ _ => True) (fun _ => False) n but f f'

theorem pieces_of_text {segments : List Segment} (h : shownBy segments = []) :
    pieces segments = [] := by
  induction segments with
  | nil => rfl
  | cons s rest ih =>
    simp only [shownBy, List.flatMap_cons, List.append_eq_nil_iff] at h
    simp [pieces_cons, h.1, ih h.2]

variable {f f' : Forest} {p : Nat} {but : Nat → Prop}

/-- A paragraph that is taken away or emptied may show less, unless it has no text. -/
theorem lifted_frame (hf : f.Numbered)
    (hp : ∀ e, f.element? p = some e → e.tag.name = Names.paragraph)
    (hb : ∀ e, f.element? p = some e → Paragraph.text e ≠ [] → but p) (hl : Lifted p f f') :
    Loss f.next but f f' := by
  cases hl with
  | none => exact .refl hf
  | @away e _ _ he _ _ =>
    obtain ⟨s, h, rest, hs, rfl, -⟩ := hf.place?_eq he
    have hpar := hp e (Forest.element?_of_place? he)
    exact (detach_frame hf hs (by simp [hpar]) fun _ _ => trivial).mono (Nat.le_refl _)
      (fun _ _ h => h) (fun _ h => h) fun _ h => h.elim
  | @emptied e _ _ he =>
    obtain ⟨s, h, rest, hs, rfl, -⟩ := hf.place?_eq he
    have hm : e ∈ (f.side s).elements :=
      hs ▸ Hole.self_mem_fill _ _ _ _
    have hin : e.inner.ids.Nodup := Content.nodup_inner (hf.side_nodup s) hm
    have hpar := hp e (Forest.element?_of_place? he)
    have hsw : Swept (fun _ _ => True) (fun _ => False) f.next (key e.tag :: Around.trail h [])
        e.inner (Edit.propertiesOf e.inner) := propertiesOf_swept (fun _ _ _ => trivial) _
    have hsub := hsw.ids_sublist fun _ h => h
    obtain ⟨hframe, hhas⟩ := update_frame
      (g := fun e => { e with inner := Edit.propertiesOf e.inner }) hf (Nat.le_refl _) hs hpar rfl
      hsw.shift (fun q hq hn => hsw.paragraph_mem hq hn) (hin.sublist hsub)
      fun i hi => .inl (hsub.subset hi)
    refine ⟨hframe.numbered, hframe.next, fun q hq hqp hnb hqf => ?_, hframe.known, hframe.shift⟩
    by_cases hid : q.tag.id = e.tag.id
    · obtain rfl := hf.eq_of_id hq (has_of_side hm) hid
      have htext : Paragraph.text q = [] := by
        by_contra ht
        exact hnb (hb q (Forest.element?_of_place? he) ht)
      obtain ⟨hss, hfi⟩ := propertiesOf_segments none q.inner
      have hnil : pieces (segmentsIn none q.inner) = [] := pieces_of_text htext
      refine ⟨_, hhas, rfl, hfi hqf, ?_, fun h => ?_⟩
      · rw [hnil]
        exact List.sublist_nil.1 (hnil ▸ pieces_sublist hss)
      · exact List.sublist_nil.1 (h ▸ hss)
    · exact hframe.kept q hq hqp hid hqf

/-- An edit about which nothing is said but that numbers name what they named. -/
abbrev Move (f f' : Forest) : Prop :=
  Frame (fun _ _ => True) (fun _ => True) f.next (fun _ => True) f f'

theorem Frame.move {gone : List Key → List Key → Prop} {come : List Key → Prop}
    (h : Frame gone come f.next but f f') : Move f f' :=
  h.mono (Nat.le_refl _) (fun _ _ _ => trivial) (fun _ _ => trivial) fun _ _ => trivial

theorem Lifted.move (hl : Lifted p f f') (hf : f.Numbered)
    (hp : ∀ e, f.element? p = some e → e.tag.name = Names.paragraph) : Move f f' := by
  have h : Loss f.next (fun _ => True) f f' := lifted_frame hf hp (fun _ _ _ => trivial) hl
  exact h.move

theorem removed_frame {id : Nat} (hf : f.Numbered)
    (hn : ∀ e, f.element? id = some e → e.tag.name ∈ [Names.paragraph, Names.row, Names.table]) :
    Loss f.next but f (removed f id) := by
  unfold removed
  split
  · next e parent above he =>
    obtain ⟨s, h, rest, hs, rfl, -⟩ := hf.place?_eq he
    exact (detach_frame hf hs (hn e (Forest.element?_of_place? he)) fun _ _ => trivial).mono
      (Nat.le_refl _) (fun _ _ h => h) (fun _ h => h) fun _ h => h.elim
  · exact .refl hf

theorem removed_row {r : Element} (hf : f.Numbered) (hr : f.element? r.tag.id = some r)
    (hn : r.tag.name = Names.row) : Loss f.next but f (removed f r.tag.id) := by
  refine removed_frame hf fun e he => ?_
  obtain rfl := Option.some.inj (he.symm.trans hr)
  simp [hn]

/-- A table around a row is still one when the row is away. -/
theorem removed_table {r t : Element} (hf : f.Numbered) (hr : f.element? r.tag.id = some r)
    (hn : r.tag.name = Names.row) (ht : Merge.around? f Names.table r.tag.id = some t) :
    Loss f.next but f (removed f r.tag.id) ∧
      ∀ e, (removed f r.tag.id).element? t.tag.id = some e → e.tag.name = Names.table := by
  have h₁ : Loss f.next but f (removed f r.tag.id) := removed_row hf hr hn
  refine ⟨h₁, fun e he => ?_⟩
  obtain ⟨place, hplace, hnear⟩ := Option.bind_eq_some_iff.1 ht
  obtain ⟨hm, htn⟩ := nearest?_spec hnear
  obtain ⟨s, h, rest, hs, -, ha⟩ := hf.place?_eq hplace
  have htf : f.Has t :=
    Forest.has_iff.2 ⟨s, hs ▸ Hole.mem_fill_of_around (ha ▸ hm)⟩
  obtain ⟨hhas, hid⟩ := h₁.numbered.element?_eq_some.1 he
  obtain ⟨q, hq, hk⟩ := h₁.known e hhas (hid ▸ hf.has_lt htf)
  obtain rfl := hf.eq_of_id hq htf ((congrArg Key.id hk).trans hid)
  exact (congrArg Key.name hk).symm.trans htn

theorem removed_row_move {r : Element} (hf : f.Numbered) (hr : f.element? r.tag.id = some r)
    (hn : r.tag.name = Names.row) : Move f (removed f r.tag.id) := by
  have h : Loss f.next (fun _ => True) f (removed f r.tag.id) := removed_row hf hr hn
  exact h.move

theorem cleanedRow_frame (hf : f.Numbered) (h : CleanedRow f f') : Loss f.next but f f' := by
  cases h with
  | none => exact .refl hf
  | row hr hn _ _ => exact removed_row hf hr hn
  | table hr hn _ ht _ _ =>
    obtain ⟨h₁, h₂⟩ : Loss f.next but f _ ∧ _ := removed_table hf hr hn ht
    exact h₁.trans (removed_frame h₁.numbered fun e he => by simp [h₂ e he]) h₁.next

theorem cleaned_frame (hf : f.Numbered)
    (hp : ∀ e, f.element? p = some e → e.tag.name = Names.paragraph) (h : Cleaned p f f') :
    Loss f.next but f f' := by
  cases h with
  | none => exact .refl hf
  | @away e _ _ he hm h₁ h₂ =>
    have htext : Paragraph.text e = [] := by
      simp only [Paragraph.isEmpty, Bool.and_eq_true, decide_eq_true_eq] at hm
      exact hm.1
    have h₁ : Loss f.next but f _ := lifted_frame hf hp (fun e' he' ht => absurd
      (Option.some.inj (he'.symm.trans he) ▸ htext) ht) h₁
    exact h₁.trans (cleanedRow_frame h₁.numbered h₂) h₁.next

theorem clean_spec {stats : Stats} (hf : d.forest.Numbered)
    (hp : ∀ e, d.forest.element? p = some e → e.tag.name = Names.paragraph) :
    Meets (Merge.clean p stats) d (fun _ d' => SameParts d d' ∧ Cleaned p d.forest d'.forest)
      fun _ _ => False := by
  refine clean_meets (fun _ => ⟨rfl, .none⟩) fun place hplace hm => ?_
  have he : d.forest.element? p = some place.element := Forest.element?_of_place? hplace
  refine (removeParagraph_spec p d.forest).mono ?_ fun _ _ h => h
  rintro away _ h₁ stats₁ d₁ - hs rfl
  refine ⟨fun _ => ⟨hs, .away he hm h₁ .none⟩, fun cell _ => ?_⟩
  refine (cleanCell_spec (h₁.move hf hp).numbered).mono ?_ fun _ _ h => h
  rintro _ d' ⟨hs', h₂⟩
  exact ⟨hs.trans hs', .away he hm h₁ h₂⟩

end Clean

end MailMerge.Word
