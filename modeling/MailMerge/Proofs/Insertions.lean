import MailMerge.Proofs.Edits
import MailMerge.Proofs.Reading

/-!
# Inserting text

A replacement whose last character is the one before its first takes nothing away. The new text goes
into the first text element that reaches the place (`TextAt`). Where no text element does, between
tabs and line breaks or in a paragraph without text, it goes into a run behind all else, wherever
the place is: `replaceSpan_insert` says which of the two comes of an insertion.
-/

namespace MailMerge.Word

open MailMerge.Xml MailMerge.Xml.Reader

/-! ## Where new text goes -/

/-- Whether a text element has the characters on both sides of a place, or begins or ends there. -/
def TextAt (k : Nat) (segments : List Segment) : Prop :=
  ∃ front s back, segments = front ++ s :: back ∧ s.editable = true ∧
    (shownBy front).length ≤ k ∧ k ≤ (shownBy front).length + s.chars.length

theorem shownBy_cons (s : Segment) (rest : List Segment) :
    shownBy (s :: rest) = s.chars ++ shownBy rest := rfl

theorem textAt_cons {k : Nat} {s : Segment} {rest : List Segment} : TextAt k (s :: rest) ↔
    s.editable = true ∧ k ≤ s.chars.length ∨
      s.chars.length ≤ k ∧ TextAt (k - s.chars.length) rest := by
  constructor
  · rintro ⟨front, x, back, h, he, hle, hge⟩
    rcases front with _ | ⟨t, front⟩
    · obtain ⟨rfl, rfl⟩ := List.cons.inj h
      exact .inl ⟨he, by simpa [shownBy] using hge⟩
    · obtain ⟨rfl, rfl⟩ := List.cons.inj h
      rw [shownBy_cons, List.length_append] at hle hge
      exact .inr ⟨by omega, front, x, back, rfl, he, by omega, by omega⟩
  · rintro (⟨he, hk⟩ | ⟨hk, front, x, back, rfl, he, hle, hge⟩)
    · exact ⟨[], s, rest, rfl, he, by simp [shownBy], by simpa [shownBy] using hk⟩
    · refine ⟨s :: front, x, back, rfl, he, ?_, ?_⟩ <;> rw [shownBy_cons, List.length_append] <;>
        omega

theorem cut_self (k : Nat) : ∀ (pos : Nat) (segments : List Segment), cut k k pos segments = []
  | _, [] => rfl
  | pos, s :: rest => by
    rw [cut, if_neg (by omega)]
    exact cut_self k _ rest

/-- The first text element that reaches the place is where the text goes. -/
theorem anchor?_self {k pos : Nat} (segments : List Segment) (hpos : pos ≤ k) :
    (∃ front s back, segments = front ++ s :: back ∧ s.editable = true ∧
      (shownBy front).length ≤ k - pos ∧ k - pos ≤ (shownBy front).length + s.chars.length ∧
      anchor? k k pos segments = some (.segment s
        (s.chars.take (k - pos - (shownBy front).length))
        (s.chars.drop (k - pos - (shownBy front).length)))) ∨
      ¬TextAt (k - pos) segments ∧ anchor? k k pos segments = none := by
  induction segments generalizing pos with
  | nil => exact .inr ⟨by rintro ⟨front, s, back, h, -⟩; simp at h, rfl⟩
  | cons s rest ih =>
    by_cases hs : s.editable = true ∧ k ≤ pos + s.chars.length
    · refine .inl ⟨[], s, rest, rfl, hs.1, Nat.zero_le _, by simp [shownBy]; omega, ?_⟩
      have hreach : k < pos + s.chars.length ∨ k = pos + s.chars.length := by omega
      simp [anchor?, hs.1, hpos, hreach, drop_min, shownBy]
    · have hskip : anchor? k k pos (s :: rest) = anchor? k k (pos + s.chars.length) rest := by
        have : ¬(s.editable && decide (pos ≤ k) && (decide (k < pos + s.chars.length) ||
            (decide (k = k) && decide (k = pos + s.chars.length)))) = true := by
          simp only [Bool.and_eq_true, Bool.or_eq_true, decide_eq_true_eq]
          rintro ⟨⟨he, -⟩, hlt | ⟨-, heq⟩⟩ <;> exact hs ⟨he, by omega⟩
        rw [anchor?, if_neg this]
      have hnot : ¬(s.editable = true ∧ k - pos ≤ s.chars.length) := fun h =>
        hs ⟨h.1, by omega⟩
      rw [hskip, textAt_cons]
      by_cases hnext : pos + s.chars.length ≤ k
      · rcases ih hnext with ⟨front, x, back, rfl, he, hle, hge, ha⟩ | ⟨hno, ha⟩
        · refine .inl ⟨s :: front, x, back, rfl, he, ?_, ?_, ?_⟩
          · rw [shownBy_cons, List.length_append]
            omega
          · rw [shownBy_cons, List.length_append]
            omega
          · rw [ha, shownBy_cons, List.length_append]
            simp only [Nat.sub_sub, Nat.add_assoc]
        · refine .inr ⟨fun h => ?_, ha⟩
          rcases h with h | ⟨-, h⟩
          · exact hnot h
          · exact hno (by rwa [← Nat.sub_sub])
      · refine .inr ⟨fun h => ?_, anchor?_of_lt (by omega)⟩
        rcases h with h | ⟨h, -⟩
        · exact hnot h
        · omega

/-! ## What is shown then -/

theorem shownBy_written {r : Nat} {lead : Option String} {cs : List Char} {c : Content}
    (h : c.face = (textContent lead cs).face) (hcr : '\r' ∉ cs) :
    shownBy (segmentsIn (some r) c) = cs := by
  rw [← spelled_pieces, pieces_textContent h, spelled_eq, marks_written, List.map_map,
    Function.comp_def, List.map_id', lineFeeds_eq_self hcr]

/-- A segment is written anew with other text in it, and nothing else is changed. -/
theorem shownBy_anew {front back : List Segment} {s : Segment} {d : Content}
    {lead : Option String} {cs : List Char} (hn : ((front ++ s :: back).map (·.node)).Nodup)
    (hd : d.face = (textContent lead cs).face) (hcr : '\r' ∉ cs) :
    shownBy ((front ++ s :: back).flatMap (applied [(s.node, .swap d)])) =
      shownBy front ++ cs ++ shownBy back := by
  have untouched : ∀ l : List Segment, l.flatMap (applied []) = l := fun l => by
    rw [List.flatMap_congr fun x _ => applied_of_none rfl, List.flatMap_singleton']
  have hall : (front ++ s :: back).flatMap (applied [(s.node, .swap d)]) = _ :=
    flatMap_applied_own [.swap d] hn fun _ _ => rfl
  rw [hall, untouched, shownBy_append, shownBy_append, List.append_assoc]
  simp [applied, shownBy_written hd hcr]

/-- What is shown after an insertion, in the paragraph as it was and in what is put behind it. -/
theorem shownBy_insertion {p k : Nat} {lead : Nat → Option String} {new : List Char}
    {segments : List Segment} {changes' : List (Nat × Change)} {appended' : Content}
    (hn : (segments.map (·.node)).Nodup) (hcr : ∀ s ∈ segments, '\r' ∉ s.chars)
    (hnew : '\r' ∉ new)
    (hs : List.Forall₂ SameChange (revision p lead k k new segments).changes changes')
    (hface : appended'.face = (revision p lead k k new segments).appended.face) :
    (TextAt k segments → shownBy (segments.flatMap (applied changes')) ++
        shownBy (segmentsIn none appended') =
          (shownBy segments).take k ++ new ++ (shownBy segments).drop k) ∧
      (¬TextAt k segments → shownBy (segments.flatMap (applied changes')) ++
        shownBy (segmentsIn none appended') = shownBy segments ++ new) := by
  have unchanged : segments.flatMap (applied []) = segments := by
    rw [List.flatMap_congr fun x _ => applied_of_none rfl, List.flatMap_singleton']
  have nothing {c : Content} (h : c.face = Content.nil.face) : shownBy (segmentsIn none c) = [] :=
    shownBy_of_face h rfl
  unfold revision at hs hface
  simp only [cut_self, List.map_nil] at hs hface
  split at hs
  · next hnil =>
    subst hnil
    simp only [if_true] at hface
    cases hs
    simp [unchanged, nothing hface]
  next hne =>
  rw [if_neg hne] at hface
  rcases anchor?_self segments (Nat.zero_le k) with
    ⟨front, s, back, rfl, he, hle, hge, ha⟩ | ⟨hno, ha⟩
  · simp only [Nat.sub_zero] at hle hge ha
    simp only [target, ha] at hs hface
    have hat : TextAt k (front ++ s :: back) := ⟨front, s, back, rfl, he, hle, hge⟩
    refine ⟨fun _ => ?_, fun h => absurd hat h⟩
    have hsr : '\r' ∉ s.chars := hcr s (by simp)
    cases hs with
    | cons hb hnil =>
      cases hnil
      cases hb with
      | swap _ hd =>
        rw [nothing hface, List.append_nil, shownBy_anew hn hd, shownBy_append, shownBy_cons,
          List.take_append, List.drop_append, List.take_of_length_le hle,
          List.drop_eq_nil_of_le hle, List.take_append_of_le_length (by omega),
          List.drop_append_of_le_length (by omega)]
        · simp
        · simp only [List.mem_append, not_or]
          exact ⟨⟨fun h => hsr (List.mem_of_mem_take h), hnew⟩,
            fun h => hsr (List.mem_of_mem_drop h)⟩
  · simp only [Nat.sub_zero] at hno
    simp only [target, ha, cut_self] at hs hface
    cases hs
    refine ⟨fun h => absurd h hno, fun _ => ?_⟩
    have hrun : shownBy (segmentsIn none (newRun (lead p) (textContent (lead p) new))) = new := by
      have hr : Names.run ∉ Names.concealing := by decide
      simpa [newRun, newTag, segmentsIn, runOf, hr] using
        shownBy_written (r := 0) (rfl : (textContent (lead p) new).face = _) hnew
    rw [unchanged, shownBy_of_face hface rfl, hrun]

/-! ## Insertions -/

/-- Text that is inserted at a place goes there if a text element reaches the place or there is
nothing behind it, and else to the end of the paragraph. It fails for nothing but characters that
cannot be written. -/
theorem replaceSpan_insert {f : Forest} {p : Nat} {e : Element} {k : Nat} {new : List Char}
    (hf : f.Numbered) (he : f.element? p = some e) (hp : e.tag.name = Names.paragraph)
    (hl : Leafed none e.inner) (hcr : ∀ s ∈ Paragraph.segments e, '\r' ∉ s.chars)
    (hk : k ≤ (Paragraph.text e).length) (hnew : '\r' ∉ new) :
    Meets (Edit.replaceSpan p k ((k : Int) - 1) new) f
      (fun _ f' => ∃ e', f'.element? p = some e' ∧
        (TextAt k (Paragraph.segments e) ∨ k = (Paragraph.text e).length →
          Paragraph.text e' = (Paragraph.text e).take k ++ new ++ (Paragraph.text e).drop k) ∧
        (¬TextAt k (Paragraph.segments e) → Paragraph.text e' = Paragraph.text e ++ new))
      fun err _ => err = .notXmlText ∧ new.all isXmlChar = false := by
  obtain ⟨hhas, hid⟩ := hf.element?_eq_some.1 he
  obtain ⟨s, hm⟩ := Forest.has_iff.1 hhas
  have hin : e.inner.ids.Nodup := Content.nodup_inner (hf.side_nodup s) hm
  have hk' : k ≤ (shownBy (Paragraph.segments e)).length := hk
  simp only [Edit.replaceSpan, meets_bind, meets_get, he]
  rw [if_neg (by omega)]
  split
  · simp only [Int.sub_add_cancel, Int.toNat_natCast]
    have hr : (revision p (Edit.leadIn f) k k new (Paragraph.segments e)).Suits
        (Paragraph.segments e) := suits_revision new
    obtain ⟨f', _, h, rest, changes', appended', hok, hperf, hsame, hfresh, hface, -⟩ :=
      perform_apply hf he hp hr
    -- Nothing is cut out, so no run has to be looked at again.
    have htouched : (revision p (Edit.leadIn f) k k new (Paragraph.segments e)).touched = [] := by
      unfold revision
      simp only [cut_self]
      split <;> first | rfl | (split <;> rfl)
    rw [htouched] at hperf
    have hshown : Paragraph.text ⟨e.tag, Revision.apply ⟨changes', appended', []⟩ e.inner⟩ =
        shownBy ((Paragraph.segments e).flatMap (applied changes')) ++
          shownBy (segmentsIn none appended') := by
      simp only [Paragraph.text, Paragraph.segments, Revision.apply, List.foldl_nil]
      rw [segmentsIn_append, segmentsIn_changed hin (hr.fits hsame hfresh) hl, shownBy_append]
    obtain ⟨hat, hend⟩ := shownBy_insertion (nodup_nodes hin) hcr hnew hsame hface
    refine (meets_of_ok hok).2 ⟨_, hid ▸ hperf.frame.numbered.element?_of_has hperf.has, ?_, ?_⟩
    · intro hcase
      by_cases htext : TextAt k (Paragraph.segments e)
      · exact hshown.trans (hat htext)
      · have hlast : k = (Paragraph.text e).length := hcase.resolve_left htext
        rw [hlast, List.take_length, List.drop_length, List.append_nil]
        exact hshown.trans (hend htext)
    · exact fun htext => hshown.trans (hend htext)
  · next hnot =>
    have hr : (brokenRevision p (Edit.leadIn f) (k : Int).toNat ((k : Int) - 1 + 1).toNat
        (Paragraph.segments e)).Suits (Paragraph.segments e) := suits_brokenRevision
    obtain ⟨f', -, -, -, -, hok, -⟩ := perform_spec hf he hp hr
    exact meets_bind.2 ((meets_of_ok hok).2 ⟨rfl, by simpa using hnot⟩)

/-- A paragraph with two tabs between texts. -/
def twoTabs : Document := .ofBody [
  Document.node Names.paragraph [
    Document.textRun "ab",
    Document.node Names.run [
      Document.node Names.tab [], Document.node Names.tab [],
      Document.node Names.text [.text "c".toList]]]]

/-- Where a text ends, new text can be put. -/
theorem replaceSpan_insert_twoTabs : ∃ e f' e', twoTabs.forest.element? 2 = some e ∧
    Edit.replaceSpan 2 (2 : Nat) ((2 : Nat) - 1) "x\ny".toList twoTabs.forest = .ok () f' ∧
    f'.element? 2 = some e' ∧ Paragraph.text e' = "abx\ny\t\tc".toList := by
  obtain ⟨e, he⟩ : ∃ e, twoTabs.forest.element? 2 = some e :=
    Option.isSome_iff_exists.1 (by decide +kernel)
  have hfacts : ∀ e ∈ twoTabs.forest.element? 2, e.tag.name = Names.paragraph ∧
      Leafed none e.inner ∧ (∀ s ∈ Paragraph.segments e, '\r' ∉ s.chars) ∧
      Paragraph.text e = "ab\t\tc".toList ∧
      ∃ s ∈ (Paragraph.segments e).head?, s.editable = true ∧ s.chars.length = 2 := by
    decide +kernel
  obtain ⟨hp, hl, hcr, htext, s, hs, hed, hlen⟩ := hfacts e he
  have hat : TextAt 2 (Paragraph.segments e) := by
    obtain ⟨rest, hrest⟩ := List.head?_eq_some_iff.1 hs
    exact ⟨[], s, rest, hrest, hed, by simp [shownBy], by simp [shownBy, hlen]⟩
  have hmeets := replaceSpan_insert (Document.sound_ofRoot _ : twoTabs.Sound).1.numbered he hp hl
    hcr (k := 2) (by rw [htext]; decide) (show '\r' ∉ "x\ny".toList by decide)
  obtain ⟨_, f', hok, e', he', hnew, -⟩ := (hmeets.mono (fun _ _ h => h) fun _ _ h =>
    absurd h.2 (by decide +kernel)).exists_ok
  exact ⟨e, f', e', he, hok, he', (hnew (.inl hat)).trans (by rw [htext]; decide)⟩

/-- Between two tabs no text can be put: it goes to the end. -/
theorem inserted_between_tabs : ∃ f',
    Edit.replaceSpan 2 (3 : Nat) ((3 : Nat) - 1) "x".toList twoTabs.forest = .ok () f' ∧
    (twoTabs.forest.element? 2).map Paragraph.text = some "ab\t\tc".toList ∧
    (f'.element? 2).map Paragraph.text = some "ab\t\tcx".toList := by
  obtain ⟨_, f', hok, h⟩ := exists_of_ok (p := fun f' : Forest =>
      (twoTabs.forest.element? 2).map Paragraph.text = some "ab\t\tc".toList ∧
        (f'.element? 2).map Paragraph.text = some "ab\t\tcx".toList)
    (x := Edit.replaceSpan 2 (3 : Nat) ((3 : Nat) - 1) "x".toList) (s := twoTabs.forest)
    (by decide +kernel)
  exact ⟨f', hok, by simpa using h⟩

end MailMerge.Word
