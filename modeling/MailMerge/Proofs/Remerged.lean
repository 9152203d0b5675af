import MailMerge.Proofs.Origins
import MailMerge.Proofs.Relisted
import MailMerge.Proofs.Rescanned

/-!
# Merging again

After a merge with values that have no brackets, a second one with the same fields finds only tags
that nothing replaces, and changes nothing (`Merge.run_again`). Every bracket of a paragraph in which
something is replaced must be part of a tag: without this, what is left around a tag may be one.
-/

namespace MailMerge

open Xml Xml.Reader Word

namespace Construct

theorem scan_literal {cs : List Char} (h : Literal cs) : scan cs = [] := by
  have : scanFrom 0 (cs ++ []) = _ := scanFrom_literals h
  rwa [List.append_nil, scanFrom_nil] at this

theorem literal_of_mem_splitLines {cs : List Char} (h : Literal cs) :
    ∀ line ∈ Text.splitLines cs, Literal line := by
  fun_induction Text.splitLines cs <;> simp_all

end Construct

namespace Merge

open Construct

variable {f₀ f : Forest} {todo done chosen : List Substitution} {s : Substitution}

/-! ## What a merge brings up -/

/-- Every attached paragraph has been attached in `f₀`, or has no brackets. -/
structure Traced (f₀ f : Forest) : Prop where
  stand : AllStand f
  comes : ∀ x ∈ f.attached.elements, x.tag.name = Names.paragraph →
    (∃ p ∈ f₀.attached.elements, p.tag.name = Names.paragraph ∧ p.tag.id = x.tag.id) ∨
      Literal (Paragraph.text x)

theorem Traced.start (hf : f.Numbered) (ho : InOrder f) : Traced f f :=
  ⟨fun _ hx hp _ ht => ho.standing hf hx hp ht, fun x hx hp => .inl ⟨x, hx, hp, rfl⟩⟩

theorem Traced.step {d : Document} {stats : Stats} (ht : Traced f₀ d.forest)
    (h : Stage f₀ (todo ++ [s]) done d.forest) (hf : f₀.Numbered)
    (hplan : Planned f₀ (todo ++ s :: done)) (hvalue : s.value.getLast? ≠ some '\r')
    (hlit : Literal s.value) :
    Meets (substitute stats s) d (fun _ d' => Traced f₀ d'.forest) fun _ _ => True := by
  obtain ⟨p, q, u, hp⟩ := h.exists_pending hf hplan hvalue
  refine (hp.substitute h.numbered).mono ?_ fun _ _ _ => trivial
  rintro _ d' ⟨lines, hsub, hlines⟩
  have hne : Paragraph.text q ≠ [] := by
    obtain ⟨front, back, he, -⟩ := hp.standsIn
    simp [he, hp.due.ne_nil]
  have horig := hsub.origins ht.stand h.numbered h.bare hp.stands hne
  refine ⟨horig.stand, fun x hx hn => ?_⟩
  cases horig.comes x hx hn with
  | changed hi => exact .inl ⟨p, hp.attached, hp.name, hp.id_eq.symm.trans hi.symm⟩
  | @kept y hy htag htext =>
    rw [htext, ← htag]
    exact ht.comes y hy (htag ▸ hn)
  | empty htext => exact .inr (htext ▸ literal_nil)
  | new hm =>
    obtain ⟨line, hline, he⟩ := List.mem_map.1 hm
    rw [← he]
    rcases hlines with rfl | ⟨rfl, -⟩
    · cases hline
    · exact .inr (literal_lineFeeds (literal_of_mem_splitLines hlit _ (List.mem_of_mem_tail hline)))

theorem apply_traced {d : Document} {stats : Stats} (hf : d.forest.Numbered)
    (ho : InOrder d.forest) (hplan : Planned d.forest chosen)
    (hends : ∀ s ∈ chosen, s.value.getLast? ≠ some '\r') (hlit : ∀ s ∈ chosen, Literal s.value) :
    Meets (apply chosen stats) d
      (fun _ d' => Stage d.forest [] chosen d'.forest ∧ Traced d.forest d'.forest)
      fun _ _ => True := by
  refine apply_inv (fun todo done _ f => Stage d.forest todo done f ∧ Traced d.forest f)
    ⟨Stage.start hf ho chosen, .start hf ho⟩ ?_
  rintro todo s done stats d' hchosen ⟨hstage, htraced⟩
  have hs : s ∈ chosen := by simp [hchosen]
  have hplan' := hchosen ▸ hplan
  exact ((hstage.step hf ho hplan' (hends s hs)).and
    (htraced.step hstage hf hplan' (hends s hs) (hlit s hs))).mono (fun _ _ h => h)
      fun _ _ _ => trivial

/-! ## What is found again -/

variable {fields : FieldMap} {found : List Story} {p q x : Element}

theorem resolved?_eq_none {t t' : Tagged} (h : resolve fields t = .ok none)
    (he : t'.found.parts = t.found.parts) : resolve fields t' = .ok none := by
  unfold resolve at h ⊢
  rw [he]
  split at h
  · split at h <;> cases h
  · split at h
    · cases h
    · next hopt => simp [hopt]

theorem map_filterMap_sublist {α β γ : Type} {r : α → Option β} {g : β → γ} {g' : α → γ}
    (h : ∀ a b, r a = some b → g b = g' a) : ∀ l : List α,
      ((l.filterMap r).map g).Sublist (l.map g')
  | [] => .slnil
  | a :: l => by
    rw [List.filterMap_cons]
    split
    · exact (map_filterMap_sublist h l).cons _
    · next b hb => simpa [h a b hb] using map_filterMap_sublist h l

/-- Where no paragraph is listed twice, what is planned for one is what replaces its tags. -/
theorem forParagraph_planned (hf : f.Numbered) (honce : (listing f found).Nodup)
    (hp : p ∈ listing f found) : forParagraph p (planned fields f found) =
      (tagsOf p).filterMap (resolved? fields) := by
  have paragraph : ∀ {x : Element}, ∀ s ∈ (tagsOf x).filterMap (resolved? fields),
      s.tag.paragraph = x.tag.id := by
    intro x s hs
    obtain ⟨t, ht, hr⟩ := List.mem_filterMap.1 hs
    obtain ⟨_, -, rfl⟩ := List.mem_map.1 ht
    rw [resolved?_tag hr]
  have others : ∀ {l : List Element}, (∀ x ∈ l, x ∈ listing f found ∧ x ≠ p) →
      forParagraph p ((l.flatMap tagsOf).filterMap (resolved? fields)) = [] := by
    intro l hl
    refine List.filter_eq_nil_iff.2 fun s hs => ?_
    rw [List.filterMap_flatMap] at hs
    obtain ⟨x, hx, hs⟩ := List.mem_flatMap.1 hs
    obtain ⟨hm, hne⟩ := hl x hx
    simpa [paragraph s hs] using fun hid =>
      hne (hf.eq_of_id (mem_listing hf hm).1 (mem_listing hf hp).1 hid)
  obtain ⟨front, back, hl⟩ := List.append_of_mem hp
  rw [hl] at honce others
  obtain ⟨-, hback, hfront⟩ := List.nodup_append.1 honce
  have h₁ := others (l := front) fun x hx =>
    ⟨List.mem_append_left _ hx, hfront x hx p List.mem_cons_self⟩
  have h₂ := others (l := back) fun x hx =>
    ⟨by simp [hx], fun e => (List.nodup_cons.1 hback).1 (e ▸ hx)⟩
  have h₃ : forParagraph p ((tagsOf p).filterMap (resolved? fields)) = _ :=
    List.filter_eq_self.2 fun s hs => decide_eq_true (paragraph s hs)
  rw [planned, hl]
  simp only [forParagraph, List.flatMap_append, List.flatMap_cons, List.filterMap_append,
    List.filter_append] at h₁ h₂ h₃ ⊢
  rw [h₁, h₂, h₃, List.append_nil, List.nil_append]

/-- Whether every bracket of a paragraph in which something is replaced is part of a tag. -/
def FlatWhere (fields : FieldMap) (f : Forest) (found : List Story) : Prop :=
  ∀ p ∈ listing f found, forParagraph p (planned fields f found) ≠ [] → Flat (Paragraph.text p)

instance (fields : FieldMap) (f : Forest) (found : List Story) :
    Decidable (FlatWhere fields f found) := inferInstanceAs (Decidable (∀ p ∈ _, _ → _))

/-- A tag that is found in what a listed paragraph has become is like one that nothing replaces. -/
theorem Rewritten.unplanned {items : List Element} {f' : Forest}
    (h : Rewritten f f' p (forParagraph p (planned fields f found)) q items) (hf : f.Numbered)
    (honce : (listing f found).Nodup) (hp : p ∈ listing f found) (hflat : FlatWhere fields f found)
    (hlit : ∀ s ∈ planned fields f found, Literal s.value) : ∀ t ∈ tagsOf q, ∃ t₀ ∈ tagsOf p,
      resolved? fields t₀ = none ∧ t.found.parts = t₀.found.parts := by
  intro t ht
  obtain ⟨g, hg, rfl⟩ := List.mem_map.1 ht
  have hsubs : _ = (tagsOf p).filterMap (resolved? fields) := forParagraph_planned hf honce hp
  rcases h.text with ⟨-, htext⟩ | ⟨htexts, s, hs, hvalue, -⟩
  · -- What has been found and is not replaced is not planned.
    have unplanned : ∀ g₀ ∈ scan (Paragraph.text p),
        g₀ ∉ (forParagraph p (planned fields f found)).map (·.tag.found) → g.parts = g₀.parts →
          ∃ t₀ ∈ tagsOf p, resolved? fields t₀ = none ∧ g.parts = t₀.found.parts := by
      intro g₀ hg₀ hn he
      refine ⟨⟨p.tag.id, g₀⟩, List.mem_map_of_mem hg₀, ?_, he⟩
      cases hr : resolved? fields ⟨p.tag.id, g₀⟩ with
      | none => rfl
      | some s =>
        refine absurd (List.mem_map.2 ⟨s, ?_, by rw [resolved?_tag hr]⟩) hn
        exact hsubs ▸ List.mem_filterMap.2 ⟨_, List.mem_map_of_mem hg₀, hr⟩
    rw [htext] at hg
    by_cases hnil : forParagraph p (planned fields f found) = []
    · rw [hnil] at hg
      exact unplanned g hg (by simp [hnil]) rfl
    · have hsub : ((forParagraph p (planned fields f found)).map (·.tag.found)).Sublist
          (scan (Paragraph.text p)) := by
        have hmap : (((tagsOf p).filterMap (resolved? fields)).map (·.tag.found)).Sublist
            ((tagsOf p).map (·.found)) :=
          map_filterMap_sublist (fun a b h => by rw [resolved?_tag h]) _
        rw [hsubs]
        simpa [tagsOf, Function.comp_def] using hmap
      obtain ⟨g₀, hg₀, hn, he⟩ := exists_of_scan_filled (hflat p hp hnil) hsub
        (fun s hs => hlit s (List.mem_filter.1 hs).1) 0 g hg
      exact unplanned g₀ hg₀ hn he
  · -- A line of a value has no tags.
    have hm : Paragraph.text q ∈ Text.splitLines (lineFeeds s.value) :=
      hvalue ▸ htexts ▸ List.mem_cons_self
    have := literal_of_mem_splitLines (literal_lineFeeds (hlit s (List.mem_filter.1 hs).1)) _ hm
    rw [scan_literal this] at hg
    cases hg

/-! ## A second merge -/

/-- Whether all values have texts without brackets that do not end in a carriage return. -/
def PlainValues (fields : FieldMap) : Prop := ∀ name v, fields.value? name = some v →
  ∃ text, fields.text v = .ok text ∧ text.chars.getLast? ≠ some '\r' ∧ Literal text.chars

namespace PlainValues

theorem planned (h : PlainValues fields) : ∀ s ∈ planned fields f found,
    s.value.getLast? ≠ some '\r' ∧ Literal s.value := by
  intro s hs
  rcases value_of_planned s hs with he | ⟨name, v, _, hv, htext, he⟩
  · simp [he]
  · obtain ⟨text, ht, hend, hlit⟩ := h name v hv
    obtain rfl := Except.ok.inj (htext.symm.trans ht)
    exact he ▸ ⟨hend, hlit⟩

theorem of_mem (h : ∀ x ∈ fields.entries, ∃ text, fields.text x.2 = .ok text ∧
    text.chars.getLast? ≠ some '\r' ∧ Literal text.chars) : PlainValues fields := by
  intro name v hv
  obtain ⟨front, back, he, -⟩ := List.lookup_eq_some_iff.1 hv
  exact h (name, v) (he ▸ by simp)

theorem resolve (h : PlainValues fields) {t : Tagged} (ht : resolved? fields t = none) :
    resolve fields t = .ok none := by
  unfold resolved? at ht
  split at ht
  · next he => rw [he, ht]
  · next he =>
    unfold Merge.resolve at he
    split at he
    · next v hv =>
      obtain ⟨text, htext, -⟩ := h _ v hv
      rw [htext] at he
      cases he
    · cases he

end PlainValues

section Again

variable {d d₁ d' d'' : Document} {stats : Stats} (hs : d.Sound)
  (hfound : Document.stories d = .ok found d₁) (honce : (listing d₁.forest found).Nodup)
  (ho : InOrder d₁.forest) (hm : d₁.OneBody) (hvalues : PlainValues fields)
  (hrun : run fields d = .ok stats d')

include hs hfound ho hvalues hrun honce

theorem traced_of_run : Stage d₁.forest [] (planned fields d₁.forest found) d'.forest ∧
    Traced d₁.forest d'.forest := by
  obtain ⟨d₂, d₃, hl, happly, hl'⟩ := exists_apply hfound hrun
  have hplan : Planned _ (planned fields _ _) := planned_spec hs hfound honce
  have hf := (follows_of_run hs hfound hrun).1.numbered
  rw [← hl.forest] at hf ho hplan happly
  have h := (apply_traced hf ho hplan (fun s hs => (hvalues.planned s hs).1)
    fun s hs => (hvalues.planned s hs).2).of_ok happly
  rwa [hl.forest, ← hl'.forest] at h

include hm

/-- Nothing is read for a second merge, and nothing replaces what is found then. -/
theorem tags_again {found' : List Story} (hflat : FlatWhere fields d₁.forest found)
    (hfound' : Document.stories d' = .ok found' d'') : d''.forest = d'.forest ∧
      d''.parts = d'.parts ∧ d''.package? = d'.package? ∧
        ∀ t ∈ (listing d''.forest found').flatMap tagsOf, Merge.resolve fields t = .ok none := by
  obtain ⟨hs₁, hfollows⟩ := follows_of_run hs hfound hrun
  obtain ⟨hstage, htraced⟩ := traced_of_run hs hfound honce ho hvalues hrun
  obtain ⟨-, -, targets, hready, hsource⟩ := Meets.of_ok (Document.reading_stories hs) hfound
  have hs' := (hfollows.sequel hs₁).1
  have hready' := hready.follows hs₁ hm hfollows
  obtain ⟨hreads, hsame, targets', hready'', hsource'⟩ :=
    Meets.of_ok (Document.reading_stories hs') hfound'
  obtain ⟨hforest, hparts⟩ := hsame ⟨targets, hready'⟩
  obtain rfl : targets' = targets := by
    have := hready''.given.symm.trans (hready'.reads hs' hreads).given
    injection this
  refine ⟨hforest, hparts, hreads.package, fun t ht => ?_⟩
  obtain ⟨x, hx, ht⟩ := List.mem_flatMap.1 ht
  have hxa := attached_of_listing hs' hfound' hx
  rw [hforest] at hx hxa
  obtain ⟨hxf, hxn⟩ := mem_listing hs'.numbered hx
  rcases htraced.comes x hxa hxn with ⟨p, hp, hpn, hid⟩ | hlit
  · -- A paragraph that has been there is one that has been listed, rewritten.
    obtain ⟨y, hy, hyid⟩ := hfollows.listed hs₁ hm (fun i => (hsource i).2)
      (fun s hs => ((hsource' _).1 ⟨s, hs, rfl⟩).congr hforest.symm hparts.symm hreads.root.symm)
      hx (hid ▸ hs₁.numbered.has_lt (.inl hp))
    obtain rfl := hs₁.numbered.eq_of_id (mem_listing hs₁.numbered hy).1 (.inl hp)
      (hyid.trans hid.symm)
    obtain ⟨q, items, hq⟩ := hstage.rewritten hp hpn
    obtain rfl := hs'.numbered.eq_of_id hxf (hq.has q List.mem_cons_self).1
      (hid.symm.trans (congrArg Tag.id hq.tag).symm)
    obtain ⟨t₀, -, hr, he⟩ := hq.unplanned hs₁.numbered honce hy hflat
      (fun s hs => (hvalues.planned s hs).2) t ht
    exact resolved?_eq_none (hvalues.resolve hr) he
  · simp [tagsOf, scan_literal hlit] at ht

end Again

/-- After a merge a second one with the same fields replaces nothing and changes nothing: no part is
read, and no tree and no member of the package differs. -/
theorem run_again {d d₁ : Document} (hs : d.Sound) (hfound : Document.stories d = .ok found d₁)
    (honce : (listing d₁.forest found).Nodup) (ho : InOrder d₁.forest) (hm : d₁.OneBody)
    (hvalues : PlainValues fields) (hflat : FlatWhere fields d₁.forest found) :
    Meets (run fields) d
      (fun _ d' => Meets (run fields) d' (fun stats d'' => stats.applied = 0 ∧
        d''.forest = d'.forest ∧ d''.parts = d'.parts ∧ d''.package? = d'.package?) fun _ _ => False)
      fun _ _ => True := by
  refine Meets.mono (meets_self (run fields) d) ?_ fun _ _ _ => trivial
  intro stats d' hrun
  rw [run, meets_bind]
  refine allTags_spec.mono ?_ ?_
  · rintro _ d'' ⟨found', hfound', rfl⟩
    obtain ⟨hforest, hparts, hpackage, hnone⟩ :=
      tags_again hs hfound honce ho hm hvalues hrun hflat hfound'
    rw [meets_bind]
    refine (plan_spec _).mono ?_ ?_
    · rintro subs d₃ ⟨hl, rfl⟩
      have hnil : ((listing d''.forest found').flatMap tagsOf).filterMap (resolved? fields) = [] :=
        List.filterMap_eq_nil_iff.2 fun t ht => by rw [resolved?, hnone t ht]
      rw [hnil]
      simp only [apply, List.reverse_nil, List.foldlM_nil, meets_bind, meets_pure, meets_report,
        true_and]
      exact ⟨hl.forest.trans hforest, (congrArg Document.parts hl).trans hparts,
        (congrArg Document.package? hl).trans hpackage⟩
    · rintro err d₃ ⟨-, -, t, ht, he⟩
      cases he.symm.trans (hnone t ht)
  · intro err d'' herr
    obtain ⟨hs₁, hfollows⟩ := follows_of_run hs hfound hrun
    obtain ⟨-, -, targets, hready, -⟩ := Meets.of_ok (Document.reading_stories hs) hfound
    exact (Meets.of_error (Document.reading_stories (hfollows.sequel hs₁).1) herr).2.2
      ⟨targets, hready.follows hs₁ hm hfollows⟩

/-- A tag of no field beside one with text around it, and a list item that is all of a value. -/
def reminder : Document := .ofBody [
  Document.node Names.paragraph [Document.textRun "<<X>>, <Dear <A>>!"],
  Document.node Names.paragraph [
    Document.node Names.paragraphProperties [Document.node Names.numbering []],
    Document.textRun "<<C>>"]]

theorem run_again_reminder : ∃ stats d' stats' d'', run letterFields reminder = .ok stats d' ∧
    stats.applied = 2 ∧ run letterFields d' = .ok stats' d'' ∧ stats'.found = 1 ∧
    stats'.applied = 0 ∧ d''.forest = d'.forest ∧ d''.parts = d'.parts ∧
    d''.package? = d'.package? := by
  have hstories : Meets Document.stories reminder
      (fun found d₁ => (listing d₁.forest found).Nodup ∧ InOrder d₁.forest ∧ d₁.OneBody ∧
        FlatWhere letterFields d₁.forest found) fun _ _ => False := by decide +kernel
  have hrun : Meets (run letterFields) reminder (fun stats d' => stats.applied = 2 ∧
      Meets (run letterFields) d' (fun stats' _ => stats'.found = 1) fun _ _ => False)
      fun _ _ => False := by decide +kernel
  have hvalues : PlainValues letterFields := .of_mem fun x hx => by
    rcases List.mem_pair.1 hx with rfl | rfl
    · exact ⟨_, rfl, by decide, by decide⟩
    · exact ⟨_, rfl, by decide, by decide⟩
  obtain ⟨found, d₁, hfound, honce, ho, hm, hflat⟩ := hstories.exists_ok
  obtain ⟨stats, d', hd', happlied, hagain⟩ := hrun.exists_ok
  obtain ⟨stats', d'', hd'', hfoundAgain⟩ := hagain.exists_ok
  have hsame := (run_again (Document.sound_ofRoot _) hfound honce ho hm hvalues hflat).of_ok hd'
  exact ⟨stats, d', stats', d'', hd', happlied, hd'', hfoundAgain, hsame.of_ok hd''⟩

/-- Brackets around a tag. -/
def nestedBrackets : Document := .ofBody [
  Document.node Names.paragraph [Document.textRun "<<<<A>>>>"]]

def bracketFields : FieldMap :=
  .of [(points ['A'], .text (points ['B'])), (points ['B'], .text (points ['C']))]

/-- When the tag has been replaced, the brackets around it are those of another tag. -/
theorem brackets_left_over : ∃ fields stats d' stats' d'', PlainValues fields ∧
    run fields nestedBrackets = .ok stats d' ∧ run fields d' = .ok stats' d'' ∧
    stats'.applied = 1 := by
  have hrun : Meets (run bracketFields) nestedBrackets (fun _ d' => Meets (run bracketFields) d'
      (fun stats' _ => stats'.applied = 1) fun _ _ => False) fun _ _ => False := by decide +kernel
  obtain ⟨stats, d', hd', hagain⟩ := hrun.exists_ok
  obtain ⟨stats', d'', hd'', happlied⟩ := hagain.exists_ok
  refine ⟨bracketFields, stats, d', stats', d'', .of_mem fun x hx => ?_, hd', hd'', happlied⟩
  rcases List.mem_pair.1 hx with rfl | rfl
  · exact ⟨_, rfl, by decide, by decide⟩
  · exact ⟨_, rfl, by decide, by decide⟩

end Merge

end MailMerge
