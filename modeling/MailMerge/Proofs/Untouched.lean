import MailMerge.Proofs.Turns

/-!
# What a merge leaves alone

A paragraph in which nothing is replaced, nor in one inside it, is not around any replacement. So it
stays where it is, as it is, or goes away in a row with empty paragraphs only; what is left of the
old paragraphs is in their order (`Merge.run_leaves_alone`).
-/

namespace MailMerge

open Xml Word

namespace Merge

/-- Nothing is replaced in the paragraph `q`, nor in one that is in it. -/
def Untouched (subs : List Substitution) (q : Element) : Prop :=
  ∀ s ∈ subs, s.tag.paragraph ≠ q.tag.id ∧ s.tag.paragraph ∉ q.inner.ids

/-- Untouched paragraphs are as they were, where they were, unless they have gone away in a row with
empty paragraphs only. What is left of the old paragraphs is in their order. -/
structure LeavesAlone (subs : List Substitution) (f f' : Forest) : Prop where
  kept : ∀ q ∈ f.attached.elements, q.tag.name = Names.paragraph → Untouched subs q →
    q ∈ f'.attached.elements ∧ (∀ u, key q.tag :: u ∈ trails [] f.attached →
      key q.tag :: u ∈ trails [] f'.attached) ∨ InEmptyRow (trails [] f.attached) f' q
  order : (((f'.attached.named Names.paragraph).map (·.tag.id)).filter
    (· ∈ f.attached.ids)).Sublist ((f.attached.named Names.paragraph).map (·.tag.id))

variable {f₀ f f' : Forest} {q : Element} {s : Substitution}

/-- An untouched paragraph after a turn. -/
theorem Turn.keeps (h : Turn f₀ s f f') (ho : Ongoing f₀ f) (hf : f₀.Numbered)
    (hq : q ∈ f₀.attached.elements) (hp : q.tag.name = Names.paragraph)
    (hs : s.tag.paragraph ≠ q.tag.id ∧ s.tag.paragraph ∉ q.inner.ids)
    (hm : q ∈ f.attached.elements ∨ InEmptyRow (trails [] f₀.attached) f q) :
    q ∈ f'.attached.elements ∨ InEmptyRow (trails [] f₀.attached) f' q := by
  have hn := ho.step.numbered
  obtain ⟨t, ht, hsp⟩ := h.spares hn ho.shape
  rcases hm with hm | ⟨r, hr, hrow⟩
  · refine (hsp.kept q hm hp fun k hk hid => ?_).imp id ?_
    · -- What is around the replacement is the paragraph or has it inside.
      obtain ⟨x, hx, hxk, hin⟩ := ht k hk
      obtain rfl := hn.eq_of_id (.inl hx) (.inl hm) (hxk.trans hid)
      exact hin.elim hs.1 hs.2
    · rintro ⟨r, hr, hrn, hqr, hempty, w, v, hold⟩
      exact ⟨r, hr, hrn, hqr, hempty, w, v, ho.step.old_trail hold (hf.has_lt (.inl hq))⟩
  · exact .inr ⟨r, hsp.lost r hr, hrow⟩

section Run

variable {fields : FieldMap} {d d₁ : Document} {found : List Story}

theorem leaves_alone (hs : d.Sound) (hfound : Document.stories d = .ok found d₁)
    (hshape : InShape d₁.forest) : Meets (run fields) d
      (fun _ d' => LeavesAlone (planned fields d₁.forest found) d₁.forest d'.forest)
      fun _ _ => True := by
  have hf := ((Meets.of_ok (Document.reading_stories hs) hfound).1.sound hs).numbered
  refine (run_turns fields hs hfound hshape
    (fun f => ∀ q ∈ d₁.forest.attached.elements, q.tag.name = Names.paragraph →
      Untouched (planned fields d₁.forest found) q →
        q ∈ f.attached.elements ∨ InEmptyRow (trails [] d₁.forest.attached) f q)
    (fun q hq _ _ => .inl hq) fun s hm f f' ho hinv ht q hq hp hu =>
      ht.keeps ho hf hq hp (hu s hm) (hinv q hq hp hu)).mono ?_ fun _ _ _ => trivial
  rintro _ d' ⟨ho, hinv⟩
  refine ⟨fun q hq hp hu => (hinv q hq hp hu).imp (fun hq' => ⟨hq', fun u hu => ?_⟩) id,
    ho.step.named_sublist hf _⟩
  exact (ho.step.trail_of_mem hf hu hq' rfl).2

/-- Where no tag has a value, a merge only reads. -/
theorem run_of_unresolved (hfound : Document.stories d = .ok found d₁)
    (hnone : ∀ t ∈ (listing d₁.forest found).flatMap tagsOf, resolve fields t = .ok none) :
    Meets (run fields) d (fun _ d' => SameButLog d₁ d') fun _ _ => True := by
  refine (run_steps fields d).mono ?_ fun _ _ _ => trivial
  rintro _ d' ⟨found', d₁', d₂, d₃, hfound', hl, happly, hl'⟩
  obtain ⟨rfl, rfl⟩ := EStateM.Result.ok.inj (hfound.symm.trans hfound')
  have hnil : planned fields d₁.forest found = [] :=
    List.filterMap_eq_nil_iff.2 fun t ht => by rw [resolved?, hnone t ht]
  rw [hnil] at happly
  obtain ⟨-, rfl⟩ := EStateM.Result.ok.inj happly
  unfold SameButLog at *
  rw [hl', hl]

/-- A merge that succeeds leaves alone what nothing is replaced in. Where no tag has a value, it
changes nothing at all. -/
theorem run_leaves_alone (hs : d.Sound) (hfound : Document.stories d = .ok found d₁)
    (hshape : InShape d₁.forest) : Meets (run fields) d
      (fun _ d' => LeavesAlone (planned fields d₁.forest found) d₁.forest d'.forest ∧
        ((∀ t ∈ (listing d₁.forest found).flatMap tagsOf, resolve fields t = .ok none) →
          d'.forest = d₁.forest ∧ d'.parts = d₁.parts)) fun _ _ => True := by
  refine (meets_self (run fields) d).mono ?_ fun _ _ _ => trivial
  intro stats d' hrun
  refine ⟨(leaves_alone hs hfound hshape).of_ok hrun, fun hnone => ?_⟩
  have hsame : SameButLog d₁ d' := (run_of_unresolved hfound hnone).of_ok hrun
  exact ⟨hsame.forest, (congrArg Document.parts hsame :)⟩

end Run

/-- A row in which a paragraph without a tag goes away with one that is emptied. -/
def halfEmpty : Document := .ofBody [
  Document.node Names.table [
    Document.node Names.row [
      Document.node Names.cell [Document.node Names.paragraph [Document.textRun "<<B>>"]],
      Document.node Names.cell [Document.node Names.paragraph []]],
    Document.node Names.row [
      Document.node Names.cell [Document.node Names.paragraph [Document.textRun "x"]]]],
  Document.node Names.paragraph [Document.textRun "<<X>>"]]

theorem run_leaves_alone_halfEmpty : ∃ found d₁ stats d' stats' d'',
    Document.stories halfEmpty = .ok found d₁ ∧ run oneEmpty halfEmpty = .ok stats d' ∧
    LeavesAlone (planned oneEmpty d₁.forest found) d₁.forest d'.forest ∧ stats.rows = 1 ∧
    (∃ q ∈ d₁.forest.attached.elements, q.tag.name = Names.paragraph ∧
      Untouched (planned oneEmpty d₁.forest found) q ∧
      InEmptyRow (trails [] d₁.forest.attached) d'.forest q) ∧
    run (.of []) halfEmpty = .ok stats' d'' ∧ d''.forest = d₁.forest ∧ d''.parts = d₁.parts := by
  have hstories : Meets Document.stories halfEmpty
      (fun found d₁ => InShape d₁.forest ∧
        (∀ t ∈ (listing d₁.forest found).flatMap tagsOf, resolve (.of []) t = .ok none) ∧
        ∃ q ∈ d₁.forest.attached.elements, q.tag.id = 9 ∧ q.tag.name = Names.paragraph ∧
          ∀ s ∈ planned oneEmpty d₁.forest found,
            s.tag.paragraph ≠ q.tag.id ∧ s.tag.paragraph ∉ q.inner.ids)
      fun _ _ => False := by decide +kernel
  have hrun : Meets (run oneEmpty) halfEmpty
      (fun stats d' => stats.rows = 1 ∧ ∀ q ∈ d'.forest.attached.elements, q.tag.id ≠ 9)
      fun _ _ => False := by decide +kernel
  have hrun' : Meets (run (.of [])) halfEmpty (fun _ _ => True) fun _ _ => False := by decide +kernel
  obtain ⟨found, d₁, hfound, hshape, hnone, q, hq, hid, hp, hu⟩ := hstories.exists_ok
  obtain ⟨stats, d', hd', hrows, haway⟩ := hrun.exists_ok
  obtain ⟨stats', d'', hd'', -⟩ := hrun'.exists_ok
  have hsound : halfEmpty.Sound := Document.sound_ofRoot _
  obtain ⟨halone, -⟩ := (run_leaves_alone hsound hfound hshape).of_ok hd'
  obtain ⟨-, hsame⟩ := (run_leaves_alone hsound hfound hshape).of_ok hd''
  refine ⟨found, d₁, stats, d', stats', d'', hfound, hd', halone, hrows, ⟨q, hq, hp, hu, ?_⟩, hd'',
    hsame hnone⟩
  exact (halone.kept q hq hp hu).resolve_left fun h => haway q h.1 hid

end Merge

end MailMerge
