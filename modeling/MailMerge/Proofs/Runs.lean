import MailMerge.Proofs.Edited
import MailMerge.Proofs.Looks

/-!
# Whole merges

A merge reads the parts that it needs, plans what it replaces without a change to the trees, and
then edits them (`run_spec`), whether it fails on the way or not.
-/

namespace MailMerge

open Xml Word

variable {d d' : Document} {f : Forest}

namespace Story

/-- The elements of a story with a name are elements of the forest with that name. -/
theorem has_of_named {s : Story} {name : Name} {p : Element} (hp : p ∈ s.named f name) :
    ∃ e, f.element? s.element = some e ∧ (p = e ∨ p ∈ e.inner.elements) ∧ p.tag.name = name := by
  unfold named at hp
  split at hp
  · next e he =>
    obtain ⟨hm, hn⟩ := List.mem_filter.1 hp
    refine ⟨e, he, ?_, by simpa using hn⟩
    simpa [Content.elements] using hm
  · cases hp

theorem has_of_paragraphs (hf : f.Numbered) {s : Story} {p : Element} (hp : p ∈ s.paragraphs f) :
    f.Has p ∧ p.tag.name = Names.paragraph := by
  obtain ⟨e, he, hm, hn⟩ := has_of_named hp
  obtain ⟨hhas, -⟩ := hf.element?_eq_some.1 he
  refine ⟨?_, hn⟩
  rcases hm with rfl | hm
  · exact hhas
  · exact hhas.inner hm

end Story

namespace Merge

/-- The paragraphs of stories, from the first to the last. -/
def listing (f : Forest) (found : List Story) : List Element := found.flatMap (·.paragraphs f)

theorem mem_listing (hf : f.Numbered) {found : List Story} {p : Element}
    (hp : p ∈ listing f found) : f.Has p ∧ p.tag.name = Names.paragraph := by
  obtain ⟨s, -, hp⟩ := List.mem_flatMap.1 hp
  exact Story.has_of_paragraphs hf hp

theorem allTags_spec : Meets allTags d
    (fun tags d' => ∃ found, Document.stories d = .ok found d' ∧
      tags = (listing d'.forest found).flatMap tagsOf)
    fun err d' => Document.stories d = .error err d' := by
  rw [allTags, meets_bind]
  refine Meets.mono (meets_self Document.stories d) ?_ fun _ _ h => h
  intro found d' h
  exact ⟨found, h, by rw [listing, List.flatMap_assoc]⟩

/-- What replaces a tag, if anything does. -/
def resolved? (fields : FieldMap) (t : Tagged) : Option Substitution :=
  match resolve fields t with
  | .ok s => s
  | .error _ => none

theorem resolved?_tag {fields : FieldMap} {t : Tagged} {s : Substitution}
    (h : resolved? fields t = some s) : s.tag = t := by
  unfold resolved? resolve at h
  split at h
  · next s' he =>
    subst h
    split at he
    · split at he <;> cases he
      rfl
    · split at he <;> cases he
      rfl
  · cases h

/-- Only what is reported differs. -/
def SameButLog (d d' : Document) : Prop := d' = { d with log := d'.log }

theorem SameButLog.forest (h : SameButLog d d') : d'.forest = d.forest := by
  unfold SameButLog at h
  rw [h]

/-- A field has a value that has no text, and the error says why. -/
def WithoutText (fields : FieldMap) (err : Error) : Prop :=
  ∃ name v fault, fields.value? name = some v ∧ fields.text v = .error fault ∧ err = .noText fault

/-- Planning changes nothing. -/
theorem plan_spec {fields : FieldMap} : ∀ (tags : List Tagged) {d : Document},
    Meets (plan fields tags) d
      (fun subs d' => SameButLog d d' ∧ subs = tags.filterMap (resolved? fields))
      fun err d' => SameButLog d d' ∧ WithoutText fields err ∧
        ∃ t ∈ tags, resolve fields t = .error err
  | [], d => ⟨rfl, rfl⟩
  | t :: tags, d => by
    rw [plan]
    split
    · next err he =>
      refine ⟨rfl, ?_, t, List.mem_cons_self, he⟩
      unfold resolve at he
      split at he
      · next v hv =>
        split at he <;> cases he
        next fault htext => exact ⟨_, v, fault, hv, htext, rfl⟩
      · split at he <;> cases he
    · next s hs =>
      rw [meets_bind]
      refine (plan_spec tags).mono ?_ ?_
      · rintro subs d' ⟨hd, rfl⟩
        exact ⟨hd, by simp [resolved?, hs]⟩
      · rintro err d' ⟨hd, hf, t', ht', he⟩
        exact ⟨hd, hf, t', List.mem_cons_of_mem _ ht', he⟩
    · next hs =>
      rw [meets_bind, meets_report]
      refine (plan_spec tags).mono ?_ ?_
      · rintro subs d' ⟨hd, rfl⟩
        exact ⟨hd, by simp [resolved?, hs]⟩
      · rintro err d' ⟨hd, hf, t', ht', he⟩
        exact ⟨hd, hf, t', List.mem_cons_of_mem _ ht', he⟩

theorem SameButLog.reads {d₁ : Document} (h : Document.Reads d d₁) (hl : SameButLog d₁ d') :
    Document.Reads d d' := by
  rw [hl]
  exact ⟨h.package, h.root, h.parts, h.real, h.forest, fun hs => ⟨(h.filed hs).1, (h.filed hs).2⟩,
    h.distinct⟩

/-- The plan for the tags of stories. -/
def planned (fields : FieldMap) (f : Forest) (found : List Story) : List Substitution :=
  ((listing f found).flatMap tagsOf).filterMap (resolved? fields)

/-- What is planned is planned for paragraphs. -/
theorem namesParagraph_of_planned (hf : f.Numbered) {fields : FieldMap} {found : List Story} :
    ∀ s ∈ planned fields f found, NamesParagraph s.tag.paragraph f := by
  intro s hs
  obtain ⟨t, ht, hr⟩ := List.mem_filterMap.1 hs
  obtain ⟨p, hp, htp⟩ := List.mem_flatMap.1 ht
  obtain ⟨hhas, hn⟩ := mem_listing hf hp
  have hid : s.tag.paragraph = p.tag.id := by
    rw [resolved?_tag hr]
    obtain ⟨_, -, rfl⟩ := List.mem_map.1 htp
    rfl
  refine ⟨hid ▸ hf.has_lt hhas, fun e he => ?_⟩
  obtain ⟨hhas', hid'⟩ := hf.element?_eq_some.1 he
  rw [hf.eq_of_id hhas' hhas (hid'.trans hid), hn]

/-! ## The steps of a merge -/

/-- The numbers when all has been planned and nothing is replaced yet. -/
def opening (fields : FieldMap) (f : Forest) (found : List Story) : Stats :=
  let tags := (listing f found).flatMap tagsOf
  { found := tags.length, skipped := tags.length - (planned fields f found).length }

/-- A merge finds the stories, plans, and makes what is planned. -/
theorem run_steps (fields : FieldMap) (d : Document) : Meets (run fields) d
    (fun stats d' => ∃ found d₁ d₂ d₃, Document.stories d = .ok found d₁ ∧
      SameButLog d₁ d₂ ∧ apply (planned fields d₁.forest found)
        (opening fields d₁.forest found) d₂ = .ok stats d₃ ∧ SameButLog d₃ d')
    fun err d' => Document.stories d = .error err d' ∨ ∃ found d₁,
      Document.stories d = .ok found d₁ ∧ (SameButLog d₁ d' ∧ WithoutText fields err ∨
        ∃ d₂ stats, SameButLog d₁ d₂ ∧
          apply (planned fields d₁.forest found) stats d₂ = .error err d') := by
  simp only [run, meets_bind]
  refine Meets.mono allTags_spec ?_ fun _ _ h => .inl h
  rintro tags d₁ ⟨found, hfound, rfl⟩
  refine (plan_spec _).mono ?_ fun _ _ h => .inr ⟨found, d₁, hfound, .inl ⟨h.1, h.2.1⟩⟩
  rintro subs d₂ ⟨hl, rfl⟩
  refine Meets.mono (meets_self _ _) ?_ fun _ _ h => .inr ⟨found, d₁, hfound, .inr ⟨d₂, _, hl, h⟩⟩
  intro stats' d₃ h
  exact ⟨found, d₁, d₂, d₃, hfound, hl, h, rfl⟩

/-- What becomes of a document in a merge: parts are read, and then the trees are edited. -/
def Merged (d d' : Document) : Prop := ∃ d₁, Document.Looks d d₁ ∧ Follows d₁ d'

theorem SameButLog.follows (h : SameButLog d d') : Follows d d' := by
  unfold SameButLog at h
  exact ⟨by rw [SameParts, h], by rw [h]⟩

/-- The steps of a merge, as far as it has come. -/
theorem follows_apply {fields : FieldMap} {found : List Story} {d₁ d₂ : Document} {stats : Stats}
    (hs : d₁.Sound) (hl : SameButLog d₁ d₂) :
    Following (apply (planned fields d₁.forest found) stats) d₂ := by
  have hf : d₂.forest = d₁.forest := hl.forest
  refine following_apply (hf ▸ hs.numbered) fun s hm => ?_
  exact hf ▸ namesParagraph_of_planned hs.numbered s hm

theorem run_spec {fields : FieldMap} (hs : d.Sound) :
    Meets (run fields) d (fun _ => Merged d) fun _ => Merged d := by
  refine (run_steps fields d).mono ?_ ?_
  · rintro _ d' ⟨found, d₁, d₂, d₃, hfound, hl, happly, hl'⟩
    have hr := Document.looking_stories.of_ok hfound
    exact ⟨d₁, hr, hl.follows.trans
      (((follows_apply (hr.reads.sound hs) hl).of_ok happly).trans hl'.follows)⟩
  · rintro err d' (h | ⟨found, d₁, hfound, ⟨hl, -⟩ | ⟨d₂, stats, hl, happly⟩⟩)
    · exact ⟨d', Document.looking_stories.of_error h, .refl d'⟩
    · exact ⟨d₁, Document.looking_stories.of_ok hfound, hl.follows⟩
    · have hr := Document.looking_stories.of_ok hfound
      exact ⟨d₁, hr, hl.follows.trans ((follows_apply (hr.reads.sound hs) hl).of_error happly)⟩

section Found

variable {fields : FieldMap} {stats : Stats} {found : List Story} {d₁ : Document}

/-- What a merge does once the stories have been found. -/
theorem exists_apply (hfound : Document.stories d = .ok found d₁)
    (hrun : run fields d = .ok stats d') : ∃ d₂ d₃, SameButLog d₁ d₂ ∧
      apply (planned fields d₁.forest found) (opening fields d₁.forest found) d₂ = .ok stats d₃ ∧
        SameButLog d₃ d' := by
  obtain ⟨found', d₁', d₂, d₃, hfound', h⟩ := Meets.of_ok (run_steps fields d) hrun
  obtain ⟨rfl, rfl⟩ := EStateM.Result.ok.inj (hfound.symm.trans hfound')
  exact ⟨d₂, d₃, h⟩

theorem follows_of_run (hd : d.Sound) (hfound : Document.stories d = .ok found d₁)
    (hrun : run fields d = .ok stats d') : d₁.Sound ∧ Follows d₁ d' := by
  obtain ⟨d₂, d₃, hl, happly, hl'⟩ := exists_apply hfound hrun
  have hs := (Meets.of_ok (Document.reading_stories hd) hfound).1.sound hd
  exact ⟨hs, hl.follows.trans (((follows_apply hs hl).of_ok happly).trans hl'.follows)⟩

end Found

end Merge

end MailMerge
