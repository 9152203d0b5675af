import MailMerge.Proofs.Cleanup
import MailMerge.Proofs.Simultaneous

/-!
# A merge turn by turn

In a document of the right shape the paragraph of a tag is still attached when the turn of the tag
comes (`Ongoing.substitute_site`): it has text, as it has the tag, and nothing but empty paragraphs
has gone away before. So what every replacement in an attached paragraph keeps is true when the
merge is done (`run_sites`, `run_turns`).
-/

namespace MailMerge.Merge

open Xml Word

/-- The paragraph of the replacement `s` is attached in `f`, where it has stood in `f₀`. -/
structure Site (f₀ : Forest) (s : Substitution) (f : Forest) (e : Element) (u : List Key) :
    Prop where
  attached : e ∈ f.attached.elements
  id : e.tag.id = s.tag.paragraph
  name : e.tag.name = Names.paragraph
  trail : key e.tag :: u ∈ trails [] f.attached
  origin : key e.tag :: u ∈ trails [] f₀.attached

/-- The replacement `s` is made in an attached paragraph, which stands where it has stood in
`f₀`. -/
inductive Turn (f₀ : Forest) (s : Substitution) (f f' : Forest) : Prop
  | mk {e : Element} {u : List Key} {lines : List (List Char)} (site : Site f₀ s f e u)
      (value : lines = [s.value] ∨ lines = Text.splitLines s.value)
      (replaced : Replaced f e u lines f')

/-- A merge of the forest `f₀` has come to `f`. What has gone away is empty. -/
structure Ongoing (f₀ f : Forest) : Prop where
  shape : InShape f
  step : Step (fun _ => True) f₀ f
  away : ∀ x ∈ f.detached.elements, x.tag.name = Names.paragraph → x.tag.id ∈ f₀.attached.ids →
    Paragraph.isEmpty x = true

variable {f₀ f f' : Forest} {p : Element} {s : Substitution}

theorem Turn.spares (h : Turn f₀ s f f') (hf : f.Numbered) (hs : InShape f) : ∃ t,
    (∀ k ∈ t, ∃ x ∈ f.attached.elements, x.tag.id = k.id ∧
      (s.tag.paragraph = x.tag.id ∨ s.tag.paragraph ∈ x.inner.ids)) ∧ Spares t f f' := by
  obtain @⟨e, u, lines, ⟨he, hid, hn, ht, -⟩, -, hr⟩ := h
  refine ⟨_, fun k hk => ?_, hr.spares hf hs (.inl he) hn ht⟩
  obtain ⟨w, v, hw⟩ := List.append_of_mem hk
  obtain ⟨x, hx, rfl⟩ := exists_of_head (suffix_mem_trails (u := w) (hw ▸ ht) (by simp))
  refine ⟨x, hx, rfl, ?_⟩
  rw [← hid]
  cases w with
  | nil => exact .inl (congrArg Key.id (List.cons.inj hw).1)
  | cons k' w =>
    obtain ⟨rfl, rfl⟩ := List.cons.inj hw
    exact .inr (Content.id_mem_ids (mem_inner_of_trail hf (.inl he) (.inl hx) ht))

namespace Ongoing

theorem start (hf : f.Numbered) (hs : InShape f) : Ongoing f f :=
  ⟨hs, .refl hf, fun _ hx _ hi => absurd (Content.id_mem_ids hx) (hf.apart _ hi)⟩

theorem turn_step (h : Ongoing f₀ f) (ht : Turn f₀ s f f') : Ongoing f₀ f' := by
  obtain ⟨t, -, hsp⟩ := ht.spares h.step.numbered h.shape
  refine ⟨hsp.step.inShape h.shape, h.step.trans hsp.step, fun x hx hp hi => ?_⟩
  exact (hsp.away x hx hp).elim (fun hx => h.away x hx hp hi) id

/-- A replacement in a paragraph that has been attached is made where the paragraph is, if it does
not fail. -/
theorem substitute_site {d : Document} {stats : Stats} {good : Stats → Document → Prop}
    (h : Ongoing f₀ d.forest) (hf : f₀.Numbered) (hp : p ∈ f₀.attached.elements)
    (hn : p.tag.name = Names.paragraph) (hid : p.tag.id = s.tag.paragraph)
    (hs : s.tag.found.text ≠ [])
    (hgood : ∀ e u, Site f₀ s d.forest e u → Meets (substitute stats s) d good fun _ _ => True) :
    Meets (substitute stats s) d good fun _ _ => True := by
  have hd := h.step.numbered
  by_cases he : ∃ e, d.forest.element? s.tag.paragraph = some e ∧ Paragraph.text e ≠ []
  · obtain ⟨e, he, htext⟩ := he
    obtain ⟨hhas, hei⟩ := hd.element?_eq_some.1 he
    obtain ⟨q, hq, hk⟩ := h.step.known e hhas (hei ▸ hid ▸ hf.has_lt (.inl hp))
    obtain rfl := hf.eq_of_id hq (.inl hp) ((congrArg Key.id hk).trans (hei.trans hid.symm))
    have hen : e.tag.name = Names.paragraph := (congrArg Key.name hk).symm.trans hn
    have hattached : e ∈ d.forest.attached.elements := by
      refine hhas.resolve_right fun hm => htext ?_
      have := h.away e hm hen (hei.trans hid.symm ▸ Content.id_mem_ids hp)
      simp only [Paragraph.isEmpty, Bool.and_eq_true, decide_eq_true_eq] at this
      exact this.1
    obtain ⟨u, ht⟩ := exists_root_trail hattached
    have hold := h.step.old_trail ht (congrArg Key.id hk ▸ hf.has_lt (.inl hp))
    exact hgood e u ⟨hattached, hei, hen, ht, hold⟩
  · exact (substitute_text hs).mono (fun _ _ h => absurd h he) fun _ _ _ => trivial

end Ongoing

theorem Site.turn {d : Document} {stats : Stats} {e : Element} {u : List Key}
    (h : Site f₀ s d.forest e u) (hd : d.forest.Numbered) :
    Meets (substitute stats s) d (fun _ d' => Turn f₀ s d.forest d'.forest) fun _ _ => True := by
  refine (substitute_replaced hd (.inl h.attached) h.id h.name h.trail).mono ?_ fun _ _ _ => trivial
  exact fun _ d' ⟨_, hlines, hr⟩ => ⟨h, hlines, hr⟩

section Run

variable (fields : FieldMap) {d d₁ : Document} {found : List Story} (hs : d.Sound)
  (hfound : Document.stories d = .ok found d₁) (hshape : InShape d₁.forest)

include hs hfound hshape

/-- What every replacement in an attached paragraph keeps holds after the merge. -/
theorem run_sites (inv : List Substitution → Stats → Forest → Prop)
    (start : inv [] (opening fields d₁.forest found) d₁.forest)
    (step : ∀ s ∈ planned fields d₁.forest found, ∀ done stats (d' : Document) e u,
      Ongoing d₁.forest d'.forest → inv done stats d'.forest → Site d₁.forest s d'.forest e u →
        Meets (substitute stats s) d' (fun stats' d'' => inv (s :: done) stats' d''.forest)
          fun _ _ => True) :
    Meets (run fields) d (fun stats d' => Ongoing d₁.forest d'.forest ∧
      inv (planned fields d₁.forest found) stats d'.forest) fun _ _ => True := by
  have hf := ((Meets.of_ok (Document.reading_stories hs) hfound).1.sound hs).numbered
  refine (meets_self (run fields) d).mono ?_ fun _ _ _ => trivial
  intro stats d' hrun
  obtain ⟨d₂, d₃, hl, happly, hl'⟩ := exists_apply hfound hrun
  have hall : Meets (apply (planned fields d₁.forest found) (opening fields d₁.forest found)) d₂
      (fun stats d' => Ongoing d₁.forest d'.forest ∧
        inv (planned fields d₁.forest found) stats d'.forest) fun _ _ => True := by
    refine apply_inv (fun _ done stats f => Ongoing d₁.forest f ∧ inv done stats f) ?_ ?_
    · rw [hl.forest]
      exact ⟨.start hf hshape, start⟩
    · rintro todo s done stats d' hchosen ⟨hongoing, hinv⟩
      have hm : s ∈ planned fields d₁.forest found := by simp [hchosen]
      obtain ⟨p, hp, hn, hid, hscan⟩ := found_of_planned hs hfound s hm
      refine hongoing.substitute_site hf hp hn hid (Construct.scan_spec hscan).2.1
        fun e u hsite => ?_
      refine ((hsite.turn hongoing.step.numbered).and
        (step s hm done stats d' e u hongoing hinv hsite)).mono ?_ fun _ _ _ => trivial
      exact fun _ d'' ⟨ht, hinv'⟩ => ⟨hongoing.turn_step ht, hinv'⟩
  exact hl'.forest ▸ hall.of_ok happly

/-- What every turn keeps holds after the merge. -/
theorem run_turns (inv : Forest → Prop) (start : inv d₁.forest)
    (step : ∀ s ∈ planned fields d₁.forest found, ∀ f f', Ongoing d₁.forest f → inv f →
      Turn d₁.forest s f f' → inv f') :
    Meets (run fields) d (fun _ d' => Ongoing d₁.forest d'.forest ∧ inv d'.forest)
      fun _ _ => True := by
  refine run_sites fields hs hfound hshape (fun _ _ => inv) start ?_
  intro s hm done stats d' e u hongoing hinv hsite
  exact (hsite.turn hongoing.step.numbered).mono (fun _ _ ht => step s hm _ _ hongoing hinv ht)
    fun _ _ _ => trivial

end Run

end MailMerge.Merge
