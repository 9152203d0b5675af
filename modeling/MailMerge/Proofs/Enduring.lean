import MailMerge.Proofs.Rewritten
import MailMerge.Proofs.Simultaneous

/-!
# Paragraphs that endure

In a document in order, a merge leaves paragraphs in which nothing is left to be replaced where they
are, with the text that they have (`apply_lined`). So what becomes of a tag when its turn comes is
there in the end, if no other tag of its paragraph is left.
-/

namespace MailMerge.Word.InOrder

open Xml Word

variable {f : Forest} {p : Element}

theorem legible (h : InOrder f) (hf : f.Numbered) (hp : p ∈ f.attached.elements)
    (hn : p.tag.name = Names.paragraph) : Legible none p.inner := by
  obtain ⟨u, ht⟩ := exists_root_trail hp
  exact (h.standing hf hp hn ht).firm.legible

theorem clearProperties (h : InOrder f) (hf : f.Numbered) (hp : p ∈ f.attached.elements)
    (hn : p.tag.name = Names.paragraph) : ClearProperties p.inner := by
  obtain ⟨u, ht⟩ := exists_root_trail hp
  intro q hq
  obtain ⟨hqc, hqn⟩ := List.mem_filter.1 hq
  exact properties_show_nothing (fun t htp => h.bare t (mem_trails_attached hf (.inl hp) ht htp)) hn
    hqc (of_decide_eq_true hqn)

end MailMerge.Word.InOrder

namespace MailMerge.Merge

open Xml Word

variable {d : Document} {stats : Stats} {f₀ : Forest} {front todo done : List Substitution}
  {l : List Element} {u : List Key}

/-- The end of a plan has been worked off. -/
theorem apply_stage_behind (hf : d.forest.Numbered) (ho : InOrder d.forest)
    (hplan : Planned d.forest (front ++ todo))
    (hends : ∀ s ∈ todo, s.value.getLast? ≠ some '\r') :
    Meets (apply todo stats) d (fun _ d' => Stage d.forest front todo d'.forest)
      fun _ _ => True := by
  have hall : Meets (apply todo stats) d (fun _ d' => Stage d.forest (front ++ []) todo d'.forest)
      fun _ _ => True := by
    refine apply_inv (fun rest done _ => Stage d.forest (front ++ rest) done)
      (Stage.start hf ho _) fun rest s done stats d' hchosen h => ?_
    rw [← List.append_assoc] at h
    rw [hchosen, ← List.append_assoc] at hplan
    exact (h.step hf ho hplan (hends s (by simp [hchosen]))).mono (fun _ _ h => h)
      fun _ _ _ => trivial
  simpa using hall

/-- Paragraphs in which nothing is left to be replaced stay as they are. -/
theorem apply_lined (hf : f₀.Numbered) (ho : InOrder f₀) (hplan : Planned f₀ (todo ++ done))
    (hends : ∀ s ∈ todo, s.value.getLast? ≠ some '\r') (h : Stage f₀ todo done d.forest)
    (hl : Lined u d.forest l) (hne : ∀ s ∈ todo, ∀ x ∈ l, x.tag.id ≠ s.tag.paragraph) :
    Meets (apply todo stats) d (fun _ d' => ∃ l' : List Element, l'.map seen = l.map seen ∧
      Lined u d'.forest l') fun _ _ => True := by
  have hall : Meets (apply todo stats) d (fun _ d' => Stage f₀ [] (todo ++ done) d'.forest ∧
      ∃ l' : List Element, l'.map seen = l.map seen ∧ Lined u d'.forest l') fun _ _ => True := by
    refine apply_inv (fun rest made _ f => Stage f₀ rest (made ++ done) f ∧
      ∃ l' : List Element, l'.map seen = l.map seen ∧ Lined u f l') ⟨h, l, rfl, hl⟩ ?_
    rintro rest s made stats d' rfl ⟨hstage, l', hseen, hl'⟩
    have hplan' : Planned f₀ (rest ++ s :: (made ++ done)) := by simpa using hplan
    have hvalue := hends s (by simp)
    obtain ⟨p, q, v, hp⟩ := hstage.exists_pending hf hplan' hvalue
    refine ((hstage.step hf ho hplan' hvalue).and (hp.substitute hstage.numbered)).mono ?_
      fun _ _ _ => trivial
    rintro _ d'' ⟨hstage', lines, hsub, -⟩
    obtain ⟨l'', hseen', hl''⟩ := hsub.others hstage.numbered hp.stands hl' fun x hx => by
      obtain ⟨y, hy, hyx⟩ := List.mem_map.1 (hseen ▸ List.mem_map_of_mem hx)
      have htag : y.tag = x.tag := congrArg Prod.fst hyx
      rw [hp.id_eq, hp.id, ← htag]
      exact hne s (by simp) y hy
    exact ⟨hstage', l'', hseen'.trans hseen, hl''⟩
  exact hall.mono (fun _ _ h => h.2) fun _ _ _ => trivial

end MailMerge.Merge
