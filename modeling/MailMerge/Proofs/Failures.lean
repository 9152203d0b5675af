import MailMerge.Proofs.Listing
import MailMerge.Proofs.Outcome

/-!
# What merges fail for

A merge of a document that has been opened fails for what is wrong with its parts, for text that is
not where it has been found, for a field without a text, or for one of three causes that a batch does
not take for a failure of the row either (`Refused`). A span that has been found is never out of
range: its text is looked at first. The level of a list item is that which the document has, since
no replacement moves a paragraph in a list, and no replacement makes a paragraph the root of a part.
-/

namespace MailMerge

open Xml Word

/-- Work that fails for one of its causes only. -/
abbrev FailsFor {σ α : Type} (causes : Error → Prop) (x : EStateM Error σ α) (s : σ) : Prop :=
  Meets x s (fun _ _ => True) fun err _ => causes err

namespace Merge

variable {d : Document} {f f' f₀ f₁ : Forest} {s : Substitution} {stats : Stats}

theorem Refused.mono {chosen chosen' : List Substitution} {err : Error}
    (h : Refused f₀ chosen err) (hsub : chosen ⊆ chosen') : Refused f₀ chosen' err := by
  cases h with
  | notXmlText hs hx => exact .notXmlText (hsub hs) hx
  | number hs hp hid hn hlevel => exact .number (hsub hs) hp hid hn hlevel
  | besideRoot hs hr hid hn hlines hlead htail =>
    exact .besideRoot (hsub hs) hr hid hn hlines hlead htail

/-- What is a root after edits and has been there before them has been a root. -/
theorem exists_root_of_move {i : Nat} (h : Move f f') (hi : i < f.next)
    (hr : f'.isRoot i = true) : ∃ root ∈ f.attached.children, root.tag.id = i := by
  obtain ⟨k, hk, rfl⟩ := isRoot_iff.1 hr
  obtain ⟨x, hx, rfl⟩ := List.mem_map.1 hk
  have hold : [key x.tag] ∈ (trails [] f'.attached).filter (isOld f.next) :=
    List.mem_filter.2 ⟨trails_of_child hx [], decide_eq_true hi⟩
  obtain ⟨root, hroot, hkey⟩ := mem_trails_root (h.shift.order.subset hold)
  exact ⟨root, hroot, congrArg Key.id hkey⟩

/-- A replacement that is to be made in a forest `f` that `f₀` has become: its paragraph was there in
`f₀`, and is in the same place of a list if it has text. -/
structure Outstanding (f₀ f : Forest) (s : Substitution) : Prop where
  numbered : f₀.Numbered
  move : Move f₀ f
  attached : ∃ p ∈ f₀.attached.elements, p.tag.name = Names.paragraph ∧
    p.tag.id = s.tag.paragraph
  parts : Construct.decompose? s.tag.found.text = some s.tag.found.parts
  names : NamesParagraph s.tag.paragraph f
  listed : StaysListed s.tag.paragraph f₀ f

/-- The paragraph `q` of `f` with the span of a tag replaced by the first of `lines`. It is in the same
place of a list. -/
structure SpanMade (f : Forest) (s : Substitution) (q : Element) (lines : List (List Char))
    (f₁ : Forest) : Prop where
  lines : LinesFor s q lines
  move : Move f f₁
  has : ∃ inner, f₁.Has ⟨q.tag, inner⟩ ∧ placing inner = placing q.inner

namespace Outstanding

variable {q e : Element} {lines : List (List Char)}

/-- A glyph is read by the level that the paragraph has had in a list from the beginning. -/
theorem refused_of_glyph (h : Outstanding f₀ f s) (hq : f.Has q) (hid : q.tag.id = s.tag.paragraph)
    (hn : q.tag.name = Names.paragraph) (hne : Paragraph.text q ≠ [])
    (hplace : placing e.inner = placing q.inner) {err : Error}
    (hglyph : Paragraph.glyph e = .error err) : Refused f₀ [s] err := by
  obtain ⟨p, hp, hpn, hpid⟩ := h.attached
  obtain ⟨x, hx, htag, -, hqx⟩ := h.listed q hq hid hn hne
  obtain rfl := h.numbered.eq_of_id (.inl hp) hx (hpid.trans (hid.symm.trans (htag ▸ rfl)))
  rw [glyph_of_placing (hplace.trans hqx)] at hglyph
  obtain ⟨fault, rfl, hlevel⟩ := Unlevelled.of_glyph hglyph
  exact .number (List.mem_singleton.2 rfl) hp hpid hpn hlevel

theorem replaceSpan (h : Outstanding f₀ f s) (hq : f.element? s.tag.paragraph = some q)
    (hlines : LinesFor s q lines) (hslice : ((Paragraph.text q).drop s.tag.found.start).take
      s.tag.found.text.length = s.tag.found.text) :
    Meets (Edit.replaceSpan s.tag.paragraph s.tag.found.start s.tag.found.last
      (replacement s.tag.found.parts (lines.headD []))) f (fun _ => SpanMade f s q lines)
      fun err _ => Refused f₀ [s] err := by
  have hf := h.move.numbered
  obtain ⟨hhas, -⟩ := hf.element?_eq_some.1 hq
  obtain ⟨side, hm⟩ := Forest.has_iff.1 hhas
  have hin : ∀ i ∈ q.inner.ids, i < f.next := fun i hi =>
    hf.side_lt side i ((Content.inner_ids_sublist hm).subset hi)
  obtain ⟨hlast, hle⟩ := Found.bounds h.parts
  have hlen := congrArg List.length hslice
  rw [List.length_take, List.length_drop] at hlen
  have hlt : s.tag.found.last < (Paragraph.text q).length := by
    have hne := List.length_pos_iff.2 (Found.text_ne_nil h.parts)
    rw [Found.stop] at hlast
    omega
  refine (replaceSpan_spec hf hq (h.names.2 q hq) hle hlt).mono ?_ fun err _ herr =>
    herr.1 ▸ .notXmlText (List.mem_singleton.2 rfl) (hlines.unwritable.1 herr.2)
  rintro _ f₁ ⟨side, hole, rest, inner, hperf, -, -, r, changes, hsuits, hsame, hfresh, rfl, -⟩
  exact ⟨hlines, hperf.frame.move, _, hperf.has,
    placing_apply hsuits hsame hfresh (hf.nodup_inner hhas) hin⟩

theorem addItems (h : Outstanding f₀ f s) (hid : q.tag.id = s.tag.paragraph)
    (hn : q.tag.name = Names.paragraph) (hmade : SpanMade f s q lines f₁) :
    Meets (Merge.addItems s.tag.paragraph lines.tail) f₁
      (fun _ f₂ => f₂.Numbered ∧ NamesParagraph s.tag.paragraph f₂)
      fun err _ => Refused f₀ [s] err := by
  obtain ⟨p, hp, hpn, hpid⟩ := h.attached
  obtain ⟨hlines, hm, inner, hhas, -⟩ := hmade
  have hs : s ∈ [s] := List.mem_singleton.2 rfl
  rw [← hid]
  refine (addItems_spec lines.tail hm.numbered hhas hn).mono ?_ ?_
  · rintro _ f₂ ⟨items, hl⟩
    have hm' := hm.trans (hl.step hm.numbered).move
    exact ⟨hm'.numbered, hid.symm ▸ h.names.move h.move.numbered hm'⟩
  · rintro err f₂ ⟨-, ⟨rfl, line, hl, hx⟩ | ⟨rfl, hroot, hitems⟩⟩
    · exact .notXmlText hs (hlines.unwritable.2 line hl hx)
    · obtain rfl | ⟨rfl, -, hbare⟩ := hlines
      · exact absurd rfl hitems
      · have hlt : q.tag.id < f₀.next := hid ▸ hpid ▸ h.numbered.has_lt (.inl hp)
        obtain ⟨root, hr, hrid⟩ := exists_root_of_move (h.move.trans hm) hlt hroot
        obtain rfl := h.numbered.eq_of_id (.inl hp) (.inl (Content.children_subset _ root hr))
          (hpid.trans (hid.symm.trans hrid.symm))
        exact .besideRoot hs hr hpid hpn hitems hbare.1 hbare.2

end Outstanding

/-- What a replacement fails for. -/
theorem substitute_fails (ho : Outstanding f₀ d.forest s) :
    FailsFor (fun err => err.isRowFailure = true ∨ Refused f₀ [s] err) (substitute stats s) d := by
  have hd := ho.move.numbered
  have hne := Found.text_ne_nil ho.parts
  cases hq : d.forest.element? s.tag.paragraph with
  | none =>
    have hslice : ((tagText d.forest s.tag).drop s.tag.found.start).take
        s.tag.found.text.length ≠ s.tag.found.text := by
      simpa [tagText, hq] using hne.symm
    refine substitute_meets (P := fun _ _ => False) (Q := fun _ _ => False) (R := fun _ _ => True)
      (fun _ _ _ _ _ _ => .inl rfl) (fun _ _ _ _ h => absurd h hslice)
      (fun _ _ h => absurd h hslice) (fun _ _ h => h.elim) fun _ _ h => h.elim
  | some q =>
    have hn := ho.names.2 q hq
    obtain ⟨hhas, hid⟩ := hd.element?_eq_some.1 hq
    have htext : tagText d.forest s.tag = Paragraph.text q := by rw [tagText, hq]; rfl
    refine substitute_meets (P := SpanMade d.forest s q)
      (Q := fun _ f₂ => f₂.Numbered ∧ NamesParagraph s.tag.paragraph f₂)
      (R := fun _ _ => True) (fun _ _ _ _ _ _ => .inl rfl) ?_ ?_ ?_ ?_
    · intro f e err hf hslice hfe hglyph
      have hplace : placing e.inner = placing q.inner := by
        rcases hf with rfl | ⟨lines, -, hm, inner, hhas', hplace⟩
        · rw [Option.some.inj (hq.symm.trans hfe)]
        · rw [← hid, hm.numbered.element?_of_has hhas', Option.some.injEq] at hfe
          exact hfe ▸ hplace
      have hqne : Paragraph.text q ≠ [] := by
        rintro hnil
        rw [htext, hnil, List.drop_nil, List.take_nil] at hslice
        exact hne hslice.symm
      exact .inr (ho.refused_of_glyph hhas hid hn hqne hplace hglyph)
    · intro lines hlines hslice
      have hlines' : LinesFor s q lines := by
        rcases hlines with ⟨⟨e, he', -, htext', hbare⟩, hlines⟩ | ⟨-, hlines⟩
        · obtain rfl := Option.some.inj (hq.symm.trans he')
          exact .inr ⟨hlines, htext', hbare⟩
        · exact .inl hlines
      exact (ho.replaceSpan hq hlines' (htext ▸ hslice)).mono (fun _ _ h => h) fun _ _ h => .inr h
    · intro lines f₁ hmade
      exact (ho.addItems hid hn hmade).mono (fun _ _ h => h) fun _ _ h => .inr h
    · rintro lines d₂ ⟨hd₂, hp₂⟩
      exact (clean_spec hd₂ hp₂.2).mono (fun _ _ _ => trivial) fun _ _ h => h.elim

/-- A merge on its way from the forest `f₀`: of its plan, `todo` is left. -/
structure Underway (f₀ : Forest) (plan todo : List Substitution) (_ : Stats) (d : Document) :
    Prop where
  planned : todo ⊆ plan
  each : ∀ s ∈ todo, Outstanding f₀ d.forest s

theorem Underway.step {plan todo : List Substitution} (h : Underway f₀ plan (s :: todo) stats d) :
    Meets (substitute stats s) d (Underway f₀ plan todo) fun err _ =>
      err.isRowFailure = true ∨ Refused f₀ plan err := by
  obtain ⟨hs, htodo⟩ := List.cons_subset.1 h.planned
  obtain ⟨ho, hrest⟩ := List.forall_mem_cons.1 h.each
  have hd := ho.move.numbered
  have hlisted : ∀ t (ht : t ∈ todo), Meets (substitute stats s) d
      (fun _ d' => StaysListed t.tag.paragraph d.forest d'.forest) fun _ _ => True := fun t ht =>
    substitute_staysListed hd ho.names ho.parts (hrest t ht).names.1
  refine (((following_substitute hd ho.names).and
    (meets_forall.2 fun t => meets_forall.2 (hlisted t))).and (substitute_fails ho)).mono ?_
      fun err _ h => h.2.imp_right fun h => h.mono (List.cons_subset.2 ⟨hs, List.nil_subset _⟩)
  rintro stats' d' ⟨⟨hf, hl⟩, -⟩
  refine ⟨htodo, fun t ht => ?_⟩
  have hot := hrest t ht
  exact ⟨hot.numbered, hot.move.trans (hf.2.move hd), hot.attached, hot.parts,
    (hf.namesParagraph hd hot.names).2, hot.listed.trans (hl t ht)⟩

/-- Replacements fail each for its own causes. -/
theorem apply_fails {plan : List Substitution} (ho : ∀ s ∈ plan, Outstanding f₀ d.forest s) :
    FailsFor (fun err => err.isRowFailure = true ∨ Refused f₀ plan err) (apply plan stats) d := by
  have start : Underway f₀ plan plan.reverse stats d :=
    ⟨fun s hs => List.mem_reverse.1 hs, fun s hs => ho s (List.mem_reverse.1 hs)⟩
  exact (meets_foldlM start fun s todo _ d' h => h.step).mono (fun _ _ _ => trivial)
    fun _ _ h => h

/-- What a merge of a document that has been opened fails for. -/
theorem run_fails {fields : FieldMap} (hs : d.Sound) :
    FailsFor (fun err => err.isRowFailure = true ∨ WithoutText fields err ∨
      ∃ found d₁, Document.stories d = .ok found d₁ ∧
        Refused d₁.forest (planned fields d₁.forest found) err) (run fields) d := by
  refine (run_steps fields d).mono (fun _ _ _ => trivial) ?_
  rintro err d' (h | ⟨found, d₁, hfound, ⟨-, herr⟩ | ⟨d₂, stats, hl, happly⟩⟩)
  · obtain ⟨-, ⟨fault, details, rfl⟩, -⟩ := (Document.reading_stories hs).of_error h
    exact .inl rfl
  · exact .inr (.inl herr)
  · have hn := (((Document.reading_stories hs).of_ok hfound).1.sound hs).numbered
    have hf : d₂.forest = d₁.forest := hl.forest
    have hplan : ∀ s ∈ planned fields d₁.forest found, Outstanding d₁.forest d₂.forest s := by
      intro s hm
      obtain ⟨p, hp, hpn, hid, hscan⟩ := found_of_planned hs hfound s hm
      exact ⟨hn, hf.symm ▸ .refl hn, ⟨p, hp, hpn, hid⟩, (Construct.scan_spec hscan).2.2,
        hf ▸ namesParagraph_of_planned hn s hm, hf ▸ .refl _ _⟩
    have hfails := (apply_fails hplan).of_error happly
    exact hfails.imp_right fun h => .inr ⟨found, d₁, hfound, h⟩

end Merge

end MailMerge
