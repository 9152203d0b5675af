import MailMerge.Proofs.Inserted

/-!
# The edits of a merge

Whatever a merge does to the trees is a sequence of three kinds of edits: a paragraph is revised, a
list item is put behind a paragraph, and what is empty then is cleaned away (`Edited`). This holds
of a merge that fails as well, up to the point where it has failed (`apply_edited`).
-/

namespace MailMerge.Word

open MailMerge.Xml

variable {f f' f'' : Forest} {p : Nat}

theorem Move.trans (h : Move f f') (h' : Move f' f'') : Move f f'' := Frame.trans h h' h.next

/-- Whether a number has been given to a paragraph, or to nothing that is still there. -/
def NamesParagraph (p : Nat) (f : Forest) : Prop :=
  p < f.next ∧ ∀ e, f.element? p = some e → e.tag.name = Names.paragraph

theorem NamesParagraph.move (h : NamesParagraph p f) (hf : f.Numbered) (hm : Move f f') :
    NamesParagraph p f' := by
  refine ⟨Nat.lt_of_lt_of_le h.1 hm.next, fun e he => ?_⟩
  obtain ⟨hhas, hid⟩ := hm.numbered.element?_eq_some.1 he
  obtain ⟨q, hq, hk⟩ := hm.known e hhas (hid ▸ h.1)
  have hqp := h.2 q (hf.element?_eq_some.2 ⟨hq, (congrArg Key.id hk).trans hid⟩)
  exact (congrArg Key.name hk).symm.trans hqp

/-- An edit of a merge. -/
inductive Edited (f f' : Forest) : Prop
  | revised {p : Nat} (h : Revised p f f')
  | inserted {e new : Element} {cs : List Char} (hp : e.tag.name = Names.paragraph)
      (h : Inserted f f' e cs new)
  | cleaned {p : Nat} (hp : NamesParagraph p f) (h : Cleaned p f f')

abbrev Edits : Forest → Forest → Prop := Relation.ReflTransGen Edited

/-- What a revision writes is made out of what is there. -/
theorem Performed.step {e : Element} {s : Forest.Side} {h : Hole} {rest inner : Content}
    (hp : e.tag.name = Names.paragraph) (hr : Performed f f' e s h rest inner) :
    Step (· = e.tag.id) f f' := by
  have old : ∀ t ∈ trails (key e.tag :: Around.trail h []) e.inner, t ∈ trails [] (f.side s) :=
    fun t ht => hr.side ▸ trails_inner_subset ht
  have top : key e.tag :: Around.trail h [] ∈ trails [] (f.side s) := hr.side ▸ trail_mem_fill
  refine ⟨hr.frame.numbered, hr.frame.next, hr.frame.kept, hr.frame.known, hr.frame.shift.order,
    fun t ht => ?_, fun t ht => (hr.frame.shift.lost t ht).imp id
      fun ⟨w, u, h, _⟩ => ⟨w, u, h, trivial⟩⟩
  cases s with
  | detached => exact .inl (hr.attached ▸ ht)
  | attached =>
    have hside := hr.side
    simp only [Forest.side] at hside old top
    rw [hr.attached] at ht
    simp only [Forest.setSide, mem_trails_fill, trails, List.cons_append, List.mem_cons,
      List.mem_append] at ht
    rcases ht with ht | (rfl | ht | ht) | ht
    · exact .inl (hside ▸ mem_trails_fill.2 (.inl ht))
    · exact .inl top
    · rcases hr.reworked with hsw | ⟨tag, c, rfl, htag, -, hc, -⟩
      · refine (hsw.shift.new t ht).imp (old t) ?_
        rintro ⟨hold, hk, hm, hk', -⟩
        exact .written (.old (old _ hold)) hk hm hk'
      · rw [trails_append, List.mem_append] at ht
        refine ht.imp (old t) fun ht => ?_
        simp only [trails, List.append_nil, List.mem_cons] at ht
        rcases ht with rfl | ht
        · exact .run (.old top) hp hp htag
        · obtain ⟨x, hx, rfl⟩ := trails_ofInlines hc ht
          exact .shown (.old top) hp hp htag hx
    · exact .inl (hside ▸ mem_trails_fill.2 (.inr (.inl (by simp [trails, ht]))))
    · exact .inl (hside ▸ mem_trails_fill.2 (.inr (.inr ht)))

theorem Edited.step (hf : f.Numbered) (h : Edited f f') : Step (fun _ => True) f f' := by
  have any : ∀ {but : Nat → Prop} {f'}, Step but f f' → Step (fun _ => True) f f' := fun h =>
    h.mono (Nat.le_refl _) (fun _ _ h => h) (fun _ h => h) fun _ _ => trivial
  cases h with
  | revised h =>
    rcases h with rfl | ⟨e, s, k, rest, inner, -, hp, -, h⟩
    · exact .refl hf
    · exact any (h.step hp)
  | inserted _ h => exact any h.step
  | cleaned hp h => exact (cleaned_frame hf hp.2 h).step fun _ h => h.elim

theorem Edits.step (hf : f.Numbered) (h : Edits f f') : Step (fun _ => True) f f' := by
  induction h with
  | refl => exact .refl hf
  | tail _ h ih => exact ih.trans (h.step ih.numbered)

theorem Edits.move (hf : f.Numbered) (h : Edits f f') : Move f f' := (h.step hf).move

theorem Listed.edits {e : Element} {lines : List (List Char)} {items : List Element}
    (hp : e.tag.name = Names.paragraph) (h : Listed e f lines items f') : Edits f f' := by
  induction h with
  | nil => exact .refl
  | cons hi _ ih => exact .head (.inserted hp hi) (ih hi.item.name)

/-! ## Roots -/

/-- Whether all roots of documents are still there. -/
def KeepsRoots (f f' : Forest) : Prop := ∀ k ∈ childKeys f.attached, k ∈ childKeys f'.attached

theorem KeepsRoots.trans (h : KeepsRoots f f') (h' : KeepsRoots f' f'') : KeepsRoots f f'' :=
  fun k hk => h' k (h k hk)

theorem KeepsRoots.of_fill {s : Forest.Side} {h : Hole} {c c' : Content} (hs : f.side s = h.fill c)
    (ha : f'.attached = (f.setSide s (h.fill c')).attached)
    (hc : h.above = [] → ∀ k ∈ childKeys c, k ∈ childKeys c') : KeepsRoots f f' := by
  intro k hk
  cases s with
  | detached => exact ha ▸ hk
  | attached =>
    simp only [Forest.side, Forest.setSide] at hs ha
    rw [ha]
    rw [hs] at hk
    rcases childKeys_fill h with ⟨hn, a, ha⟩ | ⟨l, hl⟩
    · rw [ha, List.mem_append] at hk ⊢
      exact hk.imp id (hc hn k)
    · exact hl c' ▸ hl c ▸ hk

theorem keepsRoots_detach {e : Element} {s : Forest.Side} {h : Hole} {rest : Content}
    {parent : Element} {above : List Element} (hf : f.Numbered)
    (hs : f.side s = h.fill (.element e.tag e.inner rest))
    (ha : parent :: above = h.around (.element e.tag e.inner rest)) :
    KeepsRoots f (f.detach e.tag.id) := by
  rw [Forest.detach_eq hf hs]
  exact .of_fill hs (by cases s <;> rfl) fun hn => absurd hn (Hole.above_ne_nil ha)

theorem keepsRoots_removed (hf : f.Numbered) (id : Nat) : KeepsRoots f (removed f id) := by
  unfold removed
  split
  · next e parent above he =>
    obtain ⟨s, h, rest, hs, rfl, ha⟩ := hf.place?_eq he
    exact keepsRoots_detach hf hs ha
  · exact fun k hk => hk

theorem Lifted.keepsRoots (hf : f.Numbered) (hl : Lifted p f f') : KeepsRoots f f' := by
  cases hl with
  | none => exact fun k hk => hk
  | @emptied e _ _ he =>
    obtain ⟨s, h, rest, hs, rfl, -⟩ := hf.place?_eq he
    rw [Forest.update_eq hf hs]
    have hk : ∀ k ∈ childKeys (.element e.tag e.inner rest),
        k ∈ childKeys (.element e.tag (Edit.propertiesOf e.inner) rest) := fun _ hk => hk
    refine .of_fill hs ?_ fun _ => hk
    cases s <;> rfl
  | away he _ _ =>
    obtain ⟨s, h, rest, hs, rfl, ha⟩ := hf.place?_eq he
    exact keepsRoots_detach hf hs ha

theorem CleanedRow.keepsRoots (hf : f.Numbered) (hc : CleanedRow f f') : KeepsRoots f f' := by
  cases hc with
  | none => exact fun k hk => hk
  | row => exact keepsRoots_removed hf _
  | table hr hn _ _ _ _ =>
    have h₁ := removed_row_move hf hr hn
    exact (keepsRoots_removed hf _).trans (keepsRoots_removed h₁.numbered _)

theorem Edited.keepsRoots (hf : f.Numbered) (he : Edited f f') : KeepsRoots f f' := by
  cases he with
  | revised h =>
    rcases h with rfl | ⟨e, s, k, rest, inner, -, -, -, h⟩
    · exact fun k hk => hk
    · exact .of_fill h.side h.attached fun _ k hk => hk
  | inserted _ h =>
    obtain ⟨s, k, rest, hs, ha, -⟩ := h.place
    refine .of_fill hs ha fun _ x hx => ?_
    have hx' := List.mem_cons.1 (show x ∈ _ :: childKeys rest from hx)
    refine List.mem_cons.2 (hx'.imp id fun hx => ?_)
    show x ∈ childKeys (rest.insertBehindText _)
    rw [childKeys_insertBehindText]
    exact List.mem_cons_of_mem _ hx
  | cleaned hp h =>
    cases h with
    | none => exact fun k hk => hk
    | away _ _ h₁ h₂ =>
      have hl := h₁.move hf hp.2
      exact (h₁.keepsRoots hf).trans (h₂.keepsRoots hl.numbered)

theorem Edits.keepsRoots (hf : f.Numbered) (h : Edits f f') : KeepsRoots f f' := by
  induction h with
  | refl => exact fun k hk => hk
  | tail hs h ih => exact ih.trans (h.keepsRoots (Edits.move hf hs).numbered)

end MailMerge.Word

namespace MailMerge

open Xml Word

variable {d d' d'' : Document}

/-- The trees have been edited as a merge does it, and nothing else has been changed. -/
def Follows (d d' : Document) : Prop := SameParts d d' ∧ Edits d.forest d'.forest

namespace Follows

theorem refl (d : Document) : Follows d d := ⟨.refl d, .refl⟩

theorem trans (h : Follows d d') (h' : Follows d' d'') : Follows d d'' :=
  ⟨h.1.trans h'.1, h.2.trans h'.2⟩

end Follows

/-- Work that follows a document, whether it fails or not. -/
abbrev Following {α : Type} (x : Work α) (d : Document) : Prop :=
  Meets x d (fun _ => Follows d) fun _ => Follows d

theorem Following.bind {α β : Type} {x : Work α} {g : α → Work β} (h : Following x d)
    (hg : ∀ a d', Follows d d' → Following (g a) d') : Following (x >>= g) d := by
  rw [Following, meets_bind]
  refine h.mono (fun a d' hd => ?_) fun _ _ h => h
  exact (hg a d' hd).mono (fun _ _ h => hd.trans h) fun _ _ h => hd.trans h

theorem Follows.namesParagraph {p : Nat} (h : Follows d d') (hd : d.forest.Numbered)
    (hp : NamesParagraph p d.forest) : d'.forest.Numbered ∧ NamesParagraph p d'.forest :=
  ⟨(h.2.move hd).numbered, hp.move hd (h.2.move hd)⟩

/-- The level of a paragraph in a list is not written as an integer, which `fault` says. -/
def Unlevelled (p : Element) (fault : NumberFault) : Prop :=
  ∃ numbering level reason,
    p.inner.grandchild? Names.paragraphProperties Names.numbering = some numbering ∧
    numbering.inner.child? Names.level = some level ∧
    Decimal.readInteger 10 ((level.tag.attribute? Names.value).getD "0").toList = .error reason ∧
    fault = .ofInteger ((level.tag.attribute? Names.value).getD "0").toList 10 reason

theorem Unlevelled.of_glyph {p : Element} {err : Error} (h : Paragraph.glyph p = .error err) :
    ∃ fault, err = .number fault ∧ Unlevelled p fault := by
  simp only [Paragraph.glyph] at h
  split at h
  · next numbering hnumbering =>
    split at h
    · cases h
    · split at h
      · next level hlevel =>
        simp only [readLevel] at h
        cases hr : Decimal.readInteger 10
            ((level.tag.attribute? Names.value).getD "0").toList with
        | ok n => simp [hr, Except.mapError, Except.map] at h
        | error reason =>
          simp only [hr, Except.mapError, Except.map, Except.error.injEq] at h
          exact ⟨_, h.symm, numbering, level, reason, hnumbering, hlevel, hr, rfl⟩
      · cases h
  · cases h

namespace Merge

variable {p : Nat}

/-- Why the replacements of `chosen` can fail in the forest `f₀`: one has a character that cannot be
written, the level of a paragraph with a tag is no integer, or a paragraph with a tag whose value
becomes several items is itself the root of a part. -/
inductive Refused (f₀ : Forest) (chosen : List Substitution) : Error → Prop
  | notXmlText {s : Substitution} (hs : s ∈ chosen)
      (hx : (replacement s.tag.found.parts s.value).all isXmlChar = false) :
      Refused f₀ chosen .notXmlText
  | number {s : Substitution} {p : Element} {fault : NumberFault} (hs : s ∈ chosen)
      (hp : p ∈ f₀.attached.elements) (hid : p.tag.id = s.tag.paragraph)
      (hn : p.tag.name = Names.paragraph) (hlevel : Unlevelled p fault) :
      Refused f₀ chosen (.number fault)
  | besideRoot {s : Substitution} {root : Element} (hs : s ∈ chosen)
      (hr : root ∈ f₀.attached.children) (hid : root.tag.id = s.tag.paragraph)
      (hn : root.tag.name = Names.paragraph) (hlines : (Text.splitLines s.value).tail ≠ [])
      (hlead : s.tag.found.parts.lead = []) (htail : s.tag.found.parts.tail = []) :
      Refused f₀ chosen .besideRoot

theorem following_report {level : Log.Level} {origin : Log.Origin} {message : String} :
    Following (Document.report level origin message) d := ⟨rfl, .refl⟩

theorem glyph_spec : Meets (glyph p) d (fun _ d' => d' = d) fun err d' => d' = d ∧
    ∃ e, d.forest.element? p = some e ∧ Paragraph.glyph e = .error err := by
  simp only [glyph, meets_bind, meets_view]
  split
  · rfl
  · next e he =>
    split
    · rfl
    · next herr => exact ⟨rfl, e, he, herr⟩

theorem fillsItem_spec {t : Tagged} {text : List Char} : Meets (fillsItem t text) d
    (fun b d' => d' = d ∧ (b = true → text = t.found.text ∧ t.found.parts.lead = [] ∧
      t.found.parts.tail = [])) fun err d' => d' = d ∧
        ∃ e, d.forest.element? t.paragraph = some e ∧ Paragraph.glyph e = .error err := by
  simp only [fillsItem]
  split
  · next h =>
    rw [meets_bind]
    exact glyph_spec.mono (fun _ _ hd => ⟨hd, fun _ => h⟩) fun _ _ h => h
  · exact ⟨rfl, fun h => by cases h⟩

theorem addItems_of_none {f : Forest} (h : f.element? p = none) :
    ∀ lines, addItems p lines f = .ok () f
  | [] => rfl
  | line :: lines => by
    have hb : addItems p (line :: lines) f = (Edit.insertItem p line >>= fun p' =>
        addItems p' lines) f := rfl
    rw [hb]
    simp only [bind, EStateM.bind, insertItem_of_none h]
    exact addItems_of_none h lines

/-- What putting list items behind a paragraph comes to: nothing, if there is no such paragraph. -/
theorem addItems_cases {f : Forest} (lines : List (List Char)) (hf : f.Numbered)
    (hp : NamesParagraph p f) : Meets (addItems p lines) f
      (fun _ f' => f' = f ∨ ∃ e items, e.tag.id = p ∧ f.Has e ∧ e.tag.name = Names.paragraph ∧
        Listed e f lines items f')
      fun err f' => (∃ e items lines', e.tag.id = p ∧ e.tag.name = Names.paragraph ∧
        Listed e f lines' items f') ∧ (err = .notXmlText ∨ err = .besideRoot) := by
  cases he : f.element? p with
  | none => exact (meets_of_ok (addItems_of_none he lines)).2 (.inl rfl)
  | some e =>
    obtain ⟨hhas, rfl⟩ := hf.element?_eq_some.1 he
    have hpar := hp.2 e he
    refine (addItems_spec lines hf hhas hpar).mono ?_ ?_
    · rintro _ f' ⟨items, hl⟩
      exact .inr ⟨e, items, rfl, hhas, hpar, hl⟩
    · rintro err f' ⟨⟨items, lines', hl⟩, herr⟩
      exact ⟨⟨e, items, lines', rfl, hpar, hl⟩, herr.imp And.left And.left⟩

theorem following_addItems {lines : List (List Char)} (hd : d.forest.Numbered)
    (hp : NamesParagraph p d.forest) : Following (Document.edit (addItems p lines)) d := by
  rw [Following, meets_edit]
  refine (addItems_cases lines hd hp).mono ?_ ?_
  · rintro _ f' (rfl | ⟨e, items, -, -, hpar, hl⟩)
    · exact ⟨rfl, .refl⟩
    · exact ⟨rfl, hl.edits hpar⟩
  · rintro _ f' ⟨⟨e, items, lines', -, hpar, hl⟩, -⟩
    exact ⟨rfl, hl.edits hpar⟩

theorem following_clean {stats : Stats} (hd : d.forest.Numbered)
    (hp : NamesParagraph p d.forest) : Following (clean p stats) d :=
  (clean_spec hd hp.2).mono (fun _ _ ⟨hs, hc⟩ => ⟨hs, .single (.cleaned hp hc)⟩)
    fun _ _ h => h.elim

end Merge

/-- The numbers after a replacement with so many new list items, before it is cleaned up. -/
def Stats.replaced (stats : Stats) (items : Nat) : Stats :=
  { stats with applied := stats.applied + 1, items := stats.items + items }

namespace Merge

variable {p : Nat}

/-- Whether a tag is all there is in a list item, with nothing around it in the construct. -/
def Fills (f : Forest) (t : Tagged) : Prop :=
  ∃ e, f.element? t.paragraph = some e ∧ Paragraph.isListItem e = .ok true ∧
    Paragraph.text e = t.found.text ∧ t.found.parts.lead = [] ∧ t.found.parts.tail = []

/-- The text that a tag is looked for in. -/
abbrev tagText (f : Forest) (t : Tagged) : List Char :=
  ((f.element? t.paragraph).map Paragraph.text).getD []

theorem glyph_isSome : Meets (glyph p) d (fun g _ => g.isSome = true ↔
    ∃ e, d.forest.element? p = some e ∧ Paragraph.isListItem e = .ok true) fun _ _ => True := by
  simp only [glyph, meets_bind, meets_view]
  split
  · next he => simp [he]
  · next e he =>
    split
    · next g hg => simp [he, Paragraph.isListItem, hg, Except.map]
    · trivial

theorem fillsItem_fills {t : Tagged} {text : List Char} (htext : text = tagText d.forest t) :
    Meets (fillsItem t text) d (fun b d' => d' = d ∧ (b = true ↔ Fills d.forest t))
      fun err _ => ∃ e, d.forest.element? t.paragraph = some e ∧ Paragraph.glyph e = .error err := by
  subst htext
  simp only [fillsItem]
  split
  · next h =>
    rw [meets_bind]
    refine (glyph_spec.and glyph_isSome).mono (fun g d' hg => ?_) fun _ _ h => h.1.2
    refine ⟨hg.1, hg.2.trans ⟨fun ⟨e, he, hi⟩ => ⟨e, he, hi, ?_, h.2⟩, fun ⟨e, he, hi, _⟩ =>
      ⟨e, he, hi⟩⟩⟩
    simpa [tagText, he] using h.1
  · next h =>
    refine ⟨rfl, fun hb => (by cases hb), fun ⟨e, he, _, ht, hc⟩ => absurd ⟨?_, hc⟩ h⟩
    simpa [tagText, he] using ht

/-- A replacement step by step: the text goes into the paragraph, the other lines become items, and
it is cleaned up behind the paragraph. There is more than one line only if the tag fills a list item
where it is still to be found. What each step may fail for is in `causes`. -/
theorem substitute_meets {stats : Stats} {s : Substitution} {P Q : List (List Char) → Forest → Prop}
    {R : Stats → Forest → Prop} {causes : Error → Prop}
    (hstale : ((tagText d.forest s.tag).drop s.tag.found.start).take s.tag.found.text.length ≠
        s.tag.found.text → ∀ name start last expected actual,
          causes (.stale name start last expected actual))
    (hglyph : ∀ f e err, (f = d.forest ∨ ∃ lines, P lines f) →
      ((tagText d.forest s.tag).drop s.tag.found.start).take s.tag.found.text.length =
        s.tag.found.text → f.element? s.tag.paragraph = some e → Paragraph.glyph e = .error err →
          causes err)
    (hw : ∀ lines, (Fills d.forest s.tag ∧ lines = Text.splitLines s.value ∨
        ¬Fills d.forest s.tag ∧ lines = [s.value]) →
      ((tagText d.forest s.tag).drop s.tag.found.start).take s.tag.found.text.length =
        s.tag.found.text →
      Meets (Edit.replaceSpan s.tag.paragraph s.tag.found.start s.tag.found.last
        (replacement s.tag.found.parts (lines.headD []))) d.forest (fun _ => P lines)
        fun err _ => causes err)
    (hl : ∀ lines f, P lines f → Meets (addItems s.tag.paragraph lines.tail) f
      (fun _ => Q lines) fun err _ => causes err)
    (hc : ∀ lines d', Q lines d'.forest →
      Meets (clean s.tag.paragraph (stats.replaced lines.tail.length)) d'
        (fun stats' d'' => R stats' d''.forest) fun err _ => causes err) :
    Meets (substitute stats s) d (fun stats' d' => R stats' d'.forest) fun err _ => causes err := by
  rw [substitute]
  simp only [meets_bind, meets_report, meets_view]
  split
  · next htext => exact hstale htext _ _ _ _ _
  next htext =>
  rw [ne_eq, not_not] at htext
  rw [meets_bind]
  refine Meets.mono (fillsItem_fills ?_) ?_ fun err _ h =>
    h.elim fun e he => hglyph _ e err (.inl rfl) htext he.1 he.2
  · rfl
  rintro filled d₁ ⟨rfl, hfilled⟩
  obtain ⟨lines, hlines⟩ : ∃ lines, lines =
      if filled = true then Text.splitLines s.value else [s.value] := ⟨_, rfl⟩
  rw [← hlines]
  have hcases : Fills d.forest s.tag ∧ lines = Text.splitLines s.value ∨
      ¬Fills d.forest s.tag ∧ lines = [s.value] := by
    split_ifs at hlines with hb
    · exact .inl ⟨hfilled.1 hb, hlines⟩
    · exact .inr ⟨fun h => hb (hfilled.2 h), hlines⟩
  rw [meets_bind, meets_edit]
  refine (hw lines hcases htext).mono ?_ fun _ _ h => h
  intro _ f₁ h₁
  have hitems := hl lines f₁ h₁
  split
  · next first line more =>
    simp only [meets_bind]
    refine glyph_spec.mono ?_ fun err _ h =>
      h.2.elim fun e he => hglyph f₁ e err (.inr ⟨_, h₁⟩) htext he.1 he.2
    rintro glyph _ rfl
    simp only [meets_report, meets_edit, meets_pure]
    exact hitems.mono (fun _ f₂ h₂ => hc (first :: line :: more) _ h₂) fun _ _ h => h
  · next hno =>
    have hnil : lines.tail = [] := by
      rcases lines with _ | ⟨_, _ | ⟨_, _⟩⟩
      · rfl
      · rfl
      · exact absurd rfl (hno _ _ _)
    have hnone : stats.replaced lines.tail.length =
        { stats with applied := stats.applied + 1 } := by
      simp [Stats.replaced, hnil]
    rw [meets_bind, meets_pure]
    rw [hnil] at hitems
    exact hnone ▸ hc lines _ hitems

/-- A replacement step by step, whatever it may fail for. -/
theorem substitute_steps {stats : Stats} {s : Substitution} {P Q : List (List Char) → Forest → Prop}
    {R : Stats → Forest → Prop}
    (hw : ∀ lines, (Fills d.forest s.tag ∧ lines = Text.splitLines s.value ∨
        ¬Fills d.forest s.tag ∧ lines = [s.value]) →
      ((tagText d.forest s.tag).drop s.tag.found.start).take s.tag.found.text.length =
        s.tag.found.text →
      Meets (Edit.replaceSpan s.tag.paragraph s.tag.found.start s.tag.found.last
        (replacement s.tag.found.parts (lines.headD []))) d.forest (fun _ => P lines)
        fun _ _ => True)
    (hl : ∀ lines f, P lines f → Meets (addItems s.tag.paragraph lines.tail) f
      (fun _ => Q lines) fun _ _ => True)
    (hc : ∀ lines d', Q lines d'.forest →
      Meets (clean s.tag.paragraph (stats.replaced lines.tail.length)) d'
        (fun stats' d'' => R stats' d''.forest) fun _ _ => True) :
    Meets (substitute stats s) d (fun stats' d' => R stats' d'.forest) fun _ _ => True :=
  substitute_meets (fun _ _ _ _ _ _ => trivial) (fun _ _ _ _ _ _ _ => trivial) hw hl hc

theorem substitute_rule {stats : Stats} {s : Substitution} {P Q : List (List Char) → Forest → Prop}
    {R : Stats → Forest → Prop}
    (hw : ∀ lines, lines = [s.value] ∨ lines = Text.splitLines s.value →
      Meets (Edit.replaceSpan s.tag.paragraph s.tag.found.start s.tag.found.last
        (replacement s.tag.found.parts (lines.headD []))) d.forest (fun _ => P lines)
        fun _ _ => True)
    (hl : ∀ lines f, P lines f → Meets (addItems s.tag.paragraph lines.tail) f
      (fun _ => Q lines) fun _ _ => True)
    (hc : ∀ lines d', Q lines d'.forest →
      Meets (clean s.tag.paragraph (stats.replaced lines.tail.length)) d'
        (fun stats' d'' => R stats' d''.forest) fun _ _ => True) :
    Meets (substitute stats s) d (fun stats' d' => R stats' d'.forest) fun _ _ => True :=
  substitute_steps (fun lines hlines _ =>
    hw lines (hlines.elim (fun h => .inr h.2) fun h => .inl h.2)) hl hc

theorem following_substitute {stats : Stats} {s : Substitution} (hd : d.forest.Numbered)
    (hp : NamesParagraph s.tag.paragraph d.forest) : Following (substitute stats s) d := by
  rw [substitute]
  refine following_report.bind fun _ d₁ h₁ => ?_
  obtain ⟨hd₁, hp₁⟩ := h₁.namesParagraph hd hp
  simp only [Following, meets_bind, meets_view]
  split
  · exact .refl _
  have hfill : Following (fillsItem s.tag
      ((Option.map Paragraph.text (d₁.forest.element? s.tag.paragraph)).getD [])) d₁ :=
    fillsItem_spec.mono (fun _ _ h => h.1 ▸ .refl _) fun _ _ h => h.1 ▸ .refl _
  refine hfill.bind fun b d₂ h₂ => ?_
  obtain ⟨hd₂, hp₂⟩ := h₂.namesParagraph hd₁ hp₁
  generalize (if b = true then Text.splitLines s.value else [s.value]) = lines
  have hspan : Following (Document.edit (Edit.replaceSpan s.tag.paragraph s.tag.found.start
      s.tag.found.last (replacement s.tag.found.parts (lines.headD [])))) d₂ :=
    meets_edit.2 ((replaceSpan_revised hd₂ hp₂.2).mono (fun _ _ h => ⟨rfl, .single (.revised h)⟩)
      fun _ _ h => ⟨rfl, .single (.revised h)⟩)
  refine hspan.bind fun _ d₃ h₃ => ?_
  obtain ⟨hd₃, hp₃⟩ := h₃.namesParagraph hd₂ hp₂
  split
  · next line more =>
    have hglyph : Following (glyph s.tag.paragraph) d₃ :=
      glyph_spec.mono (fun _ _ hd => hd ▸ .refl _) fun _ _ h => h.1 ▸ .refl _
    refine hglyph.bind fun _ d₄ h₄ => ?_
    obtain ⟨hd₄, hp₄⟩ := h₄.namesParagraph hd₃ hp₃
    refine following_report.bind fun _ d₅ h₅ => ?_
    obtain ⟨hd₅, hp₅⟩ := h₅.namesParagraph hd₄ hp₄
    refine (following_addItems hd₅ hp₅).bind fun _ d₆ h₆ => ?_
    obtain ⟨hd₆, hp₆⟩ := h₆.namesParagraph hd₅ hp₅
    exact following_clean hd₆ hp₆
  · exact following_clean hd₃ hp₃

/-- A merge follows the document that it has been planned for. -/
theorem following_apply {plan : List Substitution} {stats : Stats} (hd : d.forest.Numbered)
    (hp : ∀ s ∈ plan, NamesParagraph s.tag.paragraph d.forest) : Following (apply plan stats) d := by
  rw [apply]
  have hp' : ∀ s ∈ plan.reverse, NamesParagraph s.tag.paragraph d.forest := fun s hs =>
    hp s (List.mem_reverse.1 hs)
  clear hp
  generalize plan.reverse = todo at hp'
  induction todo generalizing d stats with
  | nil => exact .refl d
  | cons s todo ih =>
    rw [List.foldlM_cons]
    refine (following_substitute hd (hp' s List.mem_cons_self)).bind fun stats' d' h => ?_
    have hp'' : ∀ s ∈ todo, NamesParagraph s.tag.paragraph d'.forest := fun s hs =>
      (h.namesParagraph hd (hp' s (List.mem_cons_of_mem _ hs))).2
    obtain ⟨hd', -⟩ := h.namesParagraph hd (hp' s List.mem_cons_self)
    exact ih hd' hp''

end Merge

end MailMerge
