import MailMerge.Proofs.Edits

/-!
# Blanks at the edges of text

White space at an edge of a text element can be lost on the way, unless the element says that it is
to be kept (`KeepsBlanks`). Wherever text is cut or written anew, that is said (`Guards.retext`,
`blanksKept_textContent`), and nothing else gives an element other text in front: all that is taken
away or put in stands behind that text. So content that keeps its blanks does so after a replacement
(`SpanReplaced.guards`).
-/

namespace MailMerge.Word

open MailMerge.Xml

/-! ## Content that keeps its blanks -/

/-- Whether no blanks of an element can be lost: it has no text with blanks at the edges, or says
that they are to be kept. -/
def KeepsBlanks (e : Element) : Prop :=
  e.tag.name = Names.text → Text.blankEdged e.inner.leadingText = true →
    e.tag.attribute? ⟨xmlSpace, "space"⟩ = some "preserve"

instance (e : Element) : Decidable (KeepsBlanks e) :=
  inferInstanceAs (Decidable (_ → _ → _))

/-- Whether no blanks can be lost in content. -/
def BlanksKept (c : Content) : Prop := ∀ e ∈ c.elements, KeepsBlanks e

instance (c : Content) : Decidable (BlanksKept c) :=
  inferInstanceAs (Decidable (∀ e ∈ c.elements, KeepsBlanks e))

/-- Whether no blanks can be lost in a tree. -/
def TreeKeepsBlanks (e : Element) : Prop := KeepsBlanks e ∧ BlanksKept e.inner

instance (e : Element) : Decidable (TreeKeepsBlanks e) :=
  inferInstanceAs (Decidable (_ ∧ _))

variable {n : Nat} {tag : Tag} {inner inner' rest rest' new c c' d : Content}

@[simp]
theorem blanksKept_element : BlanksKept (.element tag inner rest) ↔
    TreeKeepsBlanks ⟨tag, inner⟩ ∧ BlanksKept rest := by
  simp [BlanksKept, TreeKeepsBlanks, Content.elements, or_imp, forall_and, and_assoc]

@[simp]
theorem blanksKept_append : BlanksKept (c ++ d) ↔ BlanksKept c ∧ BlanksKept d := by
  simp [BlanksKept, or_imp, forall_and]

@[simp]
theorem blanksKept_dropText : BlanksKept c.dropText ↔ BlanksKept c := by
  simp [BlanksKept]

@[simp] theorem blanksKept_nil : BlanksKept .nil := by simp [BlanksKept, Content.elements]

theorem BlanksKept.tree {e : Element} (h : BlanksKept c) (he : e ∈ c.elements) :
    TreeKeepsBlanks e :=
  ⟨h e he, fun _ hx => h _ (Content.mem_trans he hx)⟩

theorem Tag.keepBlanks_preserves (tag : Tag) :
    (Tag.keepBlanks tag).attribute? ⟨xmlSpace, "space"⟩ = some "preserve" := by
  unfold Tag.keepBlanks Tag.setAttribute Tag.attribute?
  split
  · next h =>
    obtain ⟨a, ha⟩ := Option.isSome_iff_exists.1 (List.find?_isSome.2 (List.any_eq_true.1 h))
    have hn : a.name = ⟨xmlSpace, "space"⟩ := by simpa using List.find?_some ha
    have hsame : ((fun a : Attribute => decide (a.name = ⟨xmlSpace, "space"⟩)) ∘ fun a =>
        if a.name = ⟨xmlSpace, "space"⟩ then { a with value := "preserve" } else a) =
          fun a => decide (a.name = ⟨xmlSpace, "space"⟩) := by
      funext a
      simp only [Function.comp_apply]
      split <;> simp [*]
    rw [List.find?_map, hsame, ha]
    simp [hn]
  · next h =>
    have hnone : tag.attributes.find? (fun a => a.name = ⟨xmlSpace, "space"⟩) = none := by
      simpa using h
    simp [List.find?_append, hnone]

/-- An element with other text says that its blanks are to be kept. -/
theorem keepsBlanks_withText (cs : List Char) (e : Element) : KeepsBlanks (withText cs e) := by
  intro _ h
  have hl : (withText cs e).inner.leadingText = cs := by
    simp [withText, Content.leadingText]
  rw [hl] at h
  simp only [withText, h, if_true, Tag.keepBlanks_preserves]

theorem blanksKept_textContent (lead : Option String) (cs : List Char) :
    BlanksKept (textContent lead cs) := by
  unfold textContent
  induction inlines cs with
  | nil => exact blanksKept_nil
  | cons i is ih =>
    cases i with
    | tab | lineBreak =>
      refine blanksKept_element.2 ⟨⟨fun hn => ?_, blanksKept_nil⟩, ih⟩
      exact absurd hn (by simp only [newTag]; decide)
    | chars cs =>
      refine blanksKept_element.2 ⟨⟨keepsBlanks_withText cs _, ?_⟩, ih⟩
      simp [withText, BlanksKept, Content.elements, Content.dropText]

/-! ### Copies -/

theorem keepsBlanks_face (e : Element) : KeepsBlanks ⟨e.tag.face, e.inner.face⟩ ↔ KeepsBlanks e := by
  simp [KeepsBlanks, Content.leadingText_face, Tag.attribute?_face]

theorem blanksKept_face (c : Content) : BlanksKept c.face ↔ BlanksKept c := by
  simp [BlanksKept, Content.elements_face, keepsBlanks_face]

theorem blanksKept_of_face (h : c.face = d.face) : BlanksKept c ↔ BlanksKept d := by
  rw [← blanksKept_face c, h, blanksKept_face d]

/-! ## Changes after which blanks are kept -/

/-- Content after a change by which no blanks come into danger, neither in it nor in a tree in it
with a number below `n`. -/
structure Guards (n : Nat) (c c' : Content) : Prop where
  leading : c'.leadingText = c.leadingText
  kept : BlanksKept c → BlanksKept c'
  each : ∀ x' ∈ c'.elements, x'.tag.id < n → ∃ x ∈ c.elements, x.tag.id = x'.tag.id ∧
    (TreeKeepsBlanks x → TreeKeepsBlanks x')

theorem leadingText_ofInlines : ∀ {c : Content}, OfInlines c → c.leadingText = []
  | .nil, _ | .element .., _ => rfl

theorem leadingText_append : ∀ {c : Content}, c.leadingText = [] → d.leadingText = [] →
    (c ++ d).leadingText = []
  | .nil, _, hd => hd
  | .text cs c, hc, hd => by
    obtain ⟨rfl, hc⟩ := List.append_eq_nil_iff.1 hc
    exact leadingText_append (c := c) hc hd
  | .markup .., _, _ | .element .., _, _ => rfl

namespace Guards

theorem refl (c : Content) : Guards n c c := ⟨rfl, id, fun x hx _ => ⟨x, hx, rfl, id⟩⟩

theorem trans (h : Guards n c c') (h' : Guards n c' d) : Guards n c d where
  leading := h'.leading.trans h.leading
  kept hc := h'.kept (h.kept hc)
  each x hx hlt := by
    obtain ⟨x₁, hx₁, hid₁, hk₁⟩ := h'.each x hx hlt
    obtain ⟨x₂, hx₂, hid₂, hk₂⟩ := h.each x₁ hx₁ (hid₁ ▸ hlt)
    exact ⟨x₂, hx₂, hid₂.trans hid₁, fun hk => hk₁ (hk₂ hk)⟩

theorem text (cs : List Char) (h : Guards n c c') : Guards n (.text cs c) (.text cs c') :=
  ⟨congrArg (cs ++ ·) h.leading, h.kept, h.each⟩

theorem markup (m : Markup) (h : Guards n c c') : Guards n (.markup m c) (.markup m c') :=
  ⟨rfl, h.kept, h.each⟩

/-- An element may be changed inside, and get other text in front if it keeps its blanks. -/
theorem change {tag' : Tag} {content' : Content} (hid : tag'.id = tag.id)
    (hk : TreeKeepsBlanks ⟨tag, inner⟩ → TreeKeepsBlanks ⟨tag', content'⟩)
    (he : content'.elements = inner'.elements) (hi : Guards n inner inner')
    (hr : Guards n rest rest') :
    Guards n (.element tag inner rest) (.element tag' content' rest') where
  leading := rfl
  kept h := by
    obtain ⟨h₁, h₂⟩ := blanksKept_element.1 h
    exact blanksKept_element.2 ⟨hk h₁, hr.kept h₂⟩
  each x hx hlt := by
    simp only [Content.elements, he, List.cons_append, List.mem_cons, List.mem_append] at hx ⊢
    rcases hx with rfl | hx | hx
    · exact ⟨⟨tag, inner⟩, .inl rfl, hid.symm, hk⟩
    · obtain ⟨y, hy, h⟩ := hi.each x hx hlt
      exact ⟨y, .inr (.inl hy), h⟩
    · obtain ⟨y, hy, h⟩ := hr.each x hx hlt
      exact ⟨y, .inr (.inr hy), h⟩

theorem element (tag : Tag) (hi : Guards n inner inner') (hr : Guards n rest rest') :
    Guards n (.element tag inner rest) (.element tag inner' rest') :=
  change rfl (fun ⟨h₁, h₂⟩ => ⟨fun hn hb => h₁ hn (hi.leading ▸ hb), hi.kept h₂⟩) rfl hi hr

theorem retext (tag : Tag) (cs : List Char) (hi : Guards n inner inner')
    (hr : Guards n rest rest') : Guards n (.element tag inner rest)
      (.element (withText cs ⟨tag, inner'⟩).tag (withText cs ⟨tag, inner'⟩).inner rest') := by
  have he : (withText cs ⟨tag, inner'⟩).inner.elements = inner'.elements := by
    simp [withText, Content.elements]
  refine change (by simp) (fun h => ⟨keepsBlanks_withText cs _, fun x hx => ?_⟩) he hi hr
  exact hi.kept h.2 x (he ▸ hx)

/-- What comes in the place of an element leaves the text in front of it what it was. -/
theorem swap (hr : Guards n rest rest') (hl : new.leadingText = []) (hk : BlanksKept new)
    (hn : ∀ i ∈ new.ids, n ≤ i) : Guards n (.element tag inner rest) (new ++ rest'.dropText) where
  leading := leadingText_append hl (Content.leadingText_dropText _)
  kept h := blanksKept_append.2 ⟨hk, blanksKept_dropText.2 (hr.kept (blanksKept_element.1 h).2)⟩
  each x hx hlt := by
    rw [Content.elements_append, Content.elements_dropText, List.mem_append] at hx
    rcases hx with hx | hx
    · exact absurd hlt (Nat.not_lt.2 (hn _ (Content.id_mem_ids hx)))
    · obtain ⟨y, hy, h⟩ := hr.each x hx hlt
      exact ⟨y, by simp [Content.elements, hy], h⟩

theorem drop (hr : Guards n rest rest') : Guards n (.element tag inner rest) rest'.dropText :=
  swap hr (rfl : Content.nil.leadingText = []) blanksKept_nil (by simp)

/-- What is put behind content. -/
theorem append (hl : new.leadingText = []) (hk : BlanksKept new) (hn : ∀ i ∈ new.ids, n ≤ i) :
    Guards n c (c ++ new) where
  leading := by
    induction c with
    | nil => exact hl
    | text cs c ih => exact congrArg (cs ++ ·) ih
    | markup | element => rfl
  kept h := blanksKept_append.2 ⟨h, hk⟩
  each x hx hlt := by
    rw [Content.elements_append, List.mem_append] at hx
    refine ⟨x, hx.resolve_right fun hx => ?_, rfl, id⟩
    exact absurd hlt (Nat.not_lt.2 (hn _ (Content.id_mem_ids hx)))

theorem fill (h : Guards n c c') : ∀ k : Hole, Guards n (k.fill c) (k.fill c')
  | .here => h
  | .text cs k => (fill h k).text cs
  | .markup m k => (fill h k).markup m
  | .behind tag inner k => element tag (refl inner) (fill h k)
  | .inside tag k rest => element tag (fill h k) (refl rest)

end Guards

/-! ## Replacements -/

theorem guards_changed {changes : List (Nat × Change)}
    (hk : ∀ i x, changes.lookup i = some (.swap x) → x.leadingText = [] ∧ BlanksKept x ∧
      ∀ j ∈ x.ids, n ≤ j) : ∀ c : Content, Guards n c (changed changes c)
  | .nil => .refl .nil
  | .text cs rest => (guards_changed hk rest).text cs
  | .markup m rest => (guards_changed hk rest).markup m
  | .element tag inner rest => by
    have hi := guards_changed hk inner
    have hr := guards_changed hk rest
    rcases hl : changes.lookup tag.id with _ | (cs | new)
    · simpa only [changed, hl] using Guards.element tag hi hr
    · simpa only [changed, hl] using Guards.retext tag cs hi hr
    · obtain ⟨h₁, h₂, h₃⟩ := hk _ _ hl
      simpa only [changed, hl] using Guards.swap hr h₁ h₂ h₃

theorem guards_withoutEmptyText : ∀ c : Content, Guards n c (withoutEmptyText c)
  | .nil => .refl .nil
  | .text cs rest => (guards_withoutEmptyText rest).text cs
  | .markup m rest => (guards_withoutEmptyText rest).markup m
  | .element tag inner rest => by
    have hr : Guards n rest (withoutEmptyText rest) := guards_withoutEmptyText rest
    rw [withoutEmptyText]
    split
    · exact hr.drop
    · exact .element tag (.refl inner) hr

theorem TidiedRun.guards (h : TidiedRun tag inner rest new) :
    Guards n (.element tag inner rest) new := by
  cases h with
  | dropped => exact (Guards.refl rest).drop
  | kept => exact .element tag (guards_withoutEmptyText inner) (.refl rest)

theorem guards_tidy_all : ∀ (rs : List Nat) {c : Content}, c.ids.Nodup →
    (∀ r ∈ rs, r < n ∧ OwnRun r [] c) → Guards n c (rs.foldl (fun c r => tidy r c) c)
  | [], c, _, _ => .refl c
  | r :: rs, c, hn, ho => by
    obtain ⟨hr, hor⟩ := ho r List.mem_cons_self
    have hs : Swept Spent (fun _ => False) n [] c (tidy r c) := tidy_swept hn hor
    have hg : Guards n c (tidy r c) := by
      rcases tidy_cases hn hor with he | ⟨k, tag, inner, rest, new, rfl, he, ht, -⟩ <;> rw [he]
      · exact .refl c
      · exact ht.guards.fill k
    exact hg.trans (guards_tidy_all rs (hn.sublist (hs.ids_sublist fun _ => id)) fun i hi =>
      have ⟨hlt, hi⟩ := ho i (List.mem_cons_of_mem _ hi); ⟨hlt, hi.swept hs hlt⟩)

section Revisions

variable {p start stop : Nat} {lead : Nat → Option String} {segments : List Segment}

/-- Whether no blanks can be lost in what a revision puts in. -/
def Revision.KeepsBlanks (r : Revision) : Prop :=
  (∀ x ∈ r.changes, ∀ c, x.2 = .swap c → BlanksKept c) ∧ BlanksKept r.appended

theorem blanksKept_newRun {lead : Option String} (h : BlanksKept c) : BlanksKept (newRun lead c) :=
  blanksKept_element.2 ⟨⟨fun hn => absurd hn (by simp only [newTag]; decide), h⟩, blanksKept_nil⟩

theorem blanksKept_cuts : ∀ x ∈ byNode (cut start stop 0 segments), ∀ c, x.2 = .swap c →
    BlanksKept c := by
  intro x hx c hc
  obtain ⟨y, hy, rfl⟩ := List.mem_map.1 hx
  rw [cut_swap y hy c hc]
  exact blanksKept_nil

theorem keepsBlanks_revision (new : List Char) :
    (revision p lead start stop new segments).KeepsBlanks := by
  unfold revision
  simp only
  split
  · exact ⟨blanksKept_cuts, blanksKept_nil⟩
  · split
    · refine ⟨fun x hx c hc => ?_, blanksKept_nil⟩
      rcases List.mem_cons.1 hx with rfl | hx
      · obtain rfl := Change.swap.inj hc
        exact blanksKept_textContent _ _
      · exact blanksKept_cuts x hx c hc
    · exact ⟨blanksKept_cuts, blanksKept_newRun (blanksKept_textContent _ _)⟩

theorem keepsBlanks_brokenRevision : (brokenRevision p lead start stop segments).KeepsBlanks := by
  have hmade : ∀ lead, BlanksKept (.element (newTag Names.text lead) .nil .nil) := fun lead =>
    blanksKept_element.2 ⟨⟨fun _ h => (by cases h), blanksKept_nil⟩, blanksKept_nil⟩
  unfold brokenRevision
  simp only
  split
  · refine ⟨fun x hx c hc => ?_, blanksKept_nil⟩
    split at hx
    · exact blanksKept_cuts x hx c hc
    · rcases List.mem_cons.1 hx with rfl | hx
      · obtain rfl := Change.swap.inj hc
        exact hmade _
      · exact blanksKept_cuts x hx c hc
  · exact ⟨blanksKept_cuts, blanksKept_newRun (hmade _)⟩

/-- A replacement brings no blanks into danger. -/
theorem SpanReplaced.guards (hn : c.ids.Nodup) (hl : ∀ i ∈ c.ids, i < n) (h : SpanReplaced n c c') :
    Guards n c c' := by
  obtain ⟨p, start, stop, lead, r, changes', appended', hr, hsame, hfresh, hface, hnew, rfl⟩ := h
  have hsuits : r.Suits (segmentsIn none c) := by
    rcases hr with rfl | ⟨new, rfl⟩
    · exact suits_brokenRevision
    · exact suits_revision new
  have hkeeps : r.KeepsBlanks := by
    rcases hr with rfl | ⟨new, rfl⟩
    · exact keepsBlanks_brokenRevision
    · exact keepsBlanks_revision new
  have hfit := hsuits.fits hsame hfresh
  have hc : Guards n c (changed changes' c) := by
    refine guards_changed (fun i x' hx' => ?_) c
    obtain ⟨hinlines, hids⟩ := hfit.new i x' hx'
    obtain ⟨x, hx, hs⟩ := exists_of_lookup hsame hx'
    cases hs with
    | swap _ hf =>
      exact ⟨leadingText_ofInlines hinlines, (blanksKept_of_face hf).2
        (hkeeps.1 _ (mem_of_lookup hx) _ rfl), hids⟩
  -- What is put behind the paragraph's content leaves nothing to be tidied.
  rcases hsuits.appended with hap | ⟨-, htouched, lead, inner, hrun, -⟩
  · obtain rfl : appended' = .nil := Content.eq_nil_of_face (hap ▸ hface)
    rw [Revision.apply, Content.append_nil]
    refine hc.trans (guards_tidy_all r.touched (nodup_changed hfresh hn hl) fun i hi => ?_)
    obtain ⟨s, hs, rfl⟩ := hsuits.touched i hi
    obtain ⟨hm, ho⟩ := ownRun_of_segment (a := []) hn hs
    exact ⟨hl _ hm, ho.swept (changed_sweeps (r := ⟨changes', .nil, []⟩) hn hfit) (hl _ hm)⟩
  · obtain ⟨tag, ci, rfl, -⟩ := eq_run_of_face (hrun ▸ hface)
    simp only [Revision.apply, htouched, List.foldl_nil]
    exact hc.trans (.append rfl ((blanksKept_of_face hface).2 hkeeps.2) hnew)

/-- What is left of an emptied paragraph. -/
theorem guards_propertiesOf : ∀ c : Content, Guards n c (Edit.propertiesOf c)
  | .nil => .refl .nil
  | .text cs rest => (guards_propertiesOf rest).text cs
  | .markup m rest => by
    have hr : Guards n rest (Edit.propertiesOf rest) := guards_propertiesOf rest
    rw [Edit.propertiesOf]
    exact ⟨by simp [Content.leadingText], fun h => blanksKept_dropText.2 (hr.kept h), fun x hx =>
      hr.each x (Content.elements_dropText _ ▸ hx)⟩
  | .element tag inner rest => by
    have hr : Guards n rest (Edit.propertiesOf rest) := guards_propertiesOf rest
    rw [Edit.propertiesOf]
    split
    · exact .element tag (.refl inner) hr
    · exact hr.drop

end Revisions

end MailMerge.Word
