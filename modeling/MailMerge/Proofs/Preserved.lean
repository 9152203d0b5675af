import MailMerge.Proofs.Blanks
import MailMerge.Proofs.Operations

/-!
# No blanks are lost

No edit brings blanks at the edges of text into danger (`Worked.guarded`): replacements guard the
paragraph that they are made in, new list items are copies of what keeps its blanks, and all else
only goes. So in a tree in which no blanks can be lost none can be lost after any sequence of
operations (`blanks_stay`), whether the tree has been read before or a merge reads it.
-/

namespace MailMerge.Word

open MailMerge.Xml

variable {f f' f'' : Forest} {e : Element} {p : Nat}

/-- Every tree that was there before keeps its blanks if it did so then. -/
def Guarded (f f' : Forest) : Prop :=
  f.next ≤ f'.next ∧ ∀ x', f'.Has x' → x'.tag.id < f.next →
    ∃ x, f.Has x ∧ x.tag.id = x'.tag.id ∧ (TreeKeepsBlanks x → TreeKeepsBlanks x')

namespace Guarded

theorem refl (f : Forest) : Guarded f f := ⟨Nat.le_refl _, fun x hx _ => ⟨x, hx, rfl, id⟩⟩

theorem trans (h : Guarded f f') (h' : Guarded f' f'') : Guarded f f'' := by
  refine ⟨Nat.le_trans h.1 h'.1, fun x hx hlt => ?_⟩
  obtain ⟨x₁, hx₁, hid₁, hk₁⟩ := h'.2 x hx (Nat.lt_of_lt_of_le hlt h.1)
  obtain ⟨x₂, hx₂, hid₂, hk₂⟩ := h.2 x₁ hx₁ (hid₁ ▸ hlt)
  exact ⟨x₂, hx₂, hid₂.trans hid₁, fun hk => hk₁ (hk₂ hk)⟩

/-- An edit at one place, by which trees that have been there before are detached. -/
theorem of_fill {s : Forest.Side} {h : Hole} {c c' extra : Content} (hs : f.side s = h.fill c)
    (ha : f'.attached = (f.setSide s (h.fill c')).attached)
    (hd : f'.detached = (f.setSide s (h.fill c')).detached ++ extra) (hn : f.next ≤ f'.next)
    (hg : Guards f.next c c') (hextra : ∀ x ∈ extra.elements, f.Has x) : Guarded f f' := by
  refine ⟨hn, fun x hx hlt => ?_⟩
  have hx' : ({ f.setSide s (h.fill c') with
      detached := (f.setSide s (h.fill c')).detached ++ extra } : Forest).Has x :=
    hx.imp (fun hx => ha ▸ hx) fun hx => hd ▸ hx
  rcases Forest.has_setSide.1 hx' with hx | hx | ⟨s', -, hx⟩
  · obtain ⟨y, hy, h⟩ := (hg.fill h).each x hx hlt
    exact ⟨y, Forest.has_iff.2 ⟨s, hs ▸ hy⟩, h⟩
  · exact ⟨x, hextra x hx, rfl, id⟩
  · exact ⟨x, Forest.has_iff.2 ⟨s', hx⟩, rfl, id⟩

theorem keepsBlanks (hg : Guarded f f') (hf : f.Numbered) {e' : Element} (he : f.Has e)
    (he' : f'.Has e') (hid : e'.tag.id = e.tag.id) (hk : TreeKeepsBlanks e) :
    TreeKeepsBlanks e' := by
  obtain ⟨x, hx, hxi, h⟩ := hg.2 e' he' (hid ▸ hf.has_lt he)
  obtain rfl := hf.eq_of_id hx he (hxi.trans hid)
  exact h hk

end Guarded

/-! ## Edits -/

theorem has_of_fill {s : Forest.Side} {h : Hole} {rest : Content}
    (hs : f.side s = h.fill (.element e.tag e.inner rest)) : f.Has e :=
  Forest.has_iff.2 ⟨s, hs ▸ Hole.self_mem_fill _ _ _ _⟩

theorem Revised.guarded (hf : f.Numbered) (h : Revised p f f') : Guarded f f' := by
  rcases h with rfl | ⟨e, s, k, rest, inner, -, -, hw, h⟩
  · exact .refl _
  have hhas := has_of_fill h.side
  obtain ⟨t, hm⟩ := Forest.has_iff.1 hhas
  have hg : Guards f.next e.inner inner := hw.guards (Content.nodup_inner (hf.side_nodup t) hm)
    fun i hi => hf.side_lt t i ((Content.inner_ids_sublist hm).subset hi)
  exact .of_fill h.side h.attached h.detached h.frame.next (.element e.tag hg (.refl rest))
    fun x hx => hhas.inner (Content.lost_elements hx)

/-- A list item is made of copies of what is in the paragraph, and of text that keeps its blanks. -/
theorem ItemOf.keepsBlanks {new : Element} {cs : List Char} (h : ItemOf e cs new)
    (hn : e.inner.ids.Nodup) (he : BlanksKept e.inner) : TreeKeepsBlanks new := by
  have copied : ∀ {name : Name} {x : Element} {c : Content}, CopyOf name x c →
      BlanksKept x.inner → BlanksKept c := by
    intro name x c hc hx
    rcases hc.cases with rfl | ⟨y, hy, -, tail, hf⟩
    · exact blanksKept_nil
    · refine (blanksKept_of_face hf).2 (blanksKept_element.2 ⟨?_, ?_⟩)
      · exact hx.tree (Content.children_subset _ _ hy)
      · simp [BlanksKept, Content.elements]
  obtain ⟨properties, formatting, lead, hp, hr, hf⟩ := h.inner
  have hname : new.tag.name ≠ Names.text := h.name ▸ by decide
  refine ⟨fun ht => absurd ht hname, (blanksKept_of_face hf).2 ?_⟩
  refine blanksKept_append.2 ⟨copied hp he, ?_⟩
  split
  · exact blanksKept_nil
  refine blanksKept_newRun (blanksKept_append.2 ⟨?_, blanksKept_textContent lead cs⟩)
  rcases hr with ⟨-, rfl⟩ | ⟨r, hr, hc⟩
  · exact blanksKept_nil
  · obtain ⟨-, k, rest, hk, -⟩ := firstRun?_spec hn hr
    have hm : r ∈ e.inner.elements :=
      hk ▸ Hole.self_mem_fill _ _ _ _
    exact copied hc (he.tree hm).2

theorem Inserted.guarded {cs : List Char} {new : Element} (hf : f.Numbered)
    (h : Inserted f f' e cs new) : Guarded f f' := by
  obtain ⟨s, k, rest, hs, ha, hd⟩ := h.place
  obtain ⟨t, hm⟩ := Forest.has_iff.1 h.old_has
  have hin : e.inner.ids.Nodup := Content.nodup_inner (hf.side_nodup t) hm
  have hmem : ∀ {x : Element}, x ∈ (Content.element e.tag e.inner
      (rest.insertBehindText new)).elements ↔ x ∈ (Content.element e.tag e.inner rest).elements ∨
        x ∈ (Content.element new.tag new.inner .nil).elements := by
    intro x
    simp only [Content.elements, List.cons_append, List.mem_cons, List.mem_append,
      Content.mem_insertBehindText, List.append_nil]
    tauto
  refine .of_fill hs ha (hd.trans (Content.append_nil _).symm) h.step.next ⟨rfl, fun hb x hx => ?_,
    fun x hx hlt => ⟨x, (hmem.1 hx).resolve_right fun hx => ?_, rfl, id⟩⟩ (by simp [Content.elements])
  · rcases hmem.1 hx with hx | hx
    · exact hb x hx
    · have hk := h.item.keepsBlanks hin (blanksKept_element.1 hb).1.2
      exact (blanksKept_element.2 ⟨hk, blanksKept_nil⟩) x hx
  · exact absurd hlt (Nat.not_lt.2 (h.ids _ (Content.id_mem_ids hx)))

theorem guarded_detach {s : Forest.Side} {h : Hole} {rest : Content} (hf : f.Numbered)
    (hs : f.side s = h.fill (.element e.tag e.inner rest)) : Guarded f (f.detach e.tag.id) := by
  rw [Forest.detach_eq hf hs]
  refine .of_fill hs (by cases s <;> rfl) (by cases s <;> rfl) (by cases s <;> exact Nat.le_refl _)
    (Guards.refl rest).drop fun x hx => ?_
  rw [Content.mem_element_nil] at hx
  exact hx.elim (fun hx => hx ▸ has_of_fill hs) (has_of_fill hs).inner

theorem Lifted.guarded (hf : f.Numbered) (h : Lifted p f f') : Guarded f f' := by
  cases h with
  | none => exact .refl f
  | away he _ _ =>
    obtain ⟨s, k, rest, hs, rfl, -⟩ := hf.place?_eq he
    exact guarded_detach hf hs
  | @emptied e _ _ he =>
    obtain ⟨s, k, rest, hs, rfl, -⟩ := hf.place?_eq he
    rw [Forest.update_eq hf hs]
    exact .of_fill hs (by cases s <;> rfl) (by cases s <;> rfl) (by cases s <;> exact Nat.le_refl _)
      (.element e.tag (guards_propertiesOf e.inner) (.refl rest))
      fun x hx => (has_of_fill hs).inner (Content.lost_elements hx)

theorem guarded_removed (hf : f.Numbered) (id : Nat) : Guarded f (removed f id) := by
  unfold removed
  split
  · next e parent above he =>
    obtain ⟨s, k, rest, hs, rfl, -⟩ := hf.place?_eq he
    exact guarded_detach hf hs
  · exact .refl f

theorem CleanedRow.guarded (hf : f.Numbered) (h : CleanedRow f f') : Guarded f f' := by
  cases h with
  | none => exact .refl f
  | row => exact guarded_removed hf _
  | table hr hn =>
    exact (guarded_removed hf _).trans (guarded_removed (removed_row_move hf hr hn).numbered _)

theorem Edited.guarded (hf : f.Numbered) (h : Edited f f') : Guarded f f' := by
  cases h with
  | revised h => exact h.guarded hf
  | inserted _ h => exact h.guarded hf
  | cleaned hp h =>
    cases h with
    | none => exact .refl f
    | away _ _ h₁ h₂ => exact (h₁.guarded hf).trans (h₂.guarded (h₁.move hf hp.2).numbered)

theorem Edits.guarded (hf : f.Numbered) (h : Edits f f') : Guarded f f' := by
  induction h with
  | refl => exact .refl f
  | tail hs h ih => exact ih.trans (h.guarded (Edits.move hf hs).numbered)

end MailMerge.Word

namespace MailMerge

open Xml Word

variable {f f' : Forest} {d d' : Document}

/-! ## Operations -/

theorem Worked.guarded (hf : f.Numbered) (h : Worked f f') : Guarded f f' := by
  cases h with
  | edits h => exact h.guarded hf
  | lifted _ h => exact h.guarded hf
  | removed _ h => exact h ▸ guarded_removed hf _

theorem Planted.guarded (h : Planted f f') : Guarded f f' := by
  obtain ⟨root, next, rfl, hle, -, hids⟩ := h
  refine ⟨hle, fun x hx hlt => ⟨x, hx.imp_left fun hx => ?_, rfl, id⟩⟩
  simp only [Forest.plant, Content.elements_append, List.mem_append] at hx
  refine hx.resolve_right fun hx => ?_
  exact absurd hlt (Nat.not_lt.2 (hids _ (Content.id_mem_ids hx)).1)

theorem Document.Reads.guarded (h : Document.Reads d d') : Guarded d.forest d'.forest := by
  have hp := h.forest
  generalize d'.forest = f' at hp
  induction hp with
  | refl => exact .refl _
  | tail _ h ih => exact ih.trans h.guarded

theorem treeKeepsBlanks_plain (e : Element) : TreeKeepsBlanks e.plain ↔ TreeKeepsBlanks e := by
  have one : ∀ x : Element, KeepsBlanks x.plain ↔ KeepsBlanks x := fun x => by
    simp [KeepsBlanks, Content.leadingText_plain]
  simp [TreeKeepsBlanks, BlanksKept, one, Content.elements_plain]

/-- The tree of a part keeps its blanks, whether the part is read before an operation, in it or
not at all. -/
theorem Handled.keepsBlanks (hs : d.Sound) (h : Handled d d') {name : String} {t : Element}
    (ht : d.tree? name = .ok (some t)) (hk : TreeKeepsBlanks t) :
    ∃ t', d'.tree? name = .ok (some t') ∧ TreeKeepsBlanks t' := by
  obtain ⟨d₁, hl, hp, hw⟩ := h
  have hs₁ := hl.reads.sound hs
  unfold SameParts at hp
  have hroot : d'.rootOf name = d₁.rootOf name := by rw [hp]; rfl
  rw [← hl.tree? hs.1 name] at ht
  cases hr : d₁.rootOf name with
  | none =>
    have hpackage : d'.package? = d₁.package? := by rw [hp]
    refine ⟨t, ?_, hk⟩
    rw [← ht, Document.tree?, Document.tree?, hroot, hr, hpackage]
  | some r =>
    obtain ⟨e, hm, he⟩ := hs₁.1.root? hr
    have hq := hw.sequel hs₁.numbered
    obtain ⟨e', hm', hkey⟩ := List.mem_map.1 (hq.roots _ (List.mem_map_of_mem hm))
    obtain ⟨hhas, hid⟩ := hs₁.numbered.element?_eq_some.1 he
    have hhas' : d'.forest.Has e' := .inl (Content.children_subset _ _ hm')
    have hid' : e'.tag.id = e.tag.id := congrArg Key.id hkey
    have he' := hq.move.numbered.element?_of_has hhas'
    rw [Document.tree?_of_rootOf hr, he] at ht
    obtain rfl : e.plain = t := Option.some.inj (Except.ok.inj ht)
    refine ⟨e'.plain, ?_, (treeKeepsBlanks_plain e').2 ((hw.guarded hs₁.numbered).keepsBlanks
      hs₁.numbered hhas hhas' hid' ((treeKeepsBlanks_plain e).1 hk))⟩
    rw [Document.tree?_of_rootOf (hroot.trans hr), ← hid, ← hid', he', Option.map_some]

theorem Handled.guarded (hs : d.Sound) (h : Handled d d') : Guarded d.forest d'.forest := by
  obtain ⟨d₁, hl, -, hw⟩ := h
  exact hl.reads.guarded.trans (hw.guarded (hl.reads.sound hs).numbered)

theorem Operation.Gives.handled {o : Operation} (hs : d.Sound) (ha : o.Applies d.forest)
    (h : o.Gives d d') : Handled d d' :=
  h.elim (o.handled hs ha).of_ok fun ⟨_, h⟩ => (o.handled hs ha).of_error h

/-- No sequence of operations brings blanks into danger in a tree in which none can be lost: neither
in that of a part, whether the part has been read before or not, nor in any other tree. -/
theorem blanks_stay (hs : d.Sound) (h : Operations d d') :
    (∀ name t, d.tree? name = .ok (some t) → TreeKeepsBlanks t →
      ∃ t', d'.tree? name = .ok (some t') ∧ TreeKeepsBlanks t') ∧
    ∀ e e', d.forest.Has e → d'.forest.Has e' → e'.tag.id = e.tag.id →
      TreeKeepsBlanks e → TreeKeepsBlanks e' := by
  suffices hall : (∀ name t, d.tree? name = .ok (some t) → TreeKeepsBlanks t →
      ∃ t', d'.tree? name = .ok (some t') ∧ TreeKeepsBlanks t') ∧ Guarded d.forest d'.forest from
    ⟨hall.1, fun _ _ he he' => hall.2.keepsBlanks hs.numbered he he'⟩
  induction h with
  | refl => exact ⟨fun name t ht hk => ⟨t, ht, hk⟩, .refl _⟩
  | tail ho h ih =>
    obtain ⟨o, ha, hg⟩ := h
    have hs₁ := (Operations.sequel hs ho).1
    have hh := hg.handled hs₁ ha
    refine ⟨fun name t ht hk => ?_, ih.2.trans (hh.guarded hs₁)⟩
    obtain ⟨t₁, ht₁, hk₁⟩ := ih.1 name t ht hk
    exact hh.keepsBlanks hs₁ ht₁ hk₁

/-- A list item and a paragraph that gets text between other text. -/
def edgedLines : Document := .ofBody [
  Document.node Names.paragraph [
    Document.node Names.paragraphProperties [Document.node Names.numbering []],
    Document.textRun "<<A>>"],
  Document.node Names.paragraph [Document.textRun "a <<A>>b"]]

/-- Two lines, each with a blank at its inner edge. -/
def edgedFields : FieldMap := .of [(points ['A'], .text (points "x \n y".toList))]

theorem blanks_stay_edgedLines : ∃ d', Operations edgedLines d' ∧
    (∃ e' ∈ d'.forest.attached.children, TreeKeepsBlanks e' ∧
      ((e'.inner.named Names.text).filter fun t =>
        Text.blankEdged t.inner.leadingText).length = 4) ∧
    ∃ t', d'.tree? PartName.main = .ok (some t') ∧ TreeKeepsBlanks t' := by
  have hs : edgedLines.Sound := Document.sound_ofRoot _
  obtain ⟨stats, d', hrun, h⟩ := exists_of_ok
    (x := Merge.run edgedFields) (s := edgedLines) (p := fun d' => decide
      (∃ e' ∈ d'.forest.attached.children, e'.tag.id = 0 ∧
        ((e'.inner.named Names.text).filter fun t =>
          Text.blankEdged t.inner.leadingText).length = 4)) (by decide +kernel)
  obtain ⟨e', he', hid, hedges⟩ := of_decide_eq_true h
  have hops : Operations edgedLines d' := by
    refine .single ⟨.merge edgedFields, fun _ _ h => (by cases h), .inl ?_⟩
    simp only [Operation.work, bind, EStateM.bind, hrun]
    rfl
  obtain ⟨hparts, htrees⟩ := blanks_stay hs hops
  have hroot : ∃ e ∈ edgedLines.forest.attached.children, e.tag.id = 0 ∧ TreeKeepsBlanks e ∧
      edgedLines.tree? PartName.main = .ok (some e.plain) ∧ TreeKeepsBlanks e.plain := by
    decide +kernel
  obtain ⟨e, he, hid₀, hk, htree, hkp⟩ := hroot
  exact ⟨d', hops, ⟨e', he', htrees e e' (.inl (Content.children_subset _ _ he))
    (.inl (Content.children_subset _ _ he')) (hid.trans hid₀.symm) hk, hedges⟩,
    hparts _ _ htree hkp⟩

end MailMerge
