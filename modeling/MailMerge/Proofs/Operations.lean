import MailMerge.Proofs.Rows
import MailMerge.Proofs.Runs

/-!
# What can be done to a document

A text may be replaced, a list item added, a paragraph, a row or a table taken away, and a whole
merge run, in any order and as often as one likes, and each of these may fail on the way. Whatever
must end with a paragraph does so afterwards if it did before.
-/

namespace MailMerge

open Xml Word

/-- What can be done to the text of a document. -/
inductive Operation where
  | replaceSpan (p : Nat) (start last : Int) (new : List Char)
  | insertItem (p : Nat) (text : List Char)
  | removeParagraph (p : Nat)
  | removeRow (row : Nat)
  | removeTable (table : Nat)
  | merge (fields : FieldMap)

namespace Operation

/-- The elements that an operation is for. -/
def kind : Operation → Option (Nat × Name)
  | replaceSpan p _ _ _ | insertItem p _ | removeParagraph p => some (p, Names.paragraph)
  | removeRow row => some (row, Names.row)
  | removeTable table => some (table, Names.table)
  | merge _ => none

/-- Whether the element that an operation is done to is one that it is for. -/
def Applies (o : Operation) (f : Forest) : Prop :=
  ∀ id name, o.kind = some (id, name) → ∀ e, f.element? id = some e → e.tag.name = name

/-- The work that an operation is. -/
def work : Operation → Work Unit
  | replaceSpan p start last new => Document.edit (Edit.replaceSpan p start last new)
  | insertItem p text => do
    let _ ← Document.edit (Edit.insertItem p text)
    return
  | removeParagraph p => do
    let _ ← Document.edit (Edit.removeParagraph p)
    return
  | removeRow id | removeTable id => Document.edit (Edit.remove id)
  | merge fields => do
    let _ ← Merge.run fields
    return

/-- The document after an operation, whether it has failed or not. -/
def Gives (o : Operation) (d d' : Document) : Prop :=
  o.work d = .ok () d' ∨ ∃ err, o.work d = .error err d'

end Operation

/-- A sequence of operations. -/
abbrev Operations : Document → Document → Prop :=
  Relation.ReflTransGen fun d d' => ∃ o : Operation, o.Applies d.forest ∧ o.Gives d d'

/-! ## What every operation keeps -/

/-- Numbers and roots are kept, and what lasts of the children of a text. -/
structure Sequel (f f' : Forest) : Prop where
  move : Move f f'
  roots : KeepsRoots f f'
  stays : ∀ {good : List Key → Prop}, Lasting good → Stays good f f'

theorem Planted.move {f f' : Forest} (hf : f.Numbered) (h : Planted f f') : Move f f' := by
  have hf' := h.numbered hf
  obtain ⟨root, next, rfl, hle, -, hids⟩ := h
  have old : ∀ {i : Nat}, i ∈ (Content.element root.tag root.inner .nil).ids → ¬i < f.next :=
    fun hi hlt => by
      have := (hids _ hi).1
      omega
  refine ⟨hf', hle, fun _ _ _ hb _ => absurd trivial hb, fun q hq hlt => ⟨q, ?_, rfl⟩,
    ?_, fun _ _ => .inr trivial, fun t ht => .inl ?_⟩
  · refine hq.imp (fun hq => ?_) id
    simp only [Forest.plant, Content.elements_append, List.mem_append] at hq
    exact hq.resolve_right fun hq => old (Content.id_mem_ids hq) hlt
  · have hnew : (trails [] (.element root.tag root.inner .nil)).filter (isOld f.next) = [] := by
      refine List.filter_eq_nil_iff.2 fun t ht => ?_
      obtain ⟨k, u, rfl⟩ := above_suffix ht
      simpa using Nat.not_lt.1 (old (mem_ids_iff_trail.2 ⟨k, _, ht, rfl⟩))
    simp only [Forest.plant, trails_append, List.filter_append, hnew, List.append_nil]
    exact List.filter_sublist
  · simp only [Forest.plant, trails_append, List.mem_append]
    exact .inl ht

namespace Sequel

variable {f f' f'' : Forest} {d d' : Document}

theorem refl (hf : f.Numbered) : Sequel f f := ⟨.refl hf, fun _ hk => hk, fun _ => .refl f⟩

theorem trans (h : Sequel f f') (h' : Sequel f' f'') : Sequel f f'' :=
  ⟨h.move.trans h'.move, h.roots.trans h'.roots, fun hg =>
    (h.stays hg).trans (h'.stays hg) h.move.next⟩

theorem of_edits (hf : f.Numbered) (h : Edits f f') : Sequel f f' :=
  ⟨h.move hf, h.keepsRoots hf, fun hg => h.stays hg hf⟩

theorem of_lifted {p : Nat} (hf : f.Numbered)
    (hp : ∀ e, f.element? p = some e → e.tag.name = Names.paragraph) (h : Lifted p f f') :
    Sequel f f' :=
  ⟨h.move hf hp, h.keepsRoots hf, fun hg => h.stays hg hf hp⟩

theorem of_removed {id : Nat} (hf : f.Numbered)
    (hn : ∀ e, f.element? id = some e → e.tag.name ∈ [Names.row, Names.table]) :
    Sequel f (removed f id) := by
  have hm : Loss f.next (fun _ => True) f (removed f id) :=
    removed_frame hf fun e he => List.mem_cons_of_mem _ (hn e he)
  exact ⟨hm.move, keepsRoots_removed hf id, fun hg => removed_stays hg hf hn⟩

theorem of_planted (hf : f.Numbered) (h : Planted f f') : Sequel f f' := by
  refine ⟨h.move hf, fun k hk => ?_, fun _ z hz hlt _ => ⟨z, ?_, rfl, id⟩⟩
  · obtain ⟨e, he, rfl⟩ := List.mem_map.1 hk
    exact List.mem_map_of_mem (h.children e he)
  · obtain ⟨root, next, rfl, -, -, hids⟩ := h
    simp only [Forest.plant, Content.elements_append, List.mem_append] at hz
    refine hz.resolve_right fun hz => ?_
    have := (hids _ (Content.id_mem_ids hz)).1
    omega

theorem of_reads (hf : d.forest.Numbered) (h : Document.Reads d d') :
    Sequel d.forest d'.forest := by
  have hp := h.forest
  generalize d'.forest = f' at hp
  induction hp with
  | refl => exact .refl hf
  | tail _ h ih => exact ih.trans (.of_planted ih.move.numbered h)

end Sequel

variable {d d' : Document}

theorem Document.Sound.sequel (hs : d.Sound) (h : Sequel d.forest d'.forest)
    (hroot : d'.root = d.root) (hparts : d'.parts = d.parts) : d'.Sound := by
  have root : ∀ {i : Nat}, (∃ e ∈ d.forest.attached.children, e.tag.id = i) →
      ∃ e ∈ d'.forest.attached.children, e.tag.id = i := by
    rintro i ⟨e, he, rfl⟩
    obtain ⟨e', he', hk⟩ := List.mem_map.1 (h.roots _ (List.mem_map_of_mem he))
    exact ⟨e', he', congrArg Key.id hk⟩
  exact ⟨⟨h.move.numbered, hparts ▸ fun part hp => root (hs.parts part hp)⟩, hroot ▸ root hs.root⟩

theorem Follows.sequel (hs : d.Sound) (h : Follows d d') :
    d'.Sound ∧ Sequel d.forest d'.forest := by
  have hq := Sequel.of_edits hs.numbered h.2
  have hp := h.1
  unfold SameParts at hp
  exact ⟨hs.sequel hq (by rw [hp]) (by rw [hp]), hq⟩

/-! ## What every operation does -/

/-- What becomes of the trees in an operation. -/
inductive Worked (f f' : Forest) : Prop
  | edits (h : Edits f f')
  | lifted {p : Nat} (hp : ∀ e, f.element? p = some e → e.tag.name = Names.paragraph)
      (h : Lifted p f f')
  | removed {id : Nat}
      (hn : ∀ e, f.element? id = some e → e.tag.name ∈ [Names.row, Names.table])
      (h : f' = removed f id)

theorem Worked.sequel {f f' : Forest} (hf : f.Numbered) (h : Worked f f') : Sequel f f' := by
  cases h with
  | edits h => exact .of_edits hf h
  | lifted hp h => exact .of_lifted hf hp h
  | removed hn h => exact h ▸ .of_removed hf hn

/-- Parts are looked at, and then the trees are worked on. -/
def Handled (d d' : Document) : Prop :=
  ∃ d₁, Document.Looks d d₁ ∧ SameParts d₁ d' ∧ Worked d₁.forest d'.forest

theorem Handled.sequel (hs : d.Sound) (h : Handled d d') :
    d'.Sound ∧ Sequel d.forest d'.forest := by
  obtain ⟨d₁, hl, hp, hw⟩ := h
  have hs₁ := hl.reads.sound hs
  have hq := hw.sequel hs₁.numbered
  unfold SameParts at hp
  exact ⟨hs₁.sequel hq (by rw [hp]) (by rw [hp]),
    (Sequel.of_reads hs.numbered hl.reads).trans hq⟩

/-- What comes of an edit of the trees. -/
theorem edit_handled {α : Type} {x : Edit α}
    (h : Meets x d.forest (fun _ => Worked d.forest) fun _ => Worked d.forest) :
    Meets (Document.edit x) d (fun _ => Handled d) fun _ => Handled d :=
  meets_edit.2 (h.mono (fun _ _ hw => ⟨d, .refl, rfl, hw⟩) fun _ _ hw => ⟨d, .refl, rfl, hw⟩)

theorem insertItem_worked {f : Forest} {p : Nat} {cs : List Char} (hf : f.Numbered)
    (hp : ∀ e, f.element? p = some e → e.tag.name = Names.paragraph) :
    Meets (Edit.insertItem p cs) f (fun _ => Worked f) fun _ => Worked f := by
  cases he : f.element? p with
  | none =>
    have hi : Edit.insertItem p cs f = .ok p f := insertItem_of_none he
    exact (meets_of_ok hi).2 (.edits .refl)
  | some e =>
    refine (insertItem_spec hf he (hp e he)).mono ?_ ?_
    · rintro _ f' ⟨new, -, -, hi⟩
      exact .edits (.single (.inserted (hp e he) hi))
    · rintro _ _ ⟨rfl, -⟩
      exact .edits .refl

theorem Operation.handled {o : Operation} (hs : d.Sound) (ha : o.Applies d.forest) :
    Meets o.work d (fun _ => Handled d) fun _ => Handled d := by
  have hf := hs.numbered
  cases o with
  | replaceSpan p start last new =>
    refine edit_handled ((replaceSpan_revised hf (ha p _ rfl)).mono ?_ ?_)
    · exact fun _ _ h => .edits (.single (.revised h))
    · exact fun _ _ h => .edits (.single (.revised h))
  | insertItem p text => exact meets_bind.2 (edit_handled (insertItem_worked hf (ha p _ rfl)))
  | removeParagraph p =>
    refine meets_bind.2 (edit_handled ((removeParagraph_spec p d.forest).mono ?_ ?_))
    · exact fun _ _ h => .lifted (ha p _ rfl) h
    · exact fun _ _ h => h.elim
  | removeRow row =>
    exact edit_handled (x := Edit.remove row)
      (Worked.removed (fun e he => by simp [ha row _ rfl e he]) rfl)
  | removeTable table =>
    exact edit_handled (x := Edit.remove table)
      (Worked.removed (fun e he => by simp [ha table _ rfl e he]) rfl)
  | merge fields =>
    have merged : ∀ {d'}, Merge.Merged d d' → Handled d d' :=
      fun ⟨d₁, hl, hp, he⟩ => ⟨d₁, hl, hp, .edits he⟩
    exact meets_bind.2 ((Merge.run_spec hs).mono (fun _ _ h => merged h) fun _ _ h => merged h)

theorem Operation.sequel {o : Operation} (hs : d.Sound) (ha : o.Applies d.forest) :
    Meets o.work d (fun _ d' => d'.Sound ∧ Sequel d.forest d'.forest)
      fun _ d' => d'.Sound ∧ Sequel d.forest d'.forest :=
  (o.handled hs ha).mono (fun _ _ h => h.sequel hs) fun _ _ h => h.sequel hs

theorem Operation.Gives.sequel {o : Operation} (hs : d.Sound) (ha : o.Applies d.forest)
    (h : o.Gives d d') : d'.Sound ∧ Sequel d.forest d'.forest :=
  h.elim (o.sequel hs ha).of_ok fun ⟨_, h⟩ => (o.sequel hs ha).of_error h

theorem Operations.sequel (hs : d.Sound) (h : Operations d d') :
    d'.Sound ∧ Sequel d.forest d'.forest := by
  induction h with
  | refl => exact ⟨hs, .refl hs.numbered⟩
  | tail _ h ih =>
    obtain ⟨o, ha, hg⟩ := h
    obtain ⟨h₁, h₂⟩ := hg.sequel ih.1 ha
    exact ⟨h₁, ih.2.trans h₂⟩

end MailMerge
