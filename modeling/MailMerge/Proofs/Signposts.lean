import MailMerge.Proofs.Relisted

/-!
# Children of roots that lead on

The body is looked for among the children of the root of the main part, and relationships among
those of the root of theirs. No edit takes such a child away or brings one up, whatever part the
edited paragraph is in, so the same ones are found there for good (`Sequel.signposts`).
-/

namespace MailMerge.Word

open MailMerge.Xml

/-- The names of the children of a root that lead on from it. -/
def Names.leading : List Name := [Names.body, Names.relationship]

/-- The keys that lead on, in their order. -/
def leadingOf (ks : List Key) : List Key := ks.filter fun k => k.name ∈ Names.leading

/-- The children of roots that lead on, each with its root. -/
def signposts (c : Content) : List (Key × Key) :=
  c.children.flatMap fun r => (leadingOf (childKeys r.inner)).map fun k => (key r.tag, k)

theorem leadingOf_cons {k : Key} {ks : List Key} (h : k.name ∉ Names.leading) :
    leadingOf (k :: ks) = leadingOf ks := by
  simp [leadingOf, h]

theorem Thinned.leadingOf {out : Key → Prop} (ho : ∀ k, out k → k.name ∉ Names.leading)
    {l l' : List Key} (h : Thinned out l l') : leadingOf l' = leadingOf l := by
  induction h with
  | nil => rfl
  | keep _ ih => simp only [Word.leadingOf, List.filter_cons] at ih ⊢; rw [ih]
  | lose hk _ ih => rw [ih, leadingOf_cons (ho _ hk)]

theorem leading_notMem_showing : ∀ n ∈ Names.leading, n ∉ Names.showing ∧ n ≠ Names.run := by
  decide

theorem paragraph_notMem_leading {name : Name} (h : name = Names.paragraph) :
    name ∉ Names.leading := by
  rw [h]
  decide

/-- What leads on from roots around a place is what it was, where it is what it was at the place. -/
theorem signposts_fill {c c' : Content} : ∀ {h : Hole},
    (h.above = [] → signposts c' = signposts c) →
    leadingOf (childKeys c') = leadingOf (childKeys c) →
      signposts (h.fill c') = signposts (h.fill c)
  | .here, hr, _ => hr rfl
  | .text _ h, hr, hc | .markup _ h, hr, hc => signposts_fill (h := h) hr hc
  | .behind tag inner h, hr, hc => by
    have ih := signposts_fill (h := h) hr hc
    simp only [signposts, Hole.fill, Content.children, List.flatMap_cons] at ih ⊢
    rw [ih]
  | .inside tag h rest, _, hc => by
    have hin : leadingOf (childKeys (h.fill c')) = leadingOf (childKeys (h.fill c)) := by
      rcases childKeys_fill h with ⟨-, a, ha⟩ | ⟨l, hl⟩
      · rw [ha, ha]
        simp only [leadingOf, List.filter_append] at hc ⊢
        rw [hc]
      · rw [hl, hl]
    simp only [signposts, Hole.fill, Content.children, List.flatMap_cons]
    rw [hin]

/-- What leads on is the same after an edit. -/
def SameSignposts (f f' : Forest) : Prop := signposts f'.attached = signposts f.attached

namespace SameSignposts

variable {f f' f'' : Forest} {e : Element} {s : Forest.Side} {h : Hole} {c c' rest : Content}

theorem refl (f : Forest) : SameSignposts f f := rfl

theorem trans (h : SameSignposts f f') (h' : SameSignposts f' f'') : SameSignposts f f'' :=
  Eq.trans h' h

theorem of_fill (hs : f.side s = h.fill c)
    (ha : f'.attached = (f.setSide s (h.fill c')).attached)
    (hr : h.above = [] → signposts c' = signposts c)
    (hc : leadingOf (childKeys c') = leadingOf (childKeys c)) : SameSignposts f f' := by
  unfold SameSignposts
  cases s with
  | detached => rw [ha, Forest.setSide]
  | attached =>
    simp only [Forest.side, Forest.setSide] at hs ha
    rw [ha, hs]
    exact signposts_fill hr hc

/-- An element that leads nowhere is taken out of another one. -/
theorem detach {parent : Element} {above : List Element} (hf : f.Numbered)
    (hs : f.side s = h.fill (.element e.tag e.inner rest))
    (ha : parent :: above = h.around (.element e.tag e.inner rest))
    (hn : e.tag.name ∉ Names.leading) : SameSignposts f (f.detach e.tag.id) := by
  have hc : leadingOf (childKeys rest.dropText) =
      leadingOf (childKeys (.element e.tag e.inner rest)) := by
    rw [childKeys_dropText]
    exact (leadingOf_cons (k := key e.tag) hn).symm
  rw [Forest.detach_eq hf hs]
  exact of_fill hs (by cases s <;> rfl) (fun hn => absurd hn (Hole.above_ne_nil ha)) hc

theorem removed {id : Nat} (hf : f.Numbered)
    (hn : ∀ e, f.element? id = some e → e.tag.name ∉ Names.leading) :
    SameSignposts f (removed f id) := by
  unfold Word.removed
  split
  · next e parent above he =>
    obtain ⟨s, h, rest, hs, rfl, ha⟩ := hf.place?_eq he
    exact detach hf hs ha (hn e (Forest.element?_of_place? he))
  · exact refl f

end SameSignposts

/-! ## Edits -/

section Edits

variable {f f' : Forest} {p : Nat} {e : Element}

/-- What comes and goes in a paragraph is in runs, and these do not lead on. -/
theorem Reworked.leadingOf {n : Nat} {u : List Key} {tag : Tag} {c c' : Content}
    (hp : tag.name = Names.paragraph) (h : Reworked n (key tag :: u) c c') :
    leadingOf (childKeys c') = leadingOf (childKeys c) := by
  rcases h with h | ⟨run, inner, rfl, hr, -⟩
  · induction h with
    | refl => rfl
    | tail _ h ih =>
      rw [← ih]
      refine (h.children fun k hk => ?_).leadingOf fun k hk => ?_
      · generalize ht : k :: key tag :: u = t at hk
        cases hk with
        | mk _ _ hm =>
          obtain ⟨rfl, -⟩ := List.cons.inj (List.cons.inj ht).2
          exact absurd (hp.symm.trans hm) (by decide)
      · generalize hw : ([] : List Key) = w at hk
        generalize ht : k :: key tag :: u = t at hk
        cases hk with
        | shown hk =>
          obtain ⟨rfl, -⟩ := List.cons.inj ht
          exact fun hl => absurd hk (leading_notMem_showing _ hl).1
        | run hk =>
          obtain ⟨rfl, -⟩ := List.cons.inj ht
          exact fun hl => absurd hk (leading_notMem_showing _ hl).2
        | inRun => simp at hw
  · have hk : (key run).name ∉ Names.leading := by
      rw [key_name, hr]
      decide
    have happ : childKeys (c ++ .element run inner .nil) = childKeys c ++ [key run] := by
      simp [childKeys, Content.children]
    rw [happ, Word.leadingOf, List.filter_append, ← Word.leadingOf, ← Word.leadingOf,
      leadingOf_cons hk]
    exact List.append_nil _

theorem Revised.signposts (h : Revised p f f') : SameSignposts f f' := by
  rcases h with rfl | ⟨e, s, h, rest, inner, -, hp, -, hr⟩
  · exact .refl _
  · refine .of_fill hr.side hr.attached (fun _ => ?_) rfl
    simp only [Word.signposts, Content.children, List.flatMap_cons, hr.reworked.leadingOf hp]

theorem childKeys_face : ∀ c : Content, childKeys c.face = (childKeys c).map Key.face
  | .nil => rfl
  | .text _ rest | .markup _ rest => childKeys_face rest
  | .element tag _ rest => by
    have hr := childKeys_face rest
    simp only [childKeys] at hr
    simp [childKeys, Content.face, Content.children, key_face, hr]

/-- The children of a copy have the names of those of the original. -/
theorem exists_name_of_face {c d : Content} (h : c.face = d.face) {k : Key}
    (hk : k ∈ childKeys c) : ∃ k' ∈ childKeys d, k'.name = k.name := by
  have hm : k.face ∈ (childKeys d).map Key.face := by
    rw [← childKeys_face, ← h, childKeys_face]
    exact List.mem_map_of_mem hk
  obtain ⟨k', hk', he⟩ := List.mem_map.1 hm
  have hn : k'.face.name = k.face.name := congrArg Key.name he
  exact ⟨k', hk', hn⟩

theorem CopyOf.name_of_mem {name : Name} {c : Content} (h : CopyOf name e c) {k : Key}
    (hk : k ∈ childKeys c) : k.name = name := by
  rcases h.cases with rfl | ⟨p, -, hn, tail, hf⟩
  · cases hk
  · obtain ⟨k', hk', he⟩ := exists_name_of_face hf hk
    obtain rfl : k' = key p.tag := by simpa [childKeys, Content.children] using hk'
    exact he.symm.trans hn

/-- Nothing that leads on is in a list item. -/
theorem ItemOf.leadingOf {new : Element} {cs : List Char} (h : ItemOf e cs new) :
    leadingOf (childKeys new.inner) = [] := by
  obtain ⟨properties, formatting, lead, hp, -, hf⟩ := h.inner
  refine List.filter_eq_nil_iff.2 fun k hk => ?_
  obtain ⟨k', hk', hn⟩ := exists_name_of_face hf hk
  have hname : k'.name = Names.paragraphProperties ∨ k'.name = Names.run := by
    simp only [childKeys, Content.children_append, List.map_append, List.mem_append] at hk'
    refine hk'.imp hp.name_of_mem fun hk' => ?_
    split at hk'
    · cases hk'
    · obtain rfl : k' = key (newTag Names.run lead) := by
        simpa [newRun, Content.children] using hk'
      rfl
  rw [← hn]
  rcases hname with h | h <;> rw [h] <;> decide

theorem Inserted.signposts {new : Element} {cs : List Char} (hp : e.tag.name = Names.paragraph)
    (h : Inserted f f' e cs new) : SameSignposts f f' := by
  obtain ⟨s, k, rest, hs, ha, -⟩ := h.place
  have hkeys : childKeys (.element e.tag e.inner (rest.insertBehindText new)) =
      key e.tag :: key new.tag :: childKeys rest :=
    congrArg (key e.tag :: ·) (childKeys_insertBehindText new rest)
  refine .of_fill hs ha (fun _ => ?_) ?_
  · have hc : (Content.element e.tag e.inner (rest.insertBehindText new)).children =
        e :: new :: rest.children :=
      congrArg (e :: ·) (Content.children_insertBehindText new rest)
    rw [Word.signposts, hc, Word.signposts]
    simp only [List.flatMap_cons, h.item.leadingOf, List.map_nil, List.nil_append,
      Content.children]
  · have hc : childKeys (.element e.tag e.inner rest) = key e.tag :: childKeys rest := rfl
    rw [hkeys, hc, leadingOf_cons (k := key e.tag) (paragraph_notMem_leading hp),
      leadingOf_cons (k := key new.tag) (paragraph_notMem_leading h.item.name),
      leadingOf_cons (k := key e.tag) (paragraph_notMem_leading hp)]

theorem Lifted.signposts (hf : f.Numbered)
    (hp : ∀ e, f.element? p = some e → e.tag.name = Names.paragraph) (h : Lifted p f f') :
    SameSignposts f f' := by
  cases h with
  | none => exact .refl f
  | @emptied e _ _ he =>
    obtain ⟨s, h, rest, hs, rfl, ha⟩ := hf.place?_eq he
    have hc : leadingOf (childKeys (.element e.tag (Edit.propertiesOf e.inner) rest)) =
        leadingOf (childKeys (.element e.tag e.inner rest)) := rfl
    rw [Forest.update_eq hf hs]
    exact .of_fill hs (by cases s <;> rfl) (fun hn => absurd hn (Hole.above_ne_nil ha)) hc
  | @away e _ _ he _ _ =>
    obtain ⟨s, h, rest, hs, rfl, ha⟩ := hf.place?_eq he
    exact .detach hf hs ha (paragraph_notMem_leading (hp e (Forest.element?_of_place? he)))

theorem notMem_leading {name : Name} (h : name ∈ [Names.row, Names.table]) :
    name ∉ Names.leading := by
  simp only [List.mem_cons, List.not_mem_nil, or_false] at h
  rcases h with rfl | rfl <;> decide

theorem CleanedRow.signposts (hf : f.Numbered) (h : CleanedRow f f') : SameSignposts f f' := by
  have row : ∀ {r : Element}, f.element? r.tag.id = some r → r.tag.name = Names.row →
      SameSignposts f (removed f r.tag.id) := by
    intro r hr hn
    refine .removed hf fun e he => ?_
    obtain rfl := Option.some.inj (he.symm.trans hr)
    exact notMem_leading (by simp [hn])
  cases h with
  | none => exact .refl f
  | row hr hn _ _ => exact row hr hn
  | @table r t t' hr hn he ht ht' hrows =>
    obtain ⟨h₁, h₂⟩ : Loss f.next (fun _ => True) f _ ∧ _ := removed_table hf hr hn ht
    exact (row hr hn).trans (.removed h₁.numbered fun e he => notMem_leading (by simp [h₂ e he]))

theorem Edited.signposts (hf : f.Numbered) (h : Edited f f') : SameSignposts f f' := by
  cases h with
  | revised h => exact h.signposts
  | inserted hp h => exact h.signposts hp
  | cleaned hp h =>
    cases h with
    | none => exact .refl f
    | away he hm h₁ h₂ =>
      have hl := h₁.move hf hp.2
      exact (h₁.signposts hf hp.2).trans (h₂.signposts hl.numbered)

theorem Edits.signposts (hf : f.Numbered) (h : Edits f f') : SameSignposts f f' := by
  induction h with
  | refl => exact .refl f
  | tail hs h ih => exact ih.trans (h.signposts (Edits.move hf hs).numbered)

end Edits

/-! ## Roots that are still there -/

theorem filter_signposts_cons {r : Element} {b : Key} (l : List Element) :
    (((r :: l).flatMap fun x => (leadingOf (childKeys x.inner)).map fun k => (key x.tag, k)).filter
      (·.1 = b)).map (·.2) = (if key r.tag = b then leadingOf (childKeys r.inner) else []) ++
        ((l.flatMap fun x => (leadingOf (childKeys x.inner)).map fun k => (key x.tag, k)).filter
          (·.1 = b)).map (·.2) := by
  rw [List.flatMap_cons, List.filter_append, List.map_append, List.filter_map, List.map_map]
  by_cases h : key r.tag = b <;> simp [h, Function.comp_def]

/-- What leads on from a root is told by its key. -/
theorem filter_signposts {c : Content} (hc : c.ids.Nodup) {r : Element} (hr : r ∈ c.children) :
    ((signposts c).filter (·.1 = key r.tag)).map (·.2) = leadingOf (childKeys r.inner) := by
  have hnd : (c.children.map fun e => key e.tag).Nodup :=
    .of_map _ ((childKeys_ids c).nodup hc)
  unfold signposts
  generalize c.children = l at hr hnd
  induction l with
  | nil => cases hr
  | cons x l ih =>
    rw [List.map_cons, List.nodup_cons] at hnd
    rw [filter_signposts_cons]
    rcases List.mem_cons.1 hr with rfl | hr
    · have hnil : (l.flatMap fun x => (leadingOf (childKeys x.inner)).map fun k =>
          (key x.tag, k)).filter (·.1 = key r.tag) = [] := by
        refine List.filter_eq_nil_iff.2 fun y hy he => ?_
        obtain ⟨x, hx, hy⟩ := List.mem_flatMap.1 hy
        obtain ⟨k, -, rfl⟩ := List.mem_map.1 hy
        exact hnd.1 (of_decide_eq_true he ▸
          List.mem_map_of_mem (f := fun e : Element => key e.tag) hx)
      rw [if_pos rfl, hnil, List.map_nil, List.append_nil]
    · have hne : key x.tag ≠ key r.tag := fun he =>
        hnd.1 (he ▸ List.mem_map_of_mem (f := fun e : Element => key e.tag) hr)
      rw [if_neg hne, List.nil_append, ih hr hnd.2]

/-- What leads on from a root that is still there. -/
theorem SameSignposts.root {f f' : Forest} {r r' : Element} (h : SameSignposts f f')
    (hf : f.Numbered) (hf' : f'.Numbered) (hr : r ∈ f.attached.children)
    (hr' : r' ∈ f'.attached.children) (hk : key r'.tag = key r.tag) :
    leadingOf (childKeys r'.inner) = leadingOf (childKeys r.inner) := by
  rw [← filter_signposts hf'.attached hr', h, hk, filter_signposts hf.attached hr]

end MailMerge.Word

namespace MailMerge

open Xml Word

theorem Worked.signposts {f f' : Forest} (hf : f.Numbered) (h : Worked f f') :
    SameSignposts f f' := by
  cases h with
  | edits h => exact h.signposts hf
  | lifted hp h => exact h.signposts hf hp
  | removed hn h => exact h ▸ .removed hf fun e he => notMem_leading (hn e he)

end MailMerge
