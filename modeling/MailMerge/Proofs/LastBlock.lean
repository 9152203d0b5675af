import MailMerge.Proofs.Edited
import MailMerge.Proofs.Stories

/-!
# The blocks of a text

A cell, a note, a header, a footer and a text box must end with a paragraph, but for markers of
ranges behind it. `Carried` says of an edit that a property of the content of such elements goes
over to the content they have afterwards, for all elements that are still attached. What a property
of their children needs for that is little (`Lasting`): that the last block is a paragraph lasts, and
so does that there is a paragraph among the children at all.
-/

namespace MailMerge.Word

open MailMerge.Xml

/-- Whether content ends with a paragraph, markers of ranges aside. -/
def EndsInParagraph (c : Content) : Prop :=
  (c.children.filter fun e => e.tag.name ∉ Names.rangeMarkers).getLast?.any
    (fun e => e.tag.name = Names.paragraph) = true

instance (c : Content) : Decidable (EndsInParagraph c) := inferInstanceAs (Decidable (_ = true))

/-- The last block among children with the given keys. -/
def lastBlock (ks : List Key) : Option Key := (ks.filter fun k => k.name ∉ Names.rangeMarkers).getLast?

theorem lastBlock_append (a b : List Key) :
    lastBlock (a ++ b) = (lastBlock b).or (lastBlock a) := by
  simp only [lastBlock, List.filter_append, List.getLast?_append]

theorem lastBlock_cons {k : Key} {b : List Key} (hk : k.name ∉ Names.rangeMarkers) :
    lastBlock (k :: b) = (lastBlock b).or (some k) := by
  have : lastBlock [k] = some k := by simp [lastBlock, hk]
  rw [← this, ← lastBlock_append, List.singleton_append]

theorem lastBlock_of_sublist {l l' : List Key} (h : l'.Sublist l) (hl : lastBlock l = none) :
    lastBlock l' = none := by
  rw [lastBlock, List.getLast?_eq_none_iff] at hl ⊢
  exact List.sublist_nil.1 (hl ▸ h.filter _)

theorem Thinned.sublist {out : Key → Prop} {l l' : List Key} (h : Thinned out l l') :
    l'.Sublist l := by
  induction h with
  | nil => exact .slnil
  | keep _ ih => exact ih.cons_cons _
  | lose _ _ ih => exact ih.cons _

/-- What is lost is no paragraph, so the last block stays if it is one. -/
theorem lastBlock_thinned {out : Key → Prop} (ho : ∀ k, out k → k.name ≠ Names.paragraph)
    {l l' : List Key} (h : Thinned out l l') {k : Key} (hk : lastBlock l = some k)
    (hp : k.name = Names.paragraph) : lastBlock l' = some k := by
  induction h with
  | nil => exact hk
  | @keep x l l' h ih =>
    rw [← List.singleton_append, lastBlock_append] at hk ⊢
    rcases Option.or_eq_some_iff.1 hk with hl | ⟨hl, hx⟩
    · rw [ih hl, Option.some_or]
    · rw [lastBlock_of_sublist h.sublist hl, Option.none_or, hx]
  | @lose x l l' hx h ih =>
    rw [← List.singleton_append, lastBlock_append] at hk
    rcases Option.or_eq_some_iff.1 hk with hl | ⟨-, hk⟩
    · exact ih hl
    · have hm : k ∈ [x].filter fun k => k.name ∉ Names.rangeMarkers := List.mem_of_getLast? hk
      obtain rfl := List.mem_singleton.1 (List.mem_filter.1 hm).1
      exact absurd hp (ho _ hx)

/-! ## Carrying properties of content over -/

/-- What holds of the content of an element of some kind holds of what is in it after an edit, if
the element is attached then. New elements have numbers from `f.next` on. -/
def Carried (kind : Key → Prop) (good : Content → Prop) (f f' : Forest) : Prop :=
  ∀ z' ∈ f'.attached.elements, z'.tag.id < f.next → kind (key z'.tag) →
    ∃ z ∈ f.attached.elements, key z.tag = key z'.tag ∧ (good z.inner → good z'.inner)

namespace Carried

variable {kind : Key → Prop} {good : Content → Prop} {f f' f'' : Forest}

theorem refl (f : Forest) : Carried kind good f f := fun z hz _ _ => ⟨z, hz, rfl, id⟩

theorem trans (h : Carried kind good f f') (h' : Carried kind good f' f'')
    (hn : f.next ≤ f'.next) : Carried kind good f f'' := by
  intro z'' hz'' hlt hkind
  obtain ⟨z', hz', hk', hg'⟩ := h' z'' hz'' (Nat.lt_of_lt_of_le hlt hn) hkind
  have hid : z'.tag.id = z''.tag.id := congrArg Key.id hk'
  obtain ⟨z, hz, hk, hg⟩ := h z' hz' (hid ▸ hlt) (hk' ▸ hkind)
  exact ⟨z, hz, hk.trans hk', fun h => hg' (hg h)⟩

/-- What holds of the content of an element holds of it for good. -/
theorem good_of (h : Carried kind good f f') (hm : Move f f') (hf : f.Numbered) {e e' : Element}
    (he : e ∈ f.attached.elements) (he' : e' ∈ f'.attached.elements)
    (hid : e'.tag.id = e.tag.id) (hk : kind (key e.tag)) (hg : good e.inner) : good e'.inner := by
  have hlt : e'.tag.id < f.next := hid ▸ hf.has_lt (.inl he)
  obtain ⟨q, hq, hkq⟩ := hm.known e' (.inl he') hlt
  obtain rfl := hf.eq_of_id hq (.inl he) ((congrArg Key.id hkq).trans hid)
  obtain ⟨z, hz, hkz, hgz⟩ := h e' he' hlt (hkq ▸ hk)
  obtain rfl := hf.eq_of_id (.inl hz) (.inl he) ((congrArg Key.id hkz).trans hid)
  exact hgz hg

/-- An edit at one place, by what it does to the elements around the place and those in it. -/
theorem of_fill {s : Forest.Side} {h : Hole} {c c' : Content} (hs : f.side s = h.fill c)
    (ha : f'.attached = (f.setSide s (h.fill c')).attached)
    (around : f.attached = h.fill c → ∀ g tag k r, h = Hole.comp g (.inside tag k r) →
      kind (key tag) → good (k.fill c) → good (k.fill c'))
    (inside : f.attached = h.fill c → ∀ z' ∈ c'.elements, z'.tag.id < f.next →
      kind (key z'.tag) → ∃ z ∈ c.elements, key z.tag = key z'.tag ∧
        (good z.inner → good z'.inner)) :
    Carried kind good f f' := by
  intro z' hz' hlt hkind
  cases s with
  | detached => exact ⟨z', ha ▸ hz', rfl, id⟩
  | attached =>
    simp only [Forest.side, Forest.setSide] at hs ha
    rw [ha] at hz'
    rcases Hole.mem_elements_fill.1 hz' with hz' | hz' | hz'
    · exact ⟨z', hs ▸ Hole.mem_elements_fill.2 (.inl hz'), rfl, id⟩
    · obtain ⟨g, k, r, rfl, hk⟩ := Hole.exists_of_mem_around hz'
      refine ⟨⟨z'.tag, k.fill c⟩, ?_, rfl, ?_⟩
      · exact hs ▸ Hole.mem_fill_of_around Hole.mem_around_comp
      rw [hk]
      exact around hs g _ k r rfl hkind
    · obtain ⟨z, hz, hk, hg⟩ := inside hs z' hz' hlt hkind
      exact ⟨z, hs ▸ Hole.mem_fill hz, hk, hg⟩

/-- The content of an element is changed, which is not of the kind itself. -/
theorem of_content {e : Element} {s : Forest.Side} {h : Hole} {rest inner : Content}
    (hs : f.side s = h.fill (.element e.tag e.inner rest))
    (ha : f'.attached = (f.setSide s (h.fill (.element e.tag inner rest))).attached)
    (he : ¬kind (key e.tag))
    (around : f.attached = h.fill (.element e.tag e.inner rest) → ∀ g tag k r,
      h = Hole.comp g (.inside tag k r) → kind (key tag) →
        good (k.fill (.element e.tag e.inner rest)) → good (k.fill (.element e.tag inner rest)))
    (inside : f.attached = h.fill (.element e.tag e.inner rest) → ∀ z' ∈ inner.elements,
      z'.tag.id < f.next → kind (key z'.tag) → ∃ z ∈ e.inner.elements, key z.tag = key z'.tag ∧
        (good z.inner → good z'.inner)) :
    Carried kind good f f' := by
  refine of_fill hs ha around fun hat z' hz hlt hkind => ?_
  simp only [Content.mem_element] at hz ⊢
  rcases hz with rfl | hz | hz
  · exact absurd hkind he
  · obtain ⟨z, hz, hk, hg⟩ := inside hat z' hz hlt hkind
    exact ⟨z, .inr (.inl hz), hk, hg⟩
  · exact ⟨z', .inr (.inr hz), rfl, id⟩

/-- An element is taken away. -/
theorem detach {e : Element} {s : Forest.Side} {h : Hole} {rest : Content} (hf : f.Numbered)
    (hs : f.side s = h.fill (.element e.tag e.inner rest))
    (around : f.attached = h.fill (.element e.tag e.inner rest) →
      ∀ g tag k r, h = Hole.comp g (.inside tag k r) → kind (key tag) →
        good (k.fill (.element e.tag e.inner rest)) → good (k.fill rest.dropText)) :
    Carried kind good f (f.detach e.tag.id) := by
  rw [Forest.detach_eq hf hs]
  refine of_fill hs (by cases s <;> rfl) around fun _ z' hz _ _ => ?_
  rw [Content.elements_dropText] at hz
  exact ⟨z', by simp [Content.elements, hz], rfl, id⟩

end Carried

/-! ## Properties of the children -/

/-- A property of the keys of the children that no edit takes away: what is taken away is no
paragraph, new paragraphs come behind old ones, and a paragraph only goes where another one is the
last block. -/
structure Lasting (good : List Key → Prop) : Prop where
  thinned : ∀ {out : Key → Prop} {l l' : List Key}, (∀ k, out k → k.name ≠ Names.paragraph) →
    Thinned out l l' → good l → good l'
  item : ∀ {a b : List Key} {k i : Key}, k.name = Names.paragraph → i.name = Names.paragraph →
    good (a ++ k :: b) → good (a ++ k :: i :: b)
  ending : ∀ {l : List Key} {k : Key}, lastBlock l = some k → k.name = Names.paragraph → good l

/-- Whether the last block is a paragraph. -/
def LastIsParagraph (l : List Key) : Prop := ∃ k, lastBlock l = some k ∧ k.name = Names.paragraph

theorem paragraph_notMem_rangeMarkers {k : Key} (h : k.name = Names.paragraph) :
    k.name ∉ Names.rangeMarkers := by
  rw [h]
  decide

theorem lasting_lastIsParagraph : Lasting LastIsParagraph where
  thinned ho h := fun ⟨k, hk, hp⟩ => ⟨k, lastBlock_thinned ho h hk hp, hp⟩
  item {a b k i} hk hi := by
    rintro ⟨x, hx, hp⟩
    have hki := paragraph_notMem_rangeMarkers hk
    have hii := paragraph_notMem_rangeMarkers hi
    rw [lastBlock_append, lastBlock_cons hki] at hx
    unfold LastIsParagraph
    rw [lastBlock_append, lastBlock_cons hki, lastBlock_cons hii]
    cases hb : lastBlock b with
    | none => exact ⟨i, rfl, hi⟩
    | some y =>
      rw [hb, Option.some_or, Option.some_or] at hx
      exact ⟨y, rfl, Option.some.inj hx ▸ hp⟩
  ending hk hp := ⟨_, hk, hp⟩

theorem endsInParagraph_iff {c : Content} : EndsInParagraph c ↔ LastIsParagraph (childKeys c) := by
  have hb : lastBlock (childKeys c) =
      (c.children.filter fun e => e.tag.name ∉ Names.rangeMarkers).getLast?.map fun e => key e.tag := by
    rw [lastBlock, childKeys, List.filter_map, List.getLast?_map]
    rfl
  rw [EndsInParagraph, LastIsParagraph, hb]
  cases (c.children.filter fun e => e.tag.name ∉ Names.rangeMarkers).getLast? <;> simp

/-- Whether there is a paragraph among the children. -/
def HasParagraph (l : List Key) : Prop := ∃ k ∈ l, k.name = Names.paragraph

theorem Thinned.mem {out : Key → Prop} {l l' : List Key} (h : Thinned out l l') {k : Key}
    (hk : k ∈ l) (ho : ¬out k) : k ∈ l' := by
  induction h with
  | nil => exact hk
  | keep _ ih => exact (List.mem_cons.1 hk).elim (· ▸ List.mem_cons_self) fun hk =>
      List.mem_cons_of_mem _ (ih hk)
  | lose hx _ ih => exact (List.mem_cons.1 hk).elim (fun e => absurd (e ▸ hx) ho) ih

theorem lasting_hasParagraph : Lasting HasParagraph where
  thinned ho h := fun ⟨k, hk, hp⟩ => ⟨k, h.mem hk fun hok => ho k hok hp, hp⟩
  item {a b k i} hk _ _ := ⟨k, by simp, hk⟩
  ending hk hp := ⟨_, (List.mem_filter.1 (List.mem_of_getLast? hk)).1, hp⟩

/-! ## Edits -/

/-- Elements that must end with a paragraph carry a property of their children over. -/
abbrev Stays (good : List Key → Prop) (f f' : Forest) : Prop :=
  Carried (·.name ∈ Names.endingWithParagraph) (fun c => good (childKeys c)) f f'

theorem paragraph_notMem_ending {name : Name} (h : name = Names.paragraph) :
    name ∉ Names.endingWithParagraph := by
  rw [h]
  decide

/-- A property of the children of an element around a place, where these change at the place. -/
theorem good_fill {good : List Key → Prop} {k : Hole} {c c' : Content}
    (h : ∀ a, good (a ++ childKeys c) → good (a ++ childKeys c'))
    (hk : good (childKeys (k.fill c))) : good (childKeys (k.fill c')) := by
  rcases childKeys_fill k with ⟨-, a, ha⟩ | ⟨l, hl⟩
  · rw [ha] at hk ⊢
    exact h a hk
  · rwa [hl] at hk ⊢

variable {good : List Key → Prop} {f f' : Forest} {e : Element} {s : Forest.Side} {h : Hole}
  {rest inner : Content}

/-- Of the elements that a revision takes away as such, none is a paragraph. -/
theorem name_of_spent {k : Key} {u : List Key} (hs : Spent [] (k :: u)) :
    k.name ≠ Names.paragraph := by
  generalize hw : ([] : List Key) = w at hs
  generalize ht : k :: u = t at hs
  cases hs with
  | shown hk _ =>
    obtain ⟨rfl, -⟩ := List.cons.inj ht
    exact fun hp => paragraph_notMem_showing (hp ▸ hk)
  | run hk =>
    obtain ⟨rfl, -⟩ := List.cons.inj ht
    exact fun hp => absurd (hp.symm.trans hk) (by decide)
  | inRun => simp at hw

/-- What a sweep leaves of an old element has the properties of children that it had. -/
theorem good_of_sweeps (hg : Lasting good) {n : Nat} {a : List Key} {ts : List (List Key)}
    {c c' : Content} (hs : Sweeps (Written n ts) n a c c') {z' : Element} (hz : z' ∈ c'.elements)
    (hlt : z'.tag.id < n) (hname : z'.tag.name ∈ Names.endingWithParagraph) :
    ∃ z ∈ c.elements, key z.tag = key z'.tag ∧
      (good (childKeys z.inner) → good (childKeys z'.inner)) := by
  induction hs generalizing z' with
  | refl => exact ⟨z', hz, rfl, id⟩
  | tail _ hstep ih =>
    rcases hstep.mem hz with ⟨z, hz, u, hk, hsw⟩ | ⟨u, hw⟩
    · have hname' : z.tag.name = z'.tag.name := congrArg Key.name hk.symm
      have hid : z.tag.id = z'.tag.id := congrArg Key.id hk.symm
      have hnr : z.tag.name ≠ Names.run := fun hr => absurd (hname' ▸ hname) (hr ▸ by decide)
      obtain ⟨y, hy, hky, hyg⟩ := ih hz (hid ▸ hlt) (hname' ▸ hname)
      refine ⟨y, hy, hky.trans hk.symm, fun h => ?_⟩
      have hthin := hsw.children fun k hk => by
        cases hk with
        | mk _ _ hm => exact hnr hm
      exact hg.thinned (fun k hk => name_of_spent hk) hthin (hyg h)
    · cases hw with
      | mk _ _ _ _ hn => exact absurd hlt (Nat.not_lt.2 hn)

theorem Performed.stays (hg : Lasting good) (hp : e.tag.name = Names.paragraph)
    (hr : Performed f f' e s h rest inner) : Stays good f f' := by
  refine .of_content hr.side hr.attached (paragraph_notMem_ending hp)
    (fun _ _ _ k _ _ _ hk => childKeys_fill_inner k ▸ hk) fun _ z' hz hlt hname => ?_
  rcases hr.reworked.old hz hlt with hsw | hz
  · exact good_of_sweeps hg hsw hz hlt hname
  · exact ⟨z', hz, rfl, id⟩

theorem Revised.stays (hg : Lasting good) {p : Nat} (hr : Revised p f f') : Stays good f f' := by
  rcases hr with rfl | ⟨e, s, h, rest, inner, -, hp, -, hr⟩
  · exact .refl _
  · exact hr.stays hg hp

theorem Inserted.stays (hg : Lasting good) {cs : List Char} {new : Element}
    (hp : e.tag.name = Names.paragraph) (hi : Inserted f f' e cs new) : Stays good f f' := by
  obtain ⟨s, h, rest, hs, ha, -⟩ := hi.place
  refine .of_fill hs ha (fun _ _ _ k _ _ _ => good_fill fun a ha => ?_) fun _ z' hz hlt hname => ?_
  · have hc : childKeys (.element e.tag e.inner (rest.insertBehindText new)) =
        key e.tag :: key new.tag :: childKeys rest :=
      congrArg (key e.tag :: ·) (childKeys_insertBehindText new rest)
    rw [hc]
    exact hg.item hp hi.item.name ha
  · exact ⟨z', hi.old_mem hz hlt, rfl, id⟩

theorem propertiesOf_elements {z : Element} : ∀ {c : Content},
    z ∈ (Edit.propertiesOf c).elements → z ∈ c.elements
  | .text _ rest, hz => propertiesOf_elements (c := rest) hz
  | .markup _ rest, hz => propertiesOf_elements (c := rest) (by simpa [Edit.propertiesOf] using hz)
  | .element tag inner rest, hz => by
    rw [Edit.propertiesOf] at hz
    simp only [Content.mem_element]
    split at hz
    · simp only [Content.mem_element] at hz
      exact hz.imp id (.imp id propertiesOf_elements)
    · exact .inr (.inr (propertiesOf_elements (by simpa using hz)))

theorem Thinned.drop {out : Key → Prop} {k : Key} (hk : out k) (b : List Key) :
    ∀ a : List Key, Thinned out (a ++ k :: b) (a ++ b)
  | [] => .lose hk (.refl b)
  | _ :: a => .keep (drop hk b a)

theorem removed_stays (hg : Lasting good) {id : Nat} (hf : f.Numbered)
    (hn : ∀ e, f.element? id = some e → e.tag.name ∈ [Names.row, Names.table]) :
    Stays good f (removed f id) := by
  unfold removed
  split
  · next e parent above he =>
    obtain ⟨s, h, rest, hs, rfl, -⟩ := hf.place?_eq he
    have hne : (key e.tag).name ≠ Names.paragraph := by
      have := hn e (Forest.element?_of_place? he)
      simp only [List.mem_cons, List.not_mem_nil, or_false] at this
      rw [key_name]
      rcases this with h | h <;> rw [h] <;> decide
    refine .detach hf hs fun _ _ _ k _ _ _ => good_fill fun a ha => ?_
    rw [childKeys_dropText]
    exact hg.thinned (fun k hk => hk) (.drop hne (childKeys rest) a) ha
  · exact .refl _

theorem endsWithout_iff {p : Nat} {c : Content} : Edit.endsWithout p c = true ↔
    LastIsParagraph ((childKeys c).filter fun k => k.id ≠ p) := by
  have hb : lastBlock ((childKeys c).filter fun k => k.id ≠ p) = (c.children.filter fun e =>
      e.tag.id ≠ p && e.tag.name ∉ Names.rangeMarkers).getLast?.map fun e => key e.tag := by
    rw [lastBlock, childKeys, List.filter_filter, List.filter_map, List.getLast?_map]
    congr 2
    refine List.filter_congr fun e _ => ?_
    by_cases hi : e.tag.id = p <;> by_cases hn : e.tag.name ∈ Names.rangeMarkers <;> simp [hi, hn]
  rw [Edit.endsWithout, LastIsParagraph, hb]
  cases (c.children.filter fun e =>
    e.tag.id ≠ p && e.tag.name ∉ Names.rangeMarkers).getLast? <;> simp

/-- An element that one is a child of is the one that is directly around it. -/
theorem eq_parent {c : Content} {h : Hole} {parent z : Element} {above : List Element}
    (hc : c.ids.Nodup) (hs : c = h.fill (.element e.tag e.inner rest))
    (ha : h.around (.element e.tag e.inner rest) = parent :: above) (hz : z ∈ c.elements)
    (he : ∃ x ∈ z.inner.children, x.tag.id = e.tag.id) : z = parent := by
  obtain ⟨x, hx, hid⟩ := he
  obtain ⟨k, rest', hk⟩ := Hole.exists_fill_of_mem hz
  have htx : key x.tag :: key z.tag :: Around.trail k [] ∈ trails [] c :=
    hk ▸ trails_inner_subset (trails_of_child hx _)
  have hte : key e.tag :: Around.trail h [] ∈ trails [] c := hs ▸ trail_mem_fill
  have heq := (List.cons.inj (trail_eq_of_id hc htx hte hid)).2
  rw [Around.trail_eq (.element e.tag e.inner rest) h, ha] at heq
  have hkey := (List.cons.inj heq).1
  refine Content.eq_of_id hc hz ?_ (congrArg Key.id hkey)
  rw [hs, Hole.mem_elements_fill, ha]
  exact .inr (.inl List.mem_cons_self)

/-- A paragraph goes from an element that must end with a paragraph only if there is another one at
its end. -/
theorem Lifted.stays (hg : Lasting good) {p : Nat} (hf : f.Numbered)
    (hp : ∀ e, f.element? p = some e → e.tag.name = Names.paragraph) (hl : Lifted p f f') :
    Stays good f f' := by
  cases hl with
  | none => exact .refl _
  | @emptied e _ _ he =>
    obtain ⟨s, h, rest, hs, rfl, -⟩ := hf.place?_eq he
    rw [Forest.update_eq hf hs]
    exact .of_content hs (by cases s <;> rfl)
      (paragraph_notMem_ending (hp _ (Forest.element?_of_place? he)))
      (fun _ _ _ k _ _ _ hk => childKeys_fill_inner k ▸ hk)
      fun _ z' hz _ _ => ⟨z', propertiesOf_elements hz, rfl, id⟩
  | @away e parent above he hw _ =>
    obtain ⟨s, h, rest, hs, rfl, ha⟩ := hf.place?_eq he
    refine .detach hf hs fun _ g tag k r hh hname hk => ?_
    rcases childKeys_fill k with ⟨-, a, hka⟩ | ⟨l, hl⟩
    · have hX : childKeys (k.fill (.element e.tag e.inner rest)) =
          a ++ key e.tag :: childKeys rest := hka _
      have hz : (⟨tag, k.fill (.element e.tag e.inner rest)⟩ : Element) ∈ (f.side s).elements :=
        hs ▸ hh ▸ Hole.mem_fill_of_around Hole.mem_around_comp
      have hchild : key e.tag ∈ childKeys (k.fill (.element e.tag e.inner rest)) := by simp [hX]
      obtain ⟨x, hx, hxe⟩ := List.mem_map.1 hchild
      have hpar := eq_parent (hf.side_nodup s) hs ha.symm hz ⟨x, hx, congrArg Key.id hxe⟩
      -- The removal is guarded: another paragraph ends what is left of the parent.
      have hend := hw (hpar ▸ hname)
      rw [← hpar, endsWithout_iff, hX] at hend
      have hnd : ((a ++ key e.tag :: childKeys rest).map (·.id)).Nodup :=
        hX ▸ (Content.nodup_inner (hf.side_nodup s) hz).sublist (childKeys_ids _)
      have hout : (a ++ key e.tag :: childKeys rest).filter (fun k => k.id ≠ e.tag.id) =
          a ++ childKeys rest := by
        simp only [List.map_append, List.map_cons, List.nodup_append, List.nodup_cons, List.mem_map,
          List.mem_cons, key_id, not_exists, not_and] at hnd
        rw [List.filter_append, List.filter_cons_of_neg (by simp),
          List.filter_eq_self.2 fun x hx => ?_, List.filter_eq_self.2 fun x hx => ?_]
        · simpa using hnd.2.1.1 x hx
        · simpa using hnd.2.2 x.id ⟨x, hx, rfl⟩ e.tag.id (.inl rfl)
      obtain ⟨x, hx, hxp⟩ := hend
      rw [hka, childKeys_dropText, ← hout]
      exact hg.ending hx hxp
    · rwa [hl] at hk ⊢

theorem CleanedRow.stays (hg : Lasting good) (hf : f.Numbered) (hc : CleanedRow f f') :
    Stays good f f' := by
  have row : ∀ {r : Element}, f.element? r.tag.id = some r → r.tag.name = Names.row →
      Stays good f (removed f r.tag.id) := by
    intro r hr hn
    refine removed_stays hg hf fun e he => ?_
    obtain rfl := Option.some.inj (he.symm.trans hr)
    simp [hn]
  cases hc with
  | none => exact .refl _
  | row hr hn _ _ => exact row hr hn
  | @table r t t' hr hn he ht ht' hrows =>
    obtain ⟨h₁, h₂⟩ : Loss f.next (fun _ => True) f _ ∧ _ := removed_table hf hr hn ht
    exact (row hr hn).trans (removed_stays hg h₁.numbered fun e he => by simp [h₂ e he]) h₁.next

theorem Edited.stays (hg : Lasting good) (hf : f.Numbered) (he : Edited f f') :
    Stays good f f' := by
  cases he with
  | revised h => exact h.stays hg
  | inserted hp h => exact h.stays hg hp
  | cleaned hp h =>
    cases h with
    | none => exact .refl _
    | away he hm h₁ h₂ =>
      have hl := h₁.move hf hp.2
      exact (h₁.stays hg hf hp.2).trans (h₂.stays hg hl.numbered) hl.next

theorem Edits.stays (hg : Lasting good) (hf : f.Numbered) (h : Edits f f') : Stays good f f' := by
  induction h with
  | refl => exact .refl _
  | tail hs h ih =>
    have hm := Edits.move hf hs
    exact ih.trans (h.stays hg hm.numbered) hm.next

end MailMerge.Word
