import MailMerge.Proofs.LastBlock
import Mathlib.Data.List.TakeWhile

/-!
# Rows of tables

A table loses its last row only when a row is cleaned away, and then the table is taken away as
well. The exception are rows that stand in a paragraph or run of the table: these go when the
paragraph or run goes, and nobody looks at the table then. `Direct` excludes them; as it is a
property of trails that whatever a merge makes has as well, it holds for good.
-/

namespace MailMerge.Word

open MailMerge.Xml

/-! ## What is within an element -/

section Within

variable {wanted barrier : Name}

theorem mem_within {e : Element} : ∀ {a : List Key} {c : Content}, e ∈ within wanted barrier c →
    e ∈ c.elements ∧ e.tag.name = wanted ∧
      ∃ v, key e.tag :: (v ++ a) ∈ trails a c ∧ ∀ x ∈ v, x.name ≠ barrier
  | a, .text _ rest, h | a, .markup _ rest, h => mem_within (a := a) (c := rest) h
  | a, .element tag inner rest, h => by
    simp only [within, List.mem_append] at h
    simp only [Content.elements, trails, List.cons_append, List.mem_cons, List.mem_append]
    rcases h with (h | h) | h
    · split at h
      · next hn =>
        obtain rfl := List.mem_singleton.1 h
        exact ⟨.inl rfl, hn, [], .inl rfl, by simp⟩
      · cases h
    · split at h
      · cases h
      · next hb =>
        obtain ⟨hm, hn, v, hv, hvb⟩ := mem_within (a := key tag :: a) h
        refine ⟨.inr (.inl hm), hn, v ++ [key tag], .inr (.inl (by simpa using hv)), fun x hx => ?_⟩
        rcases List.mem_append.1 hx with hx | hx
        · exact hvb x hx
        · exact List.mem_singleton.1 hx ▸ hb
    · obtain ⟨hm, hn, v, hv, hvb⟩ := mem_within (a := a) h
      exact ⟨.inr (.inr hm), hn, v, .inr (.inr hv), hvb⟩

theorem exists_within {k : Key} {v : List Key} (hk : k.name = wanted)
    (hv : ∀ x ∈ v, x.name ≠ barrier) : ∀ {a : List Key} {c : Content},
      k :: (v ++ a) ∈ trails a c → ∃ e ∈ within wanted barrier c, key e.tag = k
  | a, .text _ rest, h | a, .markup _ rest, h => exists_within (a := a) (c := rest) hk hv h
  | a, .element tag inner rest, h => by
    simp only [within, List.mem_append]
    simp only [mem_trails_element] at h
    rcases h with h | h | h
    · obtain ⟨rfl, -⟩ := List.cons.inj h
      exact ⟨⟨tag, inner⟩, .inl (.inl (by simpa using hk)), rfl⟩
    · obtain ⟨k', u, heq⟩ := above_suffix h
      obtain ⟨rfl, heq⟩ := List.cons.inj heq
      have heq' : v ++ a = u ++ [key tag] ++ a := by simpa using heq
      obtain rfl : v = u ++ [key tag] := List.append_cancel_right heq'
      have hb : tag.name ≠ barrier := hv (key tag) (by simp)
      obtain ⟨e, he, hek⟩ := exists_within (a := key tag :: a) (c := inner) (v := u) hk
        (fun x hx => hv x (by simp [hx])) (by simpa using h)
      exact ⟨e, .inl (.inr (by simpa [hb] using he)), hek⟩
    · obtain ⟨e, he, hek⟩ := exists_within (a := a) hk hv h
      exact ⟨e, .inr he, hek⟩
termination_by _ c => sizeOf c

end Within

/-- Whether a table with the content has rows. -/
def HasRow (c : Content) : Prop := within Names.row Names.table c ≠ []

theorem hasRow_iff (a : List Key) {c : Content} : HasRow c ↔ ∃ (r : Key) (v : List Key),
    r :: (v ++ a) ∈ trails a c ∧ r.name = Names.row ∧ ∀ x ∈ v, x.name ≠ Names.table := by
  constructor
  · intro h
    obtain ⟨e, he⟩ := List.exists_mem_of_ne_nil _ h
    obtain ⟨-, hn, v, hv, hvb⟩ := mem_within (a := a) he
    exact ⟨_, v, hv, hn, hvb⟩
  · rintro ⟨r, v, hv, hn, hvb⟩ h
    obtain ⟨e, he, -⟩ := exists_within hn hvb hv
    simp [h] at he

/-! ## Rows that are directly in a table -/

/-- Between a row and the table around it there is no paragraph and no run. -/
def Direct : List Name → Prop
  | [] => True
  | k :: u => k = Names.row → Names.table ∈ u →
    ∀ y ∈ u.takeWhile (· ≠ Names.table), y ≠ Names.paragraph ∧ y ≠ Names.run

instance : DecidablePred Direct
  | [] => inferInstanceAs (Decidable True)
  | _ :: _ => inferInstanceAs (Decidable (_ → _ → _))

/-- A paragraph or run around a row that is in a table has the table of the row in it. -/
theorem direct_iff {t : List Name} : Direct t ↔ ∀ (y : Name) (v w : List Name),
    t = Names.row :: (v ++ y :: w) → y = Names.paragraph ∨ y = Names.run → Names.table ∈ w →
      Names.table ∈ v := by
  constructor
  · rintro h y v w rfl hy hw
    by_contra hv
    have hyt : y ≠ Names.table := by
      rcases hy with rfl | rfl <;> decide
    have hm : y ∈ (v ++ y :: w).takeWhile (· ≠ Names.table) := by
      rw [List.takeWhile_append_of_pos fun x hx => ?_]
      · simp [hyt]
      · simpa using fun hxt : x = Names.table => hv (hxt ▸ hx)
    have := h rfl (by simp [hw]) y hm
    exact hy.elim this.1 this.2
  · intro h
    cases t with
    | nil => trivial
    | cons k u =>
      rintro rfl hu y hy
      -- What is in front of the table.
      set v := u.takeWhile (· ≠ Names.table) with hv
      have hvt : Names.table ∉ v := by
        intro hm
        have := List.mem_takeWhile_imp (hv ▸ hm)
        simp at this
      have huv : u = v ++ u.dropWhile (· ≠ Names.table) := (List.takeWhile_append_dropWhile ..).symm
      obtain ⟨v₁, v₂, hsplit⟩ := List.append_of_mem hy
      have clear : ¬(y = Names.paragraph ∨ y = Names.run) := by
        intro hyn
        have hw : Names.table ∈ v₂ ++ u.dropWhile (· ≠ Names.table) :=
          List.mem_append_right _ ((List.mem_append.1 (huv ▸ hu)).resolve_left hvt)
        refine hvt (hsplit ▸ List.mem_append_left _ (h y v₁ _ ?_ hyn hw))
        rw [show v₁ ++ y :: (v₂ ++ u.dropWhile (· ≠ Names.table)) =
          v₁ ++ y :: v₂ ++ u.dropWhile (· ≠ Names.table) by simp, ← hsplit, ← huv]
      exact ⟨fun hp => clear (.inl hp), fun hr => clear (.inr hr)⟩

theorem direct_of_head {k : Name} {u : List Name} (h : k ≠ Names.row) : Direct (k :: u) :=
  fun hk => absurd hk h

theorem showing_ne_row {k : Name} (h : k ∈ Names.showing) : k ≠ Names.row :=
  fun hr => absurd (hr ▸ h) (by decide)

/-- The formatting of a list item is in a run as is that of which it is a copy. -/
theorem inherited_direct : Inherited Direct where
  written _ _ _ _ hk' _ := direct_of_head (showing_ne_row hk')
  run _ _ := direct_of_head (by decide)
  shown _ _ hk _ := direct_of_head (showing_ne_row hk)
  formatting w v u _ h := by
    cases w with
    | nil => exact direct_of_head (by decide)
    | cons z w =>
      rw [direct_iff] at h ⊢
      rintro y v₁ w₁ heq hy hw₁
      obtain ⟨rfl, htail⟩ := List.cons.inj heq
      rcases List.append_eq_append_iff.1 htail with ⟨v₂, rfl, hv₂⟩ | ⟨w₂, rfl, hw₂⟩
      · -- The table is around the paragraph.
        have hu : Names.table ∈ u := by
          have hsuf : w₁ <:+ Names.run :: Names.paragraph :: u := by
            cases v₂ with
            | nil => exact (List.cons.inj hv₂).2 ▸ List.suffix_rfl
            | cons _ v₃ => exact ⟨v₃ ++ [y], by simpa using (List.cons.inj hv₂).2.symm⟩
          have := hsuf.subset hw₁
          simpa [show Names.table ≠ Names.paragraph by decide,
            show Names.table ≠ Names.run by decide] using this
        have := h Names.run (w ++ [Names.runProperties]) (v ++ Names.paragraph :: u) (by simp)
          (.inr rfl) (by simp [hu])
        simp only [List.mem_append, List.mem_cons, List.not_mem_nil, or_false] at this ⊢
        exact .inl (this.resolve_right (by decide))
      · cases w₂ with
        | nil =>
          obtain ⟨rfl, -⟩ := List.cons.inj hw₂
          exact absurd hy (by decide)
        | cons _ w₃ =>
          obtain ⟨rfl, hw₁'⟩ := List.cons.inj hw₂
          refine h y v₁ (w₃ ++ Names.runProperties :: Names.run :: (v ++ Names.paragraph :: u))
            (by simp) hy ?_
          rw [show w₁ = w₃ ++ Names.runProperties :: Names.run :: Names.paragraph :: u from hw₁'] at hw₁
          simp only [List.mem_append, List.mem_cons] at hw₁ ⊢
          rcases hw₁ with h | h | h | h | h
          · exact .inl h
          · exact .inr (.inl h)
          · exact .inr (.inr (.inl h))
          · exact .inr (.inr (.inr (.inr (.inl h))))
          · exact .inr (.inr (.inr (.inr (.inr h))))

/-- Rows of a table with the content are directly in it. -/
def DirectRows (c : Content) : Prop :=
  ∀ (r : Key) (v : List Key), r :: v ∈ trails [] c → r.name = Names.row →
    (∀ x ∈ v, x.name ≠ Names.table) → ∀ x ∈ v, x.name ≠ Names.paragraph ∧ x.name ≠ Names.run

theorem mem_trails_above {a t : List Key} {c : Content} : t ++ a ∈ trails a c ↔ t ∈ trails [] c := by
  have h := trails_eq_append a [] c
  rw [List.nil_append] at h
  rw [h]
  simp

theorem directRows {c : Content} (hd : ∀ t ∈ trails [] c, Direct (t.map (·.name))) {z : Element}
    (hz : z ∈ c.elements) (hn : z.tag.name = Names.table) : DirectRows z.inner := by
  intro r v hv hr hno x hx
  obtain ⟨h, rest, rfl⟩ := Hole.exists_fill_of_mem hz
  have ht := direct_iff.1 (hd _ (trails_inner_subset (mem_trails_above.2 hv)))
  obtain ⟨v₁, v₂, rfl⟩ := List.append_of_mem hx
  have clear : ∀ y, (y = Names.paragraph ∨ y = Names.run) → x.name ≠ y := by
    rintro y hy rfl
    have := ht x.name (v₁.map (·.name))
      (v₂.map (·.name) ++ z.tag.name :: (Around.trail h []).map (·.name)) (by simp [hr]) hy
      (by simp [hn])
    obtain ⟨w, hw, hwt⟩ := List.mem_map.1 this
    exact hno w (by simp [hw]) hwt
  exact ⟨clear _ (.inl rfl), clear _ (.inr rfl)⟩

/-! ## Edits -/

/-- Tables that are not roots carry it over that they have rows. -/
abbrev Rows (root : Nat → Prop) (f f' : Forest) : Prop :=
  Carried (fun k => k.name = Names.table ∧ ¬root k.id) HasRow f f'

/-- A table keeps its rows where only such are lost as are not within the table. -/
theorem hasRow_fill {k : Hole} {c c' : Content}
    (hkeep : ∀ (r : Key) (v : List Key), r :: (v ++ Around.trail k []) ∈ trails [] (k.fill c) →
      r.name = Names.row → (∀ x ∈ v ++ Around.trail k [], x.name ≠ Names.table) →
        r :: (v ++ Around.trail k []) ∈ trails (Around.trail k []) c →
          r :: (v ++ Around.trail k []) ∈ trails (Around.trail k []) c')
    (hc : HasRow (k.fill c)) : HasRow (k.fill c') := by
  obtain ⟨r, v, hv, hr, hno⟩ := (hasRow_iff []).1 hc
  rw [List.append_nil] at hv
  refine (hasRow_iff []).2 ⟨r, v, ?_, hr, hno⟩
  rw [List.append_nil]
  rcases mem_trails_fill.1 hv with ht | ht | ht
  · exact mem_trails_fill.2 (.inl ht)
  · obtain ⟨x, u, heq⟩ := above_suffix ht
    obtain ⟨rfl, rfl⟩ := List.cons.inj heq
    exact mem_trails_fill.2 (.inr (.inl (hkeep _ _ hv hr hno ht)))
  · exact mem_trails_fill.2 (.inr (.inr ht))

variable {f f' : Forest} {e : Element} {s : Forest.Side} {h : Hole} {rest inner : Content}

/-- The rows of a table are not in a paragraph of it. -/
theorem hasRow_paragraph {k : Hole} {c' : Content} (hp : e.tag.name = Names.paragraph)
    (hd : DirectRows (k.fill (.element e.tag e.inner rest)))
    (hrest : ∀ t ∈ trails (Around.trail k []) rest, t ∈ trails (Around.trail k []) c') :
    HasRow (k.fill (.element e.tag e.inner rest)) → HasRow (k.fill c') := by
  refine hasRow_fill fun r v hv hr hno ht => ?_
  simp only [mem_trails_element] at ht
  rcases ht with ht | ht | ht
  · obtain ⟨rfl, -⟩ := List.cons.inj ht
    exact absurd (hp.symm.trans hr) (by decide)
  · obtain ⟨x, u, heq⟩ := above_suffix ht
    obtain ⟨rfl, hvu⟩ := List.cons.inj heq
    have := hd r _ hv hr hno (key e.tag) (by simp [hvu])
    exact absurd hp this.1
  · exact hrest _ ht

theorem mem_of_comp {g k : Hole} {tag : Tag} {r c : Content} (hs : f.attached = h.fill c)
    (hh : h = Hole.comp g (.inside tag k r)) : ⟨tag, k.fill c⟩ ∈ f.attached.elements := by
  rw [hs, hh]
  exact Hole.mem_fill_of_around Hole.mem_around_comp

/-- What a sweep loses of a table is in a run of it. -/
theorem rows_swept {n : Nat} {ts : List (List Key)} {z z' : Element} {u : List Key}
    (hn : z.tag.name = Names.table)
    (hs : Swept Spent (Written n ts) n (key z.tag :: u) z.inner z'.inner)
    (hd : DirectRows z.inner) :
    DirectRows z'.inner ∧ (HasRow z.inner → HasRow z'.inner) := by
  constructor
  · intro r v hv hr hno
    rcases hs.shift.new _ (mem_trails_above.2 hv) with ht | ht
    · exact hd r v (mem_trails_above.1 ht) hr hno
    · generalize hrv : r :: v ++ key z.tag :: u = t at ht
      obtain ⟨-, -, -, hk, -⟩ := ht
      exact absurd ((List.cons.inj hrv).1 ▸ hr) (showing_ne_row hk)
  · intro hrow
    obtain ⟨r, v, hv, hr, hno⟩ := (hasRow_iff (key z.tag :: u)).1 hrow
    have hv' : r :: v ∈ trails [] z.inner := mem_trails_above.1 hv
    refine (hasRow_iff (key z.tag :: u)).2 ⟨r, v, ?_, hr, hno⟩
    refine (hs.lost _ hv).resolve_right ?_
    rintro ⟨w, k, t, heq, hspent⟩
    have heq' : r :: v = w ++ k :: t := List.append_cancel_right (by simpa using heq)
    -- A run that is around the row in the table.
    have between : ∀ {m : Key}, m ∈ v → m.name = Names.run → False := fun hm hmr =>
      (hd r v hv' hr hno _ hm).2 hmr
    generalize hkt : k :: (t ++ key z.tag :: u) = y at hspent
    cases hspent with
    | @shown w k' m u' hk hm =>
      obtain ⟨rfl, htail⟩ := List.cons.inj hkt
      cases t with
      | nil =>
        obtain ⟨rfl, -⟩ := List.cons.inj htail
        exact absurd (hn.symm.trans hm) (by decide)
      | cons m' t =>
        obtain ⟨rfl, -⟩ := List.cons.inj htail
        refine between (m := m') ?_ hm
        cases w with
        | nil => simp [(List.cons.inj heq').2]
        | cons _ w => simp [(List.cons.inj heq').2]
    | @run k' u' hk =>
      obtain ⟨rfl, -⟩ := List.cons.inj hkt
      obtain ⟨rfl, -⟩ := List.cons.inj heq'
      exact absurd (hr.symm.trans hk) (by decide)
    | @inRun w m k' u' _ hk =>
      obtain ⟨rfl, -⟩ := List.cons.inj hkt
      refine between (m := k) ?_ hk
      cases w with
      | nil => simp [(List.cons.inj heq').2]
      | cons _ w => simp [(List.cons.inj heq').2]

theorem rows_of_sweeps {n : Nat} {a : List Key} {ts : List (List Key)} {c c' : Content}
    (hd : ∀ z ∈ c.elements, z.tag.name = Names.table → DirectRows z.inner)
    (hs : Sweeps (Written n ts) n a c c') {z' : Element} (hz : z' ∈ c'.elements)
    (hlt : z'.tag.id < n) (hn : z'.tag.name = Names.table) :
    DirectRows z'.inner ∧ ∃ z ∈ c.elements, key z.tag = key z'.tag ∧
      (HasRow z.inner → HasRow z'.inner) := by
  induction hs generalizing z' with
  | refl => exact ⟨hd z' hz hn, z', hz, rfl, id⟩
  | tail _ hstep ih =>
    rcases hstep.mem hz with ⟨z, hz, u, hk, hsw⟩ | ⟨u, hw⟩
    · have hn' : z.tag.name = Names.table := (congrArg Key.name hk.symm).trans hn
      have hid : z.tag.id = z'.tag.id := congrArg Key.id hk.symm
      obtain ⟨hdz, y, hy, hky, hyg⟩ := ih hz (hid ▸ hlt) hn'
      obtain ⟨hdz', hg⟩ := rows_swept hn' hsw hdz
      exact ⟨hdz', y, hy, hky.trans hk.symm, fun h => hg (hyg h)⟩
    · cases hw with
      | mk _ _ _ _ hnew => exact absurd hlt (Nat.not_lt.2 hnew)

section Edits

variable {root : Nat → Prop}

theorem not_table {name : Name} {i : Nat} (h : name = Names.paragraph) :
    ¬(name = Names.table ∧ ¬root i) :=
  fun ⟨ht, _⟩ => absurd (h.symm.trans ht) (by decide)

/-- All rows of the attached tables are directly in them. -/
abbrev Orderly (f : Forest) : Prop := ∀ t ∈ trails [] f.attached, Direct (t.map (·.name))

theorem Performed.rows (hd : Orderly f) (hp : e.tag.name = Names.paragraph)
    (hr : Performed f f' e s h rest inner) : Rows root f f' := by
  refine .of_content hr.side hr.attached (not_table hp) (fun hat g tag k r hh hk => ?_)
    fun hat z' hz hlt hk => ?_
  · exact hasRow_paragraph hp (directRows hd (mem_of_comp hat hh) hk.1) fun t ht =>
      by simp [trails, ht]
  · rcases hr.reworked.old hz hlt with hsw | hz
    · refine (rows_of_sweeps (fun z hz hn => directRows hd ?_ hn) hsw hz hlt hk.1).2
      rw [hat]
      exact Hole.mem_fill (by simp [Content.elements, hz])
    · exact ⟨z', hz, rfl, id⟩

theorem Inserted.rows {cs : List Char} {new : Element} (hi : Inserted f f' e cs new) :
    Rows root f f' := by
  obtain ⟨s, h, rest, hs, ha, -⟩ := hi.place
  refine .of_fill hs ha (fun _ _ _ k _ _ _ => hasRow_fill fun _ _ _ _ _ ht => ?_)
    fun _ z' hz hlt _ => ⟨z', hi.old_mem hz hlt, rfl, id⟩
  simp only [Word.trails, trails_insertBehindText, List.mem_append] at ht ⊢
  exact ht.imp id .inr

theorem Lifted.rows {p : Nat} (hd : Orderly f) (hf : f.Numbered)
    (hp : ∀ e, f.element? p = some e → e.tag.name = Names.paragraph) (hl : Lifted p f f') :
    Rows root f f' := by
  cases hl with
  | none => exact .refl _
  | @emptied e _ _ he =>
    obtain ⟨s, h, rest, hs, rfl, -⟩ := hf.place?_eq he
    have hpar := hp _ (Forest.element?_of_place? he)
    rw [Forest.update_eq hf hs]
    refine .of_content hs (by cases s <;> rfl) (not_table hpar) (fun hat g tag k r hh hk => ?_)
      fun _ z' hz _ _ => ⟨z', propertiesOf_elements hz, rfl, id⟩
    exact hasRow_paragraph hpar (directRows hd (mem_of_comp hat hh) hk.1) fun t ht =>
      by simp [trails, ht]
  | @away e _ _ he _ _ =>
    obtain ⟨s, h, rest, hs, rfl, -⟩ := hf.place?_eq he
    refine .detach hf hs fun hat g tag k r hh hk => ?_
    exact hasRow_paragraph (hp _ (Forest.element?_of_place? he))
      (directRows hd (mem_of_comp hat hh) hk.1) fun t ht => by simpa using ht

theorem removed_of_around {p : Nat} {e parent : Element} {above : List Element}
    (h : f.place? p = some ⟨e, parent :: above⟩) : removed f p = f.detach p := by
  simp [removed, h]

theorem removed_of_root {p : Nat} {e : Element} (h : f.place? p = some ⟨e, []⟩) :
    removed f p = f := by
  simp [removed, h]

/-- A row that has a table around it within a table is not a row of that one. -/
theorem removed_table_rows {id : Nat} (hf : f.Numbered)
    (hn : ∀ e, f.element? id = some e → e.tag.name = Names.table) : Rows root f (removed f id) := by
  unfold removed
  split
  · next e parent above he =>
    obtain ⟨s, h, rest, hs, rfl, -⟩ := hf.place?_eq he
    have hen := hn e (Forest.element?_of_place? he)
    refine .detach hf hs fun _ g tag k r _ _ => hasRow_fill fun r v hv hr hno ht => ?_
    simp only [mem_trails_element] at ht
    rw [trails_dropText]
    rcases ht with ht | ht | ht
    · obtain ⟨rfl, -⟩ := List.cons.inj ht
      exact absurd (hen.symm.trans hr) (by decide)
    · obtain ⟨x, u, heq⟩ := above_suffix ht
      exact absurd hen (hno (key e.tag) (by simp [(List.cons.inj heq).2]))
    · exact ht
  · exact .refl _

/-- A table around a row keeps its rows when the row is taken away, but the innermost one may lose
its last one. -/
theorem removed_row_rows {kind : Key → Prop} {x : Element} (hf : f.Numbered)
    (hx : f.element? x.tag.id = some x) (hn : x.tag.name = Names.row)
    (hkind : ∀ k, kind k → k.name = Names.table)
    (hlast : ∀ t t', Merge.around? f Names.table x.tag.id = some t →
      (removed f x.tag.id).element? t.tag.id = some t' → kind (key t.tag) → Table.rows t' ≠ []) :
    Carried kind HasRow f (removed f x.tag.id) := by
  have hnum := (removed_row_move hf hx hn).numbered
  obtain ⟨⟨e, around⟩, he, rfl⟩ := Option.map_eq_some_iff.1 hx
  dsimp only at *
  cases around with
  | nil =>
    rw [removed_of_root he]
    exact .refl f
  | cons parent above =>
    rw [removed_of_around he] at hnum hlast ⊢
    obtain ⟨s, h, rest, hs, -, ha⟩ := hf.place?_eq he
    refine .detach hf hs fun hat g tag k r hh hk hrow => ?_
    by_cases htab : ∃ y ∈ Around.trail k [], y.name = Names.table
    · obtain ⟨y, hy, hyt⟩ := htab
      exact hasRow_fill (fun _ _ _ _ hno _ => absurd hyt (hno y (by simp [hy]))) hrow
    · -- The table is the innermost one.
      have hnone : ∀ y ∈ k.around (.element e.tag e.inner rest), y.tag.name ≠ Names.table := by
        intro y hy hyt
        refine htab ⟨key y.tag, ?_, hyt⟩
        rw [Around.trail_eq (.element e.tag e.inner rest) k]
        exact List.mem_map_of_mem hy
      have hnear : Merge.around? f Names.table e.tag.id =
          some ⟨tag, k.fill (.element e.tag e.inner rest)⟩ := by
        rw [Merge.around?, he, Option.bind_some, nearest?, ha, hh, Hole.around_comp, Hole.around,
          List.append_assoc, List.find?_append, List.find?_eq_none.2 (by simpa using hnone),
          Option.none_or]
        simp [show tag.name = Names.table from hkind _ hk]
      have hhas : (f.detach e.tag.id).Has ⟨tag, k.fill rest.dropText⟩ := by
        rw [Forest.detach_eq (s := .attached) hf hat, hh]
        exact .inl (Hole.mem_fill_of_around Hole.mem_around_comp)
      exact hlast _ ⟨tag, k.fill rest.dropText⟩ hnear (hnum.element?_of_has hhas) hk

/-- What is taken away is not attached. -/
theorem notMem_detach {p : Nat} {place : Content.Place} (hf : f.Numbered)
    (hp : f.place? p = some place) : p ∉ (f.detach p).attached.ids := by
  obtain ⟨s, h, rest, hs, rfl, -⟩ := hf.place?_eq hp
  rw [Forest.detach_eq hf hs]
  have hout := Forest.notMem_other hf hs
  cases s with
  | attached =>
    have hn := hf.attached
    simp only [Forest.side] at hs
    rw [hs] at hn
    obtain ⟨h₁, -, h₂⟩ := Hole.id_notMem hn
    simp only [Forest.setSide, Hole.mem_ids_fill, Content.ids_dropText, not_or]
    exact ⟨h₁, h₂⟩
  | detached => exact hout

theorem isRoot_of_place? {p : Nat} {e : Element} (hf : f.Numbered)
    (hp : f.place? p = some ⟨e, []⟩) (hm : p ∈ f.attached.ids) : f.isRoot p = true := by
  obtain ⟨s, h, rest, hs, rfl, ha⟩ := hf.place?_eq hp
  have habove : h.above = [] := by
    rw [← Hole.around_map_tag (.element e.tag e.inner rest) h, ← ha]
    rfl
  cases s with
  | attached =>
    have hk : key e.tag :: [] ∈ trails [] f.attached := by
      have : key e.tag :: Around.trail h [] ∈ trails [] f.attached :=
        (show f.attached = _ from hs) ▸ trail_mem_fill
      simpa [Around.trail, habove] using this
    obtain ⟨x, hx, hxk⟩ := mem_trails_root hk
    exact List.any_eq_true.2 ⟨x, hx, by simpa using congrArg Key.id hxk⟩
  | detached =>
    have := Forest.notMem_other hf hs
    exact absurd hm this

theorem Carried.mono {kind kind' : Key → Prop} {good : Content → Prop}
    (h : Carried kind' good f f') (hk : ∀ z' ∈ f'.attached.elements, kind (key z'.tag) →
      kind' (key z'.tag)) : Carried kind good f f' :=
  fun z' hz hlt hkind => h z' hz hlt (hk z' hz hkind)

theorem CleanedRow.rows (hf : f.Numbered) (hroot : ∀ i, f'.isRoot i = true → root i)
    (hc : CleanedRow f f') : Rows root f f' := by
  cases hc with
  | none => exact .refl _
  | row hr hn _ ht =>
    exact removed_row_rows hf hr hn (fun _ hk => hk.1) fun t t' h h' _ => ht t t' h h'
  | @table r t t' hr hn _ ht ht' _ =>
    obtain ⟨h₁, h₂⟩ : Loss f.next (fun _ => True) f _ ∧ _ := removed_table hf hr hn ht
    -- The table without rows is away, unless it is a root.
    have hrow : Carried (fun k => (k.name = Names.table ∧ ¬root k.id) ∧ k.id ≠ t.tag.id) HasRow f
        (removed f r.tag.id) := by
      refine removed_row_rows hf hr hn (fun _ hk => hk.1.1) fun t₁ t₁' ht₁ _ hk => ?_
      obtain rfl := Option.some.inj (ht.symm.trans ht₁)
      exact absurd rfl hk.2
    have htab : Rows root (removed f r.tag.id) (removed (removed f r.tag.id) t.tag.id) :=
      removed_table_rows h₁.numbered fun e he => h₂ e he
    refine (hrow.trans (htab.mono fun _ _ hk => hk.1) h₁.next).mono fun z hz hk =>
      ⟨hk, fun hid => ?_⟩
    · have hm : t.tag.id ∈ (removed (removed f r.tag.id) t.tag.id).attached.ids :=
        Content.mem_ids.2 ⟨z, hz, hid⟩
      obtain ⟨⟨_, around⟩, hplace, -⟩ := Option.map_eq_some_iff.1 ht'
      cases around with
      | nil =>
        rw [removed_of_root hplace] at hm
        refine hk.2 (hroot _ ?_)
        rw [removed_of_root hplace]
        exact hid ▸ isRoot_of_place? h₁.numbered hplace hm
      | cons parent above =>
        rw [removed_of_around hplace] at hm
        exact notMem_detach h₁.numbered hplace hm

theorem isRoot_of_keepsRoots (h : KeepsRoots f f') {i : Nat} (hi : f.isRoot i = true) :
    f'.isRoot i = true := by
  obtain ⟨x, hx, hxi⟩ := List.any_eq_true.1 hi
  obtain ⟨y, hy, hyx⟩ := List.mem_map.1 (h _ (List.mem_map_of_mem hx))
  refine List.any_eq_true.2 ⟨y, hy, ?_⟩
  have : y.tag.id = x.tag.id := congrArg Key.id hyx
  simpa [this] using hxi

theorem Edited.rows (hd : Orderly f) (hf : f.Numbered)
    (hroot : ∀ i, f'.isRoot i = true → root i) (he : Edited f f') : Rows root f f' := by
  cases he with
  | revised h =>
    rcases h with rfl | ⟨e, s, k, rest, inner, -, hp, -, h⟩
    · exact .refl _
    · exact h.rows hd hp
  | inserted _ h => exact h.rows
  | cleaned hp h =>
    cases h with
    | none => exact .refl _
    | away _ _ h₁ h₂ =>
      have hl := h₁.move hf hp.2
      exact (h₁.rows hd hf hp.2).trans (h₂.rows hl.numbered hroot) hl.next

/-- That rows are directly in their tables is no matter of when it is asked. -/
theorem Edits.orderly (hf : f.Numbered) (hd : Orderly f) (h : Edits f f') : Orderly f' :=
  fun t ht => ((h.step hf).made t ht).names inherited_direct hd

theorem Edits.rows (hd : Orderly f) (hf : f.Numbered) (hroot : ∀ i, f'.isRoot i = true → root i)
    (h : Edits f f') : Rows root f f' := by
  induction h with
  | refl => exact .refl _
  | tail hs h ih =>
    have hm := Edits.move hf hs
    have hkeep := h.keepsRoots hm.numbered
    refine (ih fun i hi => hroot i (isRoot_of_keepsRoots hkeep hi)).trans
      (h.rows (Edits.orderly hf hd hs) hm.numbered hroot) hm.next

end Edits

end MailMerge.Word
