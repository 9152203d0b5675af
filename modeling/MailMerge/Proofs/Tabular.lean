import MailMerge.Proofs.Namesakes

/-!
# Tables that lie apart

In most documents no table lies in another one (`Tabular`). Then nothing that a merge counts goes
away with something else: there is no paragraph, row or table in an empty paragraph, no row and no
table in a row, and none in a table without rows. And none comes with a list item, unless there is
one in the properties that are copied.
-/

namespace MailMerge.Word

open MailMerge.Xml

/-- The elements that a merge counts when it takes them away. -/
def counted : List Name := [Names.paragraph, Names.row, Names.table]

/-- Whether tables lie apart, by the names of an element and of what is around it: a table is in no
other one, is no root, and lies in a paragraph only in a drawing, a picture or an object of it; a
row is in a table, but in no other row. -/
def Tabular : List Name → Prop
  | [] => True
  | k :: u => (k = Names.table → u ≠ [] ∧ Names.table ∉ u ∧
      Enclosed Names.paragraph Names.embedded false u) ∧
    (k = Names.row → Names.table ∈ u ∧ Names.row ∉ u)

instance : DecidablePred Tabular
  | [] => inferInstanceAs (Decidable True)
  | _ :: _ => inferInstanceAs (Decidable (_ ∧ _))

/-- Whether there is nothing to count in properties: no row in those of a run, no paragraph and no
table in those of a paragraph. -/
def Uncounted : List Name → Prop
  | [] => True
  | k :: u => (k = Names.row → Names.runProperties ∉ u) ∧
    (k = Names.paragraph ∨ k = Names.table → Names.paragraphProperties ∉ u)

instance : DecidablePred Uncounted
  | [] => inferInstanceAs (Decidable True)
  | _ :: _ => inferInstanceAs (Decidable (_ ∧ _))

theorem mem_counted {k : Name} :
    k ∈ counted ↔ k = Names.paragraph ∨ k = Names.row ∨ k = Names.table := by
  simp [counted]

theorem notMem_counted_of_showing {k : Name} (h : k ∈ Names.showing) : k ∉ counted := by
  revert k
  decide

theorem tabular_of_notMem {k : Name} {u : List Name} (h : k ∉ counted) :
    Tabular (k :: u) ∧ Uncounted (k :: u) := by
  simp only [mem_counted, not_or] at h
  obtain ⟨hp, hr, ht⟩ := h
  exact ⟨⟨fun hk => absurd hk ht, fun hk => absurd hk hr⟩, fun hk => absurd hk hr,
    fun hk => absurd hk (by simp [hp, ht])⟩

theorem notMem_runProperties {k : Name} {u : List Name} (hs : Shaped (k :: u))
    (hu : Uncounted (k :: u)) (hk : k ∈ counted) : Names.runProperties ∉ u := by
  rcases mem_counted.1 hk with hk | hk | hk
  · exact hs.2.1 (.inl hk)
  · exact hu.1 hk
  · exact hs.2.1 (.inr hk)

theorem inherited_tabular : Inherited fun t => Shaped t ∧ Tabular t ∧ Uncounted t where
  written k k' u hk hk' h :=
    ⟨inherited_shaped.written k k' u hk hk' h.1, tabular_of_notMem (notMem_counted_of_showing hk')⟩
  run u h := ⟨inherited_shaped.run u h.1, tabular_of_notMem (by decide)⟩
  shown k u hk h :=
    ⟨inherited_shaped.shown k u hk h.1, tabular_of_notMem (notMem_counted_of_showing hk)⟩
  formatting w v u hu h := by
    refine ⟨inherited_shaped.formatting w v u hu.1 h.1, ?_⟩
    cases w with
    | nil => exact tabular_of_notMem (by decide)
    | cons k w =>
      exact tabular_of_notMem fun hk => notMem_runProperties h.1 h.2.2 hk (by simp)

variable {f f' : Forest} {e x : Element} {k : Key} {u v w : List Key}

/-- The attached trees are those of word processing documents, tables lie apart in them, and there
is nothing to count in properties. -/
structure TablesApart (f : Forest) : Prop where
  numbered : f.Numbered
  shape : InShape f
  tabular : ∀ t ∈ trails [] f.attached, Tabular (t.map (·.name))
  uncounted : ∀ t ∈ trails [] f.attached, Uncounted (t.map (·.name))

namespace TablesApart

variable (h : TablesApart f)

include h

theorem step {but : Nat → Prop} (hs : Step but f f') : TablesApart f' := by
  have all : ∀ t ∈ trails [] f'.attached, Shaped (t.map (·.name)) ∧ Tabular (t.map (·.name)) ∧
      Uncounted (t.map (·.name)) := fun t ht => (hs.made t ht).names inherited_tabular
    fun t ht => ⟨h.shape t ht, h.tabular t ht, h.uncounted t ht⟩
  exact ⟨hs.numbered, fun t ht => (all t ht).1, fun t ht => (all t ht).2.1,
    fun t ht => (all t ht).2.2⟩

theorem loss {but : Nat → Prop} (hl : Loss f.next but f f') : TablesApart f' :=
  h.step (hl.step fun _ h => h.elim)

/-- Nothing that is counted goes with a revision. -/
theorem not_spent (ht : k :: u ∈ trails [] f.attached) (hk : k.name ∈ counted)
    (heq : k :: u = w ++ v) : ¬Spent w v := by
  have hrun : Names.runProperties ∉ u.map (·.name) :=
    notMem_runProperties (h.shape _ ht) (h.uncounted _ ht) hk
  obtain ⟨hshown, -⟩ := h.shape _ ht
  have hne : k.name ≠ Names.run ∧ k.name ≠ Names.runProperties :=
    ⟨fun hn => absurd (hn ▸ hk) (by decide), fun hn => absurd (hn ▸ hk) (by decide)⟩
  refine not_spent_of_names hne.1 (List.forall_mem_cons.2 ⟨⟨?_, hne.2⟩, fun y hy => ?_⟩) heq
  · exact fun hn => notMem_counted_of_showing hn hk
  · exact ⟨hshown _ (List.mem_map_of_mem hy), fun hn => hrun (hn ▸ List.mem_map_of_mem hy)⟩

/-- Between a row and a paragraph around it there is the table of the row. -/
theorem exists_table {p : Key} (ht : k :: (w ++ p :: v) ∈ trails [] f.attached)
    (hk : k.name = Names.row) (hp : p.name = Names.paragraph) :
    ∃ t w₁ w₂, w = w₁ ++ t :: w₂ ∧ t.name = Names.table := by
  obtain ⟨htable, hno⟩ := (h.tabular _ ht).2 hk
  obtain ⟨t, hm, htn⟩ := List.mem_map.1 htable
  rcases List.mem_append.1 hm with hm | hm
  · obtain ⟨w₁, w₂, rfl⟩ := List.append_of_mem hm
    exact ⟨t, w₁, w₂, rfl, htn⟩
  rcases List.mem_cons.1 hm with rfl | hm
  · exact absurd (htn.symm.trans hp) (by decide)
  -- Around the paragraph there is a row of the table.
  obtain ⟨v₁, v₂, rfl⟩ := List.append_of_mem hm
  have hpt := suffix_mem_trails (u := k :: w) (s := p :: (v₁ ++ t :: v₂)) ht (by simp)
  obtain ⟨-, -, hpar⟩ := h.shape _ hpt
  obtain ⟨w₁, r, w₂, rfl, hr, -⟩ := exists_between (hpar hp).2.2 htn
  refine absurd (List.mem_map.2 ⟨r, ?_, List.mem_singleton.1 hr⟩) hno
  simp

section Attached

variable (he : e ∈ f.attached.elements)

include he

/-- A row or a table is no root. -/
theorem exists_trail_cons (hn : e.tag.name = Names.row ∨ e.tag.name = Names.table) :
    ∃ k u, key e.tag :: k :: u ∈ trails [] f.attached := by
  obtain ⟨u, ht⟩ := exists_root_trail he
  obtain ⟨htable, hrow⟩ := h.tabular _ ht
  cases u with
  | nil => exact hn.elim (fun hn => absurd (hrow hn).1 (by simp)) fun hn => absurd rfl (htable hn).1
  | cons k u => exact ⟨k, u, ht⟩

/-- Nothing that is counted is in an empty paragraph. -/
theorem notMem_of_isEmpty (hp : e.tag.name = Names.paragraph) (hm : Paragraph.isEmpty e = true) :
    ∀ x ∈ e.inner.elements, x.tag.name ∉ counted := by
  have table : ∀ x ∈ e.inner.elements, x.tag.name ≠ Names.table := by
    intro x hx hxt
    obtain ⟨w, v, -, ht⟩ := exists_trail_inside h.numbered he hx
    exact InShape.not_enclosed_of_isEmpty h.numbered he hp hm hx ht ((h.tabular _ ht).1 hxt).2.2
  intro x hx hxn
  rcases mem_counted.1 hxn with hxp | hxr | hxt
  · exact h.shape.notMem_of_isEmpty h.numbered he hp hm x hx hxp
  · obtain ⟨w, v, -, ht⟩ := exists_trail_inside h.numbered he hx
    obtain ⟨t, w₁, w₂, rfl, htn⟩ := h.exists_table ht hxr hp
    have htt := suffix_mem_trails (u := key x.tag :: w₁) (s := t :: (w₂ ++ key e.tag :: v))
      (by simpa using ht) (by simp)
    obtain ⟨y, hy, rfl⟩ := exists_of_head (trail_inside h.numbered (.inl he) htt)
    exact table y hy htn
  · exact table x hx hxt

/-- There is no row and no table in a row. -/
theorem notMem_row (hr : e.tag.name = Names.row) :
    ∀ x ∈ e.inner.elements, x.tag.name ≠ Names.row ∧ x.tag.name ≠ Names.table := by
  intro x hx
  obtain ⟨w, v, hv, ht⟩ := exists_trail_inside h.numbered he hx
  obtain ⟨htable, hrow⟩ := h.tabular _ ht
  obtain ⟨-, hin⟩ := h.tabular _ hv
  constructor
  · exact fun hxr => (hrow hxr).2 (by simp [hr])
  · intro hxt
    have hm : Names.table ∈ v.map (·.name) := (hin hr).1
    exact (htable hxt).2.1 (by simp [List.mem_map.1 hm])

/-- In a table without rows of its own there is no row at all, and no table. -/
theorem notMem_of_rows_eq_nil (hn : e.tag.name = Names.table) (hm : Table.rows e = []) :
    ∀ x ∈ e.inner.elements, x.tag.name ≠ Names.row ∧ x.tag.name ≠ Names.table := by
  intro x hx
  obtain ⟨w, v, hv, ht⟩ := exists_trail_inside h.numbered he hx
  constructor
  · intro hxr
    have hclear : ∀ z ∈ w, z.name ≠ Names.table := by
      intro z hz hzt
      obtain ⟨w₁, w₂, rfl⟩ := List.append_of_mem hz
      have hzm := suffix_mem_trails (u := key x.tag :: w₁) (s := z :: (w₂ ++ key e.tag :: v))
        (by simpa using ht) (by simp)
      exact ((h.tabular _ hzm).1 hzt).2.1 (by simp [hn])
    obtain ⟨r, hr, -⟩ : ∃ r ∈ within Names.row Names.table e.inner, key r.tag = key x.tag :=
      exists_within hxr hclear (trail_inside h.numbered (.inl he) ht)
    exact absurd hm (List.ne_nil_of_mem hr)
  · intro hxt
    exact ((h.tabular _ ht).1 hxt).2.1 (by simp [hn])

/-- Nothing that is counted is in a list item. -/
theorem notMem_item {new : Element} {cs : List Char} (hi : ItemOf e cs new)
    (hp : e.tag.name = Names.paragraph) : ∀ x ∈ new.inner.elements, x.tag.name ∉ counted := by
  intro z hz hzn
  have hin : e.inner.ids.Nodup := Content.nodup_inner h.numbered.attached he
  have hfree : z.tag.name ∉ Names.run :: (Names.properties ++ Names.showing) := by
    generalize z.tag.name = n at hzn
    revert n
    decide
  obtain ⟨p, hpe, hpn, y, hy, hyn, -⟩ := hi.inside hin hz hfree
  rw [← hyn] at hzn
  have hpa : p ∈ f.attached.elements := Content.mem_trans he hpe
  obtain ⟨w, v, hv, ht⟩ := exists_trail_inside h.numbered hpa hy
  rcases hpn with hpn | ⟨hpn, hpc⟩
  · exact notMem_runProperties (h.shape _ ht) (h.uncounted _ ht) hzn (by simp [hpn])
  have hno : ¬(y.tag.name = Names.paragraph ∨ y.tag.name = Names.table) := fun hy =>
    (h.uncounted _ ht).2 hy (by simp [hpn])
  have hyr : y.tag.name = Names.row := by
    have := mem_counted.1 hzn
    tauto
  -- The properties are directly in the paragraph, so the table of the row is in them.
  obtain ⟨u, hu⟩ := exists_root_trail he
  have hchild := (mem_childKeys_iff_trail h.numbered (.inl he) hu).1 (List.mem_map_of_mem hpc)
  obtain rfl := (List.cons.inj (trail_eq_of_id h.numbered.attached hv hchild rfl)).2
  obtain ⟨t, w₁, w₂, hw, htn⟩ := h.exists_table (w := w ++ [key p.tag]) (by simpa using ht) hyr hp
  have htm : t ∈ w := by
    have hm : t ∈ w ++ [key p.tag] := by simp [hw]
    rcases List.mem_append.1 hm with hm | hm
    · exact hm
    · obtain rfl := List.mem_singleton.1 hm
      exact absurd (htn.symm.trans hpn) (by decide)
  obtain ⟨w₁, w₂, rfl⟩ := List.append_of_mem htm
  have htt := suffix_mem_trails (u := key y.tag :: w₁)
    (s := t :: (w₂ ++ key p.tag :: key e.tag :: u)) (by simpa using ht) (by simp)
  exact (h.uncounted _ htt).2 (.inr htn) (by simp [hpn])

end Attached

end TablesApart

end MailMerge.Word
