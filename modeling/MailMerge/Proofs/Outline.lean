import MailMerge.Proofs.Grown
import MailMerge.Proofs.Rework

/-!
# The outline of a word processing document

How elements stand in each other in a word processing document, as a property of the names on the
way from an element outwards (`Regular`). What follows from it for paragraphs: those that show text
are firm (`firm_of_regular`), and what stands around them is such that they do not go away with
anything that shows no text (`Sheltered`).
-/

namespace MailMerge.Word

open MailMerge.Xml

namespace Names

/-- What runs and paragraphs look like, besides their text. -/
def properties : List Name := [runProperties, paragraphProperties]

end Names

/-! ## Ways outwards -/

/-- Whether on the way outwards each `outer` element is reached from one of `inner` in it. `met` says
that there has been one of these since the last `outer`. -/
def Enclosed (outer : Name) (inner : List Name) : Bool → List Name → Prop
  | _, [] => True
  | met, n :: u =>
    if n = outer then met = true ∧ Enclosed outer inner false u
    else Enclosed outer inner (met || n ∈ inner) u

instance decidableEnclosed (outer : Name) (inner : List Name) :
    ∀ (met : Bool) (u : List Name), Decidable (Enclosed outer inner met u)
  | _, [] => inferInstanceAs (Decidable True)
  | met, n :: u =>
    have := decidableEnclosed outer inner false u
    have := decidableEnclosed outer inner (met || n ∈ inner) u
    inferInstanceAs (Decidable (if n = outer then _ else _))

theorem Enclosed.exists_inner {outer : Name} {inner b : List Name} : ∀ {met : Bool} {a : List Name},
    Enclosed outer inner met (a ++ outer :: b) → met = true ∧ outer ∉ a ∨
      ∃ a₁ n a₂, a = a₁ ++ n :: a₂ ∧ n ∈ inner ∧ outer ∉ a₂
  | met, [], h => by
    rw [List.nil_append, Enclosed, if_pos rfl] at h
    exact .inl ⟨h.1, List.not_mem_nil⟩
  | met, n :: a, h => by
    rw [List.cons_append, Enclosed] at h
    split_ifs at h with hn
    · rcases exists_inner h.2 with ⟨hf, -⟩ | ⟨a₁, m, a₂, rfl, hm, ha⟩
      · cases hf
      · exact .inr ⟨n :: a₁, m, a₂, rfl, hm, ha⟩
    · rcases exists_inner h with ⟨hf, ha⟩ | ⟨a₁, m, a₂, rfl, hm, ha⟩
      · rw [Bool.or_eq_true, decide_eq_true_eq] at hf
        rcases hf with hf | hf
        · exact .inl ⟨hf, List.not_mem_cons_of_ne_of_not_mem (Ne.symm hn) ha⟩
        · exact .inr ⟨[], n, a, rfl, hf, ha⟩
      · exact .inr ⟨n :: a₁, m, a₂, rfl, hm, ha⟩

/-- Whether none of some elements is met on the way to the first paragraph. -/
def ClearWay (ns : List Name) : List Name → Prop
  | [] => True
  | n :: u => n ≠ Names.paragraph → n ∉ ns ∧ ClearWay ns u

instance decidableClearWay (ns : List Name) : DecidablePred (ClearWay ns)
  | [] => inferInstanceAs (Decidable True)
  | _ :: u =>
    have := decidableClearWay ns u
    inferInstanceAs (Decidable (_ → _ ∧ _))

/-- Whether between a text and the paragraph that shows it there is none of some elements. -/
def Clear (ns : List Name) : List Name → Prop
  | [] => True
  | k :: u => k ∈ Names.showing → u.head? = some Names.run → Names.paragraph ∈ u → ClearWay ns u

instance (ns : List Name) : DecidablePred (Clear ns)
  | [] => inferInstanceAs (Decidable True)
  | _ :: _ => inferInstanceAs (Decidable (_ → _ → _ → _))

section Clear

variable {ns u : List Name}

theorem clearWay_of_forall (h : ∀ n ∈ u, n ∉ ns) : ClearWay ns u := by
  induction u with
  | nil => trivial
  | cons n u ih => exact fun _ => ⟨h n List.mem_cons_self, ih fun m hm => h m (.tail _ hm)⟩

theorem clearWay_append {a : List Name} (ha : ∀ n ∈ a, n ≠ Names.paragraph) :
    ClearWay ns (a ++ u) ↔ (∀ n ∈ a, n ∉ ns) ∧ ClearWay ns u := by
  induction a with
  | nil => simp
  | cons n a ih =>
    have hn := ha n List.mem_cons_self
    simp [ClearWay, hn, ih fun m hm => ha m (.tail _ hm), and_assoc]

theorem clearWay_congr {a v : List Name} (ha : Names.paragraph ∈ a) :
    ClearWay ns (a ++ u) ↔ ClearWay ns (a ++ v) := by
  induction a with
  | nil => cases ha
  | cons n a ih =>
    simp only [List.cons_append, ClearWay]
    refine imp_congr_right fun hn => and_congr_right fun _ => ih ?_
    exact (List.mem_cons.1 ha).resolve_left (Ne.symm hn)

end Clear

/-- Whether the names of an element and of what is around it are in order: nothing is in an element
that shows text; no run with text is in properties; a paragraph in another one is in a drawing, a
picture or an object of it; a paragraph in a row is in a cell of the row, and one in a table is in a
row of the table. -/
def Regular : List Name → Prop
  | [] => True
  | k :: u => (∀ n ∈ u, n ∉ Names.showing) ∧
    (k ∈ Names.showing → u.head? = some Names.run → ∀ n ∈ u, n ∉ Names.properties) ∧
    (k = Names.paragraph → Enclosed Names.paragraph Names.embedded false u ∧
      Enclosed Names.row [Names.cell] false u ∧ Enclosed Names.table [Names.row] false u)

instance : DecidablePred Regular
  | [] => inferInstanceAs (Decidable True)
  | _ :: _ => inferInstanceAs (Decidable (_ ∧ _ ∧ _))

theorem Regular.clear {t : List Name} (h : Regular t) : Clear Names.properties t := by
  cases t with
  | nil => trivial
  | cons k u => exact fun hk hu _ => clearWay_of_forall (h.2.1 hk hu)

/-- Copies of the properties of runs are no nearer to the text of a paragraph than the originals. -/
theorem inherited_clear {ns : List Name} (hr : Names.run ∉ ns) : Inherited (Clear ns) where
  written k k' u hk _ h := fun _ hu hp => h hk hu hp
  run u _ := fun hk => absurd hk (by decide)
  shown k u _ _ := fun _ _ _ _ => ⟨hr, fun hp => absurd rfl hp⟩
  formatting w v u _ h := by
    cases w with
    | nil => exact fun hk => absurd hk (by decide)
    | cons k w =>
      rw [List.cons_append] at h ⊢
      intro hk hu _
      have hu' : (w ++ Names.runProperties :: Names.run :: (v ++ Names.paragraph :: u)).head? =
          some Names.run := by
        cases w with
        | nil => exact absurd (Option.some.inj hu) (by decide)
        | cons _ _ => exact hu
      have hold : ClearWay ns
          (w ++ Names.runProperties :: Names.run :: (v ++ Names.paragraph :: u)) := h hk hu' (by simp)
      by_cases hw : Names.paragraph ∈ w
      · exact (clearWay_congr hw).1 hold
      · -- The paragraph of the text is the one that the properties are copied from.
        have hne : ∀ n ∈ w ++ [Names.runProperties, Names.run], n ≠ Names.paragraph := by
          intro n hn
          simp only [List.mem_append, List.mem_cons, List.not_mem_nil, or_false] at hn
          rcases hn with hn | rfl | rfl
          · exact fun e => hw (e ▸ hn)
          · decide
          · decide
        have hsplit : ∀ l : List Name, w ++ Names.runProperties :: Names.run :: l =
            (w ++ [Names.runProperties, Names.run]) ++ l := by simp
        rw [hsplit, clearWay_append hne] at hold
        rw [hsplit, clearWay_append hne]
        exact ⟨hold.1, fun hp => absurd rfl hp⟩

/-! ## Text and what is around it -/

theorem names_split {m k : Key} {v u : List Key} : (m :: (v ++ k :: u)).map (·.name) =
    (m.name :: v.map (·.name) ++ [k.name]) ++ u.map (·.name) := by simp

/-- On the way from a run outwards to an element of its own paragraph no paragraph is met. -/
theorem ne_paragraph_of_way {m k : Key} {v : List Key} (hm : m.name = Names.run)
    (hv : ∀ x ∈ v, x.name ∉ Names.concealing) (hk : k.name ≠ Names.paragraph) :
    ∀ n ∈ m.name :: v.map (·.name) ++ [k.name], n ≠ Names.paragraph := by
  intro n hn
  simp only [List.cons_append, List.mem_cons, List.mem_append, List.mem_map, List.not_mem_nil,
    or_false] at hn
  rcases hn with rfl | ⟨x, hx, rfl⟩ | rfl
  · rw [hm]
    decide
  · exact fun e => hv x hx (e ▸ by decide)
  · exact hk

/-- Where text is clear of properties, rows and tables, it is firm. -/
theorem firm_of_regular : ∀ {run : Option Nat} {above : List Key} {c : Content},
    (∃ x ∈ above, x.name = Names.paragraph) →
    (∀ t ∈ trails above c, Regular (t.map (·.name))) →
    (∀ t ∈ trails above c, Clear Names.shedding (t.map (·.name))) → Firm run c
  | _, _, .nil, _, _, _ => trivial
  | _, above, .text _ rest, hp, hr, hc | _, above, .markup _ rest, hp, hr, hc =>
    @firm_of_regular _ above rest hp hr hc
  | run, above, .element tag inner rest, hp, hr, hc => by
    simp only [mem_trails_element] at hr hc
    have hp' : ∃ x ∈ key tag :: above, x.name = Names.paragraph :=
      hp.imp fun x hx => ⟨List.mem_cons_of_mem _ hx.1, hx.2⟩
    refine ⟨fun _ hs => ?_, fun hcon => ⟨firm_of_regular hp' (fun t ht => hr t (.inr (.inl ht)))
      fun t ht => hc t (.inr (.inl ht)), fun hsh => ?_⟩,
      firm_of_regular hp (fun t ht => hr t (.inr (.inr ht))) fun t ht => hc t (.inr (.inr ht))⟩
    · by_contra hne
      obtain ⟨e, he⟩ := List.exists_mem_of_ne_nil _ hne
      obtain ⟨u, hu⟩ := exists_trail (key tag :: above) he
      have := (hr _ (.inr (.inl hu))).1 tag.name (by simp)
      exact this hs
    · refine List.eq_nil_iff_forall_not_mem.2 fun s hs => ?_
      obtain ⟨k, -, hk, ⟨hrun, -⟩ | ⟨m, v, ht, -, hm, hv⟩⟩ := segment_trail (key tag :: above) hs
      · have hn : tag.name = Names.run := by
          by_contra hn
          simp [runOf, hn] at hrun
        exact absurd (hn ▸ hsh) (by decide)
      · obtain ⟨x, hx, hxp⟩ := hp
        have hclear := hc _ (.inr (.inl ht)) hk (congrArg some hm)
          (List.mem_map.2 ⟨x, by simp [hx], hxp⟩)
        rw [names_split, clearWay_append (fun n hn => ?_)] at hclear
        · exact hclear.1 tag.name (by simp) hsh
        · have hne : (key tag).name ≠ Names.paragraph := fun e : tag.name = _ => hcon (e ▸ by decide)
          exact ne_paragraph_of_way hm (fun x hx => (hv x hx).1) hne n hn

/-- Where text is clear of properties, the properties of a paragraph show nothing. -/
theorem properties_show_nothing {p x : Element} {u : List Key}
    (hc : ∀ t ∈ trails (key p.tag :: u) p.inner, Clear Names.properties (t.map (·.name)))
    (hp : p.tag.name = Names.paragraph) (hx : x ∈ p.inner.children)
    (hn : x.tag.name = Names.paragraphProperties) : segmentsIn none x.inner = [] := by
  refine List.eq_nil_iff_forall_not_mem.2 fun s hs => ?_
  obtain ⟨front, rest, hr⟩ := Content.exists_of_mem_children hx
  obtain ⟨k, -, hk, ⟨hrun, -⟩ | ⟨m, v, ht, -, hm, hv⟩⟩ :=
    segment_trail (key x.tag :: key p.tag :: u) hs
  · cases hrun
  have hclear := hc (k :: m :: (v ++ key x.tag :: key p.tag :: u)) (by simp [hr, trails, ht]) hk
    (congrArg some hm) (List.mem_map.2 ⟨key p.tag, by simp, hp⟩)
  rw [names_split, clearWay_append (fun n h => ?_)] at hclear
  · exact hclear.1 x.tag.name (by simp) (hn ▸ by decide)
  · have hne : (key x.tag).name ≠ Names.paragraph := by
      rw [key_name, hn]
      decide
    exact ne_paragraph_of_way hm (fun x hx => (hv x hx).1) hne n h

/-- What is around a paragraph that shows text. -/
structure Sheltered (u : List Name) : Prop where
  showing : ∀ n ∈ u, n ∉ Names.showing
  properties : ∀ n ∈ u, n ∉ Names.properties
  paragraphs : Enclosed Names.paragraph Names.embedded false u
  rows : Enclosed Names.row [Names.cell] false u
  tables : Enclosed Names.table [Names.row] false u

theorem sheltered_of_regular {p : Element} {u : List Key} (hp : p.tag.name = Names.paragraph)
    (hr : ∀ t ∈ trails u (.element p.tag p.inner .nil), Regular (t.map (·.name)))
    (hne : Paragraph.text p ≠ []) : Sheltered (u.map (·.name)) := by
  simp only [trails, List.append_nil, List.mem_cons] at hr
  obtain ⟨h₁, -, h₃⟩ := hr _ (.inl rfl)
  obtain ⟨h₄, h₅, h₆⟩ := h₃ hp
  refine ⟨h₁, fun n hn => ?_, h₄, h₅, h₆⟩
  obtain ⟨s, hs⟩ : ∃ s, s ∈ Paragraph.segments p := by
    refine List.exists_mem_of_ne_nil _ fun h => hne ?_
    rw [Paragraph.text, h, shownBy, List.flatMap_nil]
  obtain ⟨k, -, hk, ⟨hrun, -⟩ | ⟨m, v, ht, -, hm, -⟩⟩ := segment_trail (key p.tag :: u) hs
  · cases hrun
  exact (hr _ (.inr ht)).2.1 hk (congrArg some hm) n (List.mem_map.2 <| by
    obtain ⟨x, hx, rfl⟩ := List.mem_map.1 hn
    exact ⟨x, by simp [hx], rfl⟩)

end MailMerge.Word
