import MailMerge.Proofs.Trails
import MailMerge.Word.Span

/-!
# What paragraphs show

A paragraph shows pieces of text. Its text is *firm* if edits around it cannot take any of it away:
elements that show text have no elements inside of them, and none of them stands in run properties,
in a row or in a table, which go away without a look at the text in them. An edit of one paragraph,
and the removal of a paragraph, a row or a table, is *quiet* for all firm paragraphs around the
place: they show what they showed before (`Quiet.fill`).
-/

namespace MailMerge.Word

open MailMerge.Xml

namespace Names

/-- The elements that show text in a run. -/
def showing : List Name := [text, tab, lineBreak, carriageReturn]

/-- The elements that a merge takes away whatever text is in them. -/
def shedding : List Name := [runProperties, row, table]

end Names

/-- Characters shown at one place, with the number of their run. Only the characters of text
elements can be edited. -/
structure Piece where
  run : Nat
  chars : List Char
  editable : Bool
deriving DecidableEq

/-- What segments show: those without characters show nothing. -/
def pieces (segments : List Segment) : List Piece :=
  (segments.filter (·.chars ≠ [])).map fun s => ⟨s.run, s.chars, s.editable⟩

@[simp] theorem pieces_nil : pieces [] = [] := rfl

@[simp] theorem pieces_append (s t : List Segment) : pieces (s ++ t) = pieces s ++ pieces t := by
  simp [pieces]

theorem pieces_cons (s : Segment) (t : List Segment) : pieces (s :: t) =
    (if s.chars = [] then [] else [⟨s.run, s.chars, s.editable⟩]) ++ pieces t := by
  by_cases h : s.chars = [] <;> simp [pieces, h]

/-- The characters of pieces. -/
def spelled (ps : List Piece) : List Char := ps.flatMap (·.chars)

@[simp] theorem spelled_nil : spelled [] = [] := rfl

@[simp] theorem spelled_cons (p : Piece) (ps : List Piece) :
    spelled (p :: ps) = p.chars ++ spelled ps := rfl

@[simp] theorem spelled_append (ps qs : List Piece) :
    spelled (ps ++ qs) = spelled ps ++ spelled qs := by simp [spelled]

theorem spelled_pieces : ∀ segments : List Segment, spelled (pieces segments) = shownBy segments
  | [] => rfl
  | s :: rest => by
    rw [pieces_cons, spelled_append, spelled_pieces rest]
    by_cases h : s.chars = [] <;> simp [h, shownBy]

theorem of?_eq_none {run : Nat} {tag : Tag} {inner : Content} :
    Segment.of? run tag inner = none ↔ tag.name ∉ Names.showing := by
  simp only [Segment.of?, Names.showing, List.mem_cons, List.not_mem_nil, or_false, not_or]
  split_ifs with h₁ h₂ h₃
  · simp [h₁]
  · simp [h₂]
  · simp only [false_iff]
    tauto
  · simp_all

theorem of?_eq_some {run : Nat} {tag : Tag} {inner : Content} {s : Segment}
    (h : Segment.of? run tag inner = some s) :
    s.node = tag.id ∧ s.run = run ∧ tag.name ∈ Names.showing ∧
      (s.editable = true → tag.name = Names.text ∧ s.chars = inner.leadingText) ∧
      (s.editable = false → s.chars = ['\t'] ∨ s.chars = ['\n']) := by
  simp only [Segment.of?] at h
  split_ifs at h with h₁ h₂ h₃
  · obtain rfl := Option.some.inj h
    simp [Names.showing, h₁]
  · obtain rfl := Option.some.inj h
    simp [Names.showing, h₂]
  · obtain rfl := Option.some.inj h
    rcases h₃ with h₃ | h₃ <;> simp [Names.showing, h₃]

@[simp] theorem segmentsIn_dropText (run : Option Nat) : ∀ c : Content,
    segmentsIn run c.dropText = segmentsIn run c
  | .nil => rfl
  | .text _ rest => segmentsIn_dropText run rest
  | .markup _ _ => rfl
  | .element _ _ _ => rfl

theorem segmentsIn_of_elements_nil {run : Option Nat} : ∀ {c : Content}, c.elements = [] →
    segmentsIn run c = []
  | .nil, _ => rfl
  | .text _ rest, h | .markup _ rest, h => segmentsIn_of_elements_nil (c := rest) h

theorem paragraph_notMem_showing : Names.paragraph ∉ Names.showing := by decide

/-- A paragraph shows nothing of its own where it stands. -/
theorem segmentsIn_paragraph {run : Option Nat} {tag : Tag} {inner rest : Content}
    (h : tag.name = Names.paragraph) :
    segmentsIn run (.element tag inner rest) = segmentsIn run rest := by
  have hs : ∀ r, Segment.of? r tag inner = none := fun r =>
    of?_eq_none.2 (h ▸ paragraph_notMem_showing)
  have hc : tag.name ∈ Names.concealing := h ▸ by decide
  cases run <;> simp [segmentsIn, hs, hc]

theorem segmentsIn_insertBehindText {run : Option Nat} {new : Element}
    (h : new.tag.name = Names.paragraph) : ∀ c : Content,
    segmentsIn run (c.insertBehindText new) = segmentsIn run c
  | .nil => segmentsIn_paragraph h
  | .text _ rest => segmentsIn_insertBehindText h rest
  | .markup _ _ => segmentsIn_paragraph h
  | .element _ _ _ => segmentsIn_paragraph h

/-! ## Firm text -/

/-- Whether the text that content shows is firm. -/
def Firm (run : Option Nat) : Content → Prop
  | .nil => True
  | .text _ rest => Firm run rest
  | .markup _ rest => Firm run rest
  | .element tag inner rest =>
    (run.isSome → tag.name ∈ Names.showing → inner.elements = []) ∧
      (tag.name ∉ Names.concealing → Firm (runOf tag) inner ∧
        (tag.name ∈ Names.shedding → segmentsIn (runOf tag) inner = [])) ∧
      Firm run rest

instance decidableFirm (run : Option Nat) : (c : Content) → Decidable (Firm run c)
  | .nil => inferInstanceAs (Decidable True)
  | .text _ rest => decidableFirm run rest
  | .markup _ rest => decidableFirm run rest
  | .element tag inner rest =>
    have := decidableFirm (runOf tag) inner
    have := decidableFirm run rest
    inferInstanceAs (Decidable ((_ → _ → _) ∧ (_ → _ ∧ (_ → _)) ∧ _))

theorem firm_of_elements_nil {run : Option Nat} : ∀ {c : Content}, c.elements = [] → Firm run c
  | .nil, _ => trivial
  | .text _ rest, h | .markup _ rest, h => firm_of_elements_nil (c := rest) h

theorem firm_append {run : Option Nat} {c d : Content} :
    Firm run (c ++ d) ↔ Firm run c ∧ Firm run d := by
  induction c with
  | nil => simp [Firm]
  | text _ _ ih => simpa [Firm] using ih
  | markup _ _ ih => simpa [Firm] using ih
  | element _ _ _ _ ih => simp [Firm, ih, and_assoc]

@[simp] theorem firm_dropText {run : Option Nat} : ∀ {c : Content},
    Firm run c.dropText ↔ Firm run c
  | .nil => Iff.rfl
  | .text _ rest => firm_dropText (c := rest)
  | .markup _ _ => Iff.rfl
  | .element _ _ _ => Iff.rfl

theorem firm_paragraph {run : Option Nat} {tag : Tag} {inner rest : Content}
    (h : tag.name = Names.paragraph) : Firm run (.element tag inner rest) ↔ Firm run rest := by
  have hc : tag.name ∈ Names.concealing := h ▸ by decide
  have hs : tag.name ∉ Names.showing := h ▸ paragraph_notMem_showing
  simp [Firm, hc, hs]

theorem firm_insertBehindText {run : Option Nat} {new : Element}
    (h : new.tag.name = Names.paragraph) : ∀ {c : Content},
    Firm run (c.insertBehindText new) ↔ Firm run c
  | .nil => firm_paragraph h
  | .text _ rest => firm_insertBehindText h (c := rest)
  | .markup _ _ => firm_paragraph h
  | .element _ _ _ => firm_paragraph h

/-! ## Legible text -/

/-- Whether elements that show text have no elements inside of them, and run properties show
none. -/
def Legible (run : Option Nat) : Content → Prop
  | .nil => True
  | .text _ rest => Legible run rest
  | .markup _ rest => Legible run rest
  | .element tag inner rest =>
    (run.isSome → tag.name ∈ Names.showing → inner.elements = []) ∧
      (tag.name ∉ Names.concealing → Legible (runOf tag) inner ∧
        (tag.name = Names.runProperties → segmentsIn (runOf tag) inner = [])) ∧
      Legible run rest

instance decidableLegible (run : Option Nat) : (c : Content) → Decidable (Legible run c)
  | .nil => inferInstanceAs (Decidable True)
  | .text _ rest => decidableLegible run rest
  | .markup _ rest => decidableLegible run rest
  | .element tag inner rest =>
    have := decidableLegible (runOf tag) inner
    have := decidableLegible run rest
    inferInstanceAs (Decidable ((_ → _ → _) ∧ (_ → _ ∧ (_ → _)) ∧ _))

theorem Firm.legible : ∀ {run : Option Nat} {c : Content}, Firm run c → Legible run c
  | _, .nil, _ => trivial
  | _, .text _ rest, h | _, .markup _ rest, h => Firm.legible (c := rest) h
  | _, .element _ _ _, ⟨hs, hi, hr⟩ =>
    ⟨hs, fun hc => ⟨(hi hc).1.legible, fun hp => (hi hc).2 (hp ▸ by decide)⟩, hr.legible⟩

theorem legible_of_elements_nil {run : Option Nat} {c : Content} (h : c.elements = []) :
    Legible run c :=
  (firm_of_elements_nil h).legible

theorem legible_append {run : Option Nat} {c d : Content} :
    Legible run (c ++ d) ↔ Legible run c ∧ Legible run d := by
  induction c with
  | nil => simp [Legible]
  | text _ _ ih => simpa [Legible] using ih
  | markup _ _ ih => simpa [Legible] using ih
  | element _ _ _ _ ih => simp [Legible, ih, and_assoc]

@[simp] theorem legible_dropText {run : Option Nat} : ∀ {c : Content},
    Legible run c.dropText ↔ Legible run c
  | .nil => Iff.rfl
  | .text _ rest => legible_dropText (c := rest)
  | .markup _ _ => Iff.rfl
  | .element _ _ _ => Iff.rfl

/-! ## Text that is not in other text -/

/-- Whether elements that show text have no elements inside of them. -/
def Leafed (run : Option Nat) : Content → Prop
  | .nil => True
  | .text _ rest => Leafed run rest
  | .markup _ rest => Leafed run rest
  | .element tag inner rest =>
    (run.isSome → tag.name ∈ Names.showing → inner.elements = []) ∧
      (tag.name ∉ Names.concealing → Leafed (runOf tag) inner) ∧ Leafed run rest

instance decidableLeafed (run : Option Nat) : (c : Content) → Decidable (Leafed run c)
  | .nil => inferInstanceAs (Decidable True)
  | .text _ rest => decidableLeafed run rest
  | .markup _ rest => decidableLeafed run rest
  | .element tag inner rest =>
    have := decidableLeafed (runOf tag) inner
    have := decidableLeafed run rest
    inferInstanceAs (Decidable ((_ → _ → _) ∧ (_ → _) ∧ _))

theorem Legible.leafed : ∀ {run : Option Nat} {c : Content}, Legible run c → Leafed run c
  | _, .nil, _ => trivial
  | _, .text _ rest, h | _, .markup _ rest, h => Legible.leafed (c := rest) h
  | _, .element _ _ _, ⟨hs, hi, hr⟩ => ⟨hs, fun hc => (hi hc).1.leafed, hr.leafed⟩

/-! ## Quiet changes -/

/-- Content that shows the same, and is as firm. -/
structure Alike (run : Option Nat) (c c' : Content) : Prop where
  firm : Firm run c'
  pieces : pieces (segmentsIn run c') = pieces (segmentsIn run c)
  none : segmentsIn run c = [] → segmentsIn run c' = []

/-- A change that firm text does not show, whatever run it is in. -/
def Quiet (c c' : Content) : Prop := ∀ run, Firm run c → Alike run c c'

theorem Alike.refl {run : Option Nat} {c : Content} (h : Firm run c) : Alike run c c :=
  ⟨h, rfl, id⟩

theorem Alike.trans {run : Option Nat} {c d e : Content} (h : Alike run c d)
    (h' : Alike run d e) : Alike run c e :=
  ⟨h'.firm, h'.pieces.trans h.pieces, fun hc => h'.none (h.none hc)⟩

theorem Quiet.refl (c : Content) : Quiet c c := fun _ h => .refl h

theorem Quiet.trans {c d e : Content} (h : Quiet c d) (h' : Quiet d e) : Quiet c e :=
  fun run hc => (h run hc).trans (h' run (h run hc).firm)

theorem elements_fill_ne_nil {c : Content} (hc : c.elements ≠ []) (h : Hole) :
    (h.fill c).elements ≠ [] := by
  obtain ⟨e, he⟩ := List.exists_mem_of_ne_nil _ hc
  exact List.ne_nil_of_mem (Hole.mem_fill he)

/-- A quiet change is quiet for all that is around it. -/
theorem Quiet.fill {c c' : Content} (hc : c.elements ≠ []) (hq : Quiet c c') :
    ∀ h : Hole, Quiet (h.fill c) (h.fill c')
  | .here => hq
  | .text _ h | .markup _ h => fun run hf =>
    let ⟨h₁, h₂, h₃⟩ := fill hc hq h run hf
    ⟨h₁, h₂, h₃⟩
  | .behind tag inner h => fun run ⟨hs, hi, hf⟩ => by
    obtain ⟨h₁, h₂, h₃⟩ := fill hc hq h run hf
    refine ⟨⟨hs, hi, h₁⟩, ?_, ?_⟩
    · simp only [Hole.fill, segmentsIn, pieces_append, h₂]
    · intro hn
      simp only [Hole.fill, segmentsIn, List.append_eq_nil_iff] at hn ⊢
      exact ⟨hn.1, h₃ hn.2⟩
  | .inside tag h rest => fun run ⟨hs, hi, hf⟩ => by
    -- An element that shows text cannot be around the place, since it has nothing inside.
    have hl : run.isSome → tag.name ∉ Names.showing := fun hr ht =>
      elements_fill_ne_nil hc h (hs hr ht)
    have hn : ∀ d, run.bind (fun r => Segment.of? r tag d) = none := by
      intro d
      cases run with
      | none => rfl
      | some r => exact of?_eq_none.2 (hl rfl)
    by_cases ht : tag.name ∈ Names.concealing
    · refine ⟨⟨fun hr hn => absurd hn (hl hr), fun hn => absurd ht hn, hf⟩, ?_, ?_⟩
      · simp [Hole.fill, segmentsIn, hn, ht]
      · simp [Hole.fill, segmentsIn, hn, ht]
    · obtain ⟨h₁, h₂, h₃⟩ := fill hc hq h (runOf tag) (hi ht).1
      refine ⟨⟨fun hr hn => absurd hn (hl hr), fun _ => ⟨h₁, fun hd => h₃ ((hi ht).2 hd)⟩, hf⟩,
        ?_, ?_⟩
      · simp [Hole.fill, segmentsIn, hn, ht, h₂]
      · intro he
        simp only [Hole.fill, segmentsIn, hn, ht, if_false, Option.toList_none, List.nil_append,
          List.append_eq_nil_iff] at he ⊢
        exact ⟨h₃ he.1, he.2⟩

/-- The content of a paragraph does not show around it. -/
theorem quiet_paragraph {tag : Tag} {inner inner' rest : Content}
    (h : tag.name = Names.paragraph) :
    Quiet (.element tag inner rest) (.element tag inner' rest) := by
  intro run hf
  rw [firm_paragraph h] at hf
  refine ⟨(firm_paragraph h).2 hf, ?_, ?_⟩ <;> simp only [segmentsIn_paragraph h]
  exact id

theorem quiet_insertBehindText {tag : Tag} {inner rest : Content} {new : Element}
    (h : new.tag.name = Names.paragraph) :
    Quiet (.element tag inner rest) (.element tag inner (rest.insertBehindText new)) := by
  intro run ⟨hs, hi, hf⟩
  refine ⟨⟨hs, hi, (firm_insertBehindText h).2 hf⟩, ?_, ?_⟩ <;>
    simp only [segmentsIn, segmentsIn_insertBehindText h]
  exact id

/-- A paragraph, a row or a table takes nothing with it that is shown around it. -/
theorem quiet_erase {tag : Tag} {inner rest : Content}
    (h : tag.name ∈ [Names.paragraph, Names.row, Names.table]) :
    Quiet (.element tag inner rest) rest.dropText := by
  intro run hf
  have hs : segmentsIn run (.element tag inner rest) = segmentsIn run rest := by
    have hn : tag.name ∉ Names.showing := by
      simp only [List.mem_cons, List.not_mem_nil, or_false] at h
      rcases h with h | h | h <;> rw [h] <;> decide
    have hr : run.bind (fun r => Segment.of? r tag inner) = none := by
      cases run with
      | none => rfl
      | some r => exact of?_eq_none.2 hn
    by_cases hp : tag.name ∈ Names.concealing
    · simp [segmentsIn, hr, hp]
    · have hd : tag.name ∈ Names.shedding := by
        simp only [List.mem_cons, List.not_mem_nil, or_false] at h
        rcases h with h | h | h
        · exact absurd (h ▸ by decide) hp
        · rw [h]; decide
        · rw [h]; decide
      simp [segmentsIn, hr, hp, (hf.2.1 hp).2 hd]
  refine ⟨firm_dropText.2 hf.2.2, by rw [segmentsIn_dropText, hs], ?_⟩
  rw [segmentsIn_dropText, hs]
  exact id

end MailMerge.Word
