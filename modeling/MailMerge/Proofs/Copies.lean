import MailMerge.Proofs.Faces
import MailMerge.Proofs.Tidied

/-!
# New list items

A new list item is made of copies: the properties of the paragraph behind which it goes, and those
of the run that its first text is in. Copies show what the originals show and are as firm
(`looks_of_face`, `firm_of_face`, `legible_of_face`).
-/

namespace MailMerge.Word

open MailMerge.Xml

/-- What a segment looks like: its characters, and whether they can be edited. -/
def Segment.look (s : Segment) : List Char × Bool := (s.chars, s.editable)

theorem of?_face {r r' : Nat} {tag : Tag} {inner : Content} :
    (Segment.of? r' tag.face inner.face).map Segment.look =
      (Segment.of? r tag inner).map Segment.look := by
  by_cases h₁ : tag.name = Names.text
  · simp [Segment.of?, h₁, Content.leadingText_face, Segment.look]
  by_cases h₂ : tag.name = Names.tab
  · have : Names.tab ≠ Names.text := by decide
    simp [Segment.of?, h₂, this, Segment.look]
  by_cases h₃ : tag.name = Names.lineBreak ∨ tag.name = Names.carriageReturn
  · simp [Segment.of?, h₁, h₂, h₃, Segment.look]
  · simp [Segment.of?, h₁, h₂, h₃]

theorem runOf_face (tag : Tag) : (runOf tag.face).isSome = (runOf tag).isSome := by
  by_cases h : tag.name = Names.run <;> simp [runOf, h]

theorem looks_face : ∀ {run run' : Option Nat} (c : Content), run'.isSome = run.isSome →
    (segmentsIn run' c.face).map Segment.look = (segmentsIn run c).map Segment.look
  | _, _, .nil, _ => rfl
  | _, _, .text _ rest, h | _, _, .markup _ rest, h => looks_face rest h
  | run, run', .element tag inner rest, h => by
    have head : (run'.bind fun r => Segment.of? r tag.face inner.face).toList.map Segment.look =
        (run.bind fun r => Segment.of? r tag inner).toList.map Segment.look := by
      rcases run with _ | r <;> rcases run' with _ | r'
      · rfl
      · cases h
      · cases h
      · simp only [Option.bind_some, ← Option.toList_map, of?_face (r := r)]
    have hi : (if tag.face.name ∈ Names.concealing then [] else
        segmentsIn (runOf tag.face) inner.face).map Segment.look = (if tag.name ∈ Names.concealing
          then [] else segmentsIn (runOf tag) inner).map Segment.look := by
      by_cases hc : tag.name ∈ Names.concealing
      · simp [hc]
      · simpa [hc] using looks_face inner (runOf_face tag)
    simp only [Content.face, segmentsIn, List.map_append, head, hi, looks_face rest h]

theorem firm_face : ∀ {run run' : Option Nat} (c : Content), run'.isSome = run.isSome →
    (Firm run' c.face ↔ Firm run c)
  | _, _, .nil, _ => Iff.rfl
  | _, _, .text _ rest, h | _, _, .markup _ rest, h => firm_face rest h
  | run, run', .element tag inner rest, h => by
    have hi : inner.face.elements = [] ↔ inner.elements = [] := by
      simp [Content.elements_face]
    have hs : segmentsIn (runOf tag.face) inner.face = [] ↔ segmentsIn (runOf tag) inner = [] := by
      rw [← List.map_eq_nil_iff (f := Segment.look), looks_face inner (runOf_face tag),
        List.map_eq_nil_iff]
    have hn : tag.face.name = tag.name := rfl
    simp only [Content.face, Firm, h, hi, hs, hn, firm_face inner (runOf_face tag), firm_face rest h]

theorem legible_face : ∀ {run run' : Option Nat} (c : Content), run'.isSome = run.isSome →
    (Legible run' c.face ↔ Legible run c)
  | _, _, .nil, _ => Iff.rfl
  | _, _, .text _ rest, h | _, _, .markup _ rest, h => legible_face rest h
  | run, run', .element tag inner rest, h => by
    have hi : inner.face.elements = [] ↔ inner.elements = [] := by
      simp [Content.elements_face]
    have hs : segmentsIn (runOf tag.face) inner.face = [] ↔ segmentsIn (runOf tag) inner = [] := by
      rw [← List.map_eq_nil_iff (f := Segment.look), looks_face inner (runOf_face tag),
        List.map_eq_nil_iff]
    have hn : tag.face.name = tag.name := rfl
    simp only [Content.face, Legible, h, hi, hs, hn, legible_face inner (runOf_face tag),
      legible_face rest h]

/-- Copies show the same text. -/
theorem looks_of_face {run run' : Option Nat} {c d : Content} (h : c.face = d.face)
    (hr : run.isSome = run'.isSome) :
    (segmentsIn run c).map Segment.look = (segmentsIn run' d).map Segment.look := by
  rw [← looks_face c (rfl : run.isSome = run.isSome), h, looks_face d hr]

theorem firm_of_face {run run' : Option Nat} {c d : Content} (h : c.face = d.face)
    (hr : run.isSome = run'.isSome) : Firm run c ↔ Firm run' d := by
  rw [← firm_face c (rfl : run.isSome = run.isSome), h, firm_face d hr]

theorem legible_of_face {run run' : Option Nat} {c d : Content} (h : c.face = d.face)
    (hr : run.isSome = run'.isSome) : Legible run c ↔ Legible run' d := by
  rw [← legible_face c (rfl : run.isSome = run.isSome), h, legible_face d hr]

theorem shownBy_eq (segments : List Segment) :
    shownBy segments = (segments.map Segment.look).flatMap Prod.fst := by
  simp [shownBy, List.flatMap_map, Segment.look]

theorem shownBy_of_face {run run' : Option Nat} {c d : Content} (h : c.face = d.face)
    (hr : run.isSome = run'.isSome) :
    shownBy (segmentsIn run c) = shownBy (segmentsIn run' d) := by
  rw [shownBy_eq, shownBy_eq, looks_of_face h hr]

/-! ## What is copied -/

theorem copied_face (name : Name) (scope : Scope) : ∀ (made : Nat) (c : Content),
    (c.child? name = none → (Edit.copied name scope made c).1 = .nil) ∧
      ∀ e, c.child? name = some e → ∃ tail,
        (Edit.copied name scope made c).1.face = (Content.element e.tag e.inner (.text tail .nil)).face
  | made, .nil => ⟨fun _ => rfl, fun _ h => by cases h⟩
  | made, .text _ rest | made, .markup _ rest => copied_face name scope made rest
  | made, .element tag inner rest => by
    by_cases h : tag.name = name
    · refine ⟨fun hn => ?_, fun e he => ?_⟩
      · simp [Content.child?, Content.children, h] at hn
      · have he : (⟨tag, inner⟩ : Element) = e := by
          simpa [Content.child?, Content.children, h] using he
        subst he
        refine ⟨rest.leadingText, ?_⟩
        simp only [Edit.copied, h, if_true]
        rw [Element.face_moveInto, Element.face_standalone]
    · have hr := copied_face name scope made rest
      simpa [Content.child?, Content.children, h, Edit.copied] using hr

/-- The run that the first text of a paragraph is in. -/
def firstRun? (e : Element) : Option Element :=
  ((Paragraph.segments e).find? (·.editable)).bind fun s =>
    (e.inner.place? s.run).map (·.element)

/-- Whether content is a copy of the first child of an element with a name, or empty if there is
none. -/
def CopyOf (name : Name) (e : Element) (c : Content) : Prop :=
  e.inner.child? name = none ∧ c = .nil ∨ ∃ p, e.inner.child? name = some p ∧
    ∃ tail, c.face = (Content.element p.tag p.inner (.text tail .nil)).face

theorem CopyOf.cases {name : Name} {e : Element} {c : Content} (h : CopyOf name e c) :
    c = .nil ∨ ∃ p ∈ e.inner.children, p.tag.name = name ∧
      ∃ tail, c.face = (Content.element p.tag p.inner (.text tail .nil)).face := by
  rcases h with ⟨-, rfl⟩ | ⟨p, hc, hf⟩
  · exact .inl rfl
  · have hn : p.tag.name = name := by simpa using List.find?_some hc
    exact .inr ⟨p, List.mem_of_find?_eq_some hc, hn, hf⟩

theorem copyOf_copied (name : Name) (scope : Scope) (made : Nat) (e : Element) :
    CopyOf name e (Edit.copied name scope made e.inner).1 := by
  obtain ⟨h₁, h₂⟩ := copied_face name scope made e.inner
  rcases hc : e.inner.child? name with _ | p
  · exact .inl ⟨hc, h₁ hc⟩
  · exact .inr ⟨p, hc, h₂ p hc⟩

/-- Whether content is a copy of the properties of the first run, or empty if there are none. -/
def FormattingOf (e : Element) (c : Content) : Prop :=
  firstRun? e = none ∧ c = .nil ∨
    ∃ r, firstRun? e = some r ∧ CopyOf Names.runProperties r c

/-- What a list item consists of, but for numbers and prefixes: a copy of the properties of the
paragraph, and a run with a copy of the properties of its first run and with the new text. -/
theorem newItem_face (e : Element) (cs : List Char) (scope : Scope) (made : Nat) :
    ∃ (properties formatting : Content) (lead : Option String),
      CopyOf Names.paragraphProperties e properties ∧
        FormattingOf e formatting ∧
          (Content.element ((Edit.newItem e cs).moveInto scope made).1.tag
            ((Edit.newItem e cs).moveInto scope made).1.inner .nil).face =
              (Content.element (newTag Names.paragraph none) (properties ++ if cs = [] then .nil else
                newRun lead (formatting ++ textContent lead cs)) .nil).face := by
  simp only [Element.face_moveInto]
  unfold Edit.newItem
  simp only
  refine ⟨_, _, some "ns0", copyOf_copied _ _ 1 e, ?_, rfl⟩
  rcases hs : (Paragraph.segments e).find? (·.editable) with _ | s
  · exact .inl ⟨by simp [firstRun?, hs], by simp only [hs]⟩
  · rcases hp : e.inner.place? s.run with _ | place
    · exact .inl ⟨by simp [firstRun?, hs, hp], by simp only [hs, hp]⟩
    · exact .inr ⟨place.element, by simp [firstRun?, hs, hp],
        by simpa only [hs, hp] using copyOf_copied _ _ _ _⟩

end MailMerge.Word
