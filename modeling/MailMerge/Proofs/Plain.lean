import MailMerge.Proofs.Stories

/-!
# Trees without numbers

A tree that is written and read again has other numbers, and characters that were next to each other
are in one piece. All else is in its plain form, and what is looked at in a tree can be read off
that: elements and their attributes, the references of the sections, and the text of paragraphs.
-/

namespace MailMerge

open Xml

namespace Xml

def Tag.plain (tag : Tag) : Tag := { tag with id := 0 }

@[simp] theorem Tag.plain_name (tag : Tag) : tag.plain.name = tag.name := rfl

@[simp] theorem Tag.plain_attribute? (tag : Tag) (name : Name) :
    tag.plain.attribute? name = tag.attribute? name := rfl

namespace Content

/-- Puts characters in front of content, in one piece with those in front of it. -/
def joinText (cs : List Char) : Content → Content
  | text ds rest => text (cs ++ ds) rest
  | c => if cs = [] then c else text cs c

/-- Content without numbers, with its characters in pieces as large as can be. -/
def plain : Content → Content
  | nil => nil
  | text cs rest => joinText cs rest.plain
  | markup m rest => markup m rest.plain
  | element tag inner rest => element tag.plain inner.plain rest.plain

theorem joinText_cases (cs : List Char) (c : Content) :
    (∃ ds rest, c = text ds rest ∧ joinText cs c = text (cs ++ ds) rest) ∨
      joinText cs c = text cs c ∨ cs = [] ∧ joinText cs c = c := by
  cases c with
  | text ds rest => exact .inl ⟨ds, rest, rfl, rfl⟩
  | nil | markup _ _ | element _ _ _ =>
    by_cases h : cs = []
    · exact .inr (.inr ⟨h, by simp [joinText, h]⟩)
    · exact .inr (.inl (by simp [joinText, h]))

@[simp]
theorem elements_joinText (cs : List Char) (c : Content) :
    (joinText cs c).elements = c.elements := by
  obtain ⟨ds, rest, rfl, h⟩ | h | ⟨-, h⟩ := joinText_cases cs c <;> rw [h] <;> rfl

@[simp]
theorem children_joinText (cs : List Char) (c : Content) :
    (joinText cs c).children = c.children := by
  obtain ⟨ds, rest, rfl, h⟩ | h | ⟨-, h⟩ := joinText_cases cs c <;> rw [h] <;> rfl

@[simp]
theorem leadingText_joinText (cs : List Char) (c : Content) :
    (joinText cs c).leadingText = cs ++ c.leadingText := by
  obtain ⟨ds, rest, rfl, h⟩ | h | ⟨rfl, h⟩ := joinText_cases cs c <;> rw [h] <;> simp [leadingText]

end Content

def Element.plain (e : Element) : Element := ⟨e.tag.plain, e.inner.plain⟩

@[simp] theorem Element.plain_tag (e : Element) : e.plain.tag = e.tag.plain := rfl

@[simp] theorem Element.plain_inner (e : Element) : e.plain.inner = e.inner.plain := rfl

namespace Content

theorem elements_plain : ∀ c : Content, c.plain.elements = c.elements.map Element.plain
  | nil => rfl
  | text _ rest => by simp [plain, elements, elements_plain rest]
  | markup _ rest => elements_plain rest
  | element _ inner rest => by
    simp [plain, elements, elements_plain inner, elements_plain rest, Element.plain]

theorem children_plain : ∀ c : Content, c.plain.children = c.children.map Element.plain
  | nil => rfl
  | text _ rest => by simp [plain, children, children_plain rest]
  | markup _ rest => children_plain rest
  | element _ _ rest => by simp [plain, children, children_plain rest, Element.plain]

theorem leadingText_plain : ∀ c : Content, c.plain.leadingText = c.leadingText
  | nil => rfl
  | text _ rest => by simp [plain, leadingText, leadingText_plain rest]
  | markup _ _ => rfl
  | element _ _ _ => rfl

theorem child?_plain (c : Content) (name : Name) :
    c.plain.child? name = (c.child? name).map Element.plain := by
  rw [child?, children_plain, List.find?_map]
  rfl

theorem named_plain (c : Content) (name : Name) :
    c.plain.named name = (c.named name).map Element.plain := by
  rw [named, elements_plain, List.filter_map]
  rfl

theorem renumber_plain : ∀ (c : Content) (n : Nat), (c.renumber n).1.plain = c.plain
  | nil, _ => rfl
  | text _ rest, n => by simp [renumber, plain, renumber_plain rest n]
  | markup _ rest, n => by simp [renumber, plain, renumber_plain rest n]
  | element _ inner rest, n => by
    simp [renumber, plain, renumber_plain inner, renumber_plain rest, Tag.plain]

end Content

theorem Element.renumber_plain (e : Element) (n : Nat) : (e.renumber n).1.plain = e.plain := by
  simp [Element.renumber, Element.plain, Content.renumber_plain, Tag.plain]

end Xml

namespace Word

theorem of?_chars {r r' : Nat} {tag tag' : Tag} {inner inner' : Content}
    (hn : tag'.name = tag.name) (hl : inner'.leadingText = inner.leadingText) :
    (Segment.of? r' tag' inner').map (·.chars) = (Segment.of? r tag inner).map (·.chars) := by
  unfold Segment.of?
  rw [hn, hl]
  split_ifs <;> rfl

/-- What runs show does not depend on their numbers. -/
theorem shownBy_plain : ∀ (c : Content) (run run' : Option Nat), run.isSome = run'.isSome →
    shownBy (segmentsIn run c.plain) = shownBy (segmentsIn run' c)
  | .nil, _, _, _ => rfl
  | .text cs rest, run, run', h => by
    have hj : segmentsIn run (rest.plain.joinText cs) = segmentsIn run rest.plain := by
      obtain ⟨ds, rest', h₁, h₂⟩ | h₂ | ⟨-, h₂⟩ := Content.joinText_cases cs rest.plain
      · rw [h₂, h₁]
        rfl
      · rw [h₂]
        rfl
      · rw [h₂]
    rw [Content.plain, hj]
    exact shownBy_plain rest run run' h
  | .markup _ rest, run, run', h => shownBy_plain rest run run' h
  | .element tag inner rest, run, run', h => by
    have hi := shownBy_plain inner (runOf tag.plain) (runOf tag) (by
      unfold runOf
      rw [Tag.plain_name]
      split <;> rfl)
    have hr := shownBy_plain rest run run' h
    have hs : shownBy (run.bind fun r => Segment.of? r tag.plain inner.plain).toList =
        shownBy (run'.bind fun r => Segment.of? r tag inner).toList := by
      have chars : ∀ s : Option Segment, shownBy s.toList = (s.map (·.chars)).getD [] := by
        rintro (_ | s) <;> simp [shownBy]
      rw [chars, chars]
      cases run <;> cases run'
      · rfl
      · cases h
      · cases h
      · exact congrArg (Option.getD · []) (of?_chars rfl (Content.leadingText_plain inner))
    simp only [Content.plain, segmentsIn, shownBy_append, hs, hr]
    by_cases hc : tag.name ∈ Names.concealing <;> simp [hc, hi]

theorem text_plain (p : Element) : Paragraph.text p.plain = Paragraph.text p :=
  shownBy_plain p.inner none none rfl

end Word

namespace Document

theorem references_plain (root : Element) (base : String) :
    references root.plain base = (references root base).map Element.plain := by
  have hroot : (Content.element root.plain.tag root.plain.inner .nil) =
      (Content.element root.tag root.inner .nil).plain := rfl
  rw [references, hroot, Content.named_plain, references, List.flatMap_map, List.map_flatMap]
  refine congrArg (List.flatMap · _) (funext fun e => ?_)
  rw [Element.plain_inner, Content.children_plain, List.filter_map]
  rfl

end Document

end MailMerge
