import Mathlib.Data.List.Range
import MailMerge.Proofs.Trails
import MailMerge.Xml.Scope

/-!
# Copies

A copy of content has other numbers and other prefixes than the original. Both have the same face:
the content without numbers, prefixes and namespace declarations. Numbering content anew and moving
it to another place does not change its face, and what does not depend on numbers and prefixes can
be read off the face.
-/

namespace MailMerge.Xml

def Tag.face (tag : Tag) : Tag :=
  ⟨0, tag.name, none, [], tag.attributes.map fun a => { a with lead := none }⟩

@[simp] theorem Tag.face_name (tag : Tag) : tag.face.name = tag.name := rfl

theorem Tag.attribute?_face (tag : Tag) (name : Name) :
    tag.face.attribute? name = tag.attribute? name := by
  simp only [Tag.attribute?, Tag.face, List.find?_map, Option.map_map]
  rfl

namespace Content

/-- Content without numbers, prefixes and namespace declarations. -/
def face : Content → Content
  | nil => nil
  | text cs rest => text cs rest.face
  | markup m rest => markup m rest.face
  | element tag inner rest => element tag.face inner.face rest.face

theorem elements_face : ∀ c : Content,
    c.face.elements = c.elements.map fun e => ⟨e.tag.face, e.inner.face⟩
  | nil => rfl
  | text _ rest | markup _ rest => elements_face rest
  | element _ inner rest => by simp [face, elements, elements_face inner, elements_face rest]

theorem leadingText_face : ∀ c : Content, c.face.leadingText = c.leadingText
  | nil => rfl
  | text _ rest => by simp [face, leadingText, leadingText_face rest]
  | markup _ _ => rfl
  | element _ _ _ => rfl

theorem eq_nil_of_face {c : Content} (h : c.face = nil.face) : c = nil := by
  cases c with
  | nil => rfl
  | text _ _ | markup _ _ | element _ _ _ => simp [face] at h

theorem eq_element_of_face {tag : Tag} {c inner rest : Content}
    (h : c.face = (element tag inner rest).face) : ∃ tag' inner' rest',
      c = element tag' inner' rest' ∧ tag'.name = tag.name ∧ inner'.face = inner.face ∧
        rest'.face = rest.face := by
  cases c with
  | nil | text _ _ | markup _ _ => simp [face] at h
  | element tag' inner' rest' =>
    simp only [face, element.injEq] at h
    exact ⟨tag', inner', rest', rfl, by simpa using congrArg Tag.name h.1, h.2⟩

/-! ## Numbering anew -/

theorem renumber_spec : ∀ (c : Content) (n : Nat), (c.renumber n).1.face = c.face ∧
    (c.renumber n).1.ids = List.range' n c.ids.length ∧ (c.renumber n).2 = n + c.ids.length
  | nil, n => ⟨rfl, rfl, rfl⟩
  | text cs rest, n => by
    obtain ⟨h₁, h₂, h₃⟩ := renumber_spec rest n
    exact ⟨by simp [renumber, face, h₁], h₂, h₃⟩
  | markup m rest, n => by
    obtain ⟨h₁, h₂, h₃⟩ := renumber_spec rest n
    exact ⟨by simp [renumber, face, h₁], h₂, h₃⟩
  | element tag inner rest, n => by
    obtain ⟨i₁, i₂, i₃⟩ := renumber_spec inner (n + 1)
    obtain ⟨r₁, r₂, r₃⟩ := renumber_spec rest (n + 1 + inner.ids.length)
    refine ⟨by simp [renumber, face, Tag.face, i₁, i₃, r₁], ?_, ?_⟩
    · simp only [renumber, i₃, ids_element, i₂, r₂, List.length_cons, List.length_append,
        List.range'_succ]
      rw [← List.range'_append_1]
    · simp only [renumber, i₃, r₃, ids_element, List.length_cons, List.length_append]
      omega

theorem face_renumber (c : Content) (n : Nat) : (c.renumber n).1.face = c.face :=
  (renumber_spec c n).1

theorem ids_renumber (c : Content) (n : Nat) :
    (c.renumber n).1.ids = List.range' n c.ids.length := (renumber_spec c n).2.1

theorem renumber_next (c : Content) (n : Nat) : (c.renumber n).2 = n + c.ids.length :=
  (renumber_spec c n).2.2

theorem mem_ids_renumber {c : Content} {n i : Nat} :
    i ∈ (c.renumber n).1.ids ↔ n ≤ i ∧ i < (c.renumber n).2 := by
  rw [ids_renumber, renumber_next, List.mem_range'_1]

theorem nodup_renumber (c : Content) (n : Nat) : (c.renumber n).1.ids.Nodup := by
  rw [ids_renumber]
  exact List.nodup_range'

end Content

/-! ## Moving -/

namespace Moving

theorem face_moveAttributes (here : Inside) : ∀ (as : List Attribute) (m : Moving),
    ((moveAttributes here m as).2.map fun a => { a with lead := none }) =
      as.map fun a => { a with lead := none }
  | [], _ => rfl
  | a :: rest, m => by
    simp only [moveAttributes, List.map_cons]
    rw [face_moveAttributes here rest]

theorem face_moveTag (here : Inside) (m : Moving) (tag : Tag) (ds : List Declaration) :
    (moveTag here m tag ds).2.face = tag.face := by
  simp only [moveTag, Tag.face, face_moveAttributes]

theorem face_moveContent : ∀ (here : Inside) (m : Moving) (c : Content),
    (moveContent here m c).2.face = c.face
  | _, _, .nil => rfl
  | here, m, .text cs rest => by simp [moveContent, Content.face, face_moveContent here m rest]
  | here, m, .markup k rest => by simp [moveContent, Content.face, face_moveContent here m rest]
  | here, m, .element tag inner rest => by
    simp only [moveContent, Content.face]
    rw [face_moveTag, face_moveContent, face_moveContent]

end Moving

theorem Element.face_moveInto (e : Element) (scope : Scope) (made : Nat) (rest : Content) :
    (Content.element (e.moveInto scope made).1.tag (e.moveInto scope made).1.inner rest).face =
      (Content.element e.tag e.inner rest).face := by
  have declared : ∀ (t : Tag) ds, Tag.face { t with declarations := ds } = t.face := fun _ _ => rfl
  simp only [moveInto, Content.face, declared, Moving.face_moveTag, Moving.face_moveContent]

theorem Element.face_standalone (e : Element) (rest : Content) :
    (Content.element e.standalone.tag e.standalone.inner rest).face =
      (Content.element e.tag e.inner rest).face := rfl

end MailMerge.Xml

namespace MailMerge.Word

open MailMerge.Xml

/-! ## Trails of copies -/

/-- A key without the number. -/
def Key.face (k : Key) : Key := { k with id := 0 }

theorem key_face (tag : Tag) : key tag.face = (key tag).face := by
  by_cases h : tag.name = Names.text <;> simp [key, Tag.face, Key.face, h]

theorem trails_face (a : List Key) : ∀ c : Content,
    trails (a.map Key.face) c.face = (trails a c).map (List.map Key.face)
  | .nil => rfl
  | .text _ rest | .markup _ rest => trails_face a rest
  | .element tag inner rest => by
    have hi := trails_face (key tag :: a) inner
    simp only [List.map_cons] at hi
    simp [Content.face, trails, key_face, hi, trails_face a rest]

theorem trails_eq_append (a : List Key) : ∀ (b : List Key) (c : Content),
    trails (b ++ a) c = (trails b c).map (· ++ a)
  | _, .nil => rfl
  | b, .text _ rest | b, .markup _ rest => trails_eq_append a b rest
  | b, .element tag inner rest => by
    have hi := trails_eq_append a (key tag :: b) inner
    simp only [List.cons_append] at hi
    simp [trails, hi, trails_eq_append a b rest]

/-- A trail in a copy is one of the original but for the numbers. -/
theorem exists_trail_of_face {a b : List Key} {c d : Content} (h : c.face = d.face) {t : List Key}
    (ht : t ∈ trails a c) : ∃ u u', t = u ++ a ∧ u' ++ b ∈ trails b d ∧
      u.map Key.face = u'.map Key.face := by
  have hc := trails_eq_append a [] c
  have hd := trails_eq_append b [] d
  simp only [List.nil_append] at hc hd
  obtain ⟨u, hu, rfl⟩ := List.mem_map.1 (hc ▸ ht)
  have hf := trails_face [] c
  rw [h, trails_face [] d] at hf
  obtain ⟨u', hu', he⟩ := List.mem_map.1 (hf ▸ List.mem_map_of_mem hu)
  exact ⟨u, u', rfl, hd ▸ List.mem_map_of_mem hu', he.symm⟩

end MailMerge.Word
