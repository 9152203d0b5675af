import MailMerge.Proofs.Rewritten
import MailMerge.Proofs.Siblings

/-!
# Items of a list

The items that are put behind a list item have its properties and show their lines, whatever their
number is (`Listed.itemsLike`): each one is made like the one before, and the properties of a
paragraph say whether it is in a list, and where (`glyph_of_properties`).
-/

namespace MailMerge.Xml

/-- An element without numbers, prefixes and namespace declarations. -/
def Element.face (e : Element) : Element := ⟨e.tag.face, e.inner.face⟩

namespace Content

theorem children_face : ∀ c : Content, c.face.children = c.children.map Element.face
  | nil => rfl
  | text _ rest | markup _ rest => children_face rest
  | element _ inner rest => by simp [face, children, children_face rest, Element.face]

theorem filter_face (c : Content) (name : Name) :
    c.face.children.filter (fun e => e.tag.name = name) =
      (c.children.filter fun e => e.tag.name = name).map Element.face := by
  rw [children_face, List.filter_map]
  rfl

theorem child?_face (c : Content) (name : Name) :
    c.face.child? name = (c.child? name).map Element.face := by
  rw [child?, children_face, List.find?_map]
  rfl

end Content

end MailMerge.Xml

namespace MailMerge.Word

open MailMerge.Xml MailMerge.Xml.Reader

variable {f f' : Forest} {e e' new : Element} {line : List Char}

/-! ## What the properties say -/

theorem properties_face (c : Content) : properties c.face = (properties c).map Element.face :=
  Content.filter_face c Names.paragraphProperties

theorem child?_properties (c : Content) :
    c.child? Names.paragraphProperties = (properties c).head? := by
  rw [Content.child?, properties, List.head?_filter]

/-- What is looked for in the properties is the same for all paragraphs with these properties. -/
theorem grandchild?_of_properties {c d : Content} (name : Name)
    (h : (properties c).map Element.face = (properties d).map Element.face) :
    (c.grandchild? Names.paragraphProperties name).map Element.face =
      (d.grandchild? Names.paragraphProperties name).map Element.face := by
  have look : ∀ c : Content, (c.grandchild? Names.paragraphProperties name).map Element.face =
      ((properties c).map Element.face).findSome? fun e => e.inner.child? name := by
    intro c
    rw [Content.grandchild?, List.map_findSome?, List.findSome?_map]
    refine congrArg (fun p => List.findSome? p _) (funext fun e => ?_)
    exact (Content.child?_face e.inner name).symm
  rw [look, look, h]

theorem attribute?_of_faces {e e' : Option Element} (h : e.map Element.face = e'.map Element.face)
    (name : Name) : (e.bind fun e => e.tag.attribute? name) = e'.bind fun e => e.tag.attribute? name := by
  have look : ∀ e : Option Element, (e.bind fun e => e.tag.attribute? name) =
      (e.map Element.face).bind fun e => e.tag.attribute? name := by
    rintro (_ | e)
    · rfl
    · exact (Tag.attribute?_face e.tag name).symm
  rw [look e, look e', h]

/-- The place in a list and the style depend on nothing but the properties. -/
theorem glyph_of_properties
    (h : (properties e'.inner).map Element.face = (properties e.inner).map Element.face) :
    Paragraph.glyph e' = Paragraph.glyph e ∧ Paragraph.style e' = Paragraph.style e := by
  have hstyle : Paragraph.style e' = Paragraph.style e :=
    attribute?_of_faces (grandchild?_of_properties Names.style h) Names.value
  refine ⟨?_, hstyle⟩
  have hnumbering := grandchild?_of_properties Names.numbering h
  rw [Paragraph.glyph, Paragraph.glyph, hstyle]
  cases hx : e'.inner.grandchild? Names.paragraphProperties Names.numbering <;>
    cases hy : e.inner.grandchild? Names.paragraphProperties Names.numbering <;>
      rw [hx, hy] at hnumbering
  · cases hnumbering
  · cases hnumbering
  · next x y =>
    have hface : x.face = y.face := Option.some.inj hnumbering
    have hchild : ∀ name, (x.inner.child? name).map Element.face =
        (y.inner.child? name).map Element.face := fun name => by
      rw [← Content.child?_face, ← Content.child?_face]
      exact congrArg (fun e : Element => e.inner.child? name) hface
    have hid := attribute?_of_faces (hchild Names.numberId) Names.value
    have hlevel := hchild Names.level
    simp only [hid]
    split
    · rfl
    · cases hx : x.inner.child? Names.level <;> cases hy : y.inner.child? Names.level <;>
        rw [hx, hy] at hlevel
      · cases hlevel
      · cases hlevel
      · next lx ly =>
        have hvalue : lx.tag.attribute? Names.value = ly.tag.attribute? Names.value :=
          attribute?_of_faces hlevel Names.value
        simp only [hvalue]

/-! ## Items -/

/-- `new` is a paragraph with the first properties of `e` that shows a line. -/
structure ItemLike (e new : Element) (line : List Char) : Prop where
  name : new.tag.name = Names.paragraph
  text : Paragraph.text new = line
  properties : (properties new.inner).map Element.face =
    ((properties e.inner).map Element.face).take 1

theorem ItemLike.glyph (h : ItemLike e new line) (he : (Word.properties e.inner).length ≤ 1) :
    Paragraph.glyph new = Paragraph.glyph e ∧ Paragraph.style new = Paragraph.style e := by
  refine glyph_of_properties ?_
  rw [h.properties, List.take_of_length_le (by simpa using he)]

theorem ItemOf.properties (h : ItemOf e line new) : (properties new.inner).map Element.face =
    ((properties e.inner).map Element.face).take 1 := by
  obtain ⟨copy, formatting, lead, hp, -, hf⟩ := h.inner
  have hrun : ∀ c : Content, Word.properties (newRun lead c) = [] := fun c => by
    have : (newTag Names.run lead).name ≠ Names.paragraphProperties :=
      (by decide : Names.run ≠ Names.paragraphProperties)
    rw [newRun, properties_element, if_neg this]
    rfl
  have hnew : Word.properties (copy ++ if line = [] then .nil else
      newRun lead (formatting ++ textContent lead line)) = Word.properties copy := by
    rw [properties_append]
    split
    · exact List.append_nil _
    · rw [hrun, List.append_nil]
  rw [← properties_face, hf, properties_face, hnew, ← List.map_take]
  rcases hp with ⟨hn, rfl⟩ | ⟨p, hc, tail, hcopy⟩
  · rw [child?_properties, List.head?_eq_none_iff] at hn
    rw [hn]
    rfl
  · have hname : p.tag.name = Names.paragraphProperties := by simpa using List.find?_some hc
    rw [child?_properties] at hc
    rw [← properties_face, hcopy, properties_face, properties_element, if_pos hname]
    obtain ⟨ps, hps⟩ := List.head?_eq_some_iff.1 hc
    rw [hps]
    rfl

/-- An item of a paragraph with legible text and nothing to show in its properties. -/
theorem ItemOf.itemLike (h : ItemOf e line new) (hn : e.inner.ids.Nodup)
    (hl : Legible none e.inner) (hc : ClearProperties e.inner) (hline : '\r' ∉ line) :
    ItemLike e new line := by
  obtain ⟨u, htext, hu⟩ := h.shown hn hl
  refine ⟨h.name, ?_, h.properties⟩
  obtain rfl : u = [] := by
    rcases hu with hu | ⟨p, hp, hname, rfl⟩
    · exact hu
    · rw [hc p (List.mem_filter.2 ⟨hp, by simpa using hname⟩)]
      rfl
  rw [htext, lineFeeds_eq_self hline, List.nil_append]

/-- What has the properties of a paragraph with nothing to show there has nothing either. -/
theorem clearProperties_of_face {c d : Content} {k : Nat} (hd : ClearProperties d)
    (h : (properties c).map Element.face = ((properties d).map Element.face).take k) :
    ClearProperties c := by
  intro q hq
  have hm : q.face ∈ ((properties d).map Element.face).take k := h ▸ List.mem_map_of_mem hq
  obtain ⟨p, hp, hface⟩ := List.mem_map.1 (List.mem_of_mem_take hm)
  have hlook := @looks_of_face none none q.inner p.inner (congrArg Element.inner hface.symm) rfl
  rw [hd p hp, List.map_nil, List.map_eq_nil_iff] at hlook
  exact hlook

theorem ItemLike.trans {mid : Element} {line' : List Char} (h : ItemLike e mid line)
    (h' : ItemLike mid new line') : ItemLike e new line' := by
  refine ⟨h'.name, h'.text, h'.properties.trans ?_⟩
  rw [h.properties, List.take_take]
  rfl

/-- The items behind a paragraph are like it, with a line each, and have new numbers. -/
theorem Listed.itemsLike {lines : List (List Char)} {items : List Element} (hf : f.Numbered)
    (he : f.Has e) (hl : Legible none e.inner) (hc : ClearProperties e.inner)
    (hlines : ∀ line ∈ lines, '\r' ∉ line) (h : Listed e f lines items f') :
    List.Forall₂ (fun line new => ItemLike e new line ∧
      ∀ i ∈ (Content.element new.tag new.inner .nil).ids, f.next ≤ i) lines items := by
  induction h with
  | nil => exact .nil
  | @cons e new f f₁ f' line lines items hi _ ih =>
    have hn : e.inner.ids.Nodup := hf.nodup_inner he
    have hlike := hi.item.itemLike hn hl hc (hlines line List.mem_cons_self)
    refine .cons ⟨hlike, hi.ids⟩ ((ih hi.step.numbered hi.has (hi.item.legible hn hl)
      (clearProperties_of_face hc hi.item.properties)
      fun l hl => hlines l (List.mem_cons_of_mem _ hl)).imp fun l x hx => ?_)
    exact ⟨hlike.trans hx.1, fun i hx' => Nat.le_trans hi.step.next (hx.2 i hx')⟩

end MailMerge.Word
