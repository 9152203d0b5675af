import MailMerge.Xml.Scope
import MailMerge.Word.Span
import MailMerge.Word.Table

/-!
# Editing documents

The edits that a merge consists of, on paragraphs, rows and tables that are named by the numbers of
their elements. An edit that fails leaves what it has done up to there. An edit of an element that
does not exist does nothing.
-/

namespace MailMerge.Word

open MailMerge.Xml

/-- An edit of trees. -/
abbrev Edit := EStateM Error Forest

namespace Edit

/-- What stands around new text in a run, or in a paragraph, where it goes into a new run. -/
def scopeOf (place : Content.Place) : Scope :=
  let scope := Scope.ofElements (place.element :: place.around)
  if place.element.tag.name = Names.run then scope else ⟨[], none⟩ :: scope

/-- The prefix of the main namespace for new text in a run or paragraph. -/
def leadIn (f : Forest) (id : Nat) : Option String :=
  ((f.place? id).bind fun place => (scopeOf place).leadFor? space false).join

/-- Changes the content of a paragraph. Elements without a number get one. -/
def revise (p : Nat) (r : Revision) : Edit Unit :=
  modify fun f => f.update p fun e => { e with inner := r.apply e.inner }

/-- Numbers new content. -/
def number (c : Content) : Edit Content := modifyGet fun f =>
  let (c, next) := c.renumber f.next
  (c, { f with next })

/-- Numbers the new elements of a revision. -/
def numberAll : List (Nat × Change) → Edit (List (Nat × Change))
  | [] => pure []
  | (id, .swap new) :: rest => do
    let new ← number new
    let rest ← numberAll rest
    pure ((id, .swap new) :: rest)
  | change :: rest => do
    let rest ← numberAll rest
    pure (change :: rest)

/-- Does a revision. -/
def perform (p : Nat) (r : Revision) : Edit Unit := do
  let changes ← numberAll r.changes
  let appended ← number r.appended
  revise p { r with changes, appended }

/-- Replaces the characters of a paragraph from `start` to `last`, this one included. Nothing is
replaced, only inserted, if `last` is `start - 1`. -/
def replaceSpan (p : Nat) (start last : Int) (new : List Char) : Edit Unit := do
  let f ← get
  match f.element? p with
  | none => pure ()
  | some e =>
    let segments := Paragraph.segments e
    let total := (shownBy segments).length
    let stop := last + 1
    if start < 0 ∨ stop < start ∨ (total : Int) < stop then throw (.span start last total)
    else if new.all isXmlChar then
      perform p (revision p (leadIn f) start.toNat stop.toNat new segments)
    else do
      perform p (brokenRevision p (leadIn f) start.toNat stop.toNat segments)
      throw .notXmlText

/-- The first child with a name, on its own and as it stands in the given scope, and the characters
behind it. `made` counts the prefixes that have been made up in the document of the copy. -/
def copied (name : Name) (scope : Scope) (made : Nat) : Content → Content × Nat
  | .nil => (.nil, made)
  | .text _ rest => copied name scope made rest
  | .markup _ rest => copied name scope made rest
  | .element tag inner rest =>
    if tag.name = name then
      let (e, made) := (Element.standalone ⟨tag, inner⟩).moveInto scope made
      (.element e.tag e.inner (.text rest.leadingText .nil), made)
    else copied name scope made rest

/-- A new item of a list: a paragraph with the properties of `e`, which shows a text with the
formatting that the first text of `e` has. -/
def newItem (e : Element) (text : List Char) : Element :=
  let lead := some "ns0"
  let scope : Scope := [⟨[⟨lead, space⟩], none⟩]
  let (properties, made) := copied Names.paragraphProperties scope 1 e.inner
  let formatting := match (Paragraph.segments e).find? (·.editable) with
    | some s => match e.inner.place? s.run with
      | some place => (copied Names.runProperties scope made place.element.inner).1
      | none => .nil
    | none => .nil
  let run := if text = [] then .nil else newRun lead (formatting ++ textContent lead text)
  ⟨⟨0, Names.paragraph, lead, [⟨lead, space⟩], []⟩, properties ++ run⟩

/-- Puts a new list item behind a paragraph. Gives its number. -/
def insertItem (p : Nat) (text : List Char) : Edit Nat := do
  let f ← get
  match f.place? p with
  | none => pure p
  | some place =>
    if !text.all isXmlChar then throw .notXmlText
    else if f.isRoot p then throw .besideRoot
    else do
      let origin := f.origin ((place.around.getLast?.map (·.tag.id)).getD p)
      let (e, made) := (newItem place.element text).moveInto (Scope.ofElements place.around)
        (f.madeFor origin)
      match ← number (.element e.tag e.inner .nil) with
      | .element tag inner _ =>
        modify fun f => (f.insertAfter p ⟨tag, inner⟩).setMade origin made
        pure tag.id
      | _ => pure p

/-- The content of a paragraph that is kept when the paragraph is emptied: its properties. -/
def propertiesOf : Content → Content
  | .nil => .nil
  | .text cs rest => .text cs (propertiesOf rest)
  | .markup _ rest => (propertiesOf rest).dropText
  | .element tag inner rest =>
    if tag.name = Names.paragraphProperties then .element tag inner (propertiesOf rest)
    else (propertiesOf rest).dropText

/-- Whether content that must end with a paragraph ends with one other than `p`. -/
def endsWithout (p : Nat) (c : Content) : Bool :=
  let blocks := c.children.filter fun e => e.tag.id ≠ p && e.tag.name ∉ Names.rangeMarkers
  blocks.getLast?.any fun e => e.tag.name = Names.paragraph

/-- Takes a paragraph away, or empties it where a paragraph is needed: at the end of a section, of a
cell, a note, a header, a footer or a text box. Gives whether it is away. -/
def removeParagraph (p : Nat) : Edit Bool := do
  let f ← get
  match f.place? p with
  | some ⟨e, parent :: _⟩ =>
    if Paragraph.endsSection e ||
        (parent.tag.name ∈ Names.endingWithParagraph && !endsWithout p parent.inner) then do
      modify fun f => f.update p fun e => { e with inner := propertiesOf e.inner }
      pure false
    else do
      modify fun f => f.detach p
      pure true
  | _ => pure false

/-- Takes an element away from the one around it. -/
def remove (id : Nat) : Edit Unit := modify fun f =>
  match f.place? id with
  | some ⟨_, _ :: _⟩ => f.detach id
  | _ => f

end Edit

end MailMerge.Word
