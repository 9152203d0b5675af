import MailMerge.Text.Lines
import MailMerge.Text.Blank
import MailMerge.Xml.Character
import MailMerge.Word.Paragraph

/-!
# Replacing a span of text

A span of a paragraph's text is replaced by changing the elements that show it, and no others: text
elements are shortened, tabs and line breaks in the span go away. The new text goes where the first
character of the span was, so it is formatted as that character was. What is to be done is known
from the segments alone, before anything is changed.
-/

namespace MailMerge.Word

open MailMerge.Xml

/-- How text is written in a run. -/
inductive Inline where
  | tab
  | lineBreak
  | chars (cs : List Char)
deriving DecidableEq

/-- The elements that a text is written with. -/
def inlines : List Char → List Inline
  | [] => []
  | '\r' :: '\n' :: rest => .lineBreak :: inlines rest
  | c :: rest =>
    if c = '\t' then .tab :: inlines rest
    else if Text.isLineEnd c then .lineBreak :: inlines rest
    else match inlines rest with
      | .chars cs :: more => .chars (c :: cs) :: more
      | more => .chars [c] :: more

/-- A tag of the main namespace, without a number yet. -/
def newTag (name : Name) (lead : Option String) : Tag := ⟨0, name, lead, [], []⟩

/-- Marks the blanks of a text element as part of the text. -/
def Tag.keepBlanks (tag : Tag) : Tag :=
  tag.setAttribute ⟨xmlSpace, "space"⟩ (some "xml") "preserve"

/-- An element with new text in front of the elements in it. -/
def withText (cs : List Char) (e : Element) : Element :=
  ⟨if Text.blankEdged cs then Tag.keepBlanks e.tag else e.tag, .text cs e.inner.dropText⟩

def Inline.node (lead : Option String) : Inline → Node
  | tab => .element ⟨newTag Names.tab lead, .nil⟩
  | lineBreak => .element ⟨newTag Names.lineBreak lead, .nil⟩
  | chars cs => .element (withText cs ⟨newTag Names.text lead, .nil⟩)

/-- The content of a run that shows a text. -/
def textContent (lead : Option String) (cs : List Char) : Content :=
  .ofList ((inlines cs).map (·.node lead))

/-- What happens to an element that shows text: it gets other text, or other content stands in its
place and in that of the characters behind it. -/
inductive Change where
  | retext (cs : List Char)
  | swap (new : Content)
deriving DecidableEq

/-- Changes elements by their numbers. -/
def changed (changes : List (Nat × Change)) : Content → Content
  | .nil => .nil
  | .text cs rest => .text cs (changed changes rest)
  | .markup m rest => .markup m (changed changes rest)
  | .element tag inner rest =>
    match changes.lookup tag.id with
    | some (.swap new) => new ++ (changed changes rest).dropText
    | some (.retext cs) =>
      let e := withText cs ⟨tag, changed changes inner⟩
      .element e.tag e.inner (changed changes rest)
    | none => .element tag (changed changes inner) (changed changes rest)

/-- The segments that show characters from `start` up to `stop`, the first segment beginning at
`pos`, each with what it keeps. -/
def cut (start stop pos : Nat) : List Segment → List (Segment × Change)
  | [] => []
  | s :: rest =>
    let next := pos + s.chars.length
    let first := max start pos
    let behind := min stop next
    if first < behind then
      let change := if s.editable then
        .retext (s.chars.take (first - pos) ++ s.chars.drop (behind - pos)) else .swap .nil
      (s, change) :: cut start stop next rest
    else cut start stop next rest

/-- Where new text goes: in a segment, between the parts of its text that stay, or in a run of its
own behind all else. -/
inductive Target where
  | segment (s : Segment) (before after : List Char)
  | behind
deriving DecidableEq

/-- The text element that the character at `start` is in, or the first one that ends there if
nothing is replaced. -/
def anchor? (start stop pos : Nat) : List Segment → Option Target
  | [] => none
  | s :: rest =>
    let next := pos + s.chars.length
    if s.editable && pos ≤ start && (start < next || (start = stop && start = next)) then
      some (.segment s (s.chars.take (start - pos)) (s.chars.drop (min stop next - pos)))
    else anchor? start stop next rest

/-- Where the text goes that replaces the characters from `start` up to `stop`. -/
def target (start stop : Nat) (segments : List Segment) : Target :=
  match anchor? start stop 0 segments with
  | some t => t
  | none => match cut start stop 0 segments with
    | (s, _) :: _ => .segment s [] []
    | [] => .behind

/-- What a replacement comes to: the changes by the numbers of the elements, what comes behind all
else in the paragraph, and the runs that have lost text, which may have nothing left. -/
structure Revision where
  changes : List (Nat × Change)
  appended : Content
  touched : List Nat
deriving DecidableEq

/-- The run that a text goes into if no other one does. -/
def newRun (lead : Option String) (inner : Content) : Content :=
  .element (newTag Names.run lead) inner .nil

/-- How the characters from `start` up to `stop` are replaced. `lead` gives the prefix for new
elements in the element with a number, that of the paragraph being `p`. -/
def revision (p : Nat) (lead : Nat → Option String) (start stop : Nat) (new : List Char)
    (segments : List Segment) : Revision :=
  let cuts := cut start stop 0 segments
  let changes := cuts.map fun (s, change) => (s.node, change)
  let touched := (cuts.map (·.1.run)).eraseDups
  if new = [] then ⟨changes, .nil, touched⟩
  else match target start stop segments with
    | .segment s before after =>
      let swap := .swap (textContent (lead s.run) (before ++ new ++ after))
      ⟨(s.node, swap) :: changes, .nil, touched⟩
    | .behind => ⟨changes, newRun (lead p) (textContent (lead p) new), touched⟩

/-- What is done of a replacement whose new text cannot be written: the span is cut out, and where
no text element is there to take the new text, an empty one is made. -/
def brokenRevision (p : Nat) (lead : Nat → Option String) (start stop : Nat)
    (segments : List Segment) : Revision :=
  let changes := (cut start stop 0 segments).map fun (s, change) => (s.node, change)
  let made (lead : Option String) : Content := .element (newTag Names.text lead) .nil .nil
  match target start stop segments with
  | .segment s _ _ =>
    ⟨if s.editable then changes else (s.node, .swap (made (lead s.run))) :: changes, .nil, []⟩
  | .behind => ⟨changes, newRun (lead p) (made (lead p)), []⟩

/-- The content of a run without its empty text elements. -/
def withoutEmptyText : Content → Content
  | .nil => .nil
  | .text cs rest => .text cs (withoutEmptyText rest)
  | .markup m rest => .markup m (withoutEmptyText rest)
  | .element tag inner rest =>
    if tag.name = Names.text && inner.leadingText = [] then (withoutEmptyText rest).dropText
    else .element tag inner (withoutEmptyText rest)

/-- Whether content has nothing but run properties. -/
def isBare : Content → Bool
  | .nil => true
  | .text _ rest => isBare rest
  | .markup _ _ => false
  | .element tag _ rest => tag.name = Names.runProperties && isBare rest

/-- Drops the empty text elements of a run, and the run if nothing is left in it. -/
def tidy (run : Nat) (c : Content) : Content :=
  match c.place? run with
  | some place =>
    let inner := withoutEmptyText place.element.inner
    if isBare inner then c.erase run else c.update run fun e => { e with inner }
  | none => c

/-- The content of a paragraph after a replacement. -/
def Revision.apply (r : Revision) (c : Content) : Content :=
  r.touched.foldl (fun c run => tidy run c) (changed r.changes c ++ r.appended)

end MailMerge.Word
