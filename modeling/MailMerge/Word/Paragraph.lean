import MailMerge.Error
import MailMerge.Xml.Forest
import MailMerge.Word.Names

/-!
# Paragraphs

The text of a paragraph is spread over runs, which hold text elements, tabs and line breaks. The
segments of a paragraph are those of its own runs: runs in tracked deletions and runs of paragraphs
inside of it, as in text boxes, are left out.
-/

namespace MailMerge.Word

open MailMerge.Xml

/-- An element that shows text: its number and that of its run, its characters, and whether these
are kept in it or stand for the element itself. -/
structure Segment where
  node : Nat
  run : Nat
  chars : List Char
  editable : Bool
deriving DecidableEq

namespace Segment

/-- The segment that an element in a run is, if it shows text. -/
def of? (run : Nat) (tag : Tag) (inner : Content) : Option Segment :=
  if tag.name = Names.text then some ⟨tag.id, run, inner.leadingText, true⟩
  else if tag.name = Names.tab then some ⟨tag.id, run, ['\t'], false⟩
  else if tag.name = Names.lineBreak ∨ tag.name = Names.carriageReturn then
    some ⟨tag.id, run, ['\n'], false⟩
  else none

end Segment

/-- The run that what stands in an element belongs to. -/
def runOf (tag : Tag) : Option Nat := if tag.name = Names.run then some tag.id else none

/-- The segments of content in document order. `run` is the run that the content stands in. -/
def segmentsIn (run : Option Nat) : Content → List Segment
  | .nil => []
  | .text _ rest => segmentsIn run rest
  | .markup _ rest => segmentsIn run rest
  | .element tag inner rest =>
    (run.bind fun r => Segment.of? r tag inner).toList ++
      (if tag.name ∈ Names.concealing then [] else segmentsIn (runOf tag) inner) ++
      segmentsIn run rest

theorem segmentsIn_append (run : Option Nat) (c d : Content) :
    segmentsIn run (c ++ d) = segmentsIn run c ++ segmentsIn run d := by
  induction c with
  | nil => rfl
  | text _ _ ih => simpa [segmentsIn] using ih
  | markup _ _ ih => simpa [segmentsIn] using ih
  | element _ _ _ _ ih => simp [segmentsIn, ih]

/-- The characters that segments show. -/
def shownBy (segments : List Segment) : List Char := segments.flatMap (·.chars)

theorem shownBy_append (s t : List Segment) : shownBy (s ++ t) = shownBy s ++ shownBy t := by
  simp [shownBy]

/-- The place of a list item: its list, its level and its style. -/
structure Glyph where
  listId : Option String
  level : Int
  style : Option String
deriving DecidableEq

namespace Glyph

def optionText (s : Option String) : String :=
  match s with
  | some s => String.ofList (Text.quoted (points s.toList))
  | none => "None"

def text (g : Glyph) : String :=
  "ListGlyph(num_id=" ++ optionText g.listId ++
    ", level=" ++ String.ofList (Decimal.intText g.level) ++
    ", style=" ++ optionText g.style ++ ")"

end Glyph

/-- Whether a style is a built-in list style: with a number at its end or none, and one line feed
behind that or none. -/
def isListStyle (style : String) : Bool :=
  let cs := style.toList
  let numbered (rest : List Char) : Bool :=
    let behind := rest.dropWhile Text.isDecimal
    behind = [] || behind = ['\n']
  let front (word : String) : Bool :=
    word.toList.isPrefixOf cs && numbered (cs.drop word.length)
  front "ListBullet" || front "ListNumber"

/-- The number that a level is written as. -/
def readLevel (text : String) : Except Error Int :=
  (Decimal.readInteger 10 text.toList).mapError fun fault =>
    .number (.ofInteger text.toList 10 fault)

namespace Paragraph

/-- The segments of a paragraph. -/
def segments (p : Element) : List Segment := segmentsIn none p.inner

def text (p : Element) : List Char := shownBy (segments p)

/-- The name of the style. -/
def style (p : Element) : Option String :=
  (p.inner.grandchild? Names.paragraphProperties Names.style).bind fun e =>
    e.tag.attribute? Names.value

/-- The place of a list item; nothing, if the paragraph is none. A paragraph is a list item if it
has numbering whose list is not `0`, or no numbering and a list style. -/
def glyph (p : Element) : Except Error (Option Glyph) :=
  match p.inner.grandchild? Names.paragraphProperties Names.numbering with
  | some numbering =>
    let listId := (numbering.inner.child? Names.numberId).bind fun e =>
      e.tag.attribute? Names.value
    if listId = some "0" then .ok none
    else match numbering.inner.child? Names.level with
      | some e => (readLevel ((e.tag.attribute? Names.value).getD "0")).map fun level =>
          some ⟨listId, level, style p⟩
      | none => .ok (some ⟨listId, 0, style p⟩)
  | none =>
    .ok (if (style p).any isListStyle then some ⟨none, 0, style p⟩ else none)

def isListItem (p : Element) : Except Error Bool := (glyph p).map (·.isSome)

/-- Whether a paragraph has neither text nor anything else to show. -/
def isEmpty (p : Element) : Bool :=
  text p = [] && !p.inner.elements.any fun e => e.tag.name ∈ Names.embedded

/-- Whether a section ends with the paragraph. -/
def endsSection (p : Element) : Bool :=
  (p.inner.grandchild? Names.paragraphProperties Names.section_).isSome

/-- The first `n` characters of a text, with dots if there are more. -/
def preview (n : Nat) (cs : List Char) : List Char :=
  if n < cs.length then cs.take n ++ "...".toList else cs

def shown (p : Element) : List Char :=
  let style := match style p with
    | some s => if s = "" then [] else " style=".toList ++ s.toList
    | none => []
  "<Paragraph".toList ++ style ++ ": ".toList ++ Text.quoted (points (preview 50 (text p))) ++ ['>']

end Paragraph

end MailMerge.Word
