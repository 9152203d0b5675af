import MailMerge.Construct
import MailMerge.Document
import MailMerge.Fields

/-!
# Merging

A merge has two steps. First all stories are scanned, and every tag whose value is known is planned
to be replaced; nothing is changed yet. Then the replacements are made, the last one first, so that
a change in a paragraph does not move the tags in front of it.

A value of several lines that is all there is in a list item becomes one item for each line. A
paragraph without text is taken away, and with it the row of a table without text, and a table
without rows.
-/

namespace MailMerge

open Xml (Forest Element)
open Word (Edit)

/-- What a merge has done, in numbers. -/
structure Stats where
  found : Int := 0
  applied : Int := 0
  skipped : Int := 0
  items : Int := 0
  paragraphs : Int := 0
  rows : Int := 0
  tables : Int := 0
deriving DecidableEq

namespace Stats

def text (s : Stats) : List Char :=
  let number (n : Int) : List Char := Decimal.intText n
  let part (n : Int) (what : String) : List Char :=
    if n = 0 then [] else ", ".toList ++ number n ++ ' ' :: what.toList
  number s.applied ++ " of ".toList ++ number s.found ++ " tags merged, ".toList ++
    number s.skipped ++ " skipped".toList ++ part s.items "list items added" ++
    part s.paragraphs "empty paragraphs removed" ++ part s.rows "empty rows removed" ++
    part s.tables "empty tables removed"

end Stats

/-- A tag found in a paragraph. -/
structure Tagged where
  paragraph : Nat
  found : Found
deriving DecidableEq

/-- A tag and the text of the value that replaces it, in the characters that a document is given. -/
structure Substitution where
  tag : Tagged
  value : List Char
deriving DecidableEq

namespace Merge

/-! ## Planning -/

/-- The tags of a paragraph. -/
def tagsOf (p : Element) : List Tagged :=
  (Construct.scan (Word.Paragraph.text p)).map fun found => ⟨p.tag.id, found⟩

/-- The tags of all stories, from the first to the last. -/
def allTags : Work (List Tagged) := do
  let stories ← Document.stories
  Document.view fun f => stories.flatMap fun s => (s.paragraphs f).flatMap tagsOf

/-- The names of the tags as they are written, each one once. -/
def tagNames : Work (List (List Char)) := do
  return ((← allTags).map (·.found.parts.spec)).eraseDups

/-- What replaces a tag: the value of its field, or nothing for an optional tag without one. -/
def resolve (fields : FieldMap) (t : Tagged) : Except Error (Option Substitution) :=
  match fields.value? (points t.found.parts.name) with
  | some v => match fields.text v with
    | .ok text => .ok (some ⟨t, text.chars⟩)
    | .error fault => .error (.noText fault)
  | none => .ok (if t.found.parts.optional then some ⟨t, []⟩ else none)

/-- What replaces which tags. -/
def plan (fields : FieldMap) : List Tagged → Work (List Substitution)
  | [] => return []
  | t :: rest =>
    match resolve fields t with
    | .error e => throw e
    | .ok (some s) => do return s :: (← plan fields rest)
    | .ok none => do
      Document.report .debug .merge ("Skipping unknown tag " ++ String.ofList t.found.text)
      plan fields rest

/-! ## Replacing -/

/-- The text of a value with what is around it in the construct; nothing, if there is no value. -/
def replacement (c : Construct) (value : List Char) : List Char :=
  if value = [] then [] else c.lead ++ value ++ c.tail

/-- Adds list items behind a paragraph, each one behind the one before. -/
def addItems (p : Nat) : List (List Char) → Edit Unit
  | [] => return
  | line :: rest => do addItems (← Edit.insertItem p line) rest

/-- The innermost element with a name around another one. -/
def around? (f : Forest) (name : Xml.Name) (id : Nat) : Option Element :=
  (f.place? id).bind (Word.nearest? name)

/-- Takes a row without text away, and its table if it has no other row. -/
def cleanRow (row : Nat) (stats : Stats) : Work Stats := do
  let table? ← Document.view fun f => around? f Word.Names.table row
  Document.edit (Edit.remove row)
  Document.report .debug .merge "Removed empty table row"
  let stats := { stats with rows := stats.rows + 1 }
  match table?.map (·.tag.id) with
  | none => return stats
  | some table =>
    match (← Document.view (·.element? table)).map Word.Table.rows with
    | some [] =>
      Document.edit (Edit.remove table)
      Document.report .debug .merge "Removed table left without rows"
      return { stats with tables := stats.tables + 1 }
    | _ => return stats

/-- Takes the row of a cell away if it has no text. -/
def cleanCell (cell : Nat) (stats : Stats) : Work Stats := do
  match ← Document.view (·.place? cell) with
  | none => return stats
  | some place =>
    if !Word.Cell.isEmpty place.element then return stats
    else match Word.nearest? Word.Names.row place with
      | none => return stats
      | some row => if Word.Row.isEmpty row then cleanRow row.tag.id stats else return stats

/-- Takes a paragraph without text away, and what is without text then. -/
def clean (p : Nat) (stats : Stats) : Work Stats := do
  match ← Document.view (·.place? p) with
  | none => return stats
  | some place =>
    if !Word.Paragraph.isEmpty place.element then return stats
    else
      let stats ← if ← Document.edit (Edit.removeParagraph p) then do
          Document.report .debug .merge "Removed empty paragraph"
          pure { stats with paragraphs := stats.paragraphs + 1 }
        else pure stats
      match Word.nearest? Word.Names.cell place with
      | none => return stats
      | some cell => cleanCell cell.tag.id stats

/-- The place of a list item, whatever else the paragraph is. -/
def glyph (p : Nat) : Work (Option Word.Glyph) := do
  match ← Document.view (·.element? p) with
  | none => return none
  | some e => match Word.Paragraph.glyph e with
    | .ok glyph => return glyph
    | .error e => throw e

/-- Whether a tag is all there is in a list item, with nothing around it in the construct. -/
def fillsItem (t : Tagged) (text : List Char) : Work Bool := do
  let c := t.found.parts
  if text = t.found.text ∧ c.lead = [] ∧ c.tail = [] then return (← glyph t.paragraph).isSome
  else return false

/-- Makes a replacement. -/
def substitute (stats : Stats) (s : Substitution) : Work Stats := do
  let p := s.tag.paragraph
  let found := s.tag.found
  Document.report .debug .merge ("Processing tag " ++ String.ofList found.text)
  let text := ((← Document.view (·.element? p)).map Word.Paragraph.text).getD []
  let actual := (text.drop found.start).take found.text.length
  if actual ≠ found.text then
    throw (.stale found.parts.name found.start found.last found.text actual)
  let lines := if ← fillsItem s.tag text then Text.splitLines s.value else [s.value]
  Document.edit
    (Edit.replaceSpan p found.start found.last (replacement found.parts (lines.headD [])))
  let stats := { stats with applied := stats.applied + 1 }
  let stats ← match lines with
    | _ :: line :: more => do
      let shown := ((← glyph p).map Word.Glyph.text).getD "None"
      Document.report .debug .merge
        ("Expanding list item into " ++ toString (more.length + 1) ++ " more items with glyph " ++
          shown)
      Document.edit (addItems p (line :: more))
      pure { stats with items := stats.items + (more.length + 1) }
    | _ => pure stats
  clean p stats

/-- Makes all replacements of a plan, the last one first. -/
def apply (plan : List Substitution) (stats : Stats) : Work Stats :=
  plan.reverse.foldlM substitute stats

/-- Merges the values of fields into a document. -/
def run (fields : FieldMap) : Work Stats := do
  let tags ← allTags
  let plan ← plan fields tags
  let stats : Stats := { found := tags.length, skipped := tags.length - plan.length }
  let stats ← apply plan stats
  Document.report .debug .merge ("Merge done: " ++ String.ofList stats.text)
  return stats

end Merge

end MailMerge
