import MailMerge.Text.Lines
import MailMerge.Word.Paragraph

/-!
# Cells, rows and tables

A cell shows all paragraphs inside of it, those of tables in the cell among them. A row has the
cells that no row further in has, a table the rows that no table further in has, whatever else
stands between.
-/

namespace MailMerge.Word

open MailMerge.Xml

/-- The elements named `wanted` that are not inside of one named `barrier`. -/
def within (wanted barrier : Name) : Content → List Element
  | .nil => []
  | .text _ rest => within wanted barrier rest
  | .markup _ rest => within wanted barrier rest
  | .element tag inner rest =>
    (if tag.name = wanted then [⟨tag, inner⟩] else []) ++
      (if tag.name = barrier then [] else within wanted barrier inner) ++ within wanted barrier rest

/-- The innermost element with a name around a place. -/
def nearest? (name : Name) (place : Content.Place) : Option Element :=
  place.around.find? fun e => e.tag.name = name

namespace Cell

def paragraphs (cell : Element) : List Element := cell.inner.named Names.paragraph

def text (cell : Element) : List Char := Text.joinLines ((paragraphs cell).map Paragraph.text)

def isEmpty (cell : Element) : Bool := (paragraphs cell).all Paragraph.isEmpty

def shown (cell : Element) : List Char :=
  "<TableCell: ".toList ++ Text.quoted (points (Paragraph.preview 30 (text cell))) ++ ['>']

end Cell

namespace Row

def cells (row : Element) : List Element := within Names.cell Names.row row.inner

def isEmpty (row : Element) : Bool := (cells row).all Cell.isEmpty

def shown (row : Element) : List Char :=
  "<TableRow: ".toList ++ Decimal.natText (cells row).length ++ " cells>".toList

end Row

namespace Table

def rows (table : Element) : List Element := within Names.row Names.table table.inner

def shown (table : Element) : List Char :=
  "<Table: ".toList ++ Decimal.natText (rows table).length ++ " rows>".toList

end Table

end MailMerge.Word
