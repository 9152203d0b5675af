import MailMerge.Xml.Content

/-!
# Names of word processing documents

The elements and attributes of a word processing document that a merge looks at.
-/

namespace MailMerge.Word

open MailMerge.Xml (Name)

def space : String := "http://schemas.openxmlformats.org/wordprocessingml/2006/main"

def officeSpace : String := "http://schemas.openxmlformats.org/officeDocument/2006/relationships"

def packageSpace : String := "http://schemas.openxmlformats.org/package/2006/relationships"

/-- A name of the main namespace. -/
def name (base : String) : Name := ⟨space, base⟩

namespace Names

def paragraph : Name := name "p"
def run : Name := name "r"
def text : Name := name "t"
def tab : Name := name "tab"
def lineBreak : Name := name "br"
def carriageReturn : Name := name "cr"
def deletion : Name := name "del"
def moveFrom : Name := name "moveFrom"
def paragraphProperties : Name := name "pPr"
def runProperties : Name := name "rPr"
def style : Name := name "pStyle"
def numbering : Name := name "numPr"
def numberId : Name := name "numId"
def level : Name := name "ilvl"
def value : Name := name "val"
def section_ : Name := name "sectPr"
def cell : Name := name "tc"
def row : Name := name "tr"
def table : Name := name "tbl"
def body : Name := name "body"
def header : Name := name "hdr"
def footer : Name := name "ftr"
def footnote : Name := name "footnote"
def endnote : Name := name "endnote"
def textBox : Name := name "txbxContent"
def drawing : Name := name "drawing"
def picture : Name := name "pict"
def object : Name := name "object"
def id : Name := name "id"
def type : Name := name "type"
def relationId : Name := ⟨officeSpace, "id"⟩
def relationship : Name := ⟨packageSpace, "Relationship"⟩

/-- What surrounds runs that are not part of the visible text: tracked deletions, and paragraphs
inside of other ones, which have their own text. -/
def concealing : List Name := [deletion, moveFrom, paragraph]

/-- What has to end with a paragraph. -/
def endingWithParagraph : List Name := [cell, header, footer, footnote, endnote, textBox]

/-- Markers of ranges, which may stand behind the last block of a text. -/
def rangeMarkers : List Name := [name "bookmarkStart", name "bookmarkEnd",
  name "commentRangeStart", name "commentRangeEnd", name "permStart", name "permEnd",
  name "proofErr"]

/-- What is shown in a paragraph besides its text. -/
def embedded : List Name := [drawing, picture, object]

end Names

end MailMerge.Word
