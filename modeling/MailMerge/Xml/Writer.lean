import MailMerge.Xml.Content

/-!
# Writing XML

Elements are written with their namespace declarations before their attributes, both in the order
they have. Double quotes surround values. An element without content has a single tag.
-/

namespace MailMerge.Xml

/-- A character between tags. A carriage return is written by number, as it would be read as the
end of a line. -/
def escapeChar (c : Char) : List Char :=
  match c with
  | '&' => "&amp;".toList
  | '<' => "&lt;".toList
  | '>' => "&gt;".toList
  | '\r' => "&#13;".toList
  | c => [c]

/-- A character of an attribute value, in which white space other than the space is a number. -/
def escapeValueChar (c : Char) : List Char :=
  match c with
  | '"' => "&quot;".toList
  | '\n' => "&#10;".toList
  | '\t' => "&#9;".toList
  | c => escapeChar c

/-- A name with its prefix. -/
def prefixed (lead : Option String) (base : String) : List Char :=
  match lead with
  | some lead => lead.toList ++ ':' :: base.toList
  | none => base.toList

/-- A name and a value in quotes, behind a space. -/
def written (name : List Char) (value : String) : List Char :=
  ' ' :: name ++ '=' :: '"' :: value.toList.flatMap escapeValueChar ++ ['"']

def Declaration.write (d : Declaration) : List Char :=
  written (match d.lead with
    | some lead => "xmlns:".toList ++ lead.toList
    | none => "xmlns".toList) d.space

def Attribute.write (a : Attribute) : List Char := written (prefixed a.lead a.name.base) a.value

/-- What stands between the angle brackets of a start tag. -/
def Tag.write (tag : Tag) : List Char :=
  prefixed tag.lead tag.name.base ++ tag.declarations.flatMap Declaration.write ++
    tag.attributes.flatMap Attribute.write

def Markup.write : Markup → List Char
  | .comment data => "<!--".toList ++ data.toList ++ "-->".toList
  | .instruction target none => "<?".toList ++ target.toList ++ "?>".toList
  | .instruction target (some data) =>
    "<?".toList ++ target.toList ++ ' ' :: data.toList ++ "?>".toList

namespace Content

def write : Content → List Char
  | nil => []
  | text cs rest => cs.flatMap escapeChar ++ rest.write
  | markup m rest => m.write ++ rest.write
  | element tag nil rest => '<' :: tag.write ++ '/' :: '>' :: rest.write
  | element tag inner rest =>
    '<' :: tag.write ++ '>' :: inner.write ++
      '<' :: '/' :: prefixed tag.lead tag.name.base ++ '>' :: rest.write

end Content

def Element.write (e : Element) : List Char := (Content.element e.tag e.inner .nil).write

end MailMerge.Xml
