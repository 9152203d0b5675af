import MailMerge.Xml.DocumentType

/-!
# Documents

A whole document: the version of the markup it is written in, its type, what stands around the type
and the root, and the root. Documents are written in UTF-8.
-/

namespace MailMerge.Xml

/-- What a document has besides its root: the version, what stands in front of the type, the type,
and what stands in front of the root and behind it. -/
structure Frame where
  version : String
  early : List Markup
  type? : Option DocumentType
  before : List Markup
  after : List Markup

structure Document where
  frame : Frame
  root : Element

namespace Document

/-- The first line of a written document. -/
def heading (version : String) : List Char :=
  "<?xml version='".toList ++ version.toList ++ "' encoding='UTF-8' standalone='yes'?>\n".toList

/-- The document as written. Its type is written only if it names the root, without a prefix. -/
def write (d : Document) : List Char :=
  let type := match d.frame.type? with
    | some t => if t.name = d.root.tag.name.base then t.write else []
    | none => []
  heading d.frame.version ++ d.frame.early.flatMap Markup.write ++ type ++
    d.frame.before.flatMap Markup.write ++ d.root.write ++ d.frame.after.flatMap Markup.write

end Document

end MailMerge.Xml
