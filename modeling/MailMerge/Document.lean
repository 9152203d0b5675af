import MailMerge.Package
import MailMerge.PartName
import MailMerge.Word.Edit

/-!
# Documents

A document is a package with a main part, from which relationships lead to its headers and footers.
A part is read when it is looked at for the first time, and kept from then on: edits are made on the
tree of the part, and every part that has been read is written when the document is saved.

The texts that a merge looks at are the stories of the document: headers, the body, footers,
footnotes and endnotes, in this order.
-/

namespace MailMerge

open Xml (Forest Element Content)

/-- A part that has been read: its name, the number of its root, and what else it has. -/
structure Part where
  name : String
  root : Nat
  frame : Xml.Frame

/-- A part as a document of its own. -/
def Part.document? (part : Part) (f : Forest) : Option Xml.Document :=
  (f.element? part.root).map fun root => ⟨part.frame, root⟩

/-- A document that is worked on. A closed one has no package. `root` is the root of the main part,
`log` what has been reported so far. -/
structure Document where
  path? : Option Files.Path
  package? : Option Package
  root : Nat
  parts : List Part
  forest : Forest
  log : Log

/-- Work on a document. Work that fails leaves what it has done up to there. -/
abbrev Work := EStateM Error Document

/-- When a header or footer is used. -/
inductive PageKind where
  | default
  | first
  | even
deriving DecidableEq

def PageKind.text : PageKind → String
  | default => "default"
  | first => "first"
  | even => "even"

def PageKind.ofText (s : String) : PageKind :=
  if s = "first" then first else if s = "even" then even else default

/-- The kinds of stories, with what the kind is known by. -/
inductive StoryKind where
  | header (use : PageKind) (relation : String)
  | body
  | footer (use : PageKind) (relation : String)
  | footnote (number : Option String)
  | endnote (number : Option String)
deriving DecidableEq

namespace StoryKind

def text : StoryKind → String
  | header .. => "header"
  | body => "body"
  | footer .. => "footer"
  | footnote _ => "footnote"
  | endnote _ => "endnote"

def title : StoryKind → String
  | header .. => "Header"
  | body => "Body"
  | footer .. => "Footer"
  | footnote _ => "Footnote"
  | endnote _ => "Endnote"

end StoryKind

/-- A text of a document: the element that it is in, by number, and the part it comes from. -/
structure Story where
  kind : StoryKind
  element : Nat
  part : String
deriving DecidableEq

namespace Story

/-- The elements of a story with a name. -/
def named (s : Story) (f : Forest) (name : Xml.Name) : List Element :=
  match f.element? s.element with
  | some e => (Content.element e.tag e.inner .nil).named name
  | none => []

def paragraphs (s : Story) (f : Forest) : List Element := s.named f Word.Names.paragraph

def tables (s : Story) (f : Forest) : List Element := s.named f Word.Names.table

def text (s : Story) (f : Forest) : List Char :=
  Text.joinLines ((s.paragraphs f).map Word.Paragraph.text)

def shown (s : Story) (f : Forest) : List Char :=
  let preview := (Word.Paragraph.preview 50 (s.text f)).map fun c => if c = '\n' then ' ' else c
  '<' :: s.kind.title.toList ++ ' ' :: s.kind.text.toList ++ ' ' :: '"' :: preview ++ ['"', '>']

end Story

namespace Document

/-- A document of which nothing has been read. -/
def unread (path? : Option Files.Path) : Document := ⟨path?, none, 0, [], .empty, []⟩

def report (level : Log.Level) (origin : Log.Origin) (message : String) : Work Unit :=
  modify fun d => { d with log := d.log ++ [⟨level, origin, message⟩] }

/-- Edits the trees of a document. -/
def edit {α : Type} (x : Word.Edit α) : Work α := fun d =>
  match x.run d.forest with
  | .ok a forest => .ok a { d with forest }
  | .error e forest => .error e { d with forest }

/-- Looks at the trees of a document. -/
def view {α : Type} (f : Forest → α) : Work α := do return f (← get).forest

def package : Work Package := do
  match (← get).package? with
  | some p => return p
  | none => throw (.document .closed [])

/-- The number of the root of a part, which is read if it has not been; none, if there is no such
part. -/
def partRoot? (name : String) : Work (Option Nat) := do
  let d ← get
  match d.parts.find? fun part => part.name = name with
  | some part => return some part.root
  | none =>
    let p ← package
    match p.document? name d.forest.next with
    | .error e => throw e
    | .ok none => return none
    | .ok (some (x, next)) =>
      let part : Part := ⟨name, x.root.tag.id, x.frame⟩
      set { d with parts := d.parts ++ [part], forest := d.forest.plant x.root next }
      return some part.root

def inMemory : String := "<in-memory document>"

/-- Where a document is from. -/
def source (d : Document) : String := (d.path?.map (·.string)).getD inMemory

/-- Opens the document that an archive is. -/
def openArchive (source : Archive.Source) (bytes : Text.Bytes) : Work Unit := do
  match Package.ofArchive source bytes with
  | .error e => throw e
  | .ok p =>
    modify fun d => { d with package? := some p, log := d.log ++ [p.opened] }
    let source := (← get).source
    match ← partRoot? PartName.main with
    | none => throw (.document (.partMissing PartName.main source) [])
    | some root =>
      modify fun d => { d with root }
      match (← view (·.element? root)).bind fun e => e.inner.child? Word.Names.body with
      | some _ => return
      | none => throw (.document (.noBody PartName.main source) [])

/-- Opens a document with the given bytes. -/
def openBytes (bytes : Text.Bytes) : Work Unit := openArchive .memory bytes

/-- Opens the document that is in a file. -/
def openFile (files : Files.Tree) : Work Unit := do
  match (← get).path? with
  | none => return
  | some path => match Package.fileAt files path with
    | .error e => throw e
    | .ok bytes => openArchive .file bytes

/-! ## Stories -/

def rootElement : Work (Option Element) := do
  let d ← get
  return d.forest.element? d.root

/-- The targets of the relationships of the main part by their names, the last of a name first. -/
def targets : Work (List (String × String)) := do
  match (← package).document? PartName.relationships 0 with
  | .error e => throw e
  | .ok none => return []
  | .ok (some (x, _)) =>
    let given (e : Element) (base : String) : String := (e.tag.attribute? ⟨"", base⟩).getD ""
    let entries := (x.root.inner.children.filter (·.tag.name = Word.Names.relationship)).filterMap
      fun e =>
        let entry := (given e "Id", given e "Target")
        if entry.1 ≠ "" ∧ entry.2 ≠ "" ∧ given e "TargetMode" ≠ "External" then some entry else none
    return entries.reverse

/-- The stories that references lead to. A part that has been referred to before is left out. -/
def referred (targets : List (String × String)) (base : String)
    (kind : PageKind → String → StoryKind) (seen : List String) : List Element → Work (List Story)
  | [] => return []
  | e :: rest => do
    let relation := (e.tag.attribute? Word.Names.relationId).getD ""
    match targets.lookup relation with
    | none =>
      report .warning .document ("Unknown relationship " ++ relation ++ " in " ++ base)
      referred targets base kind seen rest
    | some target =>
      let name := String.ofList (PartName.resolve target.toList)
      if name ∈ seen then referred targets base kind seen rest
      else match ← partRoot? name with
        | none =>
          report .warning .document
            ("Referenced part " ++ name ++ " is missing from the package")
          referred targets base kind (name :: seen) rest
        | some root =>
          let use := ((e.tag.attribute? Word.Names.type).map PageKind.ofText).getD .default
          let more ← referred targets base kind (name :: seen) rest
          return ⟨kind use relation, root, name⟩ :: more

/-- The references of all sections with a name. -/
def references (root : Element) (base : String) : List Element :=
  ((Content.element root.tag root.inner .nil).named Word.Names.section_).flatMap fun section_ =>
    section_.inner.children.filter fun e => e.tag.name = Word.name base

def referredBy (base : String) (kind : PageKind → String → StoryKind) : Work (List Story) := do
  let targets ← targets
  match ← rootElement with
  | none => return []
  | some root => referred targets base kind [] (references root base)

def headers : Work (List Story) := referredBy "headerReference" .header

def footers : Work (List Story) := referredBy "footerReference" .footer

/-- The main story, if there is one. -/
def body : Work (List Story) := do
  match (← rootElement).bind fun e => e.inner.child? Word.Names.body with
  | some e => return [⟨.body, e.tag.id, PartName.main⟩]
  | none => return []

/-- The notes of a part that are not made by the program, which have a type. -/
def notes (part : String) (name : Xml.Name) (kind : Option String → StoryKind) :
    Work (List Story) := do
  match ← partRoot? part with
  | none => return []
  | some root =>
    let children := ((← view (·.element? root)).map fun e => e.inner.children).getD []
    return (children.filter fun e =>
      e.tag.name = name && (e.tag.attribute? Word.Names.type).isNone).map fun e =>
        ⟨kind (e.tag.attribute? Word.Names.id), e.tag.id, part⟩

def footnotes : Work (List Story) := notes PartName.footnotes Word.Names.footnote .footnote

def endnotes : Work (List Story) := notes PartName.endnotes Word.Names.endnote .endnote

/-- All stories in the order in which a merge looks at them. -/
def stories : Work (List Story) := do
  let headers ← headers
  let body ← body
  let footers ← footers
  let footnotes ← footnotes
  let endnotes ← endnotes
  return headers ++ body ++ footers ++ footnotes ++ endnotes

/-- The text of all stories, one line for each paragraph. -/
def text : Work (List Char) := do
  let stories ← stories
  view fun f => Text.joinLines (stories.map fun s => s.text f)

/-! ## Saving -/

/-- Writes all parts that have been read into a package. -/
def writeParts (f : Forest) (parts : List Part) (p : Package) : Package :=
  parts.foldl (fun p part => match part.document? f with
    | some x => p.putDocument part.name x
    | none => p) p

/-- Writes a document into a member of the package. What has been read of a part stays as it is. -/
def setPart (name : String) (x : Xml.Document) : Work Unit := do
  let p ← package
  modify fun d => { d with package? := some (p.putDocument name x) }

/-- The document as an archive. -/
def saveBytes : Work Text.Bytes := do
  let p ← package
  let d ← get
  let p := writeParts d.forest d.parts p
  set { d with package? := some p }
  match p.archive with
  | .ok bytes => return bytes
  | .error e => throw e

/-- The error of a document that cannot be written to a file. -/
def notSaved (f : Files.Fault) : Error :=
  if f.cause.isOfText then .file f else .document (.notSaved f) []

/-- Writes the document to the file that a text names, or to the one it was read from. Gives the
files also where writing them has failed. -/
def save (files : Files.Tree) (given : Option Points) :
    Work (Files.Tree × Except Error Unit) := do
  match given.or ((← get).path?.map (·.text)) with
  | none => throw .noOutputPath
  | some name =>
    let bytes ← saveBytes
    match files.write (.ofPoints name) bytes with
    | (files, .error f) => return (files, .error (notSaved f))
    | (files, .ok ()) =>
      report .debug .document ("Saved document to " ++ name.string)
      return (files, .ok ())

/-- Gives the package up. What has been read of the main part can still be looked at. -/
def close : Work Unit := modify fun d => { d with package? := none, parts := [] }

/-- The parts that have been read, in the order of reading. -/
def readParts (d : Document) : List (String × Element) :=
  d.parts.filterMap fun part => (d.forest.element? part.root).map fun e => (part.name, e)

def shown (d : Document) : String := "<Document " ++ d.source ++ ">"

end Document

end MailMerge
