import MailMerge.Archive.Reader
import MailMerge.Error
import MailMerge.Log
import MailMerge.Xml.Reader

/-!
# Packages

A package has the members of an archive by their names. A name that an archive has more than once
stands for its last member, at the place of the first. A package gives its members up when it is
closed for the first time; it can get others after that, and keeps those.
-/

namespace MailMerge

open Text (Bytes)

/-- The members of a package, and whether it has been closed. -/
structure Package where
  members : List Archive.Member
  isClosed : Bool

namespace Package

def empty : Package := ⟨[], false⟩

/-- Gives the members up, unless that has been done before. -/
def close (p : Package) : Package := if p.isClosed then p else ⟨[], true⟩

def names (p : Package) : List String := p.members.map (·.name)

def bytes? (p : Package) (name : String) : Option Bytes :=
  (p.members.find? fun m => m.name = name).map (·.bytes)

def has (p : Package) (name : String) : Bool := (p.bytes? name).isSome

/-- Puts a member in the place of the one with its name, or behind all others. -/
def put (p : Package) (m : Archive.Member) : Package :=
  if p.has m.name then
    { p with members := p.members.map fun m' => if m'.name = m.name then m else m' }
  else { p with members := p.members ++ [m] }

def ofMembers (members : List Archive.Member) : Package := members.foldl put empty

/-- Why an archive cannot be opened. To look in front of the beginning is a failure of the file
system, if the archive is in a file. -/
def fault (source : Archive.Source) : Archive.Fault → Error
  | .notArchive => .document .notArchive []
  | .damaged => .document .damagedArchive []
  | .manyDisks => .manyDisks
  | .nameNotUtf8 => .notUtf8
  | .beforeStart distance =>
    if source = .file then .document .beforeStart [] else .beforeStart distance
  | .noPlace => .noPlace (source = .file)
  | .cutOff => .cutOff
  | .corruptData => .damagedData
  | .corruptBlocks => .document .corruptBlocks []
  | .corruptCode f => .corruptCode f
  | .nameless => .namelessMember
  | .unsupported feature => .unsupported feature.text
  | .encrypted entry => .encrypted entry

/-- The package that an archive is. -/
def ofArchive (source : Archive.Source) (bytes : Bytes) : Except Error Package :=
  match Archive.read source bytes with
  | .ok members => .ok (ofMembers members)
  | .error f => .error (fault source f)

/-- The bytes at a path that can be opened as a package. -/
def fileAt (files : Files.Tree) (path : Files.Path) : Except Error Bytes :=
  match files.exists? path with
  | .error f => .error (.file f)
  | .ok false => .error (.document (.notFound path.string) [])
  | .ok true => match files.read path with
    | .ok bytes => .ok bytes
    | .error _ => .error (.document .notArchive [])

/-- What is reported about a package that has been opened. -/
def opened (p : Package) : Log.Record :=
  ⟨.debug, .package, "Opened package with " ++ toString p.members.length ++ " members"⟩

/-- The document that a member holds, its elements numbered from `next` on. -/
def document? (p : Package) (name : String) (next : Nat) :
    Except Error (Option (Xml.Document × Nat)) :=
  match p.bytes? name with
  | none => .ok none
  | some bytes => match Xml.Document.read? bytes next with
    | some found => .ok (some found)
    | none => .error (.document (.notXml name) [])

/-- Writes a document into a member. -/
def putDocument (p : Package) (name : String) (d : Xml.Document) : Package :=
  p.put ⟨name, Text.toUtf8 d.write⟩

/-- Why a package cannot be written. -/
def nameFault : Archive.NameFault → Error
  | .missing => .namelessMember
  | .tooLong => .longName

/-- The package as an archive. -/
def archive (p : Package) : Except Error Bytes := (Archive.write p.members).mapError nameFault

end Package

end MailMerge
