import MailMerge.Text.Encoding
import MailMerge.Text.Quoted

/-!
# Files in a folder

Paths, and a working folder with the files and folders below it. A path is a text, and an item has a
name of bytes. Reading and writing fail the way file systems fail, and most failures say which path
they were about. What becomes of the bytes of a file is up to the device: writing may be refused, and
it may break off, which leaves a file with the bytes up to there.
-/

namespace MailMerge.Files

/-! ## Names -/

/-- The bytes of a code point in a name. Some surrogates stand for bytes that are no character. -/
def pointBytes? : CodePoint → Option Text.Bytes
  | .char c => some (String.utf8EncodeChar c)
  | .surrogate n => if 0x480 ≤ n.val ∧ n.val < 0x500 then some [(n.val - 0x400).toUInt8] else none

/-- The bytes of a name. -/
def nameBytes? : Points → Option Text.Bytes
  | [] => some []
  | p :: rest => do return (← pointBytes? p) ++ (← nameBytes? rest)

/-- What is said of a text that has no bytes as a name. -/
def noBytesMessage (ps : Points) : List Char :=
  let place := (ps.takeWhile fun p => (pointBytes? p).isSome).length
  let run := (ps.drop place).takeWhile fun
    | .surrogate _ => true
    | .char _ => false
  "'utf-8' codec can't encode character".toList ++
    (match run with
      | [p] => ' ' :: '\'' :: Text.escapedNumber p.toNat ++ "' in position ".toList ++
          (toString place).toList
      | _ => "s in position ".toList ++ (toString place).toList ++ '-' ::
          (toString (place + run.length - 1)).toList) ++
    ": surrogates not allowed".toList

/-! ## Paths -/

/-- A path: the slashes of the root that it starts at, if it does, and its parts. Empty parts and
single dots are left out. -/
structure Path where
  root : String
  parts : List Points
deriving DecidableEq

/-- The pieces of a text between the occurrences of a symbol. -/
def splitChar {α : Type} [DecidableEq α] (sep : α) : List α → List (List α)
  | [] => [[]]
  | c :: cs =>
    if c = sep then [] :: splitChar sep cs
    else match splitChar sep cs with
      | [] => [[c]]
      | piece :: rest => (c :: piece) :: rest

namespace Path

/-- The root that a text names: two slashes in front are kept, and more of them are one. -/
def rootOf (ps : Points) : String :=
  match (ps.takeWhile (· = .char '/')).length with
  | 0 => ""
  | 2 => "//"
  | _ => "/"

def ofPoints (ps : Points) : Path :=
  ⟨rootOf ps, (splitChar (.char '/') ps).filter fun part => part ≠ [] && part ≠ [.char '.']⟩

def ofString (s : String) : Path := ofPoints (points s.toList)

def isAbsolute (p : Path) : Bool := p.root ≠ ""

def text (p : Path) : Points :=
  if p.root = "" ∧ p.parts = [] then [.char '.']
  else points p.root.toList ++ List.intercalate [.char '/'] p.parts

/-- The path as messages have it. -/
def string (p : Path) : String := p.text.string

/-- The last part. -/
def name (p : Path) : Points := (p.parts.getLast?).getD []

/-- A name before and from its last dot, if that is neither its first nor its last symbol. -/
def splitName (name : Points) : Points × Points :=
  let behind := (name.reverse.takeWhile (· ≠ .char '.')).reverse
  let before := name.take (name.length - behind.length - 1)
  if behind = [] ∨ before = [] ∨ behind.length = name.length then (name, [])
  else (before, .char '.' :: behind)

def stem (p : Path) : Points := (splitName p.name).1

def suffix (p : Path) : Points := (splitName p.name).2

def parent (p : Path) : Path := { p with parts := p.parts.dropLast }

/-- The path of something with the given name in the folder `p`. -/
def child (p : Path) (name : Points) : Path := { p with parts := p.parts ++ [name] }

def withName (p : Path) (name : Points) : Path := p.parent.child name

end Path

/-! ## Failures -/

/-- An error of the system by its number and text. -/
structure SystemError where
  number : Nat
  text : String
deriving DecidableEq

inductive Cause where
  | notFound
  | exists
  | notFolder
  | isFolder
  | nameTooLong
  | system (e : SystemError)
  | nullCharacter
  | notEncodable
deriving DecidableEq

namespace Cause

/-- Whether a path is at fault before the system is asked. -/
def isOfText (c : Cause) : Bool := c = nullCharacter || c = notEncodable

def number : Cause → Nat
  | notFound => 2
  | «exists» => 17
  | notFolder => 20
  | isFolder => 21
  | nameTooLong => 36
  | system e => e.number
  | nullCharacter | notEncodable => 22

def text : Cause → String
  | notFound => "No such file or directory"
  | «exists» => "File exists"
  | notFolder => "Not a directory"
  | isFolder => "Is a directory"
  | nameTooLong => "File name too long"
  | system e => e.text
  | nullCharacter => "embedded null byte"
  | notEncodable => "surrogates not allowed"

end Cause

/-- A failure, and the path it is about if it was found with a path. -/
structure Fault where
  cause : Cause
  path? : Option Path
deriving DecidableEq

namespace Fault

def message (f : Fault) : String :=
  match f.cause, f.path? with
  | .nullCharacter, _ => f.cause.text
  | .notEncodable, some p => String.ofList (noBytesMessage p.text)
  | c, some p => "[Errno " ++ toString c.number ++ "] " ++ c.text ++ ": " ++
      String.ofList (Text.quoted p.text)
  | c, none => "[Errno " ++ toString c.number ++ "] " ++ c.text

end Fault

/-! ## Files -/

/-- The names of the folders around an item, the outermost first, and its own name. -/
abbrev Place := List Text.Bytes

inductive Item where
  | folder
  | file (bytes : Text.Bytes)
deriving DecidableEq

/-- What comes of writing bytes to a file: all are written, none because the file cannot be opened,
or the first few. -/
inductive Writing where
  | whole
  | refused (e : SystemError)
  | cut (size : Nat) (e : SystemError)

/-- What comes of writing bytes to a place, by what there is. -/
abbrev Device := List (Place × Item) → Place → Text.Bytes → Writing

/-- Files and folders by their places, the working folder, which relative paths begin at, and the
device that they are on. -/
structure Tree where
  here : Place
  items : List (Place × Item)
  device : Device

namespace Tree

/-- No files, on a device that takes all of them: the working folder is where all paths begin. -/
def empty : Tree := ⟨[], [], fun _ _ _ => .whole⟩

def item? (t : Tree) (place : Place) : Option Item :=
  if place = [] then some .folder else (t.items.find? fun i => i.1 = place).map (·.2)

/-- The most bytes that a name may have. -/
def maxNameSize : Nat := 255

/-- The most bytes that a path may have. -/
def maxPathSize : Nat := 4095

/-- The name that leads to the folder around. -/
def up : Text.Bytes := [0x2e, 0x2e]

/-- Follows the names in a path and gives the place they lead to. All but the last one have to be
those of folders. -/
def follow (t : Tree) (place : Place) : List Text.Bytes → Except Cause Place
  | [] => .ok place
  | name :: rest =>
    if name = up then follow t place.dropLast rest
    else if maxNameSize < name.length then .error .nameTooLong
    else
      let next := place ++ [name]
      if rest = [] then .ok next
      else match t.item? next with
        | some .folder => follow t next rest
        | some (.file _) => .error .notFolder
        | none => .error .notFound

def locate (t : Tree) (p : Path) : Except Cause Place :=
  match nameBytes? p.text, p.parts.mapM nameBytes? with
  | some bytes, some names =>
    if names.any fun name => name.contains 0 then .error .nullCharacter
    else if maxPathSize < bytes.length then .error .nameTooLong
    else follow t (if p.isAbsolute then [] else t.here) names
  | _, _ => .error .notEncodable

def lookUp (t : Tree) (p : Path) : Except Cause Item := do
  let place ← t.locate p
  match t.item? place with
  | some item => return item
  | none => throw .notFound

/-- Whether there is something at a path. That a part is no folder or cannot exist says no; a part
that is too long to ask for is a failure. -/
def exists? (t : Tree) (p : Path) : Except Fault Bool :=
  match t.lookUp p with
  | .ok _ => .ok true
  | .error .nameTooLong => .error ⟨.nameTooLong, p⟩
  | .error _ => .ok false

def read (t : Tree) (p : Path) : Except Fault Text.Bytes :=
  match t.lookUp p with
  | .ok (.file bytes) => .ok bytes
  | .ok .folder => .error ⟨.isFolder, p⟩
  | .error cause => .error ⟨cause, p⟩

def put (t : Tree) (place : Place) (item : Item) : Tree :=
  if t.items.any fun i => i.1 = place then
    { t with items := t.items.map fun i => if i.1 = place then (place, item) else i }
  else { t with items := t.items ++ [(place, item)] }

/-- Writes bytes to a place where no folder is. The failure of a file that has been opened names no
path. -/
def fill (t : Tree) (p : Path) (place : Place) (bytes : Text.Bytes) : Tree × Except Fault Unit :=
  match t.device t.items place bytes with
  | .whole => (t.put place (.file bytes), .ok ())
  | .refused e => (t, .error ⟨.system e, p⟩)
  | .cut size e => (t.put place (.file (bytes.take size)), .error ⟨.system e, none⟩)

/-- Writes bytes to a file. -/
def write (t : Tree) (p : Path) (bytes : Text.Bytes) : Tree × Except Fault Unit :=
  match t.locate p with
  | .error cause => (t, .error ⟨cause, p⟩)
  | .ok place =>
    match t.item? place with
    | some .folder => (t, .error ⟨.isFolder, p⟩)
    | _ => t.fill p place bytes

/-- Makes one folder; that it is there already is no failure. -/
def makeFolder (t : Tree) (p : Path) : Except Fault Tree :=
  match t.locate p with
  | .error cause => .error ⟨cause, p⟩
  | .ok place =>
    match t.item? place with
    | some .folder => .ok t
    | some (.file _) => .error ⟨.exists, p⟩
    | none => .ok (t.put place .folder)

/-- Makes a folder and up to `fuel` of those on the way to it. -/
def makeFoldersUp (t : Tree) (p : Path) : Nat → Except Fault Tree
  | 0 => t.makeFolder p
  | fuel + 1 =>
    match t.makeFolder p with
    | .error ⟨.notFound, _⟩ => do (← makeFoldersUp t p.parent fuel).makeFolder p
    | result => result

/-- Makes a folder and those on the way to it. -/
def makeFolders (t : Tree) (p : Path) : Except Fault Tree := makeFoldersUp t p p.parts.length

/-- What stands in `t` and did not stand so in `before`. -/
def changes (t before : Tree) : List (Place × Item) := t.items.filter (· ∉ before.items)

end Tree

end MailMerge.Files
