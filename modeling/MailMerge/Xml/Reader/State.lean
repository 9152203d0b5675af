import MailMerge.Xml.Character
import MailMerge.Xml.Content
import MailMerge.Xml.DocumentType

/-!
# The state of a reader

The reader takes characters off the rest of a text. What is noted on the way does not stop it: a
document is refused when the last note that counts is about a fault, however many faults there are
before it. Notes count up to a number for each kind.
-/

namespace MailMerge.Xml.Reader

/-- What a note is about. -/
inductive Severity where
  | warning
  | fault
deriving DecidableEq

/-- What has been noted. -/
structure Notes where
  warnings : Nat
  faults : Nat
  last : Severity

namespace Notes

/-- The most notes of a kind that count. -/
def most : Nat := 100

def none : Notes := ⟨0, 0, .warning⟩

def add (n : Notes) : Severity → Notes
  | .warning => if n.warnings < most then ⟨n.warnings + 1, n.faults, .warning⟩ else n
  | .fault => if n.faults < most then ⟨n.warnings, n.faults + 1, .fault⟩ else n

end Notes

/-- An entity: its text, or nothing if the text is outside of the document. -/
structure Entity where
  name : String
  text? : Option (List Char)

/-- An attribute that elements with a name are declared to have. -/
structure Declared where
  element : String
  name : String
  type : AttributeType
  otherwise : AttributeDefault

/-- What an entity comes to as content, and what it costs to put it in. -/
structure Expansion where
  entity : String
  content : Content
  cost : Nat

/-- Where the reader is. `size` is the size of the text that it reads and `grown` what entities have
added to it; `isComplete` says whether all entities have to be declared in the document, and `within`
how many entities the text stands in. -/
structure State where
  rest : List Char
  size : Nat
  grown : Nat
  notes : Notes
  entities : List Entity
  parameters : List String
  attributes : List Declared
  expansions : List Expansion
  identifiers : List String
  standsAlone : Bool
  isComplete : Bool
  within : Nat

abbrev Read := StateT State Option

/-- The most elements that may stand inside each other, and the most groups in a content model. -/
def maxDepth : Nat := 256

/-- The most entities that may stand inside each other. -/
def maxNesting : Nat := 19

def malformed {α : Type} : Read α := failure

def note (s : Severity) : Read Unit := modify fun state => { state with notes := state.notes.add s }

def peek? : Read (Option Char) := return (← get).rest.head?

/-- What follows a text, if the rest begins with it. -/
def stripFront : List Char → List Char → Option (List Char)
  | [], cs => some cs
  | _ :: _, [] => none
  | p :: ps, c :: cs => if p = c then stripFront ps cs else none

/-- Takes a text off, if the rest begins with it. -/
def skip (text : String) : Read Bool := do
  let s ← get
  match stripFront text.toList s.rest with
  | some rest =>
    set { s with rest }
    return true
  | none => return false

def expect (text : String) : Read Unit := do
  unless ← skip text do malformed

/-- Takes off the characters up to the first that does not have a property. -/
def takeWhile (p : Char → Bool) : Read (List Char) := do
  let s ← get
  set { s with rest := s.rest.dropWhile p }
  return s.rest.takeWhile p

/-- Takes white space off and says whether there was any. -/
def space : Read Bool := return !(← takeWhile isXmlSpace).isEmpty

/-- Takes off white space that has to be there. -/
def needSpace : Read Unit := do
  unless ← space do malformed

/-- The characters before the first occurrence of a text, and those behind it. -/
def breakAt (text : List Char) : List Char → Option (List Char × List Char)
  | [] => none
  | c :: rest =>
    match stripFront text (c :: rest) with
    | some after => some ([], after)
    | none => (breakAt text rest).map fun (before, after) => (c :: before, after)

/-- Takes off all up to a text, and the text. -/
def upTo (text : String) : Read (List Char) := do
  let s ← get
  match breakAt text.toList s.rest with
  | some (before, rest) =>
    set { s with rest }
    return before
  | none => malformed

/-- Reads another text in the place of the rest, to its end. -/
def reading {α : Type} (text : List Char) (read : Read α) : Read α := do
  let behind := (← get).rest
  modify fun s => { s with rest := text }
  let a ← read
  modify fun s => { s with rest := behind }
  return a

/-! ## Growth -/

/-- The number of bytes that a text takes. -/
def byteSize (cs : List Char) : Nat := cs.foldl (fun n c => n + c.utf8Size) 0

/-- What a reference to an entity costs besides the text of the entity. -/
def referenceCost : Nat := 20

/-- What entities may add in any case, and how many times the size of the text that has been read
they may add beyond that. -/
def freeGrowth : Nat := 1000000

def maxFactor : Nat := 5

/-- Counts what an entity adds to the text. -/
def grow (cost : Nat) : Read Unit := do
  let s ← get
  let grown := s.grown + cost + referenceCost
  if freeGrowth < grown && s.size - byteSize s.rest < grown / maxFactor then malformed
  set { s with grown }

end MailMerge.Xml.Reader
