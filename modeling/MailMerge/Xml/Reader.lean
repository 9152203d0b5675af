import MailMerge.Text.Encoding
import MailMerge.Xml.Document
import MailMerge.Xml.Reader.Content
import MailMerge.Xml.Reader.DocumentType

/-!
# Reading XML

Reads a document from bytes. A document is refused when it is not well-formed, when the last note
about it is a fault, and when entities grow beyond bounds. Entities that the document declares with
a text are replaced; the external part of a document type is not read.
-/

namespace MailMerge.Xml.Reader

/-- Comments and instructions with white space around them. -/
def misc (fuel : Nat) (acc : List Markup) : Read (List Markup) :=
  match fuel with
  | 0 => return acc.reverse
  | fuel + 1 => do
    let _ ← space
    if ← skip "<!--" then
      let c ← comment
      misc fuel (c :: acc)
    else if ← skip "<?" then
      let i ← instruction
      misc fuel (i :: acc)
    else return acc.reverse

/-- A name with a value in quotes, as the declaration at the beginning has them. -/
def pseudoAttribute (name : String) : Read (Option (List Char)) := do
  if ← skip name then
    let _ ← space
    expect "="
    let _ ← space
    return some (← quotedLiteral isXmlChar)
  return none

/-- A version: a digit, and digits behind a point. -/
def isVersion (cs : List Char) : Bool :=
  match cs with
  | major :: '.' :: rest => (major :: rest).all Address.isDigit
  | _ => false

/-- Notes a version that is not the first one. There is nothing to be known about one with another
digit in front. -/
def checkVersion (cs : List Char) : Read Unit :=
  if cs = "1.0".toList then return ()
  else if cs.head? = some '1' then note .warning
  else malformed

def isEncodingName (cs : List Char) : Bool :=
  match cs with
  | c :: rest =>
    Address.isLetter c && rest.all fun c =>
      Address.isLetter c || Address.isDigit c || c = '.' || c = '_' || c = '-'
  | [] => false

/-- The declaration at the beginning behind `<?xml`: the version and the encoding. -/
def heading : Read (String × Option String) := do
  needSpace
  let version ← pseudoAttribute "version"
  unless version.any isVersion do malformed
  version.forM checkVersion
  let separated ← space
  let encoding? ← if separated then pseudoAttribute "encoding" else pure none
  unless encoding?.all isEncodingName do malformed
  let separated ← if encoding?.isSome then space else pure separated
  let alone? ← if separated then pseudoAttribute "standalone" else pure none
  unless alone?.all fun s => s = "yes".toList || s = "no".toList do malformed
  modify fun s => { s with standsAlone := alone? = some "yes".toList }
  let _ ← space
  expect "?>"
  return (String.ofList (version.getD []), encoding?.map String.ofList)

/-- Whether a text begins with a declaration of what it is. -/
def hasHeading (cs : List Char) : Bool :=
  match stripFront "<?xml".toList cs with
  | some (c :: _) => isXmlSpace c
  | _ => false

/-- A whole document. -/
def document : Read Document := do
  let version ← if hasHeading (← get).rest then do
      expect "<?xml"
      pure (← heading).1
    else pure "1.0"
  let size := (← get).rest.length + 1
  let first ← misc size []
  let type? ← if ← skip "<!DOCTYPE" then some <$> documentType else pure none
  let before ← misc size []
  unless (← peek?) = some '<' do malformed
  let g ← content maxNesting ((← get).rest.length + 1) 0 true .start
  let after ← misc size []
  let s ← get
  unless s.rest.isEmpty do malformed
  if s.notes.last = .fault then malformed
  let frame : Frame :=
    if type?.isSome then ⟨version, first, type?, before, after⟩
    else ⟨version, [], none, first ++ before, after⟩
  match g.outside with
  | [.element root] => return ⟨frame, root⟩
  | _ => malformed

def start (cs : List Char) : State where
  rest := lineFeeds cs
  size := byteSize cs
  grown := 0
  notes := .none
  entities := []
  parameters := []
  attributes := []
  expansions := []
  identifiers := []
  standsAlone := false
  isComplete := true
  within := 0

/-- The encoding that a document in an encoding with an ASCII core declares. -/
def declaredEncoding? (bytes : Text.Bytes) : Option String :=
  let front := Text.latin1 (bytes.takeWhile (· ≠ 0x3e)) ++ ['>']
  if hasHeading front then
    ((do expect "<?xml"; heading).run (start front)).bind (·.1.2)
  else none

/-- The text of a document. -/
def decode (bytes : Text.Bytes) : Option (List Char) :=
  match bytes with
  | 0xef :: 0xbb :: 0xbf :: rest => Text.utf8? rest
  | 0xfe :: 0xff :: rest => Text.utf16? true rest
  | 0xff :: 0xfe :: 0x00 :: 0x00 :: rest => Text.utf32? false rest
  | 0x00 :: 0x00 :: 0xfe :: 0xff :: rest => Text.utf32? true rest
  | 0xff :: 0xfe :: rest => Text.utf16? false rest
  | 0x3c :: 0x00 :: 0x00 :: 0x00 :: _ => Text.utf32? false bytes
  | 0x00 :: 0x00 :: 0x00 :: 0x3c :: _ => Text.utf32? true bytes
  | 0x3c :: 0x00 :: 0x3f :: 0x00 :: _ => Text.utf16? false bytes
  | 0x00 :: 0x3c :: 0x00 :: 0x3f :: _ => Text.utf16? true bytes
  | _ =>
    match declaredEncoding? bytes with
    | some name => (Text.decoderNamed? (lowerCase name)).bind (· bytes)
    | none => Text.utf8? bytes

end MailMerge.Xml.Reader

namespace MailMerge.Xml

/-- The document that the bytes hold, with its elements numbered from `next` on, and the next free
number. Nothing, if the bytes do not hold a document. -/
def Document.read? (bytes : Text.Bytes) (next : Nat) : Option (Document × Nat) := do
  let cs ← Reader.decode bytes
  let (d, _) ← Reader.document.run (Reader.start cs)
  let (root, next) := d.root.renumber next
  return ({ d with root }, next)

end MailMerge.Xml
