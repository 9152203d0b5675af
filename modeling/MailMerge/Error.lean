import MailMerge.Archive.Lzma
import MailMerge.Calendar
import MailMerge.Files
import MailMerge.Value

/-!
# What can go wrong

Errors by their causes, and the wording of each in one place. `Error.category` says what an error is
about; a batch goes on after some categories and stops at others.
-/

namespace MailMerge

/-- Why a text is not a number that can be used. -/
inductive NumberFault where
  | notInteger (text : List Char) (base : Nat)
  | longInteger (digits : Nat)
  | notDecimal (text : List Char)
  | beyondRange
deriving DecidableEq

namespace NumberFault

/-- How much of a text that is not an integer a message shows. -/
def shownLength : Nat := 200

def message : NumberFault → List Char
  | notInteger text base =>
    "invalid literal for int() with base ".toList ++ Decimal.natText base ++ ':' :: ' ' ::
      (Text.quoted (points text)).take shownLength
  | longInteger digits =>
    "Exceeds the limit (4300 digits) for integer string conversion: value has ".toList ++
      Decimal.natText digits ++
      " digits; use sys.set_int_max_str_digits() to increase the limit".toList
  | notDecimal text => "could not convert string to float: ".toList ++ Text.quoted (points text)
  | beyondRange => "int too large to convert to float".toList

/-- Why a text is no integer in a base. -/
def ofInteger (text : List Char) (base : Nat) : Decimal.IntegerFault → NumberFault
  | .malformed => notInteger text base
  | .tooLong digits => longInteger digits

end NumberFault

def Value.TextFault.message : Value.TextFault → String
  | longInteger =>
    "Exceeds the limit (4300 digits) for integer string conversion; " ++
      "use sys.set_int_max_str_digits() to increase the limit"
  | endless => "maximum recursion depth exceeded in __instancecheck__"

def Calendar.Fault.message : Calendar.Fault → List Char
  | year n => "year ".toList ++ Decimal.natText n ++ " is out of range".toList
  | month => "month must be in 1..12".toList
  | day => "day is out of range for month".toList
  | hour => "hour must be in 0..23".toList
  | minute => "minute must be in 0..59".toList
  | second => "second must be in 0..59".toList
  | offset minutes =>
    "offset must be a timedelta strictly between -timedelta(hours=24) and ".toList ++
      "timedelta(hours=24), not ".toList ++ Value.spanText minutes ++ ['.']

/-- Why a document cannot be opened, used or saved. -/
inductive DocumentFault where
  | notFound (path : String)
  | notArchive
  | damagedArchive
  | corruptBlocks
  | beforeStart
  | partMissing (part source : String)
  | noBody (part source : String)
  | notXml (part : String)
  | closed
  | notSaved (fault : Files.Fault)
  | templateUnread (path : String) (fault : Files.Fault)
  | other (summary : String)
deriving DecidableEq

namespace DocumentFault

def message : DocumentFault → String
  | notFound path => "Document not found: " ++ path
  | notArchive => "Source must be a valid .docx (ZIP) file"
  | damagedArchive => "Failed to read .docx file: <BadZipFile>"
  | corruptBlocks => "Failed to read .docx file: Invalid data stream"
  | beforeStart => "Failed to read .docx file: [Errno 22] Invalid argument"
  | partMissing part source => part ++ " not found in " ++ source
  | noBody part source => "No w:body in " ++ part ++ " of " ++ source
  | notXml part => "Invalid XML in " ++ part ++ ": <XMLSyntaxError>"
  | closed => "Document is closed"
  | notSaved fault => "Failed to save document: " ++ fault.message
  | templateUnread path fault => "Cannot read template " ++ path ++ ": " ++ fault.message
  | other summary => summary

end DocumentFault

/-- Why field data cannot be loaded. -/
inductive FieldFault where
  | fileNotFound
  | unreadable (cause : Files.Cause)
  | unknownFormat (format : String)
  | unknownSuffix (suffix : String)
  | rowsOnly
  | notMapping
  | notRows
  | rowNotMapping (row : Nat)
  | notUtf8
  | notJson
  | notYaml
  | notCsv
  | other (reason : String)
deriving DecidableEq

namespace FieldFault

def message : FieldFault → String
  | fileNotFound => "file not found"
  | unreadable cause => cause.text
  | unknownFormat format => "Unsupported format: " ++ format
  | unknownSuffix suffix =>
    "Unsupported file type '" ++ suffix ++ "' (expected .json, .yaml, .yml or .csv)"
  | rowsOnly => "a CSV file holds rows; use load_field_rows()"
  | notMapping => "expected a mapping of tag names to values"
  | notRows => "expected a list of rows"
  | rowNotMapping row => "row " ++ toString row ++ " is not a mapping"
  | notUtf8 => "<UnicodeDecodeError>"
  | notJson => "<JSONDecodeError>"
  | notYaml => "<YAMLError>"
  | notCsv => "<CSVError>"
  | other reason => reason

end FieldFault

inductive Error where
  | document (fault : DocumentFault) (details : List String)
  | fields (path : String) (fault : FieldFault)
  | stale (name : List Char) (start last : Nat) (expected actual : List Char)
  | span (start last total : Int)
  | wrongElement (expected : String) (found : String)
  | notXmlText
  | besideRoot
  | number (fault : NumberFault)
  | calendar (fault : Calendar.Fault)
  | noOutputPath
  | file (fault : Files.Fault)
  | manyDisks
  | notUtf8
  | beforeStart (distance : Nat)
  | noPlace (inFile : Bool)
  | cutOff
  | damagedData
  | corruptCode (fault : Archive.Lzma.Fault)
  | namelessMember
  | longName
  | unsupported (what : String)
  | encrypted (entry : List Char)
  | unknownWord (word : Points)
  | emptyNumber
  | notTimestamp
  | timestampOfMapping
  | noText (fault : Value.TextFault)
  | nodesTooDeep
  | noCharacter
  | otherDocument (kind : String)
  | tooDeep (inList : Bool)
deriving DecidableEq

/-- What an error is about. -/
inductive Error.Category where
  | document
  | fields
  | stale
  | value
  | range
  | kind
  | file (cause : Files.Cause)
  | archive
  | encoding
  | unencodable
  | compression
  | rangeCode
  | unsupported
  | encrypted
  | word
  | shape
  | depth
  | overflow
  | ending
  | packing
deriving DecidableEq

namespace Error

def category : Error → Category
  | document .. => .document
  | fields .. => .fields
  | stale .. => .stale
  | span .. | emptyNumber | namelessMember => .range
  | number .beyondRange | noPlace false => .overflow
  | wrongElement .. | notXmlText | number _ | calendar _ | noOutputPath | noCharacter
  | noText .longInteger | beforeStart _ | noPlace true => .value
  | besideRoot | otherDocument _ | timestampOfMapping => .kind
  | file ⟨.nullCharacter, _⟩ => .value
  | file ⟨.notEncodable, _⟩ => .unencodable
  | file fault => .file fault.cause
  | manyDisks => .archive
  | notUtf8 => .encoding
  | cutOff => .ending
  | longName => .packing
  | damagedData => .compression
  | corruptCode _ => .rangeCode
  | unsupported _ => .unsupported
  | encrypted _ => .encrypted
  | unknownWord _ => .word
  | notTimestamp => .shape
  | tooDeep _ | noText .endless | nodesTooDeep => .depth

def message : Error → String
  | document fault details =>
    fault.message ++ String.join (details.map fun d => "\n  - " ++ d)
  | fields path fault => "Cannot load field data from '" ++ path ++ "': " ++ fault.message
  | stale name start last expected actual =>
    "Stale match for tag '" ++ String.ofList name ++ "' at [" ++ toString start ++ ", " ++
      toString last ++ "]: expected " ++ String.ofList (Text.quoted (points expected)) ++ ", found " ++
      String.ofList (Text.quoted (points actual))
  | span start last total =>
    "Span [" ++ toString start ++ ", " ++ toString last ++ "] out of range (0-" ++
      toString (total - 1) ++ ")"
  | wrongElement expected found => "Expected w:" ++ expected ++ " element, got " ++ found
  | notXmlText =>
    "All strings must be XML compatible: Unicode or ASCII, no NULL bytes or control characters"
  | besideRoot => "Only processing instructions and comments can be siblings of the root element"
  | number fault => String.ofList fault.message
  | calendar fault => String.ofList fault.message
  | noOutputPath =>
    "output_path is required for in-memory documents. " ++
      "Use doc.save(path) or doc.save_to_bytes() instead."
  | file fault => fault.message
  | manyDisks => "<BadZipFile>"
  | notUtf8 => "<UnicodeDecodeError>"
  | beforeStart distance => "negative seek value -" ++ toString distance
  | noPlace true => "cannot fit 'int' into an offset-sized integer"
  | noPlace false => "Python int too large to convert to C ssize_t"
  | cutOff => ""
  | longName => "ushort format requires 0 <= number <= 65535"
  | damagedData => "<ZlibError>"
  | corruptCode .properties => "Invalid or unsupported options"
  | corruptCode .data => "Corrupt input data"
  | unsupported what => what
  | encrypted entry =>
    "File " ++ String.ofList entry ++ " is encrypted, password required for extraction"
  | unknownWord word => String.ofList (Text.quoted word)
  | emptyNumber | namelessMember => "string index out of range"
  | noText fault => fault.message
  | nodesTooDeep => "maximum recursion depth exceeded"
  | otherDocument kind =>
    "Expected python-docx Document, got " ++ kind ++
      ". Pass a Document object created with: from docx import Document"
  | noCharacter => "chr() arg not in range(0x110000)"
  | notTimestamp => "'NoneType' object has no attribute 'groupdict'"
  | timestampOfMapping => "expected string or bytes-like object, got 'list'"
  | tooDeep inList =>
    "maximum recursion depth exceeded while decoding a JSON " ++
      (if inList then "array" else "object") ++ " from a unicode string"

/-- Whether a batch records the error for its row and goes on. -/
def isRowFailure (e : Error) : Bool :=
  match e.category with
  | .document | .fields | .stale | .file _ => true
  | _ => false

/-- Whether a command reports the error in one line. -/
def isReported (e : Error) : Bool :=
  e.isRowFailure || e.category ∈ [.value, .encoding, .unencodable]

end Error

end MailMerge
