import MailMerge.Text.CodePage
import MailMerge.Text.SevenBit

/-!
# Character encodings

Text from bytes. `utf8?` takes what is valid UTF-8; the other encodings have one, two or four bytes
for most characters, those of one byte by their code pages.
-/

namespace MailMerge.Text

abbrev Bytes := List UInt8

/-- The text that the bytes encode in UTF-8. -/
def utf8? (bytes : Bytes) : Option (List Char) :=
  (String.fromUTF8? ⟨bytes.toArray⟩).map String.toList

/-- The bytes of a text in UTF-8. -/
def toUtf8 (cs : List Char) : Bytes := (String.ofList cs).toUTF8.toList

/-- The bytes without the mark that says they are UTF-8. -/
def dropMark : Bytes → Bytes
  | 0xef :: 0xbb :: 0xbf :: rest => rest
  | bytes => bytes

def latin1 (bytes : Bytes) : List Char := bytes.map fun b => Char.ofNat b.toNat

def ascii? (bytes : Bytes) : Option (List Char) :=
  if bytes.all (· < 0x80) then some (latin1 bytes) else none

/-- The numbers that pairs of bytes make. -/
def pairs? (bigEndian : Bool) : Bytes → Option (List Nat)
  | [] => some []
  | [_] => none
  | a :: b :: rest => do
    let n := if bigEndian then a.toNat * 256 + b.toNat else b.toNat * 256 + a.toNat
    return n :: (← pairs? bigEndian rest)

def utf16? (bigEndian : Bool) (bytes : Bytes) : Option (List Char) :=
  (pairs? bigEndian bytes).bind joinPairs?

/-- The characters of code units of 32 bits. -/
def utf32? (bigEndian : Bool) : Bytes → Option (List Char)
  | [] => some []
  | a :: b :: c :: d :: rest => do
    let n (a b c d : UInt8) : Nat := ((a.toNat * 256 + b.toNat) * 256 + c.toNat) * 256 + d.toNat
    let n := if bigEndian then n a b c d else n d c b a
    if n.isValidChar then return Char.ofNat n :: (← utf32? bigEndian rest) else none
  | _ => none

def utf8Names : List String := ["utf-8", "utf8"]

def asciiNames : List String := [
  "us-ascii", "ascii", "iso646-us", "iso-ir-6", "ansi_x3.4-1968", "ansi_x3.4-1986", "cp367",
  "ibm367", "us", "csascii"]

def latin1Names : List String := [
  "iso-8859-1", "iso8859-1", "iso_8859-1", "iso-latin-1", "iso-ir-100", "latin1", "l1", "cp819",
  "ibm819", "csisolatin1"]

/-- The reader of an encoding with an ASCII core, by the name of the encoding in small letters. -/
def decoderNamed? (name : String) : Option (Bytes → Option (List Char)) :=
  if name ∈ utf8Names then some utf8?
  else if name ∈ asciiNames then some ascii?
  else if name ∈ latin1Names then some fun bytes => some (latin1 bytes)
  else if name ∈ ["iso-2022-jp", "csiso2022jp"] then some (SevenBit.escaped? false false)
  else if name ∈ ["hz", "hz-gb-2312"] then some (SevenBit.tilded? false)
  else if name ∈ ["utf-7", "unicode-1-1-utf-7", "csunicode11utf7"] then some SevenBit.utf7?
  else if name = "gb18030" then some DoubleByte.decodeFour?
  else
    ((CodePage.named? name).map CodePage.decode?).or
      ((DoubleByte.named? name).map DoubleByte.decode?)

end MailMerge.Text
