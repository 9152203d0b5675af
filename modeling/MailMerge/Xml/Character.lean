import MailMerge.Text.Blank

/-!
# Characters of XML

Which characters a document may hold, and which of them names begin with and consist of.
-/

namespace MailMerge.Xml

/-- A character that a document can hold. -/
def isXmlChar (c : Char) : Bool :=
  let n := c.toNat
  n = 0x9 || n = 0xa || n = 0xd || (0x20 ≤ n && n ≤ 0xd7ff) || (0xe000 ≤ n && n ≤ 0xfffd) ||
    0x10000 ≤ n

def isXmlSpace (c : Char) : Bool := c = ' ' || c = '\t' || c = '\n' || c = '\r'

def nameStartRanges : List (Nat × Nat) := [
  (0x41, 0x5a), (0x5f, 0x5f), (0x61, 0x7a), (0xc0, 0xd6), (0xd8, 0xf6), (0xf8, 0x2ff),
  (0x370, 0x37d), (0x37f, 0x1fff), (0x200c, 0x200d), (0x2070, 0x218f), (0x2c00, 0x2fef),
  (0x3001, 0xd7ff), (0xf900, 0xfdcf), (0xfdf0, 0xfffd), (0x10000, 0xeffff)]

def nameRestRanges : List (Nat × Nat) := [
  (0x2d, 0x2e), (0x30, 0x39), (0xb7, 0xb7), (0x300, 0x36f), (0x203f, 0x2040)]

/-- A character that a name without a colon can begin with. -/
def isNameStart (c : Char) : Bool := Text.inTable nameStartRanges c.toNat

/-- A character that a name without a colon can go on with. -/
def isNameChar (c : Char) : Bool :=
  Text.inTable nameStartRanges c.toNat || Text.inTable nameRestRanges c.toNat

end MailMerge.Xml
