/-!
# Blank characters

The characters that count as white space in text: the ASCII controls from tab to carriage return,
the four information separators, the space, and the spaces and separators of Unicode.
-/

namespace MailMerge.Text

/-- Whether a code point lies in one of the closed intervals of a table. -/
def inTable (table : List (Nat × Nat)) (n : Nat) : Bool :=
  table.any fun range => range.1 ≤ n && n ≤ range.2

def blankRanges : List (Nat × Nat) := [
  (0x9, 0xd), (0x1c, 0x20), (0x85, 0x85), (0xa0, 0xa0), (0x1680, 0x1680), (0x2000, 0x200a),
  (0x2028, 0x2029), (0x202f, 0x202f), (0x205f, 0x205f), (0x3000, 0x3000)]

/-- White space, the edges of which have to be protected in a document. -/
def isBlank (c : Char) : Bool := inTable blankRanges c.toNat

/-- Whether the first or the last character is white space. -/
def blankEdged (cs : List Char) : Bool :=
  (cs.head?.any isBlank) || (cs.getLast?.any isBlank)

end MailMerge.Text
