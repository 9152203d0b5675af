/-!
# Places in a text

A cursor goes through a text and counts lines and columns. Behind the end of the text it sees the
null character, which is not part of any text that is read.
-/

namespace MailMerge.Yaml

/-- The end of the text. -/
def isEnd (c : Char) : Bool := c = '\x00'

/-- A character that ends a line. -/
def isBreak (c : Char) : Bool :=
  c = '\n' || c = '\r' || c = '\u0085' || c = '\u2028' || c = '\u2029'

/-- A character that a line ends at. -/
def isLineStop (c : Char) : Bool := isBreak c || isEnd c

/-- A character that a word on a line ends at. -/
def isStop (c : Char) : Bool := c = ' ' || isLineStop c

/-- A character that a word ends at, tabs included. -/
def isGap (c : Char) : Bool := c = '\t' || isStop c

/-- A character that a text can hold. -/
def isAllowed (c : Char) : Bool :=
  let n := c.toNat
  n = 0x9 || n = 0xa || n = 0xd || (0x20 ≤ n && n ≤ 0x7e) || n = 0x85 || (0xa0 ≤ n && n ≤ 0xd7ff) ||
    (0xe000 ≤ n && n ≤ 0xfffd) || 0x10000 ≤ n

/-- The mark that may stand at the beginning of a text. -/
def mark : Char := '\ufeff'

/-- What is left of a text, how many characters are behind, and the line and column. -/
structure Cursor where
  rest : List Char
  index : Nat
  line : Nat
  column : Nat

namespace Cursor

def ofText (cs : List Char) : Cursor := ⟨cs, 0, 0, 0⟩

/-- The character `n` places ahead. -/
def peek (c : Cursor) (n : Nat) : Char := c.rest.getD n '\x00'

/-- The first character. -/
def head (c : Cursor) : Char := c.peek 0

/-- Goes on by one character. -/
def next (c : Cursor) : Cursor :=
  match c.rest with
  | [] => c
  | ch :: rest =>
    if isBreak ch && !(ch = '\r' && rest.head? = some '\n') then ⟨rest, c.index + 1, c.line + 1, 0⟩
    else ⟨rest, c.index + 1, c.line, if ch = mark then c.column else c.column + 1⟩

/-- Goes on by `n` characters. -/
def forward (c : Cursor) : Nat → Cursor
  | 0 => c
  | n + 1 => c.next.forward n

/-- The characters of a kind in front. -/
def ahead (c : Cursor) (p : Char → Bool) : List Char := c.rest.takeWhile p

/-- Goes on behind the end of a line. Gives what stands for it in a text. -/
def lineBreak (c : Cursor) : List Char × Cursor :=
  match c.rest with
  | '\r' :: '\n' :: _ => (['\n'], c.forward 2)
  | ch :: _ =>
    if ch = '\u2028' ∨ ch = '\u2029' then ([ch], c.next)
    else if isBreak ch then (['\n'], c.next)
    else ([], c)
  | [] => ([], c)

/-- Whether a line begins that parts documents, `---` or `...`. -/
def isSeparator (c : Cursor) : Bool :=
  (['-', '-', '-'].isPrefixOf c.rest || ['.', '.', '.'].isPrefixOf c.rest) && isGap (c.peek 3)

end Cursor

end MailMerge.Yaml
