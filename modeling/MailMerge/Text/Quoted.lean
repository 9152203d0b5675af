import MailMerge.Text.CodePoint
import MailMerge.Text.Printable

/-!
# Quoted text

Text between quotes on one line, as messages show it. The quote is a single one, unless the text
holds single quotes and no double ones. A character that is not printable, as no surrogate is, is
written by its number in two, four or eight hexadecimal digits.
-/

namespace MailMerge.Text

def hexDigits : List Char := "0123456789abcdef".toList

/-- The `width` lowest hexadecimal digits of a number, the highest first. -/
def hex (width n : Nat) : List Char :=
  match width with
  | 0 => []
  | width + 1 => hex width (n / 16) ++ [hexDigits.getD (n % 16) '0']

/-- The quote that surrounds a text. -/
def quoteFor (ps : Points) : Char :=
  if ps.contains '\'' && !ps.contains '"' then '"' else '\''

/-- The number of a code point behind a backslash. -/
def escapedNumber (n : Nat) : List Char :=
  if n < 0x100 then '\\' :: 'x' :: hex 2 n
  else if n < 0x10000 then '\\' :: 'u' :: hex 4 n
  else '\\' :: 'U' :: hex 8 n

/-- A code point between two quotes. -/
def quotePoint (quote : Char) (p : CodePoint) : List Char :=
  match p with
  | .char c =>
    if c = quote ∨ c = '\\' then ['\\', c]
    else if c = '\t' then ['\\', 't']
    else if c = '\n' then ['\\', 'n']
    else if c = '\r' then ['\\', 'r']
    else if isPrintable c then [c]
    else escapedNumber c.toNat
  | .surrogate _ => escapedNumber p.toNat

def quoted (ps : Points) : List Char :=
  let quote := quoteFor ps
  quote :: ps.flatMap (quotePoint quote) ++ [quote]

/-- Quoted bytes: as text of one byte a character, printable in ASCII only, with a `b` in front. -/
def quotedBytes (bytes : List UInt8) : List Char :=
  let ps := points (bytes.map fun b => Char.ofNat b.toNat)
  let quote := quoteFor ps
  'b' :: quote :: (ps.flatMap fun p =>
    if p.toNat < 0x7f then quotePoint quote p else '\\' :: 'x' :: hex 2 p.toNat) ++ [quote]

end MailMerge.Text
