import MailMerge.Decimal.Number
import MailMerge.Text.Encoding
import MailMerge.Yaml.Token.Lexer

/-!
# Names, tags and directives

The properties of a node are an anchor, which has a name, and a tag, which is written out or with a
handle. Directives in front of a document say what handles stand for.
-/

namespace MailMerge.Yaml.Lexer

def isWordChar (c : Char) : Bool := c.isAlphanum || c = '-' || c = '_'

def word : Lexer (List Char) := do
  let cs ← take isWordChar
  if cs = [] then fail else return cs

def hexDigit? (c : Char) : Option Nat :=
  if c.isDigit then some (c.toNat - '0'.toNat)
  else if 'a' ≤ c ∧ c ≤ 'f' then some (c.toNat - 'a'.toNat + 10)
  else if 'A' ≤ c ∧ c ≤ 'F' then some (c.toNat - 'A'.toNat + 10)
  else none

/-- A number of `n` hexadecimal digits. -/
def hexNumber (n : Nat) : Lexer Nat := do
  let cs := (← cursor).rest.take n
  match cs.mapM hexDigit? with
  | some digits =>
    if digits.length < n then fail
    else
      forward n
      return digits.foldl (fun n d => n * 16 + d) 0
  | none => fail

/-- Bytes that are written with percent signs, `fuel` of them at most. -/
def escapedBytes : Nat → Lexer Text.Bytes
  | 0 => return []
  | fuel + 1 => do
    if (← peek 0) = '%' then
      forward 1
      let b ← hexNumber 2
      return b.toUInt8 :: (← escapedBytes fuel)
    else return []

def isUriChar (c : Char) : Bool := c.isAlphanum || c ∈ "-;/?:@&=+$,_.!~*'()[]".toList

/-- The characters of a tag, in at most `fuel` stretches. -/
def uriPart : Nat → Lexer (List Char)
  | 0 => return []
  | fuel + 1 => do
    let cs ← take isUriChar
    if (← peek 0) = '%' then
      match Text.utf8? (← escapedBytes (← cursor).rest.length) with
      | some escaped => return cs ++ escaped ++ (← uriPart fuel)
      | none => fail
    else return cs

def uri : Lexer (List Char) := do
  let cs ← uriPart ((← cursor).rest.length + 1)
  if cs = [] then fail else return cs

/-- A handle: an exclamation mark, or a word between two of them. -/
def handle : Lexer (List Char) := do
  if (← peek 0) ≠ '!' then fail
  forward 1
  if (← peek 0) = ' ' then return ['!']
  let cs ← take isWordChar
  if (← peek 0) = '!' then
    forward 1
    return '!' :: cs ++ ['!']
  else fail

/-- Whether an exclamation mark stands in a word, behind its first character. -/
def hasHandle (cs : List Char) : Bool := ((cs.drop 1).takeWhile fun c => !isStop c).contains '!'

def tagText : Lexer TagText := do
  let t ← if (← peek 1) = '<' then do
      forward 2
      let suffix ← uri
      if (← peek 0) ≠ '>' then fail
      forward 1
      pure ⟨none, suffix⟩
    else if isGap (← peek 1) then do
      forward 1
      pure ⟨none, ['!']⟩
    else if hasHandle (← cursor).rest then do
      let h ← handle
      pure ⟨some h, ← uri⟩
    else do
      forward 1
      pure ⟨some ['!'], ← uri⟩
  if isStop (← peek 0) then return t else fail

/-- The name of an anchor or alias. -/
def name : Lexer (List Char) := do
  forward 1
  let cs ← word
  let c ← peek 0
  if isGap c || c ∈ "?:,]\x7d%@`".toList then return cs else fail

def number : Lexer Nat := do
  let cs ← take Char.isDigit
  if cs = [] then fail
  if Decimal.maxIntegerDigits < cs.length then throw (.longInteger cs.length)
  return cs.foldl (fun n c => n * 10 + (c.toNat - '0'.toNat)) 0

def directive : Lexer Token := do
  forward 1
  let cs ← word
  if !isStop (← peek 0) then fail
  let t ← if cs = "YAML".toList then do
      discard (take (· = ' '))
      let major ← number
      if (← peek 0) ≠ '.' then fail
      forward 1
      discard number
      if !isStop (← peek 0) then fail
      pure (.version major)
    else if cs = "TAG".toList then do
      discard (take (· = ' '))
      let h ← handle
      if (← peek 0) ≠ ' ' then fail
      discard (take (· = ' '))
      let lead ← uri
      if !isStop (← peek 0) then fail
      pure (.tagHandle h lead)
    else do
      discard (take fun c => !isLineStop c)
      pure .directive
  endLine
  return t

end MailMerge.Yaml.Lexer
