import MailMerge.Yaml.Token.Property

/-!
# Scalars

The text of a scalar in quotes, in a block behind a header, or without any mark. Line breaks in a
scalar are folded: one is a space, and of several all but the first are kept.
-/

namespace MailMerge.Yaml.Lexer

/-- What stands for a character behind a backslash. -/
def escapes : List (Char × Char) := [
  ('0', '\x00'), ('a', '\x07'), ('b', '\x08'), ('t', '\t'), ('\t', '\t'), ('n', '\n'),
  ('v', '\x0b'), ('f', '\x0c'), ('r', '\r'), ('e', '\x1b'), (' ', ' '), ('"', '"'), ('\\', '\\'),
  ('/', '/'), ('N', '\u0085'), ('_', '\u00a0'), ('L', '\u2028'), ('P', '\u2029')]

/-- How many digits follow a letter behind a backslash. -/
def escapeSizes : List (Char × Nat) := [('x', 2), ('u', 4), ('U', 8)]

/-- The breaks of lines without anything on them in quotes, `fuel` of them at most. -/
def quotedBreaks : Nat → Lexer (List Char)
  | 0 => return []
  | fuel + 1 => do
    if (← cursor).isSeparator then fail
    discard (take fun c => c = ' ' || c = '\t')
    match ← lineBreak with
    | [] => return []
    | cs => return cs ++ (← quotedBreaks fuel)

def anyBreaks (breaks : Nat → Lexer (List Char)) : Lexer (List Char) := do
  breaks ((← cursor).rest.length + 1)

/-- The code point with a number. -/
def codePoint (n : Nat) : Lexer CodePoint :=
  if 0x10ffff < n then throw .noCharacter else return .ofNat n

/-- What a backslash and the characters behind it stand for. -/
def escaped : Lexer Points := do
  let c ← peek 0
  match escapes.lookup c with
  | some stands =>
    forward 1
    return [stands]
  | none => match escapeSizes.lookup c with
    | some size =>
      forward 1
      return [← codePoint (← hexNumber size)]
    | none =>
      if isBreak c then
        discard lineBreak
        return points (← anyBreaks quotedBreaks)
      else fail

/-- Blanks in quotes. The end of a line counts as a space, or as the breaks behind it. -/
def quotedBlank : Lexer (List Char) := do
  let blank ← take fun c => c = ' ' || c = '\t'
  if isEnd (← peek 0) then fail
  match ← lineBreak with
  | [] => return blank
  | first =>
    let breaks ← anyBreaks quotedBreaks
    if first ≠ ['\n'] then return first ++ breaks
    else if breaks = [] then return [' ']
    else return breaks

/-- What stands in quotes up to the second one, in at most `fuel` stretches, of which `acc` has
those read so far, the last one first. -/
def quoted (quote : Char) (acc : List Points) : Nat → Lexer Points
  | 0 => fail
  | fuel + 1 => do
    let cs ← take fun c => !(isGap c || c = '\'' || c = '"' || c = '\\')
    let acc := points cs :: acc
    let c ← peek 0
    if c = quote then
      if quote = '\'' ∧ (← peek 1) = '\'' then
        forward 2
        quoted quote (['\''] :: acc) fuel
      else
        forward 1
        return acc.reverse.flatten
    else if c = '\\' ∧ quote = '"' then
      forward 1
      quoted quote ((← escaped) :: acc) fuel
    else if c = '\'' ∨ c = '"' ∨ c = '\\' then
      forward 1
      quoted quote ([c] :: acc) fuel
    else quoted quote (points (← quotedBlank) :: acc) fuel

def quotedScalar (quote : Char) : Lexer Points := do
  forward 1
  quoted quote [] ((← cursor).rest.length + 1)

/-- How the end of a block is kept: without its last break, with it, or with all breaks. -/
inductive Chomping where
  | strip
  | clip
  | keep

def chomping? (c : Char) : Option Chomping :=
  if c = '+' then some .keep else if c = '-' then some .strip else none

def increment? : Lexer (Option Nat) := do
  let c ← peek 0
  if c.isDigit then
    if c = '0' then fail
    forward 1
    return some (c.toNat - '0'.toNat)
  else return none

/-- What stands behind the mark of a block: how its end is kept, and how far in it is. -/
def blockHeader : Lexer (Chomping × Option Nat) := do
  let header ← match chomping? (← peek 0) with
    | some chomping => do
      forward 1
      pure (chomping, ← increment?)
    | none => do
      match ← increment? with
      | none => pure (.clip, none)
      | some n => match chomping? (← peek 0) with
        | some chomping => do
          forward 1
          pure (chomping, some n)
        | none => pure (.clip, some n)
  if isStop (← peek 0) then return header else fail

/-- Skips blanks up to a column. -/
def skipTo (column : Nat) : Nat → Lexer Unit
  | 0 => return
  | fuel + 1 => do
    let c ← cursor
    if c.column < column ∧ c.head = ' ' then
      forward 1
      skipTo column fuel

/-- The breaks of empty lines in a block at a column. -/
def blockBreaks (column : Nat) : Nat → Lexer (List Char)
  | 0 => return []
  | fuel + 1 => do
    skipTo column column
    match ← lineBreak with
    | [] => return []
    | cs => return cs ++ (← blockBreaks column fuel)

/-- The breaks of empty lines in front of a block, and the greatest column on them. -/
def blockStart (column : Nat) : Nat → Lexer (List Char × Nat)
  | 0 => return ([], column)
  | fuel + 1 => do
    discard (take (· = ' '))
    let column := max column (← cursor).column
    match ← lineBreak with
    | [] => return ([], column)
    | cs =>
      let (more, column) ← blockStart column fuel
      return (cs ++ more, column)

/-- The lines of a block at a column, with the breaks before them. Gives the text up to the last
line, the break behind that, and the breaks of empty lines at the end. -/
def blockLines (folded : Bool) (column : Nat) (acc : List (List Char)) (ending breaks : List Char) :
    Nat → Lexer (List Char × List Char × List Char)
  | 0 => fail
  | fuel + 1 => do
    let c ← cursor
    if c.column = column ∧ !isEnd c.head then
      let isText := c.head ≠ ' ' && c.head ≠ '\t'
      let line ← take fun c => !isLineStop c
      let ending' ← lineBreak
      let breaks' ← anyBreaks (blockBreaks column)
      let c ← cursor
      let acc := line :: breaks :: acc
      if c.column = column ∧ !isEnd c.head then
        let isFolded := folded && ending' = ['\n'] && isText && c.head ≠ ' ' && c.head ≠ '\t'
        let between := if !isFolded then ending' else if breaks' = [] then [' '] else []
        blockLines folded column (between :: acc) [] breaks' fuel
      else return (acc.reverse.flatten, ending', breaks')
    else return (acc.reverse.flatten, ending, breaks)

/-- A block of lines, folded or not. -/
def blockScalar (folded : Bool) : Lexer (List Char) := do
  forward 1
  let (chomping, increment) ← blockHeader
  endLine
  let least := max 1 ((← get).indent + 1).toNat
  let (breaks, column) ← match increment with
    | some n => do
      let column := least + n - 1
      pure (← anyBreaks (blockBreaks column), column)
    | none => do
      let (breaks, column) ← blockStart 0 ((← cursor).rest.length + 1)
      pure (breaks, max least column)
  let (text, ending, breaks) ← blockLines folded column [] [] breaks ((← cursor).rest.length + 1)
  match chomping with
  | .strip => return text
  | .clip => return text ++ ending
  | .keep => return text ++ ending ++ breaks

/-- The characters of a plain scalar up to a blank or a mark. -/
def plainWord (inFlow : Bool) : List Char → List Char
  | [] => []
  | c :: rest =>
    let next := rest.headD '\x00'
    if isGap c || (c = ':' && (isGap next || (inFlow && next ∈ ",[]\x7b\x7d".toList))) ||
        (inFlow && c ∈ ",?[]\x7b\x7d".toList) then []
    else c :: plainWord inFlow rest

/-- The breaks of empty lines in a plain scalar; none, if a line parts documents. -/
def plainBreaks : Nat → Lexer (Option (List Char))
  | 0 => return some []
  | fuel + 1 => do
    if (← cursor).isSeparator then return none
    discard (take (· = ' '))
    match ← lineBreak with
    | [] => return some []
    | cs => return (← plainBreaks fuel).map (cs ++ ·)

/-- Blanks in a plain scalar; nothing where it ends. -/
def plainBlank : Lexer (List Char) := do
  let blank ← take (· = ' ')
  match ← lineBreak with
  | [] => return blank
  | first =>
    setAllowKey true
    match ← plainBreaks ((← cursor).rest.length + 1) with
    | none => return []
    | some breaks =>
      if first ≠ ['\n'] then return first ++ breaks
      else if breaks = [] then return [' ']
      else return breaks

/-- A plain scalar, in at most `fuel` words; `acc` has what has been read, the last word first. -/
def plain (acc : List (List Char)) (blank : List Char) : Nat → Lexer (List Char)
  | 0 => fail
  | fuel + 1 => do
    let p ← get
    let cs := if p.cursor.head = '#' then [] else plainWord (p.flow ≠ 0) p.cursor.rest
    if cs = [] then return acc.reverse.flatten
    setAllowKey false
    forward cs.length
    let acc := cs :: blank :: acc
    let blank ← plainBlank
    let p ← get
    if blank = [] ∨ p.cursor.head = '#' ∨ (p.flow = 0 ∧ (p.cursor.column : Int) < p.indent + 1) then
      return acc.reverse.flatten
    else plain acc blank fuel

end MailMerge.Yaml.Lexer
