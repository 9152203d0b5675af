import MailMerge.Yaml.Cursor
import MailMerge.Yaml.Token.Basic

/-!
# Keys and indentation

The tokens for the beginning and the end of collections that are written by indentation follow from
the columns. A key is known as one only at the colon behind it: until then its place is kept in
mind, and its token put in there later.
-/

namespace MailMerge.Yaml

/-- A place where a key may have begun: the number of its token, and whether it has to be one. -/
structure KeyPlace where
  token : Nat
  required : Bool
  index : Nat
  line : Nat
  column : Nat

/-- What is known while a text is read. `flow` is how many brackets are open, `indent` the column of
the innermost collection written by indentation, `indents` those of the ones around it, and `keys`
the places of keys by the number of brackets. -/
structure Progress where
  cursor : Cursor
  tokens : Array Token
  flow : Nat
  indent : Int
  indents : List Int
  allowKey : Bool
  keys : List (Nat × KeyPlace)

namespace Progress

def ofText (cs : List Char) : Progress := ⟨.ofText cs, #[], 0, -1, [], true, []⟩

end Progress

abbrev Lexer := EStateM Fault Progress

namespace Lexer

def fail {α : Type} : Lexer α := throw .malformed

def cursor : Lexer Cursor := return (← get).cursor

def peek (n : Nat) : Lexer Char := return (← cursor).peek n

def move (f : Cursor → Cursor) : Lexer Unit := modify fun p => { p with cursor := f p.cursor }

def forward (n : Nat) : Lexer Unit := move (·.forward n)

/-- Takes the characters of a kind. -/
def take (p : Char → Bool) : Lexer (List Char) := do
  let cs := (← cursor).ahead p
  forward cs.length
  return cs

def lineBreak : Lexer (List Char) := do
  let (cs, c) := (← cursor).lineBreak
  move fun _ => c
  return cs

def emit (t : Token) : Lexer Unit := modify fun p => { p with tokens := p.tokens.push t }

def insert (place : Nat) (t : Token) : Lexer Unit := modify fun p =>
  { p with tokens := p.tokens.insertIdxIfInBounds place t }

def setAllowKey (b : Bool) : Lexer Unit := modify fun p => { p with allowKey := b }

/-! ## Keys and indentation -/

/-- The most characters of a key. -/
def maxKeyLength : Nat := 1024

/-- Forgets the places that no key can end at any more. -/
def dropStaleKeys : Lexer Unit := do
  let p ← get
  let isStale (k : KeyPlace) : Bool :=
    k.line ≠ p.cursor.line || maxKeyLength < p.cursor.index - k.index
  if p.keys.any fun (_, k) => isStale k && k.required then fail
  else set { p with keys := p.keys.filter fun (_, k) => !isStale k }

/-- Forgets the place of a key inside the innermost brackets. -/
def dropKey : Lexer Unit := do
  let p ← get
  if p.keys.any fun (level, k) => level = p.flow && k.required then fail
  else set { p with keys := p.keys.filter fun (level, _) => level ≠ p.flow }

/-- Keeps in mind that a key may begin here. -/
def saveKey : Lexer Unit := do
  if (← get).allowKey then
    dropKey
    modify fun p =>
      let required := p.flow = 0 && p.indent = p.cursor.column
      let place := ⟨p.tokens.size, required, p.cursor.index, p.cursor.line, p.cursor.column⟩
      { p with keys := (p.flow, place) :: p.keys }

/-- Ends the collections that are further in than a column. -/
def unwind (column : Int) : Lexer Unit := do
  let p ← get
  if p.flow = 0 then loop p.indents
where
  loop : List Int → Lexer Unit
    | [] => return
    | outer :: rest => do
      if column < (← get).indent then
        emit .blockEnd
        modify fun p => { p with indent := outer, indents := rest }
        loop rest

/-- Begins a collection at a column if that is further in than the innermost one. -/
def indentTo (column : Nat) : Lexer Bool := do
  let p ← get
  if p.indent < column then
    set { p with indent := column, indents := p.indent :: p.indents }
    return true
  else return false

/-! ## Blanks and comments -/

/-- Skips a comment. -/
def comment : Lexer Unit := do
  if (← peek 0) = '#' then discard (take fun c => !isLineStop c)

/-- Goes on to the next token, over at most `fuel` lines. -/
def skipBlank : Nat → Lexer Unit
  | 0 => return
  | fuel + 1 => do
    discard (take (· = ' '))
    comment
    if (← lineBreak) ≠ [] then
      if (← get).flow = 0 then setAllowKey true
      skipBlank fuel

/-- Ends a line that has nothing more than a comment. -/
def endLine : Lexer Unit := do
  discard (take (· = ' '))
  comment
  if isLineStop (← peek 0) then discard lineBreak else fail

end Lexer

end MailMerge.Yaml
