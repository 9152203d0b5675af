import MailMerge.Yaml.Token.Scalar

/-!
# Tokens of a text

Each token is known by its first characters, by the brackets it stands in and by the columns. What
a token says about keys and indentation is done before it is added to the row.
-/

namespace MailMerge.Yaml

namespace Lexer

/-- A token of one character. -/
def mark (t : Token) : Lexer Unit := do
  forward 1
  emit t

def streamEnd : Lexer Unit := do
  unwind (-1)
  dropKey
  emit .streamEnd

def documentMark (t : Token) : Lexer Unit := do
  unwind (-1)
  dropKey
  setAllowKey false
  forward 3
  emit t

def openBracket (t : Token) : Lexer Unit := do
  saveKey
  modify fun p => { p with flow := p.flow + 1 }
  setAllowKey true
  mark t

def closeBracket (t : Token) : Lexer Unit := do
  dropKey
  if (← get).flow = 0 then fail
  modify fun p => { p with flow := p.flow - 1 }
  setAllowKey false
  mark t

/-- Begins a collection by indentation at the cursor, where one may begin. -/
def beginBlock (t : Token) : Lexer Unit := do
  let p ← get
  if p.flow = 0 then
    if !p.allowKey then fail
    if ← indentTo p.cursor.column then emit t

def blockEntry : Lexer Unit := do
  beginBlock .blockSequenceStart
  setAllowKey true
  dropKey
  mark .blockEntry

def keyMark : Lexer Unit := do
  beginBlock .blockMappingStart
  setAllowKey ((← get).flow = 0)
  dropKey
  mark .key

def valueMark : Lexer Unit := do
  let p ← get
  match p.keys.lookup p.flow with
  | some k =>
    set { p with keys := p.keys.filter fun (level, _) => level ≠ p.flow }
    insert k.token .key
    if p.flow = 0 then
      if ← indentTo k.column then insert k.token .blockMappingStart
    setAllowKey false
  | none =>
    beginBlock .blockMappingStart
    setAllowKey (p.flow = 0)
    dropKey
  mark .value

/-- A token that may begin a key. -/
def keyed (scan : Lexer Token) : Lexer Unit := do
  saveKey
  setAllowKey false
  emit (← scan)

/-- A character that a plain scalar cannot begin with, whatever follows. -/
def isIndicator (c : Char) : Bool := c ∈ ",[]\x7b\x7d#&*!|>'\"%@`".toList

/-- Whether a plain scalar begins at the cursor. -/
def beginsPlain (p : Progress) : Bool :=
  let c := p.cursor.head
  if isGap c || isIndicator c then false
  else if c = '-' then !isGap (p.cursor.peek 1)
  else if c = '?' ∨ c = ':' then p.flow = 0 && !isGap (p.cursor.peek 1)
  else true

/-- Reads the next token, and says whether it is the last one. -/
def token : Lexer Bool := do
  skipBlank ((← cursor).rest.length + 1)
  dropStaleKeys
  unwind (← cursor).column
  let p ← get
  let c := p.cursor.head
  let isMark := p.flow ≠ 0 || isGap (p.cursor.peek 1)
  let atStart := p.cursor.column = 0
  if isEnd c then
    streamEnd
    return true
  if c = '%' ∧ atStart then
    unwind (-1)
    dropKey
    setAllowKey false
    emit (← directive)
  else if c = '-' ∧ atStart ∧ p.cursor.isSeparator then documentMark .documentStart
  else if c = '.' ∧ atStart ∧ p.cursor.isSeparator then documentMark .documentEnd
  else if c = '[' then openBracket .flowSequenceStart
  else if c = '\x7b' then openBracket .flowMappingStart
  else if c = ']' then closeBracket .flowSequenceEnd
  else if c = '\x7d' then closeBracket .flowMappingEnd
  else if c = ',' then
    setAllowKey true
    dropKey
    mark .flowEntry
  else if c = '-' ∧ isGap (p.cursor.peek 1) then blockEntry
  else if c = '?' ∧ isMark then keyMark
  else if c = ':' ∧ isMark then valueMark
  else if c = '*' then keyed (return .repeated (← name))
  else if c = '&' then keyed (return .anchor (← name))
  else if c = '!' then keyed (return .tag (← tagText))
  else if (c = '|' ∨ c = '>') ∧ p.flow = 0 then
    setAllowKey true
    dropKey
    emit (.scalar (points (← blockScalar (c = '>'))) false)
  else if c = '\'' ∨ c = '"' then keyed (return .scalar (← quotedScalar c) false)
  else if beginsPlain p then
    keyed (return .scalar (points (← plain [] [] (p.cursor.rest.length + 1))) true)
  else fail
  return false

/-- Reads all tokens, `fuel` of them at most. -/
def all : Nat → Lexer Unit
  | 0 => fail
  | fuel + 1 => do if !(← token) then all fuel

end Lexer

/-- How many characters of a text are read at a time; first there are two such pieces. -/
def pieceLength : Nat := 4096

/-- How many characters are read before the piece with the character at a place. -/
def readBefore (place : Nat) : Nat :=
  if place < 2 * pieceLength then 0 else place / pieceLength * pieceLength

/-- The tokens of a text whose characters are all allowed. Every token but the last one takes a
character, so the length of the text bounds their number. -/
def Token.ofAllowed (cs : List Char) : List Token :=
  let cs := if cs.head? = some mark then cs.drop 1 else cs
  match (Lexer.all (cs.length + 2)).run (Progress.ofText cs) with
  | .ok _ p => p.tokens.toList
  | .error f p => p.tokens.toList ++ [.broken f]

/-- The tokens of a text, up to the piece with a character that is not allowed. -/
def Token.ofText (cs : List Char) : List Token :=
  match cs.findIdx? fun c => !isAllowed c with
  | none => Token.ofAllowed cs
  | some place =>
    (Token.ofAllowed (cs.take (readBefore place))).filter (· ≠ .streamEnd) ++ [.broken .malformed]

end MailMerge.Yaml
