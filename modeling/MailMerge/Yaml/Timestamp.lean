import MailMerge.Calendar

/-!
# Timestamps

A timestamp is a day, written as numbers with hyphens, and it may have a time of day and an offset
behind it.
-/

namespace MailMerge.Yaml

/-- The time of day in a timestamp: the digits behind the point of the seconds, and the offset in
minutes. -/
structure Clock where
  hour : Nat
  minute : Nat
  second : Nat
  fraction : List Char
  offset : Option Int
deriving DecidableEq

/-- The numbers of a timestamp. Whether there is such a day and time is not said. -/
structure Timestamp where
  year : Nat
  month : Nat
  day : Nat
  clock : Option Clock
deriving DecidableEq

namespace Timestamp

def digitsValue (cs : List Char) : Nat :=
  cs.foldl (fun n c => n * 10 + (c.toNat - '0'.toNat)) 0

/-- A number of at least `least` and at most `most` digits in front, and what follows it. -/
def number? (least most : Nat) (cs : List Char) : Option (Nat × List Char) :=
  let digits := (cs.take most).takeWhile Char.isDigit
  if digits.length < least then none else some (digitsValue digits, cs.drop digits.length)

/-- What follows a character in front. -/
def expect? (c : Char) : List Char → Option (List Char)
  | d :: rest => if d = c then some rest else none
  | [] => none

def isBlank (c : Char) : Bool := c = ' ' || c = '\t'

/-- The end of a timestamp: nothing, or one line feed. -/
def isDone (cs : List Char) : Bool := cs = [] || cs = ['\n']

/-- An offset up to the end, if there is one. -/
def offset? (cs : List Char) : Option (Option Int) :=
  match cs.dropWhile isBlank with
  | 'Z' :: rest => if isDone rest then some (some 0) else none
  | sign :: rest =>
    if sign = '+' ∨ sign = '-' then do
      let (hours, rest) ← number? 1 2 rest
      let (minutes, rest) ← match rest with
        | ':' :: rest => number? 2 2 rest
        | rest => some (0, rest)
      let offset : Int := hours * 60 + minutes
      if isDone rest then some (some (if sign = '-' then -offset else offset)) else none
    else if isDone cs then some none else none
  | [] => if isDone cs then some none else none

/-- A time of day and an offset up to the end. -/
def clock? (cs : List Char) : Option Clock := do
  let (hour, cs) ← number? 1 2 cs
  let (minute, cs) ← number? 2 2 (← expect? ':' cs)
  let (second, cs) ← number? 2 2 (← expect? ':' cs)
  let (fraction, cs) := match cs with
    | '.' :: rest => (rest.takeWhile Char.isDigit, rest.dropWhile Char.isDigit)
    | cs => ([], cs)
  return ⟨hour, minute, second, fraction, ← offset? cs⟩

/-- What follows the sign between day and time of day. -/
def behindDay? (cs : List Char) : Option (List Char) :=
  match cs with
  | 'T' :: rest => some rest
  | 't' :: rest => some rest
  | c :: rest => if isBlank c then some (rest.dropWhile isBlank) else none
  | [] => none

/-- The timestamp that a text is. -/
def ofText? (cs : List Char) : Option Timestamp := do
  let (year, cs) ← number? 4 4 cs
  let (month, cs) ← number? 1 2 (← expect? '-' cs)
  let (day, cs) ← number? 1 2 (← expect? '-' cs)
  if isDone cs then return ⟨year, month, day, none⟩
  else return ⟨year, month, day, some (← clock? (← behindDay? cs))⟩

/-- Whether a plain text is taken for a timestamp. A day on its own has to have all its digits,
and a line feed at the end is not overlooked here. -/
def isPlain (cs : List Char) : Bool :=
  match ofText? cs with
  | some t => (t.clock.isSome || cs.length = 10) && cs.getLast? ≠ some '\n'
  | none => false

/-- The microseconds that the digits behind the point stand for. -/
def micro (fraction : List Char) : Nat :=
  let digits := fraction.take 6
  digitsValue (digits ++ List.replicate (6 - digits.length) '0')

end Timestamp

end MailMerge.Yaml
