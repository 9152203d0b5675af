import MailMerge.Calendar
import MailMerge.Text.Lines
import MailMerge.Text.Quoted

/-!
# Field values

What a data file can hold for a field, and its texts. `Value.render` is the text a merge inserts
for a value from a file: a list becomes one line for each item. `Value.plain` is the text of a value
that is handed to a merge directly, and `Value.shown` the one that stands for a value inside of
another. A value has no text if an integer in it is too long, if its lines come from a list that is
inside of itself, or if there is no room for the calls inside of each other that make its text.
-/

namespace MailMerge

/-- A value of a data file. `again` stands for a list or mapping inside of itself. -/
inductive Value where
  | null
  | bool (b : Bool)
  | int (n : Int)
  | float (x : Float)
  | text (ps : Points)
  | bytes (bs : List UInt8)
  | date (d : Calendar.Date)
  | moment (m : Calendar.Moment)
  | list (items : List Value)
  | tuple (items : List Value)
  | mapping (entries : List (Value × Value))
  | set (items : List Value)
  | again (ofList : Bool)

namespace Value

def commaSeparated (items : List (List Char)) : List Char := List.intercalate [',', ' '] items

/-- A call with the given arguments, as dates are shown inside of other values. -/
def call (name : String) (arguments : List (List Char)) : List Char :=
  ("datetime." ++ name ++ "(").toList ++ commaSeparated arguments ++ [')']

/-- An amount of time in minutes, as days and seconds of the last of them. -/
def spanText (minutes : Int) : List Char :=
  let days := minutes.fdiv 1440
  let seconds := minutes.fmod 1440 * 60
  let arguments :=
    (if days = 0 then [] else ["days=".toList ++ Decimal.intText days]) ++
    (if seconds = 0 then [] else ["seconds=".toList ++ Decimal.intText seconds])
  call "timedelta" (if arguments = [] then [['0']] else arguments)

def zoneText (minutes : Int) : List Char :=
  if minutes = 0 then "datetime.timezone.utc".toList else call "timezone" [spanText minutes]

def dateShown (d : Calendar.Date) : List Char :=
  call "date" ([d.year, d.month, d.day].map Decimal.natText)

def momentShown (m : Calendar.Moment) : List Char :=
  let clock :=
    if m.micro ≠ 0 then [m.hour, m.minute, m.second, m.micro]
    else if m.second ≠ 0 then [m.hour, m.minute, m.second]
    else [m.hour, m.minute]
  call "datetime" (([m.date.year, m.date.month, m.date.day] ++ clock).map Decimal.natText ++
    (m.offset.map fun minutes => "tzinfo=".toList ++ zoneText minutes).toList)

/-- Why a value has no text: an integer is too long, or the calls that make the text have no end or
no room. -/
inductive TextFault where
  | longInteger
  | endless
deriving DecidableEq

/-- The text of an integer. -/
def integerText (n : Int) : Except TextFault (List Char) :=
  if Nat.pow 10 Decimal.maxIntegerDigits ≤ n.natAbs then .error .longInteger
  else .ok (Decimal.intText n)

mutual

/-- The text that stands for a value inside of another one. -/
def shown : Value → Except TextFault (List Char)
  | null => .ok "None".toList
  | bool b => .ok (if b then "True" else "False").toList
  | int n => integerText n
  | float x => .ok (Decimal.floatText x)
  | text ps => .ok (Text.quoted ps)
  | bytes bs => .ok (Text.quotedBytes bs)
  | date d => .ok (dateShown d)
  | moment m => .ok (momentShown m)
  | list items => do return '[' :: commaSeparated (← shownAll items) ++ [']']
  | tuple items => do
    match ← shownAll items with
    | [item] => return '(' :: item ++ [',', ')']
    | items => return '(' :: commaSeparated items ++ [')']
  | mapping entries => do return '\x7b' :: commaSeparated (← shownEntries entries) ++ ['\x7d']
  | set [] => .ok "set()".toList
  | set items => do return '\x7b' :: commaSeparated (← shownAll items) ++ ['\x7d']
  | again ofList => .ok (if ofList then "[...]" else "\x7b...\x7d").toList

def shownAll : List Value → Except TextFault (List (List Char))
  | [] => .ok []
  | v :: rest => do
    let front ← v.shown
    return front :: (← shownAll rest)

def shownEntries : List (Value × Value) → Except TextFault (List (List Char))
  | [] => .ok []
  | (k, v) :: rest => do
    let key ← k.shown
    let value ← v.shown
    return (key ++ ':' :: ' ' :: value) :: (← shownEntries rest)

end

/-- The text of a value on its own. -/
def alone : Value → Except TextFault Points
  | text ps => .ok ps
  | date d => .ok (points d.iso)
  | moment m => .ok (points (m.iso ' '))
  | v => points <$> v.shown

/-- The text of a value on its own, where there is room for those that `shows` says. A text is its
own text. -/
def plain (shows : Value → Bool) : Value → Except TextFault Points
  | text ps => .ok ps
  | v => if shows v then v.alone else .error .endless

/-- What there is room for in the rendering of values: `fits n v` says that the call for the value
`v` inside of those for `n` lists can be made, and all that it calls but the calls for items. What
fits inside of a list fits without it. -/
structure Room where
  fits : Nat → Value → Bool
  mono {n : Nat} {v : Value} (h : fits (n + 1) v = true) : fits n v = true

mutual

/-- The text a value from a data file has in a document, where it is inside of `depth` lists. -/
def renderAt (room : Room) (depth : Nat) : Value → Except TextFault Points
  | again true => .error .endless
  | v =>
    if room.fits depth v then
      match v with
      | null => .ok []
      | text ps => .ok ps
      | bool b => .ok (points (if b then "true" else "false").toList)
      | date d => .ok (points d.iso)
      | moment m => .ok (points (m.iso 'T'))
      | list items | tuple items => Text.joinLines <$> renderAll room (depth + 1) items
      | v => v.alone
    else .error .endless

def renderAll (room : Room) (depth : Nat) : List Value → Except TextFault (List Points)
  | [] => .ok []
  | v :: rest => do
    let front ← v.renderAt room depth
    return front :: (← renderAll room depth rest)

end

/-- The text a value from a data file has in a document. -/
def render (room : Room) (v : Value) : Except TextFault Points := v.renderAt room 0

/-- Whether a value says something: it is not null, false, zero or empty. -/
def isTruthy : Value → Bool
  | null => false
  | bool b => b
  | int n => n ≠ 0
  | float x => x != 0
  | text ps => !ps.isEmpty
  | bytes bs => !bs.isEmpty
  | date _ | moment _ | again _ => true
  | list items | tuple items | set items => !items.isEmpty
  | mapping entries => !entries.isEmpty

/-- Whether a floating-point number is the given integer. -/
def floatIsInt (x : Float) (n : Int) : Bool :=
  if x.isNaN || x.isInf then false
  else
    let bits := x.toBits
    let (m, q) := Decimal.binaryParts bits
    let magnitude := Decimal.Ratio.ofPower m 2 q
    let signed : Int := if bits >>> 63 = 1 then -magnitude.num else magnitude.num
    signed == n * magnitude.den

/-- The integer a value counts as among keys. -/
def asInt? : Value → Option Int
  | int n => some n
  | bool b => some (if b then 1 else 0)
  | _ => none

/-- Whether two values are the same key: truth values are the numbers one and zero, and numbers are
compared by what they are and not by how they are written. -/
def sameKey (v w : Value) : Bool :=
  match v.asInt?, w.asInt? with
  | some m, some n => m == n
  | some m, none => match w with
    | float x => floatIsInt x m
    | _ => false
  | none, some n => match v with
    | float x => floatIsInt x n
    | _ => false
  | none, none => match v, w with
    | null, null => true
    | float x, float y => x == y || (x.isNaN && y.isNaN)
    | text a, text b => a == b
    | bytes a, bytes b => a == b
    | date a, date b => a == b
    | moment a, moment b => a.same b
    | _, _ => false

/-- The entries with `k` mapped to `v`: in the place of a key that is the same, or at the end. -/
def insertEntry {α : Type} (k : Value) (v : α) : List (Value × α) → List (Value × α)
  | [] => [(k, v)]
  | (k', v') :: rest =>
    if sameKey k k' then (k', v) :: rest else (k', v') :: insertEntry k v rest

end Value

end MailMerge
