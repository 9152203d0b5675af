import MailMerge.Decimal.Number

/-!
# Dates and times of day

Days of the Gregorian calendar from year 1 to 9999, and times on them to the microsecond with or
without an offset from universal time. `Date.of?` and `Moment.of?` admit what exists and say what
is out of range otherwise.
-/

namespace MailMerge.Calendar

/-- What is wrong with the parts of a date or time. -/
inductive Fault where
  | year (n : Nat)
  | month
  | day
  | hour
  | minute
  | second
  | offset (minutes : Int)
deriving DecidableEq

structure Date where
  year : Nat
  month : Nat
  day : Nat
deriving DecidableEq

/-- A time on a day, with its offset from universal time in minutes if it is known. -/
structure Moment where
  date : Date
  hour : Nat
  minute : Nat
  second : Nat
  micro : Nat
  offset : Option Int
deriving DecidableEq

def isLeap (year : Nat) : Bool := year % 4 = 0 && (year % 100 ≠ 0 || year % 400 = 0)

def daysInMonth (year month : Nat) : Nat :=
  if month = 2 then if isLeap year then 29 else 28
  else if month ∈ [4, 6, 9, 11] then 30
  else 31

/-- The day with the given parts, if there is such a day. -/
def Date.of? (year month day : Nat) : Except Fault Date :=
  if year < 1 ∨ 9999 < year then .error (.year year)
  else if month < 1 ∨ 12 < month then .error .month
  else if day < 1 ∨ daysInMonth year month < day then .error .day
  else .ok ⟨year, month, day⟩

/-- The time with the given parts, if there is such a time. An offset is less than a day. -/
def Moment.of? (year month day hour minute second micro : Nat) (offset : Option Int) :
    Except Fault Moment := do
  if let some minutes := offset then
    if 1440 ≤ minutes.natAbs then throw (.offset minutes)
  let date ← Date.of? year month day
  if 23 < hour then throw .hour
  if 59 < minute then throw .minute
  if 59 < second then throw .second
  return ⟨date, hour, minute, second, micro, offset⟩

/-- A number with zeros in front up to a width. -/
def padded (width n : Nat) : List Char :=
  let digits := Decimal.natText n
  List.replicate (width - digits.length) '0' ++ digits

def Date.iso (d : Date) : List Char :=
  padded 4 d.year ++ '-' :: padded 2 d.month ++ '-' :: padded 2 d.day

/-- An offset as hours and minutes with a sign. -/
def offsetText (minutes : Int) : List Char :=
  (if minutes < 0 then '-' else '+') ::
    padded 2 (minutes.natAbs / 60) ++ ':' :: padded 2 (minutes.natAbs % 60)

/-- The time as text, with `sep` between day and time of day. -/
def Moment.iso (m : Moment) (sep : Char) : List Char :=
  m.date.iso ++ sep :: padded 2 m.hour ++ ':' :: padded 2 m.minute ++ ':' :: padded 2 m.second ++
    (if m.micro = 0 then [] else '.' :: padded 6 m.micro) ++
    (m.offset.map offsetText).getD []

/-- The days from the first of January of year 1. -/
def Date.ordinal (d : Date) : Nat :=
  let y := d.year - 1
  365 * y + y / 4 - y / 100 + y / 400 +
    (List.range (d.month - 1)).foldl (fun days k => days + daysInMonth d.year (k + 1)) 0 + d.day

/-- Microseconds of universal time, for a time with an offset. -/
def Moment.instant? (m : Moment) : Option Int :=
  m.offset.map fun minutes =>
    ((((m.date.ordinal * 24 + m.hour) * 60 + m.minute : Int) - minutes) * 60 + m.second) * 1000000
      + m.micro

/-- Whether two times are the same: the same instant if both have an offset, the same reading of
the clock if none has. -/
def Moment.same (m n : Moment) : Bool :=
  match m.instant?, n.instant? with
  | some a, some b => a == b
  | none, none => m == n
  | _, _ => false

end MailMerge.Calendar
