import MailMerge.Decimal.Shortest
import MailMerge.Text.Blank
import MailMerge.Text.Digit

/-!
# Numbers as text

Floating-point numbers are written with their shortest decimal: in positions from `10 ^ -4` up to
`10 ^ 16` with at least one digit after the point, beyond that with an exponent that has a sign and
two digits or more. Numbers are read with digits of any script, and a digit may be set off from
another by one underscore.
-/

namespace MailMerge.Decimal

/-- The decimal digits of a natural number. -/
def natText (n : Nat) : List Char := Nat.toDigits 10 n

def intText : Int → List Char
  | .ofNat n => natText n
  | .negSucc n => '-' :: natText (n + 1)

/-- Where positional writing begins and ends, as powers of ten of the first digit. -/
structure Positional where
  least : Int
  beyond : Int

def positional : Positional := ⟨-4, 16⟩

/-- The exponent with its sign and at least two digits. -/
def exponentText (e : Int) : List Char :=
  let digits := natText e.natAbs
  (if e < 0 then '-' else '+') :: (if digits.length < 2 then '0' :: digits else digits)

/-- A positive decimal as text. -/
def scaledText (d : Scaled) : List Char :=
  let digits := natText d.digits
  let top : Int := d.exponent + digits.length - 1
  if positional.least ≤ top ∧ top < positional.beyond then
    if 0 ≤ d.exponent then digits ++ List.replicate d.exponent.toNat '0' ++ ['.', '0']
    else if 0 ≤ top then
      digits.take (top + 1).toNat ++ '.' :: digits.drop (top + 1).toNat
    else '0' :: '.' :: List.replicate (-top - 1).toNat '0' ++ digits
  else
    match digits with
    | [] => []
    | first :: [] => first :: 'e' :: exponentText top
    | first :: rest => first :: '.' :: rest ++ 'e' :: exponentText top

/-- The parts of a finite number other than zero: `m` and `q` with `m * 2 ^ q` its magnitude. -/
def binaryParts (bits : UInt64) : Nat × Int :=
  let field := ((bits >>> 52) &&& 0x7ff).toNat
  let fraction := (bits &&& 0xfffffffffffff).toNat
  if field = 0 then (fraction, -1074) else (fraction + 0x10000000000000, (field : Int) - 1075)

/-- A floating-point number as text. -/
def floatText (x : Float) : List Char :=
  let bits := x.toBits
  let sign := if bits >>> 63 = 1 then ['-'] else []
  if x.isNaN then "nan".toList
  else if x.isInf then sign ++ "inf".toList
  else
    let (m, q) := binaryParts bits
    sign ++ if m = 0 then "0.0".toList else scaledText (shortest m q)

/-- The floating-point number nearest to `digits * 10 ^ exponent`. Decimals beyond the range of
the format are settled without a large power of ten. -/
def toFloat (digits : Nat) (exponent : Int) : Float :=
  if digits = 0 then 0
  else
    let size := exponent + digitCount digits
    if 310 < size then 1.0 / 0.0
    else if size < -330 then 0
    else Float.ofScientific digits (exponent < 0) exponent.natAbs

/-- Digit values with single underscores between digits. `afterDigit` says whether an underscore
may come next. -/
def digitsIn? (value? : Char → Option Nat) : Bool → List Char → Option (List Nat)
  | afterDigit, [] => if afterDigit then some [] else none
  | afterDigit, c :: rest =>
    if c = '_' then if afterDigit then digitsIn? value? false rest else none
    else do
      let d ← value? c
      let ds ← digitsIn? value? true rest
      return d :: ds

def ofDigits (base : Nat) (digits : List Nat) : Nat := digits.foldl (fun n d => n * base + d) 0

/-- The value of a digit or letter in a base up to 36. -/
def baseDigit? (base : Nat) (c : Char) : Option Nat :=
  let value? := match Text.digitValue? c with
    | some d => some d
    | none =>
      if 'a' ≤ c ∧ c ≤ 'z' then some (c.toNat - 'a'.toNat + 10)
      else if 'A' ≤ c ∧ c ≤ 'Z' then some (c.toNat - 'A'.toNat + 10)
      else none
  value?.filter (· < base)

/-- A sign in front, and what it is in front of. -/
def splitSign : List Char → Bool × List Char
  | '-' :: rest => (true, rest)
  | '+' :: rest => (false, rest)
  | cs => (false, cs)

/-- The characters that may stand around a number: white space other than the information
separators. -/
def isNumberBlank (c : Char) : Bool := Text.isBlank c && !(0x1c ≤ c.toNat && c.toNat ≤ 0x1f)

/-- The text without the white space at both ends. -/
def trimmed (cs : List Char) : List Char :=
  ((cs.dropWhile isNumberBlank).reverse.dropWhile isNumberBlank).reverse

/-- What follows the mark of a base, `0b`, `0o` or `0x`, if the text has that of the given one. -/
def behindBaseMark (base : Nat) : List Char → List Char
  | '0' :: c :: rest =>
    let marks :=
      if base = 2 then "bB" else if base = 8 then "oO" else if base = 16 then "xX" else ""
    if c ∈ marks.toList then
      match rest with
      | '_' :: rest => rest
      | rest => rest
    else '0' :: c :: rest
  | cs => cs

/-- Why a text is no integer: its form is wrong, or it has too many digits. -/
inductive IntegerFault where
  | malformed
  | tooLong (digits : Nat)
deriving DecidableEq

/-- The most decimal digits of an integer that is read or written. -/
def maxIntegerDigits : Nat := 4300

/-- How many digits a text has in front. Single underscores may part them; nothing, if an underscore
does not stand between two digits. -/
def digitsInFront? (cs : List Char) : Option Nat :=
  let front := cs.takeWhile fun c => Text.isDecimal c || c = '_'
  (digitsIn? Text.digitValue? false front).map List.length

/-- The integer written in a text in the digits of a base, with or without the mark of the base, and
with white space around it or not. Too many digits are found before what is wrong behind them; where
the base is a power of two, there may be any number of them. -/
def readInteger (base : Nat) (cs : List Char) : Except IntegerFault Int :=
  let (negative, body) := splitSign (trimmed cs)
  let digits := behindBaseMark base body
  match (digitsInFront? digits).filter fun n => base = 10 ∧ maxIntegerDigits < n with
  | some n => .error (.tooLong n)
  | none => match digitsIn? (baseDigit? base) false digits with
    | some ds =>
      let n : Int := ofDigits base ds
      .ok (if negative then -n else n)
    | none => .error .malformed

/-- The digits in front, with what follows them. Single underscores may part them. -/
def digitsAhead (cs : List Char) : List Char × List Char :=
  let isPart (c : Char) : Bool := Text.isDecimal c || c = '_'
  (cs.takeWhile isPart, cs.dropWhile isPart)

/-- The digits of a part of a number, which may be empty. -/
def partDigits? (cs : List Char) : Option (List Nat) :=
  if cs = [] then some [] else digitsIn? Text.digitValue? false cs

/-- The exponent behind a number; zero where there is none. -/
def exponent? : List Char → Option Int
  | [] => some 0
  | e :: rest =>
    if e = 'e' ∨ e = 'E' then do
      let (negative, digits) := splitSign rest
      let ds ← digitsIn? Text.digitValue? false digits
      let n : Int := ofDigits 10 ds
      return if negative then -n else n
    else none

/-- The floating-point number written in a text, with white space around it or not. -/
def readFloat? (cs : List Char) : Option Float := do
  let (negative, body) := splitSign (trimmed cs)
  let word := String.ofList (body.map Char.toLower)
  let x ←
    if word = "inf" ∨ word = "infinity" then some (1.0 / 0.0 : Float)
    else if word = "nan" then some (0.0 / 0.0)
    else
      let (whole, rest) := digitsAhead body
      let (fraction, rest) := match rest with
        | '.' :: rest => digitsAhead rest
        | rest => ([], rest)
      if whole = [] ∧ fraction = [] then none
      else do
        let digits := (← partDigits? whole) ++ (← partDigits? fraction)
        let places : Int := (fraction.filter Text.isDecimal).length
        some (toFloat (ofDigits 10 digits) ((← exponent? rest) - places))
  return if negative then -x else x

end MailMerge.Decimal
