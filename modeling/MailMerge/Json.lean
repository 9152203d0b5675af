import MailMerge.Text.Encoding
import MailMerge.Value

/-!
# JSON

Reads JSON text into a value. Besides the standard's numbers, `NaN`, `Infinity` and `-Infinity` are
read. A number with neither fraction nor exponent is an integer. A repeated name keeps its first
place and takes its last value. An escaped half of a character stays a surrogate where the other half
does not follow.
-/

namespace MailMerge.Json

/-- Why a text cannot be read: it is not JSON, it has an integer of too many digits, or there is no
room for a list or mapping inside of others. -/
inductive Fault where
  | malformed
  | longInteger (digits : Nat)
  | tooDeep (inList : Bool)
deriving DecidableEq

/-- For which lists and mappings there is room in a reader, by the number of those around them and by
the text behind the opening bracket. -/
abbrev Room := Nat → List Char → Bool

abbrev Parsed (α : Type) := Except Fault (α × List Char)

def isSpace (c : Char) : Bool := c = ' ' || c = '\t' || c = '\n' || c = '\r'

def skipSpace (cs : List Char) : List Char := cs.dropWhile isSpace

def hexValue? (c : Char) : Option Nat :=
  if '0' ≤ c ∧ c ≤ '9' then some (c.toNat - '0'.toNat)
  else if 'a' ≤ c ∧ c ≤ 'f' then some (c.toNat - 'a'.toNat + 10)
  else if 'A' ≤ c ∧ c ≤ 'F' then some (c.toNat - 'A'.toNat + 10)
  else none

/-- The number written in four hexadecimal digits, and what follows. -/
def hex4? : List Char → Option (Nat × List Char)
  | a :: b :: c :: d :: rest => do
    let a ← hexValue? a
    let b ← hexValue? b
    let c ← hexValue? c
    let d ← hexValue? d
    return (((a * 16 + b) * 16 + c) * 16 + d, rest)
  | _ => none

/-- The code point that the code unit `n` stands for, together with a second escaped code unit
where the two form a pair. -/
def pairUp (n : Nat) (rest : List Char) : Option (CodePoint × List Char) :=
  match rest with
  | '\\' :: 'u' :: more =>
    if Text.isHighSurrogate n then do
      let (low, after) ← hex4? more
      if Text.isLowSurrogate low then return (.char (Text.ofSurrogates n low), after)
      else return (.ofNat n, rest)
    else some (.ofNat n, rest)
  | _ => some (.ofNat n, rest)

/-- The code point written after a backslash. -/
def escaped? : List Char → Option (CodePoint × List Char)
  | '"' :: rest => some (.char '"', rest)
  | '\\' :: rest => some (.char '\\', rest)
  | '/' :: rest => some (.char '/', rest)
  | 'b' :: rest => some (.char '\x08', rest)
  | 'f' :: rest => some (.char '\x0c', rest)
  | 'n' :: rest => some (.char '\n', rest)
  | 'r' :: rest => some (.char '\r', rest)
  | 't' :: rest => some (.char '\t', rest)
  | 'u' :: rest => (hex4? rest).bind fun (n, after) => pairUp n after
  | _ => none

/-- The rest of a string behind its opening quote. -/
def string (fuel : Nat) (acc : Points) (cs : List Char) : Parsed Points :=
  match fuel, cs with
  | _ + 1, '"' :: rest => .ok (acc.reverse, rest)
  | fuel + 1, '\\' :: rest =>
    match escaped? rest with
    | some (p, after) => string fuel (p :: acc) after
    | none => .error .malformed
  | fuel + 1, c :: rest =>
    if c < ' ' then .error .malformed else string fuel (.char c :: acc) rest
  | _, _ => .error .malformed

def isDigit (c : Char) : Bool := '0' ≤ c && c ≤ '9'

def digitsValue (cs : List Char) : Nat :=
  cs.foldl (fun n c => n * 10 + (c.toNat - '0'.toNat)) 0

/-- The digits after a point, if there are any. -/
def fraction (cs : List Char) : List Char × List Char :=
  match cs with
  | '.' :: rest =>
    match rest.takeWhile isDigit with
    | [] => ([], cs)
    | digits => (digits, rest.dropWhile isDigit)
  | _ => ([], cs)

/-- A signed exponent, if there is one. -/
def exponent? (cs : List Char) : Option Int × List Char :=
  match cs with
  | e :: rest =>
    if e = 'e' ∨ e = 'E' then
      let (negative, rest) := match rest with
        | '-' :: more => (true, more)
        | '+' :: more => (false, more)
        | _ => (false, rest)
      match rest.takeWhile isDigit with
      | [] => (none, cs)
      | digits =>
        let n : Int := digitsValue digits
        (some (if negative then -n else n), rest.dropWhile isDigit)
    else (none, cs)
  | [] => (none, cs)

/-- A number without its sign. -/
def unsigned (negative : Bool) (cs : List Char) : Parsed Value :=
  let whole := match cs with
    | '0' :: _ => ['0']
    | _ => cs.takeWhile isDigit
  if whole.isEmpty then .error .malformed
  else
    let (decimals, rest) := fraction (cs.drop whole.length)
    let (exponent, rest) := exponent? rest
    if decimals.isEmpty && exponent.isNone then
      if Decimal.maxIntegerDigits < whole.length then .error (.longInteger whole.length)
      else
        let n : Int := digitsValue whole
        .ok (.int (if negative then -n else n), rest)
    else
      let x := Decimal.toFloat (digitsValue (whole ++ decimals))
        (exponent.getD 0 - decimals.length)
      .ok (.float (if negative then -x else x), rest)

/-- A value that is written in letters, or a number. -/
def scalar (cs : List Char) : Parsed Value :=
  match cs with
  | 'n' :: 'u' :: 'l' :: 'l' :: rest => .ok (.null, rest)
  | 't' :: 'r' :: 'u' :: 'e' :: rest => .ok (.bool true, rest)
  | 'f' :: 'a' :: 'l' :: 's' :: 'e' :: rest => .ok (.bool false, rest)
  | 'N' :: 'a' :: 'N' :: rest => .ok (.float (0.0 / 0.0), rest)
  | 'I' :: 'n' :: 'f' :: 'i' :: 'n' :: 'i' :: 't' :: 'y' :: rest => .ok (.float (1.0 / 0.0), rest)
  | '-' :: 'I' :: 'n' :: 'f' :: 'i' :: 'n' :: 'i' :: 't' :: 'y' :: rest =>
    .ok (.float (-1.0 / 0.0), rest)
  | '-' :: rest => unsigned true rest
  | _ => unsigned false cs

mutual

/-- A value at the beginning of a text, with `depth` lists and mappings around it. -/
def value (room : Room) (fuel depth : Nat) (cs : List Char) : Parsed Value :=
  match fuel with
  | 0 => .error .malformed
  | fuel + 1 =>
    match cs with
    | '"' :: rest => (string fuel [] rest).map fun (text, rest) => (.text text, rest)
    | '[' :: rest =>
      if room depth rest then
        match skipSpace rest with
        | ']' :: rest => .ok (.list [], rest)
        | rest => items room fuel (depth + 1) [] rest
      else .error (.tooDeep true)
    | '\x7b' :: rest =>
      if room depth rest then
        match skipSpace rest with
        | '\x7d' :: rest => .ok (.mapping [], rest)
        | rest => members room fuel (depth + 1) [] rest
      else .error (.tooDeep false)
    | _ => scalar cs

/-- The rest of a list, from an item on. -/
def items (room : Room) (fuel depth : Nat) (acc : List Value) (cs : List Char) : Parsed Value :=
  match fuel with
  | 0 => .error .malformed
  | fuel + 1 =>
    match value room fuel depth cs with
    | .error e => .error e
    | .ok (v, rest) =>
      match skipSpace rest with
      | ',' :: rest => items room fuel depth (v :: acc) (skipSpace rest)
      | ']' :: rest => .ok (.list (v :: acc).reverse, rest)
      | _ => .error .malformed

/-- The rest of a mapping, from a name on. -/
def members (room : Room) (fuel depth : Nat) (acc : List (Value × Value)) (cs : List Char) :
    Parsed Value :=
  match fuel with
  | 0 => .error .malformed
  | fuel + 1 =>
    match cs with
    | '"' :: rest =>
      match string fuel [] rest with
      | .error e => .error e
      | .ok (name, rest) =>
        match skipSpace rest with
        | ':' :: rest =>
          match value room fuel depth (skipSpace rest) with
          | .error e => .error e
          | .ok (v, rest) =>
            let acc := Value.insertEntry (.text name) v acc
            match skipSpace rest with
            | ',' :: rest => members room fuel depth acc (skipSpace rest)
            | '\x7d' :: rest => .ok (.mapping acc, rest)
            | _ => .error .malformed
        | _ => .error .malformed
    | _ => .error .malformed

end

/-- The value of a JSON text. Every step takes at least one character, so the length of the text
bounds their number. -/
def parse (room : Room) (cs : List Char) : Except Fault Value := do
  let (v, rest) ← value room (2 * cs.length + 2) 0 (skipSpace cs)
  if (skipSpace rest).isEmpty then return v else throw .malformed

end MailMerge.Json
