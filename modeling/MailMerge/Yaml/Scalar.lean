import MailMerge.Error
import MailMerge.Text.Base64
import MailMerge.Text.LowerCase
import MailMerge.Yaml.Tag

/-!
# Values of scalars

The value that a text has by its tag: a number, a word, a time or bytes. Numbers have their parts
set off by underscores, and those with colons are to the base sixty. Only words and texts can have
surrogates in them; for the others a character stands for each that they cannot have either.
-/

namespace MailMerge.Yaml

/-- Why a text has no value: it cannot be read, or a node has no value of its tag. -/
inductive Problem where
  | malformed
  | node (e : Error)

def bad {α : Type} (fault : NumberFault) : Except Problem α := .error (.node (.number fault))

/-- The integer that a text is in a base. -/
def readInteger (base : Nat) (cs : List Char) : Except Problem Int :=
  (Decimal.readInteger base cs).mapError fun fault => .node (.number (.ofInteger cs base fault))

/-- The value of numbers to the base sixty, the last one first. -/
def sixtieths : List Int → Int
  | [] => 0
  | n :: rest => n + 60 * sixtieths rest

/-- A number without the underscores in it, split from its sign. -/
def signed (cs : List Char) : Except Problem (Bool × List Char) :=
  match cs.filter (· ≠ '_') with
  | [] => .error (.node .emptyNumber)
  | cs => .ok (Decimal.splitSign cs)

/-- The integer that a text is. A zero in front stands for the base eight. -/
def integer (cs : List Char) : Except Problem Int := do
  let (negative, digits) ← signed cs
  let n : Int ← match digits with
    | [] => .error (.node .emptyNumber)
    | ['0'] => .ok 0
    | '0' :: 'b' :: rest => readInteger 2 rest
    | '0' :: 'x' :: rest => readInteger 16 rest
    | '0' :: rest => readInteger 8 ('0' :: rest)
    | digits =>
      if digits.contains ':' then do
        let parts ← (Files.splitChar ':' digits).mapM (readInteger 10)
        pure (sixtieths parts.reverse)
      else readInteger 10 digits
  return if negative then -n else n

def readFloat (cs : List Char) : Except Problem Float :=
  match Decimal.readFloat? cs with
  | some x => .ok x
  | none => bad (.notDecimal cs)

/-- The sum of numbers to the base sixty, the last one first, added up in this order. The factor of
each is the nearest floating-point number of a power of sixty, if there is one. -/
def addSixtieths (sum : Float) (factor : Nat) : List Float → Except Problem Float
  | [] => .ok sum
  | x :: rest =>
    let f := Decimal.toFloat factor 0
    if f.isInf then bad .beyondRange else addSixtieths (sum + x * f) (factor * 60) rest

/-- The floating-point number that a text is. -/
def float (cs : List Char) : Except Problem Float := do
  let (negative, digits) ← signed (Text.lower (points cs)).chars
  let x ←
    if digits = ".inf".toList then .ok (1.0 / 0.0)
    else if digits = ".nan".toList then .ok (0.0 / 0.0)
    else if digits.contains ':' then do
      let parts ← (Files.splitChar ':' digits).mapM readFloat
      addSixtieths 0 1 parts.reverse
    else readFloat digits
  return if negative ∧ digits ≠ ".nan".toList then -x else x

/-- The day or time that a text is. -/
def timestamp (cs : List Char) : Except Problem Value :=
  let checked {α : Type} (f : α → Value) : Except Calendar.Fault α → Except Problem Value
    | .ok a => .ok (f a)
    | .error e => .error (.node (.calendar e))
  match Timestamp.ofText? cs with
  | none => .error (.node .notTimestamp)
  | some t => match t.clock with
    | none => checked .date (Calendar.Date.of? t.year t.month t.day)
    | some c => checked .moment (Calendar.Moment.of? t.year t.month t.day c.hour c.minute c.second
        (Timestamp.micro c.fraction) c.offset)

/-- The truth value that a word is. -/
def truth (ps : Points) : Except Problem Value :=
  let word := Text.lower ps
  if (["yes", "true", "on"].map (points ·.toList)).contains word then .ok (.bool true)
  else if (["no", "false", "off"].map (points ·.toList)).contains word then .ok (.bool false)
  else .error (.node (.unknownWord word))

/-- The value of a scalar. -/
def scalar (tag : Tag) (ps : Points) : Except Problem Value :=
  let cs := ps.chars
  match tag with
  | .null => .ok .null
  | .bool => truth ps
  | .int => (integer cs).map .int
  | .float => (float cs).map .float
  | .binary =>
    match if cs.all fun c => c.toNat < 0x80 then Text.ofBase64? cs else none with
    | some bytes => .ok (.bytes bytes)
    | none => .error .malformed
  | .timestamp => timestamp cs
  | .text => .ok (.text ps)
  | _ => .error .malformed

end MailMerge.Yaml
