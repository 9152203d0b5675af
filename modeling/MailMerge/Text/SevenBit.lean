import MailMerge.Text.Base64
import MailMerge.Text.DoubleByte
import MailMerge.Text.Surrogate

/-!
# Encodings in bytes of seven bits

Encodings that use the lower half of the bytes only. Some of the bytes say what those behind them
stand for: characters one by one, pairs of bytes, or 16 bits each written as base 64 digits.
-/

namespace MailMerge.Text.SevenBit

open DoubleByte in
/-- The character of two bytes that would have the upper half of the bytes in another encoding. -/
def pair? (cells : Array Char) (a b : UInt8) : Option Char :=
  if 0x80 ≤ a ∨ 0x80 ≤ b then none else upperPair? cells (a + 0x80) (b + 0x80)

/-- The character of a byte on its own: one of the Roman alphabet of Japanese, if `isRoman`. -/
def single? (isRoman : Bool) (b : UInt8) : Option Char :=
  if b = 0x1b ∨ 0x80 ≤ b then none
  else if isRoman then DoubleByte.romanOrKana? b
  else DoubleByte.ascii? b

/-- The text of bytes in which an escape says whether what follows is one by one or, if `inPairs`,
Japanese in pairs. -/
def escaped? (inPairs isRoman : Bool) : List UInt8 → Option (List Char)
  | [] => some []
  | 0x1b :: 0x28 :: 0x42 :: rest => escaped? false false rest
  | 0x1b :: 0x28 :: 0x4a :: rest => escaped? false true rest
  | 0x1b :: 0x24 :: 0x40 :: rest => escaped? true false rest
  | 0x1b :: 0x24 :: 0x42 :: rest => escaped? true false rest
  | [a] => if inPairs then none else ([·]) <$> single? isRoman a
  | a :: b :: rest =>
    if inPairs then do
      let c ← pair? DoubleByte.japaneseCells a b
      return c :: (← escaped? inPairs isRoman rest)
    else do
      let c ← single? isRoman a
      return c :: (← escaped? inPairs isRoman (b :: rest))

/-- The text of bytes in which a tilde and a brace say whether what follows is one by one or, if
`inPairs`, Chinese in pairs. Two tildes are one, and a tilde joins two lines. -/
def tilded? (inPairs : Bool) : List UInt8 → Option (List Char)
  | [] => some []
  | 0x7e :: b :: rest =>
    if inPairs then if b = 0x7d then tilded? false rest else none
    else if b = 0x7e then ('~' :: ·) <$> tilded? false rest
    else if b = 0x7b then tilded? true rest
    else if b = 0x0a then tilded? false rest
    else none
  | [a] => if inPairs ∨ a = 0x7e then none else ([·]) <$> single? false a
  | a :: b :: rest =>
    if inPairs then do
      let c ← pair? DoubleByte.chineseCells a b
      return c :: (← tilded? inPairs rest)
    else do
      let c ← single? false a
      return c :: (← tilded? inPairs (b :: rest))

/-- Whether a byte stands for its own character outside of a run of digits. -/
def isDirect (b : UInt8) : Bool :=
  (0x20 ≤ b && b ≤ 0x7d && b ≠ 0x2b && b ≠ 0x5c) || b = 0x09 || b = 0x0a || b = 0x0d

/-- The code units that base 64 digits make: `held` has the bits that are left over, `count` says
how many they are. What is left over in the end is less than a digit and has no bits set. -/
def units? (held count : Nat) : List Nat → Option (List Nat)
  | [] => if count < 6 ∧ held = 0 then some [] else none
  | digit :: rest =>
    let held := held * 64 + digit
    let count := count + 6
    if count < 16 then units? held count rest
    else (held >>> (count - 16) :: ·) <$> units? (held % (1 <<< (count - 16))) (count - 16) rest

/-- The number of the base 64 digit that a byte is. -/
def digit? (b : UInt8) : Option Nat := sixBits? (Char.ofNat b.toNat)

/-- The text of a run of digits. -/
def ofDigits? (digits : List Nat) : Option (List Char) := (units? 0 0 digits).bind joinPairs?

/-- The text of bytes with runs of base 64 digits behind plus signs; a hyphen behind a run belongs
to it, and stands for the plus sign if there are no digits. `digits` has those of the run so far,
the last one first. -/
def utf7From? (digits : Option (List Nat)) : List UInt8 → Option (List Char)
  | [] => (digits.map fun digits => ofDigits? digits.reverse).getD (some [])
  | b :: rest =>
    match digits, digit? b with
    | some before, some digit => utf7From? (some (digit :: before)) rest
    | some before, none =>
      if b = 0x2d then do
        let front ← if before = [] then some ['+'] else ofDigits? before.reverse
        return front ++ (← utf7From? none rest)
      else if isDirect b ∧ before ≠ [] then do
        let front ← ofDigits? before.reverse
        return front ++ Char.ofNat b.toNat :: (← utf7From? none rest)
      else none
    | none, _ =>
      if b = 0x2b then utf7From? (some []) rest
      else if isDirect b then (Char.ofNat b.toNat :: ·) <$> utf7From? none rest
      else none

def utf7? (bytes : List UInt8) : Option (List Char) := utf7From? none bytes

end MailMerge.Text.SevenBit
