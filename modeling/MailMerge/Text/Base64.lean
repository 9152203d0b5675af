/-!
# Bytes as text

Four letters, digits and signs stand for three bytes. What is none of them is passed over, and
equals signs fill up the last four.
-/

namespace MailMerge.Text

/-- The six bits that a character stands for. -/
def sixBits? (c : Char) : Option Nat :=
  if 'A' ≤ c ∧ c ≤ 'Z' then some (c.toNat - 'A'.toNat)
  else if 'a' ≤ c ∧ c ≤ 'z' then some (c.toNat - 'a'.toNat + 26)
  else if '0' ≤ c ∧ c ≤ '9' then some (c.toNat - '0'.toNat + 52)
  else if c = '+' then some 62
  else if c = '/' then some 63
  else none

/-- The bytes for the rest of a text. `held` has the bits, `place` how many characters of the four
they come from, and `fill` how many equals signs have just been read. -/
def bytesFrom (held place fill : Nat) : List Char → Option (List UInt8)
  | [] => if place = 0 then some [] else none
  | c :: rest =>
    if c = '=' then
      if 2 ≤ place ∧ 4 ≤ place + fill + 1 then some []
      else bytesFrom held place (if 2 ≤ place then fill + 1 else fill) rest
    else match sixBits? c with
      | none => bytesFrom held place fill rest
      | some bits =>
        let all := held * 64 + bits
        match place with
        | 0 => bytesFrom bits 1 0 rest
        | 1 => (bytesFrom (all % 16) 2 0 rest).map ((all / 16).toUInt8 :: ·)
        | 2 => (bytesFrom (all % 4) 3 0 rest).map ((all / 4).toUInt8 :: ·)
        | _ => (bytesFrom 0 0 0 rest).map (all.toUInt8 :: ·)

/-- The bytes that a text stands for. -/
def ofBase64? (cs : List Char) : Option (List UInt8) := bytesFrom 0 0 0 cs

end MailMerge.Text
