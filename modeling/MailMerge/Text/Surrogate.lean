/-!
# Surrogates

Code units of 16 bits. A character beyond the first plane has two of them, its surrogates.
-/

namespace MailMerge.Text

/-- A code unit that is the first half of a character beyond the first plane. -/
def isHighSurrogate (n : Nat) : Bool := 0xd800 ≤ n && n ≤ 0xdbff

/-- A code unit that is the second half of a character beyond the first plane. -/
def isLowSurrogate (n : Nat) : Bool := 0xdc00 ≤ n && n ≤ 0xdfff

/-- The character that two halves stand for. -/
def ofSurrogates (high low : Nat) : Char :=
  Char.ofNat (0x10000 + (high - 0xd800) * 0x400 + (low - 0xdc00))

/-- The characters of code units of 16 bits. -/
def joinPairs? : List Nat → Option (List Char)
  | [] => some []
  | high :: rest =>
    if isHighSurrogate high then
      match rest with
      | low :: rest =>
        if isLowSurrogate low then do return ofSurrogates high low :: (← joinPairs? rest)
        else none
      | [] => none
    else if isLowSurrogate high then none
    else do return Char.ofNat high :: (← joinPairs? rest)

end MailMerge.Text
