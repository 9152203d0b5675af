import MailMerge.Text.Encoding

/-!
# Reading compressed data

Compressed data is a row of bits. Many forms of it have symbols of a prefix code, in which no code
begins another one: such a code is known by the lengths of its codes.

Data that is not of its form is refused. Data that stops too early gives what has been read of it.
-/

namespace MailMerge.Archive

open Text (Bytes)

/-- What keeps data from being read on. -/
inductive Stop where
  | short
  | corrupt

/-- What has come out of compressed data, and whether that was read up to its end. -/
structure Unpacked where
  bytes : Bytes
  ended : Bool
deriving DecidableEq

/-- The bits that are left and the bytes that have been read. -/
structure Progress where
  bits : List Bool
  bytes : Array UInt8

abbrev Decompressor := EStateM Stop Progress

/-- A prefix code: the symbols with codes of each length from one on, in the order of their codes.
The codes of a length follow those of the shorter ones. -/
abbrev PrefixCode := List (List Nat)

/-- The code in which each symbol, counted from zero, has a code of the given length; a symbol of
length zero has none. -/
def PrefixCode.ofLengths (maxLength : Nat) (lengths : List Nat) : PrefixCode :=
  (List.range maxLength).map fun n =>
    (List.range lengths.length).filter fun symbol => lengths[symbol]? = some (n + 1)

namespace Decompressor

def bit : Decompressor Bool := do
  match (← get).bits with
  | b :: rest =>
    modify fun p => { p with bits := rest }
    return b
  | [] => throw .short

/-- A number of `n` bits, the lowest one first. -/
def number : Nat → Decompressor Nat
  | 0 => return 0
  | n + 1 => do
    let b ← bit
    return b.toNat + 2 * (← number n)

/-- A number whose first bits are those of `high`, with `n` more bits, the highest one first. -/
def numeral (high : Nat) : Nat → Decompressor Nat
  | 0 => return high
  | n + 1 => do
    let b ← bit
    numeral (2 * high + b.toNat) n

def emit (b : UInt8) : Decompressor Unit := modify fun p => { p with bytes := p.bytes.push b }

/-- A symbol. `first` is the first code of the length that is read next and `code` the bits read so
far, both less the last bit. -/
def symbol (first code : Nat) : PrefixCode → Decompressor Nat
  | [] => throw .corrupt
  | symbols :: rest => do
    let code := 2 * code + (← bit).toNat
    match symbols[code - 2 * first]? with
    | some s => return s
    | none => symbol (2 * first + symbols.length) code rest

/-- The data that is read from bits. -/
def run? (x : Decompressor Unit) (bits : List Bool) : Option Unpacked :=
  match x.run ⟨bits, #[]⟩ with
  | .ok _ p => some ⟨p.bytes.toList, true⟩
  | .error .short p => some ⟨p.bytes.toList, false⟩
  | .error .corrupt _ => none

end Decompressor

end MailMerge.Archive
