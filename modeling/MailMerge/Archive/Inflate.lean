import MailMerge.Archive.Decompressor

/-!
# Deflated data

Deflated data is in blocks, each of which has its bytes as they are or as symbols of a prefix code:
a symbol is a byte, the end of the block, or a length, which is followed by a distance to bytes that
come again. The bits of a byte are read from the lowest one on.
-/

namespace MailMerge.Archive

open Text (Bytes)
open Decompressor

namespace PrefixCode

/-- The codes of the last length that are left, `room` of the first one being there; none if there
are more symbols than codes. -/
def spare? (room : Nat) : PrefixCode → Option Nat
  | [] => some room
  | symbols :: rest =>
    if 2 * room < symbols.length then none else spare? (2 * room - symbols.length) rest

/-- Whether no codes are left, or the code has a single symbol, with the shortest code, or none. -/
def isUsable (code : PrefixCode) : Bool :=
  match spare? 1 code with
  | none => false
  | some 0 => true
  | some _ => (code.drop 1).all (·.isEmpty) && (code.headD []).length ≤ 1

def isComplete (code : PrefixCode) : Bool := spare? 1 code = some 0 || code.all (·.isEmpty)

end PrefixCode

namespace Inflate

/-- The longest code. -/
def maxLength : Nat := 15

/-- The code with the given lengths. -/
def codeOf (lengths : List Nat) : PrefixCode := .ofLengths maxLength lengths

/-- The bytes that a length and a distance stand for. -/
def again (distance : Nat) : Nat → Decompressor Unit
  | 0 => return
  | n + 1 => do
    let bytes := (← get).bytes
    match bytes[bytes.size - distance]? with
    | some b => emit b
    | none => throw .corrupt
    again distance n

/-- The smallest length of each length symbol, and the bits that say how much is added. -/
def lengthBases : List (Nat × Nat) := [
  (3, 0), (4, 0), (5, 0), (6, 0), (7, 0), (8, 0), (9, 0), (10, 0), (11, 1), (13, 1), (15, 1),
  (17, 1), (19, 2), (23, 2), (27, 2), (31, 2), (35, 3), (43, 3), (51, 3), (59, 3), (67, 4), (83, 4),
  (99, 4), (115, 4), (131, 5), (163, 5), (195, 5), (227, 5), (258, 0)]

/-- The smallest distance of each distance symbol, and the bits that say how much is added. -/
def distanceBases : List (Nat × Nat) := [
  (1, 0), (2, 0), (3, 0), (4, 0), (5, 1), (7, 1), (9, 2), (13, 2), (17, 3), (25, 3), (33, 4),
  (49, 4), (65, 5), (97, 5), (129, 6), (193, 6), (257, 7), (385, 7), (513, 8), (769, 8), (1025, 9),
  (1537, 9), (2049, 10), (3073, 10), (4097, 11), (6145, 11), (8193, 12), (12289, 12), (16385, 13),
  (24577, 13)]

/-- The amount that a symbol of a table stands for, with the bits behind it. -/
def amount (bases : List (Nat × Nat)) (symbol : Nat) : Decompressor Nat :=
  match bases[symbol]? with
  | some (base, bits) => do return base + (← number bits)
  | none => throw .corrupt

/-- The symbols of a block, `fuel` of them at most. -/
def symbols (code distances : PrefixCode) : Nat → Decompressor Unit
  | 0 => throw .short
  | fuel + 1 => do
    let s ← symbol 0 0 code
    if s < 256 then
      emit s.toUInt8
      symbols code distances fuel
    else if s = 256 then return
    else
      let length ← amount lengthBases (s - 257)
      let distance ← amount distanceBases (← symbol 0 0 distances)
      if (← get).bytes.size < distance then throw .corrupt
      again distance length
      symbols code distances fuel

/-- The rest of a block with symbols. -/
def codedBlock (code distances : PrefixCode) : Decompressor Unit := do
  symbols code distances ((← get).bits.length + 1)

/-- Bytes as they are. -/
def plainBytes : Nat → Decompressor Unit
  | 0 => return
  | n + 1 => do
    emit (← number 8).toUInt8
    plainBytes n

/-- A block of bytes as they are, which starts at a byte. Their number is given twice. -/
def plainBlock : Decompressor Unit := do
  modify fun p => { p with bits := p.bits.drop (p.bits.length % 8) }
  let size ← number 16
  let check ← number 16
  if size + check = 0xffff then plainBytes size else throw .corrupt

def fixedLengths : List Nat :=
  List.replicate 144 8 ++ List.replicate 112 9 ++ List.replicate 24 7 ++ List.replicate 8 8

def fixedBlock : Decompressor Unit :=
  codedBlock (codeOf fixedLengths) (codeOf (List.replicate 32 5))

/-- The order in which the lengths of the code for code lengths are given. -/
def lengthOrder : List Nat := [16, 17, 18, 0, 8, 7, 9, 6, 10, 5, 11, 4, 12, 3, 13, 2, 14, 1, 15]

def numbers (bits : Nat) : Nat → Decompressor (List Nat)
  | 0 => return []
  | n + 1 => do
    let x ← number bits
    return x :: (← numbers bits n)

/-- Code lengths, up to `total` of them; `read` has those read before. A length can be given as so
many times the one before or zero. -/
def codeLengths (code : PrefixCode) (total : Nat) (read : List Nat) : Nat → Decompressor (List Nat)
  | 0 => return read
  | fuel + 1 => do
    if total ≤ read.length then return read
    let s ← symbol 0 0 code
    if s < 16 then codeLengths code total (read ++ [s]) fuel
    else
      let (length, times) ←
        if s = 16 then
          match read.getLast? with
          | some length => pure (length, 3 + (← number 2))
          | none => throw .corrupt
        else if s = 17 then pure (0, 3 + (← number 3))
        else pure (0, 11 + (← number 7))
      if total < read.length + times then throw .corrupt
      codeLengths code total (read ++ List.replicate times length) fuel

/-- A block that begins with its codes. -/
def dynamicBlock : Decompressor Unit := do
  let count := 257 + (← number 5)
  let distanceCount := 1 + (← number 5)
  let orderCount := 4 + (← number 4)
  if 286 < count ∨ 30 < distanceCount then throw .corrupt
  let given := lengthOrder.zip (← numbers 3 orderCount)
  let lengthCode := codeOf ((List.range 19).map fun n => (given.lookup n).getD 0)
  if !lengthCode.isComplete then throw .corrupt
  let lengths ← codeLengths lengthCode (count + distanceCount) [] (count + distanceCount)
  if lengths[256]? = some 0 then throw .corrupt
  let code := codeOf (lengths.take count)
  let distances := codeOf (lengths.drop count)
  if !code.isUsable || !distances.isUsable then throw .corrupt
  codedBlock code distances

/-- Blocks up to the last one, `fuel` of them at most. -/
def blocks : Nat → Decompressor Unit
  | 0 => throw .short
  | fuel + 1 => do
    let isLast ← bit
    match ← number 2 with
    | 0 => plainBlock
    | 1 => fixedBlock
    | 2 => dynamicBlock
    | _ => throw .corrupt
    if isLast then return else blocks fuel

end Inflate

/-- The bits of a byte, the lowest one first. -/
def bitsOf (b : UInt8) : List Bool := (List.range 8).map fun n => b.toNat.testBit n

/-- The data that was compressed. -/
def inflate? (bytes : Bytes) : Option Unpacked :=
  let bits := bytes.flatMap bitsOf
  (Inflate.blocks bits.length).run? bits

end MailMerge.Archive
