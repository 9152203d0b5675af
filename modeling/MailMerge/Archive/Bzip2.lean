import MailMerge.Archive.Decompressor

/-!
# Data in sorted blocks

The bytes of a block are sorted by what follows them, which brings equal ones together; each is
given by how many others have come up since it was last there, and that in symbols of prefix codes.
Before all this, four equal bytes are followed by the number of those that follow them. The bits of
a byte are read from the highest one on. A block gives its bytes only when all of it has been read.
-/

namespace MailMerge.Archive

open Text (Bytes)
open Decompressor

namespace Bzip2

/-- The element at a place, and the list with it in front. -/
def toFront {α : Type} (place : Nat) (xs : List α) : Option (α × List α) :=
  xs[place]?.map fun x => (x, x :: xs.eraseIdx place)

/-! ## Codes -/

def maxLength : Nat := 20

/-- How many bits come before one that is not set; all `room` of them cannot be set. -/
def ones : (room : Nat) → Decompressor Nat
  | 0 => throw .corrupt
  | room + 1 => do
    if ← bit then return 1 + (← ones room) else return 0

def repeated {α : Type} (x : Decompressor α) : Nat → Decompressor (List α)
  | 0 => return []
  | n + 1 => do
    let a ← x
    return a :: (← repeated x n)

/-- The bytes that are marked, of `n` ones from `first` on. -/
def marked (first step : Nat) : Nat → Decompressor (List Nat)
  | 0 => return []
  | n + 1 => do
    let isMarked ← bit
    let rest ← marked (first + step) step n
    return if isMarked then first :: rest else rest

/-- The bytes of a block, in order: first the sixteenths of all bytes are marked that have some. -/
def usedBytes : Decompressor (List UInt8) := do
  let parts ← marked 0 16 16
  let bytes ← parts.mapM fun first => marked first 1 16
  return bytes.flatten.map (·.toUInt8)

/-- A code length, given by how it differs from the one before in at most `fuel` steps. -/
def codeLength (length : Nat) : (fuel : Nat) → Decompressor Nat
  | 0 => throw .corrupt
  | fuel + 1 => do
    if length < 1 ∨ maxLength < length then throw .corrupt
    if !(← bit) then return length
    else if ← bit then codeLength (length - 1) fuel
    else codeLength (length + 1) fuel

def codeLengths (length : Nat) : Nat → Decompressor (List Nat)
  | 0 => return []
  | n + 1 => do
    let length ← codeLength length ((← get).bits.length + 1)
    return length :: (← codeLengths length n)

/-- A code for `size` symbols. No symbol has a code of more bits than the longest one. -/
def code (size : Nat) : Decompressor PrefixCode := do
  return .ofLengths (maxLength + 1) (← codeLengths (← numeral 0 5) size)

/-- The most groups of symbols that have a code of their own. -/
def maxGroups : Nat := 18002

/-- Numbers that are each given by the place in a list from which they are brought to the front. -/
def fromPlaces (recent : List Nat) : List Nat → List Nat
  | [] => []
  | place :: rest =>
    match toFront place recent with
    | some (n, recent) => n :: fromPlaces recent rest
    | none => []

/-! ## Symbols -/

/-- How many symbols are read with one code. -/
def groupSize : Nat := 50

/-- The symbols of a group, and whether the end of the block is among them. -/
def group (code : PrefixCode) (ending : Nat) : Nat → Decompressor (List Nat × Bool)
  | 0 => return ([], false)
  | n + 1 => do
    let s ← symbol 0 0 code
    if s = ending then return ([], true)
    else
      let (rest, isDone) ← group code ending n
      return (s :: rest, isDone)

/-- The symbols of a block, each group with its code. -/
def symbols (ending : Nat) : List PrefixCode → Decompressor (List Nat)
  | [] => throw .corrupt
  | code :: codes => do
    let (front, isDone) ← group code ending groupSize
    if isDone then return front else return front ++ (← symbols ending codes)

/-- The weight from which on a digit of the number of equal bytes is refused. -/
def maxWeight : Nat := 2 * 1024 * 1024

/-- The bytes of symbols, at most `limit` of them. The symbols zero and one are the digits of how
often the byte in front comes, with the values one and two; `run` and `weight` have the digits
before. -/
def bytesOf? (limit : Nat) (recent : List UInt8) (run weight : Nat) (bytes : Array UInt8) :
    List Nat → Option (Array UInt8)
  | [] => flush run bytes
  | s :: rest =>
    if s < 2 then
      if maxWeight ≤ weight then none
      else bytesOf? limit recent (run + (s + 1) * weight) (2 * weight) bytes rest
    else do
      let bytes ← flush run bytes
      let (b, recent) ← toFront (s - 1) recent
      if limit ≤ bytes.size then none else bytesOf? limit recent 0 1 (bytes.push b) rest
where
  /-- Adds the byte in front as often as the digits say. -/
  flush (run : Nat) (bytes : Array UInt8) : Option (Array UInt8) :=
    if limit < bytes.size + run then none
    else some (bytes ++ Array.replicate run (recent.headD 0))

/-! ## Sorting and runs -/

/-- The places of bytes, those of smaller bytes first. -/
def sortedPlaces (bytes : Array UInt8) : Array Nat :=
  let add (places : Array (Array Nat)) (place : Nat) : Array (Array Nat) :=
    places.modify (bytes.getD place 0).toNat (·.push place)
  ((List.range bytes.size).foldl add (Array.replicate 256 #[])).flatten

/-- The bytes before they were sorted: each leads to the place of the next one. -/
def follow (bytes : Array UInt8) (next : Array Nat) (place : Nat) (found : Array UInt8) :
    Nat → Array UInt8
  | 0 => found
  | n + 1 =>
    let place := next.getD place 0
    follow bytes next place (found.push (bytes.getD place 0)) n

/-- The bytes with those that stand behind four equal ones made into as many more. -/
def expandRuns? (run : Nat) (last : UInt8) (found : Array UInt8) :
    List UInt8 → Option (Array UInt8)
  | [] => if run = 4 then none else some found
  | b :: rest =>
    if run = 4 then expandRuns? 0 b (found ++ Array.replicate b.toNat last) rest
    else expandRuns? (if run ≠ 0 ∧ b = last then run + 1 else 1) b (found.push b) rest

/-! ## Checksums -/

/-- One step of the division, for the highest bit. -/
def sumBit (sum : UInt32) : UInt32 :=
  if sum &&& 0x80000000 = 0 then sum <<< 1 else (sum <<< 1) ^^^ 0x04c11db7

def sumByte (sum : UInt32) (b : UInt8) : UInt32 :=
  Nat.repeat sumBit 8 (sum ^^^ (b.toUInt32 <<< 24))

/-- The checksum of a block. -/
def blockSum (bytes : Array UInt8) : UInt32 := bytes.foldl sumByte 0xffffffff ^^^ 0xffffffff

/-- The checksum of blocks with another one behind them. -/
def addSum (all block : UInt32) : UInt32 := ((all <<< 1) ||| (all >>> 31)) ^^^ block

/-! ## Blocks -/

/-- Bytes that have to come next. -/
def expect : List Nat → Decompressor Unit
  | [] => return
  | b :: rest => do if (← numeral 0 8) = b then expect rest else throw .corrupt

/-- The most bytes of a block at each level. -/
def levelSize : Nat := 100000

def orCorrupt {α : Type} : Option α → Decompressor α
  | some a => return a
  | none => throw .corrupt

/-- A block behind its mark, with its checksum. -/
def block (level : Nat) : Decompressor UInt32 := do
  let sum ← numeral 0 32
  if ← bit then throw .corrupt
  let start ← numeral 0 24
  if levelSize * level + 10 < start then throw .corrupt
  let used ← usedBytes
  if used = [] then throw .corrupt
  let codeCount ← numeral 0 3
  if codeCount < 2 ∨ 6 < codeCount then throw .corrupt
  let groupCount ← numeral 0 15
  if groupCount = 0 then throw .corrupt
  let places ← repeated (ones codeCount) groupCount
  let codes ← repeated (code (used.length + 2)) codeCount
  let selected := fromPlaces (List.range codeCount) (places.take maxGroups)
  let symbols ← symbols (used.length + 1) (selected.map fun n => codes.getD n [])
  let sorted ← orCorrupt (bytesOf? (levelSize * level) used 0 1 #[] symbols)
  if sorted.size ≤ start then throw .corrupt
  let bytes := follow sorted (sortedPlaces sorted) start #[] sorted.size
  let found ← orCorrupt (expandRuns? 0 0 #[] bytes.toList)
  modify fun p => { p with bytes := p.bytes ++ found }
  if (blockSum found).toNat = sum then return blockSum found else throw .corrupt

/-- Blocks up to the mark of the end, `fuel` of them at most, with the checksum of all. -/
def blocks (level : Nat) (sum : UInt32) : Nat → Decompressor Unit
  | 0 => throw .short
  | fuel + 1 => do
    let b ← numeral 0 8
    if b = 0x31 then
      expect [0x41, 0x59, 0x26, 0x53, 0x59]
      blocks level (addSum sum (← block level)) fuel
    else if b = 0x17 then
      expect [0x72, 0x45, 0x38, 0x50, 0x90]
      if (← numeral 0 32) ≠ sum.toNat then throw .corrupt
    else throw .corrupt

/-- All of the data, behind a mark with its level. -/
def all : Decompressor Unit := do
  expect ("BZh".toList.map (·.toNat))
  let level := (← numeral 0 8) - '0'.toNat
  if level < 1 ∨ 9 < level then throw .corrupt
  blocks level 0 ((← get).bits.length + 1)

/-- The bits of a byte, the highest one first. -/
def bitsOf (b : UInt8) : List Bool := (List.range 8).map fun n => b.toNat.testBit (7 - n)

end Bzip2

/-- The data that was compressed in sorted blocks. -/
def bunzip2? (bytes : Bytes) : Option Unpacked := Bzip2.all.run? (bytes.flatMap Bzip2.bitsOf)

end MailMerge.Archive
