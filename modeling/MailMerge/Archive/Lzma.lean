import MailMerge.Archive.Decompressor

/-!
# Data in a range code

The bits of the data are coded with probabilities that follow from the bits before: a number is
kept within a range, which each bit cuts in two at its probability. The bits say whether a byte
follows or bytes that come again, at a distance that is new or one of the last four. A match
with the largest distance ends the data.
-/

namespace MailMerge.Archive

open Text (Bytes)

namespace Lzma

/-- How a byte depends on what is in front of it: how many high bits of the byte before and low bits
of the place count for the literals, how many low bits of the place count for the rest, and how far
back bytes may come again from. -/
structure Properties where
  contextBits : Nat
  literalPlaceBits : Nat
  placeBits : Nat
  window : Nat

/-- The smallest window. -/
def minWindow : Nat := 4096

/-- The most bits that count for literals. -/
def maxLiteralBits : Nat := 4

/-- The properties that five bytes say. -/
def Properties.ofBytes? : Bytes → Option Properties
  | [b, w₀, w₁, w₂, w₃] =>
    let n := b.toNat
    let window := ((w₃.toNat * 256 + w₂.toNat) * 256 + w₁.toNat) * 256 + w₀.toNat
    let p : Properties := ⟨n % 9, n / 9 % 5, n / 45, max minWindow ((window + 15) / 16 * 16)⟩
    if 5 ≤ p.placeBits ∨ maxLiteralBits < p.contextBits + p.literalPlaceBits then none else some p
  | _ => none

/-- The bytes that are left, the range and the number in it, the probabilities, what has been read,
the last four distances less one, and the kinds of the last steps. -/
structure Progress where
  input : Bytes
  range : Nat
  code : Nat
  probabilities : Array Nat
  bytes : Array UInt8
  recent : List Nat
  state : Nat

abbrev Decoder := EStateM Stop Progress

/-! ## Places of the probabilities -/

/-- How many states there are, and how many low places count at most. -/
def stateCount : Nat := 12

def maxPlaces : Nat := 16

def isMatch : Nat := 0
def isAgain : Nat := isMatch + stateCount * maxPlaces
def isNotFirst : Nat := isAgain + stateCount
def isNotSecond : Nat := isNotFirst + stateCount
def isNotThird : Nat := isNotSecond + stateCount
def isLong : Nat := isNotThird + stateCount
def distanceSlot : Nat := isLong + stateCount * maxPlaces
def distanceLow : Nat := distanceSlot + 4 * 64
def distanceAlign : Nat := distanceLow + 115
def matchLength : Nat := distanceAlign + 16
def againLength : Nat := matchLength + 2 + 2 * 8 * maxPlaces + 256
def literal : Nat := againLength + 2 + 2 * 8 * maxPlaces + 256

/-- How many probabilities a literal has. -/
def literalSize : Nat := 0x300

/-! ## Bits -/

def byte : Decoder Nat := do
  match (← get).input with
  | b :: rest =>
    modify fun p => { p with input := rest }
    return b.toNat
  | [] => throw .short

/-- Makes the range large enough for another bit. -/
def normalize : Decoder Unit := do
  if (← get).range < 0x1000000 then
    let b ← byte
    modify fun p => { p with range := p.range * 256, code := p.code * 256 + b }

/-- A bit with the probability at a place. -/
def bit (place : Nat) : Decoder Nat := do
  normalize
  let p ← get
  let chance := p.probabilities.getD place 0
  let bound := p.range / 2048 * chance
  if p.code < bound then
    modify fun p =>
      { p with
        range := bound
        probabilities := p.probabilities.setIfInBounds place (chance + (2048 - chance) / 32) }
    return 0
  else
    modify fun p =>
      { p with
        range := p.range - bound
        code := p.code - bound
        probabilities := p.probabilities.setIfInBounds place (chance - chance / 32) }
    return 1

/-- `n` bits that are as likely set as not, behind those of `high`. -/
def evenBits (high : Nat) : Nat → Decoder Nat
  | 0 => return high
  | n + 1 => do
    normalize
    modify fun p => { p with range := p.range / 2 }
    let p ← get
    if p.code < p.range then evenBits (2 * high) n
    else
      set { p with code := p.code - p.range }
      evenBits (2 * high + 1) n

/-- A number of `n` bits, the highest one first; `node` has the bits before, behind a bit that is
set. -/
def tree (place node : Nat) : Nat → Decoder Nat
  | 0 => return node
  | n + 1 => do tree place (2 * node + (← bit (place + node))) n

/-- A number of `bits` bits, the highest one first. -/
def highFirst (place bits : Nat) : Decoder Nat := return (← tree place 1 bits) - (1 <<< bits)

/-- A number of bits, the lowest one first. -/
def lowFirst (place node : Nat) : Nat → Decoder Nat
  | 0 => return 0
  | n + 1 => do
    let b ← bit (place + node)
    return b + 2 * (← lowFirst place (2 * node + b) n)

/-! ## Bytes -/

def emit (b : UInt8) : Decoder Unit := modify fun p => { p with bytes := p.bytes.push b }

/-- The byte at a distance less one. -/
def back (distance : Nat) : Decoder UInt8 := do
  let bytes := (← get).bytes
  return bytes.getD (bytes.size - 1 - distance) 0

def isWithin (properties : Properties) (distance : Nat) : Decoder Bool := do
  return distance < min (← get).bytes.size properties.window

/-- The bytes that a distance less one and a length stand for. -/
def again (distance : Nat) : Nat → Decoder Unit
  | 0 => return
  | n + 1 => do
    emit (← back distance)
    again distance n

/-- The rest of a byte that comes at the end of a match: as long as its bits are those of the byte
that the match would have gone on with, these count too. -/
def unmatchedTree (place other : Nat) (node : Nat) : Nat → Decoder Nat
  | 0 => return node
  | n + 1 => do
    let expected := (other >>> n) % 2
    let b ← bit (place + (1 + expected) * 256 + node)
    if b = expected then unmatchedTree place other (2 * node + b) n
    else tree place (2 * node + b) n

/-- A byte, in a context. -/
def literalByte (properties : Properties) : Decoder Unit := do
  let p ← get
  let before := (p.bytes.back?.getD 0).toNat
  let low := p.bytes.size % (1 <<< properties.literalPlaceBits)
  let context := (low <<< properties.contextBits) + (before >>> (8 - properties.contextBits))
  let place := literal + literalSize * context
  let n ← if p.state < 7 then tree place 1 8
    else unmatchedTree place (← back (p.recent.headD 0)).toNat 1 8
  emit n.toUInt8
  modify fun p =>
    { p with state := if p.state < 4 then 0 else if p.state < 10 then p.state - 3 else p.state - 6 }

/-- The length of a match. -/
def length (place low : Nat) : Decoder Nat := do
  if (← bit place) = 0 then return 2 + (← highFirst (place + 2 + 8 * low) 3)
  else if (← bit (place + 1)) = 0 then
    return 10 + (← highFirst (place + 2 + 8 * maxPlaces + 8 * low) 3)
  else return 18 + (← highFirst (place + 2 + 2 * 8 * maxPlaces) 8)

/-- A new distance less one: its highest two bits and how many others there are, then those. -/
def distance (length : Nat) : Decoder Nat := do
  let slot ← highFirst (distanceSlot + 64 * min (length - 2) 3) 6
  if slot < 4 then return slot
  else
    let bits := slot / 2 - 1
    let high := (2 + slot % 2) <<< bits
    if slot < 14 then return high + (← lowFirst (distanceLow + high - slot) 1 bits)
    else
      let middle ← evenBits 0 (bits - 4)
      return high + middle * 16 + (← lowFirst distanceAlign 1 4)

/-- The distance less one that ends the data. -/
def endDistance : Nat := 0xffffffff

/-- Brings one of the last distances to the front. -/
def useRecent (place : Nat) : Decoder Unit := modify fun p =>
  { p with recent := p.recent.getD place 0 :: p.recent.eraseIdx place }

/-- Bytes at one of the last distances. -/
def recentMatch (low : Nat) : Decoder Unit := do
  let state := (← get).state
  if (← get).bytes.isEmpty then throw .corrupt
  let isShort ←
    if (← bit (isNotFirst + state)) = 0 then
      pure ((← bit (isLong + maxPlaces * state + low)) == 0)
    else do
      if (← bit (isNotSecond + state)) = 0 then useRecent 1
      else if (← bit (isNotThird + state)) = 0 then useRecent 2
      else useRecent 3
      pure false
  let distance := (← get).recent.headD 0
  if isShort then
    modify fun p => { p with state := if state < 7 then 9 else 11 }
    emit (← back distance)
  else
    modify fun p => { p with state := if state < 7 then 8 else 11 }
    again distance (← length againLength low)

/-- Bytes at a new distance. Says whether the data ends instead. -/
def newMatch (properties : Properties) (low : Nat) : Decoder Bool := do
  let length ← length matchLength low
  let distance ← distance length
  modify fun p =>
    { p with
      state := if p.state < 7 then 7 else 10
      recent := distance :: p.recent.take 3 }
  if distance = endDistance then
    normalize
    if (← get).code = 0 then return true else throw .corrupt
  else if ← isWithin properties distance then
    again distance length
    return false
  else throw .corrupt

/-- Bytes up to the end, `fuel` steps at most. -/
def steps (properties : Properties) : Nat → Decoder Unit
  | 0 => throw .short
  | fuel + 1 => do
    let p ← get
    let low := p.bytes.size % (1 <<< properties.placeBits)
    if (← bit (isMatch + maxPlaces * p.state + low)) = 0 then
      literalByte properties
      steps properties fuel
    else if (← bit (isAgain + p.state)) = 0 then
      if !(← newMatch properties low) then steps properties fuel
    else
      recentMatch low
      steps properties fuel

/-- How many steps can follow from a byte: the likeliest bit leaves more than `2017 / 2048` of the
range, and a byte makes it 256 times as large. -/
def stepsPerByte : Nat := 400

/-- All of the data. The number begins behind a byte that is zero. -/
def all (properties : Properties) : Decoder Unit := do
  let size := (← get).input.length
  if (← byte) ≠ 0 then throw .corrupt
  let a ← byte
  let b ← byte
  let c ← byte
  let d ← byte
  modify fun p => { p with code := ((a * 256 + b) * 256 + c) * 256 + d }
  steps properties (stepsPerByte * size)

/-- No probability is known at first. -/
def start (properties : Properties) (bytes : Bytes) : Progress where
  input := bytes
  range := 0xffffffff
  code := 0
  probabilities :=
    let contexts := 1 <<< (properties.contextBits + properties.literalPlaceBits)
    Array.replicate (literal + literalSize * contexts) 1024
  bytes := #[]
  recent := [0, 0, 0, 0]
  state := 0

/-- Why packed data is refused. -/
inductive Fault where
  | properties
  | data
deriving DecidableEq

/-- The data that was compressed in a range code. In front of it are a version, the number of bytes
that the properties have, and these. -/
def unpack (bytes : Bytes) : Except Fault Unpacked :=
  match bytes with
  | _ :: _ :: size₀ :: size₁ :: rest =>
    let size := size₀.toNat + 256 * size₁.toNat
    if rest.length ≤ size then .ok ⟨[], false⟩
    else match Properties.ofBytes? (rest.take size) with
      | none => .error .properties
      | some properties =>
        match (all properties).run (start properties (rest.drop size)) with
        | .ok _ p => .ok ⟨p.bytes.toList, true⟩
        | .error .short p => .ok ⟨p.bytes.toList, false⟩
        | .error .corrupt _ => .error .data
  | _ => .ok ⟨[], false⟩

end Lzma

end MailMerge.Archive
