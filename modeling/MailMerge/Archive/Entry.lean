import MailMerge.Archive.Record
import MailMerge.Decimal.Number
import MailMerge.Text.Quoted

/-!
# Entries of a directory

What the directory of an archive says about a member, with the place of the member in the file: it
is in front of the beginning of the file where an archive has lost its first part.
-/

namespace MailMerge.Archive

open Text (Bytes)

/-- An entry of a directory. -/
structure Entry where
  name : String
  flags : Nat
  method : Nat
  sum : Nat
  packedSize : Nat
  size : Nat
  attributes : Nat
  /-- Where the local header is. -/
  place : Int

namespace Entry

/-- The name up to a null character. -/
def shortName (e : Entry) : String := upToNull e.name

def isFolder (e : Entry) : Bool := e.shortName.toList.getLast? = some '/'

/-- The number that an entry has instead of one which it has no room for. -/
def noRoom : Nat := 0xffffffff

/-- The same in an extra part. -/
def noWideRoom : Nat := 0xffffffffffffffff

/-- The kind of extra parts that have what an entry has no room for. -/
def wideKind : Nat := 1

/-- A number, or the next one of an extra part if it is one of those that stand for that. -/
def widenNumber (marks : List Nat) (n : Nat) (data : Bytes) : Option (Nat × Bytes) :=
  if n ∉ marks then some (n, data)
  else if data.length < 8 then none
  else some (ofField (data.take 8), data.drop 8)

/-- The entry with the sizes and the place of an extra part, where it has no room for them. -/
def widen? (e : Entry) (data : Bytes) : Option Entry := do
  let (size, data) ← widenNumber [noRoom, noWideRoom] e.size data
  let (packedSize, data) ← widenNumber [noRoom] e.packedSize data
  let (place, _) ← widenNumber [noRoom] e.place.toNat data
  return { e with size, packedSize, place }

end Entry

/-- The extra parts of an entry by their kinds. -/
def parts? (extra : Bytes) : Option (List (Nat × Bytes)) :=
  if h : extra.length < 4 then some []
  else
    let size := ofField ((extra.drop 2).take 2)
    if extra.length < size + 4 then none
    else
      (parts? (extra.drop (size + 4))).map
        ((ofField (extra.take 2), (extra.drop 4).take size) :: ·)
termination_by extra.length
decreasing_by
  rw [List.length_drop]
  omega

namespace Entry

/-- The entry with all that its extra parts say. -/
def extended? (e : Entry) (extra : Bytes) : Option Entry := do
  ((← parts? extra).filter fun part => part.1 = wideKind).foldlM (fun e part => e.widen? part.2) e

/-! ## Showing -/

def methodName? (method : Nat) : Option String :=
  [(1, "shrink"), (2, "reduce"), (3, "reduce"), (4, "reduce"), (5, "reduce"), (6, "implode"),
    (7, "tokenize"), (8, "deflate"), (9, "deflate64"), (10, "implode"), (12, "bzip2"),
    (14, "lzma"), (18, "terse"), (19, "lz77"), (97, "wavpack"), (98, "ppmd")].lookup method

/-- What kind of file a mode is of. -/
def kindMark (mode : Nat) : Char :=
  match mode / 0x1000 with
  | 8 => '-'
  | 4 => 'd'
  | 10 => 'l'
  | 6 => 'b'
  | 2 => 'c'
  | 1 => 'p'
  | 12 => 's'
  | _ => '?'

/-- Three permissions, the last of which is marked if a special one goes with it. -/
def permissions (mode : Nat) (special : Bool) (mark : Char) : List Char :=
  [if mode.testBit 2 then 'r' else '-', if mode.testBit 1 then 'w' else '-',
    match mode.testBit 0, special with
    | true, true => mark
    | false, true => mark.toUpper
    | true, false => 'x'
    | false, false => '-']

def modeText (mode : Nat) : List Char :=
  kindMark mode :: permissions (mode / 64) (mode.testBit 11) 's' ++
    permissions (mode / 8) (mode.testBit 10) 's' ++ permissions mode (mode.testBit 9) 't'

/-- The entry with what is notable about it. -/
def shown (e : Entry) : List Char :=
  let number (label : String) (n : Nat) : List Char := label.toList ++ Decimal.natText n
  let mode := e.attributes / 0x10000
  let rest := e.attributes % 0x10000
  let isStored := e.method = 0
  "<ZipInfo filename=".toList ++ Text.quoted (points e.shortName.toList) ++
    (if isStored then [] else " compress_type=".toList ++
      ((methodName? e.method).map String.toList).getD (Decimal.natText e.method)) ++
    (if mode = 0 then [] else " filemode=".toList ++ Text.quoted (points (modeText mode))) ++
    (if rest = 0 then [] else " external_attr=0x".toList ++ Nat.toDigits 16 rest) ++
    (if e.isFolder ∧ e.size = 0 then [] else number " file_size=" e.size) ++
    (if (e.isFolder ∧ e.packedSize = 0) ∨ (isStored ∧ e.size = e.packedSize) then []
      else number " compress_size=" e.packedSize) ++ ['>']

end Entry

end MailMerge.Archive
