import MailMerge.Archive.Bzip2
import MailMerge.Archive.Entry
import MailMerge.Archive.Inflate
import MailMerge.Archive.Lzma
import MailMerge.Archive.Writer

/-!
# Reading archives

The end of the directory is the last place in an archive with its mark, and says where the directory
is. An archive may stand behind other data: then all places are that much further back. Every member
is checked against its local header and its checksum.

A file cannot be read from a place in front of its beginning; of bytes in memory, the first ones are
read instead. No place can be asked for that is no integer of 64 bits. Behind the end of the archive
there is nothing to read: a member whose data should go on there is read if nothing of that is
needed.
-/

namespace MailMerge.Archive

open Text (Bytes)

/-- What an archive can use and this reader cannot read. -/
inductive Feature where
  | version (needed : Nat)
  | method
  | patch
  | strongEncryption
deriving DecidableEq

namespace Feature

def text : Feature → String
  | version needed =>
    "zip file version " ++ toString (needed / 10) ++ "." ++ toString (needed % 10)
  | method => "That compression method is not supported"
  | patch => "compressed patched data (flag bit 5)"
  | strongEncryption => "strong encryption (flag bit 6)"

end Feature

/-- Why an archive cannot be read. -/
inductive Fault where
  | notArchive
  | damaged
  | manyDisks
  | nameNotUtf8
  | beforeStart (distance : Nat)
  | noPlace
  | cutOff
  | corruptData
  | corruptBlocks
  | corruptCode (fault : Lzma.Fault)
  | nameless
  | unsupported (feature : Feature)
  | encrypted (entry : List Char)
deriving DecidableEq

abbrev Reading := Except Fault

/-- Where the bytes of an archive are. -/
inductive Source where
  | memory
  | file
deriving DecidableEq

/-! ## The directory -/

/-- The end of a directory: its size, where it should be, and where its end is. -/
structure Ending where
  size : Nat
  offset : Nat
  place : Nat

/-- Reads the end of a directory at a place. -/
def endingAt? (bytes : Bytes) (place : Nat) : Option Ending :=
  match fields? endSizes (bytes.drop place) with
  | some ([mark, _, _, _, _, size, offset, _], _) =>
    if mark = endMark then some ⟨size, offset, place⟩ else none
  | _ => none

/-- The most bytes that can follow the end of a directory. -/
def maxComment : Nat := 0x10000

/-- The last place in `bytes` with the mark of the end, counted from `place` on. -/
def lastMark? (place : Nat) : Bytes → Option Nat
  | [] => none
  | b :: rest =>
    match lastMark? (place + 1) rest with
    | some found => some found
    | none => if (field 4 endMark).isPrefixOf (b :: rest) then some place else none

/-- The end of the directory. One without a comment at the end of the archive is taken first. -/
def ending? (bytes : Bytes) : Option Ending :=
  let size := bytes.length
  match if size < width endSizes then none else endingAt? bytes (size - width endSizes) with
  | some ending => if bytes.drop (size - 2) = [0, 0] then some ending else search size
  | none => search size
where
  /-- Looks for the last mark. -/
  search (size : Nat) : Option Ending :=
    let start := size - maxComment - width endSizes
    (lastMark? start (bytes.drop start)).bind (endingAt? bytes)

/-- The record of the given size in front of a place, where there is room for one. -/
def recordBefore? (source : Source) (sizes : List Nat) (bytes : Bytes) (place : Nat) :
    Option (List Nat) :=
  if source = .file ∧ place < width sizes then none
  else (fields? sizes (bytes.drop (place - width sizes))).map (·.1)

/-- The end of a wide directory in front of the end of a directory, if there is one. A file that has
no room for it is no archive. -/
def Ending.widen (source : Source) (bytes : Bytes) (e : Ending) : Reading Ending :=
  match recordBefore? source locatorSizes bytes e.place with
  | some [mark, disk, _, disks] =>
    if mark ≠ locatorMark then .ok e
    else if disk ≠ 0 ∨ 1 < disks then .error .manyDisks
    else
      let place := e.place - width locatorSizes
      match recordBefore? source wideEndSizes bytes place with
      | some [mark, _, _, _, _, _, _, _, size, offset] =>
        .ok (if mark = wideEndMark then ⟨size, offset, place - width wideEndSizes⟩ else e)
      | _ => if source = .file ∧ place < width wideEndSizes then .error .notArchive else .ok e
  | _ => .ok e

/-- A name, encoded as the flags say. -/
def readName (flags : Nat) (bytes : Bytes) : Reading String :=
  let text? :=
    if flags &&& utf8Flag ≠ 0 then Text.utf8? bytes
    else Text.CodePage.codePage437.decode? bytes
  match text? with
  | some cs => .ok (String.ofList cs)
  | none => .error .nameNotUtf8

/-- The newest version of archives that can be read. -/
def maxVersion : Nat := 63

/-- The entries of a directory, each of which has bytes. `shift` is how much further back than they
say all places are. -/
def entries (shift : Int) (bytes : Bytes) : Nat → Reading (List Entry)
  | 0 => .ok []
  | fuel + 1 =>
    if bytes = [] then .ok []
    else match fields? entrySizes bytes with
      | some ([mark, _, version, _, flags, method, _, _, sum, packedSize, size, nameSize, extraSize,
          commentSize, _, _, attributes, place], rest) => do
        if mark ≠ entryMark then throw .damaged
        let name ← readName flags (rest.take nameSize)
        if maxVersion < version then throw (.unsupported (.version version))
        let entry : Entry := { name, flags, method, sum, packedSize, size, attributes, place }
        match entry.extended? ((rest.drop nameSize).take extraSize) with
        | none => throw .damaged
        | some entry =>
          let more ← entries shift (rest.drop (nameSize + extraSize + commentSize)) fuel
          return { entry with place := entry.place + shift } :: more
      | _ => .error .damaged

/-- The entries of an archive, and where its directory is. -/
def readDirectory (source : Source) (bytes : Bytes) : Reading (List Entry × Nat) :=
  match ending? bytes with
  | none => .error .notArchive
  | some ending => do
    let ending ← ending.widen source bytes
    if ending.place < ending.size then throw .damaged
    let start := ending.place - ending.size
    let found ← entries (start - ending.offset) ((bytes.drop start).take ending.size)
      (ending.size + 1)
    return (found, start)

/-! ## Members -/

/-- The entries of a directory, each with the place where the data of its member has to end: the
next local header, or the directory. Of members at one place all but the first have to end before
they begin. `before` has the entries in front of these. -/
def withLimits (start : Nat) (before : List Entry) : List Entry → List (Entry × Int)
  | [] => []
  | e :: rest =>
    let behind := (before.filter (e.place ≤ ·.place)) ++ rest.filter (e.place < ·.place)
    (e, ((behind.map (·.place)).min?).getD start) :: withLimits start (e :: before) rest

namespace Entry

/-- The first place behind the ones that can be asked for. -/
def noSuchPlace : Int := 0x8000000000000000

/-- The data of a member as it stands in the archive, which has to end at `limit`. -/
def packed (e : Entry) (limit : Int) (bytes : Bytes) : Reading Bytes :=
  if e.place < -noSuchPlace ∨ noSuchPlace ≤ e.place then .error .noPlace
  else if e.place < 0 then .error (.beforeStart e.place.natAbs)
  else match fields? localSizes (bytes.drop e.place.toNat) with
    | some ([mark, _, flags, _, _, _, _, _, _, nameSize, extraSize], rest) => do
      if mark ≠ localMark then throw .damaged
      if e.flags &&& 0x20 ≠ 0 then throw (.unsupported .patch)
      if e.flags &&& 0x40 ≠ 0 then throw (.unsupported .strongEncryption)
      let name ← readName flags (rest.take nameSize)
      if name ≠ e.name then throw .damaged
      let place := min (e.place + (width localSizes + nameSize + extraSize)) bytes.length
      if limit < place + e.packedSize then throw .damaged
      if e.flags &&& 1 ≠ 0 then throw (.encrypted e.shown)
      return (rest.drop (nameSize + extraSize)).take e.packedSize
    | _ => .error .damaged

/-- The data of a member that was compressed by a method. -/
def unpacked (method : Nat) (data : Bytes) : Reading Unpacked :=
  match method with
  | 0 => .ok ⟨data, false⟩
  | 8 => match inflate? data with
    | some data => .ok data
    | none => .error .corruptData
  | 12 => match bunzip2? data with
    | some data => .ok data
    | none => .error .corruptBlocks
  | 14 => (Lzma.unpack data).mapError .corruptCode
  | _ => .error (.unsupported .method)

/-- Whether the archive ends before the data of a member does, and what there is of that is not
enough. -/
def lacks (e : Entry) (packed : Bytes) (found : Unpacked) : Prop :=
  packed.length < e.packedSize ∧ (packed = [] ∨ found.ended = false ∧ found.bytes.length < e.size)

instance (e : Entry) (packed : Bytes) (found : Unpacked) : Decidable (e.lacks packed found) :=
  inferInstanceAs (Decidable (_ ∧ _))

/-- The bytes of a member. -/
def read (e : Entry) (limit : Int) (bytes : Bytes) : Reading Bytes := do
  let packed ← e.packed limit bytes
  let found ← unpacked e.method packed
  if e.lacks packed found then throw .cutOff
  let data := found.bytes.take e.size
  if (checksum data).toNat ≠ e.sum then throw .damaged
  return data

/-- The member of an entry, unless it is a folder. -/
def member? (e : Entry) (limit : Int) (bytes : Bytes) : Reading (Option Member) := do
  if e.shortName = "" then throw .nameless
  if e.isFolder then return none
  else return some ⟨e.shortName, ← e.read limit bytes⟩

end Entry

/-- The members of an archive in the order of its directory, without folders. -/
def read (source : Source) (bytes : Bytes) : Reading (List Member) := do
  let (all, start) ← readDirectory source bytes
  let members ← (withLimits start [] all).mapM fun (e, limit) => e.member? limit bytes
  return members.filterMap id

end MailMerge.Archive
