import MailMerge.Archive.Checksum
import MailMerge.Archive.Record

/-!
# Writing archives

An archive has all members one after another, each behind its local header, then a directory with an
entry for each, and the end of the directory. Members are written as they are. A member without a
name cannot be written, and none with a name that is too long.
-/

namespace MailMerge.Archive

open Text (Bytes)

/-- A file in an archive. -/
structure Member where
  name : String
  bytes : Bytes

def record (sizes values : List Nat) : Bytes :=
  (sizes.zip values).flatMap fun (size, n) => field size n

/-- A name as it is written. -/
def nameBytes (name : String) : Bytes := Text.toUtf8 (upToNull name).toList

namespace Member

def nameBytes (m : Member) : Bytes := Archive.nameBytes m.name

def flags (m : Member) : Nat := if m.nameBytes.all (· < 0x80) then 0 else utf8Flag

/-- The version that is needed to read a member. -/
def version : Nat := 20

/-- What the local header and the entry of the directory have in common behind the version; the date
is the first one that can be given. -/
def common (m : Member) : List Nat :=
  [m.flags, 0, 0, 0x21, (checksum m.bytes).toNat, m.bytes.length, m.bytes.length,
    m.nameBytes.length, 0]

def localPart (m : Member) : Bytes :=
  record localSizes (localMark :: version :: m.common) ++ m.nameBytes ++ m.bytes

def entry (m : Member) (offset : Nat) : Bytes :=
  record entrySizes (entryMark :: version :: version :: 0 :: m.common ++ [0, 0, 0, 0, offset]) ++
    m.nameBytes

end Member

/-- The entries of the directory, the first local header being at `offset`. -/
def directory (offset : Nat) : List Member → Bytes
  | [] => []
  | m :: rest => m.entry offset ++ directory (offset + m.localPart.length) rest

/-- What is wrong with a name. -/
inductive NameFault where
  | missing
  | tooLong
deriving DecidableEq

/-- The most bytes that a name may have. -/
def maxNameSize : Nat := 0xffff

/-- Why a member cannot be written. -/
def Member.nameFault? (m : Member) : Option NameFault :=
  if m.nameBytes = [] then some .missing
  else if maxNameSize < m.nameBytes.length then some .tooLong
  else none

/-- An archive with the given members, if all of them have names that fit. -/
def write (members : List Member) : Except NameFault Bytes :=
  match members.findSome? Member.nameFault? with
  | some fault => .error fault
  | none =>
    let parts := members.flatMap Member.localPart
    let entries := directory 0 members
    let count := members.length
    let ending := record endSizes [endMark, 0, 0, count, count, entries.length, parts.length, 0]
    .ok (parts ++ entries ++ ending)

end MailMerge.Archive
