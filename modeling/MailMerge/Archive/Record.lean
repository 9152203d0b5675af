import MailMerge.Text.Encoding

/-!
# Records of an archive

A record begins with a mark and a row of numbers of two or four bytes each, the lowest byte first.
-/

namespace MailMerge.Archive

open Text (Bytes)

/-- A number in the given count of bytes. -/
def field : (size n : Nat) → Bytes
  | 0, _ => []
  | size + 1, n => n.toUInt8 :: field size (n / 256)

/-- The number that bytes stand for. -/
def ofField (bytes : Bytes) : Nat := bytes.foldr (fun b n => b.toNat + 256 * n) 0

theorem length_field (size n : Nat) : (field size n).length = size := by
  induction size generalizing n with
  | zero => rfl
  | succ size ih => simp [field, ih]

theorem ofField_field (size n : Nat) : ofField (field size n) = n % Nat.pow 256 size := by
  induction size generalizing n with
  | zero => simp [field, ofField, Nat.pow, Nat.mod_one]
  | succ size ih =>
    have h : ofField (field (size + 1) n) = n % 256 + 256 * ofField (field size (n / 256)) := by
      simp [field, ofField]
    rw [h, ih, show Nat.pow 256 (size + 1) = 256 * Nat.pow 256 size from Nat.pow_succ', Nat.mod_mul]

/-- Takes numbers of the given sizes off the front. -/
def fields? : List Nat → Bytes → Option (List Nat × Bytes)
  | [], bytes => some ([], bytes)
  | size :: sizes, bytes =>
    if bytes.length < size then none
    else (fields? sizes (bytes.drop size)).map fun (ns, rest) =>
      (ofField (bytes.take size) :: ns, rest)

/-- The number of bytes of numbers in the given sizes. -/
def width (sizes : List Nat) : Nat := sizes.foldl (· + ·) 0

def localMark : Nat := 0x04034b50

def entryMark : Nat := 0x02014b50

def endMark : Nat := 0x06054b50

def locatorMark : Nat := 0x07064b50

def wideEndMark : Nat := 0x06064b50

/-- What a local header has before the name: the mark, the version needed, flags, the method, time
and date, the checksum, both sizes, and the lengths of the name and of what is extra. -/
def localSizes : List Nat := [4, 2, 2, 2, 2, 2, 4, 4, 4, 2, 2]

/-- What an entry of the directory has before the name: the mark, what made it, the version needed
and the system, flags, the method, time and date, the checksum, both sizes, the lengths of the name,
of what is extra and of the comment, the disk, two attributes, and where the local header is. -/
def entrySizes : List Nat := [4, 2, 1, 1, 2, 2, 2, 2, 4, 4, 4, 2, 2, 2, 2, 2, 4, 4]

/-- What the end of the directory has before the comment: the mark, two disks, two numbers of
entries, the size of the directory and where it is, and the length of the comment. -/
def endSizes : List Nat := [4, 2, 2, 2, 2, 4, 4, 2]

/-- What stands in front of the end of the directory where that has no room for all: the mark, the
disk and the place of the wide end, and the number of disks. -/
def locatorSizes : List Nat := [4, 4, 8, 4]

/-- What the wide end of a directory has: the mark, its size, two versions, two disks, two numbers
of entries, the size of the directory and where it is. -/
def wideEndSizes : List Nat := [4, 8, 2, 2, 4, 4, 8, 8, 8, 8]

/-- The flag of names in UTF-8. -/
def utf8Flag : Nat := 0x800

/-- A name up to a null character, behind which nothing counts. -/
def upToNull (name : String) : String := String.ofList (name.toList.takeWhile (· ≠ '\x00'))

end MailMerge.Archive
