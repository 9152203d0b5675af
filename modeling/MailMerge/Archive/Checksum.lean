import MailMerge.Text.Encoding

/-!
# Checksums

The cyclic redundancy check of 32 bits that an archive keeps for each of its members.
-/

namespace MailMerge.Archive

open Text (Bytes)

/-- One step of the division, for the lowest bit. -/
def checksumBit (sum : UInt32) : UInt32 :=
  if sum &&& 1 = 1 then (sum >>> 1) ^^^ 0xedb88320 else sum >>> 1

def checksumByte (sum : UInt32) (b : UInt8) : UInt32 :=
  Nat.repeat checksumBit 8 (sum ^^^ b.toUInt32)

/-- The checksum of bytes. -/
def checksum (bytes : Bytes) : UInt32 := bytes.foldl checksumByte 0xffffffff ^^^ 0xffffffff

end MailMerge.Archive
