import OrderedStore.Bytes

/-!
# CRC-32

The IEEE checksum: polynomial `0x04C11DB7` with bits reflected, register preset to all ones and
complemented at the end.

* `Crc32.shift`: one division step;
* `Crc32.feed`: the register after one more byte;
* `crc32`: the checksum of a byte string.
-/

namespace OrderedStore

namespace Crc32

/-- One step of the division: the lowest bit leaves, and a one that leaves subtracts the polynomial. -/
def shift (c : UInt32) : UInt32 :=
  if c &&& 1 = 1 then (c >>> 1) ^^^ 0xEDB88320 else c >>> 1

/-- The register after one more byte. -/
def feed (c : UInt32) (b : UInt8) : UInt32 :=
  shift (shift (shift (shift (shift (shift (shift (shift (c ^^^ b.toUInt32))))))))

end Crc32

/-- The CRC-32 of a byte string. -/
def crc32 (bs : Bytes) : UInt32 :=
  bs.foldl Crc32.feed 0xFFFFFFFF ^^^ 0xFFFFFFFF

end OrderedStore
