import Nexus.Util.Bytes

/-!
# Byte order of the host

The byte order routines of `nexus_util.h` are written once for every host.
Some of them are arithmetic on values, some write or read the memory of a
local variable byte by byte; what either comes to depends on how the host lays
down its integers.
-/

namespace Nexus.Util

/-- The order in which a host lays down the bytes of an integer. -/
inductive ByteOrder
  | little
  | big
deriving DecidableEq

namespace ByteOrder

/-- The memory of a `uint16_t`. -/
def memory16 : ByteOrder → UInt16 → List UInt8
  | .little, v => le16 v
  | .big, v => (le16 v).reverse

/-- The `uint32_t` whose memory is these four bytes. -/
def ofMemory32 : ByteOrder → UInt8 → UInt8 → UInt8 → UInt8 → UInt32
  | .little, b0, b1, b2, b3 => ofLe32 b0 b1 b2 b3
  | .big, b0, b1, b2, b3 => ofLe32 b3 b2 b1 b0

/-- `nexus_endian_be16toh`, on the host's memory of its argument. -/
def endianBe16toh (order : ByteOrder) (bigEndian : UInt16) : UInt16 :=
  let bytes := order.memory16 bigEndian
  ((bytes.getD 0 0).toUInt16 <<< 8) ||| (bytes.getD 1 0).toUInt16

/-- `nexus_endian_htole32`: its result is written as memory and returned as a
value. -/
def endianHtole32 (order : ByteOrder) (host : UInt32) : UInt32 :=
  order.ofMemory32 (host &&& 0xFF).toUInt8
    ((host &&& 0x0000FF00) >>> 8).toUInt8
    ((host &&& 0x00FF0000) >>> 16).toUInt8 (host >>> 24).toUInt8

end ByteOrder

end Nexus.Util
