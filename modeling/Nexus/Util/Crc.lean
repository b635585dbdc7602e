import Nexus.Util.Bytes

/-!
# CRC-CCITT

`utils/crc_ccitt.c`: the byte-wise update and the loop that starts at `0xffff`.
-/

namespace Nexus.Util

/-- `_crc_ccitt_update`. -/
def crcCcittUpdate (curCrc : UInt16) (byte : UInt8) : UInt16 :=
  let crc : UInt32 :=
    (curCrc >>> 8).toUInt8.toUInt32 ||| (curCrc.toUInt32 <<< 8)
  let crc := crc ^^^ byte.toUInt32
  let crc := crc ^^^ ((crc &&& 0xff) >>> 4)
  let crc := crc ^^^ (crc <<< 12)
  let crc := crc ^^^ ((crc &&& 0xff) <<< 5)
  crc.toUInt16

/-- `compute_crc_ccitt`. -/
def computeCrcCcitt (bytes : List UInt8) : UInt16 :=
  bytes.foldl crcCcittUpdate 0xffff

end Nexus.Util
