import Mathlib

/-!
# Host memory layout

Structures reach NV and the MAC as raw memory: `memcpy` and `siphash24_compute`
see the bytes a little-endian host lays down. These are the layouts of the two
integer widths that travel that way, and the reading back.
-/

namespace Nexus.Util

/-- The memory of a `uint16_t`, lowest byte first. -/
def le16 (v : UInt16) : List UInt8 :=
  [v.toUInt8, (v >>> 8).toUInt8]

/-- The memory of a `uint32_t`, lowest byte first. -/
def le32 (v : UInt32) : List UInt8 :=
  [v.toUInt8, (v >>> 8).toUInt8, (v >>> 16).toUInt8, (v >>> 24).toUInt8]

/-- The `uint32_t` whose memory is these four bytes. -/
def ofLe32 (b0 b1 b2 b3 : UInt8) : UInt32 :=
  UInt32.ofNat
    (b0.toNat + 256 * b1.toNat + 65536 * b2.toNat + 16777216 * b3.toNat)

theorem ofLe32_le32 (v : UInt32) :
    ofLe32 v.toUInt8 (v >>> 8).toUInt8 (v >>> 16).toUInt8 (v >>> 24).toUInt8
      = v := by
  apply UInt32.toNat_inj.mp
  have hv := v.toNat_lt
  simp only [ofLe32, UInt32.toNat_ofNat', UInt32.toNat_toUInt8,
    UInt32.toNat_shiftRight, UInt32.reduceToNat, Nat.reduceMod,
    Nat.shiftRight_eq_div_pow, Nat.reducePow]
  omega

end Nexus.Util
