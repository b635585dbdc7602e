import Nexus.Util.Siphash

/-!
# Integrity checks

The head of `nexus_util.c`: the two fixed keys, `nexus_check_compute`, and the
pseudorandom bytes that interleave activation messages.
-/

namespace Nexus.Util

/-- `struct nx_common_check_key`. -/
structure CheckKey where
  bytes : Vector UInt8 16
deriving DecidableEq

/-- `NEXUS_INTEGRITY_CHECK_FIXED_00_KEY`. -/
def integrityCheckFixed00Key : CheckKey := ⟨Vector.replicate 16 0x00⟩

/-- `NEXUS_INTEGRITY_CHECK_FIXED_FF_KEY`. -/
def integrityCheckFixedFFKey : CheckKey := ⟨Vector.replicate 16 0xFF⟩

/-- `nexus_check_compute`. -/
def checkCompute (key : CheckKey) (data : List UInt8) : Vector UInt8 8 :=
  siphash24Compute data key.bytes

/-- `nexus_check_value_as_uint64`. -/
def checkValueAsUint64 (value : Vector UInt8 8) : UInt64 :=
  u8to64Le value.toList

/-- `nexus_check_compute_pseudorandom_bytes`: a zero iteration byte and the
seed, hashed once, cut to the requested size. -/
def checkComputePseudorandomBytes (key : CheckKey) (seed : List UInt8)
    (outputSize : Nat) : List UInt8 :=
  (checkCompute key (0x00 :: seed)).toList.take outputSize

theorem length_checkComputePseudorandomBytes (key : CheckKey)
    (seed : List UInt8) {n : Nat} (hn : n ≤ 8) :
    (checkComputePseudorandomBytes key seed n).length = n := by
  simp [checkComputePseudorandomBytes, hn]

end Nexus.Util
