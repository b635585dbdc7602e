import Nexus.Util.Bytes

/-!
# Bit sets and the window with a center

The bottom of `nexus_util.c`. A bit set is a byte array read eight elements to
the byte, lowest bit first; a window is a bit set whose last element stands for
the id at the center, so the flags below tell which ids up to the center have
been received. The pointers of the source are values here: an operation that
writes through one returns the new bytes.
-/

namespace Nexus.Util

variable {n : Nat}

/-- `struct _bitset_indices`: a byte and the bit inside it. -/
structure BitsetIndices where
  byteIndex : UInt8
  bitIndex : UInt8

/-- `_bitset_get_indices`. -/
def bitsetGetIndices (element : UInt16) : BitsetIndices :=
  let byteIndex := (element >>> 3).toUInt8
  ⟨byteIndex, (element - byteIndex.toUInt16 * 8).toUInt8⟩

/-- `nexus_bitset_add`. -/
def bitsetAdd (bytes : Vector UInt8 n) (element : UInt16) : Vector UInt8 n :=
  let indices := bitsetGetIndices element
  bytes.setIfInBounds indices.byteIndex.toNat
    (bytes.toArray.getD indices.byteIndex.toNat 0
      ||| (0x01 <<< indices.bitIndex))

/-- `nexus_bitset_contains`. -/
def bitsetContains (bytes : Vector UInt8 n) (element : UInt16) : Bool :=
  let indices := bitsetGetIndices element
  (bytes.toArray.getD indices.byteIndex.toNat 0
    &&& (0x01 <<< indices.bitIndex)) != 0

/-- `nexus_bitset_clear` over the first `bytesCount` bytes of an array. -/
def bitsetClear (bytes : Vector UInt8 n) (bytesCount : Nat) : Vector UInt8 n :=
  Vector.ofFn fun i => if i.val < bytesCount then 0x00 else bytes.get i

/-- `struct nexus_window`, over a flag array of `n` bytes. -/
structure Window (n : Nat) where
  centerIndex : UInt32
  flags : Vector UInt8 n
  flagsBelow : UInt8
  flagsAbove : UInt8
deriving DecidableEq

/-- `nexus_util_window_id_within_window`. -/
def windowIdWithinWindow (window : Window n) (id : UInt32) : Bool :=
  let windowMin := window.centerIndex - window.flagsBelow.toUInt32
  let windowMax := window.centerIndex + window.flagsAbove.toUInt32
  decide (id ≥ windowMin) && decide (id ≤ windowMax)

/-- `_nexus_util_window_mask_idx_from_id`: the flag of an id inside the
window. -/
def windowMaskIdxFromId (window : Window n) (id : UInt32) : Option UInt8 :=
  if windowIdWithinWindow window id = false then none
  else if window.centerIndex ≥ id then
    some (window.flagsBelow.toUInt32 - (window.centerIndex - id)).toUInt8
  else
    some (window.flagsBelow.toUInt32 + (id - window.centerIndex)).toUInt8

/-- `nexus_util_window_id_flag_already_set`. -/
def windowIdFlagAlreadySet (window : Window n) (id : UInt32) : Bool :=
  if id > window.centerIndex ∨ windowIdWithinWindow window id = false then false
  else
    match windowMaskIdxFromId window id with
    | none => false
    | some maskIdIndex => bitsetContains window.flags maskIdIndex.toUInt16

/-- The copying loop of `nexus_util_window_set_id_flag`, into its zeroed array
of `NEXUS_UTIL_MAX_WINDOW_BITSET_SIZE_BYTES`. -/
def windowShiftedMask (window : Window n) (centerIncrement : UInt32) :
    Vector UInt8 5 :=
  (List.range' centerIncrement.toNat
      (window.flagsBelow.toNat + 1 - centerIncrement.toNat)).foldl
    (fun newMask i =>
      if bitsetContains window.flags (UInt16.ofNat i) then
        bitsetAdd newMask (UInt16.ofNat (i - centerIncrement.toNat))
      else newMask)
    (Vector.replicate 5 0)

/-- `nexus_util_window_set_id_flag`. -/
def windowSetIdFlag (window : Window n) (id : UInt32) : Bool × Window n :=
  let oldCenter := window.centerIndex
  if id > oldCenter + window.flagsAbove.toUInt32 then (false, window)
  else if id < oldCenter - window.flagsBelow.toUInt32 then (false, window)
  else
    match windowMaskIdxFromId window id with
    | none => (false, window)
    | some maskIdIndex =>
        if id ≤ window.centerIndex then
          (true, { window with
            flags := bitsetAdd window.flags maskIdIndex.toUInt16 })
        else
          let centerIncrement := id - oldCenter
          let flags :=
            if centerIncrement > window.flagsBelow.toUInt32 then
              bitsetClear window.flags n
            else
              Vector.ofFn fun i =>
                (windowShiftedMask window centerIncrement).toArray.getD i 0
          (true, { window with
            centerIndex := id
            flags := bitsetAdd flags window.flagsBelow.toUInt16 })

/-- Element `k` of a byte array read as a bit set: what `bitsetContains`
answers, without the fixed-width index arithmetic. -/
def flagAt (bytes : Vector UInt8 n) (k : Nat) : Bool :=
  (bytes.toArray.getD (k / 8) 0).toNat.testBit (k % 8)

theorem bitsetGetIndices_toNat {element : UInt16} (h : element.toNat < 2048) :
    (bitsetGetIndices element).byteIndex.toNat = element.toNat / 8 ∧
      (bitsetGetIndices element).bitIndex.toNat = element.toNat % 8 := by
  have hb : ((element >>> 3).toUInt8).toNat = element.toNat / 8 := by
    simp only [UInt16.toNat_toUInt8, UInt16.toNat_shiftRight,
      UInt16.reduceToNat, Nat.reduceMod, Nat.shiftRight_eq_div_pow,
      Nat.reducePow]
    omega
  refine ⟨hb, ?_⟩
  simp only [bitsetGetIndices, UInt16.toNat_toUInt8, UInt16.toNat_sub,
    UInt16.toNat_mul, UInt8.toNat_toUInt16, UInt16.reduceToNat, hb]
  omega

/-- The mask the two operations build selects one bit of a byte. -/
theorem and_mask_ne_zero (b : UInt8) {i : UInt8} (hi : i.toNat < 8) :
    ((b &&& (0x01 <<< i)) != 0) = b.toNat.testBit i.toNat := by
  obtain ⟨k, hk, rfl⟩ : ∃ k, k < 8 ∧ i = UInt8.ofNat k :=
    ⟨i.toNat, hi, (UInt8.ofNat_toNat).symm⟩
  revert b
  interval_cases k <;> decide +kernel

theorem testBit_or_mask (b : UInt8) {i : UInt8} (hi : i.toNat < 8) (j : Nat)
    (hj : j < 8) :
    (b ||| (0x01 <<< i)).toNat.testBit j
      = (decide (i.toNat = j) || b.toNat.testBit j) := by
  obtain ⟨k, hk, rfl⟩ : ∃ k, k < 8 ∧ i = UInt8.ofNat k :=
    ⟨i.toNat, hi, (UInt8.ofNat_toNat).symm⟩
  revert b
  interval_cases k <;> interval_cases j <;> decide +kernel

theorem bitsetContains_eq {bytes : Vector UInt8 n} {element : UInt16}
    (h : element.toNat < 2048) :
    bitsetContains bytes element = flagAt bytes element.toNat := by
  obtain ⟨h1, h2⟩ := bitsetGetIndices_toNat h
  have hlt : (bitsetGetIndices element).bitIndex.toNat < 8 := by omega
  rw [bitsetContains, and_mask_ne_zero _ hlt, h1, h2, flagAt]

theorem flagAt_bitsetAdd {bytes : Vector UInt8 n} {element : UInt16}
    (h : element.toNat < 8 * n) (h' : element.toNat < 2048) (k : Nat) :
    flagAt (bitsetAdd bytes element) k
      = (decide (element.toNat = k) || flagAt bytes k) := by
  obtain ⟨h1, h2⟩ := bitsetGetIndices_toNat h'
  have hlt : (bitsetGetIndices element).bitIndex.toNat < 8 := by omega
  have hin : element.toNat / 8 < n := by omega
  simp only [flagAt, bitsetAdd, h1, Array.getD_eq_getD_getElem?,
    Vector.toArray_setIfInBounds, Array.getElem?_setIfInBounds,
    Vector.size_toArray, hin]
  by_cases hk : element.toNat / 8 = k / 8
  · simp only [hk, if_true, Option.getD_some]
    rw [testBit_or_mask _ hlt _ (Nat.mod_lt _ (by omega)), h2]
    congr 1
    simp only [decide_eq_decide]
    omega
  · have hne : element.toNat ≠ k := fun he => hk (by rw [he])
    simp [hk, hne]

theorem flagAt_bitsetClear {bytes : Vector UInt8 n} {count k : Nat}
    (hk : k / 8 < count) : flagAt (bitsetClear bytes count) k = false := by
  simp only [flagAt, bitsetClear, Array.getD_eq_getD_getElem?]
  by_cases hn : k / 8 < n
  · simp [hn, hk]
  · simp [hn]

end Nexus.Util
