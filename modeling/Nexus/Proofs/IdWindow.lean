import Nexus.Lib.FlagWindow
import Nexus.Util.Bitset

/-!
# The window of `nexus_util.c` is a sliding window

Whoever keeps a `struct nexus_window` gives it as many flag bytes as there are
ids up to the center: three bytes and 23 ids below for keycodes, four and 31
for origin commands, two and 15 for handshakes. All three are `FlagWindow`. The
test for an id inside the window also sees to it that the window does not wrap
around, looking an id up is membership, and setting one is `take`.
-/

namespace Nexus.Util

open Nexus.Lib

variable {n : ℕ}

/-- The window of ids that the bytes and the center stand for. -/
def Window.ids (w : Window n) (below : ℕ) : FlagWindow below where
  center := w.centerIndex.toNat
  flag k := decide (k ≤ below) && flagAt w.flags k

/-- A window with one flag for each id up to its center. -/
structure Window.Sized (w : Window n) (below above : ℕ) : Prop where
  flags : below + 1 = 8 * n
  bytes : n ≤ 5
  below : w.flagsBelow.toNat = below
  above : w.flagsAbove.toNat = above

/-- The id lies in a window that does not wrap. -/
structure Window.Holds (w : Window n) (below above : ℕ) (id : UInt32) :
    Prop where
  center : below ≤ w.centerIndex.toNat
  room : w.centerIndex.toNat + above < 2 ^ 32
  low : w.centerIndex.toNat ≤ id.toNat + below
  high : id.toNat ≤ w.centerIndex.toNat + above

variable {w : Window n} {below above : ℕ} {id : UInt32}

namespace Window

theorem Sized.above_lt (hw : w.Sized below above) : above < 256 := by
  rw [← hw.above]
  exact w.flagsAbove.toNat_lt

theorem Sized.below_lt (hw : w.Sized below above) : below < 40 := by
  have := hw.flags
  have := hw.bytes
  omega

theorem Sized.toNat_min (hw : w.Sized below above)
    (hcenter : below ≤ w.centerIndex.toNat) :
    (w.centerIndex - w.flagsBelow.toUInt32).toNat
      = w.centerIndex.toNat - below := by
  have hlt := w.centerIndex.toNat_lt
  have := hw.below_lt
  rw [UInt32.toNat_sub, UInt8.toNat_toUInt32, hw.below]
  omega

theorem Sized.toNat_max (hw : w.Sized below above) :
    (w.centerIndex + w.flagsAbove.toUInt32).toNat
      = (w.centerIndex.toNat + above) % 2 ^ 32 := by
  rw [UInt32.toNat_add, UInt8.toNat_toUInt32, hw.above]

end Window

open Window

/-- Close to the top of the numbers the upper end wraps around, and then no id
is inside. -/
theorem within_iff_holds (hw : w.Sized below above)
    (hcenter : below ≤ w.centerIndex.toNat) :
    windowIdWithinWindow w id = true ↔ w.Holds below above id := by
  have hlt := w.centerIndex.toNat_lt
  have hbelow := hw.below_lt
  have habove := hw.above_lt
  simp only [windowIdWithinWindow, ge_iff_le, Bool.and_eq_true,
    decide_eq_true_eq, UInt32.le_iff_toNat_le, hw.toNat_min hcenter,
    hw.toNat_max]
  constructor
  · intro ⟨hlow, hhigh⟩
    have hroom : w.centerIndex.toNat + above < 2 ^ 32 := by
      by_contra hwrap
      omega
    rw [Nat.mod_eq_of_lt hroom] at hhigh
    exact ⟨hcenter, hroom, by omega, hhigh⟩
  · intro h
    have hlow := h.low
    rw [Nat.mod_eq_of_lt h.room]
    exact ⟨by omega, h.high⟩

theorem maskIdx_of_holds (hw : w.Sized below above)
    (h : w.Holds below above id) :
    ∃ k : UInt8, windowMaskIdxFromId w id = some k ∧
      (id.toNat ≤ w.centerIndex.toNat →
        k.toNat = id.toNat + below - w.centerIndex.toNat) := by
  have hlow := h.low
  have hlt := w.centerIndex.toNat_lt
  have hbelow := hw.below_lt
  unfold windowMaskIdxFromId
  rw [(within_iff_holds hw h.center).mpr h, if_neg (by simp)]
  split
  · refine ⟨_, rfl, fun hle => ?_⟩
    rw [UInt32.toNat_toUInt8, UInt32.toNat_sub, UInt32.toNat_sub,
      UInt8.toNat_toUInt32, hw.below]
    omega
  · next hgt =>
      refine ⟨_, rfl, fun hle => absurd ?_ hgt⟩
      rw [ge_iff_le, UInt32.le_iff_toNat_le]
      exact hle

/-- Looking an id up is membership. -/
theorem flagAlreadySet_iff (hw : w.Sized below above)
    (h : w.Holds below above id) :
    windowIdFlagAlreadySet w id = true ↔ id.toNat ∈ (w.ids below).received := by
  have hlow := h.low
  have hbelow := hw.below_lt
  obtain ⟨k, hk, hidx⟩ := maskIdx_of_holds hw h
  unfold windowIdFlagAlreadySet
  by_cases hgt : id > w.centerIndex
  · rw [if_pos (Or.inl hgt)]
    rw [gt_iff_lt, UInt32.lt_iff_toNat_lt] at hgt
    have hfree : id.toNat ∉ (w.ids below).received :=
      FlagWindow.not_mem_received_of_gt hgt
    simp [hfree]
  · have hwithin := (within_iff_holds hw h.center).mpr h
    rw [if_neg (by simp [hgt, hwithin]), hk]
    rw [gt_iff_lt, UInt32.lt_iff_toNat_lt, not_lt] at hgt
    have hk' := hidx hgt
    have hle : id.toNat + below - w.centerIndex.toNat ≤ below := by omega
    have hmem := FlagWindow.mem_received_iff (w := w.ids below) hlow hgt
    rw [hmem]
    show bitsetContains w.flags k.toUInt16 = true ↔ _
    rw [bitsetContains_eq (by rw [UInt8.toNat_toUInt16]; omega),
      UInt8.toNat_toUInt16, hk']
    simp only [Window.ids, Bool.and_eq_true, decide_eq_true_eq]
    exact ⟨fun hflag => ⟨hle, hflag⟩, fun hflag => hflag.2⟩

/-- Past the center no id is flagged. -/
theorem flagAlreadySet_of_gt (hgt : w.centerIndex.toNat < id.toNat) :
    windowIdFlagAlreadySet w id = false := by
  have habove : id > w.centerIndex := by
    rw [gt_iff_lt, UInt32.lt_iff_toNat_lt]
    exact hgt
  rw [windowIdFlagAlreadySet, if_pos (Or.inl habove)]

/-- Flags that read the same are the same bytes. -/
theorem flagAt_ext {flags flags' : Vector UInt8 n}
    (h : ∀ k < 8 * n, flagAt flags k = flagAt flags' k) : flags = flags' := by
  ext j hj
  apply Nat.eq_of_testBit_eq
  intro i
  by_cases hi : i < 8
  · have hk := h (8 * j + i) (by omega)
    have hdiv : (8 * j + i) / 8 = j := by omega
    have hmod : (8 * j + i) % 8 = i := by omega
    simpa [flagAt, hdiv, hmod, Array.getD_eq_getD_getElem?, hj] using hk
  · have hpow : 2 ^ 8 ≤ 2 ^ i := Nat.pow_le_pow_right (by omega) (by omega)
    have h1 := flags[j].toNat_lt
    have h2 := flags'[j].toNat_lt
    rw [Nat.testBit_lt_two_pow (by omega), Nat.testBit_lt_two_pow (by omega)]

/-- Windows of one size are what they stand for. -/
theorem Window.Sized.ext {w' : Window n} (hw : w.Sized below above)
    (hw' : w'.Sized below above) (h : w.ids below = w'.ids below) :
    w = w' := by
  have hbelow : w.flagsBelow = w'.flagsBelow := by
    rw [← UInt8.toNat_inj, hw.below, hw'.below]
  have habove : w.flagsAbove = w'.flagsAbove := by
    rw [← UInt8.toNat_inj, hw.above, hw'.above]
  have hcount := hw.flags
  obtain ⟨center, flags, flagsBelow, flagsAbove⟩ := w
  obtain ⟨center', flags', flagsBelow', flagsAbove'⟩ := w'
  simp only [Window.ids, FlagWindow.mk.injEq, UInt32.toNat_inj] at h
  obtain ⟨hcenter, hflags⟩ := h
  have heq : flags = flags' := by
    apply flagAt_ext
    intro k hk
    have hflag := congrFun hflags k
    simpa [show k ≤ below by omega] using hflag
  simp only at hbelow habove
  rw [hbelow, habove, hcenter, heq]

/-! ## Setting a flag -/

/-- An id outside the window is refused, and so is every id when the window
wraps. -/
theorem setIdFlag_of_not_holds (hw : w.Sized below above)
    (hcenter : below ≤ w.centerIndex.toNat) (h : ¬ w.Holds below above id) :
    windowSetIdFlag w id = (false, w) := by
  have hwithin : windowIdWithinWindow w id = false := by
    rw [Bool.eq_false_iff]
    exact mt (within_iff_holds hw hcenter).mp h
  have hnone : windowMaskIdxFromId w id = none := by
    rw [windowMaskIdxFromId, if_pos hwithin]
  rw [windowSetIdFlag, hnone]
  simp only [ite_self]

theorem ids_bitsetAdd (w : Window n) (hflags : below + 1 = 8 * n)
    (hbytes : n ≤ 5) {k : UInt8} (hk : k.toNat ≤ below) :
    Window.ids { w with flags := bitsetAdd w.flags k.toUInt16 } below
      = (w.ids below).mark k.toNat := by
  simp only [Window.ids, FlagWindow.mark, FlagWindow.mk.injEq, true_and]
  funext j
  rw [flagAt_bitsetAdd (by rw [UInt8.toNat_toUInt16]; omega)
    (by rw [UInt8.toNat_toUInt16]; omega), UInt8.toNat_toUInt16]
  by_cases hj : k.toNat = j
  · simp [hj, show j ≤ below by omega]
  · simp [hj]

/-- The copying loop, over any part of its range. -/
theorem flagAt_copyLoop {p q : ℕ} {flags : Vector UInt8 p} {d : ℕ}
    (hsize : below < 8 * q) (hbelow : below < 40) (l : List ℕ)
    (hl : ∀ i ∈ l, d ≤ i ∧ i ≤ below) (mask : Vector UInt8 q) (k : ℕ) :
    flagAt (l.foldl (fun newMask i =>
        if bitsetContains flags (UInt16.ofNat i) then
          bitsetAdd newMask (UInt16.ofNat (i - d))
        else newMask) mask) k = true ↔
      flagAt mask k = true ∨ (k + d ∈ l ∧ flagAt flags (k + d) = true) := by
  induction l generalizing mask with
  | nil => simp
  | cons i l ih =>
      obtain ⟨hdi, hi⟩ := hl i (by simp)
      have hof : (UInt16.ofNat i).toNat = i := by
        rw [UInt16.toNat_ofNat']; omega
      have hofd : (UInt16.ofNat (i - d)).toNat = i - d := by
        rw [UInt16.toNat_ofNat']; omega
      rw [List.foldl_cons, ih fun j hj => hl j (by simp [hj])]
      rw [bitsetContains_eq (by omega), hof]
      by_cases hflag : flagAt flags i = true
      · rw [if_pos hflag, flagAt_bitsetAdd (by omega) (by omega), hofd]
        simp only [Bool.or_eq_true, decide_eq_true_eq, List.mem_cons]
        constructor
        · rintro ((h | h) | ⟨h, h'⟩)
          · have hk : k + d = i := by omega
            exact Or.inr ⟨Or.inl hk, by rw [hk]; exact hflag⟩
          · exact Or.inl h
          · exact Or.inr ⟨Or.inr h, h'⟩
        · rintro (h | ⟨h | h, h'⟩)
          · exact Or.inl (Or.inr h)
          · exact Or.inl (Or.inl (by omega))
          · exact Or.inr ⟨h, h'⟩
      · rw [if_neg hflag]
        simp only [List.mem_cons]
        constructor
        · rintro (h | ⟨h, h'⟩)
          · exact Or.inl h
          · exact Or.inr ⟨Or.inr h, h'⟩
        · rintro (h | ⟨h | h, h'⟩)
          · exact Or.inl h
          · exact absurd (h ▸ h') hflag
          · exact Or.inr ⟨h, h'⟩

theorem flagAt_zeros {p : ℕ} (k : ℕ) :
    flagAt (Vector.replicate p 0) k = false := by
  simp only [flagAt, Vector.toArray_replicate, Array.getD_eq_getD_getElem?,
    Array.getElem?_replicate]
  split <;> simp

theorem flagAt_shifted (hw : w.Sized below above) {d : UInt32}
    (k : ℕ) :
    flagAt (windowShiftedMask w d) k
      = (decide (k + d.toNat ≤ below) && flagAt w.flags (k + d.toNat)) := by
  have hbelow := hw.below_lt
  have hl : ∀ i ∈ List.range' d.toNat (below + 1 - d.toNat),
      d.toNat ≤ i ∧ i ≤ below := by
    intro i hi
    rw [List.mem_range'_1] at hi
    omega
  rw [Bool.eq_iff_iff, windowShiftedMask, hw.below,
    flagAt_copyLoop (by omega) hbelow _ hl]
  simp only [flagAt_zeros, List.mem_range'_1, Bool.and_eq_true,
    decide_eq_true_eq, Bool.false_eq_true, false_or]
  constructor
  · intro ⟨h, h'⟩
    exact ⟨by omega, h'⟩
  · intro ⟨h, h'⟩
    exact ⟨by omega, h'⟩

/-- The `memcpy` of the first bytes of five. -/
theorem flagAt_firstOfFive (mask : Vector UInt8 5) {k : ℕ} (hk : k < 8 * n) :
    flagAt (Vector.ofFn fun i : Fin n => mask.toArray.getD i 0) k
      = flagAt mask k := by
  have hin : k / 8 < n := by omega
  simp [flagAt, Array.getD_eq_getD_getElem?, hin]

/-- The shift by up to the ids below, the clear beyond that: both are a
slide. -/
theorem ids_moved (hw : w.Sized below above) (id d : UInt32)
    (hid : id.toNat = w.centerIndex.toNat + d.toNat) :
    Window.ids { w with
        centerIndex := id
        flags := if d > w.flagsBelow.toUInt32 then bitsetClear w.flags n
          else Vector.ofFn fun i =>
            (windowShiftedMask w d).toArray.getD i 0 } below
      = (w.ids below).slide d.toNat := by
  have hflags := hw.flags
  have hbig : d > w.flagsBelow.toUInt32 ↔ below < d.toNat := by
    rw [gt_iff_lt, UInt32.lt_iff_toNat_lt, UInt8.toNat_toUInt32, hw.below]
  simp only [Window.ids, FlagWindow.slide, FlagWindow.mk.injEq]
  refine ⟨hid, ?_⟩
  funext k
  by_cases hk : k ≤ below
  · split
    · next h =>
        have hlt := hbig.mp h
        rw [flagAt_bitsetClear (by omega)]
        simp [show ¬ k + d.toNat ≤ below by omega]
    · next h =>
        rw [flagAt_firstOfFive _ (by omega), flagAt_shifted hw]
        simp [hk]
  · simp [hk, show ¬ k + d.toNat ≤ below by omega]

/-- Setting an id of the window takes it. -/
theorem setIdFlag_of_holds (hw : w.Sized below above)
    (h : w.Holds below above id) :
    (windowSetIdFlag w id).1 = true ∧
      (windowSetIdFlag w id).2.Sized below above ∧
      (windowSetIdFlag w id).2.ids below = (w.ids below).take id.toNat := by
  have hlow := h.low
  have hhigh := h.high
  obtain ⟨k, hk, hidx⟩ := maskIdx_of_holds hw h
  have hmax : ¬ id > w.centerIndex + w.flagsAbove.toUInt32 := by
    rw [gt_iff_lt, UInt32.lt_iff_toNat_lt, hw.toNat_max,
      Nat.mod_eq_of_lt h.room]
    omega
  have hmin : ¬ id < w.centerIndex - w.flagsBelow.toUInt32 := by
    rw [UInt32.lt_iff_toNat_lt, hw.toNat_min h.center]
    omega
  unfold windowSetIdFlag
  simp only [if_neg hmax, if_neg hmin, hk]
  by_cases hle : id ≤ w.centerIndex
  · rw [if_pos hle]
    rw [UInt32.le_iff_toNat_le] at hle
    refine ⟨rfl, ⟨hw.flags, hw.bytes, hw.below, hw.above⟩, ?_⟩
    have hzero : id.toNat - (w.ids below).center = 0 :=
      Nat.sub_eq_zero_of_le hle
    have hstay : (w.ids below).slide 0 = w.ids below := by
      simp only [Window.ids, FlagWindow.slide, Nat.add_zero,
        FlagWindow.mk.injEq, true_and]
      funext j
      by_cases hj : j ≤ below <;> simp [hj]
    rw [ids_bitsetAdd w hw.flags hw.bytes (by rw [hidx hle]; omega),
      hidx hle, FlagWindow.take, FlagWindow.advance, hzero, hstay]
    rfl
  · rw [if_neg hle]
    rw [UInt32.le_iff_toNat_le, not_le] at hle
    have hsub : (id - w.centerIndex).toNat
        = id.toNat - w.centerIndex.toNat := by
      rw [UInt32.toNat_sub_of_le]
      rw [UInt32.le_iff_toNat_le]
      omega
    have hmoved := ids_moved hw id (id - w.centerIndex)
      (by rw [hsub]; omega)
    have hcenter : (w.ids below).center = w.centerIndex.toNat := rfl
    refine ⟨rfl, ⟨hw.flags, hw.bytes, hw.below, hw.above⟩, ?_⟩
    revert hmoved
    generalize (if id - w.centerIndex > w.flagsBelow.toUInt32 then
      bitsetClear w.flags n else _) = flags
    intro hmoved
    have hmark := ids_bitsetAdd
      { w with centerIndex := id, flags := flags } hw.flags hw.bytes
      hw.below.le
    rw [hmark, hmoved, hsub, hw.below, FlagWindow.take,
      FlagWindow.center_advance, FlagWindow.advance, hcenter,
      max_eq_right hle.le, Nat.add_sub_cancel_left]

end Nexus.Util
