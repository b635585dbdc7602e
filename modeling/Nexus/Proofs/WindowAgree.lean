import Nexus.Proofs.Infer

/-!
# Two windows over the same flags

`nexus_keycode_pro.c` finds and sets the flags of message ids with arithmetic
of its own; the extended codes use the window of `nexus_util.c` on the same
three bytes. Both are `FlagWindow` with 23 ids below the center: looking an id
up is membership, setting one is `take`. Three bytes are 24 flags, so windows
that stand for the same `FlagWindow` are the same bytes, and the agreement is
of the memory and not of its meaning only.
-/

namespace Nexus.Keycode

open Nexus.Util Nexus.Lib

/-! ## The window of `nexus_util.c` -/

/-- The 24 flags of a window of three bytes. -/
def flagWindow (w : Window 3) : FlagWindow 23 where
  center := w.centerIndex.toNat
  flag k := decide (k ≤ 23) && flagAt w.flags k

/-- The window `nexus_keycode_pro_get_current_message_id_window` sets up. -/
structure KeycodeSized (w : Window 3) : Prop where
  below : w.flagsBelow = 23
  above : w.flagsAbove = 40

theorem flagAt_ext {v v' : Vector UInt8 3}
    (h : ∀ k ≤ 23, flagAt v k = flagAt v' k) : v = v' := by
  ext j hj
  apply Nat.eq_of_testBit_eq
  intro i
  by_cases hi : i < 8
  · have hk := h (8 * j + i) (by omega)
    have hdiv : (8 * j + i) / 8 = j := by omega
    have hmod : (8 * j + i) % 8 = i := by omega
    simpa [flagAt, hdiv, hmod, Array.getD_eq_getD_getElem?, hj] using hk
  · have hpow : 2 ^ 8 ≤ 2 ^ i := Nat.pow_le_pow_right (by omega) (by omega)
    have h1 := v[j].toNat_lt
    have h2 := v'[j].toNat_lt
    rw [Nat.testBit_lt_two_pow (by omega), Nat.testBit_lt_two_pow (by omega)]

/-- Windows are what they stand for. -/
theorem KeycodeSized.ext {w w' : Window 3} (hw : KeycodeSized w)
    (hw' : KeycodeSized w') (h : flagWindow w = flagWindow w') : w = w' := by
  obtain ⟨center, flags, below, above⟩ := w
  obtain ⟨center', flags', below', above'⟩ := w'
  obtain ⟨rfl, rfl⟩ := hw
  obtain ⟨rfl, rfl⟩ := hw'
  simp only [flagWindow, FlagWindow.mk.injEq, UInt32.toNat_inj] at h
  obtain ⟨rfl, hflags⟩ := h
  have heq : flags = flags' := by
    apply flagAt_ext
    intro k hk
    have := congrFun hflags k
    simpa [hk] using this
  rw [heq]

theorem keycodeSized_current (m : Machine) :
    KeycodeSized m.getCurrentMessageIdWindow := ⟨rfl, rfl⟩

theorem flagWindow_current (m : Machine) :
    flagWindow m.getCurrentMessageIdWindow = m.stored.window := by
  simp only [flagWindow, Stored.window, Machine.getCurrentMessageIdWindow,
    FlagWindow.mk.injEq, true_and]
  funext k
  by_cases hk : k ≤ 23
  · rw [flagAt_firstBytes _ hk]
  · simp [hk]

section

variable {w : Window 3} {id : UInt32}

/-- The id lies in a window that does not wrap. -/
structure IdWithin (w : Window 3) (id : UInt32) : Prop where
  center : 23 ≤ w.centerIndex.toNat
  room : w.centerIndex.toNat + 40 ≤ 65535
  low : w.centerIndex.toNat ≤ id.toNat + 23
  high : id.toNat ≤ w.centerIndex.toNat + 40

instance (w : Window 3) (id : UInt32) : Decidable (IdWithin w id) :=
  decidable_of_iff (23 ≤ w.centerIndex.toNat ∧
      w.centerIndex.toNat + 40 ≤ 65535 ∧
      w.centerIndex.toNat ≤ id.toNat + 23 ∧
      id.toNat ≤ w.centerIndex.toNat + 40)
    ⟨fun h => ⟨h.1, h.2.1, h.2.2.1, h.2.2.2⟩,
      fun h => ⟨h.center, h.room, h.low, h.high⟩⟩

theorem windowMin_toNat (hw : KeycodeSized w) (h : IdWithin w id) :
    (w.centerIndex - w.flagsBelow.toUInt32).toNat
      = w.centerIndex.toNat - 23 := by
  have := h.center
  rw [hw.below, UInt32.toNat_sub]
  show (2 ^ 32 - 23 + _) % 2 ^ 32 = _
  have := w.centerIndex.toNat_lt
  omega

theorem windowMax_toNat (hw : KeycodeSized w) (h : IdWithin w id) :
    (w.centerIndex + w.flagsAbove.toUInt32).toNat
      = w.centerIndex.toNat + 40 := by
  have := h.room
  rw [hw.above, UInt32.toNat_add]
  show (_ + 40) % 2 ^ 32 = _
  omega

theorem windowIdWithinWindow_of (hw : KeycodeSized w) (h : IdWithin w id) :
    windowIdWithinWindow w id = true := by
  have hlow := h.low
  have hhigh := h.high
  unfold windowIdWithinWindow
  simp only [ge_iff_le, Bool.and_eq_true, decide_eq_true_eq,
    UInt32.le_iff_toNat_le, windowMin_toNat hw h, windowMax_toNat hw h]
  omega

theorem windowMaskIdxFromId_of (hw : KeycodeSized w) (h : IdWithin w id) :
    ∃ k : UInt8, windowMaskIdxFromId w id = some k ∧
      (id.toNat ≤ w.centerIndex.toNat →
        k.toNat = id.toNat + 23 - w.centerIndex.toNat) := by
  have hlow := h.low
  unfold windowMaskIdxFromId
  rw [windowIdWithinWindow_of hw h, if_neg (by simp), hw.below]
  split
  · refine ⟨_, rfl, fun hle => ?_⟩
    rw [UInt32.toNat_toUInt8, UInt32.toNat_sub, UInt32.toNat_sub]
    show (2 ^ 32 - (2 ^ 32 - id.toNat + w.centerIndex.toNat) % 2 ^ 32 + 23)
      % 2 ^ 32 % 2 ^ 8 = _
    have := w.centerIndex.toNat_lt
    omega
  · next hgt =>
      refine ⟨_, rfl, fun hle => absurd ?_ hgt⟩
      rw [ge_iff_le, UInt32.le_iff_toNat_le]
      exact hle

/-! ## Setting a flag -/

theorem flagWindow_bitsetAdd (w : Window 3) {k : UInt8}
    (hk : k.toNat ≤ 23) :
    flagWindow { w with flags := bitsetAdd w.flags k.toUInt16 }
      = (flagWindow w).mark k.toNat := by
  simp only [flagWindow, FlagWindow.mark, FlagWindow.mk.injEq, true_and]
  funext j
  rw [flagAt_bitsetAdd (by rw [UInt8.toNat_toUInt16]; omega)
    (by rw [UInt8.toNat_toUInt16]; omega), UInt8.toNat_toUInt16]
  by_cases hj : k.toNat = j
  · simp [hj, show j ≤ 23 by omega]
  · simp [hj]

theorem flagWindow_slide_zero (w : Window 3) :
    (flagWindow w).slide 0 = flagWindow w := by
  simp only [flagWindow, FlagWindow.slide, Nat.add_zero,
    FlagWindow.mk.injEq, true_and]
  funext k
  by_cases hk : k ≤ 23 <;> simp [hk]

theorem flagAt_windowShiftedMask (hw : KeycodeSized w) {d : UInt32}
    (hd : d.toNat ≤ 23) (k : ℕ) :
    flagAt (windowShiftedMask w d) k
      = (decide (k + d.toNat ≤ 23) && flagAt w.flags (k + d.toNat)) := by
  have hl : ∀ i ∈ List.range' d.toNat (24 - d.toNat),
      d.toNat ≤ i ∧ i ≤ 23 := by
    intro i hi
    rw [List.mem_range'_1] at hi
    omega
  rw [Bool.eq_iff_iff, windowShiftedMask, hw.below]
  show flagAt ((List.range' d.toNat (24 - d.toNat)).foldl _ _) k = true ↔ _
  rw [flagAt_shift_foldl (by omega) _ hl]
  simp only [flagAt_replicate_zero, List.mem_range'_1, Bool.and_eq_true,
    decide_eq_true_eq, Bool.false_eq_true, false_or]
  constructor
  · intro ⟨h, h'⟩
    exact ⟨by omega, h'⟩
  · intro ⟨h, h'⟩
    exact ⟨by omega, h'⟩

/-- The `memcpy` of the first three of five bytes. -/
theorem flagAt_ofFn_getD (mask : Vector UInt8 5) {k : ℕ} (hk : k ≤ 23) :
    flagAt (Vector.ofFn fun i : Fin 3 => mask.toArray.getD i 0) k
      = flagAt mask k := by
  have hk8 : k / 8 < 3 := by omega
  unfold flagAt
  generalize hj : k / 8 = j at hk8
  interval_cases j <;> simp [Array.getD_eq_getD_getElem?]

/-- The shift by up to 23, the clear beyond that: both are a slide. -/
theorem flagWindow_moved (hw : KeycodeSized w) (id d : UInt32)
    (hid : id.toNat = w.centerIndex.toNat + d.toNat) :
    flagWindow { w with
        centerIndex := id
        flags := if d > w.flagsBelow.toUInt32 then bitsetClear w.flags 3
          else Vector.ofFn fun i =>
            (windowShiftedMask w d).toArray.getD i 0 }
      = (flagWindow w).slide d.toNat := by
  have hbelow : d > w.flagsBelow.toUInt32 ↔ 23 < d.toNat := by
    rw [hw.below, gt_iff_lt, UInt32.lt_iff_toNat_lt]
    rfl
  simp only [flagWindow, FlagWindow.slide, FlagWindow.mk.injEq]
  refine ⟨hid, ?_⟩
  funext k
  by_cases hk : k ≤ 23
  · split
    · next hbig =>
        have h23 := hbelow.mp hbig
        rw [flagAt_bitsetClear (by omega)]
        simp [show ¬ k + d.toNat ≤ 23 by omega]
    · next hsmall =>
        rw [hbelow, not_lt] at hsmall
        rw [flagAt_ofFn_getD _ hk, flagAt_windowShiftedMask hw hsmall]
        simp [hk]
  · simp [hk, show ¬ k + d.toNat ≤ 23 by omega]

/-- Setting an id of the window takes it. -/
theorem flagWindow_windowSetIdFlag (hw : KeycodeSized w)
    (h : IdWithin w id) :
    (windowSetIdFlag w id).1 = true ∧
      KeycodeSized (windowSetIdFlag w id).2 ∧
      flagWindow (windowSetIdFlag w id).2 = (flagWindow w).take id.toNat := by
  have hlow := h.low
  have hhigh := h.high
  obtain ⟨k, hk, hidx⟩ := windowMaskIdxFromId_of hw h
  have hmax : ¬ id > w.centerIndex + w.flagsAbove.toUInt32 := by
    rw [gt_iff_lt, UInt32.lt_iff_toNat_lt, windowMax_toNat hw h]
    omega
  have hmin : ¬ id < w.centerIndex - w.flagsBelow.toUInt32 := by
    rw [UInt32.lt_iff_toNat_lt, windowMin_toNat hw h]
    omega
  unfold windowSetIdFlag
  simp only [if_neg hmax, if_neg hmin, hk]
  by_cases hle : id ≤ w.centerIndex
  · rw [if_pos hle]
    rw [UInt32.le_iff_toNat_le] at hle
    refine ⟨rfl, ⟨hw.below, hw.above⟩, ?_⟩
    have hzero : id.toNat - (flagWindow w).center = 0 :=
      Nat.sub_eq_zero_of_le hle
    rw [flagWindow_bitsetAdd w (by rw [hidx hle]; omega), hidx hle,
      FlagWindow.take, FlagWindow.advance, hzero, flagWindow_slide_zero]
    rfl
  · rw [if_neg hle]
    rw [UInt32.le_iff_toNat_le, not_le] at hle
    have hsub : (id - w.centerIndex).toNat
        = id.toNat - w.centerIndex.toNat := by
      rw [UInt32.toNat_sub_of_le]
      rw [UInt32.le_iff_toNat_le]
      omega
    have hmoved := flagWindow_moved hw id (id - w.centerIndex)
      (by rw [hsub]; omega)
    have h23 : w.flagsBelow.toNat = 23 := by
      rw [hw.below]
      rfl
    have hcenter : (flagWindow w).center = w.centerIndex.toNat := rfl
    refine ⟨rfl, ⟨hw.below, hw.above⟩, ?_⟩
    revert hmoved
    generalize (if id - w.centerIndex > w.flagsBelow.toUInt32 then
      bitsetClear w.flags 3 else _) = flags
    intro hmoved
    have hmark := flagWindow_bitsetAdd
      { w with centerIndex := id, flags := flags } h23.le
    rw [hmark, hmoved, hsub, h23, FlagWindow.take, FlagWindow.center_advance,
      FlagWindow.advance, hcenter, max_eq_right hle.le,
      Nat.add_sub_cancel_left]

end

/-! ## The window of `nexus_keycode_pro.c` -/

/-- What has just been stored reads back, whatever NV held before. -/
theorem readNv_updateNvBlocks (m : Machine) :
    m.updateNvBlocks.readNv = m.updateNvBlocks := by
  unfold Machine.updateNvBlocks Machine.nvUpdate
  split
  · next block hblock =>
      have hnv : Nv.nxpCommonNvWrite m.nv Nv.blockKeycodePro block
          Nv.blockKeycodePro.blockId = some m.stored.block := by
        rw [Nv.eq_newBlock_of_updateWrites hblock]
        simp [Nv.nxpCommonNvWrite, Stored.block]
      unfold Machine.readNv Machine.emit
      simp only [nvRead_block hnv, Stored.ofBytes_toBytes]
  · next hnone =>
      -- no write: the block there has this inner data, be it valid or not
      unfold Nv.updateWrites at hnone
      split at hnone
      · next existing hexisting =>
          simp only [beq_iff_eq, ite_eq_left_iff, reduceCtorEq, imp_false,
            not_not] at hnone
          unfold Machine.readNv Nv.nvRead
          simp only [hexisting, Option.getD_some, hnone]
          split
          · next inner hinner =>
              split at hinner
              · cases hinner
                rw [Stored.ofBytes_toBytes]
              · cases hinner
          · rfl
      · cases hnone

section

variable {m : Machine} {id : UInt16}

theorem readNv_setFullMessageIdFlag (hm : m.readNv = m) :
    (m.setFullMessageIdFlag id).readNv = m.setFullMessageIdFlag id := by
  unfold Machine.setFullMessageIdFlag Machine.getFullMessageIdFlag
  simp only [hm]
  split
  · exact hm
  · exact readNv_updateNvBlocks _

/-- The keycode module's lookup is that of the window. -/
theorem getFullMessageIdFlag_eq (hm : m.readNv = m)
    (h : IdWithin m.getCurrentMessageIdWindow id.toUInt32) :
    (m.getFullMessageIdFlag id).1
      = windowIdFlagAlreadySet m.getCurrentMessageIdWindow id.toUInt32 := by
  have hroom : m.pdIndex.toNat + 40 ≤ 65535 := h.room
  have hid : id.toUInt32.toNat = id.toNat := UInt16.toNat_toUInt32 id
  rw [Bool.eq_iff_iff, windowIdFlagAlreadySet_iff h.center (by omega) h.low
    h.high, hid]
  unfold Machine.getFullMessageIdFlag
  rw [hm]
  exact idFlag_iff (by rw [← hid]; exact h.low) h.center

/-- So is its way of setting a flag. -/
theorem setFullMessageIdFlag_eq (hm : m.readNv = m)
    (h : IdWithin m.getCurrentMessageIdWindow id.toUInt32) :
    (m.setFullMessageIdFlag id).getCurrentMessageIdWindow
      = (windowSetIdFlag m.getCurrentMessageIdWindow id.toUInt32).2 := by
  have hid : id.toUInt32.toNat = id.toNat := UInt16.toNat_toUInt32 id
  have hlow : m.pdIndex.toNat ≤ id.toNat + 23 := by
    rw [← hid]
    exact h.low
  obtain ⟨-, hsized, htake⟩ :=
    flagWindow_windowSetIdFlag (keycodeSized_current m) h
  refine (keycodeSized_current _).ext hsized ?_
  rw [htake, flagWindow_current, flagWindow_current, hid]
  by_cases hflag : m.idFlag id = false
  · exact window_setFullMessageIdFlag hm hlow h.center hflag
  · rw [Bool.not_eq_false] at hflag
    have hsame : m.setFullMessageIdFlag id = m := by
      unfold Machine.setFullMessageIdFlag Machine.getFullMessageIdFlag
      simp only [hm, hflag, if_true]
    rw [hsame]
    by_cases hgt : m.pdIndex.toNat < id.toNat
    · rw [idFlag_of_gt hgt] at hflag
      cases hflag
    · have hhi : id.toNat ≤ m.stored.window.center := not_lt.mp hgt
      rw [idFlag_of_mem hlow hhi h.center] at hflag
      refine (FlagWindow.take_of_flag hlow hhi hflag fun k hk => ?_).symm
      simp [Stored.window, show ¬ k ≤ 23 by omega]

end

/-! ## Sequences of operations -/

/-- What can be asked of either window. -/
inductive IdOp
  | get (id : UInt16)
  | set (id : UInt16)

def IdOp.id : IdOp → UInt16
  | .get id | .set id => id

/-- The keycode module's functions. -/
def Machine.idStep (m : Machine) : IdOp → Machine
  | .get id => (m.getFullMessageIdFlag id).2
  | .set id => m.setFullMessageIdFlag id

def Machine.idAnswer (m : Machine) : IdOp → Option Bool
  | .get id => some (m.getFullMessageIdFlag id).1
  | .set _ => none

/-- The generic window's functions. -/
def windowIdStep (w : Window 3) : IdOp → Window 3
  | .get _ => w
  | .set id => (windowSetIdFlag w id.toUInt32).2

def windowIdAnswer (w : Window 3) : IdOp → Option Bool
  | .get id => some (windowIdFlagAlreadySet w id.toUInt32)
  | .set _ => none

/-- The ids the two windows are compared on. -/
def IdOpWithin (m : Machine) (op : IdOp) : Prop :=
  IdWithin m.getCurrentMessageIdWindow op.id.toUInt32

instance (m : Machine) (op : IdOp) : Decidable (IdOpWithin m op) :=
  inferInstanceAs (Decidable (IdWithin _ _))

theorem idStep_agree {m : Machine} (hm : m.readNv = m) {op : IdOp}
    (h : IdOpWithin m op) :
    m.idAnswer op = windowIdAnswer m.getCurrentMessageIdWindow op ∧
      (m.idStep op).readNv = m.idStep op ∧
      (m.idStep op).getCurrentMessageIdWindow
        = windowIdStep m.getCurrentMessageIdWindow op := by
  cases op with
  | get id =>
      refine ⟨congrArg some (getFullMessageIdFlag_eq hm h), ?_, ?_⟩
      · show m.readNv.readNv = m.readNv
        rw [hm, hm]
      · show m.readNv.getCurrentMessageIdWindow = _
        rw [hm]
        rfl
  | set id =>
      exact ⟨rfl, readNv_setFullMessageIdFlag hm,
        setFullMessageIdFlag_eq hm h⟩

theorem idRun_agree {m : Machine} (hm : m.readNv = m) {ops : List IdOp}
    (h : Along Machine.idStep IdOpWithin m ops) :
    events Machine.idStep Machine.idAnswer m ops
        = events windowIdStep windowIdAnswer m.getCurrentMessageIdWindow
          ops ∧
      (run Machine.idStep m ops).getCurrentMessageIdWindow
        = run windowIdStep m.getCurrentMessageIdWindow ops := by
  induction ops generalizing m with
  | nil => exact ⟨rfl, rfl⟩
  | cons op ops ih =>
      obtain ⟨hanswer, hread, hwindow⟩ := idStep_agree hm h.1
      obtain ⟨hevents, hrun⟩ := ih hread h.2
      rw [hwindow] at hevents hrun
      exact ⟨by rw [events, events, hanswer, hevents], hrun⟩

/-- The two windows agree: on every id of a window that does not wrap, and so
along every sequence of such lookups and marks. -/
theorem windows_agree (m : Machine) (hm : m.readNv = m) :
    (∀ id : UInt16, IdWithin m.getCurrentMessageIdWindow id.toUInt32 →
      (m.getFullMessageIdFlag id).1
          = windowIdFlagAlreadySet m.getCurrentMessageIdWindow
            id.toUInt32 ∧
        (windowSetIdFlag m.getCurrentMessageIdWindow id.toUInt32).1
          = true ∧
        (m.setFullMessageIdFlag id).getCurrentMessageIdWindow
          = (windowSetIdFlag m.getCurrentMessageIdWindow
            id.toUInt32).2) ∧
    ∀ ops : List IdOp, Along Machine.idStep IdOpWithin m ops →
      events Machine.idStep Machine.idAnswer m ops
          = events windowIdStep windowIdAnswer m.getCurrentMessageIdWindow
            ops ∧
        (run Machine.idStep m ops).getCurrentMessageIdWindow
          = run windowIdStep m.getCurrentMessageIdWindow ops :=
  ⟨fun _ h => ⟨getFullMessageIdFlag_eq hm h,
      (flagWindow_windowSetIdFlag (keycodeSized_current m) h).1,
      setFullMessageIdFlag_eq hm h⟩,
    fun _ h => idRun_agree hm h⟩

/-- The factory window, moved by ten, then by thirty, and asked about an id
that was set before. -/
theorem windows_agree_factory :
    events Machine.idStep Machine.idAnswer (.ofStored .factory)
        [.set 33, .get 33, .set 63, .get 40] = [true, false] ∧
      events windowIdStep windowIdAnswer
        (Machine.ofStored .factory).getCurrentMessageIdWindow
        [.set 33, .get 33, .set 63, .get 40] = [true, false] ∧
      (run Machine.idStep (.ofStored .factory)
        [.set 33, .get 33, .set 63, .get 40]).getCurrentMessageIdWindow
        = ⟨63, #v[0, 0, 0x80], 23, 40⟩ := by
  have hops : Along Machine.idStep IdOpWithin (.ofStored .factory)
      [.set 33, .get 33, .set 63, .get 40] := by decide +kernel
  obtain ⟨hevents, hrun⟩ := (windows_agree (.ofStored .factory)
    (Persisted.ofStored _).readNv).2 _ hops
  have hanswers : events windowIdStep windowIdAnswer
      (Machine.ofStored .factory).getCurrentMessageIdWindow
      [.set 33, .get 33, .set 63, .get 40] = [true, false] := by
    decide +kernel
  rw [hevents, hrun]
  exact ⟨hanswers, hanswers, by decide +kernel⟩

end Nexus.Keycode
