import Nexus.Lib.FlagWindow
import Nexus.Proofs.Persist

/-!
# The stored flags are a sliding window

`nexus_keycode_pro.c` keeps 24 flag bits and a 32-bit center and moves bits
about; what it means to do is `FlagWindow` with 23 ids below the center. Here
the two are tied together: `Stored.window` reads a stored structure as a
window, the flag lookup is membership in the window, and the two functions that
write flags are `take` and `takeUpTo`.

Ids reach these functions cut to 16 bits. Every lemma is about the id as it
arrives; what the cut does to an id of 32 bits is the caller's business.
-/

namespace Nexus.Keycode

open Nexus.Util Nexus.Lib

/-- The window a stored structure stands for. Flags past the center belong to
no id. -/
def Stored.window (s : Stored) : FlagWindow 23 where
  center := s.pdIndex.toNat
  flag k := decide (k ≤ 23) && flagAt s.receivedFlags k

@[simp] theorem receiveWindowBeforePd_toNat :
    receiveWindowBeforePd.toNat = 23 := rfl

@[simp] theorem receiveWindowAfterPd_toNat :
    receiveWindowAfterPd.toNat = 40 := rfl

/-! ## The two loops over flags -/

/-- The copying loop, over any part of its range. -/
theorem flagAt_shift_foldl {n p : ℕ} {flags : Vector UInt8 n} {d : ℕ}
    (hp : 3 ≤ p) (l : List ℕ) (hl : ∀ i ∈ l, d ≤ i ∧ i ≤ 23)
    (mask : Vector UInt8 p) (k : ℕ) :
    flagAt (l.foldl (fun newMask i =>
        if bitsetContains flags (UInt16.ofNat i) then
          bitsetAdd newMask (UInt16.ofNat (i - d))
        else newMask) mask) k = true ↔
      flagAt mask k = true ∨ (k + d ∈ l ∧ flagAt flags (k + d) = true) := by
  induction l generalizing mask with
  | nil => simp
  | cons i l ih =>
      obtain ⟨hdi, hi⟩ := hl i (by simp)
      have hof : (UInt16.ofNat i).toNat = i := by
        rw [UInt16.toNat_ofNat']; omega
      have hofd : (UInt16.ofNat (i - d)).toNat = i - d := by
        rw [UInt16.toNat_ofNat']; omega
      rw [List.foldl_cons, ih fun j hj => hl j (by simp [hj])]
      rw [bitsetContains_eq (by omega), hof]
      by_cases hflag : flagAt flags i = true
      · rw [if_pos hflag, flagAt_bitsetAdd (by omega) (by omega), hofd]
        simp only [Bool.or_eq_true, decide_eq_true_eq, List.mem_cons]
        constructor
        · rintro ((h | h) | ⟨h, h'⟩)
          · have hk : k + d = i := by omega
            exact Or.inr ⟨Or.inl hk, by rw [hk]; exact hflag⟩
          · exact Or.inl h
          · exact Or.inr ⟨Or.inr h, h'⟩
        · rintro (h | ⟨h | h, h'⟩)
          · exact Or.inl (Or.inr h)
          · exact Or.inl (Or.inl (by omega))
          · exact Or.inr ⟨h, h'⟩
      · rw [if_neg hflag]
        simp only [List.mem_cons]
        constructor
        · rintro (h | ⟨h, h'⟩)
          · exact Or.inl h
          · exact Or.inr ⟨Or.inr h, h'⟩
        · rintro (h | ⟨h | h, h'⟩)
          · exact Or.inl h
          · exact absurd (h ▸ h') hflag
          · exact Or.inr ⟨h, h'⟩

theorem flagAt_replicate_zero {n : ℕ} (k : ℕ) :
    flagAt (Vector.replicate n 0) k = false := by
  simp only [flagAt, Vector.toArray_replicate, Array.getD_eq_getD_getElem?,
    Array.getElem?_replicate]
  split <;> simp

theorem flagAt_shiftedMask {flags : Vector UInt8 5} {d : UInt32}
    (hd : d.toNat ≤ 23) (k : ℕ) :
    flagAt (shiftedMask flags d) k
      = (decide (k + d.toNat ≤ 23) && flagAt flags (k + d.toNat)) := by
  have hl : ∀ i ∈ List.range' d.toNat (24 - d.toNat),
      d.toNat ≤ i ∧ i ≤ 23 := by
    intro i hi
    rw [List.mem_range'_1] at hi
    omega
  rw [Bool.eq_iff_iff, shiftedMask, flagAt_shift_foldl (le_refl 3) _ hl]
  simp only [flagAt_replicate_zero, List.mem_range'_1, Bool.and_eq_true,
    decide_eq_true_eq, Bool.false_eq_true, false_or]
  constructor
  · rintro ⟨h, h'⟩
    exact ⟨by omega, h'⟩
  · rintro ⟨h, h'⟩
    exact ⟨by omega, h'⟩

theorem flagAt_copyMask {flags : Vector UInt8 5} {mask : Vector UInt8 3}
    {k : ℕ} (hk : k ≤ 23) :
    flagAt (copyMask flags mask) k = flagAt mask k := by
  have hk8 : k / 8 < 3 := by omega
  unfold flagAt copyMask
  generalize hj : k / 8 = j at hk8
  interval_cases j <;> simp [Array.getD_eq_getD_getElem?]

/-- The masking loop, over any part of its range. -/
theorem flagAt_mask_foldl (l : List ℕ) (hl : ∀ i ∈ l, i ≤ 23)
    (flags : Vector UInt8 5) (k : ℕ) :
    flagAt (l.foldl (fun flags i => bitsetAdd flags (UInt16.ofNat i)) flags) k
      = true ↔ k ∈ l ∨ flagAt flags k = true := by
  induction l generalizing flags with
  | nil => simp
  | cons i l ih =>
      have hi := hl i (by simp)
      have hof : (UInt16.ofNat i).toNat = i := by
        rw [UInt16.toNat_ofNat']; omega
      rw [List.foldl_cons, ih fun j hj => hl j (by simp [hj]),
        flagAt_bitsetAdd (by omega) (by omega), hof]
      simp only [Bool.or_eq_true, decide_eq_true_eq, List.mem_cons]
      rw [eq_comm (a := i), or_left_comm, or_assoc]

/-- Setting a flag bit marks the window. -/
theorem Stored.window_bitsetAdd (s : Stored) {k : UInt8} (hk : k.toNat ≤ 23) :
    Stored.window { s with
        receivedFlags := bitsetAdd s.receivedFlags k.toUInt16 }
      = s.window.mark k.toNat := by
  simp only [Stored.window, FlagWindow.mark, FlagWindow.mk.injEq, true_and]
  funext j
  rw [flagAt_bitsetAdd (by rw [UInt8.toNat_toUInt16]; omega)
    (by rw [UInt8.toNat_toUInt16]; omega), UInt8.toNat_toUInt16]
  by_cases hj : k.toNat = j
  · simp [hj, show j ≤ 23 by omega]
  · simp [hj]

/-- So does the masking loop. -/
theorem Stored.window_maskFlags (s : Stored) {k : UInt8} (hk : k.toNat ≤ 23) :
    Stored.window { s with
        receivedFlags := (List.range (k.toNat + 1)).foldl
          (fun flags i => bitsetAdd flags (UInt16.ofNat i)) s.receivedFlags }
      = s.window.markUpTo k.toNat := by
  simp only [Stored.window, FlagWindow.markUpTo, FlagWindow.mk.injEq,
    true_and]
  funext j
  have hl : ∀ i ∈ List.range (k.toNat + 1), i ≤ 23 := by
    intro i hi
    rw [List.mem_range] at hi
    omega
  rw [Bool.eq_iff_iff]
  simp only [Bool.and_eq_true, Bool.or_eq_true, decide_eq_true_eq,
    flagAt_mask_foldl _ hl, List.mem_range]
  constructor
  · rintro ⟨h, h' | h'⟩
    · exact Or.inl (by omega)
    · exact Or.inr ⟨h, h'⟩
  · rintro (h | ⟨h, h'⟩)
    · exact ⟨by omega, Or.inl (by omega)⟩
    · exact ⟨h, Or.inr h'⟩

/-! ## Reading a flag -/

section

variable {m : Machine} {id : UInt16}

/-- The flag of an id inside the window. -/
theorem idFlag_of_mem (hlo : m.pdIndex.toNat ≤ id.toNat + 23)
    (hhi : id.toNat ≤ m.pdIndex.toNat) (hpd : 23 ≤ m.pdIndex.toNat) :
    m.idFlag id = m.stored.window.flag (id.toNat + 23 - m.pdIndex.toNat) := by
  have hid := id.toNat_lt
  have hsub : (m.pdIndex - receiveWindowBeforePd).toNat
      = m.pdIndex.toNat - 23 := by
    rw [UInt32.toNat_sub_of_le _ _ (by
      rw [UInt32.le_iff_toNat_le]; simpa using hpd)]
    rfl
  have hadd : (m.pdIndex + receiveWindowAfterPd).toNat
      = m.pdIndex.toNat + 40 := by
    rw [UInt32.toNat_add, receiveWindowAfterPd_toNat]
    omega
  have hwithin : m.isMessageIdWithinWindow id = true := by
    simp only [Machine.isMessageIdWithinWindow, UInt32.le_iff_toNat_le,
      ge_iff_le, hsub, hadd, UInt16.toNat_toUInt32, Bool.and_eq_true,
      decide_eq_true_eq]
    omega
  have hidx : (receiveWindowBeforePd
      - (m.pdIndex - id.toUInt32)).toUInt8.toUInt16.toNat
        = id.toNat + 23 - m.pdIndex.toNat := by
    simp only [UInt8.toNat_toUInt16, UInt32.toNat_toUInt8, UInt32.toNat_sub,
      receiveWindowBeforePd_toNat, UInt16.toNat_toUInt32]
    omega
  have hng : ¬ m.pdIndex < id.toUInt32 := by
    rw [UInt32.lt_iff_toNat_lt, UInt16.toNat_toUInt32]; omega
  have hge : id.toUInt32 ≤ m.pdIndex := by
    rw [UInt32.le_iff_toNat_le, UInt16.toNat_toUInt32]; exact hhi
  simp only [Machine.idFlag, gt_iff_lt, hng, if_false,
    Machine.maskIdxFromMessageId, hwithin, ge_iff_le, hge, if_true,
    Bool.true_eq_false]
  rw [bitsetContains_eq (by omega), hidx]
  simp only [Stored.window]
  rw [decide_eq_true (show id.toNat + 23 - m.pdIndex.toNat ≤ 23 by omega),
    Bool.true_and]

/-- An id above the center has no flag. -/
theorem idFlag_of_gt (h : m.pdIndex.toNat < id.toNat) :
    m.idFlag id = false := by
  unfold Machine.idFlag
  rw [if_pos (by
    rw [gt_iff_lt, UInt32.lt_iff_toNat_lt, UInt16.toNat_toUInt32]; exact h)]

/-- Nor does one under the window. -/
theorem idFlag_of_below
    (h : id.toNat < (m.pdIndex - receiveWindowBeforePd).toNat) :
    m.idFlag id = false := by
  have hwithin : m.isMessageIdWithinWindow id = false := by
    simp only [Machine.isMessageIdWithinWindow, UInt32.le_iff_toNat_le,
      UInt16.toNat_toUInt32, Bool.and_eq_false_iff, decide_eq_false_iff_not]
    exact Or.inl (by omega)
  unfold Machine.idFlag Machine.maskIdxFromMessageId
  simp [hwithin]

/-- For an id that is not under the window, the lookup is membership. -/
theorem idFlag_iff (hlo : m.pdIndex.toNat ≤ id.toNat + 23)
    (hpd : 23 ≤ m.pdIndex.toNat) :
    m.idFlag id = true ↔ id.toNat ∈ m.stored.window.received := by
  by_cases hhi : id.toNat ≤ m.pdIndex.toNat
  · rw [idFlag_of_mem hlo hhi hpd, FlagWindow.mem_received_iff hlo hhi]
    rfl
  · have hgt : m.stored.window.center < id.toNat := not_le.mp hhi
    rw [idFlag_of_gt hgt]
    simp [FlagWindow.not_mem_received_of_gt hgt]

/-! ## Moving the window -/

/-- The shift by up to 23, the wipe beyond that: both are a slide. -/
theorem window_increasePdAndShiftWindowRight {d : UInt32}
    (hd : m.pdIndex.toNat + d.toNat < 2 ^ 32) :
    (m.increasePdAndShiftWindowRight d).stored.window
      = m.stored.window.slide d.toNat := by
  have hcenter : (m.stored.pdIndex + d).toNat
      = m.stored.pdIndex.toNat + d.toNat := by
    rw [UInt32.toNat_add]
    exact Nat.mod_eq_of_lt hd
  unfold Machine.increasePdAndShiftWindowRight
  simp only [Machine.updateNvBlocks_stored]
  by_cases hbig : d > receiveWindowBeforePd
  · have h23 : 23 < d.toNat := by
      rwa [gt_iff_lt, UInt32.lt_iff_toNat_lt, receiveWindowBeforePd_toNat]
        at hbig
    simp only [hbig, if_true, Machine.wipeMessageIdsInWindow,
      Machine.updateNvBlocks_stored, Machine.setFlags, Stored.window,
      FlagWindow.slide, hcenter, FlagWindow.mk.injEq, true_and]
    funext k
    by_cases hk : k ≤ 23
    · rw [flagAt_bitsetClear (by omega)]
      simp [show ¬ k + d.toNat ≤ 23 by omega]
    · simp [hk, show ¬ k + d.toNat ≤ 23 by omega]
  · have h23 : d.toNat ≤ 23 := by
      rw [gt_iff_lt, UInt32.lt_iff_toNat_lt, receiveWindowBeforePd_toNat]
        at hbig
      omega
    simp only [hbig, if_false, Machine.setFlags, Stored.window,
      FlagWindow.slide, hcenter, FlagWindow.mk.injEq, true_and]
    funext k
    by_cases hk : k ≤ 23
    · rw [flagAt_copyMask hk, flagAt_shiftedMask h23]
      simp [hk]
    · simp [hk, show ¬ k + d.toNat ≤ 23 by omega]

/-- An id that is not under the window brings the window up to itself, and the
mask index handed back is the id's own. -/
theorem updateWindowAndMessageMaskId_spec
    (hlo : m.pdIndex.toNat ≤ id.toNat + 23) (hpd : 23 ≤ m.pdIndex.toNat) :
    (m.updateWindowAndMessageMaskId id).2.stored.window
        = m.stored.window.advance id.toNat ∧
      (m.updateWindowAndMessageMaskId id).1.toNat
        = id.toNat + 23 - max m.pdIndex.toNat id.toNat := by
  have hid := id.toNat_lt
  unfold Machine.updateWindowAndMessageMaskId
  simp only []
  by_cases hgt : id.toUInt32 > m.pdIndex
  · rw [if_pos hgt]
    rw [gt_iff_lt, UInt32.lt_iff_toNat_lt, UInt16.toNat_toUInt32] at hgt
    have hsub : (id.toUInt32 - m.pdIndex).toNat
        = id.toNat - m.pdIndex.toNat := by
      rw [UInt32.toNat_sub_of_le, UInt16.toNat_toUInt32]
      rw [UInt32.le_iff_toNat_le, UInt16.toNat_toUInt32]
      omega
    constructor
    · rw [window_increasePdAndShiftWindowRight (by rw [hsub]; omega), hsub]
      rfl
    · show 23 = _
      omega
  · rw [if_neg hgt]
    rw [gt_iff_lt, UInt32.lt_iff_toNat_lt, UInt16.toNat_toUInt32] at hgt
    have hidx : (receiveWindowBeforePd - (m.pdIndex - id.toUInt32)).toUInt8.toNat
        = id.toNat + 23 - m.pdIndex.toNat := by
      simp only [UInt32.toNat_toUInt8, UInt32.toNat_sub,
        receiveWindowBeforePd_toNat, UInt16.toNat_toUInt32]
      omega
    rw [if_pos (by
      simp only [ge_iff_le, UInt32.le_iff_toNat_le, UInt32.toNat_sub,
        receiveWindowBeforePd_toNat, UInt16.toNat_toUInt32]
      omega)]
    rw [if_neg (by
      rw [gt_iff_lt, UInt8.lt_iff_toNat_lt, hidx, not_lt]
      show _ ≤ 23
      omega)]
    constructor
    · have hzero : id.toNat - m.stored.pdIndex.toNat = 0 :=
        Nat.sub_eq_zero_of_le (not_lt.mp hgt)
      simp [FlagWindow.advance, FlagWindow.slide, Stored.window, hzero]
    · rw [hidx]
      omega

/-- For an id under the window nothing moves, and the mask index handed back
is the center's. -/
theorem updateWindowAndMessageMaskId_of_below
    (h : id.toNat + 23 < m.pdIndex.toNat) :
    m.updateWindowAndMessageMaskId id
      = (receiveWindowBeforePd.toUInt8, m) := by
  have hlt := m.pdIndex.toNat_lt
  have hgt : ¬ id.toUInt32 > m.pdIndex := by
    rw [gt_iff_lt, UInt32.lt_iff_toNat_lt, UInt16.toNat_toUInt32]
    omega
  have hge : ¬ id.toUInt32 ≥ m.pdIndex - receiveWindowBeforePd := by
    rw [ge_iff_le, UInt32.le_iff_toNat_le, UInt16.toNat_toUInt32,
      UInt32.toNat_sub, receiveWindowBeforePd_toNat]
    omega
  unfold Machine.updateWindowAndMessageMaskId
  simp only [if_neg hgt, if_neg hge]

/-- `nexus_keycode_pro_set_full_message_id_flag` receives one id. -/
theorem window_setFullMessageIdFlag (h : m.readNv = m)
    (hlo : m.pdIndex.toNat ≤ id.toNat + 23) (hpd : 23 ≤ m.pdIndex.toNat)
    (hflag : m.idFlag id = false) :
    (m.setFullMessageIdFlag id).stored.window
      = m.stored.window.take id.toNat := by
  obtain ⟨hw, hidx⟩ := updateWindowAndMessageMaskId_spec hlo hpd
  have hlt : (m.updateWindowAndMessageMaskId id).1.toNat ≤ 23 := by omega
  unfold Machine.setFullMessageIdFlag Machine.getFullMessageIdFlag
  simp only [h, hflag, Bool.false_eq_true, if_false,
    Machine.updateNvBlocks_stored, Machine.setFlags]
  rw [Stored.window_bitsetAdd _ hlt, hw, hidx, FlagWindow.take,
    FlagWindow.center_advance]
  rfl

/-- `nexus_keycode_pro_mask_below_message_id` gives up every id under its
argument. -/
theorem window_maskBelowMessageId {below : UInt16}
    (hbelow : below.toNat = id.toNat + 1)
    (hlo : m.pdIndex.toNat ≤ id.toNat + 23) (hpd : 23 ≤ m.pdIndex.toNat) :
    (m.maskBelowMessageId below).stored.window
      = m.stored.window.takeUpTo id.toNat := by
  obtain ⟨hw, hidx⟩ := updateWindowAndMessageMaskId_spec hlo hpd
  have hlt : (m.updateWindowAndMessageMaskId id).1.toNat ≤ 23 := by omega
  have hid := id.toNat_lt
  have hpred : below - 1 = id := by
    rw [← UInt16.toNat_inj, UInt16.toNat_sub]
    show (2 ^ 16 - 1 + below.toNat) % 2 ^ 16 = id.toNat
    omega
  have hne : below ≠ 0 := by
    rintro rfl
    exact absurd hbelow (by simp)
  have hnlt : ¬ below.toUInt32 < m.pdIndex - receiveWindowBeforePd := by
    simp only [UInt32.lt_iff_toNat_lt, UInt16.toNat_toUInt32,
      UInt32.toNat_sub, receiveWindowBeforePd_toNat]
    have := m.pdIndex.toNat_lt
    omega
  unfold Machine.maskBelowMessageId
  rw [if_neg hne, if_neg hnlt, hpred]
  simp only [Machine.updateNvBlocks_stored, Machine.maskFlags,
    Machine.setFlags]
  rw [Stored.window_maskFlags _ hlt, hw, hidx, FlagWindow.takeUpTo,
    FlagWindow.center_advance]
  rfl

end

end Nexus.Keycode
