import Nexus.Proofs.Window

/-!
# Inferring ids

Only the low bits of an id travel. For activation messages they are six, and a
window of 64 ids holds each residue once, so the search finds the one id that
was meant; the bounds on the center keep the window from wrapping around. For
extended messages they are two, and the search goes on until the check
matches, skipping the ids that have been received.
-/

namespace Nexus.Keycode

open Nexus.Util Nexus.Lib

/-! ## Six bits -/

theorem toNat_and_0x3F (x : UInt32) : (x &&& 0x3F).toNat = x.toNat % 64 := by
  rw [UInt32.toNat_and]
  exact Nat.and_two_pow_sub_one_eq_mod x.toNat 6

/-- The search stops at the one id within reach that has the right residue. -/
theorem inferLoop_eq {compressed : UInt8} {last id : UInt32}
    (hlast : id.toNat ≤ last.toNat) (hc : id.toNat % 64 = compressed.toNat)
    {fuel : ℕ} (hfuel : fuel ≤ 64) {curId : UInt32}
    (hle : curId.toNat ≤ id.toNat) (hreach : id.toNat < curId.toNat + fuel) :
    inferLoop compressed last fuel curId = id := by
  induction fuel generalizing curId with
  | zero => omega
  | succ fuel ih =>
      rw [inferLoop, if_pos (by rw [UInt32.le_iff_toNat_le]; omega)]
      have hand : curId &&& 0x3F = compressed.toUInt32 ↔
          curId.toNat % 64 = compressed.toNat := by
        rw [← UInt32.toNat_inj, toNat_and_0x3F, UInt8.toNat_toUInt32]
      by_cases heq : curId.toNat = id.toNat
      · rw [if_pos (hand.mpr (by rw [heq, hc])), UInt32.toNat_inj.mp heq]
      · have hlt := id.toNat_lt
        have hsucc : (curId + 1).toNat = curId.toNat + 1 := by
          rw [UInt32.toNat_add]
          show (curId.toNat + 1) % 2 ^ 32 = curId.toNat + 1
          omega
        rw [if_neg (by rw [hand]; omega)]
        exact ih (by omega) (by omega) (by omega)

section

variable {pd id : UInt32} {compressed : UInt8}

/-- An id of the window is inferred from its residue. -/
theorem inferFullMessageId_eq (hpd : 23 ≤ pd.toNat)
    (hpd' : pd.toNat + 40 < 2 ^ 32) (hlo : pd.toNat ≤ id.toNat + 23)
    (hhi : id.toNat ≤ pd.toNat + 40)
    (hc : id.toNat % 64 = compressed.toNat) :
    inferFullMessageId compressed pd = id := by
  have hstart : (pd - receiveWindowBeforePd).toNat = pd.toNat - 23 := by
    rw [UInt32.toNat_sub, receiveWindowBeforePd_toNat]
    omega
  have hlast : (pd + receiveWindowAfterPd).toNat = pd.toNat + 40 := by
    rw [UInt32.toNat_add, receiveWindowAfterPd_toNat]
    omega
  exact inferLoop_eq (by omega) hc (by omega) (by omega) (by omega)

/-- Every residue is that of an id of the window. -/
theorem exists_id_of_compressed (hpd : 23 ≤ pd.toNat)
    (hpd' : pd.toNat + 40 < 2 ^ 32) (hc : compressed.toNat < 64) :
    ∃ id : UInt32, pd.toNat ≤ id.toNat + 23 ∧ id.toNat ≤ pd.toNat + 40 ∧
      id.toNat % 64 = compressed.toNat := by
  refine ⟨UInt32.ofNat (pd.toNat - 23
    + (compressed.toNat + 64 - (pd.toNat - 23) % 64) % 64), ?_⟩
  rw [UInt32.toNat_ofNat']
  omega

/-- What is inferred lies in the window and has the given residue. -/
theorem inferFullMessageId_spec (pd : UInt32) (hpd : 23 ≤ pd.toNat)
    (hpd' : pd.toNat + 40 < 2 ^ 32) (hc : compressed.toNat < 64) :
    pd.toNat ≤ (inferFullMessageId compressed pd).toNat + 23 ∧
      (inferFullMessageId compressed pd).toNat ≤ pd.toNat + 40 ∧
      (inferFullMessageId compressed pd).toNat % 64 = compressed.toNat := by
  obtain ⟨id, hlo, hhi, hid⟩ := exists_id_of_compressed hpd hpd' hc
  rw [inferFullMessageId_eq hpd hpd' hlo hhi hid]
  exact ⟨hlo, hhi, hid⟩

/-- A center outside the bounds wraps the window: the search ends where it
starts. -/
theorem inferFullMessageId_wrapped
    (h : pd.toNat < 23 ∨ 2 ^ 32 ≤ pd.toNat + 40) :
    inferFullMessageId compressed pd = pd - receiveWindowBeforePd := by
  have hlt := pd.toNat_lt
  unfold inferFullMessageId
  rw [inferLoop, if_neg]
  rw [UInt32.le_iff_toNat_le, UInt32.toNat_sub, UInt32.toNat_add,
    receiveWindowBeforePd_toNat, receiveWindowAfterPd_toNat]
  omega

end

/-! ## Two bits -/

section

variable {m : Machine} {id : UInt32}

theorem flagAt_firstBytes (flags : Vector UInt8 5) {k : ℕ} (hk : k ≤ 23) :
    flagAt #v[flags[0], flags[1], flags[2]] k = flagAt flags k := by
  have hk8 : k / 8 < 3 := by omega
  unfold flagAt
  generalize hj : k / 8 = j at hk8
  interval_cases j <;> simp [Array.getD_eq_getD_getElem?]

theorem windowIdWithinWindow_iff (hpd : 23 ≤ m.pdIndex.toNat)
    (hpd' : m.pdIndex.toNat + 40 < 2 ^ 32) :
    windowIdWithinWindow m.getCurrentMessageIdWindow id = true ↔
      m.pdIndex.toNat ≤ id.toNat + 23 ∧ id.toNat ≤ m.pdIndex.toNat + 40 := by
  have hmin : (m.pdIndex - (23 : UInt8).toUInt32).toNat
      = m.pdIndex.toNat - 23 := by
    rw [UInt32.toNat_sub]
    show (2 ^ 32 - 23 + m.pdIndex.toNat) % 2 ^ 32 = _
    omega
  have hmax : (m.pdIndex + (40 : UInt8).toUInt32).toNat
      = m.pdIndex.toNat + 40 := by
    rw [UInt32.toNat_add]
    show (m.pdIndex.toNat + 40) % 2 ^ 32 = _
    omega
  show (decide (id ≥ m.pdIndex - (23 : UInt8).toUInt32)
    && decide (id ≤ m.pdIndex + (40 : UInt8).toUInt32)) = true ↔ _
  simp only [ge_iff_le, Bool.and_eq_true, decide_eq_true_eq,
    UInt32.le_iff_toNat_le, hmin, hmax]
  omega

/-- The window the extended code works on refuses the same ids. -/
theorem windowIdFlagAlreadySet_iff (hpd : 23 ≤ m.pdIndex.toNat)
    (hpd' : m.pdIndex.toNat + 40 < 2 ^ 32)
    (hlo : m.pdIndex.toNat ≤ id.toNat + 23)
    (hhi : id.toNat ≤ m.pdIndex.toNat + 40) :
    windowIdFlagAlreadySet m.getCurrentMessageIdWindow id = true ↔
      id.toNat ∈ m.stored.window.received := by
  have hwithin := (windowIdWithinWindow_iff hpd hpd').mpr ⟨hlo, hhi⟩
  by_cases hgt : id > m.pdIndex
  · have hgt' : m.stored.window.center < id.toNat := by
      rwa [gt_iff_lt, UInt32.lt_iff_toNat_lt] at hgt
    have hset : windowIdFlagAlreadySet m.getCurrentMessageIdWindow id
        = false := by
      unfold windowIdFlagAlreadySet
      exact if_pos (Or.inl hgt)
    simp [hset, FlagWindow.not_mem_received_of_gt hgt']
  · have hle : id.toNat ≤ m.pdIndex.toNat := by
      rw [gt_iff_lt, UInt32.lt_iff_toNat_lt] at hgt
      omega
    have hidx : ((23 : UInt8).toUInt32
        - (m.pdIndex - id)).toUInt8.toUInt16.toNat
          = id.toNat + 23 - m.pdIndex.toNat := by
      simp only [UInt8.toNat_toUInt16, UInt32.toNat_toUInt8,
        UInt32.toNat_sub]
      show (2 ^ 32 - (2 ^ 32 - id.toNat + m.pdIndex.toNat) % 2 ^ 32 + 23)
        % 2 ^ 32 % 2 ^ 8 = _
      omega
    have hset : windowIdFlagAlreadySet m.getCurrentMessageIdWindow id
        = bitsetContains m.getCurrentMessageIdWindow.flags
          ((23 : UInt8).toUInt32 - (m.pdIndex - id)).toUInt8.toUInt16 := by
      unfold windowIdFlagAlreadySet windowMaskIdxFromId
      rw [if_neg (by rintro (h | h); exact hgt h; simp [hwithin] at h),
        hwithin, if_neg (by simp), if_pos (by
          show id ≤ m.pdIndex
          rw [UInt32.le_iff_toNat_le]; exact hle)]
      rfl
    rw [hset, bitsetContains_eq (by omega), hidx,
      FlagWindow.mem_received_iff hlo hle]
    show flagAt #v[_, _, _] _ = true ↔ _
    rw [flagAt_firstBytes _ (by omega)]
    have h23 : id.toNat + 23 - m.stored.pdIndex.toNat ≤ 23 := by
      simp only [Machine.pdIndex] at hle
      omega
    simp only [Stored.window, Machine.pdIndex, decide_eq_true h23,
      Bool.true_and]

end

/-- What a successful search says about its result. -/
structure ExtendedInferred (window : Window 3) (secretKey : CheckKey)
    (message found : ExtendedSmallMessage) : Prop where
  same : found = { message with inferredMessageId := found.inferredMessageId }
  within : windowIdWithinWindow window found.inferredMessageId = true
  low : found.inferredMessageId &&& 0x03
    = found.truncatedMessageId.toUInt32
  unused : windowIdFlagAlreadySet window found.inferredMessageId = false
  auth : extendedSmallInferInnerComputeAuth found secretKey = true

theorem extendedInferLoop_spec {window : Window 3} {secretKey : CheckKey}
    {fuel : ℕ} {message found : ExtendedSmallMessage}
    (h : extendedInferLoop window secretKey fuel message = some found) :
    ExtendedInferred window secretKey message found := by
  induction fuel generalizing message with
  | zero => cases h
  | succ fuel ih =>
      rw [extendedInferLoop] at h
      split at h
      · next hwithin =>
          split at h
          · next hfound =>
              obtain rfl := Option.some.inj h
              exact ⟨rfl, hwithin, hfound.1, hfound.2.1, hfound.2.2⟩
          · have hrec := ih h
            exact ⟨hrec.same, hrec.within, hrec.low, hrec.unused, hrec.auth⟩
      · cases h

theorem extendedSmallInferWindowedMessageId_spec {window : Window 3}
    {secretKey : CheckKey} {message found : ExtendedSmallMessage}
    (h : extendedSmallInferWindowedMessageId message window secretKey
      = some found) :
    ExtendedInferred window secretKey message found := by
  unfold extendedSmallInferWindowedMessageId at h
  split at h
  · cases h
  · have hrec := extendedInferLoop_spec h
    exact ⟨hrec.same, hrec.within, hrec.low, hrec.unused, hrec.auth⟩

end Nexus.Keycode
