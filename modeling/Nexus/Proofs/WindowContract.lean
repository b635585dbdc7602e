import Nexus.Proofs.Window

/-!
# What the header promises of the window

Two promises of `nexus_keycode_pro.h` break at the lower edge of the window, for
the same reason: `nexus_keycode_pro_update_window_and_message_mask_id` answers
the index of the center when it is given an id under the window.

Masking below an id takes that id minus one, so at the lowest id of the window
it asks for an id under the window and masks all of it. Everywhere else it does
what the header says. Setting the flag of an id under the window sets the flag
of the center; and the lookup, which is to answer that such an id has been
received, answers that it has not.
-/

namespace Nexus.Keycode

open Nexus.Util Nexus.Lib

variable {m : Machine}

/-- The flag of an id from `pd_index - 23` up to `pd_index`. -/
def Stored.flagged (s : Stored) (id : ℕ) : Prop :=
  s.window.flag (id + 23 - s.pdIndex.toNat) = true

instance (s : Stored) (id : ℕ) : Decidable (s.flagged id) :=
  inferInstanceAs (Decidable (_ = true))

theorem Stored.flagged_iff {s : Stored} {id : ℕ}
    (hlo : s.pdIndex.toNat ≤ id + 23) (hhi : id ≤ s.pdIndex.toNat) :
    s.flagged id ↔ id ∈ s.window.received :=
  (FlagWindow.mem_received_iff hlo hhi).symm

/-! ## Masking below an id -/

/-- The contract of `nexus_keycode_pro_mask_below_message_id`: the center goes
up to the id before the argument, and in the new lower window the ids below the
argument are flagged, and those that were flagged. -/
structure MasksBelow (s s' : Stored) (fullMessageId : UInt16) : Prop where
  center : s'.pdIndex.toNat
    = if fullMessageId = 0 then s.pdIndex.toNat
      else max s.pdIndex.toNat (fullMessageId.toNat - 1)
  flags : ∀ id, s'.pdIndex.toNat ≤ id + 23 → id ≤ s'.pdIndex.toNat →
    (s'.flagged id ↔
      id < fullMessageId.toNat ∨ (id ≤ s.pdIndex.toNat ∧ s.flagged id))

/-- An argument under the window has no effect. -/
theorem maskBelowMessageId_of_below {fullMessageId : UInt16}
    (h : fullMessageId.toNat + 23 < m.pdIndex.toNat) :
    m.maskBelowMessageId fullMessageId = m := by
  have hlt := m.pdIndex.toNat_lt
  have hbelow : fullMessageId.toUInt32
      < m.pdIndex - receiveWindowBeforePd := by
    rw [UInt32.lt_iff_toNat_lt, UInt16.toNat_toUInt32, UInt32.toNat_sub,
      receiveWindowBeforePd_toNat]
    omega
  rw [Machine.maskBelowMessageId]
  by_cases hzero : fullMessageId = 0
  · rw [if_pos hzero]
  · rw [if_neg hzero, if_pos hbelow]

/-- One above the lowest id of the window or more, and it does what it
should. -/
theorem masksBelow_of_within {fullMessageId : UInt16}
    (hpd : 23 ≤ m.pdIndex.toNat)
    (hlo : m.pdIndex.toNat < fullMessageId.toNat + 23)
    (hpos : 0 < fullMessageId.toNat) :
    MasksBelow m.stored (m.maskBelowMessageId fullMessageId).stored
      fullMessageId := by
  have hpred : fullMessageId.toNat = (fullMessageId - 1).toNat + 1 := by
    rw [UInt16.toNat_sub_of_le]
    · exact (Nat.sub_add_cancel hpos).symm
    · rw [UInt16.le_iff_toNat_le]
      exact hpos
  have hlo' : m.pdIndex.toNat ≤ (fullMessageId - 1).toNat + 23 := by omega
  have hwindow := window_maskBelowMessageId hpred hlo' hpd
  have hcenter : (m.maskBelowMessageId fullMessageId).stored.pdIndex.toNat
      = max m.stored.pdIndex.toNat (fullMessageId - 1).toNat := by
    have hcenter := congrArg FlagWindow.center hwindow
    rwa [FlagWindow.center_takeUpTo] at hcenter
  have hne : fullMessageId ≠ 0 := by
    rintro rfl
    exact absurd hpos (by decide)
  refine ⟨?_, ?_⟩
  · rw [if_neg hne, hcenter, hpred]
    rfl
  · intro id hid hid'
    have hold : m.stored.pdIndex.toNat ≤ id + 23 := by
      rw [hcenter] at hid
      omega
    rw [Stored.flagged_iff hid hid', hwindow,
      FlagWindow.received_takeUpTo hlo']
    constructor
    · rintro (hreceived | hmasked)
      · by_cases hpast : id ≤ m.stored.pdIndex.toNat
        · exact Or.inr ⟨hpast, (Stored.flagged_iff hold hpast).mpr hreceived⟩
        · exact absurd hreceived
            (FlagWindow.not_mem_received_of_gt (not_le.mp hpast))
      · have hmasked : id ≤ (fullMessageId - 1).toNat := hmasked
        exact Or.inl (by omega)
    · rintro (hmasked | ⟨hpast, hflagged⟩)
      · refine Or.inr ?_
        show id ≤ (fullMessageId - 1).toNat
        omega
      · exact Or.inl ((Stored.flagged_iff hold hpast).mp hflagged)

/-- At the lowest id of the window, all of the window is masked. -/
theorem window_maskBelowMessageId_lowest {fullMessageId : UInt16}
    (hlowest : fullMessageId.toNat + 23 = m.pdIndex.toNat)
    (hpos : 0 < fullMessageId.toNat) :
    (m.maskBelowMessageId fullMessageId).stored.window
      = m.stored.window.markUpTo 23 := by
  have hlt := m.pdIndex.toNat_lt
  have hne : fullMessageId ≠ 0 := by
    rintro rfl
    exact absurd hpos (by decide)
  have hwithin : ¬ fullMessageId.toUInt32
      < m.pdIndex - receiveWindowBeforePd := by
    rw [UInt32.lt_iff_toNat_lt, UInt16.toNat_toUInt32, UInt32.toNat_sub,
      receiveWindowBeforePd_toNat]
    omega
  have hpred : (fullMessageId - 1).toNat + 23 < m.pdIndex.toNat := by
    rw [UInt16.toNat_sub_of_le]
    · show fullMessageId.toNat - 1 + 23 < _
      omega
    · rw [UInt16.le_iff_toNat_le]
      exact hpos
  rw [Machine.maskBelowMessageId, if_neg hne, if_neg hwithin,
    updateWindowAndMessageMaskId_of_below hpred]
  simp only [Machine.updateNvBlocks_stored, Machine.maskFlags,
    Machine.setFlags]
  exact Stored.window_maskFlags m.stored (k := 23) (by decide)

/-- The contract holds for every argument from the lowest id of the window on,
except at the lowest id itself, unless that is zero or every flag was set
before. Under the window nothing happens. -/
theorem masksBelow_iff (m : Machine) (fullMessageId : UInt16)
    (hpd : 23 ≤ m.pdIndex.toNat) :
    (fullMessageId.toNat + 23 < m.pdIndex.toNat →
      m.maskBelowMessageId fullMessageId = m) ∧
    (m.pdIndex.toNat ≤ fullMessageId.toNat + 23 →
      (MasksBelow m.stored (m.maskBelowMessageId fullMessageId).stored
          fullMessageId ↔
        m.pdIndex.toNat = 23 ∨ fullMessageId.toNat + 23 ≠ m.pdIndex.toNat ∨
          ∀ id, m.pdIndex.toNat ≤ id + 23 → id ≤ m.pdIndex.toNat →
            m.stored.flagged id)) := by
  refine ⟨maskBelowMessageId_of_below, fun hlo => ?_⟩
  by_cases hlowest : fullMessageId.toNat + 23 = m.pdIndex.toNat
  · by_cases hzero : fullMessageId.toNat = 0
    · -- the window starts at zero, and masking below zero is left out
      have hzero' : fullMessageId = 0 := UInt16.toNat_inj.mp hzero
      have hsame : m.maskBelowMessageId fullMessageId = m := by
        rw [Machine.maskBelowMessageId, if_pos hzero']
      rw [hsame]
      refine iff_of_true ⟨?_, ?_⟩ (Or.inl (by omega))
      · rw [if_pos hzero']
      · intro id hid hid'
        rw [hzero]
        constructor
        · intro hflagged
          exact Or.inr ⟨hid', hflagged⟩
        · rintro (hlt | ⟨-, hflagged⟩)
          · exact absurd hlt (Nat.not_lt_zero id)
          · exact hflagged
    · have hpos : 0 < fullMessageId.toNat := Nat.pos_of_ne_zero hzero
      have hwindow := window_maskBelowMessageId_lowest hlowest hpos
      have hcenter : (m.maskBelowMessageId fullMessageId).stored.pdIndex.toNat
          = m.stored.pdIndex.toNat := congrArg FlagWindow.center hwindow
      have hall : ∀ id, m.pdIndex.toNat ≤ id + 23 → id ≤ m.pdIndex.toNat →
          (m.maskBelowMessageId fullMessageId).stored.flagged id := by
        intro id hid hid'
        rw [Stored.flagged, hwindow, hcenter]
        have hindex : id + 23 - m.stored.pdIndex.toNat ≤ 23 := by
          show id + 23 - m.pdIndex.toNat ≤ 23
          omega
        simp only [FlagWindow.markUpTo, decide_eq_true hindex, Bool.true_or]
      constructor
      · intro h
        refine Or.inr (Or.inr fun id hid hid' => ?_)
        have hflags := (h.flags id (by rw [hcenter]; exact hid)
          (by rw [hcenter]; exact hid')).mp (hall id hid hid')
        rcases hflags with hlt | ⟨-, hflagged⟩
        · omega
        · exact hflagged
      · rintro (hzero' | hne | hset)
        · omega
        · exact absurd hlowest hne
        · have hne : fullMessageId ≠ 0 := by
            rintro rfl
            exact hzero rfl
          refine ⟨?_, ?_⟩
          · rw [hcenter, if_neg hne]
            show m.pdIndex.toNat = max m.pdIndex.toNat _
            omega
          · intro id hid hid'
            rw [hcenter] at hid hid'
            exact iff_of_true (hall id hid hid')
              (Or.inr ⟨hid', hset id hid hid'⟩)
  · have hlt : m.pdIndex.toNat < fullMessageId.toNat + 23 := by omega
    refine iff_of_true ?_ (Or.inr (Or.inl hlowest))
    exact masksBelow_of_within hpd hlt (by omega)

/-- A machine at factory state, but for the center. -/
def Machine.centered (pdIndex : UInt32) : Machine :=
  ⟨{ Stored.factory with pdIndex }, fun _ => none, []⟩

/-- Below id 2, with the center at 24. -/
theorem masksBelow_iff_two :
    MasksBelow (Machine.centered 24).stored
      ((Machine.centered 24).maskBelowMessageId 2).stored 2 :=
  ((masksBelow_iff (.centered 24) 2 (by decide)).2 (by decide)).mpr
    (Or.inr (Or.inl (by decide)))

/-- Below id 1, the lowest of the window: ids 1 to 24 are all flagged, and none
of them is below 1. -/
theorem lowest_id_masks_window :
    let m := Machine.centered 24
    ¬ m.stored.flagged 24 ∧ (m.maskBelowMessageId 1).stored.flagged 24 ∧
      ¬ MasksBelow m.stored (m.maskBelowMessageId 1).stored 1 := by
  intro m
  have hflagged : (m.maskBelowMessageId 1).stored.flagged 24 := by
    decide +kernel
  have hclear : ¬ m.stored.flagged 24 := by decide +kernel
  refine ⟨hclear, hflagged, fun h => ?_⟩
  rcases (h.flags 24 (by decide +kernel) (by decide +kernel)).mp hflagged with
    hlt | ⟨-, hold⟩
  · exact absurd hlt (by decide)
  · exact hclear hold

/-! ## Ids under the window -/

/-- What the header says of an id under the window: it counts as received, and
setting its flag has no effect. -/
structure CountsAsReceived (m : Machine) (id : UInt16) : Prop where
  get : (m.getFullMessageIdFlag id).1 = true
  flags : (m.setFullMessageIdFlag id).stored.receivedFlags
    = m.readNv.stored.receivedFlags
  center : (m.setFullMessageIdFlag id).pdIndex = m.readNv.pdIndex
  nv : (m.setFullMessageIdFlag id).nv = m.nv

/-- It does not count as received, ever, and setting its flag sets the flag of
the center. -/
theorem not_countsAsReceived (m : Machine) (id : UInt16)
    (hbelow : id.toNat + 23 < m.readNv.pdIndex.toNat) :
    ¬ CountsAsReceived m id ∧
      (m.setFullMessageIdFlag id).stored.window
        = m.readNv.stored.window.mark 23 := by
  have hlt := m.readNv.pdIndex.toNat_lt
  have hsub : id.toNat
      < (m.readNv.pdIndex - receiveWindowBeforePd).toNat := by
    rw [UInt32.toNat_sub, receiveWindowBeforePd_toNat]
    omega
  have hflag : m.readNv.idFlag id = false := idFlag_of_below hsub
  refine ⟨?_, ?_⟩
  · intro h
    have hget : m.readNv.idFlag id = true := h.get
    rw [hflag] at hget
    cases hget
  · rw [Machine.setFullMessageIdFlag]
    simp only [Machine.getFullMessageIdFlag, hflag,
      updateWindowAndMessageMaskId_of_below hbelow, Bool.false_eq_true,
      if_false, Machine.updateNvBlocks_stored, Machine.setFlags]
    exact Stored.window_bitsetAdd m.readNv.stored (k := 23) (by decide)

/-- Id 0, with the center at 24. -/
theorem not_countsAsReceived_zero :
    ¬ CountsAsReceived (.centered 24) 0 ∧
      ((Machine.centered 24).setFullMessageIdFlag 0).stored.flagged 24 := by
  have hnot := not_countsAsReceived (.centered 24) 0 (by decide +kernel)
  exact ⟨hnot.1, by decide +kernel⟩

/-- The lookup answers that id 0 has not been received. -/
theorem id_under_window_not_received :
    ((Machine.centered 24).getFullMessageIdFlag 0).1 = false ∧
      ((Machine.centered 24).setFullMessageIdFlag 0).stored.receivedFlags
        ≠ (Machine.centered 24).stored.receivedFlags ∧
      ¬ CountsAsReceived (.centered 24) 0 := by
  have hget : ((Machine.centered 24).getFullMessageIdFlag 0).1 = false := by
    decide +kernel
  refine ⟨hget, by decide +kernel, fun h => ?_⟩
  rw [h.get] at hget
  cases hget

end Nexus.Keycode
