import Nexus.Proofs.Mark
import Nexus.Proofs.Reboot

/-!
# Every reachable state is settled

The window starts at 23, moves up, and is put back to 23 by a mask wipe; it
never reaches below zero, whatever the frames are. Together with `Persisted`
that is the state every completed operation leaves behind.
-/

namespace Nexus.Keycode

open Nexus.Util Nexus.Lib

section

variable {m : Machine} {cfg : Config}

theorem center_updateNvBlocks (h : 23 ≤ m.pdIndex.toNat) :
    23 ≤ m.updateNvBlocks.pdIndex.toNat := by
  rw [Machine.pdIndex, Machine.updateNvBlocks_stored]
  exact h

/-- The window moves up, and only up. -/
theorem center_updateWindowAndMessageMaskId (h : 23 ≤ m.pdIndex.toNat)
    (id : UInt16) :
    23 ≤ (m.updateWindowAndMessageMaskId id).2.pdIndex.toNat := by
  unfold Machine.updateWindowAndMessageMaskId
  simp only []
  split
  · next hgt =>
      rw [gt_iff_lt, UInt32.lt_iff_toNat_lt] at hgt
      have hmoved : (m.increasePdAndShiftWindowRight
          (id.toUInt32 - m.pdIndex)).pdIndex
            = m.pdIndex + (id.toUInt32 - m.pdIndex) := by
        unfold Machine.increasePdAndShiftWindowRight
        rw [Machine.pdIndex, Machine.updateNvBlocks_stored]
        by_cases hfar : id.toUInt32 - m.pdIndex > receiveWindowBeforePd
        · rw [if_pos hfar]
          simp only [Machine.wipeMessageIdsInWindow,
            Machine.updateNvBlocks_stored, Machine.setFlags,
            Machine.pdIndex]
        · rw [if_neg hfar]
          rfl
      have hlt := id.toUInt32.toNat_lt
      rw [hmoved, UInt32.toNat_add, UInt32.toNat_sub]
      omega
  · split
    · split <;> exact h
    · exact h

theorem center_maskBelowMessageId (h : 23 ≤ m.pdIndex.toNat)
    (cut : UInt16) : 23 ≤ (m.maskBelowMessageId cut).pdIndex.toNat := by
  unfold Machine.maskBelowMessageId
  split
  · exact h
  · split
    · exact h
    · refine center_updateNvBlocks ?_
      exact center_updateWindowAndMessageMaskId h _

theorem center_mark (hm : Persisted m) (h : 23 ≤ m.pdIndex.toNat)
    (kind : Kind) (id : UInt32) :
    23 ≤ (kind.mark m id).pdIndex.toNat := by
  have hset : 23 ≤ (m.setFullMessageIdFlag id.toUInt16).pdIndex.toNat := by
    unfold Machine.setFullMessageIdFlag Machine.getFullMessageIdFlag
    simp only [hm.readNv]
    split
    · exact h
    · refine center_updateNvBlocks ?_
      exact center_updateWindowAndMessageMaskId h _
  cases kind with
  | addCredit => exact hset
  | demo => exact h
  | _ => exact center_maskBelowMessageId h _

theorem center_granted {payg : PaygState} {marked : Machine} {kind : Kind}
    {r : Response × Machine} (h : Granted payg marked kind r)
    (hm : 23 ≤ marked.pdIndex.toNat) : 23 ≤ r.2.pdIndex.toNat := by
  have hwipe : 23 ≤ marked.wipeMask.pdIndex.toNat :=
    center_updateNvBlocks (le_refl 23)
  cases h with
  | credit => exact hm
  | flag => exact center_updateNvBlocks hm
  | refused => exact hm
  | demo => exact hm
  | wipe => exact hwipe
  | wipeCredit => exact hwipe
  | unsupported => exact hm

theorem center_answered {payg : PaygState} {c : Carried}
    {r : Response × Machine} (h : Answered payg m.quiet c r)
    (hm : Settled m) : 23 ≤ r.2.pdIndex.toNat := by
  cases h with
  | forged => exact hm.center
  | duplicate => exact hm.center
  | granted _ _ hgranted =>
      exact center_granted hgranted
        (center_mark hm.persisted.quiet hm.center _ _)

/-- Messages that carry no id leave the window alone, or put it back to its
start. -/
theorem center_smallApply (h : 23 ≤ m.pdIndex.toNat) {env : Env}
    {message : SmallMessage}
    (htype : message.typeCode = smallMaintenanceOrTestType) :
    23 ≤ (m.smallApply cfg env message).2.pdIndex.toNat := by
  by_cases hwipe : (message.body = 0x81 ∨ message.body = 0x82) ∧
      (m.smallApply cfg env message).1 = .validApplied
  · have hlt : ¬ message.typeCode < smallMaintenanceOrTestType := by
      rw [htype]; decide
    have hbody : message.body > smallMaxTestFunctionId := by
      rcases hwipe.1 with h | h <;> rw [h] <;> decide
    have hreset : 23 ≤ m.wipeMask.pdIndex.toNat :=
      center_updateNvBlocks (le_refl 23)
    unfold Machine.smallApply
    split
    · exact h
    · unfold Machine.smallApplyMaintenance
      simp only []
      repeat' split
      · exact hreset
      · exact h
      · exact hreset
      · exact h
  · have hwindow := window_smallApply m cfg env htype
      fun hbody happlied => hwipe ⟨hbody, happlied⟩
    show 23 ≤ (m.smallApply cfg env message).2.stored.window.center
    rw [hwindow]
    exact h

theorem center_smallFrame (h : Settled m) (env : Env) (frame : Frame) :
    23 ≤ (m.quiet.smallParseAndApply cfg env frame).2.pdIndex.toNat := by
  have hout := smallOutcome cfg env frame m.quiet
  revert hout
  generalize m.quiet.smallParseAndApply cfg env frame = r
  generalize m.quiet.smallCarried cfg env frame = carried
  intro hout
  cases hout with
  | rejected => exact h.center
  | unread => exact h.center
  | @message message hdecode htype =>
      cases hc : message.carried env.secretKey with
      | none =>
          exact center_smallApply (m := m.quiet) h.center
            (typeCode_of_not_carried (smallDecode_spec hdecode).1 htype hc)
      | some c =>
          exact center_answered
            (smallApply_answered _ h.persisted.quiet hc) h
  | @extended message found =>
      unfold Machine.extendedSmallApplyInferred
      refine center_updateNvBlocks ?_
      show 23 ≤ (Machine.maskBelowMessageId _ _).pdIndex.toNat
      refine center_maskBelowMessageId ?_ _
      split <;> exact h.center

theorem center_fullFrame (h : Settled m) (env : Env) (frame : Frame) :
    23 ≤ (m.quiet.fullParseAndApply cfg env frame).2.pdIndex.toNat := by
  have hout := fullOutcome cfg env frame m.quiet
  revert hout
  generalize m.quiet.fullParseAndApply cfg env frame = r
  generalize m.quiet.fullCarried env frame = carried
  intro hout
  cases hout with
  | rejected => exact h.center
  | passthrough => exact h.center
  | @message message hdecode htype =>
      cases hc : message.carried env.secretKey with
      | none =>
          unfold Machine.fullApply
          split
          · exact h.center
          · rw [if_neg fun hlt => fullCarried_ne_none hlt hc]
            show 23 ≤ (m.quiet.fullApplyFactory cfg env
              message).2.stored.window.center
            rw [window_fullApplyFactory]
            exact h.center
      | some c =>
          exact center_answered (fullApply_answered _ h.persisted.quiet hc) h

namespace Settled

theorem step (h : Settled m) (cfg : Config) (op : Operation) :
    Settled (m.step cfg op) where
  persisted := h.persisted.step cfg op
  center := by
    cases op with
    | smallFrame env frame => exact center_smallFrame h env frame
    | fullFrame env frame => exact center_fullFrame h env frame
    | setCustomFlag flag =>
        show 23 ≤ (m.quiet.setCustomFlag flag).stored.window.center
        rw [window_setCustomFlag]
        exact h.center
    | resetCustomFlag flag =>
        show 23 ≤ (m.quiet.resetCustomFlag flag).stored.window.center
        rw [window_resetCustomFlag]
        exact h.center
    | reboot =>
        show 23 ≤ m.quiet.init.pdIndex.toNat
        rw [h.persisted.quiet.init]
        exact h.center

theorem boot {nv : Nv.Store}
    (hnv : nv Nv.blockKeycodePro.blockId = none) :
    Settled (Machine.boot nv) where
  persisted := Persisted.boot hnv
  center := by
    rw [Machine.boot_blank hnv]
    exact Nat.le_refl 23

/-- Whatever is done from a blank store on. -/
theorem run (h : Settled m) (cfg : Config) (ops : List Operation) :
    Settled (Lib.run (Machine.step cfg) m ops) :=
  run_invariant (fun _ op hm _ => hm.step cfg op) h (along_true m ops)

end Settled

end

end Nexus.Keycode
