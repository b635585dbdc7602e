import Nexus.Proofs.Persist

/-!
# A power cycle between operations changes nothing

Some helpers of the protocol layer change RAM and leave the write to a later
call, and reading a flag overwrites RAM from NV; what saves the state is that
every completed operation ends `Persisted`. The lemmas follow the call graph
upwards, and the run is an induction over the operations.
-/

namespace Nexus.Keycode

open Nexus.Util Nexus.Lib

/-- Without block 1, power on leaves the factory state. -/
theorem Machine.boot_blank {nv : Nv.Store}
    (h : nv Nv.blockKeycodePro.blockId = none) :
    Machine.boot nv = ⟨Stored.factory, nv, []⟩ := by
  unfold Machine.boot Machine.init Machine.getFullMessageIdFlag Machine.readNv
  simp only [nvRead_blank h]

namespace Persisted

variable {m : Machine}

theorem wipeMessageIdsInWindow (h : NvSound m.nv) :
    Persisted m.wipeMessageIdsInWindow :=
  persisted_updateNvBlocks h

theorem increasePdAndShiftWindowRight (h : NvSound m.nv)
    (pdIncrement : UInt32) :
    Persisted (m.increasePdAndShiftWindowRight pdIncrement) := by
  refine persisted_updateNvBlocks ?_
  show NvSound (if pdIncrement > receiveWindowBeforePd then
    m.wipeMessageIdsInWindow else m.setFlags _).nv
  split
  · exact (Writes.wipeMessageIdsInWindow m).sound h
  · exact h

theorem updateWindowAndMessageMaskId (h : Persisted m) (id : UInt16) :
    Persisted (m.updateWindowAndMessageMaskId id).2 := by
  unfold Machine.updateWindowAndMessageMaskId
  simp only []
  split
  · exact increasePdAndShiftWindowRight h.sound _
  · split
    · split <;> exact h
    · exact h

theorem setFullMessageIdFlag (h : Persisted m) (id : UInt16) :
    Persisted (m.setFullMessageIdFlag id) := by
  unfold Machine.setFullMessageIdFlag Machine.getFullMessageIdFlag
  simp only [h.readNv]
  split
  · exact h
  · exact persisted_updateNvBlocks (updateWindowAndMessageMaskId h id).sound

theorem maskBelowMessageId (h : Persisted m) (id : UInt16) :
    Persisted (m.maskBelowMessageId id) := by
  unfold Machine.maskBelowMessageId
  split
  · exact h
  · split
    · exact h
    · exact persisted_updateNvBlocks
        (updateWindowAndMessageMaskId h (id - 1)).sound

theorem incrementLongQcTestMessageCount (h : Persisted m) (cfg : Config) :
    Persisted (m.incrementLongQcTestMessageCount cfg) := by
  unfold Machine.incrementLongQcTestMessageCount
  simp only []
  split
  · exact h
  · exact persisted_updateNvBlocks h.sound

theorem incrementShortQcTestMessageCount (h : Persisted m) (cfg : Config) :
    Persisted (m.incrementShortQcTestMessageCount cfg) := by
  unfold Machine.incrementShortQcTestMessageCount
  simp only []
  split
  · exact h
  · exact persisted_updateNvBlocks h.sound

theorem setCustomFlag (h : Persisted m) (flag : CustomFlag) :
    Persisted (m.setCustomFlag flag) := by
  unfold Machine.setCustomFlag
  refine Persisted.emit (persisted_updateNvBlocks ?_) _
  exact h.sound

theorem resetCustomFlag (h : Persisted m) (flag : CustomFlag) :
    Persisted (m.resetCustomFlag flag) := by
  unfold Machine.resetCustomFlag
  refine Persisted.emit (persisted_updateNvBlocks ?_) _
  exact h.sound

/-- The two resets change RAM only; the wipe after them writes all of it. -/
theorem wipeMask (h : Persisted m) : Persisted m.wipeMask :=
  wipeMessageIdsInWindow h.sound

/-! ## The extended and the small protocol -/

theorem extendedSmallApplyInferred (h : Persisted m)
    (message : ExtendedSmallMessage) :
    Persisted (m.extendedSmallApplyInferred message) := by
  unfold Machine.extendedSmallApplyInferred
  refine Persisted.emit (resetCustomFlag (maskBelowMessageId ?_ _) _) _
  split <;> exact h.emit _

theorem extendedSmallParseAndApplyKeycode (h : Persisted m) (env : Env)
    (stream : Bitstream) :
    Persisted (m.extendedSmallParseAndApplyKeycode env stream).2 := by
  unfold Machine.extendedSmallParseAndApplyKeycode
  split
  · exact h.emit _
  · unfold Machine.extendedSmallApply
    split
    · exact h.emit _
    · exact extendedSmallApplyInferred h _

theorem smallParse (h : Persisted m) (cfg : Config) (env : Env)
    (frame : Frame) : Persisted (m.smallParse cfg env frame).2 := by
  unfold Machine.smallParse
  split
  · exact h
  · simp only []
    split
    · unfold Machine.smallInternalBitstreamPassthrough
      simp only []
      split
      · exact h
      · exact extendedSmallParseAndApplyKeycode h env _
    · exact h

theorem smallApplySetCredit (h : Persisted m) (message : SmallMessage) :
    Persisted (m.smallApplySetCredit message).2 := by
  have hmask := maskBelowMessageId h (message.fullMessageId + 1).toUInt16
  unfold Machine.smallApplySetCredit
  simp only []
  repeat' split
  · exact hmask.emit _
  · exact hmask.emit _
  · exact resetCustomFlag hmask _
  · exact hmask.emit _

theorem smallApplyAddCredit (h : Persisted m) (env : Env)
    (message : SmallMessage) :
    Persisted (m.smallApplyAddCredit env message).2 := by
  have hset := setFullMessageIdFlag h message.fullMessageId.toUInt16
  unfold Machine.smallApplyAddCredit
  simp only []
  repeat' split
  all_goals exact hset

theorem smallApply (h : Persisted m) (cfg : Config) (env : Env)
    (message : SmallMessage) :
    Persisted (m.smallApply cfg env message).2 := by
  unfold Machine.smallApply
  split
  · exact h
  · split
    · unfold Machine.smallApplyActivation Machine.getFullMessageIdFlag
      simp only [h.readNv]
      repeat' split
      · exact h
      · exact smallApplySetCredit h message
      · exact smallApplyAddCredit h env message
      · exact h
    · split
      · unfold Machine.smallApplyMaintenance
        simp only []
        repeat' split
        · exact (wipeMask h).emit _
        · exact h.emit _
        · exact wipeMask h
        · exact h
      · unfold Machine.smallApplyTest
        repeat' split
        · exact h.emit _
        · exact h
        · exact incrementLongQcTestMessageCount (h.emit _) cfg
        · exact h
        · exact h

theorem smallParseAndApply (h : Persisted m) (cfg : Config) (env : Env)
    (frame : Frame) : Persisted (m.smallParseAndApply cfg env frame).2 := by
  have hparse := smallParse h cfg env frame
  unfold Machine.smallParseAndApply
  split
  · next heq => rw [heq] at hparse; exact hparse
  · next heq =>
      rw [heq] at hparse
      split
      · exact hparse
      · exact smallApply hparse cfg env _

/-! ## The full protocol -/

theorem fullParse (h : Persisted m) (env : Env) (frame : Frame) :
    Persisted (m.fullParse env frame).2 := by
  unfold Machine.fullParse Machine.fullParseFactoryAndPassthrough
  simp only []
  repeat' split
  all_goals exact h

theorem fullApplyActivation (h : Persisted m) (env : Env)
    (message : FullMessage) :
    Persisted (m.fullApplyActivation env message).2 := by
  have hset := setFullMessageIdFlag h message.fullMessageId.toUInt16
  have hmask := maskBelowMessageId h (message.fullMessageId + 1).toUInt16
  unfold Machine.fullApplyActivation Machine.getFullMessageIdFlag
    Machine.fullApplyWipeState
  simp only [h.readNv]
  repeat' split
  · exact h
  · exact hset.emit _
  · exact hset
  · exact h.emit _
  · exact h
  · exact hmask.emit _
  · exact hmask.emit _
  · exact (wipeMask hmask).emit _
  · exact hmask.emit _
  · exact wipeMask hmask
  · exact resetCustomFlag hmask _
  · exact hmask
  · exact h

theorem fullApplyFactory (h : Persisted m) (cfg : Config) (env : Env)
    (message : FullMessage) :
    Persisted (m.fullApplyFactory cfg env message).2 := by
  unfold Machine.fullApplyFactory Machine.fullApplyQcTest
  simp only []
  repeat' split
  · exact h.emit _
  · exact h
  · exact incrementShortQcTestMessageCount (h.emit _) cfg
  · exact incrementLongQcTestMessageCount (h.emit _) cfg
  all_goals exact h

theorem fullApply (h : Persisted m) (cfg : Config) (env : Env)
    (message : FullMessage) : Persisted (m.fullApply cfg env message).2 := by
  unfold Machine.fullApply
  repeat' split
  · exact h
  · exact fullApplyActivation h env message
  · exact fullApplyFactory h cfg env message

theorem fullParseAndApply (h : Persisted m) (cfg : Config) (env : Env)
    (frame : Frame) : Persisted (m.fullParseAndApply cfg env frame).2 := by
  have hparse := fullParse h env frame
  unfold Machine.fullParseAndApply
  split
  · next heq => rw [heq] at hparse; exact hparse
  · next heq =>
      rw [heq] at hparse
      split
      · exact hparse
      · exact fullApply hparse cfg env _

/-! ## Runs -/

/-- One operation, whichever it is. -/
theorem step (h : Persisted m) (cfg : Config) (op : Operation) :
    Persisted (m.step cfg op) := by
  cases op with
  | smallFrame env frame => exact smallParseAndApply h.quiet cfg env frame
  | fullFrame env frame => exact fullParseAndApply h.quiet cfg env frame
  | setCustomFlag flag => exact setCustomFlag h.quiet flag
  | resetCustomFlag flag => exact resetCustomFlag h.quiet flag
  | reboot =>
      show Persisted m.quiet.init
      rw [h.quiet.init]
      exact h.quiet

theorem boot {nv : Nv.Store} (h : nv Nv.blockKeycodePro.blockId = none) :
    Persisted (Machine.boot nv) := by
  rw [Machine.boot_blank h]
  exact Or.inl ⟨h, rfl⟩

theorem run (h : Persisted m) (cfg : Config) (ops : List Operation) :
    Persisted (Lib.run (Machine.step cfg) m ops) :=
  run_invariant (fun _ op hm _ => hm.step cfg op) h (along_true m ops)

end Persisted

/-- A power cycle leaves a persisted machine as it is, trace aside. -/
theorem step_reboot {m : Machine} (h : Persisted m) (cfg : Config) :
    m.step cfg .reboot = m.quiet :=
  h.quiet.init

/-- An operation does not see the trace of the one before it. -/
theorem perform_quiet (m : Machine) (cfg : Config) (op : Operation) :
    m.quiet.perform cfg op = m.perform cfg op := by
  cases op <;> rfl

theorem observe_quiet (m : Machine) (cfg : Config) (ops : List Operation) :
    m.quiet.observe cfg ops = m.observe cfg ops := by
  cases ops with
  | nil => rfl
  | cons op ops =>
      cases op <;> simp only [Machine.observe, Machine.step, perform_quiet]

/-- The operations of a run without its power cycles. -/
def withoutReboots (ops : List Operation) : List Operation :=
  ops.filter fun op => match op with | .reboot => false | _ => true

theorem observe_withoutReboots {m : Machine} (h : Persisted m) (cfg : Config)
    (ops : List Operation) :
    m.observe cfg ops = m.observe cfg (withoutReboots ops) := by
  induction ops generalizing m with
  | nil => rfl
  | cons op ops ih =>
      cases op with
      | reboot =>
          show (m.step cfg .reboot).observe cfg ops = _
          rw [step_reboot h cfg, observe_quiet]
          exact ih h
      | _ =>
          show _ :: _ = _ :: _
          rw [ih (h.step cfg _)]
          rfl

/-- From a store without block 1 on, whatever was done: initialising again
reproduces RAM and leaves NV alone, and the power cycles of a run can be taken
out without changing any response or any call to the product. -/
theorem reboot_is_identity (cfg : Config) (nv : Nv.Store)
    (hnv : nv Nv.blockKeycodePro.blockId = none) (ops : List Operation) :
    (run (Machine.step cfg) (Machine.boot nv) ops).init.stored
        = (run (Machine.step cfg) (Machine.boot nv) ops).stored ∧
      (run (Machine.step cfg) (Machine.boot nv) ops).init.nv
        = (run (Machine.step cfg) (Machine.boot nv) ops).nv ∧
      (Machine.boot nv).observe cfg ops
        = (Machine.boot nv).observe cfg (withoutReboots ops) := by
  have h := Persisted.run (Persisted.boot hnv) cfg ops
  refine ⟨?_, ?_, observe_withoutReboots (Persisted.boot hnv) cfg ops⟩
  · rw [h.init]
  · rw [h.init]

/-- A custom flag set, a power cycle, and the flag cleared again. -/
theorem reboot_is_identity_customFlag :
    (Machine.boot fun _ => none).observe (.default .small)
        [.setCustomFlag .restricted, .reboot, .resetCustomFlag .restricted]
      = (Machine.boot fun _ => none).observe (.default .small)
        [.setCustomFlag .restricted, .resetCustomFlag .restricted] :=
  (reboot_is_identity (.default .small) (fun _ => none) rfl
    [.setCustomFlag .restricted, .reboot,
      .resetCustomFlag .restricted]).2.2

end Nexus.Keycode
