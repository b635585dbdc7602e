import Nexus.Proofs.Carried

/-!
# Nothing changes without a check

Whatever a frame does to credit, to the stored structure or to NV happens
behind a MAC comparison, and the key of the comparison is the device's own
unless the message is a test or factory message. Those are checked under keys
everyone knows, and what they can do is listed: credit of a fixed kind, once,
and one step of one counter.

Nothing is assumed about RAM and NV here, not even that they agree.
-/

namespace Nexus.Keycode

open Nexus.Util Nexus.Lib

/-- The frame called for credit, or changed the stored structure or NV. -/
def Changes (m : Machine) (r : Response × Machine) : Prop :=
  (∃ e ∈ r.2.effects, e.isCredit = true) ∨ r.2.stored ≠ m.stored ∨
    r.2.nv ≠ m.nv

/-- One of the two QC counters, four bits each, goes up by one. -/
def CountsOne (s s' : Stored) : Prop :=
  ∃ q : UInt8, s' = { s with qcTestCodesReceived := q } ∧
    (q.toNat / 16 = s.qcTestCodesReceived.toNat / 16 + 1 ∧
        q.toNat % 16 = s.qcTestCodesReceived.toNat % 16 ∨
      q.toNat / 16 = s.qcTestCodesReceived.toNat / 16 ∧
        q.toNat % 16 = s.qcTestCodesReceived.toNat % 16 + 1)

/-- All that a test message does from `m`: add `credit`, and count itself. -/
structure TestEffects (m : Machine) (credit : UInt32) (m' : Machine) :
    Prop where
  credit : m'.effects.filter Effect.isCredit = [.creditAdd credit]
  others : ∀ e ∈ m'.effects, e.isCredit = false →
    e = .nvWrite Nv.blockKeycodePro.blockId m'.stored.block
  stored : m'.stored = m.stored ∨ CountsOne m.stored m'.stored
  nv : m'.nv = m.nv ∨
    m'.nv = Function.update m.nv Nv.blockKeycodePro.blockId
      (some m'.stored.block)

section

variable {m : Machine} {cfg : Config} {env : Env} {frame : Frame}

theorem not_changes_self (response : Response) :
    ¬ Changes m (response, m.quiet) := by
  rintro (⟨e, he, -⟩ | h | h)
  · exact absurd he (by simp [Machine.quiet])
  · exact h rfl
  · exact h rfl

theorem not_changes_emit {e : Effect} (he : e.isCredit = false)
    (response : Response) : ¬ Changes m (response, m.quiet.emit e) := by
  rintro (⟨e', he', hcredit⟩ | h | h)
  · simp only [Machine.quiet, Machine.emit, List.nil_append,
      List.mem_singleton] at he'
    rw [he', he] at hcredit
    cases hcredit
  · exact h rfl
  · exact h rfl

/-! ## Test messages -/

theorem testEffects_emit (credit : UInt32) :
    TestEffects m credit (m.quiet.emit (.creditAdd credit)) where
  credit := rfl
  others := by
    intro e he hno
    simp only [Machine.quiet, Machine.emit, List.nil_append,
      List.mem_singleton] at he
    rw [he] at hno
    cases hno
  stored := Or.inl rfl
  nv := Or.inl rfl

/-- Credit, then a counter and its write to NV. -/
theorem testEffects_update (credit : UInt32) {s : Stored}
    (hs : CountsOne m.stored s) :
    TestEffects m credit (Machine.updateNvBlocks
      { m.quiet.emit (.creditAdd credit) with stored := s }) := by
  unfold Machine.updateNvBlocks Machine.nvUpdate
  split
  · next block hblock =>
      have hblock' : block = s.block := Nv.eq_newBlock_of_updateWrites hblock
      refine ⟨rfl, ?_, Or.inr hs, Or.inr ?_⟩
      · intro e he hno
        simp only [Machine.quiet, Machine.emit, List.nil_append,
          List.mem_append, List.mem_singleton] at he
        rcases he with rfl | rfl
        · cases hno
        · rw [hblock']
          rfl
      · rw [hblock']
        rfl
  · refine ⟨rfl, ?_, Or.inr hs, Or.inl rfl⟩
    intro e he hno
    simp only [Machine.quiet, Machine.emit, List.nil_append,
      List.mem_singleton] at he
    rw [he] at hno
    cases hno

theorem longCount_succ : ∀ q : UInt8, ¬ ((q &&& 0xF0) >>> 4) + 1 > 15 →
    ((q &&& (0x0F : UInt8)) ||| ((((q &&& 0xF0) >>> 4) + 1)
        <<< (4 : UInt8))).toNat / 16 = q.toNat / 16 + 1 ∧
      ((q &&& (0x0F : UInt8)) ||| ((((q &&& 0xF0) >>> 4) + 1)
        <<< (4 : UInt8))).toNat % 16 = q.toNat % 16 := by
  decide +kernel

theorem shortCount_succ : ∀ q : UInt8, ¬ (q &&& 0x0F) + 1 > 15 →
    ((q &&& 0xF0) ||| ((q &&& 0x0F) + 1)).toNat / 16 = q.toNat / 16 ∧
      ((q &&& 0xF0) ||| ((q &&& 0x0F) + 1)).toNat % 16
        = q.toNat % 16 + 1 := by
  decide +kernel

theorem testEffects_long (credit : UInt32) :
    TestEffects m credit ((m.quiet.emit
      (.creditAdd credit)).incrementLongQcTestMessageCount cfg) := by
  unfold Machine.incrementLongQcTestMessageCount
  simp only []
  split
  · exact testEffects_emit credit
  · next hno =>
      refine testEffects_update credit ⟨_, rfl, Or.inl ?_⟩
      exact longCount_succ _ fun hgt => hno (Or.inl hgt)

theorem testEffects_short (credit : UInt32) :
    TestEffects m credit ((m.quiet.emit
      (.creditAdd credit)).incrementShortQcTestMessageCount cfg) := by
  unfold Machine.incrementShortQcTestMessageCount
  simp only []
  split
  · exact testEffects_emit credit
  · next hno =>
      refine testEffects_update credit ⟨_, rfl, Or.inr ?_⟩
      exact shortCount_succ _ fun hgt => hno (Or.inl hgt)

/-! ## The small protocol -/

/-- Why a small frame may change something. -/
inductive SmallAuthentic (m : Machine) (cfg : Config) (env : Env)
    (frame : Frame) (m' : Machine) : Prop
  | device {message : SmallMessage}
      (hdecode : smallDecode cfg env frame m.pdIndex = some message)
      (htype : message.typeCode = smallActivationAddCreditType ∨
        message.typeCode = smallActivationSetCreditType ∨
        message.typeCode = smallMaintenanceOrTestType ∧
          smallMaxTestFunctionId < message.body)
      (hcheck : message.check = smallComputeCheck message env.secretKey)
  | test {message : SmallMessage} {credit : UInt32}
      (hdecode : smallDecode cfg env frame m.pdIndex = some message)
      (htype : message.typeCode = smallMaintenanceOrTestType)
      (hbody : message.body = 0 ∧ credit = universalShortTestSeconds ∨
        message.body = 1 ∧ credit = qcLongTestMessageSeconds)
      (hcheck : message.check
        = smallComputeCheck message integrityCheckFixedFFKey)
      (heffects : TestEffects m credit m')
  | extended {message : ExtendedSmallMessage} {id : UInt32}
      (hdecode : smallExtended cfg env frame = some message)
      (hwithin : windowIdWithinWindow m.getCurrentMessageIdWindow id = true)
      (hunused : windowIdFlagAlreadySet m.getCurrentMessageIdWindow id
        = false)
      (hlow : id &&& 0x03 = message.truncatedMessageId.toUInt32)
      (hcheck : message.check = extendedSmallAuthArbitraryBytes
        (extendedSmallComputeBytes { message with inferredMessageId := id })
        env.secretKey)

theorem smallApplyTest_effects {message : SmallMessage}
    (h : Changes m (m.quiet.smallApplyTest cfg env message)) :
    ∃ credit, (message.body = 0 ∧ credit = universalShortTestSeconds ∨
        message.body = 1 ∧ credit = qcLongTestMessageSeconds) ∧
      TestEffects m credit (m.quiet.smallApplyTest cfg env message).2 := by
  unfold Machine.smallApplyTest at h ⊢
  split
  · next hbody =>
      rw [if_pos hbody] at h
      split
      · exact ⟨_, Or.inl ⟨hbody, rfl⟩, testEffects_emit _⟩
      · next hpayg =>
          rw [if_neg hpayg] at h
          exact absurd h (not_changes_self _)
  · next hbody =>
      rw [if_neg hbody] at h
      split
      · next hbody' =>
          rw [if_pos hbody'] at h
          split
          · exact ⟨_, Or.inr ⟨hbody', rfl⟩, testEffects_long _⟩
          · next hno =>
              rw [if_neg hno] at h
              exact absurd h (not_changes_self _)
      · next hbody' =>
          rw [if_neg hbody'] at h
          exact absurd h (not_changes_self _)

theorem smallApply_authentic {message : SmallMessage}
    (hdecode : smallDecode cfg env frame m.pdIndex = some message)
    (htype : message.typeCode ≠ smallTypePassthrough)
    (h : Changes m (m.quiet.smallApply cfg env message)) :
    SmallAuthentic m cfg env frame (m.quiet.smallApply cfg env message).2 := by
  unfold Machine.smallApply at h ⊢
  by_cases hcheck : message.check
      = smallComputeCheck message (smallCheckKey env message)
  · rw [if_neg (not_not.mpr hcheck)] at h ⊢
    by_cases hactivation : message.typeCode < smallMaintenanceOrTestType
    · have hkey : smallCheckKey env message = env.secretKey :=
        if_neg fun htest => UInt8.ne_of_lt hactivation htest.1
      rw [hkey] at hcheck
      refine .device hdecode ?_ hcheck
      rw [UInt8.lt_iff_toNat_lt] at hactivation
      rw [Ne, ← UInt8.toNat_inj] at htype
      simp only [← UInt8.toNat_inj]
      change _ < 3 at hactivation
      change ¬ _ = 1 at htype
      show _ = 0 ∨ _ = 2 ∨ _
      omega
    · have htype' : message.typeCode = smallMaintenanceOrTestType := by
        have hlt := (smallDecode_spec hdecode).1
        rw [UInt8.lt_iff_toNat_lt] at hactivation
        rw [← UInt8.toNat_inj]
        change ¬ _ < 3 at hactivation
        show _ = 3
        omega
      rw [if_neg hactivation] at h ⊢
      by_cases hbody : message.body > smallMaxTestFunctionId
      · have hkey : smallCheckKey env message = env.secretKey :=
          if_neg fun htest => UInt8.not_le.mpr hbody htest.2
        rw [hkey] at hcheck
        exact .device hdecode (Or.inr (Or.inr ⟨htype', hbody⟩)) hcheck
      · have hkey : smallCheckKey env message = integrityCheckFixedFFKey :=
          if_pos ⟨htype', UInt8.not_lt.mp hbody⟩
        rw [hkey] at hcheck
        rw [if_neg hbody] at h ⊢
        obtain ⟨credit, hcredit, heffects⟩ := smallApplyTest_effects h
        exact .test hdecode htype' hcredit hcheck heffects
  · rw [if_pos hcheck] at h
    exact absurd h (not_changes_self _)

theorem smallParseAndApply_authentic
    (h : Changes m (m.quiet.smallParseAndApply cfg env frame)) :
    SmallAuthentic m cfg env frame
      (m.quiet.smallParseAndApply cfg env frame).2 := by
  have hout := smallOutcome cfg env frame m.quiet
  revert hout h
  generalize m.quiet.smallParseAndApply cfg env frame = r
  generalize m.quiet.smallCarried cfg env frame = carried
  intro h hout
  cases hout with
  | rejected => exact absurd h (not_changes_self _)
  | unread => exact absurd h (not_changes_emit rfl _)
  | message hdecode htype => exact smallApply_authentic hdecode htype h
  | @extended message found hdecode hfound =>
      obtain ⟨hsame, hwithin, hlow, hunused, hauth⟩ :=
        extendedSmallInferWindowedMessageId_spec hfound
      unfold extendedSmallInferInnerComputeAuth at hauth
      split at hauth
      · rw [beq_iff_eq] at hauth
        rw [hsame] at hlow hauth
        exact .extended hdecode hwithin hunused hlow hauth.symm
      · cases hauth

/-! ## The full protocol -/

/-- Why a full frame may change something. -/
inductive FullAuthentic (m : Machine) (env : Env) (frame : Frame)
    (m' : Machine) : Prop
  | device {message : FullMessage}
      (hdecode : (m.fullParse env frame).1 = some message)
      (htype : message.typeCode < fullFactoryAllowTest)
      (hcheck : message.check = fullComputeCheck message env.secretKey)
  | factory {message : FullMessage} {credit : UInt32}
      (hdecode : (m.fullParse env frame).1 = some message)
      (htype : message.typeCode = fullFactoryAllowTest ∧
          credit = universalShortTestSeconds ∨
        message.typeCode = fullFactoryQcTest ∧ credit = message.body * 60)
      (hcheck : message.check
        = fullComputeCheck message integrityCheckFixed00Key)
      (heffects : TestEffects m credit m')

theorem fullApplyFactory_effects {message : FullMessage}
    (h : Changes m (m.quiet.fullApplyFactory cfg env message)) :
    ∃ credit, (message.typeCode = fullFactoryAllowTest ∧
          credit = universalShortTestSeconds ∨
        message.typeCode = fullFactoryQcTest ∧
          credit = message.body * 60) ∧
      TestEffects m credit (m.quiet.fullApplyFactory cfg env message).2 := by
  unfold Machine.fullApplyFactory at h ⊢
  split
  · next htype =>
      rw [if_pos htype] at h
      split
      · exact ⟨_, Or.inl ⟨htype, rfl⟩, testEffects_emit _⟩
      · next hpayg =>
          rw [if_neg hpayg] at h
          exact absurd h (not_changes_self _)
  · next htype =>
      rw [if_neg htype] at h
      split
      · next hqc =>
          rw [if_pos hqc] at h
          refine ⟨_, Or.inr ⟨hqc, rfl⟩, ?_⟩
          unfold Machine.fullApplyQcTest at h ⊢
          simp only [] at h ⊢
          split
          · split
            · exact testEffects_short _
            · exact testEffects_long _
          · next hno =>
              rw [if_neg hno] at h
              exact absurd h (not_changes_self _)
      · next hqc =>
          rw [if_neg hqc] at h
          refine absurd h ?_
          split
          · exact not_changes_self _
          · split
            · split <;> exact not_changes_self _
            · exact not_changes_self _

theorem fullApply_authentic {message : FullMessage}
    (hdecode : (m.fullParse env frame).1 = some message)
    (h : Changes m (m.quiet.fullApply cfg env message)) :
    FullAuthentic m env frame (m.quiet.fullApply cfg env message).2 := by
  by_cases htype : message.typeCode < fullFactoryAllowTest
  · rw [fullApply_of_activation htype] at h
    by_cases hcheck : message.check
        = fullComputeCheck message env.secretKey
    · exact .device hdecode htype hcheck
    · rw [if_pos (by simpa using hcheck)] at h
      exact absurd h (not_changes_self _)
  · have hkey : fullCheckKey env message = integrityCheckFixed00Key :=
      if_neg htype
    unfold Machine.fullApply at h ⊢
    rw [hkey] at h ⊢
    split
    · next hforged =>
        rw [if_pos hforged] at h
        exact absurd h (not_changes_self _)
    · next hauth =>
        rw [if_neg hauth, if_neg htype] at h
        obtain ⟨credit, hcredit, heffects⟩ := fullApplyFactory_effects h
        have hmac : message.typeCode
            < fullFactoryNomacDeviceIdConfirmation := by
          rcases hcredit with ⟨heq, -⟩ | ⟨heq, -⟩ <;> rw [heq] <;> decide
        refine .factory hdecode hcredit ?_ heffects
        by_contra hcheck
        exact hauth ⟨hcheck, hmac⟩

theorem fullParseAndApply_authentic
    (h : Changes m (m.quiet.fullParseAndApply cfg env frame)) :
    FullAuthentic m env frame
      (m.quiet.fullParseAndApply cfg env frame).2 := by
  have hout := fullOutcome cfg env frame m.quiet
  revert hout h
  generalize m.quiet.fullParseAndApply cfg env frame = r
  generalize m.quiet.fullCarried env frame = carried
  intro h hout
  cases hout with
  | rejected => exact absurd h (not_changes_self _)
  | passthrough keys => exact absurd h (not_changes_emit rfl _)
  | message hdecode htype =>
      rw [fullParse_quiet] at hdecode
      exact fullApply_authentic hdecode h

end

/-- Every change of credit, of the stored structure or of NV is behind the
right check, in both protocols. -/
theorem changes_authentic (m : Machine) (cfg : Config) (env : Env)
    (frame : Frame) :
    (Changes m (m.quiet.smallParseAndApply cfg env frame) →
      SmallAuthentic m cfg env frame
        (m.quiet.smallParseAndApply cfg env frame).2) ∧
    (Changes m (m.quiet.fullParseAndApply cfg env frame) →
      FullAuthentic m env frame
        (m.quiet.fullParseAndApply cfg env frame).2) :=
  ⟨smallParseAndApply_authentic, fullParseAndApply_authentic⟩

/-- ALLOW_TEST, keys `4064983`, on a unit out of credit. -/
def allowTestFrame : Frame := ⟨[52, 48, 54, 52, 57, 56, 51], by decide⟩

theorem allowTestFrame_authentic :
    Changes (.ofStored .factory)
        (Machine.ofStored .factory |>.quiet.fullParseAndApply (.default .full)
          (testEnv .disabled) allowTestFrame) ∧
      FullAuthentic (.ofStored .factory) (testEnv .disabled) allowTestFrame
        (Machine.ofStored .factory |>.quiet.fullParseAndApply (.default .full)
          (testEnv .disabled) allowTestFrame).2 := by
  have hchanges : Changes (.ofStored .factory)
      (Machine.ofStored .factory |>.quiet.fullParseAndApply (.default .full)
        (testEnv .disabled) allowTestFrame) :=
    Or.inl (by decide +kernel)
  exact ⟨hchanges, (changes_authentic _ _ _ _).2 hchanges⟩

end Nexus.Keycode
