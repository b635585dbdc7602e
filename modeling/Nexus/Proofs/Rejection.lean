import Nexus.Proofs.Mark

/-!
# What a rejected keycode leaves behind

`NEXUS_KEYCODE_PRO_RESPONSE_INVALID` is returned from many depths of the code,
and nearly always before anything happened. The exception is the WIPE_STATE
branch of the full protocol: it masks the message's id and every id under it,
and only then looks at the target, so a target it does not know is answered
INVALID with the mask already in RAM and NV. The maintenance branch of the
small protocol rejects an unknown function before it touches anything.
-/

namespace Nexus.Keycode

open Nexus.Util Nexus.Lib

/-- A rejection must leave the stored structure, NV and credit alone. -/
def RejectsCleanly (m : Machine) (r : Response × Machine) : Prop :=
  r.1 = .invalid →
    r.2.stored = m.stored ∧ r.2.nv = m.nv ∧
      ∀ e ∈ r.2.effects, e.isCredit = false

/-- The frame is an authentic WIPE_STATE message with a fresh id and a target
that does not exist, and the mask for its id has an effect. -/
def MasksThenRejects (m : Machine) (env : Env) (frame : Frame) : Prop :=
  frame.keys.length = 14 ∧ ∃ message,
    fullParseActivation m.pdIndex frame.keys env.stack.digitChars
        = some message ∧
      message.typeCode = fullActivationWipeState ∧ 4 ≤ message.body ∧
      message.check = fullComputeCheck message env.secretKey ∧
      m.idFlag message.fullMessageId.toUInt16 = false ∧
      23 ≤ m.pdIndex ∧ message.fullMessageId < 65535

section

variable {m : Machine} {cfg : Config} {env : Env} {frame : Frame}

theorem rejectsCleanly_self (response : Response) :
    RejectsCleanly m (response, m.quiet) :=
  fun _ => ⟨rfl, rfl, by simp [Machine.quiet]⟩

theorem rejectsCleanly_emit {e : Effect} (he : e.isCredit = false)
    (response : Response) :
    RejectsCleanly m (response, m.quiet.emit e) :=
  fun _ => ⟨rfl, rfl, by simp [Machine.quiet, Machine.emit, he]⟩

theorem rejectsCleanly_of_ne {r : Response × Machine} (h : r.1 ≠ .invalid) :
    RejectsCleanly m r := fun hr => absurd hr h

/-! ## The small protocol -/

/-- Maintenance and test messages. -/
theorem smallApply_rejectsCleanly {message : SmallMessage}
    (htype : message.typeCode = smallMaintenanceOrTestType) :
    RejectsCleanly m (m.quiet.smallApply cfg env message) := by
  have hlt : ¬ message.typeCode < smallMaintenanceOrTestType := by
    rw [htype]; decide
  unfold Machine.smallApply
  split
  · exact rejectsCleanly_self _
  · split
    · unfold Machine.smallApplyMaintenance
      simp only []
      repeat' split
      · exact rejectsCleanly_of_ne (by simp)
      · exact rejectsCleanly_of_ne (by simp)
      · exact rejectsCleanly_of_ne (by simp)
      · exact rejectsCleanly_self _
    · unfold Machine.smallApplyTest
      repeat' split
      · exact rejectsCleanly_of_ne (by simp)
      · exact rejectsCleanly_of_ne (by simp)
      · exact rejectsCleanly_of_ne (by simp)
      · exact rejectsCleanly_of_ne (by simp)
      · exact rejectsCleanly_self _

/-- An activation message is rejected for its check, or because its target
does not exist. -/
theorem Answered.rejectsCleanly {payg : PaygState} {c : Carried}
    {r : Response × Machine} (h : Answered payg m.quiet c r)
    (hunsupported : ∀ target, c.kind = .wipeState target → 4 ≤ target →
      c.authentic = true → m.idFlag c.id.toUInt16 = false →
      m.quiet.maskBelowMessageId (c.id + 1).toUInt16 = m.quiet) :
    RejectsCleanly m r := by
  cases h with
  | forged => exact rejectsCleanly_self _
  | duplicate => exact rejectsCleanly_self _
  | granted hauth hflag hgranted =>
      obtain ⟨kind, id, authentic⟩ := c
      cases hgranted with
      | unsupported ht =>
          have hmask := hunsupported _ rfl ht hauth hflag
          show RejectsCleanly m (_, m.quiet.maskBelowMessageId _)
          rw [hmask]
          exact rejectsCleanly_self _
      | _ => exact rejectsCleanly_of_ne (by simp)

theorem smallParseAndApply_rejectsCleanly (h : Persisted m) (cfg : Config)
    (env : Env) (frame : Frame) :
    RejectsCleanly m (m.quiet.smallParseAndApply cfg env frame) := by
  have hout := smallOutcome cfg env frame m.quiet
  revert hout
  generalize m.quiet.smallParseAndApply cfg env frame = r
  generalize m.quiet.smallCarried cfg env frame = carried
  intro hout
  cases hout with
  | rejected => exact rejectsCleanly_self _
  | unread => exact rejectsCleanly_of_ne (by simp)
  | extended => exact rejectsCleanly_of_ne (by simp)
  | @message message hdecode htype =>
      cases hc : message.carried env.secretKey with
      | none =>
          exact smallApply_rejectsCleanly
            (typeCode_of_not_carried (smallDecode_spec hdecode).1 htype hc)
      | some c =>
          refine (smallApply_answered _ h.quiet hc).rejectsCleanly ?_
          intro target ht
          rcases (smallCarried_kind hc).2.2 with hk | hk <;> rw [hk] at ht <;>
            cases ht

theorem extendedSmallApply_rejectsCleanly (m : Machine) (env : Env)
    (message : ExtendedSmallMessage) :
    RejectsCleanly m (m.quiet.extendedSmallApply env message) := by
  unfold Machine.extendedSmallApply
  split
  · exact rejectsCleanly_emit rfl _
  · exact rejectsCleanly_of_ne (by simp)

/-! ## The full protocol -/

/-- Factory messages. -/
theorem fullApplyFactory_rejectsCleanly (message : FullMessage) :
    RejectsCleanly m (m.quiet.fullApplyFactory cfg env message) := by
  unfold Machine.fullApplyFactory Machine.fullApplyQcTest
  simp only []
  repeat' split
  all_goals first
    | exact rejectsCleanly_self _
    | exact rejectsCleanly_of_ne (by simp)

theorem fullParseFactoryMac_body {typeCode : UInt8} {underrun : Bool}
    {digits : Digits} {message : FullMessage}
    (h : fullParseFactoryMac typeCode underrun digits = some message)
    (htype : message.typeCode ≠ fullFactoryQcTest) : message.body = 0 := by
  rw [fullParseFactoryMac_typeCode h] at htype
  unfold fullParseFactoryMac at h
  simp only [if_neg htype, Option.ite_none_right_eq_some,
    Option.some.injEq] at h
  rw [← h.2]

/-- The factory parser makes no message with a body but QC tests and device
ids. -/
theorem fullParseFactoryAndPassthrough_body {message : FullMessage}
    (h : (m.fullParseFactoryAndPassthrough env frame.keys).1 = some message)
    (htype : message.typeCode < fullFactoryQcTest) : message.body = 0 := by
  have hne : message.typeCode ≠ fullFactoryQcTest := UInt8.ne_of_lt htype
  unfold Machine.fullParseFactoryAndPassthrough at h
  simp only [] at h
  split at h
  · cases h
  · split at h
    · dsimp only at h
      exact fullParseFactoryMac_body h hne
    · split at h
      · next heq =>
          dsimp only at h
          rw [fullParseNomacDeviceId_typeCode h, heq] at htype
          exact absurd htype (by decide)
      · split at h
        · split at h
          · simp only [Option.ite_none_right_eq_some,
              Option.some.injEq] at h
            rw [← h.2]
          · cases h
        · split at h
          · rw [← Option.some.inj h]
          · cases h

/-- So a wipe target above zero comes out of an activation frame. -/
theorem length_of_wipe_target {message : FullMessage}
    (hparse : (m.fullParse env frame).1 = some message)
    (htype : message.typeCode = fullActivationWipeState)
    (hbody : 4 ≤ message.body) : frame.keys.length = 14 := by
  by_contra hlength
  rw [Machine.fullParse, if_neg hlength] at hparse
  rw [fullParseFactoryAndPassthrough_body hparse (by rw [htype]; decide)]
    at hbody
  exact absurd hbody (by decide)

/-- A center close to zero makes every mask a no-op: the lower end of the
window has wrapped around. -/
theorem maskBelowMessageId_of_low_center (hpd : m.pdIndex.toNat < 23)
    (cut : UInt16) : m.maskBelowMessageId cut = m := by
  have hlt := cut.toNat_lt
  unfold Machine.maskBelowMessageId
  split
  · rfl
  · rw [if_pos]
    rw [UInt32.lt_iff_toNat_lt, UInt16.toNat_toUInt32, UInt32.toNat_sub,
      receiveWindowBeforePd_toNat]
    omega

/-- So does one out of reach of 16 bits. -/
theorem maskBelowMessageId_of_high_center
    (hpd : 65558 < m.pdIndex.toNat) (cut : UInt16) :
    m.maskBelowMessageId cut = m := by
  have hlt := cut.toNat_lt
  have hlt' := m.pdIndex.toNat_lt
  unfold Machine.maskBelowMessageId
  split
  · rfl
  · rw [if_pos]
    rw [UInt32.lt_iff_toNat_lt, UInt16.toNat_toUInt32, UInt32.toNat_sub,
      receiveWindowBeforePd_toNat]
    omega

/-- When the mask has no effect. -/
theorem maskBelowMessageId_eq_self {compressed : UInt8} {id : UInt32}
    (hc : compressed.toNat < 64)
    (hid : id = inferFullMessageId compressed m.pdIndex)
    (hno : ¬ (23 ≤ m.pdIndex.toNat ∧ id.toNat < 65535)) :
    m.maskBelowMessageId (id + 1).toUInt16 = m := by
  by_cases hlow : m.pdIndex.toNat < 23
  · exact maskBelowMessageId_of_low_center hlow _
  · by_cases hhigh : 65558 < m.pdIndex.toNat
    · exact maskBelowMessageId_of_high_center hhigh _
    · have hspec := inferFullMessageId_spec m.pdIndex (by omega)
        (by omega) hc
      rw [← hid] at hspec
      exact maskBelowMessageId_of_not_fits ⟨hspec.1, hspec.2.1⟩ (by omega)
        (by omega)

/-- When it has one, a fresh id is marked by it. -/
theorem maskBelowMessageId_ne_self (h : Persisted m) {compressed : UInt8}
    {id : UInt32} (hc : compressed.toNat < 64)
    (hid : id = inferFullMessageId compressed m.pdIndex)
    (hpd : 23 ≤ m.pdIndex.toNat) (hlt : id.toNat < 65535)
    (hflag : m.idFlag id.toUInt16 = false) :
    (m.maskBelowMessageId (id + 1).toUInt16).stored ≠ m.stored := by
  intro heq
  have hpd' : m.pdIndex.toNat + 40 < 2 ^ 32 := by
    by_contra hwrap
    rw [inferFullMessageId_wrapped (Or.inr (by omega)), ← UInt32.toNat_inj,
      UInt32.toNat_sub, receiveWindowBeforePd_toNat] at hid
    have := m.pdIndex.toNat_lt
    omega
  have hspec := inferFullMessageId_spec _ hpd hpd' hc
  rw [← hid] at hspec
  have hmarked := idFlag_mark_of_fits ⟨h, hpd⟩ ⟨hspec.1, hspec.2.1⟩
    .setCredit (by simp) hlt hflag
  have hsame := idFlag_congr _ m (congrArg Stored.window heq)
    id.toUInt16
  change (m.maskBelowMessageId (id + 1).toUInt16).idFlag _ = true at hmarked
  rw [hsame, hflag] at hmarked
  cases hmarked

theorem fullParse_activation (hlength : frame.keys.length = 14) :
    (m.fullParse env frame).1
      = fullParseActivation m.pdIndex frame.keys env.stack.digitChars := by
  rw [Machine.fullParse, if_pos hlength]

theorem fullParseAndApply_rejectsCleanly (h : Persisted m)
    (hno : ¬ MasksThenRejects m env frame) :
    RejectsCleanly m (m.quiet.fullParseAndApply cfg env frame) := by
  have hout := fullOutcome cfg env frame m.quiet
  revert hout
  generalize m.quiet.fullParseAndApply cfg env frame = r
  generalize m.quiet.fullCarried env frame = carried
  intro hout
  cases hout with
  | rejected => exact rejectsCleanly_self _
  | passthrough keys => exact rejectsCleanly_emit rfl _
  | @message message hdecode htype =>
      rw [fullParse_quiet] at hdecode
      cases hc : message.carried env.secretKey with
      | none =>
          unfold Machine.fullApply
          split
          · exact rejectsCleanly_self _
          · rw [if_neg fun hlt => fullCarried_ne_none hlt hc]
            exact fullApplyFactory_rejectsCleanly message
      | some c =>
          refine (fullApply_answered _ h.quiet hc).rejectsCleanly ?_
          intro target ht htarget hauth hflag
          obtain ⟨hid, hcheck, -, hwipe⟩ := fullCarried_kind hc
          obtain ⟨hwipe, rfl⟩ := hwipe target ht
          have hlength := length_of_wipe_target hdecode hwipe htarget
          rw [fullParse_activation hlength] at hdecode
          obtain ⟨-, compressed, hcompressed, hinfer⟩ :=
            fullParseActivation_spec hdecode
          refine maskBelowMessageId_eq_self hcompressed
            (hid.trans hinfer) fun hmask => hno ⟨hlength, message, hdecode,
              hwipe, htarget, ?_, ?_, ?_, ?_⟩
          · rw [hauth] at hcheck
            exact beq_iff_eq.mp hcheck.symm
          · rw [← hid]
            exact hflag
          · exact UInt32.le_iff_toNat_le.mpr hmask.1
          · rw [← hid]
            exact UInt32.lt_iff_toNat_lt.mpr hmask.2

theorem fullParseAndApply_activation (hlength : frame.keys.length = 14)
    {message : FullMessage}
    (hparse : fullParseActivation m.pdIndex frame.keys env.stack.digitChars
      = some message) :
    m.fullParseAndApply cfg env frame = m.fullApply cfg env message := by
  refine fullParseAndApply_of_parse ?_ ?_
  · rw [fullParse_activation hlength, hparse]
  · intro heq
    have hlt := (fullParseActivation_spec hparse).1
    rw [heq] at hlt
    exact absurd hlt (by decide)

/-- The mask comes before the target is looked at. -/
theorem fullApply_unsupported (h : Persisted m) {message : FullMessage}
    (htype : message.typeCode = fullActivationWipeState)
    (hbody : 4 ≤ message.body)
    (hcheck : message.check = fullComputeCheck message env.secretKey)
    (hflag : m.idFlag message.fullMessageId.toUInt16 = false) :
    m.fullApply cfg env message
      = (.invalid,
        m.maskBelowMessageId (message.fullMessageId + 1).toUInt16) := by
  have hne (k : UInt32) (hk : k < 4) : message.body ≠ k := by
    rintro rfl
    exact absurd hk (UInt32.not_lt.mpr hbody)
  have hadd : message.typeCode ≠ fullActivationAddCredit := by
    rw [htype]; decide
  have hdemo : message.typeCode ≠ fullActivationDemoCode := by
    rw [htype]; decide
  have hset : message.typeCode ≠ fullActivationSetCredit := by
    rw [htype]; decide
  rw [fullApply_of_activation (by rw [htype]; decide),
    if_neg (by simp [hcheck])]
  unfold Machine.fullApplyActivation Machine.getFullMessageIdFlag
    Machine.fullApplyWipeState
  simp only [h.readNv, hflag, Bool.false_eq_true, if_false]
  rw [if_neg hadd, if_neg hdemo, if_neg hset, if_pos htype,
    if_neg (hne 1 (by decide)), if_neg (hne 0 (by decide)),
    if_neg (hne 2 (by decide)), if_neg (hne 3 (by decide))]

/-- A target that does not exist, with a mask that has an effect. -/
theorem not_rejectsCleanly_of_masks (h : Persisted m)
    (hmasks : MasksThenRejects m env frame) :
    ¬ RejectsCleanly m (m.quiet.fullParseAndApply cfg env frame) := by
  obtain ⟨hlength, message, hparse, htype, hbody, hcheck, hflag, hpd, hid⟩ :=
    hmasks
  obtain ⟨-, compressed, hcompressed, hinfer⟩ :=
    fullParseActivation_spec hparse
  have hresult : m.quiet.fullParseAndApply cfg env frame
      = (.invalid, m.quiet.maskBelowMessageId
        (message.fullMessageId + 1).toUInt16) := by
    rw [fullParseAndApply_activation (m := m.quiet) hlength hparse]
    exact fullApply_unsupported h.quiet htype hbody hcheck hflag
  intro hclean
  rw [hresult] at hclean
  exact maskBelowMessageId_ne_self h.quiet hcompressed hinfer
    (UInt32.le_iff_toNat_le.mp hpd) (UInt32.lt_iff_toNat_lt.mp hid) hflag
    (hclean rfl).1

/-- A keycode that is answered INVALID changes nothing, in the small protocol,
in the extended one, and in the full one exactly when the frame is not a wipe
that masks before it rejects. -/
theorem rejectsCleanly_iff (h : Persisted m) (cfg : Config) (env : Env) :
    (∀ frame, RejectsCleanly m
        (m.quiet.smallParseAndApply cfg env frame)) ∧
      (∀ message, RejectsCleanly m
        (m.quiet.extendedSmallApply env message)) ∧
      (∀ frame, RejectsCleanly m (m.quiet.fullParseAndApply cfg env frame) ↔
        ¬ MasksThenRejects m env frame) :=
  ⟨smallParseAndApply_rejectsCleanly h cfg env,
    extendedSmallApply_rejectsCleanly m env,
    fun _ => ⟨fun hclean hmasks => not_rejectsCleanly_of_masks h hmasks hclean,
      fullParseAndApply_rejectsCleanly h⟩⟩

end

/-- Seven digits of which no check comes out right. -/
def forgedFrame : Frame :=
  ⟨[52, 48, 48, 48, 48, 48, 48], by decide⟩

theorem forgedFrame_rejectsCleanly :
    (Machine.ofStored .factory |>.quiet.fullParseAndApply (.default .full)
        (testEnv .disabled) forgedFrame).1 = .invalid ∧
      RejectsCleanly (.ofStored .factory)
        (Machine.ofStored .factory |>.quiet.fullParseAndApply (.default .full)
          (testEnv .disabled) forgedFrame) :=
  ⟨by decide +kernel,
    ((rejectsCleanly_iff (.ofStored .factory) _ _).2.2 _).mpr
      fun hmasks => absurd hmasks.1 (by decide)⟩

/-- WIPE_STATE with target 7 and id 24, authentic under the key of zeros:
keys `48996060241342`. -/
def unsupportedWipeFrame : Frame :=
  ⟨[52, 56, 57, 57, 54, 48, 54, 48, 50, 52, 49, 51, 52, 50], by decide⟩

/-- It is answered INVALID, and the window has moved to its id with every flag
set. -/
theorem unsupportedWipeFrame_masks :
    (Machine.ofStored .factory |>.quiet.fullParseAndApply (.default .full)
        (testEnv .enabled) unsupportedWipeFrame).1 = .invalid ∧
      (Machine.ofStored .factory |>.quiet.fullParseAndApply (.default .full)
          (testEnv .enabled) unsupportedWipeFrame).2.stored
        = { Stored.factory with
            receivedFlags := #v[255, 255, 255, 0, 0], pdIndex := 24 } ∧
      ¬ RejectsCleanly (.ofStored .factory)
        (Machine.ofStored .factory |>.quiet.fullParseAndApply (.default .full)
          (testEnv .enabled) unsupportedWipeFrame) := by
  refine ⟨by decide +kernel, by decide +kernel, fun hclean => ?_⟩
  have hstored := (hclean (by decide +kernel)).1
  revert hstored
  decide +kernel

end Nexus.Keycode
