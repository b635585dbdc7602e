import Nexus.Proofs.Authentic
import Nexus.Proofs.Reboot

/-!
# Test codes and their lifetime limits

The two QC counters are the nibbles of one byte of the stored structure, which
every other message loads and stores along with the window. What a run makes
of them is a tally: a QC code that is applied counts in its class, a mask wipe
that is applied starts over, and nothing else counts. The class is decided
twice in the source, once to accept the code and once to count it, on the
seconds of credit; the minutes a frame can carry are a byte, so that seconds
and minutes tell the same.
-/

namespace Nexus.Keycode

open Nexus.Util Nexus.Lib

/-! ## The tally -/

/-- What concerns the test code counts: QC codes of at most ten minutes,
longer ones, and mask wipes. -/
inductive QcEvent
  | short
  | long
  | reset
deriving DecidableEq

def SmallMessage.qcEvent (message : SmallMessage) : Option QcEvent :=
  if message.typeCode = smallMaintenanceOrTestType then
    if message.body = 0x01 then some .long
    else if message.body = 0x81 ∨ message.body = 0x82 then some .reset
    else none
  else none

def FullMessage.qcEvent (message : FullMessage) : Option QcEvent :=
  if message.typeCode = fullFactoryQcTest then
    some (if message.body ≤ 10 then .short else .long)
  else if message.typeCode = fullActivationWipeState
      ∧ (message.body = 1 ∨ message.body = 2) then some .reset
  else none

/-- The event of an operation: that of its message, if the message was
applied. -/
def Machine.qcEvent (cfg : Config) (m : Machine) (op : Operation) :
    Option QcEvent :=
  if (m.perform cfg op).1 = .validApplied then
    match op with
    | .smallFrame env frame =>
        (smallDecode cfg env frame m.pdIndex).bind SmallMessage.qcEvent
    | .fullFrame env frame =>
        (m.fullParse env frame).1.bind FullMessage.qcEvent
    | _ => none
  else none

/-- The two counters of a stored structure. -/
structure QcCounts where
  short : ℕ
  long : ℕ
deriving DecidableEq

def Stored.qcCounts (s : Stored) : QcCounts :=
  ⟨s.qcTestCodesReceived.toNat % 16, s.qcTestCodesReceived.toNat / 16⟩

/-- One step of the tally. -/
def QcCounts.next (counts : QcCounts) : Option QcEvent → QcCounts
  | some .short => { counts with short := counts.short + 1 }
  | some .long => { counts with long := counts.long + 1 }
  | some .reset => ⟨0, 0⟩
  | none => counts

def QcCounts.Within (cfg : Config) (counts : QcCounts) : Prop :=
  counts.short ≤ cfg.factoryQcShortLifetimeMax ∧
    counts.long ≤ cfg.factoryQcLongLifetimeMax

theorem getShortQcCodeCount_toNat (m : Machine) :
    m.getShortQcCodeCount.toNat = m.stored.qcCounts.short := by
  unfold Machine.getShortQcCodeCount
  rw [UInt8.toNat_and]
  exact Nat.and_two_pow_sub_one_eq_mod _ 4

theorem highNibble_toNat : ∀ q : UInt8,
    ((q &&& 0xF0) >>> 4).toNat = q.toNat / 16 := by
  decide +kernel

theorem getLongQcCodeCount_toNat (m : Machine) :
    m.getLongQcCodeCount.toNat = m.stored.qcCounts.long :=
  highNibble_toNat _

/-! ## What leaves the counters alone -/

section

variable {m : Machine} {cfg : Config} {env : Env}

@[simp] theorem qcCounts_emit (e : Effect) :
    (m.emit e).stored.qcCounts = m.stored.qcCounts := rfl

@[simp] theorem qcCounts_setFlags (flags : Vector UInt8 5) :
    (m.setFlags flags).stored.qcCounts = m.stored.qcCounts := rfl

theorem qcCounts_updateWindowAndMessageMaskId (id : UInt16) :
    (m.updateWindowAndMessageMaskId id).2.stored.qcCounts
      = m.stored.qcCounts := by
  have hshift (n : UInt32) :
      (m.increasePdAndShiftWindowRight n).stored.qcCounts
        = m.stored.qcCounts := by
    unfold Machine.increasePdAndShiftWindowRight
    rw [Machine.updateNvBlocks_stored]
    split
    · simp only [Machine.wipeMessageIdsInWindow,
        Machine.updateNvBlocks_stored]
      rfl
    · rfl
  unfold Machine.updateWindowAndMessageMaskId
  simp only []
  split
  · exact hshift _
  · split
    · split <;> rfl
    · rfl

theorem qcCounts_maskBelowMessageId (cut : UInt16) :
    (m.maskBelowMessageId cut).stored.qcCounts = m.stored.qcCounts := by
  unfold Machine.maskBelowMessageId
  split
  · rfl
  · split
    · rfl
    · simp only [Machine.maskFlags, Machine.updateNvBlocks_stored,
        qcCounts_setFlags, qcCounts_updateWindowAndMessageMaskId]

theorem qcCounts_resetCustomFlag (flag : CustomFlag) :
    (m.resetCustomFlag flag).stored.qcCounts = m.stored.qcCounts := by
  simp only [Machine.resetCustomFlag, qcCounts_emit,
    Machine.updateNvBlocks_stored]
  rfl

theorem qcCounts_setCustomFlag (flag : CustomFlag) :
    (m.setCustomFlag flag).stored.qcCounts = m.stored.qcCounts := by
  simp only [Machine.setCustomFlag, qcCounts_emit,
    Machine.updateNvBlocks_stored]
  rfl

theorem qcCounts_mark (hm : Persisted m) (kind : Kind) (id : UInt32) :
    (kind.mark m id).stored.qcCounts = m.stored.qcCounts := by
  have hset : (m.setFullMessageIdFlag id.toUInt16).stored.qcCounts
      = m.stored.qcCounts := by
    unfold Machine.setFullMessageIdFlag Machine.getFullMessageIdFlag
    simp only [hm.readNv]
    split
    · rfl
    · simp only [Machine.updateNvBlocks_stored, qcCounts_setFlags,
        qcCounts_updateWindowAndMessageMaskId]
  cases kind with
  | addCredit => exact hset
  | demo => rfl
  | _ => exact qcCounts_maskBelowMessageId _

theorem qcCounts_wipeMask : m.wipeMask.stored.qcCounts = ⟨0, 0⟩ := by
  unfold Machine.wipeMask Machine.wipeMessageIdsInWindow
  rw [Machine.updateNvBlocks_stored, qcCounts_setFlags]
  simp [Machine.resetTestCodeCount, Machine.resetPdIndex, Stored.qcCounts]

/-! ## One message

Every end of a message comes with the event it stands for. -/

/-- The counters after a message are those of the tally, and stay within the
limits. -/
def Tallied (cfg : Config) (m : Machine) (event : Option QcEvent)
    (r : Response × Machine) : Prop :=
  r.2.stored.qcCounts = m.stored.qcCounts.next
      (if r.1 = .validApplied then event else none) ∧
    (m.stored.qcCounts.Within cfg → r.2.stored.qcCounts.Within cfg)

/-- Nothing counted, nothing changed. -/
theorem Tallied.kept {event : Option QcEvent} {r : Response × Machine}
    (hevent : r.1 = .validApplied → event = none)
    (hcounts : r.2.stored.qcCounts = m.stored.qcCounts) :
    Tallied cfg m event r := by
  refine ⟨?_, fun h => by rw [hcounts]; exact h⟩
  rw [hcounts]
  split
  · next h => rw [hevent h]; rfl
  · rfl

theorem Tallied.wiped {m' : Machine} (h : m'.stored.qcCounts = ⟨0, 0⟩) :
    Tallied cfg m (some .reset) (.validApplied, m') := by
  refine ⟨h, fun _ => ?_⟩
  rw [h]
  exact ⟨Nat.zero_le _, Nat.zero_le _⟩

/-- A message that carries an id and wipes nothing leaves the counters
alone. -/
theorem Answered.tallied {payg : PaygState} {c : Carried}
    {r : Response × Machine} (h : Answered payg m c r) (hm : Persisted m)
    (hkind : ∀ target, c.kind ≠ .wipeState target) :
    Tallied cfg m none r := by
  refine .kept (fun _ => rfl) ?_
  have hmark := qcCounts_mark hm c.kind c.id
  cases h with
  | forged => rfl
  | duplicate => rfl
  | granted _ _ hgranted =>
      revert hgranted hmark hkind
      generalize c.kind.mark m c.id = marked
      generalize c.kind = kind
      intro hkind hmark hgranted
      cases hgranted with
      | credit => exact hmark
      | flag => rw [qcCounts_resetCustomFlag, hmark]
      | refused => exact hmark
      | demo => exact hmark
      | @wipe target => exact absurd rfl (hkind target)
      | @wipeCredit target => exact absurd rfl (hkind target)
      | @unsupported target => exact absurd rfl (hkind target)

/-! ## The increments -/

theorem toNat_succ_of_le {n : UInt8} (h : n.toNat ≤ 15) :
    (n + 1).toNat = n.toNat + 1 := by
  rw [UInt8.toNat_add]
  show (_ + 1) % 2 ^ 8 = _
  omega

/-- The long counter goes up by one below its limit, and the short one keeps
its value. -/
theorem qcCounts_incrementLong (m : Machine) (cfg : Config) :
    (m.incrementLongQcTestMessageCount cfg).stored.qcCounts =
      if m.stored.qcCounts.long < cfg.factoryQcLongLifetimeMax then
        m.stored.qcCounts.next (some .long)
      else m.stored.qcCounts := by
  have hlong := getLongQcCodeCount_toNat m
  have hle := cfg.qcLong_le
  have hsmall : m.stored.qcCounts.long ≤ 15 := by
    have := m.stored.qcTestCodesReceived.toNat_lt
    show _ / 16 ≤ 15
    omega
  have hlimit : (m.getLongQcCodeCount + 1 > 15 ∨
      (m.getLongQcCodeCount + 1).toNat > cfg.factoryQcLongLifetimeMax) ↔
        ¬ m.stored.qcCounts.long < cfg.factoryQcLongLifetimeMax := by
    rw [gt_iff_lt, UInt8.lt_iff_toNat_lt, toNat_succ_of_le (by omega), hlong]
    show 15 < _ ∨ _ ↔ _
    omega
  unfold Machine.incrementLongQcTestMessageCount
  simp only []
  split
  · next hover => rw [if_neg (hlimit.mp hover)]
  · next hno =>
      rw [if_pos (not_not.mp fun h => hno (hlimit.mpr h)),
        Machine.updateNvBlocks_stored]
      obtain ⟨hhigh, hlow⟩ := longCount_succ m.stored.qcTestCodesReceived
        fun hgt => hno (Or.inl hgt)
      simp only [Stored.qcCounts, QcCounts.next, QcCounts.mk.injEq]
      exact ⟨hlow, hhigh⟩

/-- The short counter goes up by one below its limit, and the long one keeps
its value. -/
theorem qcCounts_incrementShort (m : Machine) (cfg : Config) :
    (m.incrementShortQcTestMessageCount cfg).stored.qcCounts =
      if m.stored.qcCounts.short < cfg.factoryQcShortLifetimeMax then
        m.stored.qcCounts.next (some .short)
      else m.stored.qcCounts := by
  have hshort := getShortQcCodeCount_toNat m
  have hle := cfg.qcShort_le
  have hsmall : m.stored.qcCounts.short ≤ 15 := by
    show _ % 16 ≤ 15
    omega
  have hlimit : (m.getShortQcCodeCount + 1 > 15 ∨
      (m.getShortQcCodeCount + 1).toNat > cfg.factoryQcShortLifetimeMax) ↔
        ¬ m.stored.qcCounts.short < cfg.factoryQcShortLifetimeMax := by
    rw [gt_iff_lt, UInt8.lt_iff_toNat_lt, toNat_succ_of_le (by omega),
      hshort]
    show 15 < _ ∨ _ ↔ _
    omega
  unfold Machine.incrementShortQcTestMessageCount
  simp only []
  split
  · next hover => rw [if_neg (hlimit.mp hover)]
  · next hno =>
      rw [if_pos (not_not.mp fun h => hno (hlimit.mpr h)),
        Machine.updateNvBlocks_stored]
      obtain ⟨hhigh, hlow⟩ := shortCount_succ m.stored.qcTestCodesReceived
        fun hgt => hno (Or.inl hgt)
      simp only [Stored.qcCounts, QcCounts.next, QcCounts.mk.injEq]
      exact ⟨hlow, hhigh⟩

theorem Tallied.long {e : Effect}
    (h : m.stored.qcCounts.long < cfg.factoryQcLongLifetimeMax) :
    Tallied cfg m (some .long) (.validApplied,
      (m.emit e).incrementLongQcTestMessageCount cfg) := by
  have hcounts := qcCounts_incrementLong (m.emit e) cfg
  rw [qcCounts_emit, if_pos h] at hcounts
  refine ⟨hcounts, fun hwithin => ?_⟩
  rw [hcounts]
  exact ⟨hwithin.1, h⟩

theorem Tallied.short {e : Effect}
    (h : m.stored.qcCounts.short < cfg.factoryQcShortLifetimeMax) :
    Tallied cfg m (some .short) (.validApplied,
      (m.emit e).incrementShortQcTestMessageCount cfg) := by
  have hcounts := qcCounts_incrementShort (m.emit e) cfg
  rw [qcCounts_emit, if_pos h] at hcounts
  refine ⟨hcounts, fun hwithin => ?_⟩
  rw [hcounts]
  exact ⟨h, hwithin.2⟩

/-! ## The small protocol -/

theorem smallApplyMaintenance_tallied {message : SmallMessage}
    (htype : message.typeCode = smallMaintenanceOrTestType)
    (hbody : message.body > smallMaxTestFunctionId) :
    Tallied cfg m message.qcEvent (m.smallApplyMaintenance message) := by
  have hfunction : ∀ b : UInt8, b > smallMaxTestFunctionId →
      b ≠ 0x01 ∧ (b &&& 0x7F = 0x01 ↔ b = 0x81) ∧
        (b &&& 0x7F = 0x02 ↔ b = 0x82) := by decide +kernel
  obtain ⟨hne, hone, htwo⟩ := hfunction _ hbody
  have hevent : message.qcEvent
      = if message.body &&& 0x7F = 0x01 ∨ message.body &&& 0x7F = 0x02
        then some .reset else none := by
    rw [SmallMessage.qcEvent, if_pos htype, if_neg hne]
    simp only [hone, htwo]
  rw [hevent]
  unfold Machine.smallApplyMaintenance
  by_cases h1 : message.body &&& 0x7F = 0x01
  · simp only [h1, true_or, if_true]
    exact .wiped qcCounts_wipeMask
  · by_cases h2 : message.body &&& 0x7F = 0x02
    · simp only [h2, or_true, if_true]
      exact .wiped qcCounts_wipeMask
    · simp only [h1, h2, or_self, if_false]
      split <;> exact .kept (fun _ => rfl) rfl

theorem smallApplyTest_tallied {message : SmallMessage}
    (htype : message.typeCode = smallMaintenanceOrTestType)
    (hbody : ¬ message.body > smallMaxTestFunctionId) :
    Tallied cfg m message.qcEvent (m.smallApplyTest cfg env message) := by
  have hnotReset : ¬ (message.body = 0x81 ∨ message.body = 0x82) := by
    intro h
    rcases h with h | h <;> rw [h] at hbody <;> exact hbody (by decide)
  have hevent : message.qcEvent
      = if message.body = 0x01 then some .long else none := by
    rw [SmallMessage.qcEvent, if_pos htype, if_neg hnotReset]
  rw [hevent]
  unfold Machine.smallApplyTest
  by_cases h1 : message.body = 0x01
  · simp only [h1, if_true]
    split
    · next h0 => exact absurd h0 (by decide)
    · split
      · next haccept =>
          rw [getLongQcCodeCount_toNat] at haccept
          exact .long haccept.1
      · exact .kept nofun rfl
  · simp only [h1, if_false]
    split
    · split <;> exact .kept (fun _ => rfl) rfl
    · exact .kept nofun rfl

theorem smallApply_tallied (hm : Persisted m) {message : SmallMessage}
    (hlt : message.typeCode.toNat < 4)
    (htype : message.typeCode ≠ smallTypePassthrough) :
    Tallied cfg m message.qcEvent (m.smallApply cfg env message) := by
  cases hc : message.carried env.secretKey with
  | some c =>
      obtain ⟨hactivation, -, hkind⟩ := smallCarried_kind hc
      have hnone : message.qcEvent = none := by
        unfold SmallMessage.qcEvent
        refine if_neg fun h => ?_
        rw [h] at hactivation
        exact absurd hactivation (by decide)
      rw [hnone]
      refine (smallApply_answered cfg hm hc).tallied hm fun target h => ?_
      rw [h] at hkind
      rcases hkind with hkind | hkind <;> cases hkind
  | none =>
      have htest := typeCode_of_not_carried hlt htype hc
      have hnot : ¬ message.typeCode < smallMaintenanceOrTestType := by
        rw [htest]
        exact UInt8.lt_irrefl _
      unfold Machine.smallApply
      rw [if_neg hnot]
      split
      · exact .kept nofun rfl
      · split
        · next hbody => exact smallApplyMaintenance_tallied htest hbody
        · next hbody => exact smallApplyTest_tallied htest hbody

/-! ## The full protocol -/

theorem fullApplyWipeState_tallied {message : FullMessage}
    (htype : message.typeCode = fullActivationWipeState) :
    Tallied cfg m message.qcEvent (m.fullApplyWipeState message) := by
  have hmask := qcCounts_maskBelowMessageId (m := m)
    (message.fullMessageId + 1).toUInt16
  have hevent : message.qcEvent
      = if message.body = 1 ∨ message.body = 2 then some .reset
        else none := by
    rw [FullMessage.qcEvent, if_neg (by rw [htype]; decide)]
    simp only [htype, true_and]
  rw [hevent]
  unfold Machine.fullApplyWipeState
  by_cases h1 : message.body = 1
  · simp only [h1, true_or, if_true]
    exact .wiped qcCounts_wipeMask
  · by_cases h2 : message.body = 2
    · simp only [h2, or_true, if_true]
      exact .wiped qcCounts_wipeMask
    · simp only [h1, h2, or_self, if_false]
      split
      · exact .kept (fun _ => rfl) hmask
      · split
        · refine .kept (fun _ => rfl) ?_
          rw [qcCounts_resetCustomFlag, hmask]
        · exact .kept nofun hmask

theorem fullApplyActivation_tallied (hm : Persisted m)
    {message : FullMessage}
    (htype : message.typeCode = fullActivationWipeState) :
    Tallied cfg m message.qcEvent (m.fullApplyActivation env message) := by
  unfold Machine.fullApplyActivation Machine.getFullMessageIdFlag
  simp only [hm.readNv]
  split
  · exact .kept nofun rfl
  · rw [if_neg (by rw [htype]; decide), if_neg (by rw [htype]; decide),
      if_neg (by rw [htype]; decide)]
    exact fullApplyWipeState_tallied htype

/-- Seconds and minutes agree on the class of a code as long as the minutes
are a byte. -/
theorem qcSeconds_le_iff {body : UInt32} (h : body.toNat < 256) :
    body * 60 ≤ qcShortTestMessageSeconds ↔ body ≤ 10 := by
  rw [UInt32.le_iff_toNat_le, UInt32.le_iff_toNat_le, UInt32.toNat_mul]
  show body.toNat * 60 % 2 ^ 32 ≤ 600 ↔ body.toNat ≤ 10
  rw [Nat.mod_eq_of_lt (by omega)]
  omega

theorem fullApplyQcTest_tallied {message : FullMessage}
    (htype : message.typeCode = fullFactoryQcTest)
    (hbody : message.body.toNat < 256) :
    Tallied cfg m message.qcEvent (m.fullApplyQcTest cfg env message) := by
  have hevent : message.qcEvent
      = some (if message.body * 60 ≤ qcShortTestMessageSeconds then .short
        else .long) := by
    rw [FullMessage.qcEvent, if_pos htype]
    simp only [qcSeconds_le_iff hbody]
  rw [hevent]
  unfold Machine.fullApplyQcTest
  by_cases haccept : m.canUnitAcceptQcCode cfg env (message.body * 60) = true
  · simp only [haccept, if_true]
    unfold Machine.canUnitAcceptQcCode at haccept
    split at haccept
    · cases haccept
    · split at haccept
      · cases haccept
      · by_cases hshort : message.body * 60 ≤ qcShortTestMessageSeconds
        · simp only [hshort, if_true, decide_eq_true_eq,
            getShortQcCodeCount_toNat] at haccept ⊢
          exact .short haccept
        · simp only [hshort, if_false, decide_eq_true_eq,
            getLongQcCodeCount_toNat] at haccept ⊢
          exact .long haccept
  · simp only [haccept]
    exact .kept nofun rfl

theorem fullApplyFactory_tallied {message : FullMessage}
    (htype : ¬ message.typeCode < fullFactoryAllowTest)
    (hbody : message.typeCode = fullFactoryQcTest →
      message.body.toNat < 256) :
    Tallied cfg m message.qcEvent (m.fullApplyFactory cfg env message) := by
  have hnone : message.typeCode ≠ fullFactoryQcTest →
      message.qcEvent = none := by
    intro hqc
    unfold FullMessage.qcEvent
    rw [if_neg hqc, if_neg]
    intro hwipe
    rw [hwipe.1] at htype
    exact htype (by decide)
  unfold Machine.fullApplyFactory
  split
  · next hallow =>
      have hno := hnone (by rw [hallow]; decide)
      split <;> exact .kept (fun _ => hno) rfl
  · split
    · next hqc => exact fullApplyQcTest_tallied hqc (hbody hqc)
    · next hqc =>
        split
        · exact .kept nofun rfl
        · split
          · split <;> exact .kept (fun _ => hnone hqc) rfl
          · exact .kept nofun rfl

theorem fullApply_tallied (hm : Persisted m) {message : FullMessage}
    (hbody : message.typeCode = fullFactoryQcTest →
      message.body.toNat < 256) :
    Tallied cfg m message.qcEvent (m.fullApply cfg env message) := by
  by_cases hwipe : message.typeCode = fullActivationWipeState
  · have hlt : message.typeCode < fullFactoryAllowTest := by
      rw [hwipe]
      decide
    rw [fullApply_of_activation hlt]
    split
    · exact .kept nofun rfl
    · exact fullApplyActivation_tallied hm hwipe
  · cases hc : message.carried env.secretKey with
    | some c =>
        have hlt := fullCarried_typeCode hc
        have hnone : message.qcEvent = none := by
          unfold FullMessage.qcEvent
          rw [if_neg, if_neg fun h => hwipe h.1]
          intro h
          rw [h] at hlt
          exact absurd hlt (by decide)
        rw [hnone]
        refine (fullApply_answered cfg hm hc).tallied hm fun target h => ?_
        exact hwipe ((fullCarried_kind hc).2.2.2 target h).1
    | none =>
        have hge : ¬ message.typeCode < fullFactoryAllowTest :=
          fun hlt => fullCarried_ne_none hlt hc
        unfold Machine.fullApply
        rw [if_neg hge]
        split
        · exact .kept nofun rfl
        · exact fullApplyFactory_tallied hge hbody

theorem fullParseFactoryMac_body_lt {typeCode : UInt8} {underrun : Bool}
    {digits : Digits} {message : FullMessage}
    (h : fullParseFactoryMac typeCode underrun digits = some message) :
    message.body.toNat < 256 := by
  unfold fullParseFactoryMac at h
  simp only [Option.ite_none_right_eq_some, Option.some.injEq] at h
  obtain ⟨-, rfl⟩ := h
  by_cases hqc : typeCode = fullFactoryQcTest
  · simp only [hqc, if_true, UInt8.toNat_toUInt32]
    exact UInt8.toNat_lt _
  · simp only [hqc, if_false]
    decide

/-- The minutes of a QC code are pulled into a byte. -/
theorem fullParse_qcBody {frame : Frame} {message : FullMessage}
    (h : (m.fullParse env frame).1 = some message)
    (hqc : message.typeCode = fullFactoryQcTest) :
    message.body.toNat < 256 := by
  unfold Machine.fullParse at h
  split at h
  · dsimp only at h
    have hlt := (fullParseActivation_spec h).1
    rw [hqc] at hlt
    exact absurd hlt (by decide)
  · unfold Machine.fullParseFactoryAndPassthrough at h
    simp only [] at h
    split at h
    · cases h
    · split at h
      · dsimp only at h
        exact fullParseFactoryMac_body_lt h
      · next hge =>
          -- the other parsers keep a type digit of 7 and above
          exfalso
          have hlt : fullFactoryQcTest
              < fullFactoryNomacDeviceIdConfirmation := by decide
          rw [← hqc] at hlt
          refine hge ?_
          split at h
          · dsimp only at h
            rw [← fullParseNomacDeviceId_typeCode h]
            exact hlt
          · split at h
            · split at h
              · split at h
                · cases h
                  exact hlt
                · cases h
              · cases h
            · split at h
              · cases h
                exact hlt
              · cases h

/-! ## One operation -/

theorem smallFrame_tallied (hm : Persisted m) (frame : Frame) :
    Tallied cfg m.quiet
      ((smallDecode cfg env frame m.pdIndex).bind SmallMessage.qcEvent)
      (m.quiet.smallParseAndApply cfg env frame) := by
  have hout := smallOutcome cfg env frame m.quiet
  revert hout
  generalize m.quiet.smallParseAndApply cfg env frame = r
  generalize m.quiet.smallCarried cfg env frame = carried
  intro hout
  cases hout with
  | rejected => exact .kept nofun rfl
  | unread => exact .kept nofun rfl
  | message hdecode htype =>
      rw [show smallDecode cfg env frame m.pdIndex = _ from hdecode]
      exact smallApply_tallied hm.quiet (smallDecode_spec hdecode).1 htype
  | extended =>
      refine .kept nofun ?_
      simp only [Machine.extendedSmallApplyInferred, qcCounts_emit,
        qcCounts_resetCustomFlag, qcCounts_maskBelowMessageId]
      split <;> rfl

theorem fullFrame_tallied (hm : Persisted m) (frame : Frame) :
    Tallied cfg m.quiet
      ((m.fullParse env frame).1.bind FullMessage.qcEvent)
      (m.quiet.fullParseAndApply cfg env frame) := by
  have hout := fullOutcome cfg env frame m.quiet
  revert hout
  generalize m.quiet.fullParseAndApply cfg env frame = r
  generalize m.quiet.fullCarried env frame = carried
  intro hout
  cases hout with
  | rejected => exact .kept nofun rfl
  | passthrough keys hresponse =>
      refine .kept (fun h => ?_) rfl
      rcases hresponse with hr | hr <;> rw [hr] at h <;> cases h
  | message hdecode htype =>
      have hbody := fullParse_qcBody hdecode
      rw [fullParse_quiet] at hdecode
      rw [hdecode]
      exact fullApply_tallied hm.quiet hbody

/-- An operation does to the counters what its event does to the tally. -/
theorem qcCounts_step (hm : Persisted m) (op : Operation) :
    (m.step cfg op).stored.qcCounts
        = m.stored.qcCounts.next (m.qcEvent cfg op) ∧
      (m.stored.qcCounts.Within cfg →
        (m.step cfg op).stored.qcCounts.Within cfg) := by
  have hkept (m' : Machine) (h : m'.stored.qcCounts = m.stored.qcCounts) :
      m'.stored.qcCounts = m.stored.qcCounts.next none ∧
        (m.stored.qcCounts.Within cfg → m'.stored.qcCounts.Within cfg) :=
    ⟨h, fun hwithin => by rw [h]; exact hwithin⟩
  cases op with
  | smallFrame env frame => exact smallFrame_tallied hm frame
  | fullFrame env frame => exact fullFrame_tallied hm frame
  | setCustomFlag flag => exact hkept _ (qcCounts_setCustomFlag flag)
  | resetCustomFlag flag => exact hkept _ (qcCounts_resetCustomFlag flag)
  | reboot =>
      refine hkept _ ?_
      show m.quiet.init.stored.qcCounts = _
      rw [hm.quiet.init]
      rfl

/-! ## Runs -/

theorem QcCounts.short_next (counts : QcCounts) (event : Option QcEvent) :
    (counts.next event).short = if event = some .reset then 0
      else if event = some .short then counts.short + 1
      else counts.short := by
  rcases event with _ | (_ | _ | _) <;> rfl

theorem QcCounts.long_next (counts : QcCounts) (event : Option QcEvent) :
    (counts.next event).long = if event = some .reset then 0
      else if event = some .long then counts.long + 1
      else counts.long := by
  rcases event with _ | (_ | _ | _) <;> rfl

variable {nv : Nv.Store}

/-- What happens to the test codes from a blank store on. -/
def qcEvents (cfg : Config) (nv : Nv.Store) (ops : List Operation) :
    List QcEvent :=
  events (Machine.step cfg) (Machine.qcEvent cfg) (Machine.boot nv) ops

theorem qcCounts_boot (hnv : nv Nv.blockKeycodePro.blockId = none) :
    (Machine.boot nv).stored.qcCounts = ⟨0, 0⟩ := by
  rw [Machine.boot_blank hnv]
  exact (by decide : Stored.factory.qcCounts = ⟨0, 0⟩)

theorem qcCounts_short_run (cfg : Config)
    (hnv : nv Nv.blockKeycodePro.blockId = none) (ops : List Operation) :
    (run (Machine.step cfg) (Machine.boot nv) ops).stored.qcCounts.short
      = (since .reset (qcEvents cfg nv ops)).count .short := by
  have hne : QcEvent.short ≠ .reset := nofun
  refine run_count (fun m => m.stored.qcCounts.short) hne
    (fun m op hm => hm.step cfg op) ?_ (Persisted.boot hnv) ?_ ops
  · intro m op hm
    rw [(qcCounts_step hm op).1, QcCounts.short_next]
  · rw [qcCounts_boot hnv]

theorem qcCounts_long_run (cfg : Config)
    (hnv : nv Nv.blockKeycodePro.blockId = none) (ops : List Operation) :
    (run (Machine.step cfg) (Machine.boot nv) ops).stored.qcCounts.long
      = (since .reset (qcEvents cfg nv ops)).count .long := by
  have hne : QcEvent.long ≠ .reset := nofun
  refine run_count (fun m => m.stored.qcCounts.long) hne
    (fun m op hm => hm.step cfg op) ?_ (Persisted.boot hnv) ?_ ops
  · intro m op hm
    rw [(qcCounts_step hm op).1, QcCounts.long_next]
  · rw [qcCounts_boot hnv]

theorem qcCounts_within_run (cfg : Config)
    (hnv : nv Nv.blockKeycodePro.blockId = none) (ops : List Operation) :
    (run (Machine.step cfg) (Machine.boot nv) ops).stored.qcCounts.Within
      cfg := by
  have hboot : (Machine.boot nv).stored.qcCounts.Within cfg := by
    rw [qcCounts_boot hnv]
    exact ⟨Nat.zero_le _, Nat.zero_le _⟩
  have hstep : ∀ (m : Machine) (op : Operation),
      Persisted m ∧ m.stored.qcCounts.Within cfg → True →
        Persisted (m.step cfg op) ∧
          (m.step cfg op).stored.qcCounts.Within cfg := by
    intro m op hm _
    exact ⟨hm.1.step cfg op, (qcCounts_step hm.1 op).2 hm.2⟩
  exact (run_invariant hstep ⟨Persisted.boot hnv, hboot⟩
    (along_true _ ops)).2

/-- A stretch of the run without a mask wipe is within the limits. -/
theorem count_le_of_no_reset (cfg : Config)
    (hnv : nv Nv.blockKeycodePro.blockId = none) {ops : List Operation}
    {pre mid post : List QcEvent}
    (hsplit : qcEvents cfg nv ops = pre ++ mid ++ post)
    (hmid : .reset ∉ mid) :
    mid.count .short ≤ cfg.factoryQcShortLifetimeMax ∧
      mid.count .long ≤ cfg.factoryQcLongLifetimeMax := by
  obtain ⟨ops₁, ops₂, -, hes⟩ := events_split hsplit
  obtain ⟨hshort, hlong⟩ := qcCounts_within_run cfg hnv ops₁
  rw [qcCounts_short_run cfg hnv] at hshort
  rw [qcCounts_long_run cfg hnv] at hlong
  have hsuffix : mid <:+ since .reset (qcEvents cfg nv ops₁) := by
    rw [show qcEvents cfg nv ops₁ = pre ++ mid from hes]
    exact suffix_since hmid
  exact ⟨(hsuffix.sublist.count_le _).trans hshort,
    (hsuffix.sublist.count_le _).trans hlong⟩

end

/-- QC codes respect their lifetime limits: the counters hold the codes of
their class applied since the last mask wipe, between two wipes no class
exceeds its limit, and counting one class leaves the other alone. -/
theorem qc_lifetime_limits (cfg : Config) (nv : Nv.Store)
    (hnv : nv Nv.blockKeycodePro.blockId = none) (ops : List Operation) :
    ((run (Machine.step cfg) (Machine.boot nv) ops
        ).getShortQcCodeCount.toNat
          = (since .reset (qcEvents cfg nv ops)).count .short ∧
      (run (Machine.step cfg) (Machine.boot nv) ops
        ).getLongQcCodeCount.toNat
          = (since .reset (qcEvents cfg nv ops)).count .long) ∧
    (∀ pre mid post, qcEvents cfg nv ops = pre ++ mid ++ post →
      .reset ∉ mid →
      mid.count .short ≤ cfg.factoryQcShortLifetimeMax ∧
        mid.count .long ≤ cfg.factoryQcLongLifetimeMax) ∧
    ∀ m : Machine,
      (m.incrementLongQcTestMessageCount cfg).getShortQcCodeCount
          = m.getShortQcCodeCount ∧
        (m.incrementShortQcTestMessageCount cfg).getLongQcCodeCount
          = m.getLongQcCodeCount := by
  refine ⟨⟨?_, ?_⟩, fun pre mid post hsplit hmid =>
    count_le_of_no_reset cfg hnv hsplit hmid, fun m => ⟨?_, ?_⟩⟩
  · rw [getShortQcCodeCount_toNat, qcCounts_short_run cfg hnv]
  · rw [getLongQcCodeCount_toNat, qcCounts_long_run cfg hnv]
  · rw [← UInt8.toNat_inj, getShortQcCodeCount_toNat,
      getShortQcCodeCount_toNat, qcCounts_incrementLong]
    split <;> rfl
  · rw [← UInt8.toNat_inj, getLongQcCodeCount_toNat,
      getLongQcCodeCount_toNat, qcCounts_incrementShort]
    split <;> rfl

/-- QC codes of 5 minutes, keys `500005059114`, and of an hour, keys
`500060694509`. -/
def qcTestFrame : QcEvent → Frame
  | .short => ⟨[53, 48, 48, 48, 48, 53, 48, 53, 57, 49, 49, 52], by decide⟩
  | _ => ⟨[53, 48, 48, 48, 54, 48, 54, 57, 52, 53, 48, 57], by decide⟩

/-- Three codes with a power cycle among them. -/
def threeQcCodes : List Operation :=
  [.fullFrame (testEnv .disabled) (qcTestFrame .short),
    .fullFrame (testEnv .disabled) (qcTestFrame .long), .reboot,
    .fullFrame (testEnv .disabled) (qcTestFrame .short)]

theorem qc_lifetime_limits_threeQcCodes :
    qcEvents (.default .full) (fun _ => none) threeQcCodes
        = [.short, .long, .short] ∧
      (run (Machine.step (.default .full)) (Machine.boot fun _ => none)
        threeQcCodes).getShortQcCodeCount.toNat = 2 ∧
      (run (Machine.step (.default .full)) (Machine.boot fun _ => none)
        threeQcCodes).getLongQcCodeCount.toNat = 1 := by
  have hes : qcEvents (.default .full) (fun _ => none) threeQcCodes
      = [.short, .long, .short] := by decide +kernel
  have h := (qc_lifetime_limits (.default .full) (fun _ => none) rfl
    threeQcCodes).1
  rw [hes] at h
  exact ⟨hes, h⟩

end Nexus.Keycode
