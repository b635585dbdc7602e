import Nexus.Proofs.Mark
import Nexus.Proofs.Reboot

/-!
# Ids that do not fit in 16 bits

Message ids are inferred as 32-bit numbers, and the functions that look up and
set flags take 16 bits of them. Applying a message twice in a row shows what
the cut does. As long as the argument of the call fits, the second time is a
duplicate; once it does not, the id lands under the window, where no flag is
ever found set, and the message is applied again and again. Only an unlock
stops that, because credit is not added to an unlocked unit.
-/

namespace Nexus.Keycode

open Nexus.Util Nexus.Lib

/-- A message of either protocol that has been parsed. -/
inductive Message
  | small (message : SmallMessage)
  | full (message : FullMessage)

namespace Message

/-- `nexus_keycode_pro_small_apply` or `nexus_keycode_pro_full_apply`. -/
def apply (cfg : Config) (env : Env) (m : Machine) :
    Message → Response × Machine
  | .small message => m.smallApply cfg env message
  | .full message => m.fullApply cfg env message

/-- The id, kind and authenticity of a message. -/
def carried (secretKey : CheckKey) : Message → Option Carried
  | .small message => message.carried secretKey
  | .full message => message.carried secretKey

/-- The ADD_CREDIT message of the small protocol that unlocks the unit. -/
def addUnlocks : Message → Bool
  | .small message =>
      message.typeCode == smallActivationAddCreditType && message.body == 255
  | .full _ => false

end Message

/-- The same message again, right away. The product is free to report any PAYG
state by then, but an unlocked unit stays unlocked. -/
def ReplayRefused (cfg : Config) (env : Env) (m : Machine)
    (message : Message) : Prop :=
  ∀ payg : PaygState,
    (.creditUnlock ∈ (message.apply cfg env m.quiet).2.effects →
      payg = .unlocked) →
    (message.apply cfg { env with paygState := payg }
        (message.apply cfg env m.quiet).2.quiet).1 = .validDuplicate ∧
      ∀ e ∈ (message.apply cfg { env with paygState := payg }
        (message.apply cfg env m.quiet).2.quiet).2.effects,
        e.isCredit = false

section

variable {m : Machine} {cfg : Config} {env : Env} {message : Message}
  {c : Carried}

theorem Message.apply_answered (cfg : Config) (env : Env) (h : Persisted m)
    (hc : message.carried env.secretKey = some c) :
    Answered env.paygState m c (message.apply cfg env m) := by
  cases message with
  | small message => exact smallApply_answered cfg h hc
  | full message => exact fullApply_answered cfg h hc

theorem Message.apply_persisted (h : Persisted m) :
    Persisted (message.apply cfg env m).2 := by
  cases message with
  | small message => exact h.smallApply cfg env message
  | full message => exact h.fullApply cfg env message

theorem Granted.of_setCredit {payg : PaygState} {r : Response × Machine}
    (h : Granted payg m .setCredit r) : r.1 = .validApplied := by
  cases h <;> rfl

theorem Granted.of_addCredit {payg : PaygState} {r : Response × Machine}
    (h : Granted payg m .addCredit r) :
    (payg = .unlocked ∧ r = (.validDuplicate, m)) ∨
      (payg ≠ .unlocked ∧ r.1 = .validApplied) := by
  cases h with
  | credit he hpayg => exact Or.inr ⟨hpayg rfl, rfl⟩
  | flag hkind => exact absurd rfl hkind
  | refused hpayg => exact Or.inl ⟨hpayg, rfl⟩

/-- The only day count that unlocks. -/
theorem smallGetAddCreditIncrementDays_eq_unlock : ∀ body : UInt8,
    smallGetAddCreditIncrementDays body = smallUnlockIncrement
      ↔ body = 255 := by
  decide +kernel

theorem SmallMessage.carried_addCredit {message : SmallMessage}
    {key : CheckKey} (hc : message.carried key = some c)
    (hkind : c.kind = .addCredit) :
    message.typeCode = smallActivationAddCreditType ∧
      c = ⟨.addCredit, message.fullMessageId,
        message.check == smallComputeCheck message key⟩ := by
  unfold SmallMessage.carried at hc
  simp only [] at hc
  repeat' split at hc
  all_goals cases hc
  · next hadd => exact ⟨hadd, rfl⟩
  · cases hkind

theorem FullMessage.carried_addCredit {message : FullMessage}
    {key : CheckKey} (hc : message.carried key = some c)
    (hkind : c.kind = .addCredit) :
    message.typeCode = fullActivationAddCredit ∧
      c = ⟨.addCredit, message.fullMessageId,
        message.check == fullComputeCheck message key⟩ := by
  unfold FullMessage.carried at hc
  simp only [] at hc
  repeat' split at hc
  all_goals cases hc
  · next hadd => exact ⟨hadd, rfl⟩
  all_goals cases hkind

/-- An authentic ADD_CREDIT message of the small protocol with a fresh id. -/
theorem smallApply_addCredit {message : SmallMessage} (h : Persisted m)
    (hadd : message.typeCode = smallActivationAddCreditType)
    (hauth : (message.check == smallComputeCheck message env.secretKey)
      = true)
    (hflag : m.idFlag message.fullMessageId.toUInt16 = false) :
    m.smallApply cfg env message = m.smallApplyAddCredit env message := by
  have hset : message.typeCode ≠ smallActivationSetCreditType := by
    rw [hadd]; decide
  rw [smallApply_of_activation (by rw [hadd]; decide), if_neg (by simp [hauth])]
  unfold Machine.smallApplyActivation Machine.getFullMessageIdFlag
  simp only [h.readNv, hflag, Bool.false_eq_true, if_false]
  rw [if_neg hset, if_pos hadd]

/-- The same for the full protocol. -/
theorem fullApply_addCredit {message : FullMessage} (h : Persisted m)
    (hadd : message.typeCode = fullActivationAddCredit)
    (hauth : (message.check == fullComputeCheck message env.secretKey)
      = true)
    (hflag : m.idFlag message.fullMessageId.toUInt16 = false) :
    m.fullApply cfg env message
      = if env.paygState ≠ .unlocked then
          (.validApplied,
            (m.setFullMessageIdFlag message.fullMessageId.toUInt16).emit
              (.creditAdd (message.body * secondsInHour)))
        else (.validDuplicate,
          m.setFullMessageIdFlag message.fullMessageId.toUInt16) := by
  rw [fullApply_of_activation (by rw [hadd]; decide), if_neg (by simp [hauth])]
  unfold Machine.fullApplyActivation Machine.getFullMessageIdFlag
  simp only [h.readNv, hflag, Bool.false_eq_true, if_false]
  rw [if_pos hadd]

/-- An applied ADD_CREDIT message unlocks when it says so. -/
theorem Message.unlock_mem (h : Persisted m) (hm : m.effects = [])
    (hc : message.carried env.secretKey = some c)
    (hkind : c.kind = .addCredit)
    (happlied : (message.apply cfg env m).1 = .validApplied) :
    .creditUnlock ∈ (message.apply cfg env m).2.effects ↔
      message.addUnlocks = true := by
  obtain ⟨hauth, hflag, -⟩ := (apply_answered _ _ h hc).of_applied happlied
  have hnot : .creditUnlock ∉ (m.setFullMessageIdFlag c.id.toUInt16).effects :=
    fun hmem => by
      have := mark_effects hm .addCredit c.id _ hmem
      cases this
  cases message with
  | small message =>
      obtain ⟨hadd, rfl⟩ := SmallMessage.carried_addCredit hc hkind
      simp only [apply] at happlied ⊢
      rw [smallApply_addCredit h hadd hauth hflag] at happlied ⊢
      have hdays := smallGetAddCreditIncrementDays_eq_unlock message.body
      unfold Machine.smallApplyAddCredit at happlied ⊢
      simp only [] at happlied ⊢
      split at happlied
      · next hpayg =>
          rw [if_pos hpayg]
          by_cases hbody : message.body = 255
          · rw [if_pos (hdays.mpr hbody)]
            simp [Machine.emit, addUnlocks, hadd, hbody]
          · have hne : smallGetAddCreditIncrementDays message.body
                ≠ smallUnlockIncrement := mt hdays.mp hbody
            simp [hne, Machine.emit, addUnlocks, hbody, hnot]
      · cases happlied
  | full message =>
      obtain ⟨hadd, rfl⟩ := FullMessage.carried_addCredit hc hkind
      simp only [apply] at happlied ⊢
      rw [fullApply_addCredit h hadd hauth hflag] at happlied ⊢
      split at happlied
      · next hpayg => simp [hpayg, Machine.emit, addUnlocks, hnot]
      · cases happlied

theorem Message.not_setCredit_of_addUnlocks (message : Message)
    {key : CheckKey} (hc : message.carried key = some c)
    (h : message.addUnlocks = true) : c.kind ≠ .setCredit := by
  cases message with
  | small message =>
      simp only [addUnlocks, Bool.and_eq_true, beq_iff_eq] at h
      simp only [carried, SmallMessage.carried, h.1, if_true,
        Option.some.injEq] at hc
      rw [← hc]
      simp
  | full message => cases h

/-- Exactly the messages whose id fits are refused the second time, and the
one whose effect makes up for it. -/
theorem replayRefused_iff (h : Persisted m)
    (hpd : 23 ≤ m.pdIndex.toNat) (hpd' : m.pdIndex.toNat ≤ 4294967295 - 41)
    (hc : message.carried env.secretKey = some c)
    (hkind : c.kind = .addCredit ∨ c.kind = .setCredit)
    (hin : InWindow m c.id)
    (happlied : (message.apply cfg env m.quiet).1 = .validApplied) :
    ReplayRefused cfg env m message ↔
      c.kind.Fits c.id ∨ message.addUnlocks = true := by
  obtain ⟨hauth, hflag, hgranted⟩ :=
    (Message.apply_answered cfg env h.quiet hc).of_applied happlied
  have hwipe : ∀ target, c.kind = .wipeState target →
      target = 1 ∨ target = 2 →
      (message.apply cfg env m.quiet).1 ≠ .validApplied := by
    intro target ht
    rcases hkind with hk | hk <;> rw [hk] at ht <;> cases ht
  have hsettled : Settled m.quiet := ⟨h.quiet, hpd⟩
  have hwindow := hgranted.window hwipe
  have hfirst : Persisted (message.apply cfg env m.quiet).2.quiet :=
    (Message.apply_persisted h.quiet).quiet
  have hflag' := idFlag_congr (message.apply cfg env m.quiet).2.quiet _
    hwindow c.id.toUInt16
  have hsecond (payg : PaygState) := Message.apply_answered cfg
    { env with paygState := payg } hfirst hc
  by_cases hfits : c.kind.Fits c.id
  · have hset : c.kind ≠ .demo := by
      rcases hkind with hk | hk <;> rw [hk] <;> simp
    rw [idFlag_mark_of_fits hsettled hin _ hset hfits hflag] at hflag'
    refine iff_of_true (fun payg _ => ?_) (Or.inl hfits)
    exact (hsecond payg).of_duplicate rfl hauth hflag'
  · rw [idFlag_mark_of_not_fits hsettled (by
      show m.pdIndex.toNat + 41 < 2 ^ 32
      omega) hin hkind hfits hflag] at hflag'
    have hgrant (payg : PaygState) := (hsecond payg).of_fresh hauth hflag'
    rcases hkind with hk | hk
    · have hunlock := Message.unlock_mem h.quiet rfl hc hk happlied
      rw [hk] at hgrant
      rw [or_iff_right hfits]
      constructor
      · intro hrefused
        by_contra hno
        rw [← hunlock] at hno
        -- the second message finds an enabled unit
        have hdup := (hrefused .enabled fun hmem => absurd hmem hno).1
        rcases (hgrant .enabled).of_addCredit with ⟨hpayg, -⟩ | ⟨-, happ⟩
        · cases hpayg
        · rw [happ] at hdup
          cases hdup
      · intro hunlocks payg hpayg
        obtain rfl := hpayg (hunlock.mpr hunlocks)
        rcases (hgrant .unlocked).of_addCredit with ⟨-, hr⟩ | ⟨hpayg', -⟩
        · rw [hr]
          refine ⟨rfl, fun e he => ?_⟩
          have hwrite := mark_effects rfl .addCredit c.id e he
          cases e <;> first | rfl | cases hwrite
        · exact absurd rfl hpayg'
    · rw [hk] at hgrant
      refine iff_of_false ?_ ?_
      · intro hrefused
        have hdup := (hrefused .unlocked fun _ => rfl).1
        rw [(hgrant .unlocked).of_setCredit] at hdup
        cases hdup
      · rintro (h' | hunlocks)
        · exact hfits h'
        · exact absurd hk (message.not_setCredit_of_addUnlocks hc hunlocks)

end

/-- An id that fits: 24, right after the factory window. -/
theorem replayRefused_of_fits :
    ReplayRefused (.default .full) (testEnv .enabled) (.ofStored .factory)
      (.full ⟨24, fullActivationAddCredit, 24, 553428⟩) :=
  (replayRefused_iff (c := ⟨.addCredit, 24, true⟩) (.ofStored .factory)
    (by decide) (by decide) (by decide +kernel) (Or.inl rfl)
    ⟨by decide, by decide⟩ (by decide +kernel)).mpr
      (Or.inl (by show (24 : UInt32).toNat < 65536; decide))

/-- The window at the end of the 16-bit ids, everything in it received. -/
def lastStored : Stored :=
  { Stored.factory with
    receivedFlags := #v[255, 255, 255, 0, 0], pdIndex := 65535 }

/-- ADD_CREDIT of 24 hours with id 65540, five ids on. -/
def unfitMessage : Message :=
  .full ⟨65540, fullActivationAddCredit, 24, 700595⟩

/-- It is applied, and applied again. -/
theorem unfitMessage_replayed :
    (unfitMessage.carried (testEnv .enabled).secretKey
        = some ⟨.addCredit, 65540, true⟩ ∧
      InWindow (.ofStored lastStored) 65540 ∧
      (unfitMessage.apply (.default .full) (testEnv .enabled)
        (.ofStored lastStored)).1 = .validApplied) ∧
    ((unfitMessage.apply (.default .full) (testEnv .enabled)
        (unfitMessage.apply (.default .full) (testEnv .enabled)
          (.ofStored lastStored)).2.quiet).1 = .validApplied ∧
      .creditAdd 86400 ∈ (unfitMessage.apply (.default .full)
        (testEnv .enabled)
        (unfitMessage.apply (.default .full) (testEnv .enabled)
          (.ofStored lastStored)).2.quiet).2.effects) ∧
    ¬ ReplayRefused (.default .full) (testEnv .enabled)
      (.ofStored lastStored) unfitMessage := by
  refine ⟨⟨by decide +kernel, ⟨by decide, by decide⟩, by decide +kernel⟩,
    ⟨by decide +kernel, by decide +kernel⟩, fun h => ?_⟩
  have hdup := (h .enabled fun hmem => ?_).1
  · revert hdup
    decide +kernel
  · revert hmem
    decide +kernel

end Nexus.Keycode
