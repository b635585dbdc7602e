import Nexus.Lib.Watchdog
import Nexus.Proofs.FollowerCredit

/-!
# Credit that has just arrived

A follower loses its credit after 75 seconds without an update. The seconds are
those that the calls of `nexus_channel_core_process` report, and a call that
handles an update clears the counter first and then adds its own seconds, which
had passed before the update was handled. So the credit may go too early, and in
the very call that set it.

The counter is a watchdog that is fed late. How late it fires depends on the
seconds of the call that handled the latest update.
-/

namespace Nexus.Channel

open Nexus.Lib Nexus.Util

variable {max : MaxLinks}

/-- The message updates the credit. -/
def ChannelMessage.updates (support : SupportedModes) : ChannelMessage → Bool
  | .creditPost payload =>
      !(PaygCredit.evaluatePayloadExtractCredit payload 0).1
  | .creditGetResponse payload =>
      support.accessoryMode
        && !(PaygCredit.evaluatePayloadExtractCredit payload 0).1
  | _ => false

def CoreCall.updates (support : SupportedModes) (call : CoreCall) : Bool :=
  call.messages.any (ChannelMessage.updates support)

/-! ## The messages of one call -/

namespace PaygCredit

variable {support : SupportedModes} {links : LinkManager max}
  {credit : PaygCredit} {payload : List Rep}

/-- An update of a follower clears the seconds. -/
theorem updateFromPostOrGet_following (newRemaining : UInt32)
    (hsupport : support.accessoryMode = true)
    (hmode : links.creditOperatingMode = .following) :
    (credit.updateFromPostOrGet support links newRemaining).2.seconds = 0 := by
  rw [updateFromPostOrGet, if_pos ⟨hsupport, hmode⟩]
  rfl

theorem postHandler_following (hsupport : support.accessoryMode = true)
    (hmode : links.creditOperatingMode = .following) :
    (credit.postHandler support links payload).2.2.seconds
      = if (evaluatePayloadExtractCredit payload 0).1 = false then 0
        else credit.seconds := by
  rw [postHandler]
  dsimp only
  split
  · exact updateFromPostOrGet_following _ hsupport hmode
  · rfl

theorem getResponseHandler_following
    (hsupport : support.accessoryMode = true)
    (hmode : links.creditOperatingMode = .following) :
    (credit.getResponseHandler support links payload).2.seconds
      = if (evaluatePayloadExtractCredit payload 0).1 = false then 0
        else credit.seconds := by
  rw [getResponseHandler]
  dsimp only
  split
  · exact updateFromPostOrGet_following _ hsupport hmode
  · rfl

end PaygCredit

namespace ChannelDevice

variable {support : SupportedModes} {d : ChannelDevice max}

/-- The device follows whenever a message is handled. -/
def FollowsThrough (support : SupportedModes) : List ChannelMessage →
    ChannelDevice max → Prop
  | [], _ => True
  | message :: messages, d =>
      d.links.creditOperatingMode = .following ∧
        FollowsThrough support messages (d.handle support message).2

instance FollowsThrough.decidable (support : SupportedModes) :
    ∀ (messages : List ChannelMessage) (d : ChannelDevice max),
      Decidable (FollowsThrough support messages d)
  | [], _ => .isTrue trivial
  | message :: messages, d =>
      have := FollowsThrough.decidable support messages
        (d.handle support message).2
      inferInstanceAs (Decidable (_ ∧ _))

theorem handle_seconds (hsupport : support.accessoryMode = true)
    (hmode : d.links.creditOperatingMode = .following)
    (message : ChannelMessage) :
    (d.handle support message).2.credit.seconds
      = if message.updates support then 0 else d.credit.seconds := by
  cases message with
  | creditPost payload =>
      refine (PaygCredit.postHandler_following hsupport hmode).trans ?_
      simp [ChannelMessage.updates]
  | creditGetResponse payload =>
      rw [handle, if_pos hsupport]
      refine (PaygCredit.getResponseHandler_following hsupport hmode).trans ?_
      simp [ChannelMessage.updates, hsupport]
  | creditGet product => rfl
  | linkToController id securityMode data =>
      rw [handle, if_pos hsupport]
      rfl
  | linkToAccessory id securityMode data =>
      rw [handle]
      split
      · rfl
      · rfl
  | setNonce id newNonce => rfl
  | resetActive id => rfl

theorem mainPoll_seconds (hsupport : support.accessoryMode = true)
    {messages : List ChannelMessage}
    (hmode : FollowsThrough support messages d) :
    (mainPoll support messages d).2.credit.seconds
      = if messages.any (ChannelMessage.updates support) then 0
        else d.credit.seconds := by
  induction messages generalizing d with
  | nil => rfl
  | cons message messages ih =>
      have hrest := ih hmode.2
      rw [handle_seconds hsupport hmode.1] at hrest
      refine hrest.trans ?_
      rw [List.any_cons]
      cases messages.any (ChannelMessage.updates support) with
      | true => simp
      | false => simp

end ChannelDevice

/-! ## Whole runs -/

/-- A device, the seconds of the call that handled the latest update, and the
seconds of the calls since. -/
structure WatchedCredit (max : MaxLinks) where
  device : ChannelDevice max
  carried : Nat
  since : Nat

/-- A call of `nexus_channel_core_process` with its seconds. -/
def creditStep (support : SupportedModes) (w : WatchedCredit max)
    (a : CoreCall × UInt32) : WatchedCredit max :=
  let device := (w.device.coreProcess support a.1 a.2).device
  if a.1.updates support then ⟨device, a.2.toNat, 0⟩
  else ⟨device, w.carried, w.since + a.2.toNat⟩

/-- The device follows and is not unlocked, whenever the credit module looks. -/
def Following (support : SupportedModes) (w : WatchedCredit max)
    (a : CoreCall × UInt32) : Prop :=
  ChannelDevice.FollowsThrough support a.1.messages w.device ∧
    (w.device.coreProcess support a.1 a.2).device.links.creditOperatingMode
      = .following ∧
    a.1.product.getLatest ≠ unlockedSentinelValue

instance (support : SupportedModes) (w : WatchedCredit max)
    (a : CoreCall × UInt32) : Decidable (Following support w a) :=
  inferInstanceAs (Decidable (_ ∧ _ ∧ _))

/-- The credit times out only when the calls since the update have reported 75
seconds. -/
def ExpiresLate (support : SupportedModes) (w : WatchedCredit max)
    (a : CoreCall × UInt32) : Prop :=
  .set 0 ∈ (w.device.coreProcess support a.1 a.2).calls →
    75 ≤ (creditStep support w a).since

instance (support : SupportedModes) (w : WatchedCredit max)
    (a : CoreCall × UInt32) : Decidable (ExpiresLate support w a) :=
  inferInstanceAs (Decidable (_ → _))

/-- The seconds of the call that handled the update do not make up what is
missing to 75. -/
def CarriesLittle (support : SupportedModes) (w : WatchedCredit max)
    (a : CoreCall × UInt32) : Prop :=
  75 ≤ (creditStep support w a).carried + (creditStep support w a).since →
    75 ≤ (creditStep support w a).since

instance (support : SupportedModes) (w : WatchedCredit max)
    (a : CoreCall × UInt32) : Decidable (CarriesLittle support w a) :=
  inferInstanceAs (Decidable (_ → _))

/-- The counter of a follower, as a watchdog. -/
def creditWatchdog (max : MaxLinks) (support : SupportedModes) :
    Watchdog (WatchedCredit max) (CoreCall × UInt32) where
  step := creditStep support
  fed _ a := a.1.updates support = true
  elapsed a := a.2.toNat
  fires w a := .set 0 ∈ (w.device.coreProcess support a.1 a.2).calls
  counter w := w.device.credit.seconds
  carried := WatchedCredit.carried
  since := WatchedCredit.since
  limit := 75
  modulus := 4294967296

section

variable {support : SupportedModes} {w : WatchedCredit max}
  {a : CoreCall × UInt32}

theorem creditStep_device :
    (creditStep support w a).device
      = (w.device.coreProcess support a.1 a.2).device := by
  rw [creditStep]
  split
  · rfl
  · rfl

/-- What the call does with the counter, as the messages leave it. -/
theorem coreProcess_counter (hsupport : support.accessoryMode = true)
    (h : Following support w a) {counter : Nat}
    (hcounter : (if a.1.updates support then 0 else w.device.credit.seconds)
      = counter)
    (hsmall : counter + a.2.toNat < 4294967296) :
    ((creditWatchdog max support).fires w a ∧ 75 ≤ counter + a.2.toNat ∧
      (creditStep support w a).device.credit.seconds = 0) ∨
    (¬ (creditWatchdog max support).fires w a ∧ counter + a.2.toNat < 75 ∧
      (creditStep support w a).device.credit.seconds
        = counter + a.2.toNat) := by
  obtain ⟨hthrough, hmode, hlocked⟩ := h
  have hpolled := ChannelDevice.mainPoll_seconds hsupport hthrough
  rw [CoreCall.updates] at hcounter
  rw [hcounter] at hpolled
  have hsum : (PaygCredit.followerModeSecondsSinceCreditUpdated
        (ChannelDevice.mainPoll support a.1.messages w.device).2.credit
          + a.2).toNat = counter + a.2.toNat := by
    rw [UInt32.toNat_add, ← hpolled]
    rw [← hpolled] at hsmall
    exact Nat.mod_eq_of_lt hsmall
  have hlimit : followerMaxTimeBetweenUpdatesSeconds.toNat = 75 := rfl
  rw [creditStep_device]
  rcases @PaygCredit.process_following _ _ _ a.2
      (ChannelDevice.mainPoll support a.1.messages w.device).2.credit support
      hsupport a.1.initOk a.1.doOk hlocked hmode with
    ⟨hdue, hcalls, hzero⟩ | ⟨hearly, hcalls, hseconds⟩
  · rw [UInt32.le_iff_toNat_le, hsum, hlimit] at hdue
    refine .inl ⟨?_, hdue, congrArg UInt32.toNat hzero⟩
    have hfires := List.mem_singleton.mpr (Eq.refl (CreditCall.set 0))
    rw [← hcalls] at hfires
    exact hfires
  · rw [UInt32.lt_iff_toNat_lt, hsum, hlimit] at hearly
    refine .inr ⟨?_, hearly, (congrArg UInt32.toNat hseconds).trans hsum⟩
    intro hfires
    have hmem : CreditCall.set 0 ∈ ([] : List CreditCall) := by
      rw [← hcalls]
      exact hfires
    cases hmem

theorem creditWatchdog_lawful (hsupport : support.accessoryMode = true) :
    (creditWatchdog max support).Lawful (Following support) where
  elapsed_lt a := a.2.toNat_lt
  limit_le := by
    show 2 * 75 ≤ 4294967296
    decide
  fed_ghosts w a _ hfed := by
    simp only [creditWatchdog, creditStep] at hfed ⊢
    rw [if_pos hfed]
    exact ⟨rfl, rfl⟩
  unfed_ghosts w a _ hunfed := by
    simp only [creditWatchdog, creditStep] at hunfed ⊢
    rw [if_neg hunfed]
    exact ⟨rfl, rfl⟩
  fed_fires w a h hfed := by
    have hcounter := coreProcess_counter hsupport h (if_pos hfed)
      ((Nat.zero_add _).trans_lt a.2.toNat_lt)
    rw [Nat.zero_add] at hcounter
    exact hcounter
  unfed_fires w a h hunfed hsmall :=
    coreProcess_counter hsupport h (if_neg hunfed) hsmall

end

/-- A follower's credit times out late exactly if no call that handled an update
carries too much. What the counter holds at the beginning stands for the calls
before. -/
theorem expires_late_iff {support : SupportedModes}
    (hsupport : support.accessoryMode = true) (d : ChannelDevice max)
    {calls : List (CoreCall × UInt32)}
    (hfollowing : Along (creditStep support) (Following support)
      ⟨d, 0, d.credit.seconds⟩ calls) :
    Along (creditStep support) (ExpiresLate support)
        ⟨d, 0, d.credit.seconds⟩ calls ↔
      Along (creditStep support) (CarriesLittle support)
        ⟨d, 0, d.credit.seconds⟩ calls := by
  refine (creditWatchdog_lawful hsupport).firesLate_iff ?_ hfollowing
  by_cases hlt : d.credit.seconds < 75
  · exact .inl ⟨(Nat.zero_add _).symm, hlt⟩
  · exact .inr (Nat.le_of_not_lt hlt)

/-- A device just after it was linked to a controller. -/
def linkedFollower : ChannelDevice ⟨2, by decide, by decide⟩ :=
  (ChannelDevice.coreProcess accessoryOnly (lockedCall [.linkToController ⟨1, 2⟩
    securityModeCoseMac0 ⟨integrityCheckFixed00Key, 0⟩]) 0
    (.start accessoryOnly (LinkManager.init _ fun _ => none)
      ⟨.enabled, 100⟩ 0)).device

/-- Credit that arrives in time is kept for its 75 seconds. -/
theorem linkedFollower_expires_late :
    Along (creditStep accessoryOnly) (ExpiresLate accessoryOnly)
        ⟨linkedFollower, 0, linkedFollower.credit.seconds⟩
        [(lockedCall [creditOf100], 0), (lockedCall [], 74),
          (lockedCall [], 1)] ↔
      Along (creditStep accessoryOnly) (CarriesLittle accessoryOnly)
        ⟨linkedFollower, 0, linkedFollower.credit.seconds⟩
        [(lockedCall [creditOf100], 0), (lockedCall [], 74),
          (lockedCall [], 1)] :=
  expires_late_iff rfl linkedFollower (by decide +kernel)

/-- Credit that is handled after 100 seconds without a call expires in the
same call. -/
theorem linkedFollower_expires_at_once :
    Along (creditStep accessoryOnly) (Following accessoryOnly)
        ⟨linkedFollower, 0, linkedFollower.credit.seconds⟩
        [(lockedCall [creditOf100], 100)] ∧
      ¬ Along (creditStep accessoryOnly) (ExpiresLate accessoryOnly)
        ⟨linkedFollower, 0, linkedFollower.credit.seconds⟩
        [(lockedCall [creditOf100], 100)] := by
  constructor
  · decide +kernel
  · decide +kernel

end Nexus.Channel
