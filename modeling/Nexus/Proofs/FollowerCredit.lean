import Nexus.Channel.Core
import Nexus.Proofs.AccessoryLinks

/-!
# A follower without its controller

An accessory has credit only as long as a controller says so. When the
controller falls silent, the seconds since the last update run up to 75 and the
credit is set to zero; when the last link to a controller goes, the mode changes
from following to independent, and the credit is set to zero at once. Both are
seen by the credit's `process` only, and both rest on state that other code
writes: a GET overwrites the remembered mode, and a handshake deletes a link
before its successor is made.

The second is harmless because `process` makes the pending link before the
credit is looked after, and there is always room for it. The first is harmless
because the links do not change between the GET and `process`, unless a link is
pending. The seconds do not overflow: they are below 75 before the call, and
never more than the uptime.
-/

namespace Nexus.Channel

open Nexus.Lib Nexus.Util Nexus.Nv

variable {max : MaxLinks}

/-! ## What the credit module does for an accessory -/

namespace PaygCredit

variable {links : LinkManager max} {product : ProductCredit}
  {secondsElapsed : UInt32} {credit : PaygCredit}

/-- The seconds since the last update, as a number. -/
def seconds (credit : PaygCredit) : Nat :=
  credit.followerModeSecondsSinceCreditUpdated.toNat

theorem process_mode (initOk doOk : Bool) :
    (credit.process accessoryOnly links product initOk doOk
      secondsElapsed).credit.mode = links.creditOperatingMode := by
  simp [process, accessoryOnly]

/-- The part for a controller leaves the seconds alone. -/
theorem processLeading_seconds (paygState : Keycode.PaygState)
    (initOk doOk : Bool) (minSleep : UInt32) :
    (credit.processLeading links paygState initOk doOk secondsElapsed
        minSleep).2.2.followerModeSecondsSinceCreditUpdated
      = credit.followerModeSecondsSinceCreditUpdated := by
  simp only [processLeading, notePaygState, checkStoredIds, elapse,
    updateNext, postWhenDue, post, resetTimers]
  repeat' split
  all_goals rfl

variable {support : SupportedModes}

/-- What a following accessory does: the seconds grow until they are enough. -/
theorem process_following (hsupport : support.accessoryMode = true)
    (initOk doOk : Bool)
    (hlocked : product.getLatest ≠ unlockedSentinelValue)
    (hmode : links.creditOperatingMode = .following) :
    let seconds := credit.followerModeSecondsSinceCreditUpdated + secondsElapsed
    let r := credit.process support links product initOk doOk secondsElapsed
    (followerMaxTimeBetweenUpdatesSeconds ≤ seconds ∧ r.calls = [.set 0] ∧
      r.credit.followerModeSecondsSinceCreditUpdated = 0) ∨
    (seconds < followerMaxTimeBetweenUpdatesSeconds ∧ r.calls = [] ∧
      r.credit.followerModeSecondsSinceCreditUpdated = seconds) := by
  by_cases hdue : followerMaxTimeBetweenUpdatesSeconds
      ≤ credit.followerModeSecondsSinceCreditUpdated + secondsElapsed
  · refine .inl ⟨hdue, ?_⟩
    cases hleads : support.controllerMode <;>
      simp [process, hsupport, hleads, processFollowing, hlocked, hmode, hdue,
        processLeading_seconds]
  · refine .inr ⟨UInt32.not_le.mp hdue, ?_⟩
    cases hleads : support.controllerMode <;>
      simp [process, hsupport, hleads, processFollowing, hlocked, hmode, hdue,
        processLeading_seconds]

/-- An accessory that has lost its controllers has no credit; the seconds stay
as they are. -/
theorem process_independent (initOk doOk : Bool)
    (hlocked : product.getLatest ≠ unlockedSentinelValue)
    (hmode : links.creditOperatingMode = .independent) :
    let r := credit.process accessoryOnly links product initOk doOk
      secondsElapsed
    r.credit.followerModeSecondsSinceCreditUpdated
        = credit.followerModeSecondsSinceCreditUpdated ∧
      (credit.mode = .following →
        r.calls = [.set 0] ∧ r.credit.remaining = 0) := by
  by_cases hfollowed : credit.mode = .following
  · simp [process, accessoryOnly, processFollowing, hlocked, hmode, hfollowed]
  · simp [process, accessoryOnly, processFollowing, hlocked, hmode, hfollowed]

/-- A POST is refused and nothing happens, or the product is told and the credit
updated. -/
theorem postHandler_cases (support : SupportedModes)
    (links : LinkManager max) (payload : List Rep) (credit : PaygCredit) :
    let r := credit.postHandler support links payload
    (r.2.1 = [] ∧ r.2.2 = credit) ∨
      (r.2.1 ≠ [] ∧ ∃ newRemaining, r.2.2
        = (credit.updateFromPostOrGet support links newRemaining).2) := by
  rw [postHandler]
  dsimp only
  split
  · exact .inr ⟨List.cons_ne_nil _ _, _, rfl⟩
  · exact .inl ⟨rfl, rfl⟩

theorem getResponseHandler_cases (support : SupportedModes)
    (links : LinkManager max) (payload : List Rep) (credit : PaygCredit) :
    let r := credit.getResponseHandler support links payload
    (r.1 = [] ∧ r.2 = credit) ∨
      (r.1 ≠ [] ∧ ∃ newRemaining, r.2
        = (credit.updateFromPostOrGet support links newRemaining).2) := by
  rw [getResponseHandler]
  dsimp only
  split
  · exact .inr ⟨List.cons_ne_nil _ _, _, rfl⟩
  · exact .inl ⟨rfl, rfl⟩

/-- An update changes the credit, and the seconds at most to zero. -/
theorem updateFromPostOrGet_fields (support : SupportedModes)
    (newRemaining : UInt32) :
    let updated := (credit.updateFromPostOrGet support links newRemaining).2
    updated.mode = credit.mode ∧
      (updated.followerModeSecondsSinceCreditUpdated
          = credit.followerModeSecondsSinceCreditUpdated ∨
        updated.followerModeSecondsSinceCreditUpdated = 0) := by
  rw [updateFromPostOrGet]
  dsimp only
  split
  · exact ⟨rfl, .inr rfl⟩
  · exact ⟨rfl, .inl rfl⟩

end PaygCredit

/-! ## Messages -/

namespace ChannelDevice

variable {d : ChannelDevice max}

/-- The device at another uptime. -/
def atUptime (uptimeSeconds : UInt32) (d : ChannelDevice max) :
    ChannelDevice max :=
  { d with uptime := uptimeSeconds }

/-- What a message does to the seconds: nothing, unless it is an update and the
product is told. -/
theorem handle_cases (support : SupportedModes) (message : ChannelMessage) :
    let r := d.handle support message
    r.2.uptime = d.uptime ∧
      (r.1 = [] ∧ r.2.credit.followerModeSecondsSinceCreditUpdated
          = d.credit.followerModeSecondsSinceCreditUpdated ∨
        r.1 ≠ [] ∧ ∃ newRemaining, r.2.credit
          = (d.credit.updateFromPostOrGet support d.links newRemaining).2) := by
  cases message with
  | creditPost payload =>
      rcases d.credit.postHandler_cases support d.links payload with
        ⟨hcalls, hcredit⟩ | ⟨hcalls, newRemaining, hcredit⟩
      · exact ⟨rfl, .inl ⟨hcalls, congrArg
          PaygCredit.followerModeSecondsSinceCreditUpdated hcredit⟩⟩
      · exact ⟨rfl, .inr ⟨hcalls, newRemaining, hcredit⟩⟩
  | creditGetResponse payload =>
      rw [handle]
      split
      · rcases d.credit.getResponseHandler_cases support d.links payload with
          ⟨hcalls, hcredit⟩ | ⟨hcalls, newRemaining, hcredit⟩
        · exact ⟨rfl, .inl ⟨hcalls, congrArg
            PaygCredit.followerModeSecondsSinceCreditUpdated hcredit⟩⟩
        · exact ⟨rfl, .inr ⟨hcalls, newRemaining, hcredit⟩⟩
      · exact ⟨rfl, .inl ⟨rfl, rfl⟩⟩
  | creditGet product => exact ⟨rfl, .inl ⟨rfl, rfl⟩⟩
  | linkToController id securityMode data =>
      rw [handle]
      split
      · exact ⟨rfl, .inl ⟨rfl, rfl⟩⟩
      · exact ⟨rfl, .inl ⟨rfl, rfl⟩⟩
  | linkToAccessory id securityMode data =>
      rw [handle]
      split
      · exact ⟨rfl, .inl ⟨rfl, rfl⟩⟩
      · exact ⟨rfl, .inl ⟨rfl, rfl⟩⟩
  | setNonce id newNonce => exact ⟨rfl, .inl ⟨rfl, rfl⟩⟩
  | resetActive id => exact ⟨rfl, .inl ⟨rfl, rfl⟩⟩

theorem mainPoll_credit (support : SupportedModes)
    (messages : List ChannelMessage) (d : ChannelDevice max) :
    let r := mainPoll support messages d
    r.2.uptime = d.uptime ∧
      (r.2.credit.followerModeSecondsSinceCreditUpdated
          = d.credit.followerModeSecondsSinceCreditUpdated ∨
        r.1 ≠ [] ∧ r.2.credit.followerModeSecondsSinceCreditUpdated = 0) := by
  induction messages generalizing d with
  | nil => exact ⟨rfl, .inl rfl⟩
  | cons message messages ih =>
      obtain ⟨huptime, hfirst⟩ := @handle_cases max d support message
      obtain ⟨huptime', hrest⟩ := ih (d.handle support message).2
      refine ⟨huptime'.trans huptime, ?_⟩
      simp only [mainPoll, ne_eq, List.append_eq_nil_iff, not_and_or]
      rcases hrest with hsame | ⟨htold, hzero⟩
      · rw [hsame]
        rcases hfirst with ⟨-, hseconds⟩ | ⟨htold, newRemaining, hcredit⟩
        · exact .inl hseconds
        · rw [hcredit]
          exact (PaygCredit.updateFromPostOrGet_fields _ _).2.imp id
            fun hzero => ⟨.inl htold, hzero⟩
      · exact .inr ⟨.inr htold, hzero⟩

/-- The device when the messages of a call have been handled. -/
def polled (support : SupportedModes) (call : CoreCall)
    (d : ChannelDevice max) : ChannelDevice max :=
  (mainPoll support call.messages d).2

theorem polled_credit (support : SupportedModes) (call : CoreCall)
    (d : ChannelDevice max) :
    (d.polled support call).uptime = d.uptime ∧
      ((d.polled support call).credit.seconds = d.credit.seconds ∨
        (mainPoll support call.messages d).1 ≠ [] ∧
          (d.polled support call).credit.seconds = 0) := by
  obtain ⟨huptime, hsame | ⟨htold, hzero⟩⟩ :=
    mainPoll_credit support call.messages d
  · exact ⟨huptime, .inl (congrArg UInt32.toNat hsame)⟩
  · exact ⟨huptime, .inr ⟨htold, congrArg UInt32.toNat hzero⟩⟩

/-- While messages are handled: a link is pending, or there is a controller
exactly if there was one when the call began, and the remembered mode says
so. -/
structure Handled (linked : Bool) (d : ChannelDevice max) : Prop where
  links : AccessoryLinks d.links
  mode : d.links.pendingAddLink = true ∨
    (d.credit.mode = AccessoryLinks.modeWhen linked ∧
      d.links.hasLinkedController.isSome = linked)

namespace Handled

variable {linked : Bool}

/-- The links are still in use, and nothing else is pending. -/
theorem of_links (h : Handled linked d) {links : LinkManager max}
    (hlinks : AccessoryLinks links)
    (hpending : links.pendingAddLink = d.links.pendingAddLink)
    (huse : ∀ i, (links.slot i).inUse = (d.links.slot i).inUse) :
    Handled linked { d with links := links } := by
  refine ⟨hlinks, ?_⟩
  rcases h.mode with hadd | ⟨hmode, hlinked⟩
  · exact .inl (hpending.trans hadd)
  · exact .inr ⟨hmode,
      (AccessoryLinks.hasLinkedController_congr h.links hlinks huse).trans
        hlinked⟩

/-- A message about credit leaves the links alone. -/
theorem of_credit (h : Handled linked d) {credit : PaygCredit}
    (hmode : credit.mode = d.credit.mode ∨
      credit.mode = d.links.creditOperatingMode) :
    Handled linked { d with credit := credit } := by
  refine ⟨h.links, h.mode.imp id ?_⟩
  intro hcalm
  obtain ⟨hbefore, hlinked⟩ := hcalm
  rcases hmode with hsame | hnow
  · exact ⟨hsame.trans hbefore, hlinked⟩
  · refine ⟨?_, hlinked⟩
    rw [hnow, h.links.creditOperatingMode_eq, hlinked]

theorem linkToController (h : Handled linked d) (id : NxId)
    (securityMode : UInt8) (data : SecurityMode0Data) :
    Handled linked (d.handle accessoryOnly
      (.linkToController id securityMode data)).2 := by
  have hlinks := h.links.createLink id securityMode data
  rcases d.links.createLink_cases id .accessory securityMode data with
    heq | ⟨-, -, -, heq⟩ | ⟨i, -, -, -, heq⟩
  · rw [handle, heq]
    exact h
  · rw [heq] at hlinks
    rw [handle, heq]
    exact ⟨hlinks, .inl rfl⟩
  · rw [heq] at hlinks
    rw [handle, heq]
    exact ⟨hlinks, .inl rfl⟩

theorem handle (h : Handled linked d) (message : ChannelMessage) :
    Handled linked (d.handle accessoryOnly message).2 := by
  cases message with
  | creditPost payload =>
      refine h.of_credit (.inl ?_)
      rcases d.credit.postHandler_cases accessoryOnly d.links payload with
        ⟨-, hcredit⟩ | ⟨-, newRemaining, hcredit⟩
      · rw [hcredit]
      · rw [hcredit]
        exact (PaygCredit.updateFromPostOrGet_fields _ _).1
  | creditGetResponse payload =>
      refine h.of_credit (.inl ?_)
      rcases d.credit.getResponseHandler_cases accessoryOnly d.links payload
        with ⟨-, hcredit⟩ | ⟨-, newRemaining, hcredit⟩
      · rw [hcredit]
      · rw [hcredit]
        exact (PaygCredit.updateFromPostOrGet_fields _ _).1
  | creditGet product => exact h.of_credit (.inr rfl)
  | linkToController id securityMode data =>
      exact h.linkToController id securityMode data
  | linkToAccessory id securityMode data => exact h
  | setNonce id newNonce =>
      obtain ⟨hpending, huse⟩ := d.links.setNonce_unchanged id newNonce
      exact h.of_links (h.links.setNonce id newNonce) hpending huse
  | resetActive id =>
      obtain ⟨hpending, huse⟩ := d.links.resetActive_unchanged id
      exact h.of_links (h.links.resetActive id) hpending huse

theorem mainPoll (h : Handled linked d) (messages : List ChannelMessage) :
    Handled linked (ChannelDevice.mainPoll accessoryOnly messages d).2 := by
  induction messages generalizing d with
  | nil => exact h
  | cons message messages ih => exact ih (h.handle message)

theorem polled (h : Handled linked d) (call : CoreCall) :
    Handled linked (d.polled accessoryOnly call) :=
  h.mainPoll call.messages

end Handled

/-- What `nexus_channel_core_process` does with the seconds, if they do not
overflow: they grow while the device follows, until they are enough. -/
theorem coreProcess_seconds {linked : Bool} (h : Handled linked d)
    {call : CoreCall} {secondsElapsed : UInt32}
    (hlocked : call.product.getLatest ≠ unlockedSentinelValue)
    (hsmall : (d.polled accessoryOnly call).credit.seconds
      + secondsElapsed.toNat < 4294967296) :
    let before := (d.polled accessoryOnly call).credit.seconds
    let r := d.coreProcess accessoryOnly call secondsElapsed
    let after := r.device.credit.seconds
    (r.device.links.creditOperatingMode = .following ∧
      75 ≤ before + secondsElapsed.toNat ∧ r.calls = [.set 0] ∧ after = 0) ∨
    (r.device.links.creditOperatingMode = .following ∧
      before + secondsElapsed.toNat < 75 ∧ r.calls = [] ∧
      after = before + secondsElapsed.toNat) ∨
    (r.device.links.creditOperatingMode = .independent ∧ after = before) := by
  have hlinks := (h.polled call).links.process secondsElapsed
  have hsum :
      (PaygCredit.followerModeSecondsSinceCreditUpdated
        (d.polled accessoryOnly call).credit + secondsElapsed).toNat
      = (d.polled accessoryOnly call).credit.seconds
        + secondsElapsed.toNat := by
    rw [UInt32.toNat_add]
    exact Nat.mod_eq_of_lt hsmall
  have hlimit : followerMaxTimeBetweenUpdatesSeconds.toNat = 75 := rfl
  cases hlinked : ((d.polled accessoryOnly call).links.process
      secondsElapsed).hasLinkedController.isSome with
  | true =>
      have hmode : ((d.polled accessoryOnly call).links.process
          secondsElapsed).creditOperatingMode = .following := by
        rw [hlinks.creditOperatingMode_eq, hlinked]
        rfl
      rcases @PaygCredit.process_following _ _ _ secondsElapsed
          (d.polled accessoryOnly call).credit accessoryOnly rfl call.initOk
          call.doOk hlocked hmode with
        ⟨hdue, hcalls, hzero⟩ | ⟨hearly, hcalls, hseconds⟩
      · rw [UInt32.le_iff_toNat_le, hsum, hlimit] at hdue
        exact .inl ⟨hmode, hdue, hcalls, congrArg UInt32.toNat hzero⟩
      · rw [UInt32.lt_iff_toNat_lt, hsum, hlimit] at hearly
        exact .inr (.inl ⟨hmode, hearly, hcalls,
          (congrArg UInt32.toNat hseconds).trans hsum⟩)
  | false =>
      have hmode : ((d.polled accessoryOnly call).links.process
          secondsElapsed).creditOperatingMode = .independent := by
        rw [hlinks.creditOperatingMode_eq, hlinked]
        rfl
      have hkept := (@PaygCredit.process_independent _ _ _ secondsElapsed
        (d.polled accessoryOnly call).credit call.initOk
          call.doOk hlocked hmode).1
      exact .inr (.inr ⟨hmode, congrArg UInt32.toNat hkept⟩)

/-- With the last link to a controller the credit goes, in the same call. -/
theorem coreProcess_lost (h : Handled true d)
    {call : CoreCall} {secondsElapsed : UInt32}
    (hlocked : call.product.getLatest ≠ unlockedSentinelValue)
    (hlost : (d.coreProcess accessoryOnly call
      secondsElapsed).device.links.hasLinkedController.isSome = false) :
    (d.coreProcess accessoryOnly call secondsElapsed).calls = [.set 0] ∧
      (d.coreProcess accessoryOnly call
        secondsElapsed).device.credit.remaining = 0 := by
  have hpolled := h.polled call
  have hlinks := hpolled.links.process secondsElapsed
  have hmode : ((d.polled accessoryOnly call).links.process
      secondsElapsed).creditOperatingMode = .independent := by
    rw [hlinks.creditOperatingMode_eq]
    exact congrArg AccessoryLinks.modeWhen hlost
  rcases hpolled.mode with hadd | ⟨hfollowed, -⟩
  · have hadded := hpolled.links.hasLinkedController_process hadd secondsElapsed
    exact absurd (hlost.symm.trans hadded) Bool.false_ne_true
  · exact (@PaygCredit.process_independent _ _ _ secondsElapsed
      (d.polled accessoryOnly call).credit call.initOk
          call.doOk hlocked hmode).2 hfollowed

end ChannelDevice

/-! ## Whole runs -/

/-- What happens to an accessory. -/
inductive AccessoryEvent
  | process (call : CoreCall) (uptimeSeconds : UInt32)
  | deleteAllLinks
  | restart (product : ProductCredit) (initialUptime : UInt32)

/-- The device is not unlocked when the credit module looks. -/
def AccessoryEvent.Locked : AccessoryEvent → Prop
  | process call _ => call.product.getLatest ≠ unlockedSentinelValue
  | deleteAllLinks => True
  | restart product _ => product.getLatest ≠ unlockedSentinelValue

instance : DecidablePred AccessoryEvent.Locked
  | .process call _ =>
      inferInstanceAs (Decidable (call.product.getLatest ≠ _))
  | .deleteAllLinks => .isTrue trivial
  | .restart product _ => inferInstanceAs (Decidable (product.getLatest ≠ _))

/-- The device, the seconds reported to the credit's `process` in following
mode since the last update of the credit, or since the start, and whether the
credit has been set to zero since. -/
structure WatchedFollower (max : MaxLinks) where
  device : ChannelDevice max
  secondsSinceUpdate : Nat
  zeroedSinceUpdate : Bool

/-- The product is told something by a message exactly if the message updates
the credit. -/
def followerStep (w : WatchedFollower max) :
    AccessoryEvent → WatchedFollower max
  | .process call uptimeSeconds =>
      let r := w.device.commonProcess accessoryOnly call uptimeSeconds
      let reported :=
        if r.device.links.creditOperatingMode = .following then
          uptimeSeconds.toNat - w.device.uptime.toNat
        else 0
      let zeroed := decide (CreditCall.set 0 ∈ r.calls)
      if r.messageCalls = [] then
        ⟨r.device, w.secondsSinceUpdate + reported,
          w.zeroedSinceUpdate || zeroed⟩
      else ⟨r.device, reported, zeroed⟩
  | .deleteAllLinks => { w with device := w.device.deleteAllLinks }
  | .restart product initialUptime =>
      ⟨w.device.restart accessoryOnly product initialUptime, 0, false⟩

/-- A start leaves no credit, in the module and in the product. -/
def LeavesNoCredit (links : LinkManager max) (product : ProductCredit) : Prop :=
  (PaygCredit.init accessoryOnly links product).2.remaining = 0 ∧
    ((PaygCredit.init accessoryOnly links product).1 = [.set 0] ∨
      (PaygCredit.init accessoryOnly links product).1 = [] ∧
        product.getLatest = 0)

/-- What a step does when the controller is silent, or gone. -/
def LosesCredit (w : WatchedFollower max) (e : AccessoryEvent) : Prop :=
  (75 ≤ (followerStep w e).secondsSinceUpdate →
    (followerStep w e).zeroedSinceUpdate = true) ∧
  match e with
  | .process call uptimeSeconds =>
      let r := w.device.commonProcess accessoryOnly call uptimeSeconds
      w.device.links.hasLinkedController.isSome = true →
        r.device.links.hasLinkedController.isSome = false →
        .set 0 ∈ r.calls ∧ r.device.credit.remaining = 0
  | .deleteAllLinks => True
  | .restart product _ =>
      LeavesNoCredit (LinkManager.init max w.device.links.nv) product

/-- The seconds are below 75 and within the uptime, and count at least what has
been reported since the last update, until the credit is set to zero. -/
structure Follower (w : WatchedFollower max) : Prop where
  links : AccessoryLinks w.device.links
  calm : w.device.links.pendingAddLink = false
  mode : w.device.credit.mode
    = AccessoryLinks.modeWhen w.device.links.hasLinkedController.isSome
  seconds_lt : w.device.credit.seconds < 75
  seconds_le : w.device.credit.seconds ≤ w.device.uptime.toNat
  since_le : w.zeroedSinceUpdate = false →
    w.secondsSinceUpdate ≤ w.device.credit.seconds

namespace Follower

variable {w : WatchedFollower max}

theorem zeroed (h : Follower w) (hsilent : 75 ≤ w.secondsSinceUpdate) :
    w.zeroedSinceUpdate = true := by
  by_contra hfalse
  have hle := h.since_le (Bool.eq_false_iff.mpr hfalse)
  have hlt := h.seconds_lt
  omega

theorem handled_at (h : Follower w) (uptimeSeconds : UInt32) :
    ChannelDevice.Handled w.device.links.hasLinkedController.isSome
      (w.device.atUptime uptimeSeconds) :=
  ⟨h.links, .inr ⟨h.mode, rfl⟩⟩

theorem init {links : LinkManager max} (hlinks : AccessoryLinks links)
    (hcalm : links.pendingAddLink = false) (product : ProductCredit)
    (initialUptime : UInt32) :
    Follower ⟨.start accessoryOnly links product initialUptime, 0, false⟩ :=
  ⟨hlinks, hcalm, hlinks.creditOperatingMode_eq, Nat.succ_pos 74,
    Nat.zero_le _, fun _ => Nat.zero_le _⟩

theorem leavesNoCredit {links : LinkManager max} (h : AccessoryLinks links)
    {product : ProductCredit}
    (hlocked : product.getLatest ≠ unlockedSentinelValue) :
    LeavesNoCredit links product := by
  have hzero : PaygCredit.calculateInitialCredit accessoryOnly
      links.creditOperatingMode product.getLatest = 0 := by
    rw [h.creditOperatingMode_eq]
    cases links.hasLinkedController.isSome with
    | true =>
        simp [AccessoryLinks.modeWhen, PaygCredit.calculateInitialCredit,
          hlocked]
    | false =>
        simp [AccessoryLinks.modeWhen, PaygCredit.calculateInitialCredit,
          accessoryOnly, hlocked]
  refine ⟨hzero, ?_⟩
  simp only [PaygCredit.init, hzero]
  by_cases hstored : product.getLatest = 0
  · exact .inr ⟨by simp [hstored], hstored⟩
  · exact .inl (if_pos (Ne.symm hstored))

/-- The links and the remembered mode after a call. -/
theorem mode_coreProcess {linked : Bool} {d : ChannelDevice max}
    (h : ChannelDevice.Handled linked d) (call : CoreCall)
    (secondsElapsed : UInt32) :
    let r := d.coreProcess accessoryOnly call secondsElapsed
    AccessoryLinks r.device.links ∧ r.device.links.pendingAddLink = false ∧
      r.device.credit.mode
        = AccessoryLinks.modeWhen
          r.device.links.hasLinkedController.isSome := by
  have hlinks := (h.polled call).links.process secondsElapsed
  exact ⟨hlinks, AccessoryLinks.calm_process secondsElapsed,
    (PaygCredit.process_mode call.initOk call.doOk).trans
      hlinks.creditOperatingMode_eq⟩

/-- What has been reported up to the messages of this call, and whether the
credit has been set to zero, from the last update on. -/
theorem since_messages (h : Follower w) (call : CoreCall)
    (uptimeSeconds : UInt32)
    (hforward : w.device.uptime ≤ uptimeSeconds) :
    let d := w.device.atUptime uptimeSeconds
    let r := d.coreProcess accessoryOnly call (uptimeSeconds - w.device.uptime)
    ∃ since zeroed,
      (zeroed = false →
        since ≤ (d.polled accessoryOnly call).credit.seconds) ∧
      followerStep w (.process call uptimeSeconds)
        = ⟨r.device, since + (
            if r.device.links.creditOperatingMode = .following then
              uptimeSeconds.toNat - w.device.uptime.toNat
            else 0),
          zeroed || decide (CreditCall.set 0 ∈ r.calls)⟩ := by
  intro d r
  have hcall : w.device.commonProcess accessoryOnly call uptimeSeconds = r :=
    if_neg (UInt32.not_lt.mpr hforward)
  obtain ⟨-, hseconds⟩ := ChannelDevice.polled_credit accessoryOnly call d
  by_cases htold : r.messageCalls = []
  · refine ⟨w.secondsSinceUpdate, w.zeroedSinceUpdate, ?_, ?_⟩
    · intro hzeroed
      rcases hseconds with hsame | ⟨htold', -⟩
      · rw [hsame]
        exact h.since_le hzeroed
      · exact absurd htold htold'
    · rw [followerStep, hcall]
      exact if_pos htold
  · refine ⟨0, false, fun _ => Nat.zero_le _, ?_⟩
    rw [followerStep, hcall, Nat.zero_add, Bool.false_or]
    exact if_neg htold

/-- A call of `nx_common_process` whose uptime has not gone back. -/
theorem process_forward (h : Follower w) {call : CoreCall}
    {uptimeSeconds : UInt32}
    (hlocked : call.product.getLatest ≠ unlockedSentinelValue)
    (hforward : w.device.uptime ≤ uptimeSeconds) :
    Follower (followerStep w (.process call uptimeSeconds)) := by
  have hhandled := h.handled_at uptimeSeconds
  obtain ⟨huptime, hseconds⟩ := ChannelDevice.polled_credit accessoryOnly
    call (w.device.atUptime uptimeSeconds)
  obtain ⟨hlinks, hcalm, hmode⟩ := mode_coreProcess hhandled call
    (uptimeSeconds - w.device.uptime)
  obtain ⟨since, zeroed, hsince, hstep⟩ := h.since_messages call
    uptimeSeconds hforward
  have huptime' : ((w.device.atUptime uptimeSeconds).polled
      accessoryOnly call).uptime.toNat
        = uptimeSeconds.toNat := congrArg UInt32.toNat huptime
  have helapsed : (uptimeSeconds - w.device.uptime).toNat
      = uptimeSeconds.toNat - w.device.uptime.toNat :=
    UInt32.toNat_sub_of_le _ _ hforward
  have hle := UInt32.le_iff_toNat_le.mp hforward
  have hlt := uptimeSeconds.toNat_lt
  have hlt75 := h.seconds_lt
  have hle' := h.seconds_le
  have hbefore : ((w.device.atUptime uptimeSeconds).polled
      accessoryOnly call).credit.seconds
        ≤ w.device.credit.seconds := by
    rcases hseconds with hsame | ⟨-, hzero⟩
    · exact hsame.le
    · exact hzero.le.trans (Nat.zero_le _)
  have hsmall : ((w.device.atUptime uptimeSeconds).polled
      accessoryOnly call).credit.seconds
        + (uptimeSeconds - w.device.uptime).toNat < 4294967296 := by
    rw [helapsed]
    omega
  have hafter := ChannelDevice.coreProcess_seconds hhandled hlocked hsmall
  rw [helapsed] at hafter
  rw [hstep]
  rcases hafter with ⟨hfollowing, hdue, hcalls, hzero⟩ |
    ⟨hfollowing, hearly, hcalls, hgrown⟩ | ⟨hindependent, hsame⟩
  · refine ⟨hlinks, hcalm, hmode, ?_, ?_, ?_⟩
    · exact hzero.le.trans_lt (Nat.succ_pos 74)
    · exact hzero.le.trans (Nat.zero_le _)
    · intro hnever
      rw [hcalls, Bool.or_eq_false_iff] at hnever
      exact absurd hnever.2 (by decide)
  · refine ⟨hlinks, hcalm, hmode, ?_, ?_, ?_⟩
    · exact hgrown.le.trans_lt hearly
    · refine hgrown.le.trans (le_of_le_of_eq ?_ huptime'.symm)
      omega
    · intro hnever
      rw [Bool.or_eq_false_iff] at hnever
      have hreported := hsince hnever.1
      simp only [if_pos hfollowing]
      omega
  · refine ⟨hlinks, hcalm, hmode, ?_, ?_, ?_⟩
    · exact hsame.le.trans_lt (hbefore.trans_lt hlt75)
    · refine hsame.le.trans (le_of_le_of_eq ?_ huptime'.symm)
      omega
    · intro hnever
      rw [Bool.or_eq_false_iff] at hnever
      have hreported := hsince hnever.1
      have hmode' : ¬ CreditOperatingMode.independent = .following := by decide
      simp only [hindependent, if_neg hmode']
      omega

theorem step (h : Follower w) {e : AccessoryEvent} (hlocked : e.Locked) :
    Follower (followerStep w e) := by
  cases e with
  | process call uptimeSeconds =>
      by_cases hback : uptimeSeconds < w.device.uptime
      · have hcall : w.device.commonProcess accessoryOnly call uptimeSeconds
            = ⟨[], [], w.device⟩ := if_pos hback
        have hlt := UInt32.lt_iff_toNat_lt.mp hback
        have hsame : followerStep w (.process call uptimeSeconds)
            = w := by
          rw [followerStep, hcall]
          simp [Nat.sub_eq_zero_of_le hlt.le]
        rw [hsame]
        exact h
      · exact h.process_forward hlocked (UInt32.not_lt.mp hback)
  | deleteAllLinks =>
      exact ⟨h.links.clearAllLinks, h.calm, h.mode, h.seconds_lt,
        h.seconds_le, h.since_le⟩
  | restart product initialUptime =>
      exact init h.links.restart (LinkManager.pendingAddLink_init _) product
        initialUptime

theorem losesCredit (h : Follower w) {e : AccessoryEvent}
    (hlocked : e.Locked) : LosesCredit w e := by
  refine ⟨(h.step hlocked).zeroed, ?_⟩
  cases e with
  | process call uptimeSeconds =>
      intro hlinked hlost
      by_cases hback : uptimeSeconds < w.device.uptime
      · have hcall : w.device.commonProcess accessoryOnly call uptimeSeconds
            = ⟨[], [], w.device⟩ := if_pos hback
        rw [hcall] at hlost
        exact absurd (hlost.symm.trans hlinked) Bool.false_ne_true
      · have hcall : w.device.commonProcess accessoryOnly call uptimeSeconds
            = ChannelDevice.coreProcess accessoryOnly call
              (uptimeSeconds - w.device.uptime)
              (w.device.atUptime uptimeSeconds) := if_neg hback
        have hhandled := h.handled_at uptimeSeconds
        rw [hlinked] at hhandled
        rw [hcall] at hlost ⊢
        obtain ⟨hcalls, hremaining⟩ :=
          ChannelDevice.coreProcess_lost hhandled hlocked hlost
        rw [hcalls]
        exact ⟨List.mem_singleton.mpr rfl, hremaining⟩
  | deleteAllLinks => trivial
  | restart product initialUptime =>
      exact leavesNoCredit h.links.restart hlocked

end Follower

/-- From the first start on, through messages, lost links and restarts: a
controller that is silent for 75 seconds, or gone, has its follower lose the
credit, and so does every start. -/
theorem follower_loses_credit {nv : Store}
    (hfactory : ∀ i : Fin max.count,
      FactoryBlock (nv (indexToNvBlock i).blockId))
    {product : ProductCredit}
    (hproduct : product.getLatest ≠ unlockedSentinelValue)
    (initialUptime : UInt32) {events : List AccessoryEvent}
    (hlocked : ∀ e ∈ events, e.Locked) :
    LeavesNoCredit (LinkManager.init max nv) product ∧
      Along followerStep LosesCredit
        ⟨.start accessoryOnly (LinkManager.init max nv) product initialUptime,
          0, false⟩ events := by
  have hlinks := AccessoryLinks.init_factory hfactory
  have hcalm := @LinkManager.pendingAddLink_init max nv
  exact ⟨Follower.leavesNoCredit hlinks hproduct,
    along_of_invariant (fun _ _ h => h.step) (fun _ _ h => h.losesCredit)
      (Follower.init hlinks hcalm product initialUptime)
      (along_of_forall hlocked)⟩

/-- A call with these messages. -/
def lockedCall (messages : List ChannelMessage) : CoreCall :=
  ⟨messages, ⟨.enabled, 100⟩, true, true⟩

/-- A POST of 100 seconds. -/
def creditOf100 : ChannelMessage :=
  .creditPost [⟨creditRemainingShortPropName, .int 100⟩]

/-- The device is linked, gets credit, hears nothing for 75 seconds, gets credit
again and loses its link. -/
def followerLife : List AccessoryEvent :=
  [.process (lockedCall [.linkToController ⟨1, 2⟩ securityModeCoseMac0
      ⟨integrityCheckFixed00Key, 0⟩]) 10,
    .process (lockedCall [creditOf100]) 20,
    .process (lockedCall []) 95,
    .process (lockedCall [creditOf100, .creditGet ⟨.enabled, 100⟩]) 100,
    .deleteAllLinks,
    .process (lockedCall [.creditGet ⟨.enabled, 100⟩]) 101]

theorem followerLife_loses_credit :
    LeavesNoCredit (LinkManager.init ⟨2, by decide, by decide⟩ fun _ => none)
        ⟨.enabled, 100⟩ ∧
      Along followerStep LosesCredit
        ⟨.start accessoryOnly
          (LinkManager.init ⟨2, by decide, by decide⟩ fun _ => none)
          ⟨.enabled, 100⟩ 0, 0, false⟩ followerLife :=
  follower_loses_credit (fun _ => .inl rfl) (by decide) 0 (by decide)

end Nexus.Channel
