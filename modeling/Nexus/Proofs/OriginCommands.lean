import Nexus.Channel.OriginManager
import Nexus.Lib.Run
import Nexus.Proofs.StoredWindow

/-!
# Each origin command at most once

A command carries no number: the receiver looks for one of the window that has
not been used and under which the MAC is valid. The numbers used so far are
the ids of a sliding window, and applying a command takes one that is not among
them. Everything that stops a command on the way leaves RAM and NV as they
are, and so does a restart.
-/

namespace Nexus.Channel

open Nexus.Util Nexus.Nv Nexus.Lib

/-! ## A valid MAC -/

/-- The body as it enters the MAC. -/
def OmCommandMessage.bodyBytes (message : OmCommandMessage) : List UInt8 :=
  match message.type with
  | .genericControllerAction => le32 message.body.actionType
  | .accessoryActionUnlock | .accessoryActionUnlink =>
      le16 message.body.computedAccessoryId.authorityId
        ++ le32 message.body.computedAccessoryId.deviceId
  | .createAccessoryLinkMode3 => le32 message.body.accessoryChallenge
  | .invalid => []

/-- The MAC of the message is the one of its id, type and body. -/
structure OmCommandMessage.Authentic (message : OmCommandMessage)
    (originKey : CheckKey) : Prop where
  type : message.type ≠ .invalid
  auth : message.auth = asciiAuthArbitraryBytes
    (message.headBytes ++ message.bodyBytes) originKey

section

variable {message message' : OmCommandMessage} {originKey : CheckKey}

theorem accessoryRound_of_ne {s : AccessorySearch} {a : NxId}
    (h : a.deviceId % 10 ≠ message.body.truncDigitsInt) :
    accessoryRound message originKey s a = s := by
  unfold accessoryRound
  rw [if_pos h]

theorem accessoryRound_of_eq {success : Bool} {id a : NxId}
    (h : a.deviceId % 10 = message.body.truncDigitsInt) :
    accessoryRound message originKey ⟨5, success, id⟩ a
      = if asciiAuthArbitraryBytes (message.headBytes
            ++ (le16 a.authorityId ++ le32 a.deviceId)) originKey
          = message.auth then ⟨11, true, a⟩
        else ⟨5, success, id⟩ := by
  have htake : (message.headBytes ++ le16 a.authorityId
      ++ le32 a.deviceId ++ List.replicate 4 0).take (5 + 6 : UInt8).toNat
      = message.headBytes ++ (le16 a.authorityId ++ le32 a.deviceId) := by
    simp [OmCommandMessage.headBytes, le16, le32]
  unfold accessoryRound
  rw [if_neg (not_not.mpr h)]
  simp only [htake]
  rfl

theorem foldl_accessoryRound_of_ne {l : List NxId} {s : AccessorySearch}
    (h : ∀ a ∈ l, a.deviceId % 10 ≠ message.body.truncDigitsInt) :
    l.foldl (accessoryRound message originKey) s = s := by
  induction l with
  | nil => rfl
  | cons a l ih =>
      rw [List.foldl_cons, accessoryRound_of_ne (h a List.mem_cons_self)]
      exact ih fun b hb => h b (List.mem_cons_of_mem a hb)

/-- The last digits of the accessories differ, so no round follows a match that
could count its six bytes twice. -/
theorem accessory_of_success {l : List NxId}
    (hl : l.Pairwise fun a b => a.deviceId % 10 ≠ b.deviceId % 10)
    {id : NxId} {t : AccessorySearch}
    (ht : l.foldl (accessoryRound message originKey) ⟨5, false, id⟩ = t)
    (h : t.success = true) :
    asciiAuthArbitraryBytes (message.headBytes
        ++ (le16 t.computedAccessoryId.authorityId
          ++ le32 t.computedAccessoryId.deviceId)) originKey
      = message.auth := by
  induction l with
  | nil =>
      subst ht
      cases h
  | cons a l ih =>
      obtain ⟨ha, hl⟩ := List.pairwise_cons.mp hl
      rw [List.foldl_cons] at ht
      by_cases hne : a.deviceId % 10 = message.body.truncDigitsInt
      · rw [accessoryRound_of_eq hne] at ht
        by_cases hcheck : asciiAuthArbitraryBytes (message.headBytes
            ++ (le16 a.authorityId ++ le32 a.deviceId)) originKey
            = message.auth
        · rw [if_pos hcheck, foldl_accessoryRound_of_ne fun b hb =>
            hne ▸ (ha b hb).symm] at ht
          subst ht
          exact hcheck
        · rw [if_neg hcheck] at ht
          exact ih hl ht
      · rw [accessoryRound_of_ne hne] at ht
        exact ih hl ht

theorem of_inferAccessory (h : inferAccessory message originKey = some message') :
    asciiAuthArbitraryBytes (message.headBytes
        ++ (le16 message'.body.computedAccessoryId.authorityId
          ++ le32 message'.body.computedAccessoryId.deviceId)) originKey
        = message.auth ∧
      message'.type = message.type ∧ message'.auth = message.auth ∧
      message'.computedCommandId = message.computedCommandId := by
  have hdigits : accessoriesList.reverse.Pairwise
      fun a b => a.deviceId % 10 ≠ b.deviceId % 10 := by decide
  unfold inferAccessory at h
  split at h
  · cases h
  · simp only [Option.ite_none_right_eq_some, Option.some.injEq] at h
    obtain ⟨hsuccess, rfl⟩ := h
    exact ⟨accessory_of_success hdigits rfl hsuccess, rfl, rfl, rfl⟩

/-- A message whose MAC is found valid is authentic, and only its inner fields
have been filled in. -/
theorem authentic_of_inferInner
    (h : asciiMessageInferInnerComputeAuth message originKey
      = some message') :
    message'.Authentic originKey ∧
      message'.computedCommandId = message.computedCommandId := by
  unfold asciiMessageInferInnerComputeAuth at h
  split at h
  · next htype =>
      simp only [Option.ite_none_right_eq_some, Option.some.injEq] at h
      obtain ⟨hcheck, rfl⟩ := h
      refine ⟨⟨by simp [htype], ?_⟩, rfl⟩
      simp only [OmCommandMessage.bodyBytes, htype, hcheck]
  · next htype =>
      obtain ⟨hcheck, htype', hauth, hid⟩ := of_inferAccessory h
      refine ⟨⟨by simp [htype', htype], ?_⟩, hid⟩
      simp only [OmCommandMessage.headBytes, OmCommandMessage.bodyBytes,
        htype', htype, hauth, hid] at hcheck ⊢
      exact hcheck.symm
  · next htype =>
      obtain ⟨hcheck, htype', hauth, hid⟩ := of_inferAccessory h
      refine ⟨⟨by simp [htype', htype], ?_⟩, hid⟩
      simp only [OmCommandMessage.headBytes, OmCommandMessage.bodyBytes,
        htype', htype, hauth, hid] at hcheck ⊢
      exact hcheck.symm
  · next htype =>
      simp only [Option.ite_none_right_eq_some, Option.some.injEq] at h
      obtain ⟨hcheck, rfl⟩ := h
      refine ⟨⟨by simp [htype], ?_⟩, rfl⟩
      simp only [OmCommandMessage.bodyBytes, htype, hcheck]
  · cases h

/-! ## The search for an id -/

variable {window : Window 4}

/-- What the search finds lies in the window, has not been used, and fits the
MAC. -/
theorem of_inferFieldsLoop {fuel : ℕ}
    (h : inferFieldsLoop window originKey fuel message = some message') :
    windowIdWithinWindow window message'.computedCommandId = true ∧
      windowIdFlagAlreadySet window message'.computedCommandId = false ∧
      message'.Authentic originKey := by
  induction fuel generalizing message with
  | zero => cases h
  | succ fuel ih =>
      rw [inferFieldsLoop] at h
      by_cases hwithin :
          windowIdWithinWindow window message.computedCommandId = false
      · rw [if_pos hwithin] at h
        cases h
      rw [if_neg hwithin] at h
      rw [Bool.not_eq_false] at hwithin
      by_cases hset :
          windowIdFlagAlreadySet window message.computedCommandId = true
      · simp only [hset, if_true] at h
        exact ih h
      simp only [hset] at h
      cases hinner : asciiMessageInferInnerComputeAuth message originKey with
      | none =>
          rw [hinner] at h
          exact ih h
      | some found =>
          rw [hinner] at h
          cases h
          obtain ⟨hauthentic, hid⟩ := authentic_of_inferInner hinner
          rw [hid]
          exact ⟨hwithin, Bool.eq_false_iff.mpr hset, hauthentic⟩

/-- The id after the last of a window is outside, also when it is zero. -/
theorem not_within_succ_max (w : Window 4) :
    windowIdWithinWindow w (w.centerIndex + w.flagsAbove.toUInt32 + 1)
      = false := by
  have hc := w.centerIndex.toNat_lt
  have ha := w.flagsAbove.toNat_lt
  have hb := w.flagsBelow.toNat_lt
  rw [Bool.eq_false_iff]
  intro h
  simp only [windowIdWithinWindow, ge_iff_le, Bool.and_eq_true,
    decide_eq_true_eq, UInt32.le_iff_toNat_le, UInt32.toNat_sub,
    UInt32.toNat_add, UInt8.toNat_toUInt32, UInt32.reduceToNat] at h
  omega

theorem inferFieldsLoop_more {fuel : ℕ}
    (hid : message.computedCommandId + UInt32.ofNat fuel
      = window.centerIndex + window.flagsAbove.toUInt32 + 1) (more : ℕ) :
    inferFieldsLoop window originKey (fuel + more) message
      = inferFieldsLoop window originKey fuel message := by
  induction fuel generalizing message with
  | zero =>
      cases more with
      | zero => rfl
      | succ more =>
          have hout := not_within_succ_max window
          rw [← hid, show UInt32.ofNat 0 = 0 from rfl, UInt32.add_zero] at hout
          show inferFieldsLoop window originKey (0 + more + 1) message = none
          rw [inferFieldsLoop, if_pos hout]
  | succ fuel ih =>
      have hnext : message.computedCommandId + 1 + UInt32.ofNat fuel
          = window.centerIndex + window.flagsAbove.toUInt32 + 1 := by
        rw [← hid, UInt32.ofNat_add, UInt32.add_assoc,
          UInt32.add_comm 1 (UInt32.ofNat fuel)]
        rfl
      rw [Nat.add_right_comm, inferFieldsLoop, inferFieldsLoop]
      simp only [@ih { message with
        computedCommandId := message.computedCommandId + 1 } hnext]

/-- The loop of the source ends: more rounds than the window has ids find
nothing else. -/
theorem asciiInferFieldsComputeAuth_rounds (message : OmCommandMessage)
    (window : Window 4) (originKey : CheckKey) (more : ℕ) :
    inferFieldsLoop window originKey
        (window.flagsBelow.toNat + window.flagsAbove.toNat + 1 + more)
        { message with computedCommandId :=
            window.centerIndex - window.flagsBelow.toUInt32 }
      = asciiInferFieldsComputeAuth message window originKey := by
  refine inferFieldsLoop_more ?_ more
  have hc := window.centerIndex.toNat_lt
  have ha := window.flagsAbove.toNat_lt
  have hb := window.flagsBelow.toNat_lt
  rw [← UInt32.toNat_inj]
  simp only [UInt32.toNat_add, UInt32.toNat_sub, UInt8.toNat_toUInt32,
    UInt32.toNat_ofNat', UInt32.reduceToNat]
  omega

end

/-! ## Commands and restarts -/

/-- One command, with what the core would answer, or a restart. -/
inductive OmOp
  | command (coreApplyOriginCommand : OmCommandMessage → Bool)
      (stack : OmStack) (commandData : List UInt8)
  | reboot

namespace OriginManager

variable (originKey : CheckKey)

def step (m : OriginManager) : OmOp → OriginManager
  | .command coreApplyOriginCommand stack commandData =>
      (m.handleAsciiOriginCommand originKey coreApplyOriginCommand stack
        commandData).2
  | .reboot => init m.nv

/-- The message that an operation applies. -/
def applied (m : OriginManager) : OmOp → Option OmCommandMessage
  | .command coreApplyOriginCommand stack commandData =>
      (m.handleAsciiOriginCommand originKey coreApplyOriginCommand stack
        commandData).1
  | .reboot => none

/-- The window the module starts with. -/
def startWindow : StoredWindow 4 :=
  .start omReceiveWindowBeforeCenterIndex.toUInt32

/-- Between two operations: the window reaches no lower than zero, and NV has
it. -/
structure Sound (m : OriginManager) : Prop where
  center : 31 ≤ m.stored.index.toNat
  kept : StoredWindow.Kept blockChannelOm startWindow m.nv m.stored

/-- The ids that will not be accepted any more. -/
def used (m : OriginManager) : Set UInt32 :=
  {id | id.toNat ∈ (m.window.ids 31).received}

variable {originKey} {m : OriginManager}

theorem fits_blockChannelOm : StoredWindow.Fits 4 blockChannelOm :=
  ⟨rfl, by decide⟩

theorem sized (m : OriginManager) : m.window.Sized 31 8 :=
  ⟨rfl, by decide, rfl, rfl⟩

theorem Sound.readNv (h : m.Sound) :
    { m with stored := m.stored.readNv m.nv blockChannelOm } = m := by
  rw [h.kept.readNv_self fits_blockChannelOm]

theorem Sound.init (h : m.Sound) : init m.nv = m := by
  have hstart := h.kept.readNv_start fits_blockChannelOm
  unfold OriginManager.init
  rw [show StoredWindow.start omReceiveWindowBeforeCenterIndex.toUInt32
    = startWindow from rfl, hstart]

/-- Marking an id of the window as applied takes it. -/
theorem Sound.markApplied (h : m.Sound) {id : UInt32}
    (hid : m.window.Holds 31 8 id) :
    (m.markApplied id).Sound ∧
      (m.markApplied id).window.ids 31 = (m.window.ids 31).take id.toNat := by
  obtain ⟨-, -, htake⟩ := setIdFlag_of_holds m.sized hid
  have hids : (m.markApplied id).window.ids 31
      = (m.window.ids 31).take id.toNat := htake
  refine ⟨⟨?_, h.kept.update fits_blockChannelOm _⟩, hids⟩
  have hcenter : (m.markApplied id).stored.index.toNat
      = max m.stored.index.toNat id.toNat := by
    have := congrArg FlagWindow.center hids
    rwa [FlagWindow.center_take] at this
  have := h.center
  omega

/-- A command is refused and changes nothing, or it is applied under an id of
the window that has not been used, and takes the id. -/
inductive Outcome (originKey : CheckKey) (m : OriginManager)
    (r : Option OmCommandMessage × OriginManager) : Prop
  | refused (h : r = (none, m))
  | applied (message : OmCommandMessage)
      (hauthentic : message.Authentic originKey)
      (hholds : m.window.Holds 31 8 message.computedCommandId)
      (hfresh : message.computedCommandId ∉ m.used)
      (h : r = (some message, m.markApplied message.computedCommandId))

theorem Sound.asciiApplyMessage (h : m.Sound)
    (core : OmCommandMessage → Bool) (message : OmCommandMessage) :
    Outcome originKey m (m.asciiApplyMessage originKey core message) := by
  unfold OriginManager.asciiApplyMessage
  simp only [h.readNv]
  cases hfound :
      asciiInferFieldsComputeAuth message m.window originKey with
  | none => exact .refused rfl
  | some found =>
      simp only
      obtain ⟨hwithin, hset, hauthentic⟩ := of_inferFieldsLoop hfound
      have hholds := (within_iff_holds m.sized h.center).mp hwithin
      have hfresh : found.computedCommandId ∉ m.used := by
        rw [used, Set.mem_ofPred_eq, ← flagAlreadySet_iff m.sized hholds, hset]
        simp
      by_cases hcore : core found = false
      · rw [if_pos hcore]
        exact .refused rfl
      · rw [if_neg hcore]
        exact .applied found hauthentic hholds hfresh rfl

/-- The same of a command as it arrives: too long, no digits and not parsed are
further ways to be refused. -/
theorem Sound.handleAsciiOriginCommand (h : m.Sound)
    (core : OmCommandMessage → Bool) (stack : OmStack)
    (commandData : List UInt8) :
    Outcome originKey m
      (m.handleAsciiOriginCommand originKey core stack commandData) := by
  unfold OriginManager.handleAsciiOriginCommand
  split
  · exact .refused rfl
  split
  · exact .refused rfl
  simp only
  split
  · exact .refused rfl
  · exact h.asciiApplyMessage core _

theorem Sound.outcome (h : m.Sound) (originKey : CheckKey) (op : OmOp) :
    Outcome originKey m (applied originKey m op, step originKey m op) := by
  cases op with
  | command core stack commandData =>
      exact h.handleAsciiOriginCommand core stack commandData
  | reboot =>
      have hinit : step originKey m .reboot = m := h.init
      rw [hinit]
      exact .refused rfl

theorem Sound.step (h : m.Sound) (originKey : CheckKey) (op : OmOp) :
    (step originKey m op).Sound ∧ m.used ⊆ (step originKey m op).used := by
  cases h.outcome originKey op with
  | refused hr =>
      rw [(Prod.mk.inj hr).2]
      exact ⟨h, subset_rfl⟩
  | applied message _ hholds _ hr =>
      obtain ⟨hsound, hids⟩ := h.markApplied hholds
      rw [(Prod.mk.inj hr).2]
      refine ⟨hsound, ?_⟩
      intro id hid
      rw [used, Set.mem_ofPred_eq, hids, FlagWindow.received_take hholds.low]
      exact Or.inl (Or.inl hid)

/-- What is applied was not used, and is used from then on. -/
theorem Sound.applied_fresh (h : m.Sound) {op : OmOp}
    {message : OmCommandMessage}
    (happlied : applied originKey m op = some message) :
    message.Authentic originKey ∧
      message.computedCommandId ∉ m.used ∧
      message.computedCommandId ∈ (OriginManager.step originKey m op).used := by
  cases h.outcome originKey op with
  | refused hr =>
      rw [(Prod.mk.inj hr).1] at happlied
      cases happlied
  | applied message' hauthentic hholds hfresh hr =>
      rw [(Prod.mk.inj hr).1] at happlied
      cases happlied
      obtain ⟨-, hids⟩ := h.markApplied hholds
      refine ⟨hauthentic, hfresh, ?_⟩
      rw [(Prod.mk.inj hr).2, used, Set.mem_ofPred_eq, hids,
        FlagWindow.received_take hholds.low]
      exact Or.inr rfl

theorem Sound.unchanged (h : m.Sound) {op : OmOp}
    (hnone : applied originKey m op = none) :
    OriginManager.step originKey m op = m := by
  cases h.outcome originKey op with
  | refused hr => exact (Prod.mk.inj hr).2
  | applied message _ _ _ hr =>
      rw [(Prod.mk.inj hr).1] at hnone
      cases hnone

theorem sound_init {nv : Store}
    (hnv : StoredWindow.Kept blockChannelOm startWindow nv startWindow) :
    (init nv).Sound := by
  have hstart : (init nv).stored = startWindow :=
    hnv.readNv_start fits_blockChannelOm
  refine ⟨?_, ?_⟩
  · rw [hstart]
    decide
  · rw [hstart]
    exact hnv

/-- Along every sequence of commands and restarts that begins with the window
as it is by default, no id is applied twice, what is applied has a valid MAC
for its id, and whatever is not applied leaves RAM and NV as they were. -/
theorem origin_commands_once (originKey : CheckKey) (nv : Store)
    (hnv : StoredWindow.Kept blockChannelOm startWindow nv startWindow)
    (ops : List OmOp) :
    ((events (step originKey) (applied originKey) (init nv) ops).map
        OmCommandMessage.computedCommandId).Nodup ∧
      (∀ message ∈ events (step originKey) (applied originKey) (init nv) ops,
        message.Authentic originKey) ∧
      ∀ pre op post, ops = pre ++ op :: post →
        applied originKey (run (step originKey) (init nv) pre) op = none →
        step originKey (run (step originKey) (init nv) pre) op
          = run (step originKey) (init nv) pre := by
  have hinit := sound_init hnv
  have hstep : ∀ (m : OriginManager) (op : OmOp), m.Sound → True →
      (step originKey m op).Sound := fun m op h _ => (h.step originKey op).1
  have hmono : ∀ (m : OriginManager) (op : OmOp), m.Sound → True →
      m.used ⊆ (step originKey m op).used :=
    fun m op h _ => (h.step originKey op).2
  have halong : ∀ ops, Along (step originKey) (fun _ _ => True) (init nv) ops :=
    along_true (init nv)
  refine ⟨?_, ?_, ?_⟩
  · exact (events_nodup hstep hmono
      (fun m op message h _ happlied => (h.applied_fresh happlied).2)
      hinit (halong ops)).1
  · exact events_forall hstep
      (fun m op message h _ happlied => (h.applied_fresh happlied).1)
      hinit (halong ops)
  · intro pre op post _ hnone
    have hpre : (run (step originKey) (init nv) pre).Sound :=
      run_invariant hstep hinit (halong pre)
    exact hpre.unchanged hnone

/-- A command for id 35 moves the window by four. Sent again, and once more
after a restart, it is refused; so is one that the core does not apply, which
then still can be. -/
theorem origin_commands_once_unlink :
    let originKey : CheckKey := ⟨Vector.replicate 16 0xAB⟩
    let stack : OmStack := ⟨fun _ => 0, fun _ => 0⟩
    let unlinkAll : List UInt8 :=
      [0x35, 0x35, 0x35, 0x39, 0x36, 0x31, 0x31, 0x39, 0x31]
    let ops : List OmOp :=
      [.command (fun _ => false) stack unlinkAll,
        .command (fun _ => true) stack unlinkAll,
        .command (fun _ => true) stack unlinkAll, .reboot,
        .command (fun _ => true) stack unlinkAll]
    (events (step originKey) (applied originKey) (init fun _ => none) ops).map
        OmCommandMessage.computedCommandId = [35] ∧
      ((events (step originKey) (applied originKey) (init fun _ => none)
        ops).map OmCommandMessage.computedCommandId).Nodup ∧
      (run (step originKey) (init fun _ => none) ops).stored
        = ⟨35, #v[0, 0, 0, 0x80]⟩ := by
  intro originKey stack unlinkAll ops
  exact ⟨by decide +kernel,
    (origin_commands_once originKey (fun _ => none) (.never rfl rfl) ops).1,
    by decide +kernel⟩

end OriginManager

end Nexus.Channel
