import Nexus.Channel.LinkHandshake
import Nexus.Keycode.Basic

/-!
# PAYG credit

`nexus_channel_res_payg_credit.c`, the resource `/nx/pc`. A controller posts its
credit to one linked accessory after the other: two seconds lie between two
POSTs, 25 seconds between the beginnings of two rounds. An accessory takes the
credit it is sent, and gives it up when nothing has come for three rounds or
when the link to its controller is gone.

What the product holds is given with each call, and what it is told comes back
with the result. Whether a POST can be prepared and sent is given too. What is
printed is left out, and so is what the baseline interface adds to a
representation.
-/

namespace Nexus.Channel

open Nexus.Keycode Nexus.Util

/-! ## Constants and types -/

/-- `NXP_CHANNEL_PAYG_CREDIT_REMAINING_UNLOCKED_SENTINEL_VALUE`. -/
def unlockedSentinelValue : UInt32 := 0xFFFFFFFF

/-- `NEXUS_COMMON_IDLE_TIME_BETWEEN_PROCESS_CALL_SECONDS`. -/
def idleTimeBetweenProcessCallSeconds : UInt32 := 240

/-- `NEXUS_CHANNEL_PAYG_CREDIT_INTERVAL_BETWEEN_PAYG_CREDIT_POST_SECONDS`. -/
def intervalBetweenPostSeconds : UInt32 := 2

/-- `NEXUS_CHANNEL_PAYG_CREDIT_POST_UPDATE_CYCLE_TIME_SECONDS`. -/
def postUpdateCycleTimeSeconds : UInt32 := 25

/-- `NEXUS_CHANNEL_PAYG_CREDIT_FOLLOWER_MAX_TIME_BETWEEN_UPDATES_SECONDS`. -/
def followerMaxTimeBetweenUpdatesSeconds : UInt32 :=
  3 * postUpdateCycleTimeSeconds

/-- `NEXUS_CHANNEL_PAYG_CREDIT_SENTINEL_NULL_NEXUS_ID`. -/
def sentinelNullNexusId : NxId := ⟨0, 0⟩

/-- `PAYG_CREDIT_REMAINING_SHORT_PROP_NAME`, "re". -/
def creditRemainingShortPropName : List UInt8 := [0x72, 0x65]

/-- `NEXUS_CHANNEL_PAYG_CREDIT_UNITS_SECONDS`, the units of this device. -/
def units : UInt8 := 1

/-- `strcmp` with the name of a property: a zero character ends it. -/
def Rep.sameName (rep : Rep) (propName : List UInt8) : Bool :=
  rep.name.takeWhile (fun c => c != 0) == propName

/-- `enum nexus_channel_payg_credit_operating_mode`. -/
inductive CreditOperatingMode
  | independent
  | leading
  | following
  | relaying
deriving DecidableEq

/-- `NEXUS_CHANNEL_SUPPORT_ACCESSORY_MODE` and
`NEXUS_CHANNEL_SUPPORT_CONTROLLER_MODE`. -/
structure SupportedModes where
  accessoryMode : Bool
  controllerMode : Bool

/-- What `nxp_common_payg_state_get_current` and
`nxp_common_payg_credit_get_remaining` return. -/
structure ProductCredit where
  paygState : PaygState
  remaining : UInt32

/-- A call of `nxp_channel_payg_credit_set` or
`nxp_channel_payg_credit_unlock`. -/
inductive CreditCall
  | set (remaining : UInt32)
  | unlock
deriving DecidableEq

/-- The static `_this`. -/
structure PaygCredit where
  remaining : UInt32
  mode : CreditOperatingMode
  followerModeSecondsSinceCreditUpdated : UInt32
  lastPaygState : PaygState
  lastUpdatedNexusId : NxId
  secondsSinceLastPost : UInt32
  cycleFirstNexusId : NxId
  secondsSinceLastCycleStart : UInt32
deriving DecidableEq

/-- `_nexus_channel_res_payg_credit_get_latest`. -/
def ProductCredit.getLatest (product : ProductCredit) : UInt32 :=
  if product.paygState = .unlocked then unlockedSentinelValue
  else product.remaining

variable {max : MaxLinks}

/-- `_nexus_channel_res_payg_credit_get_credit_operating_mode`. -/
def LinkManager.creditOperatingMode (links : LinkManager max) :
    CreditOperatingMode :=
  let hasController := links.hasLinkedController.isSome
  let hasAccessory := links.hasLinkedAccessory
  if hasAccessory && hasController then .relaying
  else if hasAccessory then .leading
  else if hasController then .following
  else .independent

namespace PaygCredit

/-! ## Updates -/

/-- `_nexus_channel_payg_credit_update_from_post_or_get`. -/
def updateFromPostOrGet (support : SupportedModes) (links : LinkManager max)
    (newRemaining : UInt32) (credit : PaygCredit) : CreditCall × PaygCredit :=
  let call :=
    if newRemaining ≠ unlockedSentinelValue then CreditCall.set newRemaining
    else .unlock
  let credit := { credit with remaining := newRemaining }
  if support.accessoryMode
      ∧ links.creditOperatingMode = .following then
    (call, { credit with followerModeSecondsSinceCreditUpdated := 0 })
  else (call, credit)

/-- `_nexus_channel_payg_credit_evaluate_payload_extract_credit`: the error
state and the credit, from what they are before the rest of the payload. -/
def extractCreditLoop : List Rep → Bool → UInt32 → Bool × UInt32
  | [], errorState, newRemaining => (errorState, newRemaining)
  | rep :: reps, errorState, newRemaining =>
      if rep.sameName creditRemainingShortPropName then
        match rep.value with
        | .int value =>
            if value > 0xFFFFFFFF then
              extractCreditLoop reps errorState newRemaining
            else extractCreditLoop reps false (UInt32.ofInt value)
        | _ => extractCreditLoop reps errorState newRemaining
      else extractCreditLoop reps errorState newRemaining

def evaluatePayloadExtractCredit (payload : List Rep)
    (newRemaining : UInt32) : Bool × UInt32 :=
  extractCreditLoop payload true newRemaining

/-- The response to a POST: `OC_STATUS_CHANGED` with the properties `re` and
`un`, or `OC_STATUS_BAD_REQUEST`. -/
inductive PostResponse
  | changed (re : UInt32) (un : UInt8)
  | badRequest
deriving DecidableEq

/-- `nexus_channel_res_payg_credit_post_handler`. -/
def postHandler (support : SupportedModes) (links : LinkManager max)
    (payload : List Rep) (credit : PaygCredit) :
    PostResponse × List CreditCall × PaygCredit :=
  let extracted := evaluatePayloadExtractCredit payload 0
  if extracted.1 = false then
    let updated := updateFromPostOrGet support links extracted.2 credit
    (.changed updated.2.remaining units, [updated.1], updated.2)
  else (.badRequest, [], credit)

/-- `_nexus_channel_res_payg_credit_get_response_handler`. -/
def getResponseHandler (support : SupportedModes) (links : LinkManager max)
    (payload : List Rep) (credit : PaygCredit) :
    List CreditCall × PaygCredit :=
  let extracted := evaluatePayloadExtractCredit payload 0
  if extracted.1 = false then
    let updated := updateFromPostOrGet support links extracted.2 credit
    ([updated.1], updated.2)
  else ([], credit)

/-! ## Starting -/

/-- `_nexus_channel_res_payg_credit_calculate_initial_credit`. -/
def calculateInitialCredit (support : SupportedModes)
    (currentMode : CreditOperatingMode) (currentRemainingCredit : UInt32) :
    UInt32 :=
  match currentMode with
  | .independent =>
      if support.controllerMode then currentRemainingCredit
      else if currentRemainingCredit = unlockedSentinelValue then
        currentRemainingCredit
      else 0
  | .following =>
      if currentRemainingCredit = unlockedSentinelValue then
        currentRemainingCredit
      else 0
  | .relaying => currentRemainingCredit
  | .leading => currentRemainingCredit

/-- `nexus_channel_res_payg_credit_init`; the GET to the controller, if there is
one, is not part of it. -/
def init (support : SupportedModes) (links : LinkManager max)
    (product : ProductCredit) : List CreditCall × PaygCredit :=
  let storedRemaining := product.getLatest
  let mode := links.creditOperatingMode
  let newRemaining := calculateInitialCredit support mode storedRemaining
  let calls :=
    if newRemaining ≠ storedRemaining then [CreditCall.set newRemaining]
    else []
  (calls, {
    remaining := newRemaining
    mode := mode
    followerModeSecondsSinceCreditUpdated := 0
    lastPaygState := product.paygState
    lastUpdatedNexusId := sentinelNullNexusId
    secondsSinceLastPost := intervalBetweenPostSeconds
    cycleFirstNexusId := sentinelNullNexusId
    secondsSinceLastCycleStart := postUpdateCycleTimeSeconds })

/-! ## Processing -/

/-- What `nexus_channel_res_payg_credit_process` does for an accessory: the
time it may sleep, what the product is told, and the new state. -/
def processFollowing (currentOperatingMode : CreditOperatingMode)
    (secondsElapsed : UInt32) (credit : PaygCredit) :
    UInt32 × List CreditCall × PaygCredit :=
  if credit.remaining = unlockedSentinelValue then
    (idleTimeBetweenProcessCallSeconds, [], credit)
  else if currentOperatingMode = .following then
    let seconds :=
      credit.followerModeSecondsSinceCreditUpdated + secondsElapsed
    if seconds ≥ followerMaxTimeBetweenUpdatesSeconds then
      (idleTimeBetweenProcessCallSeconds, [.set 0], { credit with
        remaining := 0, followerModeSecondsSinceCreditUpdated := 0 })
    else
      (followerMaxTimeBetweenUpdatesSeconds - seconds, [], { credit with
        followerModeSecondsSinceCreditUpdated := seconds })
  else if currentOperatingMode = .independent ∧ credit.mode = .following then
    (idleTimeBetweenProcessCallSeconds, [.set 0],
      { credit with remaining := 0 })
  else (idleTimeBetweenProcessCallSeconds, [], credit)

/-- Both timers as if enough time had passed. -/
def resetTimers (credit : PaygCredit) : PaygCredit :=
  { credit with
    secondsSinceLastPost := intervalBetweenPostSeconds
    secondsSinceLastCycleStart := postUpdateCycleTimeSeconds }

/-- A change of the PAYG state is sent at once. -/
def notePaygState (paygState : PaygState) (credit : PaygCredit) :
    PaygCredit :=
  let credit :=
    if paygState ≠ credit.lastPaygState then credit.resetTimers else credit
  { credit with lastPaygState := paygState }

/-- The stored ids are forgotten unless both still have links. -/
def checkStoredIds (links : LinkManager max) (credit : PaygCredit) :
    PaygCredit :=
  if (links.linkFromNxid credit.lastUpdatedNexusId).isSome
      ∧ (links.linkFromNxid credit.cycleFirstNexusId).isSome then credit
  else
    { credit.resetTimers with
      lastUpdatedNexusId := sentinelNullNexusId
      cycleFirstNexusId := sentinelNullNexusId }

/-- The device whose turn it is. -/
def nextId (links : LinkManager max) (credit : PaygCredit) : Option NxId :=
  if credit.lastUpdatedNexusId = sentinelNullNexusId then
    links.nextLinkedAccessory none
  else links.nextLinkedAccessory (some credit.lastUpdatedNexusId)

/-- A POST that is attempted, with the property `re` if it could be
prepared. -/
structure CreditPost where
  id : NxId
  re : Option UInt32
deriving DecidableEq

/-- The attempt to post to a device, when the time for it has come. -/
def post (nextId : NxId) (initOk doOk : Bool) (credit : PaygCredit) :
    UInt32 × Option CreditPost × PaygCredit :=
  let credit := { credit with
    lastUpdatedNexusId := nextId, secondsSinceLastPost := 0 }
  if initOk = false then
    (intervalBetweenPostSeconds, some ⟨nextId, none⟩, credit)
  else if doOk = false then
    (intervalBetweenPostSeconds, some ⟨nextId, some credit.remaining⟩, credit)
  else if credit.cycleFirstNexusId = sentinelNullNexusId then
    (intervalBetweenPostSeconds, some ⟨nextId, some credit.remaining⟩,
      { credit with
        cycleFirstNexusId := nextId, secondsSinceLastCycleStart := 0 })
  else
    (intervalBetweenPostSeconds, some ⟨nextId, some credit.remaining⟩, credit)

/-- The wait for the interval between two POSTs. -/
def postWhenDue (nextId : NxId) (initOk doOk : Bool) (credit : PaygCredit) :
    UInt32 × Option CreditPost × PaygCredit :=
  if credit.secondsSinceLastPost < intervalBetweenPostSeconds then
    (intervalBetweenPostSeconds - credit.secondsSinceLastPost, none, credit)
  else credit.post nextId initOk doOk

/-- The wait for the next round, if this device is the first of it. -/
def updateNext (nextId : NxId) (initOk doOk : Bool) (credit : PaygCredit) :
    UInt32 × Option CreditPost × PaygCredit :=
  if credit.cycleFirstNexusId = nextId then
    if credit.secondsSinceLastCycleStart < postUpdateCycleTimeSeconds then
      (postUpdateCycleTimeSeconds - credit.secondsSinceLastCycleStart, none,
        credit)
    else
      { credit with secondsSinceLastCycleStart := 0 }.postWhenDue nextId
        initOk doOk
  else credit.postWhenDue nextId initOk doOk

/-- Time passes for both timers. -/
def elapse (secondsElapsed : UInt32) (credit : PaygCredit) : PaygCredit :=
  { credit with
    secondsSinceLastPost := credit.secondsSinceLastPost + secondsElapsed
    secondsSinceLastCycleStart :=
      credit.secondsSinceLastCycleStart + secondsElapsed }

/-- What `nexus_channel_res_payg_credit_process` does for a controller. With a
linked accessory there is a next device. -/
def processLeading (links : LinkManager max) (paygState : PaygState)
    (initOk doOk : Bool) (secondsElapsed minSleep : UInt32)
    (credit : PaygCredit) : UInt32 × Option CreditPost × PaygCredit :=
  let credit := credit.notePaygState paygState
  if links.accessoryLinkCount = 0 then (minSleep, none, credit)
  else
    let credit := credit.checkStoredIds links
    match credit.nextId links with
    | none => (minSleep, none, credit)
    | some nextId =>
        (credit.elapse secondsElapsed).updateNext nextId initOk doOk

/-- What comes out of `nexus_channel_res_payg_credit_process`. -/
structure Processed where
  minSleep : UInt32
  calls : List CreditCall
  post : Option CreditPost
  credit : PaygCredit

/-- `nexus_channel_res_payg_credit_process`. -/
def process (support : SupportedModes) (links : LinkManager max)
    (product : ProductCredit) (initOk doOk : Bool) (secondsElapsed : UInt32)
    (credit : PaygCredit) : Processed :=
  let credit := { credit with remaining := product.getLatest }
  let currentOperatingMode := links.creditOperatingMode
  let followed :=
    if support.accessoryMode then
      credit.processFollowing currentOperatingMode secondsElapsed
    else (idleTimeBetweenProcessCallSeconds, [], credit)
  let credit := { followed.2.2 with mode := currentOperatingMode }
  if support.controllerMode then
    let led := credit.processLeading links product.paygState initOk doOk
      secondsElapsed followed.1
    ⟨led.1, followed.2.1, led.2.1, led.2.2⟩
  else ⟨followed.1, followed.2.1, none, credit⟩

/-! ## Reading -/

/-- The rounds of the loop over the linked accessories after the first one, as
many as are given; `none` if it goes on. -/
def controlledIdsLoop (links : LinkManager max) (firstId : NxId) :
    Nat → NxId → Option (List NxId)
  | 0, _ => none
  | fuel + 1, prevId =>
      match links.nextLinkedAccessory (some prevId) with
      | none => some []
      | some nextId =>
          if firstId = nextId then some []
          else (controlledIdsLoop links firstId fuel nextId).map (nextId :: ·)

/-- The loop over the linked accessories. -/
def controlledIds (links : LinkManager max) (fuel : Nat) :
    Option (List NxId) :=
  match links.nextLinkedAccessory none with
  | none => some []
  | some firstId =>
      (controlledIdsLoop links firstId fuel firstId).map (firstId :: ·)

/-- `linked_nexus_id_be`: the id in network byte order. -/
def linkedNexusIdBe (id : NxId) : List UInt8 :=
  (le16 id.authorityId).reverse ++ (le32 id.deviceId).reverse

/-- The properties of a GET response. -/
structure CreditRepresentation where
  mo : CreditOperatingMode
  re : UInt32
  un : UInt8
  di : List (List UInt8)

/-- `nexus_channel_res_payg_credit_get_handler` for the interfaces that show
the properties, with as many rounds of its loop as are given. -/
def getHandler (support : SupportedModes) (links : LinkManager max)
    (product : ProductCredit) (fuel : Nat) (credit : PaygCredit) :
    Option CreditRepresentation × PaygCredit :=
  let credit := { credit with
    remaining := product.getLatest, mode := links.creditOperatingMode }
  let ids :=
    if support.controllerMode ∧ credit.mode = .leading then
      controlledIds links fuel
    else some []
  (ids.map fun ids =>
    ⟨credit.mode, credit.remaining, units, ids.map linkedNexusIdBe⟩, credit)

end PaygCredit

end Nexus.Channel
