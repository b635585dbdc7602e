import Nexus.Channel.SecurityManager
import Nexus.Channel.StoredWindow

/-!
# Link handshakes

`nexus_channel_res_link_hs.c`. The origin gives a controller six digits that it
has drawn, with a count, from the accessory's own key. The controller adds a
random salt, derives the link key from both, and posts salt and MAC of the salt
to everybody. The accessory tries the counts of a window until one gives a key
under which the MAC is right; it then creates its link, marks the count as used
and answers with the MAC of the inverted salt, upon which the controller
creates its own link.

Payloads are what `oc_parse_rep` makes of them. What the link manager answers
is a parameter here.
-/

namespace Nexus.Channel

open Nexus.Util Nexus.Nv

/-! ## Payloads -/

/-- `oc_rep_value`, as far as the handshake looks at it. -/
inductive RepValue
  | byteString (bytes : List UInt8)
  | int (value : Int)
  | other
deriving DecidableEq

/-- `oc_rep_t`: one property of a payload. -/
structure Rep where
  name : List UInt8
  value : RepValue
deriving DecidableEq

/-- The first two characters of the name decide. -/
def Rep.named (rep : Rep) (propName : List UInt8) : Bool :=
  rep.name.take 2 == propName

/-- `CHAL_DATA_SHORT_PROP_NAME`, "cD". -/
def chalDataShortPropName : List UInt8 := [0x63, 0x44]

/-- `RESP_DATA_SHORT_PROP_NAME`, "rD". -/
def respDataShortPropName : List UInt8 := [0x72, 0x44]

/-- `CHAL_MODE_SHORT_PROP_NAME`, "cM". -/
def chalModeShortPropName : List UInt8 := [0x63, 0x4D]

/-- `LINK_SEC_MODE_SHORT_PROP_NAME`, "lS". -/
def linkSecModeShortPropName : List UInt8 := [0x6C, 0x53]

/-! ## Keys -/

/-- `NEXUS_CHANNEL_PUBLIC_KEY_DERIVATION_KEY_1`. -/
def publicKeyDerivationKey1 : CheckKey :=
  ⟨#v[0x8A, 0x5E, 0xE2, 0xB4, 0xA0, 0xCF, 0xF4, 0x93,
    0xE5, 0xED, 0xA2, 0xD1, 0xE4, 0xC4, 0x5B, 0x25]⟩

/-- `NEXUS_CHANNEL_PUBLIC_KEY_DERIVATION_KEY_2`. -/
def publicKeyDerivationKey2 : CheckKey :=
  ⟨#v[0xE2, 0x6F, 0xDB, 0x34, 0xE4, 0xDD, 0x40, 0xBC,
    0x63, 0x35, 0xC6, 0x09, 0xAA, 0xDF, 0xAA, 0xC4]⟩

/-- `_res_link_hs_generate_link_key`, with the two derivation keys that every
caller passes. -/
def generateLinkKey (challengeInt : UInt32) (salt : Vector UInt8 8) :
    CheckKey :=
  let keyDerivationMaterial := salt.toList ++ le32 challengeInt
  ⟨checkCompute publicKeyDerivationKey1 keyDerivationMaterial
    ++ checkCompute publicKeyDerivationKey2 keyDerivationMaterial⟩

/-- `_res_link_hs_mode0_compute_inverted_salt_mac`. -/
def mode0ComputeInvertedSaltMac (salt : Vector UInt8 8) (linkKey : CheckKey) :
    Vector UInt8 8 :=
  checkCompute linkKey (salt.toList.map (· ^^^ 0xFF))

/-- `enum nexus_channel_link_handshake_state`. -/
inductive LinkHandshakeState
  | idle
  | active
deriving DecidableEq

/-! ## The accessory -/

/-- `NX_NV_BLOCK_CHANNEL_LINK_HS_ACCESSORY`. -/
def blockChannelLinkHsAccessory : BlockMeta := ⟨2, 10⟩

/-- `NEXUS_CHANNEL_LINK_HS_RECEIVE_WINDOW_BEFORE_CENTER_INDEX`. -/
def linkHsReceiveWindowBeforeCenterIndex : UInt8 := 15

/-- `NEXUS_CHANNEL_LINK_HS_RECEIVE_WINDOW_AFTER_CENTER_INDEX`. -/
def linkHsReceiveWindowAfterCenterIndex : UInt8 := 8

/-- `NEXUS_CHANNEL_LINK_HANDSHAKE_ACCESSORY_TIMEOUT_SECONDS`. -/
def linkHandshakeAccessoryTimeoutSeconds : UInt16 := 300

/-- `nexus_link_hs_accessory_t`. -/
structure LinkHsAccessory where
  chalData : Vector UInt8 16
  respData : Vector UInt8 16
  chalDataLen : UInt8
  respDataLen : UInt8
  chalMode : UInt8
  secondsSinceInit : UInt16
  linkSecurityMode : UInt8
  state : LinkHandshakeState
deriving DecidableEq

namespace LinkHsAccessory

/-- All zero, which is idle. -/
def zero : LinkHsAccessory :=
  ⟨Vector.replicate 16 0, Vector.replicate 16 0, 0, 0, 0, 0, 0, .idle⟩

/-- The salt in front of the challenge data. -/
def salt (server : LinkHsAccessory) : Vector UInt8 8 :=
  Vector.ofFn fun i => server.chalData.toList.getD i 0

/-- The MAC behind it. -/
def receivedMac (server : LinkHsAccessory) : Vector UInt8 8 :=
  Vector.ofFn fun i => server.chalData.toList.getD (8 + i) 0

/-- `_nexus_channel_res_link_hs_server_post_parse_payload_chal_data`. The
length is cut to a byte before it is looked at. -/
def postParsePayloadChalData (server : LinkHsAccessory) (rep : Rep)
    (bytes : List UInt8) : Option LinkHsAccessory :=
  if rep.named chalDataShortPropName
      ∧ UInt8.ofNat bytes.length = 16 then
    some { server with
      chalData := Vector.ofFn fun i => bytes.getD i 0
      chalDataLen := 16 }
  else none

/-- `_nexus_channel_res_link_hs_server_post_parse_payload_requested_modes`.
Both tables of supported modes hold the mode 0 alone. -/
def postParsePayloadRequestedModes (server : LinkHsAccessory)
    (receivedValue : UInt8) (rep : Rep) : Option LinkHsAccessory :=
  if rep.named chalModeShortPropName then
    if receivedValue = 0 then some { server with chalMode := receivedValue }
    else none
  else if rep.named linkSecModeShortPropName then
    if receivedValue = 0 then
      some { server with linkSecurityMode := receivedValue }
    else none
  else none

/-- One property of the payload, if it is valid. -/
def postParseProperty (server : LinkHsAccessory) (rep : Rep) :
    Option LinkHsAccessory :=
  match rep.value with
  | .byteString bytes => server.postParsePayloadChalData rep bytes
  | .int value =>
      server.postParsePayloadRequestedModes (UInt8.ofInt value) rep
  | .other => none

/-- The loop of `_nexus_channel_res_link_hs_server_post_parse_payload`, with
the properties still missing. What has been parsed before an error stays. -/
def postParseLoop :
    List Rep → UInt8 → LinkHsAccessory → Bool × LinkHsAccessory
  | [], propertiesMissing, server => (propertiesMissing == 0, server)
  | rep :: reps, propertiesMissing, server =>
      match server.postParseProperty rep with
      | some server => postParseLoop reps (propertiesMissing - 1) server
      | none => (false, server)

/-- `_nexus_channel_res_link_hs_server_post_parse_payload`. -/
def postParsePayload (server : LinkHsAccessory) (payload : List Rep) :
    Bool × LinkHsAccessory :=
  postParseLoop payload 3 server

end LinkHsAccessory

/-- The six digits that the origin draws for a count. -/
def sixDigitIntChallenge (originKey : CheckKey) (count : UInt32) : UInt32 :=
  (checkValueAsUint64 (checkCompute originKey (le32 count))).toUInt32 % 1000000

/-- The loop of `_nexus_channel_res_link_hs_server_validate_challenge`, for so
many rounds. -/
def validateChallengeLoop (originKey : CheckKey) (salt rcvdMac : Vector UInt8 8)
    (window : Window 2) (endIndex : UInt32) :
    Nat → UInt32 → Option (UInt32 × CheckKey)
  | 0, _ => none
  | fuel + 1, i =>
      if i > endIndex then none
      else if windowIdFlagAlreadySet window i then
        validateChallengeLoop originKey salt rcvdMac window endIndex fuel
          (i + 1)
      else
        let computedLinkKey :=
          generateLinkKey (sixDigitIntChallenge originKey i) salt
        if checkCompute computedLinkKey salt.toList = rcvdMac then
          some (i, computedLinkKey)
        else
          validateChallengeLoop originKey salt rcvdMac window endIndex fuel
            (i + 1)

/-- `_nexus_channel_res_link_hs_server_validate_challenge`: the matching index
and the link key. As long as the end of the window is below `UINT32_MAX`, which
the source asserts, the loop takes no more rounds than these. -/
def serverValidateChallenge (originKey : CheckKey)
    (salt rcvdMac : Vector UInt8 8) (window : Window 2) :
    Option (UInt32 × CheckKey) :=
  validateChallengeLoop originKey salt rcvdMac window
    (window.centerIndex + window.flagsAbove.toUInt32)
    (window.flagsBelow.toNat + window.flagsAbove.toNat + 1)
    (window.centerIndex - window.flagsBelow.toUInt32)

/-- The accessory's part of the module, and the NV under it. -/
structure LinkHsServer where
  server : LinkHsAccessory
  stored : StoredWindow 2
  nv : Store

/-- A handshake the accessory has accepted. -/
structure AcceptedHandshake where
  handshakeIndex : UInt32
  linkSecurityMode : UInt8
  securityData : SecurityMode0Data
  respData : Vector UInt8 8
deriving DecidableEq

namespace LinkHsServer

/-- `nexus_channel_res_link_hs_init`. -/
def init (nv : Store) : LinkHsServer where
  server := .zero
  stored := StoredWindow.readNv
    (.start linkHsReceiveWindowBeforeCenterIndex.toUInt32) nv
    blockChannelLinkHsAccessory
  nv := nv

/-- `_nexus_channel_res_link_hs_get_current_window`. -/
def getCurrentWindow (m : LinkHsServer) : Window 2 :=
  m.stored.window linkHsReceiveWindowBeforeCenterIndex
    linkHsReceiveWindowAfterCenterIndex

/-- `_nexus_channel_res_link_hs_reset_server_state`. -/
def resetServerState (m : LinkHsServer) : LinkHsServer :=
  { m with server := .zero }

/-- `_nexus_channel_res_link_hs_server_post_finalize_success_state`. The center
is raised here, in the stored structure; the window moves its own copy and
shifts the flags, which are the stored ones. -/
def postFinalizeSuccessState (m : LinkHsServer)
    (matchedHandshakeIndex : UInt32) (window : Window 2)
    (derivedLinkKey : CheckKey) : LinkHsServer :=
  let handshakeIndex :=
    if m.stored.index < matchedHandshakeIndex then matchedHandshakeIndex
    else m.stored.index
  let stored : StoredWindow 2 :=
    ⟨handshakeIndex, (windowSetIdFlag window matchedHandshakeIndex).2.flags⟩
  let computedMac := mode0ComputeInvertedSaltMac m.server.salt derivedLinkKey
  { server := { m.server with
      respData := Vector.ofFn fun i =>
        if i.val < 8 then computedMac.toList.getD i 0
        else m.server.respData.get i
      respDataLen := 8
      state := .idle }
    stored := stored
    nv := nvUpdate m.nv blockChannelLinkHsAccessory stored.toBytes }

/-- `nexus_channel_res_link_hs_server_post`. No accepted handshake is an error
response. -/
def serverPost (m : LinkHsServer) (originKey : CheckKey)
    (createLink : UInt8 → SecurityMode0Data → Bool) (payload : List Rep) :
    Option AcceptedHandshake × LinkHsServer :=
  let parsed :=
    ({ m.server with state := .active } : LinkHsAccessory).postParsePayload
      payload
  let m := { m with server := parsed.2 }
  if parsed.1 = false then (none, m.resetServerState)
  else
    let window := m.getCurrentWindow
    match serverValidateChallenge originKey m.server.salt
      m.server.receivedMac window with
    | none => (none, m.resetServerState)
    | some (matchedHandshakeIndex, derivedLinkKey) =>
        let securityData : SecurityMode0Data := ⟨derivedLinkKey, 0⟩
        if createLink m.server.linkSecurityMode securityData = false then
          (none, m.resetServerState)
        else
          (some ⟨matchedHandshakeIndex, m.server.linkSecurityMode,
              securityData,
              mode0ComputeInvertedSaltMac m.server.salt derivedLinkKey⟩,
            m.postFinalizeSuccessState matchedHandshakeIndex window
              derivedLinkKey)

/-- The accessory's part of `nexus_channel_res_link_hs_process`. -/
def process (m : LinkHsServer) (secondsElapsed : UInt32) : LinkHsServer :=
  if m.server.state = .idle then m
  else
    let secondsSinceInit :=
      (m.server.secondsSinceInit.toUInt32 + secondsElapsed).toUInt16
    if secondsSinceInit > linkHandshakeAccessoryTimeoutSeconds then
      m.resetServerState
    else
      { m with server := { m.server with
        secondsSinceInit := secondsSinceInit } }

end LinkHsServer

/-! ## The controller -/

/-- `NEXUS_CHANNEL_SIMULTANEOUS_LINK_HANDSHAKES`. -/
abbrev simultaneousLinkHandshakes : Nat := 4

/-- `NEXUS_CHANNEL_LINK_HANDSHAKE_CONTROLLER_TIMEOUT_SECONDS`. -/
def linkHandshakeControllerTimeoutSeconds : UInt16 := 3600

/-- `NEXUS_CHANNEL_LINK_HANDSHAKE_CONTROLLER_RETRY_SECONDS`. -/
def linkHandshakeControllerRetrySeconds : UInt16 := 5

/-- `nexus_link_hs_controller_t`. -/
structure LinkHsController where
  linkKey : CheckKey
  sendChalData : Vector UInt8 16
  sendChalDataLen : UInt8
  saltMac : Vector UInt8 8
  salt : Vector UInt8 8
  secondsSinceInit : UInt16
  lastPostSeconds : UInt16
  requestedSecurityMode : UInt8
  requestedChalMode : UInt8
  state : LinkHandshakeState
deriving DecidableEq

/-- `_this.clients`. -/
abbrev LinkHsClients := Fin simultaneousLinkHandshakes → LinkHsController

namespace LinkHsController

/-- All zero, which is idle. -/
def zero : LinkHsController :=
  ⟨⟨Vector.replicate 16 0⟩, Vector.replicate 16 0, 0, Vector.replicate 8 0,
    Vector.replicate 8 0, 0, 0, 0, 0, .idle⟩

/-- The salt that two calls of `nxp_channel_random_value` make. -/
def randomSalt (rand rand' : UInt32) : Vector UInt8 8 :=
  Vector.ofFn fun i => (le32 rand ++ le32 rand').getD i 0

/-- What `nexus_channel_res_link_hs_link_mode_3` writes into the handshake it
takes. -/
def start (sixIntDigits rand rand' : UInt32) : LinkHsController :=
  let salt := randomSalt rand rand'
  let linkKey := generateLinkKey sixIntDigits salt
  let saltMac := checkCompute linkKey salt.toList
  { linkKey, salt, saltMac
    sendChalData := salt ++ saltMac
    sendChalDataLen := 16
    secondsSinceInit := 0
    lastPostSeconds := 0
    requestedSecurityMode := 0
    requestedChalMode := 0
    state := .active }

/-- The payload of `_nexus_channel_res_link_hs_link_mode_3_send_post`. -/
def postPayload (client : LinkHsController) : List Rep :=
  [⟨chalDataShortPropName,
      .byteString (client.sendChalData.toList.take
        client.sendChalDataLen.toNat)⟩,
    ⟨chalModeShortPropName, .int client.requestedChalMode.toNat⟩,
    ⟨linkSecModeShortPropName, .int client.requestedSecurityMode.toNat⟩]

/-- One handshake in `nexus_channel_res_link_hs_process`, and whether its POST
is sent. -/
def process (client : LinkHsController) (secondsElapsed : UInt32) :
    Bool × LinkHsController :=
  if client.state = .idle then (false, client)
  else
    let client := { client with
      secondsSinceInit :=
        (client.secondsSinceInit.toUInt32 + secondsElapsed).toUInt16 }
    if client.secondsSinceInit > linkHandshakeControllerTimeoutSeconds then
      (false, zero)
    else if client.state = .active
        ∧ client.secondsSinceInit - client.lastPostSeconds
          ≥ linkHandshakeControllerRetrySeconds then
      (true, { client with lastPostSeconds := client.secondsSinceInit })
    else (false, client)

/-- The check value a response has to carry. -/
def expectedMac (client : LinkHsController) : Vector UInt8 8 :=
  mode0ComputeInvertedSaltMac client.salt client.linkKey

variable {L : Type} (createLink : L → UInt8 → SecurityMode0Data → Bool × L)

/-- The loop of `nexus_channel_res_link_hs_client_post` over the payload. Every
call of `nexus_channel_link_manager_create_link` is listed with the handshake
it is made from. The state of the link manager is passed along. -/
def clientPostLoop : List Rep → L → LinkHsController →
    List LinkHsController × L × LinkHsController
  | [], links, client => ([], links, client)
  | rep :: reps, links, client =>
      if rep.named respDataShortPropName then
        match rep.value with
        | .byteString repData =>
            if UInt8.ofNat repData.length ≠ 8 then ([], links, client)
            else if client.expectedMac.toList ≠ repData.take 8 then
              ([], links, client)
            else
              let r := createLink links client.requestedSecurityMode
                ⟨client.linkKey, 0⟩
              if r.1 = false then ([client], r.2, client)
              else
                let rest := clientPostLoop reps r.2 zero
                (client :: rest.1, rest.2)
        | _ => ([], links, client)
      else clientPostLoop reps links client

/-- `nexus_channel_res_link_hs_client_post`, on the handshake that the user
data points to. The status `OC_STATUS_CREATED` stands for the code 2.01. -/
def clientPost (code : UInt8) (payload : List Rep) (links : L)
    (client : LinkHsController) :
    List LinkHsController × L × LinkHsController :=
  if code ≠ created201 then ([], links, client)
  else clientPostLoop createLink payload links client

end LinkHsController

namespace LinkHsClients

/-- `nexus_channel_res_link_hs_link_mode_3`: the first idle handshake is taken,
if there is one. -/
def linkMode3 (clients : LinkHsClients) (sixIntDigits rand rand' : UInt32) :
    Option LinkHsClients :=
  ((List.finRange simultaneousLinkHandshakes).find? fun i =>
    (clients i).state == .idle).map fun i =>
      Function.update clients i (.start sixIntDigits rand rand')

/-- The controller's part of `nexus_channel_res_link_hs_process`. -/
def process (clients : LinkHsClients) (secondsElapsed : UInt32) :
    LinkHsClients := fun i => ((clients i).process secondsElapsed).2

/-- The handshakes whose POST is sent by `process`, in order. -/
def posts (clients : LinkHsClients) (secondsElapsed : UInt32) :
    List (Fin simultaneousLinkHandshakes) :=
  (List.finRange simultaneousLinkHandshakes).filter fun i =>
    ((clients i).process secondsElapsed).1

end LinkHsClients

end Nexus.Channel
