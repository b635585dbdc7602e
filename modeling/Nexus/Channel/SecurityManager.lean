import Nexus.Channel.Cose
import Nexus.Channel.LinkManager
import Nexus.Channel.Resource

/-!
# The security manager

`nexus_channel_sm.c`: every parsed CoAP message passes
`nexus_channel_authenticate_message` before anything else looks at it. A
message says by its content format whether it is secured. A secured one must
verify under the key of the link to its sender and carry an acceptable nonce;
one that is not must not ask for a method on the secured list.

A sender is its Nexus ID. `nx_channel_network_receive` puts the ID into an IPv6
address and the code here reads it back, by the two conversions below.
-/

namespace Nexus.Channel

open Nexus.Util

/-! ## Addresses -/

/-- The address bytes of `nexus_oc_wrapper_nx_id_to_oc_endpoint`. -/
def nxIdToAddress (id : NxId) : List UInt8 :=
  [0xFE, 0x80, 0, 0, 0, 0, 0, 0,
    (id.authorityId >>> 8).toUInt8 ^^^ 0x02, id.authorityId.toUInt8,
    (id.deviceId >>> 24).toUInt8, 0xFF, 0xFE,
    (id.deviceId >>> 16).toUInt8, (id.deviceId >>> 8).toUInt8,
    id.deviceId.toUInt8]

/-- `nexus_oc_wrapper_oc_endpoint_to_nx_id`. -/
def addressToNxId (address : List UInt8) : NxId where
  authorityId := ((address.getD 8 0 ^^^ 0x02).toUInt16 <<< 8)
    ||| (address.getD 9 0).toUInt16
  deviceId := ((address.getD 10 0).toUInt32 <<< 24)
    ||| ((address.getD 13 0).toUInt32 <<< 16)
    ||| ((address.getD 14 0).toUInt32 <<< 8) ||| (address.getD 15 0).toUInt32

/-! ## Packets -/

/-- `coap_message_type_t`. -/
inductive CoapType
  | con
  | non
  | ack
  | rst
deriving DecidableEq

/-- `coap_packet_t`, as far as it is used. -/
structure CoapPacket where
  type : CoapType
  code : UInt8
  mid : UInt16
  token : List UInt8
  /-- zero without the option -/
  contentFormat : UInt16
  uriPath : List UInt8
  /-- the interfaces its query selects -/
  queryInterface : UInt16
  payload : List UInt8
deriving DecidableEq

/-- `CREATED_2_01`, the first of the response codes. -/
def created201 : UInt8 := 65
/-- `NOT_ACCEPTABLE_4_06`. -/
def notAcceptable406 : UInt8 := 134
/-- `APPLICATION_COSE_MAC0`. -/
def applicationCoseMac0 : UInt16 := 17
/-- `APPLICATION_VND_OCF_CBOR`. -/
def applicationVndOcfCbor : UInt16 := 10000

/-- `UINT32_MAX`, which is also
`NEXUS_CHANNEL_LINK_SECURITY_RESET_NONCE_SIGNAL_VALUE`. -/
def resetNonceSignalValue : UInt32 := 0xFFFFFFFF

/-- The authenticated data of a packet: its URI is cut to a length that fits a
`uint8_t`. -/
def CoapPacket.aad (pkt : CoapPacket) : ExternalAad :=
  ⟨pkt.code, pkt.uriPath.take (pkt.uriPath.length % 256)⟩

/-- The packet with its payload secured, as the engine sends it. -/
def CoapPacket.secure (pkt : CoapPacket) (key : CheckKey) (nonce : UInt32) :
    CoapPacket :=
  { pkt with
    contentFormat := applicationCoseMac0
    payload := repackBufferSecured ⟨key, nonce, pkt.aad, pkt.payload⟩ }

/-! ## Authentication -/

/-- `nexus_channel_sm_auth_error_t`. -/
inductive AuthResult
  | none
  | senderDeviceNotLinked
  | resourceRequiresSecuredRequest
  | macInvalid
  | coseUnparseable
  | payloadSizeInvalid
  | requestReceivedWithInvalidNonce
  | validNonceSyncReceived
  | nonceApproachingMaxForcedResetRequired
deriving DecidableEq

/-- `nexus_channel_sm_requested_method_is_secured`. -/
def requestedMethodIsSecured {H : Type} (t : ResourceTable H)
    (pkt : CoapPacket) : Bool :=
  if pkt.uriPath.length = 0 then false
  else t.resourceMethodIsSecured (t.getAppResourceByUri pkt.uriPath) pkt.code

/-- `_nexus_channel_sm_message_headers_secured_mode0`. -/
def messageHeadersSecuredMode0 (pkt : CoapPacket) : Bool :=
  pkt.contentFormat == applicationCoseMac0

/-- What becomes of a verified message, given the nonce of the link and its
own: the result, and what the nonce of the link is set to. -/
def checkNonce (code : UInt8) (linkNonce receivedNonce : UInt32) :
    AuthResult × Option UInt32 :=
  if code < created201 then
    if receivedNonce < linkNonce + 1 then
      (.requestReceivedWithInvalidNonce, none)
    else if receivedNonce >
        resetNonceSignalValue - nonceNvStorageIntervalCount then
      (.nonceApproachingMaxForcedResetRequired, some 0)
    else (.none, some receivedNonce)
  else if receivedNonce < linkNonce then
    (.requestReceivedWithInvalidNonce, none)
  else if code = notAcceptable406 then
    (.validNonceSyncReceived,
      some (if receivedNonce = resetNonceSignalValue then 0
        else receivedNonce))
  else (.none, some receivedNonce)

variable {max : MaxLinks} {H : Type}

/-- A new nonce for the link, which is active again. -/
def LinkManager.acceptNonce (m : LinkManager max) (id : NxId)
    (nonce : Option UInt32) : LinkManager max :=
  match nonce with
  | none => m
  | some nonce =>
      ((m.setSecurityDataAuthNonce id nonce).2.resetLinkSecsSinceActive id).2

/-- `nexus_channel_authenticate_message`: the result, the packet with its
payload unpacked, and whether the payload pointer was moved. -/
def authenticateMessage (t : ResourceTable H) (m : LinkManager max)
    (sender : NxId) (pkt : CoapPacket) (staleTag : Vector UInt8 8) :
    AuthResult × CoapPacket × Bool × LinkManager max :=
  if messageHeadersSecuredMode0 pkt then
    if pkt.payload.length > maxCborPayloadSize then
      (.payloadSizeInvalid, pkt, false, m)
    else if pkt.payload.length = 0 then (.payloadSizeInvalid, pkt, false, m)
    else
      match m.securityDataFromNxid sender with
      | none => (.senderDeviceNotLinked, pkt, false, m)
      | some data =>
          match verifyMessage data.symKey pkt.aad pkt.payload staleTag with
          | .error .macTagInvalid =>
              (.macInvalid, { pkt with payload := [] }, false, m)
          | .error _ =>
              (.coseUnparseable, { pkt with payload := [] }, false, m)
          | .ok (receivedNonce, payload) =>
              let (result, nonce) := checkNonce pkt.code data.nonce
                receivedNonce
              (result, { pkt with payload := payload }, true,
                m.acceptNonce sender nonce)
  else if requestedMethodIsSecured t pkt then
    (.resourceRequiresSecuredRequest, pkt, false, m)
  else (.none, pkt, false, m)

end Nexus.Channel
