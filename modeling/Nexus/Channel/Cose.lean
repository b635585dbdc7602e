import Nexus.Util.Cbor
import Nexus.Util.Check

/-!
# COSE_MAC0

`nexus_cose_mac0_common.c`, `nexus_cose_mac0_sign.c` and
`nexus_cose_mac0_verify.c`. A secured payload is an array of the protected
header, which holds the nonce, an empty map, the payload and the tag; the tag
is computed over the header, the CoAP code, the URI and the payload. Nothing in
it says who sent the message.

The structure that receives the parsed parameters is not initialised, so what
its tag bytes held before is an argument.
-/

namespace Nexus.Channel

open Nexus.Util

/-- `nexus_cose_error`, without `NEXUS_COSE_ERROR_NONE`. -/
inductive CoseError
  | bufferTooSmall
  | cborEncoder
  | cborParser
  | inputDataInvalid
  | macTagInvalid
deriving DecidableEq

/-- `NEXUS_CHANNEL_MAX_CBOR_PAYLOAD_SIZE`. -/
def maxCborPayloadSize : Nat := 98

/-- `NEXUS_CHANNEL_MAX_HUMAN_READABLE_URI_LENGTH`. -/
def maxHumanReadableUriLength : Nat := 11

/-- `NEXUS_COSE_MAC0_MAX_PROTECTED_HEADER_BSTR_SIZE`. -/
def maxProtectedHeaderBstrSize : Nat := 7

/-- The size of `nexus_cose_mac0_cbor_data_t::buf`. -/
def macStructureSize : Nat :=
  4 + maxProtectedHeaderBstrSize + (1 + 2 + maxHumanReadableUriLength)
    + maxCborPayloadSize

/-- `nexus_cose_mac0_common_external_aad_t`. -/
structure ExternalAad where
  coapMethod : UInt8
  coapUri : List UInt8
deriving DecidableEq

/-- `nexus_cose_mac0_common_macparams_t`. -/
structure MacParams where
  key : CheckKey
  nonceToProtect : UInt32
  aad : ExternalAad
  payload : List UInt8
deriving DecidableEq

/-! ## The MAC structure -/

/-- `nexus_endian_htole32`, on a little-endian host. -/
def endianHtole32 (host : UInt32) : UInt32 := host

/-- `nexus_cose_mac0_encode_protected_header_map`. Seven bytes are always
enough. -/
def encodeProtectedHeaderMap (nonce : UInt32) : List UInt8 :=
  Cbor.encodeMap [(Cbor.encodeUint 5,
    Cbor.encodeUint (endianHtole32 nonce).toUInt64)]

/-- `"MAC0"`. -/
def mac0ContextString : List UInt8 := [0x4D, 0x41, 0x43, 0x30]

/-- The array of `nexus_cose_mac0_common_mac_params_to_mac_structure`. -/
def macStructureBytes (nonce : UInt32) (aad : ExternalAad)
    (payload : List UInt8) : List UInt8 :=
  Cbor.encodeArray [Cbor.encodeTextString mac0ContextString,
    Cbor.encodeByteString (encodeProtectedHeaderMap nonce),
    Cbor.encodeByteString (aad.coapMethod :: aad.coapUri),
    Cbor.encodeByteString payload]

/-- `nexus_cose_mac0_common_mac_params_to_mac_structure`. -/
def macParamsToMacStructure (macParams : MacParams) :
    Except CoseError (List UInt8) :=
  if macParams.aad.coapUri.length > maxHumanReadableUriLength then
    .error .inputDataInvalid
  else
    let bytes := macStructureBytes macParams.nonceToProtect macParams.aad
      macParams.payload
    if bytes.length > macStructureSize then .error .cborEncoder
    else .ok bytes

/-- `nexus_cose_mac0_common_compute_tag`. -/
def computeTag (macStruct : List UInt8) (key : CheckKey) : Vector UInt8 8 :=
  checkCompute key macStruct

/-! ## Signing -/

/-- The array of
`_nexus_cose_mac0_sign_input_and_tag_to_nexus_cose_mac0_message_t`. -/
def mac0MessageBytes (nonce : UInt32) (payload : List UInt8)
    (tag : Vector UInt8 8) : List UInt8 :=
  Cbor.encodeArray [Cbor.encodeByteString (encodeProtectedHeaderMap nonce),
    Cbor.encodeMap [], Cbor.encodeByteString payload,
    Cbor.encodeByteString tag.toList]

/-- `nexus_cose_mac0_sign_encode_message`. -/
def signEncodeMessage (macParams : MacParams) (outputSize : Nat) :
    Except CoseError (List UInt8) :=
  if outputSize < maxCborPayloadSize then .error .bufferTooSmall
  else
    match macParamsToMacStructure macParams with
    | .error e => .error e
    | .ok macStruct =>
        let bytes := mac0MessageBytes macParams.nonceToProtect
          macParams.payload (computeTag macStruct macParams.key)
        if bytes.length > outputSize then .error .cborEncoder
        else if bytes.length > maxCborPayloadSize then
          .error .inputDataInvalid
        else .ok bytes

/-- `nexus_oc_wrapper_repack_buffer_secured`, into a buffer of the maximum
size. A failure is the empty buffer. -/
def repackBufferSecured (macParams : MacParams) : List UInt8 :=
  match signEncodeMessage macParams maxCborPayloadSize with
  | .ok bytes => bytes
  | .error _ => []

/-! ## Verifying -/

/-- `if (… != CborNoError) return error`. -/
def orFail {α : Type} (r : Except Cbor.Error α) (error : CoseError) :
    Except CoseError α :=
  match r with
  | .ok a => .ok a
  | .error _ => .error error

/-- `if (!condition) return error`. -/
def require (condition : Bool) (error : CoseError) : Except CoseError Unit :=
  if condition then .ok () else .error error

/-- `_nexus_cose_mac0_verify_deserialize_protected_header`. -/
def deserializeProtectedHeader (protectedHeader : List UInt8) :
    Except CoseError UInt32 := do
  let protRoot ← orFail (Cbor.parserInit protectedHeader) .cborParser
  require protRoot.isMap .inputDataInvalid
  let length ← orFail protRoot.getLength .inputDataInvalid
  require (length != 0) .inputDataInvalid
  let protMap ← orFail protRoot.enterContainer .cborParser
  require protMap.isInteger .inputDataInvalid
  let protMap ← orFail protMap.advance .inputDataInvalid
  require protMap.isInteger .inputDataInvalid
  let tmpNonce := protMap.extractInt64
  require (tmpNonce ≤ 0xFFFFFFFF) .inputDataInvalid
  let protMap ← orFail protMap.advance .cborParser
  let _ ← orFail (protRoot.leaveContainer protMap) .cborParser
  return tmpNonce.toUInt32

/-- `nexus_cose_mac0_extracted_cose_params_t`. -/
structure ExtractedCoseParams where
  nonce : UInt32
  payload : List UInt8
  tag : List UInt8
deriving DecidableEq

/-- The bytes the payload pointer is set to, behind a head that is taken to be
one byte for lengths below 24 and two for the others. -/
def payloadAt (ptr : List UInt8) (payloadLen : Nat) :
    Except CoseError (List UInt8) :=
  if payloadLen < 24 then .ok ((ptr.drop 1).take payloadLen)
  else if payloadLen < 255 then .ok ((ptr.drop 2).take payloadLen)
  else .error .inputDataInvalid

/-- `nexus_cose_mac0_verify_deserialize_protected_message`; `staleTag` is what
the tag bytes of the result held. -/
def deserializeProtectedMessage (data : List UInt8)
    (staleTag : Vector UInt8 8) : Except CoseError ExtractedCoseParams := do
  let root ← orFail (Cbor.parserInit data) .cborParser
  require root.isArray .cborParser
  let length ← orFail root.getLength .cborParser
  require (length == 4) .inputDataInvalid
  let ary ← orFail root.enterContainer .cborParser
  require ary.isByteString .inputDataInvalid
  let length ← orFail ary.getLength .inputDataInvalid
  require (length != 0) .inputDataInvalid
  let (header, headerLen, ary) ← orFail
    (ary.copyByteString (List.replicate maxProtectedHeaderBstrSize 0))
    .inputDataInvalid
  let nonce ← deserializeProtectedHeader (header.take headerLen)
  require ary.isMap .inputDataInvalid
  let ary ← orFail ary.advance .inputDataInvalid
  require ary.isByteString .inputDataInvalid
  let payloadLen ← orFail ary.calculateStringLength .cborParser
  let payload ← payloadAt ary.ptr payloadLen
  let ary ← orFail ary.advance .cborParser
  require ary.isByteString .inputDataInvalid
  let length ← orFail ary.getLength .inputDataInvalid
  require (length != 0) .inputDataInvalid
  let (tag, _, ary) ← orFail (ary.copyByteString staleTag.toList) .cborParser
  let _ ← orFail (root.leaveContainer ary) .cborParser
  return ⟨nonce, payload, tag⟩

/-- `nexus_cose_mac0_verify_message`: the nonce and the payload of a message
whose tag is right. -/
def verifyMessage (key : CheckKey) (aad : ExternalAad) (payload : List UInt8)
    (staleTag : Vector UInt8 8) : Except CoseError (UInt32 × List UInt8) := do
  let extracted ← deserializeProtectedMessage payload staleTag
  let macStruct ← macParamsToMacStructure
    ⟨key, extracted.nonce, aad, extracted.payload⟩
  require ((computeTag macStruct key).toList == extracted.tag) .macTagInvalid
  return (extracted.nonce, extracted.payload)

end Nexus.Channel
