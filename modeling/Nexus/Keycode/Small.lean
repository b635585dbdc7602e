import Nexus.Keycode.Extended

/-!
# The small protocol

A small-protocol frame is 14 keys of a four-letter alphabet, two bits a key:
six bits of message id, two of type, eight of body and twelve of check, the
first sixteen masked with pseudorandom bits drawn from the check. Passthrough
frames give up their type bits and are handed on as 26 raw bits, inside the
parser; everything else goes through `smallApply`.
-/

namespace Nexus.Keycode

open Nexus.Util

/-! ## Messages -/

/-- `NEXUS_KEYCODE_PRO_SMALL_ACTIVATION_ADD_CREDIT_TYPE`. -/
def smallActivationAddCreditType : UInt8 := 0
/-- `NEXUS_KEYCODE_PRO_SMALL_TYPE_PASSTHROUGH`. -/
def smallTypePassthrough : UInt8 := 1
/-- `NEXUS_KEYCODE_PRO_SMALL_ACTIVATION_SET_CREDIT_TYPE`. -/
def smallActivationSetCreditType : UInt8 := 2
/-- `NEXUS_KEYCODE_PRO_SMALL_MAINTENANCE_OR_TEST_TYPE`. -/
def smallMaintenanceOrTestType : UInt8 := 3

/-- `NEXUS_KEYCODE_PRO_SMALL_MAX_TEST_FUNCTION_ID`. -/
def smallMaxTestFunctionId : UInt8 := 127

/-- `NEXUS_KEYCODE_PRO_QC_LONG_TEST_MESSAGE_SECONDS`. -/
def qcLongTestMessageSeconds : UInt32 := 3600
/-- `NEXUS_KEYCODE_PRO_UNIVERSAL_SHORT_TEST_SECONDS`. -/
def universalShortTestSeconds : UInt32 := 127

/-- `struct nexus_keycode_pro_small_message`. The body is a union of one byte,
an increment id in activation messages and a function id in the others. -/
structure SmallMessage where
  fullMessageId : UInt32
  typeCode : UInt8
  body : UInt8
  check : UInt16
deriving DecidableEq

/-- `nexus_keycode_pro_small_compute_check`: the 12 upper bits of the check
over id, type and body. -/
def smallComputeCheck (message : SmallMessage) (key : CheckKey) : UInt16 :=
  let value := checkCompute key
    (le32 message.fullMessageId ++ [message.typeCode, message.body])
  (value[7].toUInt16 <<< 4) ||| (value[6] >>> 4).toUInt16

/-! ## Parsing -/

/-- `nexus_endian_htobe16`. -/
def endianHtobe16 (host : UInt16) : UInt16 := (host >>> 8) ||| (host <<< 8)

/-- `nexus_endian_be16toh`, on the host's memory of its argument. -/
def endianBe16toh (bigEndian : UInt16) : UInt16 :=
  let bytes := le16 bigEndian
  ((bytes.getD 0 0).toUInt16 <<< 8) ||| (bytes.getD 1 0).toUInt16

/-- The obscured part of `nexus_keycode_pro_small_reversibly_obfuscate`, over
input, output and pseudorandom stream. -/
def obfuscateLoop :
    Nat → Bitstream × Bitstream × Bitstream → Bitstream × Bitstream × Bitstream
  | 0, streams => streams
  | left + 1, (input, output, prng) =>
      let inputBit := bitstreamPullBit input
      let prngBit := bitstreamPullBit prng
      obfuscateLoop left (inputBit.2,
        bitstreamPushBit output (inputBit.1 ^^ prngBit.1), prngBit.2)

/-- Pull `left` bits of one stream and push them into another. -/
def copyLoop : Nat → Bitstream × Bitstream → Bitstream × Bitstream
  | 0, streams => streams
  | left + 1, (input, output) =>
      let inputBit := bitstreamPullBit input
      copyLoop left (inputBit.2, bitstreamPushBit output inputBit.1)

/-- `nexus_keycode_pro_small_reversibly_obfuscate`, as the output stream. -/
def smallReversiblyObfuscate (input output prng : Bitstream)
    (obfuscationBitCount : Nat) : Bitstream :=
  let r := obfuscateLoop obfuscationBitCount
    (bitstreamSetBitPosition input 0, bitstreamSetBitPosition output 0,
      bitstreamSetBitPosition prng 0)
  (copyLoop (r.1.length - r.1.position) (r.1, r.2.1)).2

/-- `_nexus_keycode_pro_small_internal_extract_passthrough_message`, as the
passthrough stream: bits 0 to 5 and 8 to 27. -/
def smallInternalExtractPassthroughMessage
    (passthroughBitstream deobscuredBitstream : Bitstream) : Bitstream :=
  let r := copyLoop 6 (bitstreamSetBitPosition deobscuredBitstream 0,
    bitstreamSetBitPosition passthroughBitstream 0)
  (copyLoop 20 (bitstreamSetBitPosition r.1 8, r.2)).2

/-- The key loop of `nexus_keycode_pro_small_parse`, from key `i` on. -/
def smallPushKeys (alphabet : List Key) :
    Nat → List Key → Bitstream → Option Bitstream
  | _, [], stream => some stream
  | i, key :: rest, stream =>
      let stream :=
        match alphabet.idxOf? key with
        | some j => bitstreamPushUint8 stream (UInt8.ofNat j) 2
        | none => stream
      -- a symbol outside the alphabet has pushed nothing
      if stream.length ≠ (i + 1) * 2 then none
      else smallPushKeys alphabet (i + 1) rest stream

/-- The pseudorandom bytes a small check value yields. -/
def smallPrngBytes (check : UInt16) : List UInt8 :=
  checkComputePseudorandomBytes integrityCheckFixed00Key
    (le16 (endianHtobe16 check)) 4

/-- The first half of `nexus_keycode_pro_small_parse`: the check field of a
frame and its bits with the mask taken off. -/
def smallDeobfuscate (alphabet : List Key) (stack : Stack) (frame : Frame) :
    Option (UInt16 × Bitstream) :=
  if frame.keys.length ≠ 14 then none
  else
    match smallPushKeys alphabet 0 frame.keys
        (bitstreamInit stack.messageBytes.toList 32 0) with
    | none => none
    | some messageBitstream =>
        let check := (bitstreamPullUint16Be
          (bitstreamSetBitPosition messageBitstream 16) 12).1
        let prngBitstream := bitstreamInit (smallPrngBytes check) 32 32
        some (endianBe16toh (endianHtobe16 check),
          smallReversiblyObfuscate messageBitstream
            (bitstreamInit stack.deobfuscatedBytes.toList 32 0)
            prngBitstream 16)

/-- The fields of a deobfuscated frame. The full id is inferred for the two
activation types only. -/
def smallFields (check : UInt16) (deobfuscated : Bitstream)
    (pdIndex : UInt32) : SmallMessage :=
  let receivedMessageId :=
    bitstreamPullUint8 (bitstreamSetBitPosition deobfuscated 0) 6
  let typeCode := bitstreamPullUint8 receivedMessageId.2 2
  let body := bitstreamPullUint8 typeCode.2 8
  { fullMessageId :=
      if typeCode.1 = smallActivationAddCreditType
          ∨ typeCode.1 = smallActivationSetCreditType then
        inferFullMessageId receivedMessageId.1 pdIndex
      else receivedMessageId.1.toUInt32
    typeCode := typeCode.1
    body := body.1
    check := check }

namespace Machine

/-- `nexus_keycode_pro_small_internal_bitstream_passthrough`. -/
def smallInternalBitstreamPassthrough (m : Machine) (env : Env)
    (passthroughBitstream : Bitstream) : PassthroughError × Machine :=
  let applicationId := bitstreamPullBit passthroughBitstream
  if applicationId.1 = false then (.dataUnrecognized, m)
  else (.none, (m.extendedSmallParseAndApplyKeycode env applicationId.2).2)

/-- `nexus_keycode_pro_small_parse`. A passthrough frame is applied in here. -/
def smallParse (m : Machine) (cfg : Config) (env : Env) (frame : Frame) :
    Option SmallMessage × Machine :=
  match smallDeobfuscate cfg.alphabet env.stack frame with
  | none => (none, m)
  | some (check, deobfuscated) =>
      let message := smallFields check deobfuscated m.pdIndex
      if message.typeCode = smallTypePassthrough then
        let passthroughBitstream := smallInternalExtractPassthroughMessage
          (bitstreamInit env.stack.passthroughBytes.toList 32 0) deobfuscated
        let r := m.smallInternalBitstreamPassthrough env
          (bitstreamSetBitPosition passthroughBitstream 0)
        (if r.1 = .none then some message else none, r.2)
      else (some message, m)

end Machine

/-! ## Application -/

/-- `nexus_keycode_pro_small_get_add_credit_increment_days`. -/
def smallGetAddCreditIncrementDays (incrementId : UInt8) : UInt16 :=
  if incrementId = 255 then smallUnlockIncrement
  else if incrementId < 180 then incrementId.toUInt16 + 1
  else (incrementId.toUInt16 - 179) * 3 + 180

/-- Test messages are checked under the fixed key, everything else under the
device's own. -/
def smallCheckKey (env : Env) (message : SmallMessage) : CheckKey :=
  if message.typeCode = smallMaintenanceOrTestType
      ∧ message.body ≤ smallMaxTestFunctionId then integrityCheckFixedFFKey
  else env.secretKey

namespace Machine

/-- The SET_CREDIT branch of `nexus_keycode_pro_small_apply`. -/
def smallApplySetCredit (m : Machine) (message : SmallMessage) :
    Response × Machine :=
  let m := m.maskBelowMessageId (message.fullMessageId + 1).toUInt16
  let m :=
    if message.body = 255 then m.emit .creditUnlock
    else if message.body = 254 then m.emit (.creditSet 0)
    else if message.body = 253 then m.resetCustomFlag .restricted
    else
      m.emit (.creditSet
        ((smallGetSetCreditIncrementDays message.body).toUInt32
          * secondsInDay))
  (.validApplied, m)

/-- The ADD_CREDIT branch of `nexus_keycode_pro_small_apply`. -/
def smallApplyAddCredit (m : Machine) (env : Env) (message : SmallMessage) :
    Response × Machine :=
  let m := m.setFullMessageIdFlag message.fullMessageId.toUInt16
  if env.paygState ≠ .unlocked then
    let incrementDays := smallGetAddCreditIncrementDays message.body
    if incrementDays = smallUnlockIncrement then
      (.validApplied, m.emit .creditUnlock)
    else
      (.validApplied,
        m.emit (.creditAdd (incrementDays.toUInt32 * secondsInDay)))
  else (.validDuplicate, m)

/-- The activation branch of `nexus_keycode_pro_small_apply`. -/
def smallApplyActivation (m : Machine) (env : Env) (message : SmallMessage) :
    Response × Machine :=
  let r := m.getFullMessageIdFlag message.fullMessageId.toUInt16
  if r.1 then (.validDuplicate, r.2)
  else if message.typeCode = smallActivationSetCreditType then
    r.2.smallApplySetCredit message
  else if message.typeCode = smallActivationAddCreditType then
    r.2.smallApplyAddCredit env message
  else (.invalid, r.2)

/-- What both protocols do to forget every received id and test code. -/
def wipeMask (m : Machine) : Machine :=
  m.resetPdIndex.resetTestCodeCount.wipeMessageIdsInWindow

/-- The maintenance branch of `nexus_keycode_pro_small_apply`. -/
def smallApplyMaintenance (m : Machine) (message : SmallMessage) :
    Response × Machine :=
  let function := message.body &&& 0x7F
  if function = 0x01 then (.validApplied, m.wipeMask.emit (.creditSet 0))
  else if function = 0x00 then (.validApplied, m.emit (.creditSet 0))
  else if function = 0x02 then (.validApplied, m.wipeMask)
  else (.invalid, m)

/-- The test branch of `nexus_keycode_pro_small_apply`. -/
def smallApplyTest (m : Machine) (cfg : Config) (env : Env)
    (message : SmallMessage) : Response × Machine :=
  if message.body = 0x00 then
    if env.paygState = .disabled then
      (.validApplied, m.emit (.creditAdd universalShortTestSeconds))
    else (.validDuplicate, m)
  else if message.body = 0x01 then
    if m.getLongQcCodeCount.toNat < cfg.factoryQcLongLifetimeMax
        ∧ env.paygState ≠ .unlocked then
      (.validApplied,
        (m.emit (.creditAdd qcLongTestMessageSeconds)
          ).incrementLongQcTestMessageCount cfg)
    else (.validDuplicate, m)
  else (.invalid, m)

/-- `nexus_keycode_pro_small_apply`. -/
def smallApply (m : Machine) (cfg : Config) (env : Env)
    (message : SmallMessage) : Response × Machine :=
  if message.check ≠ smallComputeCheck message (smallCheckKey env message) then
    (.invalid, m)
  else if message.typeCode < smallMaintenanceOrTestType then
    m.smallApplyActivation env message
  else if message.body > smallMaxTestFunctionId then
    m.smallApplyMaintenance message
  else m.smallApplyTest cfg env message

/-- `nexus_keycode_pro_small_parse_and_apply`. -/
def smallParseAndApply (m : Machine) (cfg : Config) (env : Env)
    (frame : Frame) : Response × Machine :=
  match m.smallParse cfg env frame with
  | (none, m) => (.invalid, m)
  | (some message, m) =>
      if message.typeCode = smallTypePassthrough then (.none, m)
      else m.smallApply cfg env message

end Machine

end Nexus.Keycode
