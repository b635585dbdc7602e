import Nexus.Keycode.Ids
import Nexus.Util.Bitstream

/-!
# Extended small-protocol messages

`nexus_keycode_pro_extended.c`: a message of its own carried by a small
passthrough frame. Only two bits of its id travel, so the receiver tries every
unused id of the window that ends in them until the check matches, and applies
the message with the id it found.
-/

namespace Nexus.Keycode

open Nexus.Util

/-- `NEXUS_KEYCODE_PRO_SECONDS_IN_DAY`. -/
def secondsInDay : UInt32 := 86400

/-- `NEXUS_KEYCODE_PRO_SMALL_UNLOCK_INCREMENT`. -/
def smallUnlockIncrement : UInt16 := 65535

/-- `nexus_keycode_pro_small_get_set_credit_increment_days`. -/
def smallGetSetCreditIncrementDays (incrementId : UInt8) : UInt16 :=
  let id := incrementId.toUInt16
  if incrementId < 90 then id + 1
  else if incrementId < 135 then (id - 89) * 2 + 90
  else if incrementId < 180 then (id - 134) * 4 + 180
  else if incrementId < 225 then (id - 179) * 8 + 360
  else if incrementId < 240 then (id - 224) * 16 + 720
  else if incrementId = 254 then 0
  else if incrementId = 255 then smallUnlockIncrement
  else 0

/-- `NEXUS_KEYCODE_PRO_EXTENDED_SMALL_TYPE_SET_CREDIT_AND_WIPE_FLAG`. -/
def extendedSmallTypeSetCreditAndWipeFlag : UInt8 := 0

/-- `struct nexus_keycode_pro_extended_small_message`. The inferred id is not
transmitted; the parser leaves it alone and inference overwrites it. -/
structure ExtendedSmallMessage where
  inferredMessageId : UInt32
  typeCode : UInt8
  truncatedMessageId : UInt8
  incrementId : UInt8
  check : UInt16
deriving DecidableEq

/-- `nexus_keycode_pro_extended_small_parse`, on a stream whose first bit has
been pulled. -/
def extendedSmallParse (commandBitstream : Bitstream) :
    Option ExtendedSmallMessage :=
  let t := bitstreamPullUint8 commandBitstream 3
  if t.1 ≠ extendedSmallTypeSetCreditAndWipeFlag then none
  else
    let truncated := bitstreamPullUint8 t.2 2
    let increment := bitstreamPullUint8 truncated.2 8
    let check := bitstreamPullUint16Be increment.2 12
    some ⟨0, t.1, truncated.1, increment.1, check.1⟩

/-- `_nexus_keycode_pro_extended_small_auth_arbitrary_bytes`: the 12 upper bits
of the check. -/
def extendedSmallAuthArbitraryBytes (bytes : List UInt8) (key : CheckKey) :
    UInt16 :=
  (checkValueAsUint64 (checkCompute key bytes) >>> 52).toUInt16

/-- The seven bytes an extended message is authenticated over. -/
def extendedSmallComputeBytes (message : ExtendedSmallMessage) : List UInt8 :=
  le32 message.inferredMessageId
    ++ [message.typeCode, message.incrementId, message.truncatedMessageId]

/-- `_nexus_keycode_pro_extended_small_message_infer_inner_compute_auth`. -/
def extendedSmallInferInnerComputeAuth (message : ExtendedSmallMessage)
    (secretKey : CheckKey) : Bool :=
  if message.typeCode = extendedSmallTypeSetCreditAndWipeFlag then
    extendedSmallAuthArbitraryBytes (extendedSmallComputeBytes message)
      secretKey == message.check
  else false

/-- The search of
`nexus_keycode_pro_extended_small_infer_windowed_message_id`. -/
def extendedInferLoop (window : Window 3) (secretKey : CheckKey) :
    Nat → ExtendedSmallMessage → Option ExtendedSmallMessage
  | 0, _ => none
  | fuel + 1, message =>
      if windowIdWithinWindow window message.inferredMessageId then
        if message.inferredMessageId &&& 0x03
              = message.truncatedMessageId.toUInt32
            ∧ windowIdFlagAlreadySet window message.inferredMessageId = false
            ∧ extendedSmallInferInnerComputeAuth message secretKey then
          some message
        else
          extendedInferLoop window secretKey fuel
            { message with
              inferredMessageId := message.inferredMessageId + 1 }
      else none

/-- `nexus_keycode_pro_extended_small_infer_windowed_message_id`: the message
with the id found for it. A window has 64 ids, and the 65th round leaves it. -/
def extendedSmallInferWindowedMessageId (message : ExtendedSmallMessage)
    (window : Window 3) (secretKey : CheckKey) :
    Option ExtendedSmallMessage :=
  if message.typeCode ≠ extendedSmallTypeSetCreditAndWipeFlag then none
  else
    extendedInferLoop window secretKey 65
      { message with
        inferredMessageId :=
          window.centerIndex - window.flagsBelow.toUInt32 }

namespace Machine

/-- `nexus_keycode_pro_get_current_message_id_window`. -/
def getCurrentMessageIdWindow (m : Machine) : Window 3 where
  centerIndex := m.stored.pdIndex
  flags := #v[m.stored.receivedFlags[0], m.stored.receivedFlags[1],
    m.stored.receivedFlags[2]]
  flagsBelow := 23
  flagsAbove := 40

/-- The part of `nexus_keycode_pro_extended_small_apply` that follows a
successful inference. -/
def extendedSmallApplyInferred (m : Machine) (message : ExtendedSmallMessage) :
    Machine :=
  let incrementDays := smallGetSetCreditIncrementDays message.incrementId
  let m :=
    if incrementDays ≠ smallUnlockIncrement then
      m.emit (.creditSet (incrementDays.toUInt32 * secondsInDay))
    else m.emit .creditUnlock
  -- credit first, then the mark: the order of the source
  let m := m.maskBelowMessageId (message.inferredMessageId.toUInt16 + 1)
  let m := m.resetCustomFlag .restricted
  m.emit (.feedbackStart .messageApplied)

/-- `nexus_keycode_pro_extended_small_apply`. -/
def extendedSmallApply (m : Machine) (env : Env)
    (message : ExtendedSmallMessage) : Response × Machine :=
  match extendedSmallInferWindowedMessageId message
      m.getCurrentMessageIdWindow env.secretKey with
  | none => (.invalid, m.emit (.feedbackStart .messageInvalid))
  | some message => (.validApplied, m.extendedSmallApplyInferred message)

/-- `nexus_keycode_pro_extended_small_parse_and_apply_keycode`. -/
def extendedSmallParseAndApplyKeycode (m : Machine) (env : Env)
    (passthroughCommandBitstream : Bitstream) : Bool × Machine :=
  match extendedSmallParse passthroughCommandBitstream with
  | none => (false, m.emit (.feedbackStart .messageInvalid))
  | some message =>
      let r := m.extendedSmallApply env message
      (r.1 == .validApplied, r.2)

end Machine

end Nexus.Keycode
