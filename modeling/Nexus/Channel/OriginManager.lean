import Nexus.Channel.LinkManager
import Nexus.Channel.StoredWindow
import Nexus.Keycode.Full

/-!
# Origin commands

`nexus_channel_om.c`. An origin command is a run of at most twenty ASCII
digits: a type digit, a body, and six digits of MAC under the key the
controller shares with the origin. All but the MAC are masked with pseudorandom
bytes drawn from it. The id of a command does not travel: the receiver tries
the ids of a window, in order, leaving out those it has seen, until the MAC
fits.

What `nexus_channel_core_apply_origin_command` answers is a parameter. The
other blocks of NV are its business, this one is not.
-/

namespace Nexus.Channel

open Nexus.Util Nexus.Nv

/-- `NX_NV_BLOCK_CHANNEL_OM`. -/
def blockChannelOm : BlockMeta := ⟨3, 12⟩

/-- `NEXUS_CHANNEL_OM_RECEIVE_WINDOW_BEFORE_CENTER_INDEX`. -/
def omReceiveWindowBeforeCenterIndex : UInt8 := 31

/-- `NEXUS_CHANNEL_OM_RECEIVE_WINDOW_AFTER_CENTER_INDEX`. -/
def omReceiveWindowAfterCenterIndex : UInt8 := 8

/-- `NEXUS_CHANNEL_OM_FIXED_MAC_DIGIT_COUNT`. -/
def omFixedMacDigitCount : Nat := 6

/-- `NEXUS_CHANNEL_OM_COMMAND_ASCII_DIGITS_MAX_LENGTH`. -/
def omCommandAsciiDigitsMaxLength : Nat := 20

/-! ## Messages -/

/-- `enum nexus_channel_om_command_type`. -/
inductive OmCommandType
  | genericControllerAction
  | accessoryActionUnlock
  | accessoryActionUnlink
  | createAccessoryLinkMode3
  | invalid
deriving DecidableEq

def OmCommandType.toUInt8 : OmCommandType → UInt8
  | genericControllerAction => 0
  | accessoryActionUnlock => 1
  | accessoryActionUnlink => 2
  | createAccessoryLinkMode3 => 9
  | invalid => 255

/-- `_nexus_channel_om_ascii_validate_command_type`. -/
def asciiValidateCommandType (typeInt : UInt8) : OmCommandType :=
  if typeInt = 0 then .genericControllerAction
  else if typeInt = 1 then .accessoryActionUnlock
  else if typeInt = 2 then .accessoryActionUnlink
  else if typeInt = 9 then .createAccessoryLinkMode3
  else .invalid

/-- `union nexus_channel_om_command_body`. Only the member that belongs to the
type of the message is ever written or read, so the members stand side by
side. -/
structure OmCommandBody where
  /-- `controller_action.action_type` -/
  actionType : UInt32
  /-- `accessory_action.trunc_acc_id.digits_int` -/
  truncDigitsInt : UInt32
  /-- `accessory_action.trunc_acc_id.digits_count` -/
  truncDigitsCount : UInt8
  /-- `accessory_action.computed_accessory_id` -/
  computedAccessoryId : NxId
  /-- `create_link.accessory_challenge` -/
  accessoryChallenge : UInt32
deriving DecidableEq

def OmCommandBody.zero : OmCommandBody := ⟨0, 0, 0, ⟨0, 0⟩, 0⟩

/-- `struct nexus_channel_om_command_message`. -/
structure OmCommandMessage where
  type : OmCommandType
  body : OmCommandBody
  auth : UInt32
  computedCommandId : UInt32
deriving DecidableEq

/-! ## Parsing -/

/-- What one call finds where it reads past what it has initialised: behind the
eight pseudorandom bytes, and behind the digits it has unmasked. -/
structure OmStack where
  prngBytes : Nat → UInt8
  digitChars : Nat → Key

/-- `_nexus_channel_om_deinterleave_digits`. Its `_mathmod10` is the one of the
full keycode protocol. -/
def deinterleaveDigits (stack : OmStack) (interleaved : Digits)
    (checkValue : UInt32) : Digits :=
  let nonMacDigitCount := (interleaved.length - omFixedMacDigitCount) % 256
  let prngBytes := checkComputePseudorandomBytes integrityCheckFixed00Key
    (le32 checkValue) nonMacDigitCount
  let chars := fun i =>
    if i < nonMacDigitCount then
      Keycode.deinterleaveKey (interleaved.chars i)
        (prngBytes.getD i (stack.prngBytes i))
    else if i < nonMacDigitCount + omFixedMacDigitCount then
      interleaved.chars i
    else stack.digitChars i
  ⟨chars, interleaved.length, 0⟩

/-- `_nexus_channel_om_ascii_extract_body_controller_action`. -/
def asciiExtractBodyControllerAction (digits : Digits) :
    Option (OmCommandBody × Digits) :=
  let r := digitsPullUint8 digits 2
  if r.1 ≠ 255 ∧ digitsRemaining r.2 > 0 then
    some ({ OmCommandBody.zero with actionType := r.1.toUInt32 }, r.2)
  else none

/-- `_nexus_channel_om_ascii_extract_body_accessory_action`. -/
def asciiExtractBodyAccessoryAction (digits : Digits) :
    Option (OmCommandBody × Digits) :=
  let r := digitsTryPullUint32 digits 1 false
  if r.2.1 = false ∧ digitsRemaining r.2.2 > 0 then
    some ({ OmCommandBody.zero with
      truncDigitsInt := r.1, truncDigitsCount := 1 }, r.2.2)
  else none

/-- `_nexus_channel_om_ascii_extract_body_create_link`. -/
def asciiExtractBodyCreateLink (digits : Digits) :
    Option (OmCommandBody × Digits) :=
  let r := digitsTryPullUint32 digits 6 false
  if r.2.1 = false ∧ digitsRemaining r.2.2 > 0 then
    some ({ OmCommandBody.zero with accessoryChallenge := r.1 }, r.2.2)
  else none

/-- The switch of `_nexus_channel_om_ascii_parse_message`. -/
def asciiExtractBody (type : OmCommandType) (digits : Digits) :
    Option (OmCommandBody × Digits) :=
  match type with
  | .genericControllerAction => asciiExtractBodyControllerAction digits
  | .accessoryActionUnlock | .accessoryActionUnlink =>
      asciiExtractBodyAccessoryAction digits
  | .createAccessoryLinkMode3 => asciiExtractBodyCreateLink digits
  | .invalid => none

/-- `_nexus_channel_om_ascii_parse_message`. -/
def asciiParseMessage (stack : OmStack) (commandDigits : Digits) :
    Option OmCommandMessage :=
  if digitsRemaining commandDigits % 256 ≤ omFixedMacDigitCount then none
  else
    let auth := digitsTryPullUint32
      { commandDigits with
        position := commandDigits.length - omFixedMacDigitCount }
      omFixedMacDigitCount false
    let deinterleavedDigits :=
      deinterleaveDigits stack commandDigits auth.1
    let commandTypeInt := digitsPullUint8 deinterleavedDigits 1
    let type := asciiValidateCommandType commandTypeInt.1
    match asciiExtractBody type commandTypeInt.2 with
    | none => none
    | some (body, rest) =>
        if auth.2.1 = false ∧ digitsRemaining rest = omFixedMacDigitCount then
          some ⟨type, body, auth.1, 0⟩
        else none

/-! ## Authentication -/

/-- `_nexus_channel_om_ascii_auth_arbitrary_bytes`. -/
def asciiAuthArbitraryBytes (bytes : List UInt8) (key : CheckKey) : UInt32 :=
  (checkValueAsUint64 (checkCompute key bytes)).toUInt32 % 1000000

/-- The bytes of `compute_bytes` that every message has: id and type. -/
def OmCommandMessage.headBytes (message : OmCommandMessage) : List UInt8 :=
  le32 message.computedCommandId ++ [message.type.toUInt8]

/-- The accessories an action may mean; they are written into the source. -/
def accessoriesList : List NxId :=
  [⟨0x0111, 0x92873891⟩, ⟨0x0102, 0x94837158⟩, ⟨0x9041, 0x00000019⟩]

/-- What the loop over the accessories carries along. -/
structure AccessorySearch where
  bytesCount : UInt8
  success : Bool
  computedAccessoryId : NxId

/-- One round of the loop over the accessories. A match does not end the loop,
and only a mismatch takes the six bytes off the count again. -/
def accessoryRound (message : OmCommandMessage) (originKey : CheckKey)
    (s : AccessorySearch) (accessoryId : NxId) : AccessorySearch :=
  if accessoryId.deviceId % 10 ≠ message.body.truncDigitsInt then s
  else
    let computeBytes := message.headBytes ++ le16 accessoryId.authorityId
      ++ le32 accessoryId.deviceId ++ List.replicate 4 0
    let bytesCount := s.bytesCount + 6
    let computedCheck := asciiAuthArbitraryBytes
      (computeBytes.take bytesCount.toNat) originKey
    if computedCheck = message.auth then ⟨bytesCount, true, accessoryId⟩
    else { s with bytesCount := bytesCount - 6 }

/-- The branch of `_nexus_channel_om_ascii_message_infer_inner_compute_auth`
for the two accessory actions. -/
def inferAccessory (message : OmCommandMessage) (originKey : CheckKey) :
    Option OmCommandMessage :=
  if message.body.truncDigitsCount ≠ 1 then none
  else
    let s := accessoriesList.reverse.foldl (accessoryRound message originKey)
      ⟨5, false, message.body.computedAccessoryId⟩
    if s.success then
      some { message with
        body := { message.body with
          computedAccessoryId := s.computedAccessoryId } }
    else none

/-- `_nexus_channel_om_ascii_message_infer_inner_compute_auth`: the message
with its inner fields, if its MAC is valid. -/
def asciiMessageInferInnerComputeAuth (message : OmCommandMessage)
    (originKey : CheckKey) : Option OmCommandMessage :=
  match message.type with
  | .genericControllerAction =>
      if asciiAuthArbitraryBytes
          (message.headBytes ++ le32 message.body.actionType) originKey
          = message.auth then some message
      else none
  | .accessoryActionUnlock | .accessoryActionUnlink =>
      inferAccessory message originKey
  | .createAccessoryLinkMode3 =>
      if asciiAuthArbitraryBytes
          (message.headBytes ++ le32 message.body.accessoryChallenge)
          originKey = message.auth then some message
      else none
  | .invalid => none

/-- The loop of `_nexus_channel_om_ascii_infer_fields_compute_auth`, for so
many rounds. -/
def inferFieldsLoop (window : Window 4) (originKey : CheckKey) :
    Nat → OmCommandMessage → Option OmCommandMessage
  | 0, _ => none
  | fuel + 1, message =>
      if windowIdWithinWindow window message.computedCommandId = false then
        none
      else
        let validated :=
          if windowIdFlagAlreadySet window message.computedCommandId then none
          else asciiMessageInferInnerComputeAuth message originKey
        match validated with
        | some message => some message
        | none =>
            inferFieldsLoop window originKey fuel
              { message with
                computedCommandId := message.computedCommandId + 1 }

/-- `_nexus_channel_om_ascii_infer_fields_compute_auth`. A window has no more
ids than the two counts allow. -/
def asciiInferFieldsComputeAuth (message : OmCommandMessage)
    (window : Window 4) (originKey : CheckKey) : Option OmCommandMessage :=
  inferFieldsLoop window originKey
    (window.flagsBelow.toNat + window.flagsAbove.toNat + 1)
    { message with
      computedCommandId := window.centerIndex - window.flagsBelow.toUInt32 }

/-! ## The module -/

/-- `nexus_channel_om.c` and the NV under it. -/
structure OriginManager where
  stored : StoredWindow 4
  nv : Store

namespace OriginManager

/-- `nexus_channel_om_init`. -/
def init (nv : Store) : OriginManager where
  stored := StoredWindow.readNv
    (.start omReceiveWindowBeforeCenterIndex.toUInt32) nv blockChannelOm
  nv := nv

/-- The window `_nexus_channel_om_ascii_apply_message` sets up. -/
def window (m : OriginManager) : Window 4 :=
  m.stored.window omReceiveWindowBeforeCenterIndex
    omReceiveWindowAfterCenterIndex

/-- The end of `_nexus_channel_om_ascii_apply_message`. The window shares its
flags with the stored structure; its center is copied back. -/
def markApplied (m : OriginManager) (id : UInt32) : OriginManager :=
  let window := (windowSetIdFlag m.window id).2
  let stored : StoredWindow 4 := ⟨window.centerIndex, window.flags⟩
  { stored, nv := nvUpdate m.nv blockChannelOm stored.toBytes }

/-- `_nexus_channel_om_ascii_apply_message`. The result is the message as
`nexus_channel_core_apply_origin_command` has accepted it; none of them is the
`false` of the source. -/
def asciiApplyMessage (m : OriginManager) (originKey : CheckKey)
    (coreApplyOriginCommand : OmCommandMessage → Bool)
    (message : OmCommandMessage) : Option OmCommandMessage × OriginManager :=
  let m := { m with stored := m.stored.readNv m.nv blockChannelOm }
  match asciiInferFieldsComputeAuth message m.window originKey with
  | none => (none, m)
  | some message =>
      if coreApplyOriginCommand message = false then (none, m)
      else (some message, m.markApplied message.computedCommandId)

/-- `_nexus_channel_om_handle_ascii_origin_command`. -/
def handleAsciiOriginCommand (m : OriginManager) (originKey : CheckKey)
    (coreApplyOriginCommand : OmCommandMessage → Bool) (stack : OmStack)
    (commandData : List UInt8) : Option OmCommandMessage × OriginManager :=
  if commandData.length > omCommandAsciiDigitsMaxLength then (none, m)
  else if commandData.any (fun val => val < 0x30 || val > 0x39) then (none, m)
  else
    let commandDigits :=
      digitsInit (commandData.map fun val => val.toNat) fun _ => 0
    match asciiParseMessage stack commandDigits with
    | none => (none, m)
    | some message =>
        m.asciiApplyMessage originKey coreApplyOriginCommand message

end OriginManager

end Nexus.Channel
