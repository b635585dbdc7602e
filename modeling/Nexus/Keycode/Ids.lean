import Nexus.Keycode.Basic

/-!
# Message ids and the receive window

The part of `nexus_keycode_pro.c` that knows which message ids were received:
24 flags for the ids from `pd_index - 23` up to `pd_index`, shifted down when a
higher id moves the window. The ids of messages are 32 bits wide, but these
functions take 16, and every comparison happens in 32-bit arithmetic against
the center.

Reading a flag first reloads the structure from NV, and most writers persist
it before they return; `resetPdIndex` and `resetTestCodeCount` leave that to
the `wipeMessageIdsInWindow` that follows them.
-/

namespace Nexus.Keycode

open Nexus.Util

namespace Machine

/-- Replace the received flags. -/
def setFlags (m : Machine) (flags : Vector UInt8 5) : Machine :=
  { m with stored := { m.stored with receivedFlags := flags } }

/-- `nexus_keycode_pro_reset_pd_index`. -/
def resetPdIndex (m : Machine) : Machine :=
  { m with stored := { m.stored with pdIndex := receiveWindowBeforePd } }

/-- `nexus_keycode_pro_wipe_message_ids_in_window`. -/
def wipeMessageIdsInWindow (m : Machine) : Machine :=
  (m.setFlags (bitsetClear m.stored.receivedFlags 3)).updateNvBlocks

/-- `nexus_keycode_pro_reset_test_code_count`. -/
def resetTestCodeCount (m : Machine) : Machine :=
  { m with stored := { m.stored with qcTestCodesReceived := 0 } }

end Machine

/-- The copying loop of `nexus_keycode_pro_increase_pd_and_shift_window_right`:
flag `i` of the old mask becomes flag `i - pdIncrement` of the new. -/
def shiftedMask (flags : Vector UInt8 5) (pdIncrement : UInt32) :
    Vector UInt8 3 :=
  (List.range' pdIncrement.toNat (24 - pdIncrement.toNat)).foldl
    (fun newMask i =>
      if bitsetContains flags (UInt16.ofNat i) then
        bitsetAdd newMask (UInt16.ofNat (i - pdIncrement.toNat))
      else newMask)
    (Vector.replicate 3 0)

/-- The `memcpy` of the three-byte mask over the five stored bytes. -/
def copyMask (flags : Vector UInt8 5) (mask : Vector UInt8 3) :
    Vector UInt8 5 :=
  #v[mask[0], mask[1], mask[2], flags[3], flags[4]]

namespace Machine

/-- `nexus_keycode_pro_increase_pd_and_shift_window_right`. -/
def increasePdAndShiftWindowRight (m : Machine) (pdIncrement : UInt32) :
    Machine :=
  let m :=
    if pdIncrement > receiveWindowBeforePd then m.wipeMessageIdsInWindow
    else
      m.setFlags (copyMask m.stored.receivedFlags
        (shiftedMask m.stored.receivedFlags pdIncrement))
  updateNvBlocks
    { m with stored := { m.stored with
        pdIndex := m.stored.pdIndex + pdIncrement } }

/-- `nexus_keycode_pro_is_message_id_within_window`. -/
def isMessageIdWithinWindow (m : Machine) (fullMessageId : UInt16) : Bool :=
  decide (m.pdIndex - receiveWindowBeforePd ≤ fullMessageId.toUInt32) &&
    decide (m.pdIndex + receiveWindowAfterPd ≥ fullMessageId.toUInt32)

/-- `nexus_keycode_pro_mask_idx_from_message_id`. -/
def maskIdxFromMessageId (m : Machine) (fullMessageId : UInt16) :
    Option UInt8 :=
  if m.isMessageIdWithinWindow fullMessageId = false then none
  else if m.pdIndex ≥ fullMessageId.toUInt32 then
    some (receiveWindowBeforePd
      - (m.pdIndex - fullMessageId.toUInt32)).toUInt8
  else
    some (receiveWindowBeforePd
      + (fullMessageId.toUInt32 - m.pdIndex)).toUInt8

/-- `nexus_keycode_pro_update_window_and_message_mask_id`: the mask index the
caller reads back, and the machine after the window moved. Whether it moved is
returned too and ignored by every caller. -/
def updateWindowAndMessageMaskId (m : Machine) (fullMessageId : UInt16) :
    UInt8 × Machine :=
  let curPd := m.pdIndex
  if fullMessageId.toUInt32 > curPd then
    (receiveWindowBeforePd.toUInt8,
      m.increasePdAndShiftWindowRight (fullMessageId.toUInt32 - curPd))
  else if fullMessageId.toUInt32 ≥ curPd - receiveWindowBeforePd then
    let maskIdIndex :=
      (receiveWindowBeforePd - (curPd - fullMessageId.toUInt32)).toUInt8
    if maskIdIndex > receiveWindowBeforePd.toUInt8 then
      (receiveWindowBeforePd.toUInt8, m)
    else (maskIdIndex, m)
  else (receiveWindowBeforePd.toUInt8, m)

/-- The answer of `nexus_keycode_pro_get_full_message_id_flag` once NV has been
read. -/
def idFlag (m : Machine) (fullMessageId : UInt16) : Bool :=
  if fullMessageId.toUInt32 > m.pdIndex then false
  else
    match m.maskIdxFromMessageId fullMessageId with
    | some maskIdIndex =>
        bitsetContains m.stored.receivedFlags maskIdIndex.toUInt16
    | none => false

/-- `nexus_keycode_pro_get_full_message_id_flag`. -/
def getFullMessageIdFlag (m : Machine) (fullMessageId : UInt16) :
    Bool × Machine :=
  (m.readNv.idFlag fullMessageId, m.readNv)

/-- `nexus_keycode_pro_set_full_message_id_flag`. -/
def setFullMessageIdFlag (m : Machine) (fullMessageId : UInt16) : Machine :=
  let r := m.getFullMessageIdFlag fullMessageId
  if r.1 then r.2
  else
    let w := r.2.updateWindowAndMessageMaskId fullMessageId
    (w.2.setFlags
      (bitsetAdd w.2.stored.receivedFlags w.1.toUInt16)).updateNvBlocks

/-- The masking loop of `nexus_keycode_pro_mask_below_message_id`: flags `0` up
to and including `maskIdIndex`. -/
def maskFlags (m : Machine) (maskIdIndex : UInt8) : Machine :=
  m.setFlags ((List.range (maskIdIndex.toNat + 1)).foldl
    (fun flags i => bitsetAdd flags (UInt16.ofNat i)) m.stored.receivedFlags)

/-- `nexus_keycode_pro_mask_below_message_id`. -/
def maskBelowMessageId (m : Machine) (fullMessageId : UInt16) : Machine :=
  if fullMessageId = 0 then m
  else if fullMessageId.toUInt32 < m.pdIndex - receiveWindowBeforePd then m
  else
    let w := m.updateWindowAndMessageMaskId (fullMessageId - 1)
    (w.2.maskFlags w.1).updateNvBlocks

/-! ## Test code counts and custom flags -/

/-- `nexus_keycode_pro_get_long_qc_code_count`, the high nibble. -/
def getLongQcCodeCount (m : Machine) : UInt8 :=
  (m.stored.qcTestCodesReceived &&& 0xF0) >>> 4

/-- `nexus_keycode_pro_get_short_qc_code_count`, the low nibble. -/
def getShortQcCodeCount (m : Machine) : UInt8 :=
  m.stored.qcTestCodesReceived &&& 0x0F

/-- `nexus_keycode_pro_increment_long_qc_test_message_count`. -/
def incrementLongQcTestMessageCount (m : Machine) (cfg : Config) : Machine :=
  let newLongCodeCount := m.getLongQcCodeCount + 1
  if newLongCodeCount > 15
      ∨ newLongCodeCount.toNat > cfg.factoryQcLongLifetimeMax then m
  else
    updateNvBlocks { m with stored := { m.stored with
      qcTestCodesReceived :=
        (m.stored.qcTestCodesReceived &&& (0x0F : UInt8))
          ||| (newLongCodeCount <<< (4 : UInt8)) } }

/-- `nexus_keycode_pro_increment_short_qc_test_message_count`. -/
def incrementShortQcTestMessageCount (m : Machine) (cfg : Config) : Machine :=
  let newShortCodeCount := m.getShortQcCodeCount + 1
  if newShortCodeCount > 15
      ∨ newShortCodeCount.toNat > cfg.factoryQcShortLifetimeMax then m
  else
    updateNvBlocks { m with stored := { m.stored with
      qcTestCodesReceived :=
        (m.stored.qcTestCodesReceived &&& (0xF0 : UInt8))
          ||| newShortCodeCount } }

/-- `nx_keycode_set_custom_flag`. -/
def setCustomFlag (m : Machine) (flag : CustomFlag) : Machine :=
  emit
    (updateNvBlocks { m with stored := { m.stored with
      customFlags := m.stored.customFlags ||| flag.bit } })
    (.customFlagChanged flag true)

/-- `nexus_keycode_pro_reset_custom_flag`. -/
def resetCustomFlag (m : Machine) (flag : CustomFlag) : Machine :=
  emit
    (updateNvBlocks { m with stored := { m.stored with
      customFlags := m.stored.customFlags &&& ~~~flag.bit } })
    (.customFlagChanged flag false)

/-- `nexus_keycode_pro_init`, as far as the stored structure goes: zeroed, the
window put at its start, and overwritten from NV by reading a flag. -/
def init (m : Machine) : Machine :=
  (getFullMessageIdFlag { m with stored := Stored.factory } 0).2

end Machine

/-! ## Inferring a full id -/

/-- The search of `nexus_keycode_pro_infer_full_message_id`, upwards from
`curId` while it is not above the window. -/
def inferLoop (compressed : UInt8) (last : UInt32) : Nat → UInt32 → UInt32
  | 0, curId => curId
  | fuel + 1, curId =>
      if curId ≤ last then
        if curId &&& 0x3F = compressed.toUInt32 then curId
        else inferLoop compressed last fuel (curId + 1)
      else curId

/-- `nexus_keycode_pro_infer_full_message_id` at the window sizes of both
protocols. The 64 ids of a window hit every 6-bit value, so 64 rounds are
enough. -/
def inferFullMessageId (compressed : UInt8) (currentPdIndex : UInt32) :
    UInt32 :=
  inferLoop compressed (currentPdIndex + receiveWindowAfterPd) 64
    (currentPdIndex - receiveWindowBeforePd)

end Nexus.Keycode
