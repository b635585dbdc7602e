import Nexus.Keycode.Small

/-!
# The full protocol

Full-protocol frames are decimal. Fourteen digits are an activation message:
a type digit, two digits of compressed id and five of body, each shifted by a
pseudorandom byte drawn from the six check digits that follow. Any other length
goes to the factory and passthrough parser, which reads the type digit as it
stands and lets it decide what else to pull.
-/

namespace Nexus.Keycode

open Nexus.Util

/-! ## Messages -/

/-- `NEXUS_KEYCODE_PRO_FULL_ACTIVATION_ADD_CREDIT`. -/
def fullActivationAddCredit : UInt8 := 0
/-- `NEXUS_KEYCODE_PRO_FULL_ACTIVATION_SET_CREDIT`. -/
def fullActivationSetCredit : UInt8 := 1
/-- `NEXUS_KEYCODE_PRO_FULL_ACTIVATION_WIPE_STATE`. -/
def fullActivationWipeState : UInt8 := 2
/-- `NEXUS_KEYCODE_PRO_FULL_ACTIVATION_DEMO_CODE`. -/
def fullActivationDemoCode : UInt8 := 3
/-- `NEXUS_KEYCODE_PRO_FULL_FACTORY_ALLOW_TEST`. -/
def fullFactoryAllowTest : UInt8 := 4
/-- `NEXUS_KEYCODE_PRO_FULL_FACTORY_QC_TEST`. -/
def fullFactoryQcTest : UInt8 := 5
/-- `NEXUS_KEYCODE_PRO_FULL_FACTORY_DEVICE_ID_DISPLAY`. -/
def fullFactoryDeviceIdDisplay : UInt8 := 6
/-- `NEXUS_KEYCODE_PRO_FULL_FACTORY_NOMAC_DEVICE_ID_CONFIRMATION`. -/
def fullFactoryNomacDeviceIdConfirmation : UInt8 := 7
/-- `NEXUS_KEYCODE_PRO_FULL_PASSTHROUGH_COMMAND`. -/
def fullPassthroughCommand : UInt8 := 8

/-- `NEXUS_KEYCODE_PRO_SECONDS_IN_HOUR`. -/
def secondsInHour : UInt32 := 3600
/-- `NEXUS_KEYCODE_PRO_FULL_UNLOCK_INCREMENT`. -/
def fullUnlockIncrement : UInt32 := 99999
/-- `NEXUS_KEYCODE_PRO_QC_SHORT_TEST_MESSAGE_SECONDS`. -/
def qcShortTestMessageSeconds : UInt32 := 600

/-- `struct nexus_keycode_pro_full_message`. The body is a union of four bytes:
hours, a wipe target, QC minutes or a device id. -/
structure FullMessage where
  fullMessageId : UInt32
  typeCode : UInt8
  body : UInt32
  check : UInt32
deriving DecidableEq

/-- `nexus_keycode_pro_full_compute_check`: six decimal digits of the lower
half of the check over id, type and body. -/
def fullComputeCheck (message : FullMessage) (key : CheckKey) : UInt32 :=
  let checkVal := checkCompute key
    (le32 message.fullMessageId ++ message.typeCode :: le32 message.body)
  (checkValueAsUint64 checkVal).toUInt32 % 1000000

/-! ## Parsing -/

/-- The loop of `_mathmod10`; adding ten as often as the argument is below
zero is always enough. -/
def mathmod10Loop : Nat → Int → Int
  | 0, x => x
  | fuel + 1, x => if x < 0 then mathmod10Loop fuel (x + 10) else x

/-- `_mathmod10`. -/
def mathmod10 (x : Int) : UInt8 :=
  (UInt32.ofInt (mathmod10Loop (-x).toNat x) % 10).toUInt8

/-- The pseudorandom bytes a full check value yields. -/
def fullPrngBytes (checkValue : UInt32) : List UInt8 :=
  checkComputePseudorandomBytes integrityCheckFixed00Key (le32 checkValue) 8

/-- One digit of `nexus_keycode_pro_full_deinterleave`. -/
def deinterleaveKey (bodyChar : Key) (perturbation : UInt8) : Key :=
  let bodyDigit : Int := (bodyChar - 48) % 256
  (mathmod10 (bodyDigit - perturbation.toNat)).toNat + 48

/-- `nexus_keycode_pro_full_deinterleave`, on the keys of a frame. -/
def fullDeinterleave (keys : List Key) (checkValue : UInt32) : List Key :=
  let prngBytes := fullPrngBytes checkValue
  keys.mapIdx fun i bodyChar =>
    if i < 8 then deinterleaveKey bodyChar (prngBytes.getD i 0) else bodyChar

/-- `(void) nexus_digits_pull_uint8(&digits, 1)`, `left` times over. -/
def skipDigits : Nat → Digits → Digits
  | 0, digits => digits
  | left + 1, digits => skipDigits left (digitsPullUint8 digits 1).2

/-- `nexus_keycode_pro_full_check_field_from_frame`. -/
def fullCheckFieldFromFrame (keys : List Key) (stale : Nat → Key) : UInt32 :=
  if keys.length < 6 then 0
  else
    (digitsPullUint32
      (skipDigits (keys.length - 6) (digitsInit keys stale)) 6).1

/-- The body of an activation message, by type: five digits of hours, or four
reserved digits and a wipe target. `none` is an unsupported type. -/
def fullActivationBody (typeCode : UInt8) (digits : Digits) :
    Option (UInt32 × Digits) :=
  if typeCode = fullActivationAddCredit ∨ typeCode = fullActivationDemoCode
      ∨ typeCode = fullActivationSetCredit then
    some (digitsPullUint32 digits 5)
  else if typeCode = fullActivationWipeState then
    let reserved := digitsPullUint32 digits 4
    let target := digitsPullUint8 reserved.2 1
    some (target.1.toUInt32, target.2)
  else none

/-- The second half of `nexus_keycode_pro_full_parse_activation`, once check,
type and compressed id have been pulled. -/
def fullParseActivationBody (pdIndex check : UInt32)
    (typeCode receivedMessageId : UInt8) (digits : Digits) :
    Option FullMessage :=
  if receivedMessageId > 63 then none
  else
    match fullActivationBody typeCode digits with
    | none => none
    | some (body, digits) =>
        let digits := (digitsPullUint32 digits 6).2
        if digits.length = digits.position then
          some ⟨inferFullMessageId receivedMessageId pdIndex, typeCode,
            body, check⟩
        else none

/-- `nexus_keycode_pro_full_parse_activation`. -/
def fullParseActivation (pdIndex : UInt32) (keys : List Key)
    (stale : Nat → Key) : Option FullMessage :=
  let check := fullCheckFieldFromFrame keys stale
  let digits := digitsInit (fullDeinterleave keys check) stale
  let typeCode := digitsPullUint8 digits 1
  let receivedMessageId := digitsPullUint8 typeCode.2 2
  fullParseActivationBody pdIndex check typeCode.1 receivedMessageId.1
    receivedMessageId.2

/-- The branch of `nexus_keycode_pro_full_parse_factory_and_passthrough` for
type digits below 7, after the type digit: a QC body if the type says so, and
the MAC. -/
def fullParseFactoryMac (typeCode : UInt8) (underrun : Bool)
    (digits : Digits) : Option FullMessage :=
  let qc :=
    if typeCode = fullFactoryQcTest then
      let reserved := digitsPullUint32 digits 3
      let minutes := digitsPullUint8 reserved.2 2
      (minutes.1.toUInt32, minutes.2)
    else (0, digits)
  let check := digitsTryPullUint32 qc.2 6 underrun
  if check.2.1 = false ∧ check.2.2.length = check.2.2.position then
    some ⟨0, typeCode, qc.1, check.1⟩
  else none

/-- The NOMAC branch: every digit after the type is a device id of 8 to 10
digits. -/
def fullParseNomacDeviceId (typeCode : UInt8) (underrun : Bool)
    (digits : Digits) : Option FullMessage :=
  let serialIdLength := UInt8.ofNat (digits.length + 255)
  if serialIdLength < 8 ∨ serialIdLength > 10 then none
  else
    let deviceId :=
      digitsTryPullUint32 digits serialIdLength.toNat underrun
    if deviceId.2.1 = false
        ∧ deviceId.2.2.length = deviceId.2.2.position then
      some ⟨0, typeCode, deviceId.1, 0⟩
    else none

namespace Machine

/-- `nexus_keycode_pro_full_parse_factory_and_passthrough`. -/
def fullParseFactoryAndPassthrough (m : Machine) (env : Env)
    (keys : List Key) : Option FullMessage × Machine :=
  if keys.length > 30 then (none, m)
  else
    let r := digitsTryPullUint32 (digitsInit keys env.stack.digitChars) 1 false
    let typeCode := r.1.toUInt8
    let underrun := r.2.1
    let digits := r.2.2
    if typeCode < fullFactoryNomacDeviceIdConfirmation then
      (fullParseFactoryMac typeCode underrun digits, m)
    else if typeCode = fullFactoryNomacDeviceIdConfirmation then
      (fullParseNomacDeviceId typeCode underrun digits, m)
    else if typeCode = fullPassthroughCommand then
      if digits.length > 2 ∧ digits.length ≠ 14 then
        let code := keys.drop digits.position
        (if env.passthroughKeycode code = .none then
            some ⟨0, typeCode, 0, 0⟩
          else none,
          m.emit (.passthrough code))
      else (none, m)
    else if underrun = false ∧ digits.length = digits.position then
      (some ⟨0, typeCode, 0, 0⟩, m)
    else (none, m)

/-- `nexus_keycode_pro_full_parse`. -/
def fullParse (m : Machine) (env : Env) (frame : Frame) :
    Option FullMessage × Machine :=
  if frame.keys.length = 14 then
    (fullParseActivation m.pdIndex frame.keys env.stack.digitChars, m)
  else m.fullParseFactoryAndPassthrough env frame.keys

/-! ## Application -/

/-- The WIPE_STATE branch of `nexus_keycode_pro_full_apply_activation`. -/
def fullApplyWipeState (m : Machine) (message : FullMessage) :
    Response × Machine :=
  let m := m.maskBelowMessageId (message.fullMessageId + 1).toUInt16
  if message.body = 0x01 then (.validApplied, m.wipeMask.emit (.creditSet 0))
  else if message.body = 0x00 then (.validApplied, m.emit (.creditSet 0))
  else if message.body = 0x02 then (.validApplied, m.wipeMask)
  else if message.body = 0x03 then
    (.validApplied, m.resetCustomFlag .restricted)
  else (.invalid, m)

/-- `nexus_keycode_pro_full_apply_activation`. -/
def fullApplyActivation (m : Machine) (env : Env) (message : FullMessage) :
    Response × Machine :=
  let r := m.getFullMessageIdFlag message.fullMessageId.toUInt16
  let creditIncrementSeconds := message.body * secondsInHour
  if r.1 then (.validDuplicate, r.2)
  else if message.typeCode = fullActivationAddCredit then
    let m := r.2.setFullMessageIdFlag message.fullMessageId.toUInt16
    if env.paygState ≠ .unlocked then
      (.validApplied, m.emit (.creditAdd creditIncrementSeconds))
    else (.validDuplicate, m)
  else if message.typeCode = fullActivationDemoCode then
    -- the body counts minutes, and no id is marked
    if env.paygState ≠ .unlocked then
      (.validApplied, r.2.emit (.creditAdd (message.body * 60)))
    else (.validApplied, r.2)
  else if message.typeCode = fullActivationSetCredit then
    let m := r.2.maskBelowMessageId (message.fullMessageId + 1).toUInt16
    if message.body = fullUnlockIncrement then
      (.validApplied, m.emit .creditUnlock)
    else (.validApplied, m.emit (.creditSet creditIncrementSeconds))
  else if message.typeCode = fullActivationWipeState then
    r.2.fullApplyWipeState message
  else (.invalid, r.2)

/-- `nexus_keycode_pro_can_unit_accept_qc_code`. -/
def canUnitAcceptQcCode (m : Machine) (cfg : Config) (env : Env)
    (qcCreditSeconds : UInt32) : Bool :=
  if env.paygState = .unlocked then false
  else if qcCreditSeconds ≠ qcLongTestMessageSeconds
      ∧ env.paygState ≠ .disabled then false
  else if qcCreditSeconds ≤ qcShortTestMessageSeconds then
    m.getShortQcCodeCount.toNat < cfg.factoryQcShortLifetimeMax
  else m.getLongQcCodeCount.toNat < cfg.factoryQcLongLifetimeMax

/-- The QC branch of `nexus_keycode_pro_full_apply_factory`. -/
def fullApplyQcTest (m : Machine) (cfg : Config) (env : Env)
    (message : FullMessage) : Response × Machine :=
  let qcCreditSeconds := message.body * 60
  if m.canUnitAcceptQcCode cfg env qcCreditSeconds then
    let m := m.emit (.creditAdd qcCreditSeconds)
    if qcCreditSeconds ≤ qcShortTestMessageSeconds then
      (.validApplied, m.incrementShortQcTestMessageCount cfg)
    else (.validApplied, m.incrementLongQcTestMessageCount cfg)
  else (.validDuplicate, m)

/-- `nexus_keycode_pro_full_apply_factory`. -/
def fullApplyFactory (m : Machine) (cfg : Config) (env : Env)
    (message : FullMessage) : Response × Machine :=
  if message.typeCode = fullFactoryAllowTest then
    if env.paygState = .disabled then
      (.validApplied, m.emit (.creditAdd universalShortTestSeconds))
    else (.validDuplicate, m)
  else if message.typeCode = fullFactoryQcTest then
    m.fullApplyQcTest cfg env message
  else if message.typeCode = fullFactoryDeviceIdDisplay then
    (.displayDeviceId, m)
  else if message.typeCode = fullFactoryNomacDeviceIdConfirmation then
    if message.body = env.userFacingId then (.validApplied, m)
    else (.validDuplicate, m)
  else (.invalid, m)

end Machine

/-- Activation messages are checked under the device's key, factory messages
under the fixed one. -/
def fullCheckKey (env : Env) (message : FullMessage) : CheckKey :=
  if message.typeCode < fullFactoryAllowTest then env.secretKey
  else integrityCheckFixed00Key

namespace Machine

/-- `nexus_keycode_pro_full_apply`. -/
def fullApply (m : Machine) (cfg : Config) (env : Env)
    (message : FullMessage) : Response × Machine :=
  if message.check ≠ fullComputeCheck message (fullCheckKey env message)
      ∧ message.typeCode < fullFactoryNomacDeviceIdConfirmation then
    (.invalid, m)
  else if message.typeCode < fullFactoryAllowTest then
    m.fullApplyActivation env message
  else m.fullApplyFactory cfg env message

/-- `nexus_keycode_pro_full_parse_and_apply`. -/
def fullParseAndApply (m : Machine) (cfg : Config) (env : Env)
    (frame : Frame) : Response × Machine :=
  match m.fullParse env frame with
  | (none, m) => (.invalid, m)
  | (some message, m) =>
      if message.typeCode = fullPassthroughCommand then (.none, m)
      else m.fullApply cfg env message

end Machine

end Nexus.Keycode
