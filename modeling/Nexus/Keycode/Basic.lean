import Nexus.Nv
import Nexus.Util.Bitset
import Nexus.Util.Check
import Nexus.Util.Digits

/-!
# The keycode module's state and surroundings

What the keycode protocol code keeps in RAM and NV, what it is told by the
product while it handles one frame, and what it does to the product in return.

A `Machine` is the stored structure, the NV store behind it and the calls made
to the outside, in order. The product side is an input: the secret key, the
PAYG state it reports, the passthrough handler, and the stale contents of the
stack buffers are all read from an `Env`, so nothing is assumed about them.
-/

namespace Nexus.Keycode

open Nexus.Util

/-! ## Configuration -/

/-- `NEXUS_KEYCODE_PROTOCOL`. -/
inductive Protocol
  | full
  | small
deriving DecidableEq

/-- The compile-time configuration, with the bounds `internal_keycode_config.h`
turns into `#error`s. -/
structure Config where
  protocol : Protocol
  /-- the alphabet handed to `nexus_keycode_pro_small_init` -/
  alphabet : List Key
  factoryQcShortLifetimeMax : Nat
  factoryQcLongLifetimeMax : Nat
  rateLimitBucketMax : Nat
  rateLimitBucketInitialCount : Nat
  rateLimitRefillSecondsPerAttempt : Nat
  protocolEntryTimeoutSeconds : Nat
  qcShort_small : protocol = .small → factoryQcShortLifetimeMax = 0
  qcShort_le : factoryQcShortLifetimeMax ≤ 15
  qcLong_le : factoryQcLongLifetimeMax ≤ 15
  bucketMax_le : rateLimitBucketMax ≤ 255
  bucketInitialCount_le : rateLimitBucketInitialCount ≤ 255
  refill_le : rateLimitRefillSecondsPerAttempt ≤ 3600
  refill_pos : rateLimitBucketMax ≠ 0 → 0 < rateLimitRefillSecondsPerAttempt

/-- `NEXUS_KEYCODE_ALPHABET`. -/
def Protocol.alphabet : Protocol → List Key
  | .full => [48, 49, 50, 51, 52, 53, 54, 55, 56, 57]
  | .small => [50, 51, 52, 53]

/-- The defaults of `Kconfig`, for either protocol. -/
def Config.default (protocol : Protocol) : Config where
  protocol := protocol
  alphabet := protocol.alphabet
  factoryQcShortLifetimeMax := if protocol = .full then 5 else 0
  factoryQcLongLifetimeMax := 5
  rateLimitBucketMax := 128
  rateLimitBucketInitialCount := 6
  rateLimitRefillSecondsPerAttempt := 720
  protocolEntryTimeoutSeconds := 16
  qcShort_small := by rintro rfl; rfl
  qcShort_le := by split <;> decide
  qcLong_le := by decide
  bucketMax_le := by decide
  bucketInitialCount_le := by decide
  refill_le := by decide
  refill_pos := by decide

/-! ## The product side -/

/-- `enum nxp_common_payg_state`. -/
inductive PaygState
  | disabled
  | enabled
  | unlocked
deriving DecidableEq

/-- `enum nxp_keycode_passthrough_error`. -/
inductive PassthroughError
  | none
  | dataUnrecognized
  | dataInvalidValueOrSize
  | unknown
deriving DecidableEq

/-- `enum nxp_keycode_feedback_type`. -/
inductive FeedbackType
  | none
  | messageInvalid
  | messageValid
  | messageApplied
  | keyAccepted
  | keyRejected
  | displaySerialId
deriving DecidableEq

/-- `enum nx_keycode_custom_flag`. -/
inductive CustomFlag
  | restricted
deriving DecidableEq

/-- The bit of a custom flag in the stored mask. -/
def CustomFlag.bit : CustomFlag → UInt8
  | .restricted => 0x01

/-- What one call finds in the stack arrays it does not initialise. -/
structure Stack where
  messageBytes : Vector UInt8 4
  deobfuscatedBytes : Vector UInt8 4
  passthroughBytes : Vector UInt8 4
  digitChars : Nat → Key

/-- Everything the handling of one frame reads from outside. -/
structure Env where
  /-- `nxp_keycode_get_secret_key` -/
  secretKey : CheckKey
  /-- `nxp_common_payg_state_get_current` -/
  paygState : PaygState
  /-- `nxp_keycode_get_user_facing_id` -/
  userFacingId : UInt32
  /-- `nxp_keycode_passthrough_keycode` -/
  passthroughKeycode : List Key → PassthroughError
  stack : Stack

/-- The calls that leave the module, `nxp_common_nv_write` among them. -/
inductive Effect
  | nvWrite (blockId : UInt16) (block : List UInt8)
  | creditAdd (credit : UInt32)
  | creditSet (credit : UInt32)
  | creditUnlock
  | feedbackStart (feedback : FeedbackType)
  | customFlagChanged (flag : CustomFlag) (value : Bool)
  | passthrough (keys : List Key)
deriving DecidableEq

/-- The three calls that touch credit. -/
def Effect.isCredit : Effect → Bool
  | .creditAdd _ | .creditSet _ | .creditUnlock => true
  | _ => false

/-- `enum nexus_keycode_pro_response`. -/
inductive Response
  | invalid
  | validDuplicate
  | validApplied
  | displayDeviceId
  | none
deriving DecidableEq

/-! ## Frames -/

/-- `struct nexus_keycode_frame`: at most `NEXUS_KEYCODE_MAX_MESSAGE_LENGTH`
keys. The entries past the length are never read. -/
structure Frame where
  keys : List Key
  length_le : keys.length ≤ 30
deriving DecidableEq

/-! ## Stored state -/

/-- `NEXUS_KEYCODE_PRO_RECEIVE_WINDOW_BEFORE_PD`. -/
def receiveWindowBeforePd : UInt32 := 23

/-- `NEXUS_KEYCODE_PRO_RECEIVE_WINDOW_AFTER_PD`. -/
def receiveWindowAfterPd : UInt32 := 40

/-- `_nexus_keycode_stored`, the structure persisted in NV block 1. -/
structure Stored where
  receivedFlags : Vector UInt8 5
  qcTestCodesReceived : UInt8
  pdIndex : UInt32
  customFlags : UInt8
  pad : UInt8
deriving DecidableEq

/-- The packed memory of the structure, twelve bytes. -/
def Stored.toBytes (s : Stored) : List UInt8 :=
  s.receivedFlags.toList ++ s.qcTestCodesReceived :: le32 s.pdIndex
    ++ [s.customFlags, s.pad]

/-- The structure whose packed memory is `bytes`. -/
def Stored.ofBytes (bytes : List UInt8) : Stored where
  receivedFlags := #v[bytes.getD 0 0, bytes.getD 1 0, bytes.getD 2 0,
    bytes.getD 3 0, bytes.getD 4 0]
  qcTestCodesReceived := bytes.getD 5 0
  pdIndex := ofLe32 (bytes.getD 6 0) (bytes.getD 7 0) (bytes.getD 8 0)
    (bytes.getD 9 0)
  customFlags := bytes.getD 10 0
  pad := bytes.getD 11 0

/-- The structure as `nexus_keycode_pro_init` leaves it before it looks at NV:
all zero but for the window at its initial position. -/
def Stored.factory : Stored where
  receivedFlags := Vector.replicate 5 0
  qcTestCodesReceived := 0
  pdIndex := receiveWindowBeforePd
  customFlags := 0
  pad := 0

theorem Stored.length_toBytes (s : Stored) : s.toBytes.length = 12 := by
  simp [Stored.toBytes, le32]

theorem Stored.ofBytes_toBytes (s : Stored) :
    Stored.ofBytes s.toBytes = s := by
  obtain ⟨flags, qc, pd, custom, pad⟩ := s
  obtain ⟨b0, b1, b2, b3, b4, rfl⟩ :
      ∃ b0 b1 b2 b3 b4, flags = #v[b0, b1, b2, b3, b4] :=
    ⟨flags[0], flags[1], flags[2], flags[3], flags[4], by
      ext i hi; interval_cases i <;> rfl⟩
  have hpd := ofLe32_le32 pd
  simp [Stored.ofBytes, Stored.toBytes, le32, hpd]

theorem Stored.toBytes_injective : Function.Injective Stored.toBytes := by
  intro s t h
  rw [← Stored.ofBytes_toBytes s, h, Stored.ofBytes_toBytes]

/-- The keycode module between two operations, and inside one. -/
structure Machine where
  stored : Stored
  nv : Nv.Store
  effects : List Effect

namespace Machine

/-- A call to the outside. -/
def emit (m : Machine) (e : Effect) : Machine :=
  { m with effects := m.effects ++ [e] }

/-- Forget the calls made so far: the trace of one operation starts here. -/
def quiet (m : Machine) : Machine :=
  { m with effects := [] }

/-- `nexus_keycode_pro_get_current_pd_index`. -/
def pdIndex (m : Machine) : UInt32 := m.stored.pdIndex

/-- `nexus_nv_update`, with the write it makes, if any, in the trace. -/
def nvUpdate (m : Machine) (blockMeta : Nv.BlockMeta) (inner : List UInt8) :
    Machine :=
  match Nv.updateWrites m.nv blockMeta inner with
  | some block =>
      emit { m with nv := Nv.nxpCommonNvWrite m.nv blockMeta block }
        (.nvWrite blockMeta.blockId block)
  | none => m

/-- `_update_keycode_pro_nv_blocks`. -/
def updateNvBlocks (m : Machine) : Machine :=
  m.nvUpdate Nv.blockKeycodePro m.stored.toBytes

/-- `nexus_nv_read` into `_nexus_keycode_stored`, its result ignored. -/
def readNv (m : Machine) : Machine :=
  match Nv.nvRead m.nv Nv.blockKeycodePro with
  | some inner => { m with stored := Stored.ofBytes inner }
  | none => m

end Machine

end Nexus.Keycode
