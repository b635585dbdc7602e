import Nexus.Keycode.Full

/-!
# Message assembly, rate limiting and the core

`nexus_keycode_mas.c` collects keys into frames and pays for every finished one
out of a token bucket of seconds; `nexus_keycode_core.c` drives it and the
protocol layer, which holds one pending frame and interprets it on the next
`process` call. Keys arrive in interrupts, NV is written only while
processing, and a power cycle refills the bucket from what NV last held: the
three meet in the one `System` below.

`handed` is not a variable of the program. It records the frames
`nexus_keycode_pro_process` has passed to `parse_and_apply`.
-/

namespace Nexus.Keycode

open Nexus.Util

/-- `NEXUS_KEYCODE_START_CHAR`. -/
def Config.startChar (cfg : Config) : Key :=
  match cfg.protocol with
  | .full => 42
  | .small => 49

/-- `NEXUS_KEYCODE_END_CHAR`. -/
def Config.endChar (cfg : Config) : Key :=
  match cfg.protocol with
  | .full => 35
  | .small => 63

/-- `NEXUS_KEYCODE_PROTOCOL_STOP_LENGTH`; `none` is
`NEXUS_KEYCODE_PROTOCOL_NO_STOP_LENGTH`. -/
def Config.stopLength (cfg : Config) : Option Nat :=
  match cfg.protocol with
  | .full => none
  | .small => some 14

/-- The keycode module as a whole: the protocol layer's machine and pending
frame, and the assembly layer's two static structures. -/
structure System where
  pro : Machine
  frame : Frame
  pending : Bool
  graceperiodKeycodes : UInt8
  gracePad : Vector UInt8 3
  partialFrame : Frame
  maxLengthExceeded : Bool
  rlBucket : UInt32
  startSeen : Bool
  latestUptime : UInt32
  handed : List Frame

namespace System

variable (s : System) (cfg : Config)

/-- `nxp_keycode_feedback_start`. -/
def feedbackStart (feedback : FeedbackType) : System :=
  { s with pro := s.pro.emit (.feedbackStart feedback) }

/-! ## The rate limit -/

/-- `max_rate_limit_seconds`. -/
def maxRateLimitSeconds : UInt32 :=
  UInt32.ofNat (cfg.rateLimitBucketMax * cfg.rateLimitRefillSecondsPerAttempt)

/-- `nexus_keycode_rate_limit_add_time`. -/
def rateLimitAddTime (secondsElapsed : UInt32) : System :=
  if secondsElapsed > UInt32.ofNat (2 ^ 32 - 1) - s.rlBucket
      ∨ s.rlBucket + secondsElapsed ≥ maxRateLimitSeconds cfg then
    { s with rlBucket := maxRateLimitSeconds cfg }
  else { s with rlBucket := s.rlBucket + secondsElapsed }

/-- `nx_keycode_is_rate_limited`. -/
def isRateLimited : Bool :=
  if cfg.rateLimitBucketMax = 0 then false
  else s.rlBucket.toNat < cfg.rateLimitRefillSecondsPerAttempt

/-- The loop of `nexus_keycode_rate_limit_attempts_remaining`. A refill is at
least one second, so the seconds themselves bound the rounds. -/
def attemptsLoop (refill : Nat) : Nat → Nat → UInt32 → UInt32
  | 0, _, attemptsRemaining => attemptsRemaining
  | fuel + 1, secondsRemaining, attemptsRemaining =>
      if secondsRemaining ≥ refill then
        attemptsLoop refill fuel (secondsRemaining - refill)
          (attemptsRemaining + 1)
      else attemptsRemaining

/-- `nexus_keycode_rate_limit_attempts_remaining`. -/
def rateLimitAttemptsRemaining : UInt32 :=
  if cfg.rateLimitBucketMax = 0 then 0
  else
    attemptsLoop cfg.rateLimitRefillSecondsPerAttempt s.rlBucket.toNat
      s.rlBucket.toNat 0

/-- `nexus_keycode_rate_limit_deduct_msg`. -/
def rateLimitDeductMsg : System :=
  if cfg.rateLimitBucketMax ≠ 0
      ∧ s.rlBucket.toNat ≥ cfg.rateLimitRefillSecondsPerAttempt then
    { s with rlBucket := s.rlBucket
        - UInt32.ofNat cfg.rateLimitRefillSecondsPerAttempt }
  else s

/-- `nexus_keycode_mas_remaining_graceperiod_keycodes`, at the current
bucket. -/
def remainingGraceperiodKeycodes : UInt8 :=
  if cfg.rateLimitBucketMax = 0 then 0
  else if s.rlBucket.toNat ≥ cfg.rateLimitBucketInitialCount
      * cfg.rateLimitRefillSecondsPerAttempt then
    UInt8.ofNat cfg.rateLimitBucketInitialCount
  else (s.rateLimitAttemptsRemaining cfg).toUInt8

/-- `nexus_keycode_mas_graceperiod_keycodes_update_nv`. -/
def graceperiodKeycodesUpdateNv (newGraceperiodKeycodes : UInt8) : System :=
  if newGraceperiodKeycodes = s.graceperiodKeycodes then s
  else
    { s with
      graceperiodKeycodes := newGraceperiodKeycodes
      pro := s.pro.nvUpdate Nv.blockKeycodeMas
        (newGraceperiodKeycodes :: s.gracePad.toList) }

/-! ## Frames -/

/-- `nexus_keycode_mas_reset`. -/
def masReset : System :=
  { s with partialFrame := ⟨[], by simp⟩, maxLengthExceeded := false }

/-- `nexus_keycode_mas_push`. -/
def masPush (key : Key) : System :=
  if h : s.partialFrame.keys.length < 30 then
    { s with partialFrame := ⟨s.partialFrame.keys ++ [key], by
        simpa using h⟩ }
  else { s with maxLengthExceeded := true }

/-- `nexus_keycode_pro_enqueue`. -/
def enqueue (frame : Frame) : System :=
  if s.pending then s else { s with frame := frame, pending := true }

/-- `nexus_keycode_mas_finish`, with `nexus_keycode_pro_enqueue` as its
handler. -/
def masFinish : System :=
  let s :=
    if s.partialFrame.keys.length > 0 ∧ s.maxLengthExceeded = false then
      s.enqueue s.partialFrame
    else s.feedbackStart .messageInvalid
  (s.rateLimitDeductMsg cfg).masReset

/-- `nexus_keycode_has_reached_stop_length`. -/
def hasReachedStopLength : Bool :=
  match cfg.stopLength with
  | none => false
  | some stopLength => s.partialFrame.keys.length ≥ stopLength

/-- `nexus_keycode_mas_bookend_reset`. -/
def bookendReset : System := { s with startSeen := false }

/-- `nexus_keycode_mas_bookend_process`; `uptime` is what
`nexus_common_uptime` reports. -/
def bookendProcess (uptime : UInt32) : System :=
  if s.startSeen then
    let latestUptime :=
      if s.latestUptime = UInt32.ofNat (2 ^ 32 - 1) then uptime
      else s.latestUptime
    let s := { s with latestUptime := latestUptime }
    if (uptime - latestUptime).toNat > cfg.protocolEntryTimeoutSeconds then
      s.bookendReset.masReset
    else s
  else s

/-- `nexus_keycode_mas_bookend_push`. -/
def bookendPush (key : Key) : System :=
  let s := { s with latestUptime := UInt32.ofNat (2 ^ 32 - 1) }
  if s.isRateLimited cfg then s.feedbackStart .keyRejected
  else if key = cfg.startChar then
    masReset { s.feedbackStart .keyAccepted with startSeen := true }
  else if s.startSeen then
    if key = cfg.endChar then s.bookendReset.masFinish cfg
    else
      let s := s.masPush key
      if s.hasReachedStopLength cfg then s.bookendReset.masFinish cfg
      else s.feedbackStart .keyAccepted
  else s.feedbackStart .keyRejected

/-- `struct nx_keycode_complete_code`. The pointer may be followed past the
keys that were entered, so the keys are whatever memory holds. -/
structure CompleteCode where
  keys : Nat → Key
  length : UInt8

/-- The loop of `nx_keycode_handle_complete_keycode`, from key `i` on. -/
def pushLoop (code : CompleteCode) : Nat → Nat → System → System
  | 0, _, s => s
  | left + 1, i, s =>
      let s := s.masPush (code.keys i)
      if s.hasReachedStopLength cfg then s
      else pushLoop code left (i + 1) s

/-- `nx_keycode_handle_complete_keycode`. -/
def handleCompleteKeycode (code : CompleteCode) : System :=
  if s.isRateLimited cfg then s.feedbackStart .messageInvalid
  else if code.keys 0 ≠ cfg.startChar then s.feedbackStart .messageInvalid
  else
    let s := masReset { s with startSeen := true }
    let lastKeycodeChar :=
      match cfg.protocol with
      | .small => code.length
      | .full => code.length - 1
    let s := pushLoop cfg code (lastKeycodeChar.toNat - 1) 1 s
    s.bookendReset.masFinish cfg

/-! ## Processing and initialisation -/

/-- The feedback `nexus_keycode_pro_process` gives for a response. -/
def responseFeedback : Response → FeedbackType
  | .invalid => .messageInvalid
  | .validDuplicate => .messageValid
  | .validApplied => .messageApplied
  | .displayDeviceId => .displaySerialId
  | .none => .none

/-- The configured `parse_and_apply`. -/
def parseAndApply (env : Env) (frame : Frame) (m : Machine) :
    Response × Machine :=
  match cfg.protocol with
  | .full => m.fullParseAndApply cfg env frame
  | .small => m.smallParseAndApply cfg env frame

/-- `nexus_keycode_pro_process`. -/
def proProcess (env : Env) : System :=
  if s.pending then
    let r := parseAndApply cfg env s.frame s.pro
    let feedback := responseFeedback r.1
    let s := { s with
      pro := r.2
      handed := s.handed ++ [s.frame] }
    let s := if feedback ≠ .none then s.feedbackStart feedback else s
    { s with pending := false }
  else s

/-- `nexus_keycode_mas_process`. -/
def masProcess (secondsElapsed uptime : UInt32) : System :=
  let s := s.rateLimitAddTime cfg secondsElapsed
  let s := s.graceperiodKeycodesUpdateNv (s.remainingGraceperiodKeycodes cfg)
  s.bookendProcess cfg uptime

/-- `nexus_keycode_core_process`. -/
def coreProcess (env : Env) (secondsElapsed uptime : UInt32) : System :=
  (s.masProcess cfg secondsElapsed uptime).proProcess cfg env

/-- `nexus_keycode_mas_init`. -/
def masInit : System :=
  let s := { s with
    graceperiodKeycodes := UInt8.ofNat cfg.rateLimitBucketInitialCount }
  let s :=
    match Nv.nvRead s.pro.nv Nv.blockKeycodeMas with
    | some inner =>
        { s with
          graceperiodKeycodes := inner.getD 0 0
          gracePad := #v[inner.getD 1 0, inner.getD 2 0, inner.getD 3 0] }
    | none => s
  masReset { s with
    rlBucket := s.graceperiodKeycodes.toUInt32
      * UInt32.ofNat cfg.rateLimitRefillSecondsPerAttempt }

/-- `nexus_keycode_core_init`. -/
def coreInit : System :=
  let s := { s with pending := false, pro := s.pro.init }
  (s.masInit cfg).bookendReset

/-- RAM as a power cycle leaves it, before `nexus_keycode_core_init` runs:
statics zeroed, NV kept. -/
def powerUp (nv : Nv.Store) (effects : List Effect) (handed : List Frame) :
    System where
  pro := ⟨⟨Vector.replicate 5 0, 0, 0, 0, 0⟩, nv, effects⟩
  frame := ⟨[], by simp⟩
  pending := false
  graceperiodKeycodes := 0
  gracePad := Vector.replicate 3 0
  partialFrame := ⟨[], by simp⟩
  maxLengthExceeded := false
  rlBucket := 0
  startSeen := false
  latestUptime := 0
  handed := handed

/-- A power cycle. -/
def reboot : System :=
  (powerUp s.pro.nv s.pro.effects s.handed).coreInit cfg

/-- What can happen to the keycode module from outside. -/
inductive Op
  | singleKey (key : Key)
  | completeKeycode (code : CompleteCode)
  | process (env : Env) (secondsElapsed uptime : UInt32)
  | reboot

/-- One operation. -/
def step (s : System) : Op → System
  | .singleKey key => s.bookendPush cfg key
  | .completeKeycode code => s.handleCompleteKeycode cfg code
  | .process env secondsElapsed uptime =>
      s.coreProcess cfg env secondsElapsed uptime
  | .reboot => s.reboot cfg

end System

end Nexus.Keycode
