import Nexus.Lib.Framing
import Nexus.Proofs.Mailbox

/-!
# The assembler implements its framing

Three variables make up an open message: whether the start key was seen, the
partial frame, which has room for thirty keys, and a flag that says there were
more. `Bookends` says what they are for: an open message is the list of its
keys, of any length. Between two calls of `process` the assembler does what
`Bookends` does, key by key, as long as the bucket pays; and once the bucket
does not pay any more, keys are rejected and the three variables stay as they
are.

Entering a code whole is a second way through the same functions, with a loop
of its own.
-/

namespace Nexus.Keycode

open Nexus.Util Nexus.Lib

/-- The framing of a protocol. -/
def Config.bookends (cfg : Config) : Bookends Key :=
  ⟨cfg.startChar, cfg.endChar, cfg.stopLength, 30⟩

namespace System

/-! ## One key -/

/-- The bucket, where there is one, holds less than one refill. -/
def BelowRefill (cfg : Config) (s : System) : Prop :=
  cfg.rateLimitBucketMax ≠ 0 ∧
    s.rlBucket.toNat < cfg.rateLimitRefillSecondsPerAttempt

instance (cfg : Config) (s : System) : Decidable (BelowRefill cfg s) :=
  inferInstanceAs (Decidable (_ ∧ _))

theorem isRateLimited_iff (cfg : Config) (s : System) :
    s.isRateLimited cfg = true ↔ BelowRefill cfg s := by
  rw [isRateLimited, BelowRefill]
  split <;> simp [*]

/-- Every key makes the next `process` take the time. -/
def touch (s : System) : System :=
  { s with latestUptime := UInt32.ofNat (2 ^ 32 - 1) }

/-- What one key can do: the state, if any, on which it calls
`nexus_keycode_mas_finish`, and the state it leaves. -/
inductive Pressed (cfg : Config) (s : System) (key : Key) :
    Option System → System → Prop
  | limited (hlimit : BelowRefill cfg s) :
      Pressed cfg s key none (s.touch.feedbackStart .keyRejected)
  | start (hpaid : ¬ BelowRefill cfg s) (hstart : key = cfg.startChar) :
      Pressed cfg s key none
        (masReset { s.touch.feedbackStart .keyAccepted with
          startSeen := true })
  | outside (hpaid : ¬ BelowRefill cfg s) (hstart : key ≠ cfg.startChar)
      (hseen : s.startSeen = false) :
      Pressed cfg s key none (s.touch.feedbackStart .keyRejected)
  | finish (hpaid : ¬ BelowRefill cfg s) (hstart : key ≠ cfg.startChar)
      (hseen : s.startSeen = true) (hend : key = cfg.endChar) :
      Pressed cfg s key (some s.touch.bookendReset)
        (s.touch.bookendReset.masFinish cfg)
  | stop (hpaid : ¬ BelowRefill cfg s) (hstart : key ≠ cfg.startChar)
      (hseen : s.startSeen = true) (hend : key ≠ cfg.endChar)
      (hstop : (s.touch.masPush key).hasReachedStopLength cfg = true) :
      Pressed cfg s key (some (s.touch.masPush key).bookendReset)
        ((s.touch.masPush key).bookendReset.masFinish cfg)
  | push (hpaid : ¬ BelowRefill cfg s) (hstart : key ≠ cfg.startChar)
      (hseen : s.startSeen = true) (hend : key ≠ cfg.endChar)
      (hstop : (s.touch.masPush key).hasReachedStopLength cfg = false) :
      Pressed cfg s key none
        ((s.touch.masPush key).feedbackStart .keyAccepted)

theorem pressed (cfg : Config) (s : System) (key : Key) :
    Pressed cfg s key (finishing cfg s (.singleKey key))
      (s.bookendPush cfg key) := by
  have hlimited : s.touch.isRateLimited cfg = true ↔ BelowRefill cfg s :=
    isRateLimited_iff cfg s.touch
  rw [finishing, bookendPush, ← touch]
  by_cases hlimit : BelowRefill cfg s
  · rw [if_pos (hlimited.mpr hlimit), if_pos (hlimited.mpr hlimit)]
    exact .limited hlimit
  · have hpaid := fun h => hlimit (hlimited.mp h)
    rw [if_neg hpaid, if_neg hpaid]
    by_cases hstart : key = cfg.startChar
    · rw [if_pos hstart, if_pos hstart]
      exact .start hlimit hstart
    · rw [if_neg hstart, if_neg hstart]
      by_cases hseen : s.touch.startSeen = true
      · rw [if_pos hseen, if_pos hseen]
        by_cases hend : key = cfg.endChar
        · rw [if_pos hend, if_pos hend]
          exact .finish hlimit hstart hseen hend
        · rw [if_neg hend, if_neg hend]
          by_cases hstop :
              (s.touch.masPush key).hasReachedStopLength cfg = true
          · rw [if_pos hstop, if_pos hstop]
            exact .stop hlimit hstart hseen hend hstop
          · rw [if_neg hstop, if_neg hstop]
            exact .push hlimit hstart hseen hend
              (Bool.eq_false_iff.mpr hstop)
      · rw [if_neg hseen, if_neg hseen]
        exact .outside hlimit hstart (Bool.eq_false_iff.mpr hseen)

/-! ## Events -/

/-- `nexus_keycode_mas_finish` calls the handler or rejects the message. -/
def finishEvent (t : System) : FramingEvent Key :=
  if t.partialFrame.keys.length > 0 ∧ t.maxLengthExceeded = false then
    .delivered t.partialFrame.keys
  else .messageInvalid

/-- The feedback a key can be given. -/
def feedbackEvent : Effect → Option (FramingEvent Key)
  | .feedbackStart .keyAccepted => some .keyAccepted
  | .feedbackStart .keyRejected => some .keyRejected
  | _ => none

/-- What a key leads to: a message that is finished, or the feedback it
starts. -/
def keyEvent (cfg : Config) (s : System) (key : Key) :
    Option (FramingEvent Key) :=
  match finishing cfg s (.singleKey key) with
  | some t => some t.finishEvent
  | none => (s.bookendPush cfg key).pro.effects.getLast?.bind feedbackEvent

/-- The assembler's variables hold this open message, or none. -/
structure Tracks (s : System) (message : Option (List Key)) : Prop where
  startSeen : s.startSeen = message.isSome
  kept : ∀ keys, message = some keys → s.partialFrame.keys = keys.take 30
  exceeded : ∀ keys, message = some keys →
    (s.maxLengthExceeded = true ↔ 30 < keys.length)

section

variable {cfg : Config} {s t : System} {key : Key}
  {message : Option (List Key)} {keys : List Key}

theorem tracks_none (hseen : s.startSeen = false) : Tracks s none := by
  refine ⟨hseen, ?_, ?_⟩
  · intro keys h
    cases h
  · intro keys h
    cases h

/-- Nothing else is looked at. -/
structure SameAssembly (s t : System) : Prop where
  startSeen : t.startSeen = s.startSeen
  partialFrame : t.partialFrame = s.partialFrame
  maxLengthExceeded : t.maxLengthExceeded = s.maxLengthExceeded

theorem SameAssembly.trans {u : System} (h : SameAssembly s t)
    (h' : SameAssembly t u) : SameAssembly s u :=
  ⟨h'.startSeen.trans h.startSeen, h'.partialFrame.trans h.partialFrame,
    h'.maxLengthExceeded.trans h.maxLengthExceeded⟩

namespace Tracks

theorem congr (h : Tracks s message) (hsame : SameAssembly s t) :
    Tracks t message :=
  ⟨hsame.startSeen.trans h.startSeen,
    fun keys hk => by rw [hsame.partialFrame]; exact h.kept keys hk,
    fun keys hk => by
      rw [hsame.maxLengthExceeded]; exact h.exceeded keys hk⟩

/-- The partial frame fills up, then the flag takes over. -/
theorem masPush (h : Tracks s (some keys)) (key : Key) :
    Tracks (s.masPush key) (some (keys ++ [key])) := by
  have hkept := h.kept keys rfl
  have hexceeded := h.exceeded keys rfl
  have hlen : s.partialFrame.keys.length = min 30 keys.length := by
    rw [hkept, List.length_take]
  rw [System.masPush]
  split
  · next hroom =>
      have hshort : keys.length < 30 := by omega
      refine ⟨h.startSeen, ?_, ?_⟩
      · rintro _ ⟨rfl⟩
        show s.partialFrame.keys ++ [key] = _
        rw [hkept, List.take_of_length_le (by omega), List.take_of_length_le
          (by rw [List.length_append, List.length_singleton]; omega)]
      · rintro _ ⟨rfl⟩
        refine hexceeded.trans ?_
        rw [List.length_append, List.length_singleton]
        omega
  · next hfull =>
      have hlong : 30 ≤ keys.length := by omega
      refine ⟨h.startSeen, ?_, ?_⟩
      · rintro _ ⟨rfl⟩
        show s.partialFrame.keys = _
        rw [hkept, List.take_append_of_le_length hlong]
      · rintro _ ⟨rfl⟩
        rw [List.length_append, List.length_singleton]
        exact iff_of_true rfl (by omega)

/-- No stop length is beyond the frame, so the frame shows when it is
reached. -/
theorem hasReachedStopLength_iff (h : Tracks s (some keys)) (cfg : Config) :
    s.hasReachedStopLength cfg = true ↔ cfg.bookends.Stops keys := by
  have hlen : s.partialFrame.keys.length = min 30 keys.length := by
    rw [h.kept keys rfl, List.length_take]
  rw [hasReachedStopLength, Bookends.Stops, Config.bookends]
  cases hproto : cfg.protocol with
  | full => simp [Config.stopLength, hproto]
  | small =>
      simp only [Config.stopLength, hproto, decide_eq_true_eq,
        Option.some.injEq, exists_eq_left', hlen]
      omega

/-- A finished message is judged by all of its keys. -/
theorem finishEvent_eq (h : Tracks s (some keys)) (cfg : Config) :
    s.finishEvent = cfg.bookends.close keys := by
  have hkept := h.kept keys rfl
  have hexceeded : s.maxLengthExceeded = false ↔ keys.length ≤ 30 := by
    rw [Bool.eq_false_iff, ne_eq, h.exceeded keys rfl, not_lt]
  have hlen : s.partialFrame.keys.length = min 30 keys.length := by
    rw [hkept, List.length_take]
  rw [finishEvent, Bookends.close, Config.bookends]
  by_cases hrange : 0 < keys.length ∧ keys.length ≤ 30
  · rw [if_pos ⟨by omega, hexceeded.mpr hrange.2⟩, if_pos hrange, hkept,
      List.take_of_length_le hrange.2]
  · have hout : ¬ (s.partialFrame.keys.length > 0 ∧
        s.maxLengthExceeded = false) := by
      rw [hexceeded]
      omega
    rw [if_neg hout, if_neg hrange]

end Tracks

theorem startSeen_masFinish (t : System) :
    (t.masFinish cfg).startSeen = t.startSeen := by
  have hdeduct (t : System) :
      ((t.rateLimitDeductMsg cfg).masReset).startSeen = t.startSeen := by
    rw [rateLimitDeductMsg]
    split <;> rfl
  rw [masFinish, hdeduct]
  split
  · rw [enqueue]
    split <;> rfl
  · rfl

theorem partialFrame_masFinish (t : System) :
    (t.masFinish cfg).partialFrame.keys = [] := rfl

/-- The last feedback is the key's. -/
theorem getLast?_feedbackStart (s : System) (feedback : FeedbackType) :
    (s.feedbackStart feedback).pro.effects.getLast?
      = some (.feedbackStart feedback) := by
  rw [feedbackStart, Machine.emit]
  exact List.getLast?_concat

theorem Tracks.eq_none (h : Tracks s message)
    (hseen : s.startSeen = false) : message = none := by
  rw [h.startSeen] at hseen
  exact Option.not_isSome_iff_eq_none.mp (Bool.eq_false_iff.mp hseen)

theorem Tracks.eq_some (h : Tracks s message) (hseen : s.startSeen = true) :
    ∃ keys, message = some keys := by
  rw [h.startSeen] at hseen
  exact Option.isSome_iff_exists.mp hseen

/-- A key that the bucket pays for. -/
theorem Tracks.press (h : Tracks s message) (hpaid : ¬ BelowRefill cfg s)
    (key : Key) :
    keyEvent cfg s key = some (cfg.bookends.event message key) ∧
      Tracks (s.bookendPush cfg key) (cfg.bookends.press message key) := by
  have hstep := pressed cfg s key
  rw [keyEvent]
  generalize finishing cfg s (.singleKey key) = finished at hstep ⊢
  generalize s.bookendPush cfg key = next at hstep ⊢
  cases hstep with
  | limited hlimit => exact absurd hlimit hpaid
  | start _ hstart =>
      obtain ⟨hevent, hpress⟩ := @Bookends.press_start _ _ cfg.bookends
        message key hstart
      have hlast := getLast?_feedbackStart s.touch .keyAccepted
      rw [hevent, hpress]
      refine ⟨?_, rfl, ?_, ?_⟩
      · exact congrArg (Option.bind · feedbackEvent) hlast
      · rintro _ ⟨rfl⟩
        rfl
      · rintro _ ⟨rfl⟩
        exact iff_of_false (by simp [masReset]) (by simp)
  | outside _ hstart hseen =>
      obtain rfl := h.eq_none hseen
      obtain ⟨hevent, hpress⟩ := @Bookends.press_outside _ _ cfg.bookends
        key hstart
      have hlast := getLast?_feedbackStart s.touch .keyRejected
      rw [hevent, hpress]
      exact ⟨congrArg (Option.bind · feedbackEvent) hlast,
        tracks_none hseen⟩
  | finish _ hstart hseen hend =>
      obtain ⟨keys, rfl⟩ := h.eq_some hseen
      obtain ⟨hevent, hpress⟩ := @Bookends.press_finish _ _ cfg.bookends
        keys key hstart hend
      rw [hevent, hpress]
      exact ⟨congrArg some (h.finishEvent_eq cfg),
        tracks_none (startSeen_masFinish _)⟩
  | stop _ hstart hseen hend hstop =>
      obtain ⟨keys, rfl⟩ := h.eq_some hseen
      have htouch : Tracks s.touch (some keys) := h.congr ⟨rfl, rfl, rfl⟩
      have hpush := htouch.masPush key
      obtain ⟨hevent, hpress⟩ := @Bookends.press_stop _ _ cfg.bookends
        keys key hstart hend ((hpush.hasReachedStopLength_iff cfg).mp hstop)
      rw [hevent, hpress]
      exact ⟨congrArg some (hpush.finishEvent_eq cfg),
        tracks_none (startSeen_masFinish _)⟩
  | push _ hstart hseen hend hstop =>
      obtain ⟨keys, rfl⟩ := h.eq_some hseen
      have htouch : Tracks s.touch (some keys) := h.congr ⟨rfl, rfl, rfl⟩
      have hpush := htouch.masPush key
      obtain ⟨hevent, hpress⟩ := @Bookends.press_push _ _ cfg.bookends
        keys key hstart hend fun hs => by
          rw [(hpush.hasReachedStopLength_iff cfg).mpr hs] at hstop
          cases hstop
      have hlast := getLast?_feedbackStart (s.touch.masPush key) .keyAccepted
      rw [hevent, hpress]
      exact ⟨congrArg (Option.bind · feedbackEvent) hlast,
        hpush.congr ⟨rfl, rfl, rfl⟩⟩

/-- A key that it does not pay for. -/
theorem press_limited (hlimit : BelowRefill cfg s) (key : Key) :
    keyEvent cfg s key = some .keyRejected ∧
      SameAssembly s (s.bookendPush cfg key) ∧
      BelowRefill cfg (s.bookendPush cfg key) := by
  have hstep := pressed cfg s key
  rw [keyEvent]
  generalize finishing cfg s (.singleKey key) = finished at hstep ⊢
  generalize s.bookendPush cfg key = next at hstep ⊢
  cases hstep with
  | limited =>
      have hlast := getLast?_feedbackStart s.touch .keyRejected
      exact ⟨congrArg (Option.bind · feedbackEvent) hlast, ⟨rfl, rfl, rfl⟩,
        hlimit⟩
  | start hpaid => exact absurd hlimit hpaid
  | outside hpaid => exact absurd hlimit hpaid
  | finish hpaid => exact absurd hlimit hpaid
  | stop hpaid => exact absurd hlimit hpaid
  | push hpaid => exact absurd hlimit hpaid

/-! ## Every reachable state holds a message or none -/

theorem exists_tracks_of_same (h : ∃ message, Tracks s message)
    (hsame : SameAssembly s t) : ∃ message, Tracks t message := by
  obtain ⟨message, h⟩ := h
  exact ⟨message, h.congr hsame⟩

theorem exists_tracks_coreProcess (h : ∃ message, Tracks s message)
    (env : Env) (secondsElapsed uptime : UInt32) :
    ∃ message, Tracks (s.coreProcess cfg env secondsElapsed uptime)
      message := by
  have htime (s : System) :
      SameAssembly s (s.rateLimitAddTime cfg secondsElapsed) := by
    rw [rateLimitAddTime]
    split <;> exact ⟨rfl, rfl, rfl⟩
  have hgrace (s : System) (keycodes : UInt8) :
      SameAssembly s (s.graceperiodKeycodesUpdateNv keycodes) := by
    rw [graceperiodKeycodesUpdateNv]
    split <;> exact ⟨rfl, rfl, rfl⟩
  have hbookend (s : System) (h : ∃ message, Tracks s message) :
      ∃ message, Tracks (s.bookendProcess cfg uptime) message := by
    rw [bookendProcess]
    split
    · generalize (if s.latestUptime = _ then uptime
        else s.latestUptime) = latest
      dsimp only
      split
      · exact ⟨none, tracks_none rfl⟩
      · exact exists_tracks_of_same h ⟨rfl, rfl, rfl⟩
    · exact h
  have hpro (s : System) : SameAssembly s (s.proProcess cfg env) := by
    rw [proProcess]
    split
    · dsimp only
      split <;> exact ⟨rfl, rfl, rfl⟩
    · exact ⟨rfl, rfl, rfl⟩
  refine exists_tracks_of_same (hbookend _ ?_) (hpro _)
  exact exists_tracks_of_same (exists_tracks_of_same h (htime s)) (hgrace _ _)

theorem exists_tracks_step (h : ∃ message, Tracks s message) (op : Op) :
    ∃ message, Tracks (step cfg s op) message := by
  cases op with
  | singleKey key =>
      obtain ⟨message, h⟩ := h
      by_cases hlimit : BelowRefill cfg s
      · exact ⟨message, h.congr (press_limited hlimit key).2.1⟩
      · exact ⟨_, (h.press hlimit key).2⟩
  | completeKeycode code =>
      show ∃ message, Tracks (s.handleCompleteKeycode cfg code) message
      rw [handleCompleteKeycode]
      split
      · exact exists_tracks_of_same h ⟨rfl, rfl, rfl⟩
      · split
        · exact exists_tracks_of_same h ⟨rfl, rfl, rfl⟩
        · exact ⟨none, tracks_none (startSeen_masFinish _)⟩
  | process env secondsElapsed uptime =>
      exact exists_tracks_coreProcess h env secondsElapsed uptime
  | reboot => exact ⟨none, tracks_none rfl⟩

/-! ## Sequences of keys -/

/-- The assembler after a sequence of keys. -/
def pressAll (cfg : Config) (s : System) (keys : List Key) : System :=
  run (fun s key => s.bookendPush cfg key) s keys

/-- The events of a sequence of keys. -/
def keyEvents (cfg : Config) (s : System) (keys : List Key) :
    List (FramingEvent Key) :=
  events (fun s key => s.bookendPush cfg key) (keyEvent cfg) s keys

/-- The bucket pays for every key of the sequence when it comes. -/
def Paid (cfg : Config) (s : System) (keys : List Key) : Prop :=
  Along (fun s key => s.bookendPush cfg key) (fun s _ => ¬ BelowRefill cfg s)
    s keys

theorem Tracks.keyEvents (h : Tracks s message) (hpaid : Paid cfg s keys) :
    keyEvents cfg s keys
        = events cfg.bookends.press
          (fun message key => some (cfg.bookends.event message key)) message
          keys ∧
      Tracks (pressAll cfg s keys) (run cfg.bookends.press message keys) :=
  events_simulates (fun _ _ key h hpaid => h.press hpaid key) h hpaid

theorem keyEvents_limited (hlimit : BelowRefill cfg s) (keys : List Key) :
    keyEvents cfg s keys = keys.map (fun _ => .keyRejected) ∧
      SameAssembly s (pressAll cfg s keys) := by
  induction keys generalizing s with
  | nil => exact ⟨rfl, rfl, rfl, rfl⟩
  | cons key keys ih =>
      obtain ⟨hevent, hsame, hstill⟩ := press_limited hlimit key
      obtain ⟨hevents, hrest⟩ := ih hstill
      refine ⟨?_, hsame.trans hrest⟩
      rw [List.map_cons, ← hevents, System.keyEvents, events, hevent]
      rfl

end

/-- A state the module gets into after its first power on. -/
def Reachable (cfg : Config) (s : System) : Prop :=
  ∃ nv ops, s = run (step cfg) (start cfg nv) ops

/-- In every state that can be reached, a sequence of keys without a call of
`process` leads to the events of the framing as long as the bucket pays for
each of its keys, and from the first key on that it does not pay for, every
key is rejected and the open message stays as it is. -/
theorem assembler_implements_framing (cfg : Config) (s : System)
    (hs : Reachable cfg s) :
    ∃ message, Tracks s message ∧ ∀ keys,
      (Paid cfg s keys →
        keyEvents cfg s keys
            = events cfg.bookends.press
              (fun message key => some (cfg.bookends.event message key))
              message keys ∧
          Tracks (pressAll cfg s keys)
            (run cfg.bookends.press message keys)) ∧
      (pressAll cfg s keys).partialFrame.keys.length ≤ 30 ∧
      (BelowRefill cfg (pressAll cfg s keys) → ∀ more,
        keyEvents cfg (pressAll cfg s keys) more
            = more.map (fun _ => .keyRejected) ∧
          SameAssembly (pressAll cfg s keys)
            (pressAll cfg (pressAll cfg s keys) more)) := by
  obtain ⟨nv, ops, rfl⟩ := hs
  obtain ⟨message, h⟩ := run_invariant
    (P := fun s => ∃ message, Tracks s message)
    (fun _ op h _ => exists_tracks_step h op)
    ⟨none, tracks_none rfl⟩ (along_true (start cfg nv) ops)
  refine ⟨message, h, ?_⟩
  intro keys
  exact ⟨h.keyEvents, Frame.length_le _, keyEvents_limited⟩

instance (cfg : Config) (s : System) (keys : List Key) :
    Decidable (Paid cfg s keys) :=
  inferInstanceAs (Decidable (Along _ _ _ _))

/-- The keys `*1*23#4`: the first message is given up for the second. -/
theorem assembler_implements_framing_restart :
    Reachable (.default .full) firstStart ∧
      keyEvents (.default .full) firstStart [42, 49, 42, 50, 51, 35, 52]
        = [.keyAccepted, .keyAccepted, .keyAccepted, .keyAccepted,
          .keyAccepted, .delivered [50, 51], .keyRejected] := by
  have hs : Reachable (.default .full) firstStart := ⟨fun _ => none, [], rfl⟩
  refine ⟨hs, ?_⟩
  obtain ⟨message, htracks, hkeys⟩ := assembler_implements_framing _ _ hs
  obtain rfl := htracks.eq_none rfl
  rw [((hkeys _).1 (by decide +kernel)).1]
  decide +kernel

end System

end Nexus.Keycode
