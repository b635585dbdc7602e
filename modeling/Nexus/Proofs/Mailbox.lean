import Nexus.Proofs.RateLimit

/-!
# Completed messages and the one pending frame

A key handler completes messages, the main loop interprets them, and between
the two there is room for one frame. This file follows every message from its
completion to `parse_and_apply`.

As long as no message in range is completed while an earlier one is pending,
none is lost. One that is completed then is neither kept nor refused, and its
attempt is still deducted.
-/

namespace Nexus.Keycode

open Nexus.Util Nexus.Lib

namespace System

variable (cfg : Config)

/-! ## Completing a message -/

/-- A message when it is completed: its keys, up to the first thirty, and
whether there were more. -/
structure Message where
  frame : Frame
  maxLengthExceeded : Bool

/-- A message of 1 to 30 keys. -/
def Message.InRange (message : Message) : Prop :=
  message.frame.keys.length > 0 ∧ message.maxLengthExceeded = false

instance (message : Message) : Decidable message.InRange :=
  inferInstanceAs (Decidable (_ ∧ _))

/-- The state on which an input calls `nexus_keycode_mas_finish`, if it
does. -/
def finishing (s : System) : Op → Option System
  | .singleKey key =>
      let s := { s with latestUptime := UInt32.ofNat (2 ^ 32 - 1) }
      if s.isRateLimited cfg then none
      else if key = cfg.startChar then none
      else if s.startSeen then
        if key = cfg.endChar then some s.bookendReset
        else if (s.masPush key).hasReachedStopLength cfg then
          some (s.masPush key).bookendReset
        else none
      else none
  | .completeKeycode code =>
      if s.isRateLimited cfg then none
      else if code.keys 0 ≠ cfg.startChar then none
      else
        let lastKeycodeChar :=
          match cfg.protocol with
          | .small => code.length
          | .full => code.length - 1
        some (pushLoop cfg code (lastKeycodeChar.toNat - 1) 1
          (masReset { s with startSeen := true })).bookendReset
  | _ => none

/-- The message an operation completes. -/
def completed (s : System) (op : Op) : Option Message :=
  (finishing cfg s op).map fun t => ⟨t.partialFrame, t.maxLengthExceeded⟩

/-- The frame of a message in range. -/
def completedFrame (s : System) (op : Op) : Option Frame :=
  match completed cfg s op with
  | some message => if message.InRange then some message.frame else none
  | none => none

/-- The frames on their way to the protocol layer. -/
def queued (s : System) : List Frame := if s.pending then [s.frame] else []

/-- Power stays on. -/
def Op.Powered : Op → Prop
  | .reboot => False
  | _ => True

/-- An input of keys. -/
def Op.IsInput : Op → Prop
  | .singleKey _ => True
  | .completeKeycode _ => True
  | _ => False

/-- Nothing that a completed message meets differs. -/
structure SameMailbox (s t : System) : Prop where
  handed : t.handed = s.handed
  queued : t.queued = s.queued
  pending : t.pending = s.pending
  effects : t.pro.effects = s.pro.effects
  rlBucket : t.rlBucket = s.rlBucket

namespace SameMailbox

theorem refl (s : System) : SameMailbox s s := ⟨rfl, rfl, rfl, rfl, rfl⟩

theorem trans {s t u : System} (h : SameMailbox s t) (h' : SameMailbox t u) :
    SameMailbox s u :=
  ⟨h'.handed.trans h.handed, h'.queued.trans h.queued,
    h'.pending.trans h.pending, h'.effects.trans h.effects,
    h'.rlBucket.trans h.rlBucket⟩

theorem masPush (s : System) (key : Key) : SameMailbox s (s.masPush key) := by
  unfold System.masPush
  split
  · exact ⟨rfl, rfl, rfl, rfl, rfl⟩
  · exact ⟨rfl, rfl, rfl, rfl, rfl⟩

theorem pushLoop (cfg : Config) (code : CompleteCode) (left i : ℕ)
    (s : System) : SameMailbox s (System.pushLoop cfg code left i s) := by
  induction left generalizing i s with
  | zero => exact refl s
  | succ left ih =>
      have hpush := masPush s (code.keys i)
      unfold System.pushLoop
      simp only
      split
      · exact hpush
      · exact hpush.trans (ih (i + 1) _)

end SameMailbox

variable {cfg}

/-- A key completes a message, or changes nothing but the message it belongs
to. -/
theorem bookendPush_cases (s : System) (key : Key) :
    (∃ t, finishing cfg s (.singleKey key) = some t ∧
      s.bookendPush cfg key = t.masFinish cfg ∧ SameMailbox s t) ∨
    (finishing cfg s (.singleKey key) = none ∧
      (s.bookendPush cfg key).handed = s.handed ∧
      (s.bookendPush cfg key).queued = s.queued ∧
      (s.bookendPush cfg key).rlBucket = s.rlBucket) := by
  unfold finishing bookendPush
  simp only
  by_cases hlimit : System.isRateLimited { s with
      latestUptime := UInt32.ofNat (2 ^ 32 - 1) } cfg = true
  · rw [if_pos hlimit, if_pos hlimit]
    exact .inr ⟨rfl, rfl, rfl, rfl⟩
  · rw [if_neg hlimit, if_neg hlimit]
    by_cases hstart : key = cfg.startChar
    · rw [if_pos hstart, if_pos hstart]
      exact .inr ⟨rfl, rfl, rfl, rfl⟩
    · rw [if_neg hstart, if_neg hstart]
      by_cases hseen : s.startSeen = true
      · rw [if_pos hseen, if_pos hseen]
        by_cases hend : key = cfg.endChar
        · rw [if_pos hend, if_pos hend]
          exact .inl ⟨_, rfl, rfl, rfl, rfl, rfl, rfl, rfl⟩
        · rw [if_neg hend, if_neg hend]
          have hpush := SameMailbox.masPush
            { s with latestUptime := UInt32.ofNat (2 ^ 32 - 1) } key
          by_cases hstop : System.hasReachedStopLength (System.masPush { s with
              latestUptime := UInt32.ofNat (2 ^ 32 - 1) } key) cfg = true
          · rw [if_pos hstop, if_pos hstop]
            exact .inl ⟨_, rfl, rfl, hpush.handed, hpush.queued,
              hpush.pending, hpush.effects, hpush.rlBucket⟩
          · rw [if_neg hstop, if_neg hstop]
            exact .inr ⟨rfl, hpush.handed, hpush.queued, hpush.rlBucket⟩
      · rw [if_neg hseen, if_neg hseen]
        exact .inr ⟨rfl, rfl, rfl, rfl⟩

/-- So does a complete keycode. -/
theorem handleCompleteKeycode_cases (s : System) (code : CompleteCode) :
    (∃ t, finishing cfg s (.completeKeycode code) = some t ∧
      s.handleCompleteKeycode cfg code = t.masFinish cfg ∧
      SameMailbox s t) ∨
    (finishing cfg s (.completeKeycode code) = none ∧
      (s.handleCompleteKeycode cfg code).handed = s.handed ∧
      (s.handleCompleteKeycode cfg code).queued = s.queued ∧
      (s.handleCompleteKeycode cfg code).rlBucket = s.rlBucket) := by
  unfold finishing handleCompleteKeycode
  simp only
  by_cases hlimit : s.isRateLimited cfg = true
  · rw [if_pos hlimit, if_pos hlimit]
    exact .inr ⟨rfl, rfl, rfl, rfl⟩
  · rw [if_neg hlimit, if_neg hlimit]
    by_cases hstart : code.keys 0 ≠ cfg.startChar
    · rw [if_pos hstart, if_pos hstart]
      exact .inr ⟨rfl, rfl, rfl, rfl⟩
    · rw [if_neg hstart, if_neg hstart]
      generalize hcount : UInt8.toNat _ - 1 = count
      have hloop := SameMailbox.pushLoop cfg code count 1
        (masReset { s with startSeen := true })
      exact .inl ⟨_, rfl, rfl, hloop.handed, hloop.queued, hloop.pending,
        hloop.effects, hloop.rlBucket⟩

/-! ## What a step does to the frames -/

/-- The frames that were handed on and the one that will be. -/
def accepted (s : System) : List Frame := s.handed ++ s.queued

/-- A completed message is kept, refused or, behind another one, lost. -/
theorem masFinish_cases (t : System) :
    ((t.partialFrame.keys.length > 0 ∧ t.maxLengthExceeded = false) ∧
      t.pending = false ∧
      (t.masFinish cfg).accepted = t.accepted ++ [t.partialFrame]) ∨
    ((t.partialFrame.keys.length > 0 ∧ t.maxLengthExceeded = false) ∧
      t.pending = true ∧ (t.masFinish cfg).accepted = t.accepted) ∨
    (¬ (t.partialFrame.keys.length > 0 ∧ t.maxLengthExceeded = false) ∧
      (t.masFinish cfg).accepted = t.accepted ∧
      (t.masFinish cfg).pro.effects
        = t.pro.effects ++ [.feedbackStart .messageInvalid]) := by
  have hdeduct : ∀ s : System,
      ((s.rateLimitDeductMsg cfg).masReset).accepted = s.accepted ∧
      ((s.rateLimitDeductMsg cfg).masReset).pro.effects = s.pro.effects := by
    intro s
    unfold rateLimitDeductMsg
    split
    · exact ⟨rfl, rfl⟩
    · exact ⟨rfl, rfl⟩
  unfold masFinish
  by_cases hrange : t.partialFrame.keys.length > 0 ∧
      t.maxLengthExceeded = false
  · simp only [if_pos hrange, (hdeduct _).1]
    unfold enqueue
    cases hpending : t.pending with
    | true => exact .inr (.inl ⟨hrange, rfl, rfl⟩)
    | false =>
        refine .inl ⟨hrange, rfl, ?_⟩
        simp [accepted, queued, hpending]
  · simp only [if_neg hrange, (hdeduct _).1, (hdeduct _).2]
    exact .inr (.inr ⟨hrange, rfl, rfl⟩)

theorem masProcess_accepted (s : System) (secondsElapsed uptime : UInt32) :
    (s.masProcess cfg secondsElapsed uptime).accepted = s.accepted := by
  have htime : (s.rateLimitAddTime cfg secondsElapsed).accepted
      = s.accepted := by
    unfold rateLimitAddTime
    split <;> rfl
  have hgrace : ∀ (s : System) (keycodes : UInt8),
      (s.graceperiodKeycodesUpdateNv keycodes).accepted = s.accepted := by
    intro s keycodes
    unfold graceperiodKeycodesUpdateNv
    split <;> rfl
  have hbookend : ∀ s : System,
      (s.bookendProcess cfg uptime).accepted = s.accepted := by
    intro s
    unfold bookendProcess
    split
    · simp only
      repeat' split
      all_goals rfl
    · rfl
  unfold masProcess
  simp only
  rw [hbookend, hgrace, htime]

theorem coreProcess_accepted (s : System) (env : Env)
    (secondsElapsed uptime : UInt32) :
    (s.coreProcess cfg env secondsElapsed uptime).handed = s.accepted ∧
      (s.coreProcess cfg env secondsElapsed uptime).queued = [] := by
  have hpro : ∀ s : System, (s.proProcess cfg env).handed = s.accepted ∧
      (s.proProcess cfg env).queued = [] := by
    intro s
    unfold proProcess
    by_cases hpending : s.pending = true
    · simp only [if_pos hpending]
      split
      · exact ⟨by simp [accepted, queued, hpending, feedbackStart], rfl⟩
      · exact ⟨by simp [accepted, queued, hpending], rfl⟩
    · simp [accepted, queued, hpending]
  unfold coreProcess
  rw [(hpro _).1, (hpro _).2, masProcess_accepted]
  exact ⟨rfl, rfl⟩

/-- The frames after a step: a message in range is added unless another one is
pending. -/
theorem step_accepted (s : System) {op : Op} (hop : op.Powered) :
    (step cfg s op).accepted = s.accepted ++
      if s.pending then [] else (completedFrame cfg s op).toList := by
  have hfinish : ∀ t : System, finishing cfg s op = some t →
      step cfg s op = t.masFinish cfg → SameMailbox s t →
      (step cfg s op).accepted = s.accepted ++
        if s.pending then [] else (completedFrame cfg s op).toList := by
    intro t hfinishing hstep hsame
    have hold : t.accepted = s.accepted := by
      unfold accepted
      rw [hsame.handed, hsame.queued]
    have hcompleted : completed cfg s op
        = some ⟨t.partialFrame, t.maxLengthExceeded⟩ := by
      unfold completed
      rw [hfinishing]
      rfl
    unfold completedFrame
    rw [hstep, hcompleted, ← hold, ← hsame.pending]
    rcases @masFinish_cases cfg t with ⟨hrange, hfree, heq⟩ |
      ⟨-, hpending, heq⟩ | ⟨hrange, heq, -⟩
    · have hin : Message.InRange ⟨t.partialFrame, t.maxLengthExceeded⟩ := hrange
      simp [heq, hfree, hin]
    · simp [heq, hpending]
    · have hout : ¬ Message.InRange ⟨t.partialFrame, t.maxLengthExceeded⟩ :=
        hrange
      simp [heq, hout]
  have hkept : finishing cfg s op = none →
      (step cfg s op).handed = s.handed → (step cfg s op).queued = s.queued →
      (step cfg s op).accepted = s.accepted ++
        if s.pending then [] else (completedFrame cfg s op).toList := by
    intro hnone hhanded hqueued
    have hcompleted : completedFrame cfg s op = none := by
      simp only [completedFrame, completed, hnone, Option.map_none]
    unfold accepted
    rw [hhanded, hqueued, hcompleted]
    simp
  cases op with
  | singleKey key =>
      rcases @bookendPush_cases cfg s key with ⟨t, hsome, heq, hsame⟩ |
        ⟨hnone, hhanded, hqueued, -⟩
      · exact hfinish t hsome heq hsame
      · exact hkept hnone hhanded hqueued
  | completeKeycode code =>
      rcases @handleCompleteKeycode_cases cfg s code with
        ⟨t, hsome, heq, hsame⟩ | ⟨hnone, hhanded, hqueued, -⟩
      · exact hfinish t hsome heq hsame
      · exact hkept hnone hhanded hqueued
  | process env secondsElapsed uptime =>
      obtain ⟨hhanded, hqueued⟩ :=
        @coreProcess_accepted cfg s env secondsElapsed uptime
      show (s.coreProcess cfg env secondsElapsed uptime).accepted = _
      have hnone : completedFrame cfg s (.process env secondsElapsed uptime)
          = none := rfl
      unfold accepted at hhanded ⊢
      rw [hhanded, hqueued, hnone]
      simp
  | reboot => exact absurd hop id

/-! ## Runs -/

/-- No message in range is completed while another one is pending. -/
def RoomFor (cfg : Config) (s : System) (op : Op) : Prop :=
  s.pending = true → completedFrame cfg s op = none

instance (cfg : Config) (s : System) (op : Op) :
    Decidable (RoomFor cfg s op) :=
  inferInstanceAs (Decidable (_ → _))

/-- The frames of the messages in range a run completes, in their order. -/
def completedFrames (cfg : Config) (s : System) (ops : List Op) : List Frame :=
  events (step cfg) (completedFrame cfg) s ops

theorem run_accepted {s : System} {ops : List Op}
    (hops : ∀ op ∈ ops, op.Powered)
    (hroom : Along (step cfg) (RoomFor cfg) s ops) :
    (run (step cfg) s ops).accepted
      = s.accepted ++ completedFrames cfg s ops := by
  induction ops generalizing s with
  | nil => simp [completedFrames, events]
  | cons op ops ih =>
      have hrest := ih (fun op' hop' => hops op' (List.mem_cons_of_mem op hop'))
        hroom.2
      have hstep := @step_accepted cfg s op (hops op List.mem_cons_self)
      have hadded : (if s.pending then []
          else (completedFrame cfg s op).toList)
          = (completedFrame cfg s op).toList := by
        cases hpending : s.pending with
        | false => rfl
        | true => simp [hroom.1 hpending]
      rw [hadded] at hstep
      rw [run_cons, hrest, hstep, List.append_assoc]
      rfl

/-- At most the completed frames are accepted, and fewer when one comes behind
another. -/
theorem length_run_accepted {s : System} {ops : List Op}
    (hops : ∀ op ∈ ops, op.Powered) :
    (run (step cfg) s ops).accepted.length
      ≤ s.accepted.length + (completedFrames cfg s ops).length ∧
    (¬ Along (step cfg) (RoomFor cfg) s ops →
      (run (step cfg) s ops).accepted.length
        < s.accepted.length + (completedFrames cfg s ops).length) := by
  induction ops generalizing s with
  | nil => exact ⟨by simp, fun h => absurd trivial h⟩
  | cons op ops ih =>
      obtain ⟨hle, hlt⟩ := @ih (step cfg s op)
        fun op' hop' => hops op' (List.mem_cons_of_mem op hop')
      have hstep := congrArg List.length
        (@step_accepted cfg s op (hops op List.mem_cons_self))
      have hevents : (completedFrames cfg s (op :: ops)).length
          = (completedFrame cfg s op).toList.length
            + (completedFrames cfg (step cfg s op) ops).length :=
        List.length_append
      rw [List.length_append] at hstep
      rw [run_cons, hevents]
      have hround : (if s.pending then []
          else (completedFrame cfg s op).toList).length
          ≤ (completedFrame cfg s op).toList.length := by
        split
        · exact Nat.zero_le _
        · exact Nat.le_refl _
      refine ⟨by omega, fun hnot => ?_⟩
      by_cases hroom : RoomFor cfg s op
      · have hlater := hlt fun h => hnot ⟨hroom, h⟩
        omega
      · -- the frame that found no room
        unfold RoomFor at hroom
        rw [Classical.not_imp] at hroom
        obtain ⟨hpending, hframe⟩ := hroom
        obtain ⟨frame, hsome⟩ := Option.ne_none_iff_exists'.mp hframe
        rw [if_pos hpending] at hstep
        rw [hsome] at hround ⊢
        simp only [List.length_nil, Option.toList_some,
          List.length_singleton] at hstep ⊢
        omega

/-- Every message that the run completes is handed on, in order, by the time
the next `process` is over, or is refused at once; and an attempt is deducted
for no other reason. -/
structure NothingLost (cfg : Config) (s : System) (ops : List Op) : Prop where
  handed : ∀ env secondsElapsed uptime,
    ((run (step cfg) s ops).coreProcess cfg env secondsElapsed uptime).handed
      = s.accepted ++ completedFrames cfg s ops
  refused : ∀ pre op post, ops = pre ++ op :: post →
    ∀ message, completed cfg (run (step cfg) s pre) op = some message →
      ¬ message.InRange →
      (step cfg (run (step cfg) s pre) op).pro.effects
        = (run (step cfg) s pre).pro.effects
          ++ [.feedbackStart .messageInvalid]
  deducted : ∀ pre op post, ops = pre ++ op :: post → op.IsInput →
    (step cfg (run (step cfg) s pre) op).rlBucket
      ≠ (run (step cfg) s pre).rlBucket →
    ∃ message, completed cfg (run (step cfg) s pre) op = some message

theorem step_refused (s : System) {op : Op} {message : Message}
    (h : completed cfg s op = some message) (hout : ¬ message.InRange) :
    (step cfg s op).pro.effects
      = s.pro.effects ++ [.feedbackStart .messageInvalid] := by
  have hfinish : ∀ t : System, finishing cfg s op = some t →
      step cfg s op = t.masFinish cfg → SameMailbox s t →
      (step cfg s op).pro.effects
        = s.pro.effects ++ [.feedbackStart .messageInvalid] := by
    intro t hfinishing hstep hsame
    unfold completed at h
    rw [hfinishing] at h
    injection h with h
    subst h
    rcases @masFinish_cases cfg t with ⟨hrange, -⟩ | ⟨hrange, -⟩ |
      ⟨-, -, heffects⟩
    · exact absurd hrange hout
    · exact absurd hrange hout
    · rw [hstep, heffects, hsame.effects]
  cases op with
  | singleKey key =>
      rcases @bookendPush_cases cfg s key with ⟨t, hsome, heq, hsame⟩ |
        ⟨hnone, -⟩
      · exact hfinish t hsome heq hsame
      · rw [completed, hnone] at h
        cases h
  | completeKeycode code =>
      rcases @handleCompleteKeycode_cases cfg s code with
        ⟨t, hsome, heq, hsame⟩ | ⟨hnone, -⟩
      · exact hfinish t hsome heq hsame
      · rw [completed, hnone] at h
        cases h
  | process env secondsElapsed uptime => cases h
  | reboot => cases h

theorem step_deducted (s : System) {op : Op} (hop : op.IsInput)
    (h : (step cfg s op).rlBucket ≠ s.rlBucket) :
    ∃ message, completed cfg s op = some message := by
  cases op with
  | singleKey key =>
      rcases @bookendPush_cases cfg s key with ⟨t, hsome, -⟩ |
        ⟨-, -, -, hbucket⟩
      · exact ⟨_, by rw [completed, hsome]; rfl⟩
      · exact absurd hbucket h
  | completeKeycode code =>
      rcases @handleCompleteKeycode_cases cfg s code with ⟨t, hsome, -⟩ |
        ⟨-, -, -, hbucket⟩
      · exact ⟨_, by rw [completed, hsome]; rfl⟩
      · exact absurd hbucket h
  | process env secondsElapsed uptime => exact absurd hop id
  | reboot => exact absurd hop id

end System

/-- Messages get lost in exactly those runs in which one in range is completed
while another one is pending. -/
theorem nothing_lost_iff (cfg : Config) (s : System) {ops : List System.Op}
    (hops : ∀ op ∈ ops, op.Powered) :
    System.NothingLost cfg s ops ↔
      Along (System.step cfg) (System.RoomFor cfg) s ops := by
  constructor
  · intro h
    by_contra hnot
    have hlt := (System.length_run_accepted hops).2 hnot
    have hhanded := h.handed (testEnv .disabled) 0 0
    rw [(System.coreProcess_accepted _ _ _ _).1] at hhanded
    rw [hhanded, List.length_append] at hlt
    exact Nat.lt_irrefl _ hlt
  · intro hroom
    refine ⟨fun env secondsElapsed uptime => ?_, ?_, ?_⟩
    · rw [(System.coreProcess_accepted _ env secondsElapsed uptime).1]
      exact System.run_accepted hops hroom
    · intro pre op post _ message hcompleted hout
      exact System.step_refused _ hcompleted hout
    · intro pre op post _ hinput hbucket
      exact System.step_deducted _ hinput hbucket

/-- A keycode of three equal digits. -/
def threeDigits (digit : Key) : System.Op :=
  .completeKeycode ⟨fun i => if i = 0 then 42 else if i = 4 then 35
    else digit, 5⟩

/-- A product that has just been started for the first time. -/
def firstStart : System := System.start (.default .full) fun _ => none

/-- Two keycodes, each processed. -/
theorem nothing_lost_one_by_one :
    System.NothingLost (.default .full) firstStart
      [threeDigits 49, .process (testEnv .disabled) 1 1, threeDigits 50] := by
  have hops : ∀ op ∈ [threeDigits 49, .process (testEnv .disabled) 1 1,
      threeDigits 50], op.Powered := by
    intro op hop
    simp only [List.mem_cons, List.not_mem_nil, or_false] at hop
    rcases hop with rfl | rfl | rfl <;> trivial
  exact (nothing_lost_iff _ _ hops).mpr (by decide +kernel)

/-- Two keycodes between two calls of `process`: the second is dropped, its
attempt is deducted and nothing is said. -/
theorem second_keycode_lost :
    (System.completedFrames (.default .full) firstStart
      [threeDigits 49, threeDigits 50]).map Frame.keys
      = [[49, 49, 49], [50, 50, 50]] ∧
    (System.coreProcess (run (System.step (.default .full)) firstStart
      [threeDigits 49, threeDigits 50]) (.default .full) (testEnv .disabled)
      1 1).handed.map Frame.keys = [[49, 49, 49]] ∧
    (run (System.step (.default .full)) firstStart
      [threeDigits 49, threeDigits 50]).rlBucket
      = firstStart.rlBucket - 720 - 720 ∧
    (run (System.step (.default .full)) firstStart
      [threeDigits 49, threeDigits 50]).pro.effects
      = firstStart.pro.effects ∧
    ¬ System.NothingLost (.default .full) firstStart
      [threeDigits 49, threeDigits 50] := by
  have hcompleted : (System.completedFrames (.default .full) firstStart
      [threeDigits 49, threeDigits 50]).map Frame.keys
      = [[49, 49, 49], [50, 50, 50]] := by decide +kernel
  have hhanded : (System.coreProcess (run (System.step (.default .full))
      firstStart [threeDigits 49, threeDigits 50]) (.default .full)
      (testEnv .disabled) 1 1).handed.map Frame.keys = [[49, 49, 49]] := by
    decide +kernel
  have hnone : firstStart.accepted.map Frame.keys = [] := by decide +kernel
  refine ⟨hcompleted, hhanded, by decide +kernel, by decide +kernel, ?_⟩
  intro h
  rw [h.handed, List.map_append, hnone, hcompleted] at hhanded
  exact absurd hhanded (by decide)

end Nexus.Keycode
