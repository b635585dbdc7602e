import Nexus.Proofs.Framing

/-!
# Codes entered whole

`nx_keycode_handle_complete_keycode` has a loop of its own over the keys of a
code: it leaves out the end key of the full protocol without looking at it,
and in the small protocol it stops pushing where the key handler would have
finished the message. For a code that is a start key, a body and the end key
if there is one, both ways come to the same message, and pay for it once.
-/

namespace Nexus.Keycode

open Nexus.Util Nexus.Lib

namespace System

/-- The keys of a code: the start key, a body and, in the full protocol, the
end key. -/
def codeKeys (cfg : Config) (body : List Key) : List Key :=
  match cfg.protocol with
  | .full => cfg.startChar :: (body ++ [cfg.endChar])
  | .small => cfg.startChar :: body

/-- The code of these keys, with anything behind them in memory. -/
def completeCode (keys : List Key) (behind : ℕ → Key) : CompleteCode :=
  ⟨fun i => keys.getD i (behind i), UInt8.ofNat keys.length⟩

/-- What a code entered whole leads to. Without a message to finish, the
feedback is that of an invalid one. -/
def wholeEvent (cfg : Config) (s : System) (code : CompleteCode) :
    FramingEvent Key :=
  match finishing cfg s (.completeKeycode code) with
  | some t => t.finishEvent
  | none => .messageInvalid

/-- What is left in the bucket when a message is paid. -/
def deducted (cfg : Config) (bucket : UInt32) : UInt32 :=
  if cfg.rateLimitBucketMax ≠ 0
      ∧ bucket.toNat ≥ cfg.rateLimitRefillSecondsPerAttempt then
    bucket - UInt32.ofNat cfg.rateLimitRefillSecondsPerAttempt
  else bucket

section

variable {cfg : Config} {s t : System} {key : Key} {keys body : List Key}

theorem rlBucket_masFinish (t : System) :
    (t.masFinish cfg).rlBucket = deducted cfg t.rlBucket := by
  have hdeduct (t : System) : ((t.rateLimitDeductMsg cfg).masReset).rlBucket
      = deducted cfg t.rlBucket := by
    rw [rateLimitDeductMsg, deducted]
    split <;> rfl
  rw [masFinish, hdeduct]
  split
  · rw [enqueue]
    split <;> rfl
  · rfl

theorem rlBucket_masPush (s : System) (key : Key) :
    (s.masPush key).rlBucket = s.rlBucket :=
  (SameMailbox.masPush s key).rlBucket

/-! ## The loop over the keys -/

/-- How many of the next keys the loop pushes. -/
def pushes (cfg : Config) (keys : List Key) (left : ℕ) : ℕ :=
  match cfg.stopLength with
  | none => left
  | some n => min left (n - keys.length)

/-- Where the loop stops is where the message stops. -/
theorem Tracks.pushLoop {code : CompleteCode} {left i : ℕ}
    (h : Tracks s (some keys))
    (hopen : ∀ n, cfg.stopLength = some n → keys.length < n) :
    Tracks (pushLoop cfg code left i s)
      (some (keys ++ (List.range (pushes cfg keys left)).map
        fun j => code.keys (i + j))) := by
  induction left generalizing i s keys with
  | zero =>
      have hzero : pushes cfg keys 0 = 0 := by
        rw [pushes]
        split
        · rfl
        · exact Nat.zero_min _
      rw [hzero, List.range_zero, List.map_nil, List.append_nil]
      exact h
  | succ left ih =>
      have hpush := h.masPush (code.keys i)
      have hlen : (keys ++ [code.keys i]).length = keys.length + 1 := by
        rw [List.length_append, List.length_singleton]
      rw [System.pushLoop]
      by_cases hstop : cfg.bookends.Stops (keys ++ [code.keys i])
      · have hone : pushes cfg keys (left + 1) = 1 := by
          obtain ⟨n, hn, hle⟩ := hstop
          have hlt := hopen n hn
          have hstop' : cfg.stopLength = some n := hn
          rw [pushes, hstop']
          dsimp only
          omega
        rw [if_pos ((hpush.hasReachedStopLength_iff cfg).mpr hstop), hone]
        exact hpush
      · have hmore : pushes cfg keys (left + 1)
            = pushes cfg (keys ++ [code.keys i]) left + 1 := by
          rw [pushes, pushes]
          cases hn : cfg.stopLength with
          | none => rfl
          | some n =>
              have hlt : keys.length + 1 < n := by
                by_contra hge
                exact hstop ⟨n, hn, by omega⟩
              dsimp only
              omega
        have hrest := @ih (s.masPush (code.keys i))
          (keys ++ [code.keys i]) (i + 1) hpush (by
            intro n hn
            by_contra hge
            exact hstop ⟨n, hn, by omega⟩)
        have hkeys : keys ++ (List.range (pushes cfg keys (left + 1))).map
              (fun j => code.keys (i + j))
            = keys ++ [code.keys i] ++ (List.range
              (pushes cfg (keys ++ [code.keys i]) left)).map
              (fun j => code.keys (i + 1 + j)) := by
          rw [hmore, List.range_succ_eq_map, List.map_cons, List.map_map,
            List.append_assoc]
          congr 3
          funext j
          show code.keys (i + (j + 1)) = _
          congr 1
          omega
        rw [if_neg fun hs => hstop ((hpush.hasReachedStopLength_iff cfg).mp hs),
          hkeys]
        exact hrest

/-- The keys of a code that make up its message. -/
def messageKeys (cfg : Config) (body : List Key) : List Key :=
  match cfg.stopLength with
  | none => body
  | some n => body.take n

theorem pushes_nil (hstop : ∀ n, cfg.stopLength = some n → n ≤ body.length) :
    body.take (pushes cfg [] body.length) = messageKeys cfg body := by
  rw [pushes, messageKeys]
  cases hn : cfg.stopLength with
  | none => exact List.take_length
  | some n =>
      have hle := hstop n hn
      dsimp only
      rw [List.length_nil, Nat.sub_zero, Nat.min_eq_right hle]

/-- The length of a code, and what the loop makes of it. -/
theorem lastKeycodeChar_eq (hlen : (codeKeys cfg body).length ≤ 255) :
    (match cfg.protocol with
      | .small => UInt8.ofNat (codeKeys cfg body).length
      | .full => UInt8.ofNat (codeKeys cfg body).length - 1).toNat - 1
      = body.length := by
  rw [codeKeys] at hlen ⊢
  generalize cfg.protocol = protocol at hlen ⊢
  cases protocol with
  | full =>
      simp only [List.length_cons, List.length_append,
        List.length_nil] at hlen ⊢
      rw [UInt8.toNat_sub, UInt8.toNat_ofNat']
      show (2 ^ 8 - 1 + (body.length + (0 + 1) + 1) % 2 ^ 8) % 2 ^ 8 - 1 = _
      omega
  | small =>
      simp only [List.length_cons] at hlen ⊢
      rw [UInt8.toNat_ofNat']
      omega

theorem codeKeys_eq (cfg : Config) (body : List Key) :
    ∃ rest, codeKeys cfg body = cfg.startChar :: (body ++ rest) := by
  rw [codeKeys]
  cases cfg.protocol with
  | full => exact ⟨[cfg.endChar], rfl⟩
  | small => exact ⟨[], by rw [List.append_nil]⟩

/-- A code entered whole finishes its message. -/
theorem finishing_whole (hpaid : ¬ BelowRefill cfg s)
    (hlen : (codeKeys cfg body).length ≤ 255)
    (hstop : ∀ n, cfg.stopLength = some n → 0 < n ∧ n ≤ body.length)
    (behind : ℕ → Key) :
    ∃ t, finishing cfg s
        (.completeKeycode (completeCode (codeKeys cfg body) behind))
        = some t.bookendReset ∧
      s.handleCompleteKeycode cfg (completeCode (codeKeys cfg body) behind)
        = t.bookendReset.masFinish cfg ∧
      Tracks t (some (messageKeys cfg body)) ∧ t.rlBucket = s.rlBucket := by
  obtain ⟨rest, hkeys⟩ := codeKeys_eq cfg body
  have hlimit : ¬ s.isRateLimited cfg = true :=
    fun h => hpaid ((isRateLimited_iff cfg s).mp h)
  have hfirst : ¬ (completeCode (codeKeys cfg body) behind).keys 0
      ≠ cfg.startChar := by
    rw [hkeys]
    exact fun h => h rfl
  have hopen : Tracks (masReset { s with startSeen := true }) (some []) := by
    refine ⟨rfl, ?_, ?_⟩
    · rintro _ ⟨rfl⟩
      rfl
    · rintro _ ⟨rfl⟩
      exact iff_of_false (by simp [masReset]) (by simp)
  have hloop := @Tracks.pushLoop cfg _ []
    (completeCode (codeKeys cfg body) behind) body.length 1 hopen
    fun n hn => (hstop n hn).1
  have hmessage : [] ++ (List.range (pushes cfg [] body.length)).map
      (fun j => (completeCode (codeKeys cfg body) behind).keys (1 + j))
      = messageKeys cfg body := by
    have hpushes : pushes cfg [] body.length ≤ body.length := by
      rw [pushes]
      split
      · exact le_refl _
      · exact Nat.min_le_left _ _
    have hcells := @map_range_getD _ (codeKeys cfg body) behind 1
      (pushes cfg [] body.length) (by
        rw [hkeys, List.length_cons, List.length_append]
        omega)
    rw [List.nil_append]
    refine hcells.trans ?_
    rw [hkeys, List.drop_succ_cons, List.drop_zero,
      List.take_append_of_le_length hpushes]
    exact pushes_nil fun n hn => (hstop n hn).2
  rw [hmessage] at hloop
  have hcount := lastKeycodeChar_eq hlen
  refine ⟨_, ?_, ?_, hloop, (SameMailbox.pushLoop cfg _ _ _ _).rlBucket⟩
  · rw [finishing, if_neg hlimit, if_neg hfirst]
    dsimp only
    rw [← hcount]
    rfl
  · rw [handleCompleteKeycode, if_neg hlimit, if_neg hfirst]
    dsimp only
    rw [← hcount]
    rfl

/-! ## Key by key -/

/-- A start key opens a message, whatever was open. -/
theorem press_start (hpaid : ¬ BelowRefill cfg s) :
    keyEvent cfg s cfg.startChar = some .keyAccepted ∧
      Tracks (s.bookendPush cfg cfg.startChar) (some []) ∧
      (s.bookendPush cfg cfg.startChar).rlBucket = s.rlBucket := by
  have hstep := pressed cfg s cfg.startChar
  rw [keyEvent]
  generalize finishing cfg s (.singleKey cfg.startChar) = finished at hstep ⊢
  generalize s.bookendPush cfg cfg.startChar = next at hstep ⊢
  cases hstep with
  | limited hlimit => exact absurd hlimit hpaid
  | start =>
      have hlast := getLast?_feedbackStart s.touch .keyAccepted
      refine ⟨congrArg (Option.bind · feedbackEvent) hlast, ⟨rfl, ?_, ?_⟩,
        rfl⟩
      · rintro _ ⟨rfl⟩
        rfl
      · rintro _ ⟨rfl⟩
        exact iff_of_false (by simp [masReset]) (by simp)
  | outside _ hstart => exact absurd rfl hstart
  | finish _ hstart => exact absurd rfl hstart
  | stop _ hstart => exact absurd rfl hstart
  | push _ hstart => exact absurd rfl hstart

/-- A finished message is paid and leaves nothing behind; any other key is
free. -/
theorem rlBucket_press (s : System) (key : Key)
    {event : FramingEvent Key} (hevent : keyEvent cfg s key = some event) :
    (event.isMessage = true →
      (s.bookendPush cfg key).startSeen = false ∧
      (s.bookendPush cfg key).partialFrame.keys = [] ∧
      (s.bookendPush cfg key).rlBucket = deducted cfg s.rlBucket) ∧
    (event.isMessage = false →
      (s.bookendPush cfg key).rlBucket = s.rlBucket) := by
  have hfinish (t : System) : t.finishEvent.isMessage = true := by
    rw [finishEvent]
    split <;> rfl
  have hfeedback (e : Effect) (event : FramingEvent Key)
      (h : feedbackEvent e = some event) : event.isMessage = false := by
    rw [feedbackEvent.eq_def] at h
    split at h <;> cases h <;> rfl
  have hstep := pressed cfg s key
  rw [keyEvent] at hevent
  generalize finishing cfg s (.singleKey key) = finished at hstep hevent
  generalize s.bookendPush cfg key = next at hstep hevent ⊢
  have hother : finished = none → ¬ event.isMessage = true := by
    rintro rfl
    obtain ⟨e, -, he⟩ := Option.bind_eq_some_iff.mp hevent
    exact Bool.eq_false_iff.mp (hfeedback e event he)
  cases hstep with
  | limited => exact ⟨fun h => absurd h (hother rfl), fun _ => rfl⟩
  | start => exact ⟨fun h => absurd h (hother rfl), fun _ => rfl⟩
  | outside => exact ⟨fun h => absurd h (hother rfl), fun _ => rfl⟩
  | push =>
      exact ⟨fun h => absurd h (hother rfl),
        fun _ => rlBucket_masPush s.touch key⟩
  | finish =>
      injection hevent with hevent
      refine ⟨fun _ => ⟨startSeen_masFinish _, rfl, rlBucket_masFinish _⟩, ?_⟩
      intro h
      rw [← hevent, hfinish] at h
      cases h
  | stop =>
      injection hevent with hevent
      refine ⟨fun _ => ⟨startSeen_masFinish _, rfl, ?_⟩, ?_⟩
      · rw [rlBucket_masFinish]
        exact congrArg (deducted cfg) (rlBucket_masPush s.touch key)
      · intro h
        rw [← hevent, hfinish] at h
        cases h

/-- A key of the body goes to the open message, and is free. -/
theorem Tracks.press_body (h : Tracks s (some keys))
    (hpaid : ¬ BelowRefill cfg s)
    (hkey : key ≠ cfg.startChar ∧ key ≠ cfg.endChar)
    (hopen : ¬ cfg.bookends.Stops (keys ++ [key])) :
    keyEvent cfg s key = some .keyAccepted ∧
      Tracks (s.bookendPush cfg key) (some (keys ++ [key])) ∧
      (s.bookendPush cfg key).rlBucket = s.rlBucket := by
  obtain ⟨hevent, htracks⟩ := h.press hpaid key
  obtain ⟨he, hp⟩ := Bookends.press_push (b := cfg.bookends) hkey.1 hkey.2
    hopen
  rw [he] at hevent
  rw [hp] at htracks
  exact ⟨hevent, htracks, (rlBucket_press s key hevent).2 rfl⟩

theorem isMessage_close (b : Bookends Key) (keys : List Key) :
    (b.close keys).isMessage = true := by
  rw [Bookends.close]
  split <;> rfl

/-- The key that closes it pays. -/
theorem Tracks.press_last (h : Tracks s (some keys))
    (hpaid : ¬ BelowRefill cfg s) {message : List Key}
    (hlast : cfg.bookends.event (some keys) key
      = cfg.bookends.close message) :
    keyEvent cfg s key = some (cfg.bookends.close message) ∧
      (s.bookendPush cfg key).startSeen = false ∧
      (s.bookendPush cfg key).partialFrame.keys = [] ∧
      (s.bookendPush cfg key).rlBucket = deducted cfg s.rlBucket := by
  obtain ⟨hevent, -⟩ := h.press hpaid key
  rw [hlast] at hevent
  exact ⟨hevent, (rlBucket_press s key hevent).1 (isMessage_close _ _)⟩

/-- Behind a closed message nothing happens before the next start key. -/
theorem press_behind (hseen : s.startSeen = false)
    (hstart : key ≠ cfg.startChar) :
    keyEvent cfg s key = some .keyRejected ∧
      SameAssembly s (s.bookendPush cfg key) ∧
      (s.bookendPush cfg key).rlBucket = s.rlBucket := by
  have hstep := pressed cfg s key
  rw [keyEvent]
  generalize finishing cfg s (.singleKey key) = finished at hstep ⊢
  generalize s.bookendPush cfg key = next at hstep ⊢
  have hlast := getLast?_feedbackStart s.touch .keyRejected
  cases hstep with
  | limited =>
      exact ⟨congrArg (Option.bind · feedbackEvent) hlast, ⟨rfl, rfl, rfl⟩,
        rfl⟩
  | outside =>
      exact ⟨congrArg (Option.bind · feedbackEvent) hlast, ⟨rfl, rfl, rfl⟩,
        rfl⟩
  | start _ h => exact absurd h hstart
  | finish _ _ h => rw [hseen] at h; cases h
  | stop _ _ h => rw [hseen] at h; cases h
  | push _ _ h => rw [hseen] at h; cases h

/-! ## Runs of keys -/

/-- The messages a sequence of keys leads to. -/
def messageEvents (cfg : Config) (s : System) (keys : List Key) :
    List (FramingEvent Key) :=
  (keyEvents cfg s keys).filter FramingEvent.isMessage

theorem messageEvents_cons (s : System) (key : Key) (keys : List Key)
    {event : FramingEvent Key} (hevent : keyEvent cfg s key = some event) :
    messageEvents cfg s (key :: keys)
      = (if event.isMessage then [event] else [])
        ++ messageEvents cfg (s.bookendPush cfg key) keys := by
  rw [messageEvents, keyEvents, events, hevent, List.filter_append,
    Option.toList_some]
  congr 1
  rw [List.filter_singleton, cond_eq_ite]

theorem messageEvents_append (s : System) (keys keys' : List Key) :
    messageEvents cfg s (keys ++ keys')
      = messageEvents cfg s keys
        ++ messageEvents cfg (pressAll cfg s keys) keys' := by
  rw [messageEvents, keyEvents, events_append, List.filter_append]
  rfl

theorem pressAll_append (s : System) (keys keys' : List Key) :
    pressAll cfg s (keys ++ keys')
      = pressAll cfg (pressAll cfg s keys) keys' :=
  run_append s keys keys'

theorem not_belowRefill_of_bucket (hpaid : ¬ BelowRefill cfg s)
    (hbucket : t.rlBucket = s.rlBucket) : ¬ BelowRefill cfg t := by
  rw [BelowRefill, hbucket]
  exact hpaid

/-- A body that does not reach the stop length stays open. -/
theorem Tracks.run_body (h : Tracks s (some keys))
    (hpaid : ¬ BelowRefill cfg s)
    (hbody : ∀ k ∈ body, k ≠ cfg.startChar ∧ k ≠ cfg.endChar)
    (hopen : ∀ n, cfg.stopLength = some n →
      keys.length + body.length < n) :
    messageEvents cfg s body = [] ∧
      Tracks (pressAll cfg s body) (some (keys ++ body)) ∧
      (pressAll cfg s body).rlBucket = s.rlBucket := by
  induction body generalizing s keys with
  | nil =>
      rw [List.append_nil]
      exact ⟨rfl, h, rfl⟩
  | cons key body ih =>
      have hlen : (keys ++ [key]).length = keys.length + 1 := by
        rw [List.length_append, List.length_singleton]
      have hstop : ¬ cfg.bookends.Stops (keys ++ [key]) := by
        rintro ⟨n, hn, hle⟩
        have := hopen n hn
        rw [List.length_cons] at this
        omega
      obtain ⟨hevent, htracks, hbucket⟩ := h.press_body hpaid
        (hbody key List.mem_cons_self) hstop
      obtain ⟨hevents, hrest, hbucket'⟩ := ih htracks
        (not_belowRefill_of_bucket hpaid hbucket)
        (fun k hk => hbody k (List.mem_cons_of_mem key hk)) (by
          intro n hn
          have := hopen n hn
          rw [List.length_cons] at this
          omega)
      refine ⟨?_, ?_, hbucket'.trans hbucket⟩
      · rw [messageEvents_cons s key body hevent, hevents]
        rfl
      · rw [List.append_cons]
        exact hrest

theorem run_behind (hseen : s.startSeen = false)
    (hbody : ∀ k ∈ body, k ≠ cfg.startChar) :
    messageEvents cfg s body = [] ∧ SameAssembly s (pressAll cfg s body) ∧
      (pressAll cfg s body).rlBucket = s.rlBucket := by
  induction body generalizing s with
  | nil => exact ⟨rfl, ⟨rfl, rfl, rfl⟩, rfl⟩
  | cons key body ih =>
      obtain ⟨hevent, hsame, hbucket⟩ := press_behind hseen
        (hbody key List.mem_cons_self)
      obtain ⟨hevents, hrest, hbucket'⟩ := ih (hsame.startSeen.trans hseen)
        fun k hk => hbody k (List.mem_cons_of_mem key hk)
      refine ⟨?_, hsame.trans hrest, hbucket'.trans hbucket⟩
      rw [messageEvents_cons s key body hevent, hevents]
      rfl

/-- An open message and the key that closes it. -/
theorem Tracks.run_last (h : Tracks s (some keys))
    (hpaid : ¬ BelowRefill cfg s) {message : List Key}
    (hlast : cfg.bookends.event (some keys) key
      = cfg.bookends.close message) (rest : List Key)
    (hrest : ∀ k ∈ rest, k ≠ cfg.startChar) :
    messageEvents cfg s (key :: rest) = [cfg.bookends.close message] ∧
      (pressAll cfg s (key :: rest)).startSeen = false ∧
      (pressAll cfg s (key :: rest)).partialFrame.keys = [] ∧
      (pressAll cfg s (key :: rest)).rlBucket
        = deducted cfg s.rlBucket := by
  obtain ⟨hevent, hseen, hkeys, hbucket⟩ := h.press_last hpaid hlast
  obtain ⟨hevents, hsame, hbucket'⟩ := run_behind hseen hrest
  refine ⟨?_, hsame.startSeen.trans hseen, ?_, hbucket'.trans hbucket⟩
  · rw [messageEvents_cons s key rest hevent, hevents, isMessage_close,
      if_pos rfl, List.append_nil]
  · exact (congrArg Frame.keys hsame.partialFrame).trans hkeys

theorem endChar_ne_startChar (cfg : Config) :
    cfg.endChar ≠ cfg.startChar := by
  rw [Config.endChar, Config.startChar]
  cases cfg.protocol <;> decide

/-- Where a code closes its message: at the end key, or at the key that
reaches the stop length. -/
theorem codeKeys_split
    (hbody : ∀ k ∈ body, k ≠ cfg.startChar ∧ k ≠ cfg.endChar)
    (hstop : ∀ n, cfg.stopLength = some n → 0 < n ∧ n ≤ body.length) :
    ∃ opened last rest,
      codeKeys cfg body = cfg.startChar :: (opened ++ last :: rest) ∧
      (∀ k ∈ opened, k ∈ body) ∧ (∀ k ∈ rest, k ∈ body) ∧
      (∀ n, cfg.stopLength = some n → opened.length < n) ∧
      cfg.bookends.event (some opened) last
        = cfg.bookends.close (messageKeys cfg body) := by
  cases hn : cfg.stopLength with
  | none =>
      have hfull : cfg.protocol = .full := by
        rw [Config.stopLength] at hn
        cases hproto : cfg.protocol with
        | full => rfl
        | small => rw [hproto] at hn; cases hn
      refine ⟨body, cfg.endChar, [], ?_, fun k hk => hk, ?_, ?_, ?_⟩
      · rw [codeKeys, hfull]
      · intro k hk
        cases hk
      · intro n h
        cases h
      · rw [messageKeys, hn]
        exact (Bookends.press_finish (b := cfg.bookends)
          (endChar_ne_startChar cfg) rfl).1
  | some n =>
      obtain ⟨hpos, hle⟩ := hstop n hn
      have hsmall : cfg.protocol = .small := by
        rw [Config.stopLength] at hn
        cases hproto : cfg.protocol with
        | full => rw [hproto] at hn; cases hn
        | small => rfl
      obtain ⟨m, rfl⟩ := Nat.exists_eq_succ_of_ne_zero hpos.ne'
      have hm : m < body.length := hle
      have htake : body.take m ++ [body[m]] = body.take (m + 1) :=
        (List.take_append_getElem hm)
      have hlast := hbody _ (List.getElem_mem hm)
      refine ⟨body.take m, body[m], body.drop (m + 1), ?_,
        fun k hk => List.mem_of_mem_take hk,
        fun k hk => List.mem_of_mem_drop hk, ?_, ?_⟩
      · rw [codeKeys, hsmall, List.getElem_cons_drop hm,
          List.take_append_drop]
      · intro n h
        injection h with h
        rw [List.length_take, ← h]
        omega
      · have hstops : cfg.bookends.Stops (body.take m ++ [body[m]]) := by
          refine ⟨m + 1, hn, ?_⟩
          rw [htake, List.length_take]
          omega
        rw [messageKeys, hn]
        dsimp only
        rw [← htake]
        exact (Bookends.press_stop (b := cfg.bookends) hlast.1 hlast.2
          hstops).1

/-- The keys of a code, one by one. -/
theorem pressAll_code (hpaid : ¬ BelowRefill cfg s)
    (hbody : ∀ k ∈ body, k ≠ cfg.startChar ∧ k ≠ cfg.endChar)
    (hstop : ∀ n, cfg.stopLength = some n → 0 < n ∧ n ≤ body.length) :
    messageEvents cfg s (codeKeys cfg body)
        = [cfg.bookends.close (messageKeys cfg body)] ∧
      (pressAll cfg s (codeKeys cfg body)).startSeen = false ∧
      (pressAll cfg s (codeKeys cfg body)).partialFrame.keys = [] ∧
      (pressAll cfg s (codeKeys cfg body)).rlBucket
        = deducted cfg s.rlBucket := by
  obtain ⟨opened, last, rest, hcode, hopened, hrest, hshort, hlast⟩ :=
    codeKeys_split hbody hstop
  obtain ⟨hevent, htracks, hbucket⟩ := press_start hpaid
  have hpaid' := not_belowRefill_of_bucket hpaid hbucket
  obtain ⟨hevents, htracks', hbucket'⟩ := htracks.run_body hpaid'
    (fun k hk => hbody k (hopened k hk)) (by
      intro n hn
      rw [List.length_nil, Nat.zero_add]
      exact hshort n hn)
  rw [List.nil_append] at htracks'
  obtain ⟨hevents', hseen, hkeys, hpaid''⟩ := htracks'.run_last
    (not_belowRefill_of_bucket hpaid' hbucket') hlast rest
    fun k hk => (hbody k (hrest k hk)).1
  have hall : pressAll cfg s (codeKeys cfg body)
      = pressAll cfg (pressAll cfg (s.bookendPush cfg cfg.startChar) opened)
        (last :: rest) := by
    rw [hcode]
    exact pressAll_append _ opened (last :: rest)
  rw [hall]
  refine ⟨?_, hseen, hkeys, ?_⟩
  · rw [hcode, messageEvents_cons s cfg.startChar _ hevent,
      messageEvents_append, hevents, hevents']
    rfl
  · rw [hpaid'', hbucket', hbucket]

end

/-! ## Both ways -/

/-- A code entered whole and the same code key by key, without a call of
`process` in between, hand over the same keys or are both invalid, cost the
same and leave no message open. -/
theorem whole_code_equals_keys (cfg : Config) (s : System)
    (hpaid : ¬ BelowRefill cfg s) (body : List Key)
    (hbody : ∀ k ∈ body, k ≠ cfg.startChar ∧ k ≠ cfg.endChar)
    (hlen : (codeKeys cfg body).length ≤ 255)
    (hsmall : cfg.protocol = .small → 14 ≤ body.length)
    (behind : ℕ → Key) :
    let code := completeCode (codeKeys cfg body) behind
    let whole := s.handleCompleteKeycode cfg code
    let keys := pressAll cfg s (codeKeys cfg body)
    messageEvents cfg s (codeKeys cfg body) = [wholeEvent cfg s code] ∧
      whole.rlBucket = keys.rlBucket ∧
      whole.startSeen = false ∧ keys.startSeen = false ∧
      whole.partialFrame.keys = [] ∧ keys.partialFrame.keys = [] := by
  intro code whole keys
  have hstop : ∀ n, cfg.stopLength = some n → 0 < n ∧ n ≤ body.length := by
    intro n hn
    rw [Config.stopLength] at hn
    cases hproto : cfg.protocol with
    | full => rw [hproto] at hn; cases hn
    | small =>
        rw [hproto] at hn
        injection hn with hn
        have := hsmall hproto
        omega
  obtain ⟨hevents, hseen, hkeys, hbucket⟩ := pressAll_code hpaid hbody hstop
  obtain ⟨t, hfinishing, hwhole, htracks, htbucket⟩ :=
    finishing_whole hpaid hlen hstop behind
  have hwhole' : whole = t.bookendReset.masFinish cfg := hwhole
  have hevent : wholeEvent cfg s code
      = cfg.bookends.close (messageKeys cfg body) := by
    rw [wholeEvent, hfinishing]
    -- what is reset is not part of the message
    exact htracks.finishEvent_eq cfg
  refine ⟨?_, ?_, ?_, hseen, ?_, hkeys⟩
  · rw [hevents, hevent]
  · rw [hwhole', rlBucket_masFinish, hbucket, ← htbucket]
    rfl
  · rw [hwhole', startSeen_masFinish]
    rfl
  · rw [hwhole', partialFrame_masFinish]

/-- The code `*123#` on the first power on. -/
theorem whole_code_equals_keys_short :
    let code := completeCode (codeKeys (.default .full) [49, 50, 51])
      fun _ => 0
    messageEvents (.default .full) firstStart [42, 49, 50, 51, 35]
        = [wholeEvent (.default .full) firstStart code] ∧
      wholeEvent (.default .full) firstStart code
        = .delivered [49, 50, 51] := by
  refine ⟨(whole_code_equals_keys (.default .full) firstStart
    (by decide +kernel) [49, 50, 51] (by decide) (by decide)
    (fun h => nomatch h) fun _ => 0).1, ?_⟩
  decide +kernel

end System

end Nexus.Keycode
