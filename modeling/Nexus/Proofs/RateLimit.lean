import Nexus.Keycode.Core
import Nexus.Lib.TokenBucket
import Nexus.Proofs.Carried

/-!
# The rate limit across power cycles

The assembly layer deducts a keycode's price from the bucket when the keycode
is complete, in the key interrupt. Only the next `process` call saves how many
keycodes the bucket still pays for, and hands the pending frame to the protocol
layer; a power cycle in between refills the bucket from the older number. The
whole is an `Account` of the token bucket library, and the library's potential
gives the bound on the frames handed over.

Two facts about NV carry the argument. The protocol layer makes no write to the
assembly layer's block, and that block, once written, always holds the number
in RAM.
-/

namespace Nexus.Keycode

open Nexus.Util

/-! ## The protocol layer keeps to its own block -/

/-- Writes to one block leave the others alone. -/
theorem nvAfter_other {nv : Nv.Store} {es : List Effect} {i j : UInt16}
    (hij : i ≠ j) (hes : ∀ k block, .nvWrite k block ∈ es → k = j) :
    nvAfter nv es i = nv i := by
  induction es generalizing nv with
  | nil => rfl
  | cons e es ih =>
      have hrest := fun k block hm => hes k block (List.mem_cons_of_mem e hm)
      cases e with
      | nvWrite k block =>
          obtain rfl := hes k block (by simp)
          rw [nvAfter, ih hrest, Function.update_of_ne hij]
      | _ => exact ih hrest

/-- From `m` to `m'` by calls of the protocol layer. -/
def Calls (m m' : Machine) : Prop := ∃ es, Traced m es m'

theorem Writes.calls {m m' : Machine} (h : Writes m m') : Calls m m' := by
  obtain ⟨es, ht, -⟩ := h
  exact ⟨es, ht⟩

namespace Calls

variable {m m' m'' : Machine}

theorem refl (m : Machine) : Calls m m := ⟨[], .refl m⟩

theorem trans (h : Calls m m') (h' : Calls m' m'') : Calls m m'' := by
  obtain ⟨es, ht⟩ := h
  obtain ⟨es', ht'⟩ := h'
  exact ⟨es ++ es', ht.trans ht'⟩

theorem emit (h : Calls m m') {e : Effect} (he : e.isNvWrite = false) :
    Calls m (m'.emit e) :=
  h.trans ⟨[e], .emit m' he⟩

theorem setCustomFlag (m : Machine) (flag : CustomFlag) :
    Calls m (m.setCustomFlag flag) :=
  (Writes.ofStored_update m _).calls.emit rfl

theorem resetCustomFlag (m : Machine) (flag : CustomFlag) :
    Calls m (m.resetCustomFlag flag) :=
  (Writes.ofStored_update m _).calls.emit rfl

theorem extendedSmallApplyInferred (m : Machine)
    (message : ExtendedSmallMessage) :
    Calls m (m.extendedSmallApplyInferred message) := by
  unfold Machine.extendedSmallApplyInferred
  refine Calls.emit (Calls.trans (Calls.trans ?_
    (Writes.maskBelowMessageId _ _).calls) (resetCustomFlag _ _)) rfl
  split
  · exact (refl m).emit rfl
  · exact (refl m).emit rfl

theorem smallApplySetCredit (m : Machine) (message : SmallMessage) :
    Calls m (m.smallApplySetCredit message).2 := by
  have hmask := (Writes.maskBelowMessageId m
    (message.fullMessageId + 1).toUInt16).calls
  unfold Machine.smallApplySetCredit
  simp only []
  repeat' split
  · exact hmask.emit rfl
  · exact hmask.emit rfl
  · exact hmask.trans (resetCustomFlag _ _)
  · exact hmask.emit rfl

theorem smallApplyAddCredit (m : Machine) (env : Env)
    (message : SmallMessage) :
    Calls m (m.smallApplyAddCredit env message).2 := by
  have hset := (Writes.setFullMessageIdFlag m
    message.fullMessageId.toUInt16).calls
  unfold Machine.smallApplyAddCredit
  simp only []
  repeat' split
  · exact hset.emit rfl
  · exact hset.emit rfl
  · exact hset

theorem smallApply (m : Machine) (cfg : Config) (env : Env)
    (message : SmallMessage) : Calls m (m.smallApply cfg env message).2 := by
  have hread := (Writes.readNv m).calls
  unfold Machine.smallApply
  split
  · exact refl m
  · split
    · unfold Machine.smallApplyActivation Machine.getFullMessageIdFlag
      simp only []
      repeat' split
      · exact hread
      · exact hread.trans (smallApplySetCredit _ message)
      · exact hread.trans (smallApplyAddCredit _ env message)
      · exact hread
    · split
      · have hwipe := (Writes.wipeMask m).calls
        unfold Machine.smallApplyMaintenance
        simp only []
        repeat' split
        · exact hwipe.emit rfl
        · exact (refl m).emit rfl
        · exact hwipe
        · exact refl m
      · unfold Machine.smallApplyTest
        repeat' split
        · exact (refl m).emit rfl
        · exact refl m
        · exact ((refl m).emit rfl).trans
            (Writes.incrementLongQcTestMessageCount _ cfg).calls
        · exact refl m
        · exact refl m

theorem fullApplyActivation (m : Machine) (env : Env)
    (message : FullMessage) :
    Calls m (m.fullApplyActivation env message).2 := by
  have hread := (Writes.readNv m).calls
  have hset := hread.trans (Writes.setFullMessageIdFlag _
    message.fullMessageId.toUInt16).calls
  have hmask := hread.trans (Writes.maskBelowMessageId _
    (message.fullMessageId + 1).toUInt16).calls
  have hwipe := hmask.trans (Writes.wipeMask _).calls
  unfold Machine.fullApplyActivation Machine.getFullMessageIdFlag
    Machine.fullApplyWipeState
  simp only []
  repeat' split
  · exact hread
  · exact hset.emit rfl
  · exact hset
  · exact hread.emit rfl
  · exact hread
  · exact hmask.emit rfl
  · exact hmask.emit rfl
  · exact hwipe.emit rfl
  · exact hmask.emit rfl
  · exact hwipe
  · exact hmask.trans (resetCustomFlag _ _)
  · exact hmask
  · exact hread

theorem fullApply (m : Machine) (cfg : Config) (env : Env)
    (message : FullMessage) : Calls m (m.fullApply cfg env message).2 := by
  have hemit {e : Effect} (he : e.isNvWrite = false) := (refl m).emit he
  unfold Machine.fullApply
  split
  · exact refl m
  · split
    · exact fullApplyActivation m env message
    · unfold Machine.fullApplyFactory Machine.fullApplyQcTest
      simp only []
      repeat' split
      · exact hemit rfl
      · exact refl m
      · exact (hemit rfl).trans
          (Writes.incrementShortQcTestMessageCount _ cfg).calls
      · exact (hemit rfl).trans
          (Writes.incrementLongQcTestMessageCount _ cfg).calls
      all_goals exact refl m

theorem fullParseAndApply (m : Machine) (cfg : Config) (env : Env)
    (frame : Frame) : Calls m (m.fullParseAndApply cfg env frame).2 := by
  have hout := fullOutcome cfg env frame m
  revert hout
  generalize m.fullCarried env frame = c
  generalize m.fullParseAndApply cfg env frame = r
  intro hout
  cases hout with
  | rejected => exact refl m
  | passthrough keys hresponse => exact (refl m).emit rfl
  | message hdecode htype => exact fullApply m cfg env _

theorem smallParseAndApply (m : Machine) (cfg : Config) (env : Env)
    (frame : Frame) : Calls m (m.smallParseAndApply cfg env frame).2 := by
  have hout := smallOutcome cfg env frame m
  revert hout
  generalize m.smallCarried cfg env frame = c
  generalize m.smallParseAndApply cfg env frame = r
  intro hout
  cases hout with
  | rejected => exact refl m
  | message hdecode htype => exact smallApply m cfg env _
  | unread => exact (refl m).emit rfl
  | extended hdecode hfound => exact extendedSmallApplyInferred m _

/-- Whatever a frame holds, it is handled by calls of the protocol layer. -/
theorem parseAndApply (cfg : Config) (env : Env) (frame : Frame)
    (m : Machine) : Calls m (System.parseAndApply cfg env frame m).2 := by
  unfold System.parseAndApply
  split
  · exact fullParseAndApply m cfg env frame
  · exact smallParseAndApply m cfg env frame

theorem init (m : Machine) : Calls m m.init :=
  (Writes.ofStored m _).calls.trans (Writes.readNv _).calls

/-- The assembly layer's block is as it was. -/
theorem nv_mas (h : Calls m m') :
    m'.nv Nv.blockKeycodeMas.blockId = m.nv Nv.blockKeycodeMas.blockId := by
  obtain ⟨es, ht⟩ := h
  rw [ht.nv]
  exact nvAfter_other (by decide) (fun i block hm => (ht.writes i block hm).1)

end Calls

namespace System

variable {cfg : Config}

/-! ## Seconds and attempts -/

theorem refill_toNat (cfg : Config) :
    (UInt32.ofNat cfg.rateLimitRefillSecondsPerAttempt).toNat
      = cfg.rateLimitRefillSecondsPerAttempt :=
  UInt32.toNat_ofNat_of_lt' (Nat.lt_of_le_of_lt cfg.refill_le (by decide))

/-- The number of attempts is what the seconds pay for, at most. -/
theorem attemptsLoop_le (refill fuel secondsRemaining : ℕ)
    (attemptsRemaining : UInt32) :
    (attemptsLoop refill fuel secondsRemaining attemptsRemaining).toNat
        * refill ≤ attemptsRemaining.toNat * refill + secondsRemaining := by
  induction fuel generalizing secondsRemaining attemptsRemaining with
  | zero => exact Nat.le_add_right _ _
  | succ fuel ih =>
      unfold attemptsLoop
      split
      · next hge =>
          have hnext := ih (secondsRemaining - refill) (attemptsRemaining + 1)
          have hone : (attemptsRemaining + 1).toNat
              ≤ attemptsRemaining.toNat + 1 := by
            rw [UInt32.toNat_add]
            exact Nat.mod_le _ _
          have hmul := Nat.mul_le_mul_right refill hone
          rw [Nat.add_mul, Nat.one_mul] at hmul
          omega
      · exact Nat.le_add_right _ _

/-- The keycodes saved are paid for by the bucket. -/
theorem remainingGraceperiodKeycodes_le (cfg : Config) (s : System) :
    (s.remainingGraceperiodKeycodes cfg).toNat
      * cfg.rateLimitRefillSecondsPerAttempt ≤ s.rlBucket.toNat := by
  unfold remainingGraceperiodKeycodes
  split
  · simp
  · split
    · next hge =>
        have hle : (UInt8.ofNat cfg.rateLimitBucketInitialCount).toNat
            ≤ cfg.rateLimitBucketInitialCount := by
          rw [UInt8.toNat_ofNat']
          exact Nat.mod_le _ _
        exact (Nat.mul_le_mul_right _ hle).trans hge
    · next hmax _ =>
        have hloop := attemptsLoop_le cfg.rateLimitRefillSecondsPerAttempt
          s.rlBucket.toNat s.rlBucket.toNat 0
        have hle : (s.rateLimitAttemptsRemaining cfg).toUInt8.toNat
            ≤ (s.rateLimitAttemptsRemaining cfg).toNat := by
          rw [UInt32.toNat_toUInt8]
          exact Nat.mod_le _ _
        refine (Nat.mul_le_mul_right _ hle).trans ?_
        rw [rateLimitAttemptsRemaining, if_neg hmax]
        simpa using hloop

/-- Time adds no more than itself, saturation and ceiling included. -/
theorem rateLimitAddTime_spec (cfg : Config) (s : System)
    (secondsElapsed : UInt32) :
    ∃ rlBucket : UInt32,
      rlBucket.toNat ≤ s.rlBucket.toNat + secondsElapsed.toNat ∧
      s.rateLimitAddTime cfg secondsElapsed
        = { s with rlBucket := rlBucket } := by
  unfold rateLimitAddTime
  split
  · next h =>
      refine ⟨_, ?_, rfl⟩
      have hceil : (maxRateLimitSeconds cfg).toNat < 2 ^ 32 :=
        UInt32.toNat_lt _
      have hlast : (UInt32.ofNat (2 ^ 32 - 1)).toNat = 2 ^ 32 - 1 := rfl
      have hbucket := UInt32.toNat_lt s.rlBucket
      rcases h with h | h
      · rw [gt_iff_lt, UInt32.lt_iff_toNat_lt, UInt32.toNat_sub_of_le,
          hlast] at h
        · omega
        · rw [UInt32.le_iff_toNat_le, hlast]
          omega
      · rw [ge_iff_le, UInt32.le_iff_toNat_le, UInt32.toNat_add] at h
        exact h.trans (Nat.mod_le _ _)
  · refine ⟨_, ?_, rfl⟩
    rw [UInt32.toNat_add]
    exact Nat.mod_le _ _

/-! ## The ledger -/

/-- The account the rate limit keeps. -/
def account (s : System) : Lib.Account where
  bucket := s.rlBucket.toNat
  pending := s.pending
  saved := s.graceperiodKeycodes.toNat
  served := s.handed.length

/-- The inner data of the assembly layer's block. -/
def graceBytes (s : System) : List UInt8 :=
  s.graceperiodKeycodes :: s.gracePad.toList

theorem length_graceBytes (s : System) :
    s.graceBytes.length + 4 = Nv.blockKeycodeMas.length := by
  simp [graceBytes, Nv.blockKeycodeMas]

/-- NV holds the keycodes in RAM, or was never written and RAM holds the
initial count. -/
def GraceSaved (cfg : Config) (s : System) : Prop :=
  (s.pro.nv Nv.blockKeycodeMas.blockId = none ∧ s.graceperiodKeycodes
    = UInt8.ofNat cfg.rateLimitBucketInitialCount) ∨
  s.pro.nv Nv.blockKeycodeMas.blockId
    = some (Nv.newBlock Nv.blockKeycodeMas s.graceBytes)

/-- Nothing the rate limit reads differs. -/
structure SameLedger (s t : System) : Prop where
  account : t.account = s.account
  bytes : t.graceBytes = s.graceBytes
  nv : t.pro.nv Nv.blockKeycodeMas.blockId
    = s.pro.nv Nv.blockKeycodeMas.blockId

theorem GraceSaved.congr {s t : System} (h : GraceSaved cfg s)
    (hbytes : t.graceBytes = s.graceBytes)
    (hnv : t.pro.nv Nv.blockKeycodeMas.blockId
      = s.pro.nv Nv.blockKeycodeMas.blockId) : GraceSaved cfg t := by
  have hgrace : t.graceperiodKeycodes = s.graceperiodKeycodes :=
    (List.cons.inj hbytes).1
  unfold GraceSaved
  rw [hnv, hgrace, hbytes]
  exact h

namespace SameLedger

theorem refl (s : System) : SameLedger s s := ⟨rfl, rfl, rfl⟩

theorem trans {s t u : System} (h : SameLedger s t) (h' : SameLedger t u) :
    SameLedger s u :=
  ⟨h'.account.trans h.account, h'.bytes.trans h.bytes, h'.nv.trans h.nv⟩

theorem masPush (s : System) (key : Key) : SameLedger s (s.masPush key) := by
  unfold System.masPush
  split
  · exact ⟨rfl, rfl, rfl⟩
  · exact ⟨rfl, rfl, rfl⟩

theorem pushLoop (cfg : Config) (code : CompleteCode) (left i : ℕ)
    (s : System) : SameLedger s (System.pushLoop cfg code left i s) := by
  induction left generalizing i s with
  | zero => exact refl s
  | succ left ih =>
      unfold System.pushLoop
      have hpush := masPush s (code.keys i)
      simp only
      split
      · exact hpush
      · exact hpush.trans (ih (i + 1) _)

theorem bookendProcess (cfg : Config) (s : System) (uptime : UInt32) :
    SameLedger s (s.bookendProcess cfg uptime) := by
  unfold System.bookendProcess
  split
  · simp only
    repeat' split
    all_goals exact ⟨rfl, rfl, rfl⟩
  · exact refl s

end SameLedger

/-! ## Keys -/

/-- What an input of keys can do to the ledger: nothing, or, unless the limit
is reached, finish a frame. -/
inductive Keyed (cfg : Config) (s : System) : System → Prop
  | kept {t : System} (h : SameLedger s t) : Keyed cfg s t
  | finished {t : System} (h : SameLedger s t)
      (hlimit : s.isRateLimited cfg = false) : Keyed cfg s (t.masFinish cfg)

theorem bookendPush_keyed (s : System) (key : Key) :
    Keyed cfg s (s.bookendPush cfg key) := by
  unfold bookendPush
  simp only
  split
  · exact .kept ⟨rfl, rfl, rfl⟩
  · next hlimit =>
      rw [Bool.not_eq_true] at hlimit
      split
      · exact .kept ⟨rfl, rfl, rfl⟩
      · split
        · split
          · exact .finished ⟨rfl, rfl, rfl⟩ hlimit
          · have hpush := SameLedger.masPush
              { s with latestUptime := UInt32.ofNat (2 ^ 32 - 1) } key
            split
            · exact .finished ⟨hpush.account, hpush.bytes, hpush.nv⟩ hlimit
            · exact .kept ⟨hpush.account, hpush.bytes, hpush.nv⟩
        · exact .kept ⟨rfl, rfl, rfl⟩

theorem handleCompleteKeycode_keyed (s : System) (code : CompleteCode) :
    Keyed cfg s (s.handleCompleteKeycode cfg code) := by
  unfold handleCompleteKeycode
  split
  · exact .kept ⟨rfl, rfl, rfl⟩
  · next hlimit =>
      rw [Bool.not_eq_true] at hlimit
      split
      · exact .kept ⟨rfl, rfl, rfl⟩
      · simp only
        generalize hcount : UInt8.toNat _ - 1 = count
        have hloop := SameLedger.pushLoop cfg code count 1
          (masReset { s with startSeen := true })
        exact .finished ⟨hloop.account, hloop.bytes, hloop.nv⟩ hlimit

/-- Finishing a frame pays its price; the frame becomes pending at most. -/
theorem masFinish_account {s : System} (hmax : cfg.rateLimitBucketMax ≠ 0)
    (hbucket : cfg.rateLimitRefillSecondsPerAttempt ≤ s.account.bucket) :
    ∃ pending, (s.masFinish cfg).account =
      { s.account with
        bucket := s.account.bucket - cfg.rateLimitRefillSecondsPerAttempt
        pending := pending } := by
  have htoNat := refill_toNat cfg
  have hsub : (s.rlBucket - UInt32.ofNat
      cfg.rateLimitRefillSecondsPerAttempt).toNat =
      s.rlBucket.toNat - cfg.rateLimitRefillSecondsPerAttempt := by
    rw [UInt32.toNat_sub_of_le, htoNat]
    rw [UInt32.le_iff_toNat_le, htoNat]
    exact hbucket
  have hge : s.rlBucket.toNat ≥ cfg.rateLimitRefillSecondsPerAttempt := hbucket
  unfold masFinish enqueue
  simp only
  repeat' split
  all_goals
    simp only [rateLimitDeductMsg, feedbackStart, hmax, hge, ne_eq,
      not_false_eq_true, and_self, if_true, account, masReset, hsub]
    exact ⟨_, rfl⟩

theorem masFinish_bytes (cfg : Config) (s : System) :
    (s.masFinish cfg).graceBytes = s.graceBytes ∧
      (s.masFinish cfg).pro.nv = s.pro.nv := by
  unfold masFinish enqueue rateLimitDeductMsg
  simp only
  repeat' split
  all_goals exact ⟨rfl, rfl⟩

namespace Keyed

variable {s t : System}

theorem graceSaved (h : Keyed cfg s t) (hs : GraceSaved cfg s) :
    GraceSaved cfg t := by
  cases h with
  | kept h => exact hs.congr h.bytes h.nv
  | finished h hlimit =>
      obtain ⟨hbytes, hnv⟩ := masFinish_bytes cfg _
      refine hs.congr (hbytes.trans h.bytes) ?_
      rw [hnv, h.nv]

theorem account_step (h : Keyed cfg s t)
    (hmax : cfg.rateLimitBucketMax ≠ 0) :
    s.account.Step cfg.rateLimitRefillSecondsPerAttempt 0 t.account := by
  cases h with
  | kept h =>
      rw [h.account]
      exact .idle
  | finished h hlimit =>
      have hbucket : cfg.rateLimitRefillSecondsPerAttempt
          ≤ s.account.bucket := by
        rw [isRateLimited, if_neg hmax] at hlimit
        exact Nat.not_lt.mp (of_decide_eq_false hlimit)
      obtain ⟨pending, hfinish⟩ :=
        masFinish_account hmax (h.account ▸ hbucket)
      rw [hfinish, h.account]
      exact .charge pending hbucket

end Keyed

/-! ## Processing -/

/-- After the update NV holds the keycodes in RAM. -/
theorem graceperiodKeycodesUpdateNv_graceSaved {s : System}
    (h : GraceSaved cfg s) (newGraceperiodKeycodes : UInt8) :
    GraceSaved cfg
      (s.graceperiodKeycodesUpdateNv newGraceperiodKeycodes) := by
  unfold graceperiodKeycodesUpdateNv
  split
  · exact h
  · refine Or.inr (nvUpdate_nv ?_)
    rcases h with ⟨h, -⟩ | h
    · exact Or.inl h
    · exact Or.inr ⟨_, s.length_graceBytes, h⟩

theorem masProcess_graceSaved {s : System} (h : GraceSaved cfg s)
    (secondsElapsed uptime : UInt32) :
    GraceSaved cfg (s.masProcess cfg secondsElapsed uptime) := by
  obtain ⟨rlBucket, -, hadd⟩ := rateLimitAddTime_spec cfg s secondsElapsed
  have hupdate := graceperiodKeycodesUpdateNv_graceSaved
    (h.congr rfl rfl : GraceSaved cfg { s with rlBucket := rlBucket })
    (remainingGraceperiodKeycodes { s with rlBucket := rlBucket } cfg)
  rw [masProcess, hadd]
  have hend := SameLedger.bookendProcess cfg (graceperiodKeycodesUpdateNv
    { s with rlBucket := rlBucket }
    (remainingGraceperiodKeycodes { s with rlBucket := rlBucket } cfg)) uptime
  exact hupdate.congr hend.bytes hend.nv

theorem proProcess_graceSaved {s : System} (h : GraceSaved cfg s)
    (env : Env) : GraceSaved cfg (s.proProcess cfg env) := by
  have hnv := (Calls.parseAndApply cfg env s.frame s.pro).nv_mas
  unfold proProcess
  simp only
  repeat' split
  · exact h.congr rfl hnv
  · exact h.congr rfl hnv
  · exact h

theorem graceperiodKeycodesUpdateNv_account (s : System)
    (newGraceperiodKeycodes : UInt8) :
    (s.graceperiodKeycodesUpdateNv newGraceperiodKeycodes).account =
      { s.account with saved := newGraceperiodKeycodes.toNat } := by
  unfold graceperiodKeycodesUpdateNv
  split
  · next heq =>
      rw [heq]
      rfl
  · rfl

theorem masProcess_account (cfg : Config) (s : System)
    (secondsElapsed uptime : UInt32) :
    ∃ bucket saved : ℕ, bucket ≤ s.account.bucket + secondsElapsed.toNat ∧
      saved * cfg.rateLimitRefillSecondsPerAttempt ≤ bucket ∧
      (s.masProcess cfg secondsElapsed uptime).account =
        { s.account with bucket := bucket, saved := saved } := by
  obtain ⟨rlBucket, hle, hadd⟩ := rateLimitAddTime_spec cfg s secondsElapsed
  have hpaid := remainingGraceperiodKeycodes_le cfg
    { s with rlBucket := rlBucket }
  refine ⟨_, _, hle, hpaid, ?_⟩
  rw [masProcess, hadd]
  have hend := SameLedger.bookendProcess cfg (graceperiodKeycodesUpdateNv
    { s with rlBucket := rlBucket }
    (remainingGraceperiodKeycodes { s with rlBucket := rlBucket } cfg)) uptime
  rw [hend.account, graceperiodKeycodesUpdateNv_account]
  rfl

theorem proProcess_account (s : System) (env : Env) :
    (s.proProcess cfg env).account =
      { s.account with
        pending := false
        served := s.account.served + s.account.pending.toNat } := by
  unfold proProcess
  split
  · next hpending =>
      simp only
      split
      all_goals simp [account, feedbackStart, hpending]
  · next hpending =>
      rw [Bool.not_eq_true] at hpending
      simp [account, hpending]

theorem coreProcess_step (s : System) (env : Env)
    (secondsElapsed uptime : UInt32) :
    s.account.Step cfg.rateLimitRefillSecondsPerAttempt secondsElapsed.toNat
      (s.coreProcess cfg env secondsElapsed uptime).account := by
  obtain ⟨bucket, saved, hbucket, hsaved, hmas⟩ :=
    masProcess_account cfg s secondsElapsed uptime
  rw [coreProcess, proProcess_account, hmas]
  exact .earn hbucket hsaved

/-! ## Power cycles -/

theorem nvRead_mas_blank {nv : Nv.Store}
    (h : nv Nv.blockKeycodeMas.blockId = none) :
    Nv.nvRead nv Nv.blockKeycodeMas = none := by
  have hzero : Nv.blockValid Nv.blockKeycodeMas
      (List.replicate Nv.blockKeycodeMas.length 0x00) = false := by decide
  simp [Nv.nvRead, h, hzero]

/-- Initialisation over a store without the block starts from the initial
count. -/
theorem coreInit_blank {s : System}
    (h : s.pro.nv Nv.blockKeycodeMas.blockId = none) :
    GraceSaved cfg (s.coreInit cfg) ∧
      (s.coreInit cfg).graceperiodKeycodes
        = UInt8.ofNat cfg.rateLimitBucketInitialCount := by
  have hinit := (Calls.init s.pro).nv_mas
  unfold coreInit masInit
  simp only [nvRead_mas_blank (hinit.trans h)]
  exact ⟨Or.inl ⟨hinit.trans h, rfl⟩, rfl⟩

/-- Initialisation over a stored block starts from what it holds. -/
theorem coreInit_block {s : System} {grace : UInt8} {pad : Vector UInt8 3}
    (h : s.pro.nv Nv.blockKeycodeMas.blockId = some
      (Nv.newBlock Nv.blockKeycodeMas (grace :: pad.toList))) :
    GraceSaved cfg (s.coreInit cfg) ∧
      (s.coreInit cfg).graceperiodKeycodes = grace := by
  have hinit := (Calls.init s.pro).nv_mas
  have hread : Nv.nvRead s.pro.init.nv Nv.blockKeycodeMas
      = some (grace :: pad.toList) :=
    Nv.nvRead_of_newBlock (by simp [Nv.blockKeycodeMas]) (hinit.trans h)
  have hpad : #v[(grace :: pad.toList).getD 1 0,
      (grace :: pad.toList).getD 2 0, (grace :: pad.toList).getD 3 0]
      = pad := by
    ext i hi
    interval_cases i <;> simp
  unfold coreInit masInit
  simp only [hread, hpad]
  exact ⟨Or.inr (hinit.trans h), rfl⟩

theorem reboot_graceSaved {s : System}
    (h : GraceSaved cfg s) :
    GraceSaved cfg (s.reboot cfg) ∧
      (s.reboot cfg).graceperiodKeycodes = s.graceperiodKeycodes := by
  rcases h with ⟨hnv, hgrace⟩ | hnv
  · rw [hgrace]
    exact coreInit_blank hnv
  · exact coreInit_block hnv

/-- The bucket of an initialised system holds the saved keycodes. -/
theorem coreInit_account (cfg : Config) (s : System) :
    (s.coreInit cfg).account =
      ⟨(s.coreInit cfg).graceperiodKeycodes.toNat
        * cfg.rateLimitRefillSecondsPerAttempt, false,
        (s.coreInit cfg).graceperiodKeycodes.toNat, s.handed.length⟩ := by
  have hmul (n : UInt8) : (n.toUInt32
      * UInt32.ofNat cfg.rateLimitRefillSecondsPerAttempt).toNat
      = n.toNat * cfg.rateLimitRefillSecondsPerAttempt := by
    -- 255 refills of an hour are far from the width of the bucket
    have hn := UInt8.toNat_lt n
    have hle : n.toNat * cfg.rateLimitRefillSecondsPerAttempt
        ≤ 255 * 3600 := Nat.mul_le_mul (by omega) cfg.refill_le
    rw [UInt32.toNat_mul, UInt8.toNat_toUInt32, refill_toNat]
    exact Nat.mod_eq_of_lt (by omega)
  unfold coreInit masInit
  simp only
  split
  · simp only [account, bookendReset, masReset, hmul]
  · simp only [account, bookendReset, masReset, hmul]

theorem reboot_step {s : System} (h : GraceSaved cfg s) :
    s.account.Step cfg.rateLimitRefillSecondsPerAttempt 0
      (s.reboot cfg).account := by
  obtain ⟨-, hgrace⟩ := reboot_graceSaved h
  unfold reboot at hgrace ⊢
  rw [coreInit_account, hgrace]
  exact .restart

/-! ## Runs -/

/-- The seconds an operation reports. -/
def Op.elapsed : Op → ℕ
  | .process _ secondsElapsed _ => secondsElapsed.toNat
  | _ => 0

theorem step_graceSaved (s : System) (op : Op) (h : GraceSaved cfg s) :
    GraceSaved cfg (s.step cfg op) := by
  cases op with
  | singleKey key => exact (bookendPush_keyed s key).graceSaved h
  | completeKeycode code =>
      exact (handleCompleteKeycode_keyed s code).graceSaved h
  | process env secondsElapsed uptime =>
      exact proProcess_graceSaved
        (masProcess_graceSaved h secondsElapsed uptime) env
  | reboot => exact (reboot_graceSaved h).1

/-- Every operation is one step of the account. -/
theorem step_account (hmax : cfg.rateLimitBucketMax ≠ 0) (s : System)
    (op : Op) (h : GraceSaved cfg s) :
    s.account.Step cfg.rateLimitRefillSecondsPerAttempt op.elapsed
      (s.step cfg op).account := by
  cases op with
  | singleKey key => exact (bookendPush_keyed s key).account_step hmax
  | completeKeycode code =>
      exact (handleCompleteKeycode_keyed s code).account_step hmax
  | process env secondsElapsed uptime =>
      exact coreProcess_step s env secondsElapsed uptime
  | reboot => exact reboot_step h

/-- The system after its first power on. -/
def start (cfg : Config) (nv : Nv.Store) : System :=
  (powerUp nv [] []).coreInit cfg

end System

/-- However keys, keycodes, processing and power cycles interleave, the frames
handed to the protocol layer are paid for by the initial count and the seconds
that passed. -/
theorem rate_limit_bounds_frames (cfg : Config)
    (hmax : cfg.rateLimitBucketMax ≠ 0) (nv : Nv.Store)
    (hnv : nv Nv.blockKeycodeMas.blockId = none) (ops : List System.Op) :
    (Lib.run (System.step cfg) (System.start cfg nv) ops).handed.length
        * cfg.rateLimitRefillSecondsPerAttempt
      ≤ cfg.rateLimitBucketInitialCount * cfg.rateLimitRefillSecondsPerAttempt
        + (ops.map System.Op.elapsed).sum := by
  obtain ⟨hsaved, hgrace⟩ :=
    System.coreInit_blank (s := System.powerUp nv [] []) hnv
  have hrun := Lib.served_le System.account System.Op.elapsed
    (fun s op => System.step_graceSaved s op)
    (fun s op => System.step_account hmax s op) hsaved ops
  have hcount := cfg.bucketInitialCount_le
  have hstart : (System.account ((System.powerUp nv [] []).coreInit cfg)
      ).potential cfg.rateLimitRefillSecondsPerAttempt
      = cfg.rateLimitBucketInitialCount
        * cfg.rateLimitRefillSecondsPerAttempt := by
    rw [System.coreInit_account, hgrace, UInt8.toNat_ofNat_of_lt'
      (Nat.lt_of_le_of_lt hcount (by decide))]
    simp [Lib.Account.potential, System.powerUp]
  rw [hstart] at hrun
  exact hrun

/-- A keycode, a power cycle before its price is saved, and the keycode
again. -/
def twiceWithReboot : List System.Op :=
  [.completeKeycode ⟨fun i => if i = 0 then 42 else 48, 15⟩, .reboot,
    .completeKeycode ⟨fun i => if i = 0 then 42 else 48, 15⟩,
    .process (testEnv .disabled) 10 10]

theorem rate_limit_bounds_twiceWithReboot :
    (Lib.run (System.step (.default .full))
        (System.start (.default .full) fun _ => none)
        twiceWithReboot).handed.length = 1 ∧
      1 * 720 ≤ 6 * 720 + (twiceWithReboot.map System.Op.elapsed).sum := by
  have hone : (Lib.run (System.step (.default .full))
      (System.start (.default .full) fun _ => none)
      twiceWithReboot).handed.length = 1 := by decide +kernel
  have hbound := rate_limit_bounds_frames (.default .full) (by decide)
    (fun _ => none) rfl twiceWithReboot
  rw [hone] at hbound
  exact ⟨hone, hbound⟩

end Nexus.Keycode
