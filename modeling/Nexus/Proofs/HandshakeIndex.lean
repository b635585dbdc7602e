import Nexus.Channel.LinkHandshake
import Nexus.Lib.Run
import Nexus.Proofs.StoredWindow

/-!
# Each handshake index at most once

The accessory finds the index of a handshake as a controller finds the id of
an origin command, by trying those of the window that have not been used. The
one difference is in how the window is moved: the stored center is raised
first, then the flags are shifted through a window that still has the old one.
As the window raises its copy by the same amount, what is stored is the window
that `nexus_util_window_set_id_flag` leaves.
-/

namespace Nexus.Channel

open Nexus.Util Nexus.Nv Nexus.Lib

section

variable {originKey : CheckKey} {salt rcvdMac : Vector UInt8 8}
  {window : Window 2} {endIndex : UInt32} {i : UInt32} {key : CheckKey}

/-! ## The search for an index -/

/-- What the search finds is an index up to the end of the window that has not
been used. -/
theorem of_validateChallengeLoop {fuel : ℕ} {start : UInt32}
    (hroom : start.toNat + fuel < 2 ^ 32)
    (h : validateChallengeLoop originKey salt rcvdMac window endIndex fuel
      start = some (i, key)) :
    start.toNat ≤ i.toNat ∧ i.toNat ≤ endIndex.toNat ∧
      windowIdFlagAlreadySet window i = false ∧
      key = generateLinkKey (sixDigitIntChallenge originKey i) salt ∧
      checkCompute key salt.toList = rcvdMac := by
  induction fuel generalizing start with
  | zero => cases h
  | succ fuel ih =>
      have hsucc : (start + 1).toNat = start.toNat + 1 := by
        rw [UInt32.toNat_add]
        exact Nat.mod_eq_of_lt (by simp; omega)
      have hnext : validateChallengeLoop originKey salt rcvdMac window
          endIndex fuel (start + 1) = some (i, key) →
          start.toNat ≤ i.toNat ∧ i.toNat ≤ endIndex.toNat ∧
            windowIdFlagAlreadySet window i = false ∧
            key = generateLinkKey (sixDigitIntChallenge originKey i) salt ∧
            checkCompute key salt.toList = rcvdMac := by
        intro hfound
        obtain ⟨hle, hrest⟩ := ih (by omega) hfound
        exact ⟨by omega, hrest⟩
      rw [validateChallengeLoop] at h
      by_cases hend : start > endIndex
      · rw [if_pos hend] at h
        cases h
      rw [if_neg hend] at h
      rw [gt_iff_lt, UInt32.lt_iff_toNat_lt, not_lt] at hend
      by_cases hset : windowIdFlagAlreadySet window start = true
      · rw [if_pos hset] at h
        exact hnext h
      rw [if_neg hset] at h
      simp only at h
      by_cases hmac : checkCompute
          (generateLinkKey (sixDigitIntChallenge originKey start) salt)
          salt.toList = rcvdMac
      · rw [if_pos hmac] at h
        cases h
        exact ⟨le_refl _, hend, Bool.eq_false_iff.mpr hset, rfl, hmac⟩
      · rw [if_neg hmac] at h
        exact hnext h

/-- An unused index that fits the MAC is found, unless one before it is. -/
theorem validateChallengeLoop_some {fuel : ℕ} {start k : UInt32}
    (hroom : start.toNat + fuel < 2 ^ 32) (hlow : start.toNat ≤ k.toNat)
    (hfuel : k.toNat < start.toNat + fuel) (hhigh : k.toNat ≤ endIndex.toNat)
    (hset : windowIdFlagAlreadySet window k = false)
    (hmac : checkCompute
      (generateLinkKey (sixDigitIntChallenge originKey k) salt) salt.toList
        = rcvdMac) :
    ∃ i key, validateChallengeLoop originKey salt rcvdMac window endIndex fuel
      start = some (i, key) := by
  induction fuel generalizing start with
  | zero => omega
  | succ fuel ih =>
      have hend : ¬ start > endIndex := by
        rw [gt_iff_lt, UInt32.lt_iff_toNat_lt]
        omega
      rw [validateChallengeLoop, if_neg hend]
      by_cases heq : start = k
      · rw [heq, hset, if_neg (by decide)]
        simp only [if_pos hmac]
        exact ⟨_, _, rfl⟩
      · have hne : start.toNat ≠ k.toNat := fun h => heq (UInt32.toNat_inj.mp h)
        have hsucc : (start + 1).toNat = start.toNat + 1 := by
          rw [UInt32.toNat_add]
          exact Nat.mod_eq_of_lt (by simp; omega)
        have hnext := @ih (start + 1) (by omega) (by omega) (by omega)
        by_cases hused : windowIdFlagAlreadySet window start = true
        · rw [if_pos hused]
          exact hnext
        · rw [if_neg hused]
          simp only
          split
          · exact ⟨_, _, rfl⟩
          · exact hnext

/-- The loop of the source ends: once past the end, more rounds find nothing
else. -/
theorem validateChallengeLoop_more {fuel : ℕ} {start : UInt32}
    (hend : endIndex.toNat < start.toNat + fuel)
    (hroom : start.toNat + fuel < 2 ^ 32) (more : ℕ) :
    validateChallengeLoop originKey salt rcvdMac window endIndex
        (fuel + more) start
      = validateChallengeLoop originKey salt rcvdMac window endIndex fuel
        start := by
  induction fuel generalizing start with
  | zero =>
      cases more with
      | zero => rfl
      | succ more =>
          show validateChallengeLoop originKey salt rcvdMac window endIndex
            (0 + more + 1) start = none
          rw [validateChallengeLoop, if_pos]
          rw [gt_iff_lt, UInt32.lt_iff_toNat_lt]
          omega
  | succ fuel ih =>
      have hsucc : (start + 1).toNat = start.toNat + 1 := by
        rw [UInt32.toNat_add]
        exact Nat.mod_eq_of_lt (by simp; omega)
      have hnext := @ih (start + 1) (by omega) (by omega)
      rw [Nat.add_right_comm, validateChallengeLoop, validateChallengeLoop,
        hnext]

end

namespace LinkHsServer

variable {m : LinkHsServer} {originKey : CheckKey}

/-- The end of the window is below `UINT32_MAX`. -/
def InRange (m : LinkHsServer) : Prop := m.stored.index.toNat + 8 < 2 ^ 32 - 1

instance (m : LinkHsServer) : Decidable m.InRange :=
  inferInstanceAs (Decidable (_ < _))

/-- The window the module starts with. -/
def startWindow : StoredWindow 2 :=
  .start linkHsReceiveWindowBeforeCenterIndex.toUInt32

/-- Between two operations: the window reaches no lower than zero, and NV has
it. -/
structure Sound (m : LinkHsServer) : Prop where
  center : 15 ≤ m.stored.index.toNat
  kept : StoredWindow.Kept blockChannelLinkHsAccessory startWindow m.nv
    m.stored

/-- The indexes that will not be accepted any more. -/
def used (m : LinkHsServer) : Set UInt32 :=
  {i | i.toNat ∈ (m.getCurrentWindow.ids 15).received}

theorem fits_blockChannelLinkHsAccessory :
    StoredWindow.Fits 2 blockChannelLinkHsAccessory := ⟨rfl, by decide⟩

theorem sized (m : LinkHsServer) : m.getCurrentWindow.Sized 15 8 :=
  ⟨rfl, by decide, rfl, rfl⟩

/-- An accepted challenge has an index of the window that has not been used. -/
theorem Sound.validateChallenge (h : m.Sound) (hrange : m.InRange)
    {salt rcvdMac : Vector UInt8 8} {i : UInt32} {key : CheckKey}
    (hfound : serverValidateChallenge originKey salt rcvdMac
      m.getCurrentWindow = some (i, key)) :
    m.getCurrentWindow.Holds 15 8 i ∧ i ∉ m.used ∧
      key = generateLinkKey (sixDigitIntChallenge originKey i) salt ∧
      checkCompute key salt.toList = rcvdMac := by
  have hcenter := h.center
  have hlt : m.stored.index.toNat + 8 < 2 ^ 32 - 1 := hrange
  have hmin := m.sized.toNat_min h.center
  have hmax := m.sized.toNat_max
  rw [Nat.mod_eq_of_lt
    (show m.getCurrentWindow.centerIndex.toNat + 8 < 2 ^ 32 by
      show m.stored.index.toNat + 8 < 2 ^ 32
      omega)] at hmax
  have hrounds : m.getCurrentWindow.flagsBelow.toNat
      + m.getCurrentWindow.flagsAbove.toNat + 1 = 24 := rfl
  have hindex : m.getCurrentWindow.centerIndex = m.stored.index := rfl
  rw [hindex] at hmin hmax
  unfold serverValidateChallenge at hfound
  rw [hrounds] at hfound
  obtain ⟨hlow, hhigh, hset, hkey, hmac⟩ := of_validateChallengeLoop (by
    rw [hindex, hmin]
    omega) hfound
  rw [hindex, hmin] at hlow
  rw [hindex, hmax] at hhigh
  have hholds : m.getCurrentWindow.Holds 15 8 i :=
    ⟨hcenter, by rw [hindex]; omega, by rw [hindex]; omega, hhigh⟩
  refine ⟨hholds, ?_, hkey, hmac⟩
  rw [used, Set.mem_ofPred_eq, ← flagAlreadySet_iff m.sized hholds, hset]
  simp

/-- A challenge that is right for an unused index of the window is accepted,
under this index or one before it. -/
theorem Sound.validateChallenge_some (h : m.Sound) (hrange : m.InRange)
    {salt rcvdMac : Vector UInt8 8} {k : UInt32}
    (hholds : m.getCurrentWindow.Holds 15 8 k) (hfresh : k ∉ m.used)
    (hmac : checkCompute
      (generateLinkKey (sixDigitIntChallenge originKey k) salt) salt.toList
        = rcvdMac) :
    ∃ i key, serverValidateChallenge originKey salt rcvdMac
      m.getCurrentWindow = some (i, key) := by
  have hcenter := h.center
  have hlt : m.stored.index.toNat + 8 < 2 ^ 32 - 1 := hrange
  have hlow : m.stored.index.toNat ≤ k.toNat + 15 := hholds.low
  have hhigh : k.toNat ≤ m.stored.index.toNat + 8 := hholds.high
  have hmin := m.sized.toNat_min h.center
  have hmax := m.sized.toNat_max
  have hindex : m.getCurrentWindow.centerIndex = m.stored.index := rfl
  rw [hindex] at hmin hmax
  have hset : windowIdFlagAlreadySet m.getCurrentWindow k = false := by
    rw [Bool.eq_false_iff]
    intro hset
    exact hfresh ((flagAlreadySet_iff m.sized hholds).mp hset)
  have hrounds : m.getCurrentWindow.flagsBelow.toNat
      + m.getCurrentWindow.flagsAbove.toNat + 1 = 24 := rfl
  unfold serverValidateChallenge
  rw [hrounds, hindex]
  refine validateChallengeLoop_some ?_ ?_ ?_ ?_ hset hmac
  · rw [hmin]
    omega
  · rw [hmin]
    omega
  · rw [hmin]
    omega
  · rw [hmax]
    omega

/-- What is stored after a success is the window with the flag set: the two
centers are raised alike. -/
theorem window_postFinalizeSuccessState {i : UInt32}
    (hholds : m.getCurrentWindow.Holds 15 8 i) (key : CheckKey) :
    (m.postFinalizeSuccessState i m.getCurrentWindow key).getCurrentWindow
      = (windowSetIdFlag m.getCurrentWindow i).2 := by
  obtain ⟨-, hsized, htake⟩ := setIdFlag_of_holds m.sized hholds
  have hcenter : (windowSetIdFlag m.getCurrentWindow i).2.centerIndex.toNat
      = max m.stored.index.toNat i.toNat := by
    have hids := congrArg FlagWindow.center htake
    rwa [FlagWindow.center_take] at hids
  have hindex : (m.postFinalizeSuccessState i m.getCurrentWindow
      key).stored.index = (windowSetIdFlag m.getCurrentWindow i).2.centerIndex
      := by
    rw [← UInt32.toNat_inj, hcenter]
    show (if m.stored.index < i then i else m.stored.index).toNat = _
    by_cases hlt : m.stored.index < i
    · rw [if_pos hlt]
      rw [UInt32.lt_iff_toNat_lt] at hlt
      omega
    · rw [if_neg hlt]
      rw [UInt32.lt_iff_toNat_lt] at hlt
      omega
  have hbelow : (windowSetIdFlag m.getCurrentWindow i).2.flagsBelow
      = linkHsReceiveWindowBeforeCenterIndex :=
    UInt8.toNat_inj.mp hsized.below
  have habove : (windowSetIdFlag m.getCurrentWindow i).2.flagsAbove
      = linkHsReceiveWindowAfterCenterIndex :=
    UInt8.toNat_inj.mp hsized.above
  have hflags : (m.postFinalizeSuccessState i m.getCurrentWindow
      key).stored.receivedIds
      = (windowSetIdFlag m.getCurrentWindow i).2.flags := rfl
  revert hindex hflags hbelow habove
  generalize m.postFinalizeSuccessState i m.getCurrentWindow key = m'
  generalize (windowSetIdFlag m.getCurrentWindow i).2 = window
  intro hindex hbelow habove hflags
  show Window.mk m'.stored.index m'.stored.receivedIds _ _ = window
  rw [hindex, hflags, ← hbelow, ← habove]

/-! ## One operation -/

/-- A POST, with what the link manager would answer; the passing of time; a
restart. -/
inductive Op
  | post (createLink : UInt8 → SecurityMode0Data → Bool) (payload : List Rep)
  | process (secondsElapsed : UInt32)
  | reboot

variable (originKey) in
def step (m : LinkHsServer) : Op → LinkHsServer
  | .post createLink payload => (m.serverPost originKey createLink payload).2
  | .process secondsElapsed => m.process secondsElapsed
  | .reboot => init m.nv

variable (originKey) in
/-- The handshake for which an operation creates a link. -/
def accepted (m : LinkHsServer) : Op → Option AcceptedHandshake
  | .post createLink payload => (m.serverPost originKey createLink payload).1
  | _ => none

/-- Nothing that is stored differs. -/
structure SameStored (m m' : LinkHsServer) : Prop where
  stored : m'.stored = m.stored
  nv : m'.nv = m.nv

/-- An operation accepts no handshake and leaves what is stored, or it accepts
one under an index that has not been used and sets its flag. -/
inductive Outcome (m : LinkHsServer)
    (r : Option AcceptedHandshake × LinkHsServer) : Prop
  | kept (hnone : r.1 = none) (hsame : SameStored m r.2)
  | accepted (a : AcceptedHandshake) (hsome : r.1 = some a)
      (hholds : m.getCurrentWindow.Holds 15 8 a.handshakeIndex)
      (hfresh : a.handshakeIndex ∉ m.used)
      (hwindow : r.2.getCurrentWindow
        = (windowSetIdFlag m.getCurrentWindow a.handshakeIndex).2)
      (hnv : r.2.nv
        = nvUpdate m.nv blockChannelLinkHsAccessory r.2.stored.toBytes)

theorem Sound.init (h : m.Sound) : SameStored m (init m.nv) :=
  ⟨h.kept.readNv_start fits_blockChannelLinkHsAccessory, rfl⟩

theorem Sound.serverPost (h : m.Sound) (hrange : m.InRange)
    (createLink : UInt8 → SecurityMode0Data → Bool) (payload : List Rep) :
    Outcome m (m.serverPost originKey createLink payload) := by
  unfold LinkHsServer.serverPost
  simp only
  generalize LinkHsAccessory.postParsePayload _ payload = parsed
  by_cases hparsed : parsed.1 = false
  · rw [if_pos hparsed]
    exact .kept rfl ⟨rfl, rfl⟩
  rw [if_neg hparsed]
  have hsound : Sound { m with server := parsed.2 } := ⟨h.center, h.kept⟩
  cases hfound : serverValidateChallenge originKey parsed.2.salt
      parsed.2.receivedMac
      (getCurrentWindow { m with server := parsed.2 }) with
  | none => exact .kept rfl ⟨rfl, rfl⟩
  | some found =>
      obtain ⟨hholds, hfresh, -, -⟩ := hsound.validateChallenge hrange hfound
      simp only
      by_cases hlink : createLink parsed.2.linkSecurityMode ⟨found.2, 0⟩ = false
      · rw [if_pos hlink]
        exact .kept rfl ⟨rfl, rfl⟩
      · rw [if_neg hlink]
        exact .accepted _ rfl hholds hfresh
          (window_postFinalizeSuccessState hholds found.2) rfl

theorem sameStored_process (m : LinkHsServer) (secondsElapsed : UInt32) :
    SameStored m (m.process secondsElapsed) := by
  unfold LinkHsServer.process
  split
  · exact ⟨rfl, rfl⟩
  · simp only
    split
    · exact ⟨rfl, rfl⟩
    · exact ⟨rfl, rfl⟩

theorem Sound.outcome (h : m.Sound) (hrange : m.InRange)
    (originKey : CheckKey) (op : Op) :
    Outcome m (accepted originKey m op, step originKey m op) := by
  cases op with
  | post createLink payload => exact h.serverPost hrange createLink payload
  | process secondsElapsed => exact .kept rfl (sameStored_process _ _)
  | reboot => exact .kept rfl h.init

theorem SameStored.sound {m' : LinkHsServer} (hsame : SameStored m m')
    (h : m.Sound) : m'.Sound := by
  obtain ⟨hstored, hnv⟩ := hsame
  exact ⟨by rw [hstored]; exact h.center, by rw [hstored, hnv]; exact h.kept⟩

theorem SameStored.window {m' : LinkHsServer} (hsame : SameStored m m') :
    m'.getCurrentWindow = m.getCurrentWindow := by
  unfold getCurrentWindow
  rw [hsame.stored]

/-- The window of an accepted handshake, as a set of indexes. -/
theorem ids_of_window {m' : LinkHsServer} {i : UInt32}
    (hholds : m.getCurrentWindow.Holds 15 8 i)
    (hwindow : m'.getCurrentWindow
      = (windowSetIdFlag m.getCurrentWindow i).2) :
    m'.getCurrentWindow.ids 15 = (m.getCurrentWindow.ids 15).take i.toNat := by
  obtain ⟨-, -, htake⟩ := setIdFlag_of_holds m.sized hholds
  rw [hwindow, htake]

theorem index_of_window {m' : LinkHsServer} {i : UInt32}
    (hholds : m.getCurrentWindow.Holds 15 8 i)
    (hwindow : m'.getCurrentWindow
      = (windowSetIdFlag m.getCurrentWindow i).2) :
    m'.stored.index.toNat = max m.stored.index.toNat i.toNat := by
  have hids := congrArg FlagWindow.center (ids_of_window hholds hwindow)
  rwa [FlagWindow.center_take] at hids

/-- What one operation preserves: the invariant, the used indexes, and the
order of the centers. -/
theorem Sound.step (h : m.Sound) (hrange : m.InRange) (originKey : CheckKey)
    (op : Op) :
    (step originKey m op).Sound ∧ m.used ⊆ (step originKey m op).used ∧
      m.stored.index.toNat ≤ (step originKey m op).stored.index.toNat := by
  cases h.outcome hrange originKey op with
  | kept _ hsame =>
      have hstored : (LinkHsServer.step originKey m op).stored = m.stored :=
        hsame.stored
      have hwindow := hsame.window
      refine ⟨hsame.sound h, ?_, by rw [hstored]⟩
      intro i hi
      rw [used, Set.mem_ofPred_eq, hwindow]
      exact hi
  | accepted a _ hholds _ hwindow hnv =>
      have hindex : (LinkHsServer.step originKey m op).stored.index.toNat
          = max m.stored.index.toNat a.handshakeIndex.toNat :=
        index_of_window hholds hwindow
      have hcenter := h.center
      refine ⟨⟨?_, ?_⟩, ?_, ?_⟩
      · show 15 ≤ (LinkHsServer.step originKey m op).stored.index.toNat
        omega
      · show StoredWindow.Kept _ _ (LinkHsServer.step originKey m op).nv _
        rw [hnv]
        exact h.kept.update fits_blockChannelLinkHsAccessory _
      · intro i hi
        rw [used, Set.mem_ofPred_eq, ids_of_window hholds hwindow,
          FlagWindow.received_take hholds.low]
        exact Or.inl (Or.inl hi)
      · omega

theorem Sound.accepted_fresh (h : m.Sound) (hrange : m.InRange) {op : Op}
    {a : AcceptedHandshake} (haccepted : accepted originKey m op = some a) :
    a.handshakeIndex ∉ m.used ∧
      a.handshakeIndex ∈ (LinkHsServer.step originKey m op).used ∧
      (LinkHsServer.step originKey m op).getCurrentWindow
        = (windowSetIdFlag m.getCurrentWindow a.handshakeIndex).2 := by
  cases h.outcome hrange originKey op with
  | kept hnone _ =>
      rw [show accepted originKey m op = none from hnone] at haccepted
      cases haccepted
  | accepted a' hsome hholds hfresh hwindow _ =>
      rw [show accepted originKey m op = some a' from hsome] at haccepted
      cases haccepted
      refine ⟨hfresh, ?_, hwindow⟩
      rw [used, Set.mem_ofPred_eq, ids_of_window hholds hwindow,
        FlagWindow.received_take hholds.low]
      exact Or.inr rfl

theorem Sound.unchanged (h : m.Sound) (hrange : m.InRange) {op : Op}
    (hnone : accepted originKey m op = none) :
    SameStored m (LinkHsServer.step originKey m op) := by
  cases h.outcome hrange originKey op with
  | kept _ hsame => exact hsame
  | accepted a hsome _ _ _ _ =>
      rw [show accepted originKey m op = some a from hsome] at hnone
      cases hnone

/-! ## Runs -/

/-- The window after its flags have been set for a sequence of handshakes. -/
def setFlags (window : Window 2) (accepted : List AcceptedHandshake) :
    Window 2 :=
  accepted.foldl (fun w a => (windowSetIdFlag w a.handshakeIndex).2) window

/-- Along a run the stored window is the one that the window functions make of
the accepted handshakes. -/
theorem run_window {ops : List Op} (h : m.Sound)
    (hops : Along (LinkHsServer.step originKey) (fun m _ => m.InRange) m ops) :
    (run (LinkHsServer.step originKey) m ops).getCurrentWindow
      = setFlags m.getCurrentWindow
        (events (LinkHsServer.step originKey) (accepted originKey) m ops) := by
  induction ops generalizing m with
  | nil => rfl
  | cons op ops ih =>
      have hnext := ih (h.step hops.1 originKey op).1 hops.2
      rw [run_cons, hnext, events]
      cases haccepted : accepted originKey m op with
      | none =>
          rw [(h.unchanged hops.1 haccepted).window]
          rfl
      | some a =>
          rw [(h.accepted_fresh hops.1 haccepted).2.2]
          rfl

theorem sound_init {nv : Store}
    (hnv : StoredWindow.Kept blockChannelLinkHsAccessory startWindow nv
      startWindow) : (init nv).Sound := by
  have hstart : (init nv).stored = startWindow :=
    hnv.readNv_start fits_blockChannelLinkHsAccessory
  refine ⟨?_, ?_⟩
  · rw [hstart]
    decide
  · rw [hstart]
    exact hnv

/-- Along every sequence of POSTs, processing and restarts that begins with the
default window and stays below the end of the numbers: no index creates a link
twice; what is stored is the window that `nexus_util_window_set_id_flag` makes
of the accepted indexes; the center never decreases; and what ends in an error
leaves RAM and NV as they were. -/
theorem handshake_indexes_once (originKey : CheckKey) (nv : Store)
    (hnv : StoredWindow.Kept blockChannelLinkHsAccessory startWindow nv
      startWindow)
    (ops : List Op)
    (hops : Along (LinkHsServer.step originKey) (fun m _ => m.InRange)
      (init nv) ops) :
    ((events (LinkHsServer.step originKey) (accepted originKey) (init nv)
        ops).map AcceptedHandshake.handshakeIndex).Nodup ∧
      ∀ pre post, ops = pre ++ post →
        (run (LinkHsServer.step originKey) (init nv) pre).getCurrentWindow
            = setFlags (init nv).getCurrentWindow
              (events (LinkHsServer.step originKey) (accepted originKey)
                (init nv) pre) ∧
          ∀ op post', post = op :: post' →
            (run (LinkHsServer.step originKey) (init nv) pre).stored.index
                ≤ (LinkHsServer.step originKey
                  (run (LinkHsServer.step originKey) (init nv) pre)
                  op).stored.index ∧
              (accepted originKey
                  (run (LinkHsServer.step originKey) (init nv) pre) op = none →
                SameStored (run (LinkHsServer.step originKey) (init nv) pre)
                  (LinkHsServer.step originKey
                    (run (LinkHsServer.step originKey) (init nv) pre) op)) := by
  have hinit := sound_init hnv
  have hstep : ∀ (m : LinkHsServer) (op : Op), m.Sound → m.InRange →
      (LinkHsServer.step originKey m op).Sound :=
    fun m op h hrange => (h.step hrange originKey op).1
  have hmono : ∀ (m : LinkHsServer) (op : Op), m.Sound → m.InRange →
      m.used ⊆ (LinkHsServer.step originKey m op).used :=
    fun m op h hrange => (h.step hrange originKey op).2.1
  refine ⟨?_, ?_⟩
  · refine (events_nodup hstep hmono ?_ hinit hops).1
    intro m op a h hrange haccepted
    obtain ⟨hfresh, hused, -⟩ := h.accepted_fresh hrange haccepted
    exact ⟨hfresh, hused⟩
  · rintro pre post rfl
    obtain ⟨hpre, hpost⟩ := along_append.mp hops
    have hsound := run_invariant hstep hinit hpre
    refine ⟨run_window hinit hpre, ?_⟩
    rintro op post' rfl
    refine ⟨?_, hsound.unchanged hpost.1⟩
    rw [UInt32.le_iff_toNat_le]
    exact (hsound.step hpost.1 originKey op).2.2

/-- A challenge for index 20: refused while the link manager is full, then
accepted, which moves the window by five; sent again, and once more after a
restart, it is refused. -/
theorem handshake_indexes_once_twenty :
    let originKey : CheckKey := ⟨Vector.replicate 16 0xAB⟩
    let payload : List Rep :=
      [⟨chalDataShortPropName, .byteString [1, 2, 3, 4, 5, 6, 7, 8,
          0xCD, 0xFF, 0x00, 0x93, 0xE8, 0x2A, 0x69, 0x36]⟩,
        ⟨chalModeShortPropName, .int 0⟩, ⟨linkSecModeShortPropName, .int 0⟩]
    let ops : List Op :=
      [.post (fun _ _ => false) payload, .post (fun _ _ => true) payload,
        .post (fun _ _ => true) payload, .reboot,
        .post (fun _ _ => true) payload]
    (events (LinkHsServer.step originKey) (accepted originKey)
        (init fun _ => none) ops).map AcceptedHandshake.handshakeIndex = [20] ∧
      ((events (LinkHsServer.step originKey) (accepted originKey)
        (init fun _ => none) ops).map
          AcceptedHandshake.handshakeIndex).Nodup ∧
      (run (LinkHsServer.step originKey) (init fun _ => none) ops).stored
        = ⟨20, #v[0, 0x80]⟩ := by
  intro originKey payload ops
  have hops : Along (LinkHsServer.step originKey) (fun m _ => m.InRange)
      (init fun _ => none) ops := by decide +kernel
  exact ⟨by decide +kernel,
    (handshake_indexes_once originKey (fun _ => none) (.never rfl rfl) ops
      hops).1, by decide +kernel⟩

end LinkHsServer

end Nexus.Channel
