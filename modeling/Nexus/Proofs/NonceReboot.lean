import Nexus.Proofs.Nonces

/-!
# Nonces across restarts

The nonce of a link is written only when it has moved into another interval of
64, and by the next `process`; a restart adds 64 to what was written. So what
is stored, plus 64, should never be below a nonce that was accepted before.

That is so as long as the nonce moves in the ways the writing expects. Four
things get in its way. The first step of a nonce away from zero raises no flag,
however far it goes. A request judged against the highest nonce may lower it.
The 64 added by a restart may overflow. And a restart may come before the
`process` that would have written a new interval.
-/

namespace Nexus.Channel

open Nexus.Util Nexus.Nv Nexus.Lib

variable {max : MaxLinks} {H : Type}

/-! ## Intervals -/

namespace LinkManager

/-- The counter of the loop passes no multiple of the interval. -/
theorem mod_ne_of_crossesInterval {newNonce : UInt32} {fuel : ℕ} {i : UInt32}
    (h : crossesInterval newNonce fuel i = false) {k : ℕ} (hk : k < fuel)
    (hle : i.toNat + k ≤ newNonce.toNat) : (i.toNat + k) % 64 ≠ 0 := by
  induction fuel generalizing i k with
  | zero => exact absurd hk (Nat.not_lt_zero k)
  | succ fuel ih =>
      have hi : i ≤ newNonce := UInt32.le_iff_toNat_le.mpr (by omega)
      rw [crossesInterval, if_pos hi] at h
      split at h
      · cases h
      next hmod =>
        cases k with
        | zero =>
            intro hzero
            apply hmod
            apply UInt32.toNat_inj.mp
            rw [UInt32.toNat_mod]
            exact hzero
        | succ k =>
            have hlt := newNonce.toNat_lt
            have hsucc : (i + 1).toNat = i.toNat + 1 := by
              rw [UInt32.toNat_add]
              exact Nat.mod_eq_of_lt (by simpa using by omega)
            have hrec := ih h (Nat.lt_of_succ_lt_succ hk)
              (by rw [hsucc]; omega)
            rw [hsucc] at hrec
            rwa [show i.toNat + (k + 1) = i.toNat + 1 + k by omega]

/-- A nonce that moves up from above zero without raising the flag stays in its
interval. -/
theorem div_eq_of_raisesPersistFlag {oldNonce newNonce : UInt32}
    (h : raisesPersistFlag oldNonce newNonce = false) (hpos : 0 < oldNonce.toNat)
    (hle : oldNonce ≤ newNonce) :
    newNonce.toNat / 64 = oldNonce.toNat / 64 := by
  have hle' := UInt32.le_iff_toNat_le.mp hle
  have hlt := newNonce.toNat_lt
  by_cases heq : newNonce.toNat = oldNonce.toNat
  · rw [heq]
  have hzero : newNonce ≠ 0 := by
    intro h0
    rw [h0] at hle'
    exact absurd hle' (Nat.not_le.mpr hpos)
  have hup : newNonce > oldNonce ∧ oldNonce > 0 :=
    ⟨UInt32.lt_iff_toNat_lt.mpr (by omega), UInt32.lt_iff_toNat_lt.mpr hpos⟩
  rw [raisesPersistFlag, if_neg hzero, if_pos hup] at h
  have hsucc : (oldNonce + 1).toNat = oldNonce.toNat + 1 := by
    rw [UInt32.toNat_add]
    exact Nat.mod_eq_of_lt (by simpa using by omega)
  by_contra hdiv
  -- the first multiple above the old nonce is among the next 64 numbers
  have hmod := mod_ne_of_crossesInterval h
    (k := 64 * (oldNonce.toNat / 64 + 1) - (oldNonce.toNat + 1))
    (by omega) (by rw [hsucc]; omega)
  rw [hsucc] at hmod
  omega

end LinkManager

/-! ## Runs with restarts -/

/-- What happens to a link manager. -/
inductive ManagerOp
  | createLink (id : NxId) (mode : OperatingMode) (securityMode : UInt8)
      (data : SecurityMode0Data)
  | clearAllLinks
  | receive (r : Received)
  | process (secondsElapsed : UInt32)
  | reboot

/-- What happens to one link after it was made. -/
inductive LinkOp
  | receive (r : Received)
  | process (secondsElapsed : UInt32)
  | reboot

section Runs

variable (t : ResourceTable H) (id : NxId)

def managerStep (m : LinkManager max) : ManagerOp → LinkManager max
  | .createLink id mode securityMode data =>
      (m.createLink id mode securityMode data).2
  | .clearAllLinks => m.clearAllLinks
  | .receive r => receiveStep t m r
  | .process secondsElapsed => m.process secondsElapsed
  | .reboot => LinkManager.init max m.nv

/-- A link to `id` has just been made, with nonce zero, by a device that was
once started with no links. -/
structure JustCreated (m₀ : LinkManager max) : Prop where
  created : ∃ (nv : Store) (history : List ManagerOp) (secondsElapsed : UInt32),
    (∀ i : Fin max.count, nvRead nv (indexToNvBlock i) = none) ∧
    (run (managerStep t) (LinkManager.init max nv) history).pendingAddLink
      = true ∧
    (run (managerStep t) (LinkManager.init max nv)
      history).pendingLinkToCreate.linkedDeviceId = id ∧
    (run (managerStep t) (LinkManager.init max nv)
      history).pendingLinkToCreate.securityMode = securityModeCoseMac0 ∧
    (run (managerStep t) (LinkManager.init max nv)
      history).pendingLinkToCreate.securityData.nonce = 0 ∧
    m₀ = (run (managerStep t) (LinkManager.init max nv) history).process
      secondsElapsed

/-- The nonce of a message from `id` that is accepted, or synchronises the
nonce. -/
def acceptedNonce (m : LinkManager max) (r : Received) : Option UInt32 :=
  if r.sender = id ∧ ((r.authenticate t m).1 = .none ∨
      (r.authenticate t m).1 = .validNonceSyncReceived) then r.nonce? m
  else none

/-- The links, the nonces accepted from `id` so far, and whether one of them
came after the last `process`. -/
structure Tracked (max : MaxLinks) where
  manager : LinkManager max
  accepted : List UInt32
  unprocessed : Bool

def trackedStep (s : Tracked max) : LinkOp → Tracked max
  | .receive r =>
      match acceptedNonce t id s.manager r with
      | none => { s with manager := receiveStep t s.manager r }
      | some n =>
          ⟨receiveStep t s.manager r, n :: s.accepted, true⟩
  | .process secondsElapsed =>
      ⟨s.manager.process secondsElapsed, s.accepted, false⟩
  | .reboot => { s with manager := LinkManager.init max s.manager.nv }

/-- The nonce that a restart would start from. -/
def storedNonce (m : LinkManager max) : Option UInt32 :=
  (m.linkIndexFromNxid id).bind fun i =>
    ((m.cell i).stored i).map fun l => l.securityData.nonce

/-- Whether the nonce of the link is to be written. -/
def persistFlag (m : LinkManager max) : Bool :=
  ((m.linkIndexFromNxid id).map fun i => (m.slot i).shouldPersistNonce).getD
    false

/-- None of the four ways for a nonce to get lost, and no reset: with the flag
down, a nonce leaves zero by less than an interval; requests are not judged
against the highest nonce; and a restart does not overflow, nor come before the
`process` for a nonce more than 64 above the stored one. -/
def Careful (s : Tracked max) : LinkOp → Prop
  | .receive r =>
      nonceEvent t id s.manager r ≠ some .restart ∧
      BelowTop id s.manager r ∧
      ∀ n ∈ acceptedNonce t id s.manager r, linkNonce id s.manager = 0 →
        n < nonceNvStorageIntervalCount ∨ persistFlag id s.manager = true
  | .process _ => True
  | .reboot =>
      ∀ k ∈ storedNonce id s.manager,
        k ≤ resetNonceSignalValue - nonceNvStorageIntervalCount ∧
        (s.unprocessed = true →
          linkNonce id s.manager ≤ k + nonceNvStorageIntervalCount)

instance (s : Tracked max) (op : LinkOp) : Decidable (Careful t id s op) :=
  match op with
  | .receive r =>
      have hfirst : Decidable (∀ n ∈ acceptedNonce t id s.manager r,
          linkNonce id s.manager = 0 → n < nonceNvStorageIntervalCount ∨
            persistFlag id s.manager = true) := Option.decidableForallMem _
      inferInstanceAs (Decidable (nonceEvent t id s.manager r ≠ some .restart ∧
        BelowTop id s.manager r ∧ ∀ n ∈ acceptedNonce t id s.manager r,
          linkNonce id s.manager = 0 → n < nonceNvStorageIntervalCount ∨
            persistFlag id s.manager = true))
  | .process _ => .isTrue trivial
  | .reboot => Option.decidableForallMem _

end Runs

/-! ## The invariant -/

/-- What a cell in use knows of the accepted nonces: they are not above its
own; and unless it is to be written, its nonce is still in the interval of the
stored one. -/
structure Cell.Protects (accepted : List UInt32) (unprocessed : Bool)
    (i : Fin max.count) (c : Cell) : Prop where
  mode : c.slot.link.securityMode = securityModeCoseMac0
  le_live : ∀ n ∈ accepted, n.toNat ≤ c.slot.link.securityData.nonce.toNat
  stored_le : ∀ l, c.stored i = some l → l.securityData.nonce.toNat
    ≤ c.slot.link.securityData.nonce.toNat
  interval : ∀ l, c.stored i = some l → c.slot.shouldPersistNonce = false →
    c.slot.link.securityData.nonce.toNat / 64
      = l.securityData.nonce.toNat / 64
  le_stored : unprocessed = false → ∀ l, c.stored i = some l →
    ∀ n ∈ accepted, n.toNat ≤ l.securityData.nonce.toNat + 64

/-- The invariant of a tracked run. -/
structure Protected (id : NxId) (s : Tracked max) : Prop where
  consistent : Consistent s.manager
  calm : s.manager.pendingAddLink = false
  protects : ∀ i : Fin max.count, (s.manager.slot i).inUse = true →
    (s.manager.slot i).link.linkedDeviceId = id →
    (s.manager.cell i).Protects s.accepted s.unprocessed i

namespace Cell.Protects

variable {accepted : List UInt32} {unprocessed : Bool} {i : Fin max.count}
  {c : Cell}

/-- Processing writes a nonce that has left its interval. -/
theorem process (h : c.Protects accepted unprocessed i)
    {secondsElapsed : UInt32}
    (huse : (c.process i secondsElapsed).slot.inUse = true) :
    (c.process i secondsElapsed).Protects accepted false i := by
  rcases process_cases i secondsElapsed c with
    ⟨hfree, heq⟩ | ⟨-, heq⟩ | ⟨-, -, -, heq⟩ | ⟨-, hflag, heq⟩
  · rw [heq, hfree] at huse
    cases huse
  · rw [heq] at huse
    cases huse
  · rw [heq]
    refine ⟨h.mode, h.le_live, fun l hl => ?_, fun l hl _ => ?_,
      fun _ l hl n hn => ?_⟩
    · obtain rfl := stored_persist i hl
      exact Nat.le_refl _
    · obtain rfl := stored_persist i hl
      rfl
    · obtain rfl := stored_persist i hl
      exact Nat.le_add_right_of_le (h.le_live n hn)
  · rw [heq]
    refine ⟨h.mode, h.le_live, h.stored_le, h.interval,
      fun _ l hl n hn => ?_⟩
    have hinterval := h.interval l hl (hflag h.mode)
    have hlive := h.le_live n hn
    omega

/-- A restart adds an interval to a nonce not far below the accepted ones. -/
theorem load (h : c.Protects accepted unprocessed i) {l : Link}
    (hl : c.stored i = some l)
    (hmode : l.securityMode = securityModeCoseMac0)
    (htop : l.securityData.nonce.toNat + 64 < 2 ^ 32)
    (hnear : unprocessed = true → c.slot.link.securityData.nonce.toNat
      ≤ l.securityData.nonce.toNat + 64) :
    Cell.Protects accepted unprocessed i
      ⟨⟨{ l with securityData := { l.securityData with
        nonce := l.securityData.nonce + nonceNvStorageIntervalCount } },
        true, true⟩, c.block⟩ := by
  have hstored : stored i ⟨⟨{ l with securityData := { l.securityData with
      nonce := l.securityData.nonce + nonceNvStorageIntervalCount } },
      true, true⟩, c.block⟩ = some l := hl
  have hsum : (l.securityData.nonce + nonceNvStorageIntervalCount).toNat
      = l.securityData.nonce.toNat + 64 := by
    rw [UInt32.toNat_add]
    exact Nat.mod_eq_of_lt htop
  have hle : ∀ n ∈ accepted, n.toNat ≤ l.securityData.nonce.toNat + 64 := by
    intro n hn
    cases hu : unprocessed with
    | true => exact (h.le_live n hn).trans (hnear hu)
    | false => exact h.le_stored hu l hl n hn
  refine ⟨hmode, ?_, ?_, ?_, ?_⟩
  · intro n hn
    exact (hle n hn).trans_eq hsum.symm
  · intro l' hl'
    rw [hstored] at hl'
    cases hl'
    exact (Nat.le_add_right _ 64).trans_eq hsum.symm
  · intro _ _ hflag
    cases hflag
  · intro _ l' hl' n hn
    rw [hstored] at hl'
    cases hl'
    exact hle n hn

/-- An accepted nonce either stays in the interval or raises the flag, unless
it is the first to leave zero. -/
theorem accept (h : c.Protects accepted unprocessed i) {nonce : UInt32}
    (hle : c.slot.link.securityData.nonce ≤ nonce)
    (hzero : c.slot.link.securityData.nonce = 0 →
      nonce.toNat < 64 ∨ c.slot.shouldPersistNonce = true) :
    Cell.Protects (nonce :: accepted) true i
      ⟨c.slot.accept nonce, c.block⟩ := by
  have hle' := UInt32.le_iff_toNat_le.mp hle
  refine ⟨h.mode, ?_, ?_, ?_, ?_⟩
  · intro n hn
    rcases List.mem_cons.mp hn with rfl | hn
    · exact Nat.le_refl _
    · exact (h.le_live n hn).trans hle'
  · intro l hl
    exact (h.stored_le l hl).trans hle'
  · intro l hl hflag
    have hstored := h.stored_le l hl
    obtain ⟨hdown, hraises⟩ := Bool.or_eq_false_iff.mp hflag
    have hinterval := h.interval l hl hdown
    show nonce.toNat / 64 = l.securityData.nonce.toNat / 64
    by_cases hpos : 0 < c.slot.link.securityData.nonce.toNat
    · rw [LinkManager.div_eq_of_raisesPersistFlag hraises hpos hle, hinterval]
    · have hlive : c.slot.link.securityData.nonce.toNat = 0 := by omega
      rcases hzero (UInt32.toNat_inj.mp hlive) with hsmall | hup
      · omega
      · rw [hup] at hdown
        cases hdown
  · intro hprocessed
    cases hprocessed

end Cell.Protects

/-! ## Every step keeps it -/

theorem Consistent.receiveStep {t : ResourceTable H} {m : LinkManager max}
    (h : Consistent m) (r : Received) : Consistent (receiveStep t m r) := by
  unfold Nexus.Channel.receiveStep
  cases hv : r.verified m with
  | none =>
      rw [(Received.authenticate_of_not_verified hv).1]
      exact h
  | some v =>
      obtain ⟨data, nonce, payload⟩ := v
      rw [Received.authenticate_of_verified hv]
      obtain ⟨i, hi, -⟩ := Received.link_of_verified hv
      obtain ⟨s, heq, huse, hid, hmode⟩ := LinkManager.acceptNonce_setSlot hi
        (checkNonce r.pkt.code data.nonce nonce).2
      dsimp only
      rw [heq]
      exact h.setSlot huse hid hmode

theorem Consistent.managerStep {t : ResourceTable H} {m : LinkManager max}
    (h : Consistent m) (op : ManagerOp) : Consistent (managerStep t m op) := by
  cases op with
  | createLink id mode securityMode data =>
      exact h.createLink id mode securityMode data
  | clearAllLinks => exact ⟨h.backed, h.distinct, h.pending⟩
  | receive r => exact h.receiveStep r
  | process secondsElapsed => exact h.process secondsElapsed
  | reboot => exact h.init

/-- Whatever a device that started without links goes through. -/
theorem consistent_run {t : ResourceTable H} {nv : Store}
    (hblank : ∀ i : Fin max.count, nvRead nv (indexToNvBlock i) = none)
    (history : List ManagerOp) :
    Consistent (run (managerStep t) (LinkManager.init max nv) history) :=
  run_invariant (fun _ op h _ => h.managerStep op)
    (Consistent.init_blank hblank) (along_true _ history)

section Steps

variable {t : ResourceTable H} {id : NxId}

/-- Without resets, a message of the linked device changes nothing or is
accepted with a nonce not below the link's. -/
theorem receive_cases {m : LinkManager max} {r : Received}
    (hmode : Mode0 id m) (hsender : r.sender = id)
    (hreset : nonceEvent t id m r ≠ some .restart) (htop : BelowTop id m r) :
    (receiveStep t m r = m ∧ acceptedNonce t id m r = none) ∨
    ∃ i nonce, m.linkIndexFromNxid id = some i ∧
      acceptedNonce t id m r = some nonce ∧
      (m.slot i).link.securityData.nonce ≤ nonce ∧
      receiveStep t m r = m.setSlot i ((m.slot i).accept nonce) := by
  cases hv : r.verified m with
  | none =>
      refine .inl ⟨(Received.authenticate_of_not_verified hv).1, ?_⟩
      have hnonce : r.nonce? m = none := by
        unfold Received.nonce?
        rw [hv]
        rfl
      unfold acceptedNonce
      rw [hnonce]
      split <;> rfl
  | some v =>
      obtain ⟨data, nonce, payload⟩ := v
      obtain ⟨i, hi, hdata, hlink, heq⟩ :=
        receiveStep_of_verified (t := t) hmode hsender hv
      have hnonce := Received.nonce?_of_verified hv
      have hauth := Received.authenticate_of_verified (t := t) hv
      unfold nonceEvent at hreset
      rw [if_pos hsender, hauth, hnonce] at hreset
      have haccepted : acceptedNonce t id m r
          = if (checkNonce r.pkt.code data.nonce nonce).1 = .none ∨
              (checkNonce r.pkt.code data.nonce nonce).1
                = .validNonceSyncReceived then some nonce else none := by
        unfold acceptedNonce
        rw [hauth, hnonce]
        simp only [hsender, true_and]
      rw [haccepted, heq]
      rcases checkNonce_cases r.pkt.code data.nonce nonce with
        hc | ⟨hcode, hle, hc⟩ | ⟨-, -, hc⟩ | ⟨-, hle, hc⟩ | ⟨-, hle, hc⟩
      · rw [hc]
        exact .inl ⟨rfl, by simp⟩
      · rw [hc]
        refine .inr ⟨i, nonce, hi, by simp, ?_, rfl⟩
        have hne := htop hsender hcode (by rw [hnonce]; rfl)
        rw [hlink] at hne
        have hsucc := toNat_succ_of_ne_top hne
        have hle' := UInt32.le_iff_toNat_le.mp hle
        rw [hdata]
        exact UInt32.le_iff_toNat_le.mpr (by omega)
      · rw [hc] at hreset
        exact absurd rfl hreset
      · rw [hc] at hreset ⊢
        dsimp only at hreset
        by_cases hsignal : nonce = resetNonceSignalValue
        · rw [if_pos (by rw [hsignal])] at hreset
          exact absurd rfl hreset
        · refine .inr ⟨i, nonce, hi, by simp, by rwa [hdata], ?_⟩
          dsimp only
          rw [if_neg hsignal]
      · rw [hc]
        exact .inr ⟨i, nonce, hi, by simp, by rwa [hdata], rfl⟩

theorem acceptedNonce_of_ne {m : LinkManager max} {r : Received}
    (h : r.sender ≠ id) : acceptedNonce t id m r = none := by
  unfold acceptedNonce
  rw [if_neg fun hr => h hr.1]

theorem linkIndexFromNxid_receiveStep {m : LinkManager max} (r : Received)
    (id' : NxId) :
    (receiveStep t m r).linkIndexFromNxid id' = m.linkIndexFromNxid id' := by
  unfold receiveStep
  cases hv : r.verified m with
  | none => rw [(Received.authenticate_of_not_verified hv).1]
  | some v =>
      obtain ⟨data, nonce, payload⟩ := v
      rw [Received.authenticate_of_verified hv]
      exact LinkManager.linkIndexFromNxid_acceptNonce _ id'

/-- A message of another device leaves the cell of the link alone. -/
theorem cell_receiveStep_of_ne {m : LinkManager max} {r : Received}
    (hsender : r.sender ≠ id) {i : Fin max.count}
    (hid : (m.slot i).link.linkedDeviceId = id) :
    (receiveStep t m r).cell i = m.cell i := by
  unfold receiveStep
  cases hv : r.verified m with
  | none => rw [(Received.authenticate_of_not_verified hv).1]
  | some v =>
      obtain ⟨data, nonce, payload⟩ := v
      rw [Received.authenticate_of_verified hv]
      refine LinkManager.cell_acceptNonce_of_ne _ fun hi => hsender ?_
      rw [← (LinkManager.of_linkIndexFromNxid hi).2, hid]

variable {s : Tracked max}

theorem Protected.mode0 (h : Protected id s) : Mode0 id s.manager := by
  intro link hlink
  obtain ⟨i, hi, rfl⟩ := Option.map_eq_some_iff.mp hlink
  obtain ⟨huse, hid⟩ := LinkManager.of_linkIndexFromNxid hi
  exact (h.protects i huse hid).mode

theorem Protected.receive (h : Protected id s) {r : Received}
    (hcareful : Careful t id s (.receive r)) :
    Protected id (trackedStep t id s (.receive r)) := by
  obtain ⟨hreset, htop, hzero⟩ := hcareful
  have hcalm : (receiveStep t s.manager r).pendingAddLink
      = s.manager.pendingAddLink := by
    unfold receiveStep
    cases hv : r.verified s.manager with
    | none => rw [(Received.authenticate_of_not_verified hv).1]
    | some v =>
        obtain ⟨data, nonce, payload⟩ := v
        rw [Received.authenticate_of_verified hv]
        obtain ⟨i, hi, -⟩ := Received.link_of_verified hv
        obtain ⟨slot, heq, -⟩ := LinkManager.acceptNonce_setSlot hi
          (checkNonce r.pkt.code data.nonce nonce).2
        dsimp only
        rw [heq]
        rfl
  have hconsistent := h.consistent.receiveStep (t := t) r
  by_cases hsender : r.sender = id
  · rcases receive_cases h.mode0 hsender hreset htop with
      ⟨hsame, hnone⟩ | ⟨i, nonce, hi, hsome, hle, heq⟩
    · have hstep : trackedStep t id s (.receive r) = s := by
        unfold trackedStep
        simp only [hnone, hsame]
      rw [hstep]
      exact h
    · have hstep : trackedStep t id s (.receive r)
          = ⟨receiveStep t s.manager r, nonce :: s.accepted, true⟩ := by
        unfold trackedStep
        simp only [hsome]
      obtain ⟨huse, hid⟩ := LinkManager.of_linkIndexFromNxid hi
      rw [hstep]
      refine ⟨hconsistent, hcalm.trans h.calm, fun j hj hidj => ?_⟩
      dsimp only at hj hidj ⊢
      have hlookup := hconsistent.linkIndexFromNxid_eq hj hidj
      have hlookup' : (receiveStep t s.manager r).linkIndexFromNxid id
          = some i := by
        rw [heq]
        exact (LinkManager.linkIndexFromNxid_setSlot (m := s.manager) (i := i)
          (s := (s.manager.slot i).accept nonce) rfl rfl id).trans hi
      obtain rfl : i = j := by
        rw [hlookup'] at hlookup
        exact Option.some.inj hlookup
      rw [heq, s.manager.cell_setSlot_self]
      refine (h.protects i huse hid).accept hle fun hlive => ?_
      have hlink : linkNonce id s.manager = 0 := by
        unfold linkNonce
        rw [linkFromNxid_of_index hi]
        exact hlive
      rcases hzero nonce (by rw [hsome]; rfl) hlink with hsmall | hflag
      · exact .inl (UInt32.lt_iff_toNat_lt.mp hsmall)
      · unfold persistFlag at hflag
        rw [hi] at hflag
        exact .inr hflag
  · have hstep : trackedStep t id s (.receive r)
        = { s with manager := receiveStep t s.manager r } := by
      unfold trackedStep
      simp only [acceptedNonce_of_ne hsender]
    rw [hstep]
    refine ⟨hconsistent, hcalm.trans h.calm, fun j hj hidj => ?_⟩
    dsimp only at hj hidj ⊢
    have hlookup := hconsistent.linkIndexFromNxid_eq hj hidj
    rw [linkIndexFromNxid_receiveStep] at hlookup
    obtain ⟨huse, hid⟩ := LinkManager.of_linkIndexFromNxid hlookup
    rw [cell_receiveStep_of_ne hsender hid]
    exact h.protects j huse hid

theorem Protected.process (h : Protected id s) (secondsElapsed : UInt32) :
    Protected id (trackedStep t id s (.process secondsElapsed)) := by
  have hconsistent := h.consistent.process secondsElapsed
  have hwaiting := s.manager.waiting_processLinks secondsElapsed
  have haged : ∀ i : Fin max.count,
      ((s.manager.processLinks secondsElapsed).slot i).inUse = true →
      ((s.manager.processLinks secondsElapsed).slot i).link.linkedDeviceId
        = id →
      ((s.manager.processLinks secondsElapsed).cell i).Protects s.accepted
        false i := by
    intro i huse hid
    have hcell := s.manager.cell_processLinks i secondsElapsed
    have hkeeps : (s.manager.cell i).Keeps
        ((s.manager.processLinks secondsElapsed).cell i) := by
      rw [LinkManager.processLinks, hcell]
      exact Cell.keeps_process secondsElapsed
    obtain ⟨huse', hid'⟩ := hkeeps huse
    have hprotects := h.protects i huse' (hid'.symm.trans hid)
    have hin : ((s.manager.cell i).process i secondsElapsed).slot.inUse
        = true := by
      rw [← hcell]
      exact huse
    rw [LinkManager.processLinks, hcell]
    exact hprotects.process hin
  have hstep : trackedStep t id s (.process secondsElapsed)
      = ⟨s.manager.process secondsElapsed, s.accepted, false⟩ := rfl
  rw [hstep]
  rcases s.manager.process_cases secondsElapsed with
    ⟨hadd, -⟩ | ⟨-, -, heq⟩ | ⟨-, -, heq⟩
  · rw [h.calm] at hadd
    cases hadd
  · refine ⟨hconsistent, ?_, fun i huse _ => ?_⟩
    · have hclear := (s.manager.processLinks
        secondsElapsed).waiting_clearLinksInternal
      rw [heq]
      exact (congrArg Prod.fst (hclear.trans hwaiting)).trans h.calm
    · dsimp only at huse
      rw [heq] at huse
      have hcell := (s.manager.processLinks
        secondsElapsed).cell_clearLinksInternal i
      have hcleared : (Cell.clear i ((s.manager.processLinks
          secondsElapsed).cell i)).slot.inUse = true := by
        rw [← hcell]
        exact huse
      exact absurd hcleared Cell.clear_inUse
  · refine ⟨hconsistent, ?_, ?_⟩
    · rw [heq]
      exact (congrArg Prod.fst hwaiting).trans h.calm
    · rw [heq]
      exact haged

theorem Protected.reboot (h : Protected id s)
    (hcareful : Careful t id s .reboot) :
    Protected id (trackedStep t id s .reboot) := by
  have hstep : trackedStep t id s .reboot
      = { s with manager := LinkManager.init max s.manager.nv } := rfl
  rw [hstep]
  refine ⟨h.consistent.init, LinkManager.pendingAddLink_init _,
    fun i huse hid => ?_⟩
  have hcell := LinkManager.cell_init i s.manager.nv
  dsimp only at huse hid ⊢
  have hin : (Cell.load i ⟨Slot.zero,
      s.manager.nv (indexToNvBlock i).blockId⟩).slot.inUse = true := by
    rw [← hcell]
    exact huse
  obtain ⟨l, hstored, hdevice, hload⟩ := Cell.load_inUse hin
  have hl : (s.manager.cell i).stored i = some l := hstored
  obtain ⟨huse', hid', hmode⟩ := h.consistent.backed i l hl hdevice
  have hidl : l.linkedDeviceId = id := by
    have hslot := congrArg (fun c => c.slot.link.linkedDeviceId)
      (hcell.trans hload)
    exact hslot.symm.trans hid
  have hlink := h.consistent.linkIndexFromNxid_eq huse' (hid'.trans hidl)
  have hprotects := h.protects i huse' (hid'.trans hidl)
  have hk : l.securityData.nonce ∈ storedNonce id s.manager := by
    unfold storedNonce
    rw [hlink]
    show (((s.manager.cell i).stored i).map _) = _
    rw [hl]
    rfl
  obtain ⟨htop, hnear⟩ := hcareful _ hk
  have htop' : l.securityData.nonce.toNat + 64 < 2 ^ 32 := by
    have hle := UInt32.le_iff_toNat_le.mp htop
    have hvalue : (resetNonceSignalValue - nonceNvStorageIntervalCount).toNat
      = 4294967231 := rfl
    omega
  rw [hcell, hload]
  refine hprotects.load hl (hmode.symm.trans hprotects.mode) htop' ?_
  intro hunprocessed
  have hle := UInt32.le_iff_toNat_le.mp (hnear hunprocessed)
  have hlive : linkNonce id s.manager
      = (s.manager.cell i).slot.link.securityData.nonce := by
    unfold linkNonce
    rw [linkFromNxid_of_index hlink]
    rfl
  rw [hlive, UInt32.toNat_add] at hle
  exact hle.trans_eq (Nat.mod_eq_of_lt htop')

theorem Protected.step (h : Protected id s) {op : LinkOp}
    (hcareful : Careful t id s op) : Protected id (trackedStep t id s op) := by
  cases op with
  | receive r => exact h.receive hcareful
  | process secondsElapsed => exact h.process secondsElapsed
  | reboot => exact h.reboot hcareful

/-- A new link has nothing to lose. -/
theorem JustCreated.protected {m₀ : LinkManager max}
    (h : JustCreated t id m₀) : Protected id ⟨m₀, [], false⟩ := by
  obtain ⟨nv, history, secondsElapsed, hblank, hadd, hid, hmode, hnonce, rfl⟩ :=
    h.created
  have hbefore := consistent_run (t := t) hblank history
  generalize run (managerStep t) (LinkManager.init max nv) history = m at *
  have haged := hbefore.processLinks secondsElapsed
  have hwaiting := m.waiting_processLinks secondsElapsed
  have hadd' : (m.processLinks secondsElapsed).pendingAddLink = true :=
    (congrArg Prod.fst hwaiting).trans hadd
  have hpending : (m.processLinks secondsElapsed).pendingLinkToCreate
      = m.pendingLinkToCreate := congrArg (fun w => w.2.1) hwaiting
  have heq : m.process secondsElapsed
      = (m.processLinks secondsElapsed).addPendingLink := by
    rcases m.process_cases secondsElapsed with
      ⟨-, heq⟩ | ⟨hno, -⟩ | ⟨hno, -⟩
    · exact heq
    · rw [hadd] at hno
      cases hno
    · rw [hadd] at hno
      cases hno
  rw [heq]
  obtain ⟨hcalm, hcells⟩ := (m.processLinks
    secondsElapsed).addPendingLink_cases
  refine ⟨haged.addPendingLink hadd', hcalm, fun j huse hidj => ?_⟩
  have hold : (m.processLinks secondsElapsed).addPendingLink.cell j
      ≠ (m.processLinks secondsElapsed).cell j := by
    intro hsame
    have hslot : ((m.processLinks secondsElapsed).addPendingLink.slot j)
        = (m.processLinks secondsElapsed).slot j :=
      congrArg Cell.slot hsame
    dsimp only at huse hidj
    rw [hslot] at huse hidj
    exact haged.pending hadd' j huse (by rw [hidj, hpending, hid])
  rcases hcells with ⟨-, hall⟩ | ⟨i, -, hcell, hother⟩
  · exact absurd (hall j) hold
  · by_cases hji : j = i
    · subst hji
      rw [hcell, hpending]
      refine ⟨hmode, by simp, fun l hl => ?_, fun l hl _ => ?_, by simp⟩
      · obtain rfl := Cell.stored_persist j hl
        exact Nat.le_refl _
      · obtain rfl := Cell.stored_persist j hl
        rfl
    · exact absurd (hother j hji) hold

theorem accepted_mono (s : Tracked max) (op : LinkOp) {n : UInt32}
    (hn : n ∈ s.accepted) : n ∈ (trackedStep t id s op).accepted := by
  cases op with
  | receive r =>
      simp only [trackedStep]
      split
      · exact hn
      · exact List.mem_cons_of_mem _ hn
  | process secondsElapsed => exact hn
  | reboot => exact hn

/-- A request with a nonce that is not above an accepted one is not accepted
again. -/
theorem Protected.not_accepted_again (h : Protected id s) {r : Received}
    (htop : BelowTop id s.manager r) (hsender : r.sender = id)
    (hrequest : r.IsRequest) {n : UInt32}
    (hnonce : r.nonce? s.manager = some n) (hn : n ∈ s.accepted) :
    (r.authenticate t s.manager).1 ≠ .none := by
  intro hauth
  obtain ⟨⟨data, nonce, payload⟩, hv, hvalue⟩ :=
    Option.map_eq_some_iff.mp hnonce
  obtain rfl : nonce = n := hvalue
  obtain ⟨i, hi, hdata, hlink, -⟩ :=
    receiveStep_of_verified (t := t) h.mode0 hsender hv
  obtain ⟨huse, hid⟩ := LinkManager.of_linkIndexFromNxid hi
  have hlive := (h.protects i huse hid).le_live nonce hn
  have hlive' : nonce.toNat ≤ data.nonce.toNat := by
    rw [← hdata]
    exact hlive
  have hne := htop hsender hrequest (by rw [hnonce]; rfl)
  rw [hlink] at hne
  have hsucc := toNat_succ_of_ne_top hne
  rw [Received.authenticate_of_verified hv] at hauth
  have hlow : nonce < data.nonce + 1 :=
    UInt32.lt_iff_toNat_lt.mpr (by rw [hsucc]; omega)
  have hcheck : checkNonce r.pkt.code data.nonce nonce
      = (.requestReceivedWithInvalidNonce, none) := by
    unfold checkNonce
    rw [if_pos (show r.pkt.code < created201 from hrequest), if_pos hlow]
  rw [hcheck] at hauth
  cases hauth

/-- After a restart the nonce of a link is not below any nonce accepted before,
and no request accepted before is accepted again, in every run all of whose
steps are careful. -/
theorem nonce_survives_reboot {m₀ : LinkManager max}
    (hcreated : JustCreated t id m₀) {ops later : List LinkOp}
    (hops : Along (trackedStep t id) (Careful t id) ⟨m₀, [], false⟩
      (ops ++ .reboot :: later)) :
    (∀ link, (run (trackedStep t id) ⟨m₀, [], false⟩
        (ops ++ [.reboot])).manager.linkFromNxid id = some link →
      ∀ n ∈ (run (trackedStep t id) ⟨m₀, [], false⟩ ops).accepted,
        n ≤ link.securityData.nonce) ∧
    ∀ r : Received, BelowTop id (run (trackedStep t id) ⟨m₀, [], false⟩
        (ops ++ .reboot :: later)).manager r →
      r.sender = id → r.IsRequest →
      ∀ n ∈ (run (trackedStep t id) ⟨m₀, [], false⟩ ops).accepted,
        r.nonce? (run (trackedStep t id) ⟨m₀, [], false⟩
          (ops ++ .reboot :: later)).manager = some n →
        (r.authenticate t (run (trackedStep t id) ⟨m₀, [], false⟩
          (ops ++ .reboot :: later)).manager).1 ≠ .none := by
  have hinv : ∀ {ops' : List LinkOp}, Along (trackedStep t id) (Careful t id)
      ⟨m₀, [], false⟩ ops' →
      Protected id (run (trackedStep t id) ⟨m₀, [], false⟩ ops') :=
    fun hops' => run_invariant (fun _ _ h hcareful => h.step hcareful)
      hcreated.protected hops'
  have hmono : ∀ (s : Tracked max) (ops' : List LinkOp) (n : UInt32),
      n ∈ s.accepted → n ∈ (run (trackedStep t id) s ops').accepted := by
    intro s ops' n hn
    exact run_invariant (P := fun s => n ∈ s.accepted)
      (fun s op hn _ => accepted_mono s op hn) hn (along_true s ops')
  constructor
  · intro link hlink n hn
    have hsplit : ops ++ .reboot :: later
        = (ops ++ [.reboot]) ++ later := by simp
    rw [hsplit] at hops
    have hprotected := hinv (along_append.mp hops).1
    obtain ⟨i, hi, rfl⟩ := Option.map_eq_some_iff.mp hlink
    obtain ⟨huse, hid⟩ := LinkManager.of_linkIndexFromNxid hi
    refine UInt32.le_iff_toNat_le.mpr
      ((hprotected.protects i huse hid).le_live n ?_)
    rw [run_append]
    exact hmono _ _ n hn
  · intro r htop hsender hrequest n hn hnonce
    refine (hinv hops).not_accepted_again htop hsender hrequest hnonce ?_
    rw [run_append]
    exact hmono _ _ n hn

end Steps

/-- The link to the peer, new. -/
def newLink : LinkManager oneLink :=
  (managerStep noResources (LinkManager.init oneLink fun _ => none)
    (.createLink peerId .accessory securityModeCoseMac0 ⟨peerKey, 0⟩)).process 0

theorem justCreated_newLink : JustCreated noResources peerId newLink :=
  ⟨fun _ => none, [.createLink peerId .accessory securityModeCoseMac0
    ⟨peerKey, 0⟩], 0, by decide +kernel, by decide +kernel, by decide +kernel,
    by decide +kernel, by decide +kernel, rfl⟩

/-- Two requests, which take the nonce into the next interval. -/
def twoRequests : List LinkOp :=
  [.receive (peerMessage 1 40), .receive (peerMessage 1 100), .process 5]

theorem nonce_survives_reboot_twoRequests :
    linkNonce peerId (run (trackedStep noResources peerId)
      ⟨newLink, [], false⟩ (twoRequests ++ .reboot :: [])).manager = 164 ∧
    ((peerMessage 1 100).authenticate noResources (run
      (trackedStep noResources peerId) ⟨newLink, [], false⟩
      (twoRequests ++ .reboot :: [])).manager).1 ≠ .none := by
  have hops : Along (trackedStep noResources peerId)
      (Careful noResources peerId) ⟨newLink, [], false⟩
      (twoRequests ++ .reboot :: []) := by decide +kernel
  have hresult := (nonce_survives_reboot justCreated_newLink hops).2
    (peerMessage 1 100) (by decide +kernel) rfl (by decide) 100
    (by decide +kernel) (by decide +kernel)
  exact ⟨by decide +kernel, hresult⟩

/-- A new link's first request has nonce 1000; after `process` and a restart
the link is at nonce 64, and accepts the same request again. -/
theorem first_nonce_lost_in_reboot :
    (run (trackedStep noResources peerId) ⟨newLink, [], false⟩
      [.receive (peerMessage 1 1000), .process 5]).accepted = [1000] ∧
    (run (trackedStep noResources peerId) ⟨newLink, [], false⟩
      [.receive (peerMessage 1 1000), .process 5]).unprocessed = false ∧
    nonceEvent noResources peerId newLink (peerMessage 1 1000)
      ≠ some .restart ∧
    linkNonce peerId (run (trackedStep noResources peerId)
      ⟨newLink, [], false⟩ [.receive (peerMessage 1 1000), .process 5,
        .reboot]).manager = 64 ∧
    ((peerMessage 1 1000).authenticate noResources (run
      (trackedStep noResources peerId) ⟨newLink, [], false⟩
      [.receive (peerMessage 1 1000), .process 5, .reboot]).manager).1
        = .none := by
  decide +kernel

end Nexus.Channel
