import Nexus.Proofs.Carried

/-!
# What a message does to the window

The abstract receiver is a `FlagWindow`: an ADD_CREDIT message takes its id, a
SET_CREDIT, WIPE_STATE or extended message takes every id up to its own, and a
DEMO message takes none. The program does the same as long as the id fits the
16 bits it is cut to. An id that does not fit lands under the window, and then
the program marks something else or nothing.
-/

namespace Nexus.Keycode

open Nexus.Util Nexus.Lib

/-- What a message does to a receiver. -/
def Kind.receive (w : FlagWindow 23) (id : ℕ) : Kind → FlagWindow 23
  | .addCredit => w.take id
  | .demo => w
  | _ => w.takeUpTo id

section

variable {w : FlagWindow 23} {id : ℕ}

theorem received_subset_receive (h : w.center ≤ id + 23) (kind : Kind) :
    w.received ⊆ (kind.receive w id).received := by
  cases kind with
  | addCredit =>
      show _ ⊆ (w.take id).received
      rw [FlagWindow.received_take h, Set.union_assoc]
      exact Set.subset_union_left
  | demo => exact subset_rfl
  | _ =>
      show _ ⊆ (w.takeUpTo id).received
      rw [FlagWindow.received_takeUpTo h]
      exact Set.subset_union_left

theorem mem_receive (h : w.center ≤ id + 23) {kind : Kind}
    (hkind : kind ≠ .demo) :
    id ∈ (kind.receive w id).received := by
  cases kind with
  | addCredit =>
      show _ ∈ (w.take id).received
      rw [FlagWindow.received_take h]
      exact Or.inr rfl
  | demo => exact absurd rfl hkind
  | _ =>
      show _ ∈ (w.takeUpTo id).received
      rw [FlagWindow.received_takeUpTo h]
      exact Or.inr (le_refl id)

theorem center_receive {kind : Kind} (hkind : kind ≠ .demo) :
    (kind.receive w id).center = max w.center id := by
  cases kind with
  | demo => exact absurd rfl hkind
  | _ => simp [Kind.receive]

theorem center_le_receive (w : FlagWindow 23) (id : ℕ) (kind : Kind) :
    w.center ≤ (kind.receive w id).center := by
  cases kind <;> simp [Kind.receive]

end

/-- A machine between operations: NV is up to date, and the window does not
reach below zero. -/
structure Settled (m : Machine) : Prop where
  persisted : Persisted m
  center : 23 ≤ m.pdIndex.toNat

/-- The id lies in the machine's window. -/
def InWindow (m : Machine) (id : UInt32) : Prop :=
  m.pdIndex.toNat ≤ id.toNat + 23 ∧ id.toNat ≤ m.pdIndex.toNat + 40

/-! ## What leaves the window alone -/

theorem window_emit (m : Machine) (e : Effect) :
    (m.emit e).stored.window = m.stored.window := rfl

theorem window_resetCustomFlag (m : Machine) (flag : CustomFlag) :
    (m.resetCustomFlag flag).stored.window = m.stored.window := by
  unfold Machine.resetCustomFlag
  rw [window_emit, Machine.updateNvBlocks_stored]
  rfl

theorem window_setCustomFlag (m : Machine) (flag : CustomFlag) :
    (m.setCustomFlag flag).stored.window = m.stored.window := by
  unfold Machine.setCustomFlag
  rw [window_emit, Machine.updateNvBlocks_stored]
  rfl

theorem window_incrementLongQcTestMessageCount (m : Machine) (cfg : Config) :
    (m.incrementLongQcTestMessageCount cfg).stored.window
      = m.stored.window := by
  unfold Machine.incrementLongQcTestMessageCount
  simp only []
  split
  · rfl
  · rw [Machine.updateNvBlocks_stored]
    rfl

theorem window_incrementShortQcTestMessageCount (m : Machine)
    (cfg : Config) :
    (m.incrementShortQcTestMessageCount cfg).stored.window
      = m.stored.window := by
  unfold Machine.incrementShortQcTestMessageCount
  simp only []
  split
  · rfl
  · rw [Machine.updateNvBlocks_stored]
    rfl

/-- The two function ids that wipe the mask. -/
theorem body_of_function : ∀ body : UInt8, body > smallMaxTestFunctionId →
    (body &&& 0x7F = 0x01 → body = 0x81) ∧
      (body &&& 0x7F = 0x02 → body = 0x82) := by
  decide +kernel

/-- Maintenance and test messages, mask wipes apart. -/
theorem window_smallApply (m : Machine) (cfg : Config) (env : Env)
    {message : SmallMessage}
    (htype : message.typeCode = smallMaintenanceOrTestType)
    (hwipe : message.body = 0x81 ∨ message.body = 0x82 →
      (m.smallApply cfg env message).1 ≠ .validApplied) :
    (m.smallApply cfg env message).2.stored.window = m.stored.window := by
  have hlt : ¬ message.typeCode < smallMaintenanceOrTestType := by
    rw [htype]; decide
  unfold Machine.smallApply at hwipe ⊢
  by_cases hcheck : message.check
      ≠ smallComputeCheck message (smallCheckKey env message)
  · rw [if_pos hcheck]
  · rw [if_neg hcheck, if_neg hlt] at hwipe ⊢
    by_cases hbody : message.body > smallMaxTestFunctionId
    · rw [if_pos hbody] at hwipe ⊢
      obtain ⟨h1, h2⟩ := body_of_function _ hbody
      unfold Machine.smallApplyMaintenance at hwipe ⊢
      simp only [] at hwipe ⊢
      split at hwipe
      · next hf => exact absurd rfl (hwipe (Or.inl (h1 hf)))
      · next hf =>
          rw [if_neg hf]
          split
          · rfl
          · split at hwipe
            · contradiction
            · split at hwipe
              · next hf' => exact absurd rfl (hwipe (Or.inr (h2 hf')))
              · next hf' => rw [if_neg hf']
    · rw [if_neg hbody]
      unfold Machine.smallApplyTest
      repeat' split
      · rfl
      · rfl
      · exact window_incrementLongQcTestMessageCount _ cfg
      · rfl
      · rfl

/-- Factory messages. -/
theorem window_fullApplyFactory (m : Machine) (cfg : Config) (env : Env)
    (message : FullMessage) :
    (m.fullApplyFactory cfg env message).2.stored.window
      = m.stored.window := by
  unfold Machine.fullApplyFactory Machine.fullApplyQcTest
  simp only []
  repeat' split
  · rfl
  · rfl
  · exact window_incrementShortQcTestMessageCount _ cfg
  · exact window_incrementLongQcTestMessageCount _ cfg
  all_goals rfl

/-! ## Marking -/

section

variable {m : Machine} {id : UInt32}

/-- The 16 bits of the call hold the argument: the id itself for ADD_CREDIT,
the id after it for the kinds that mask. -/
def Kind.Fits (id : UInt32) : Kind → Prop
  | .addCredit => id.toNat < 65536
  | _ => id.toNat < 65535

/-- An id that fits is marked as the receiver does it. -/
theorem window_mark (h : Settled m) (hin : InWindow m id) {kind : Kind}
    (hfits : kind.Fits id) (hflag : m.idFlag id.toUInt16 = false) :
    (kind.mark m id).stored.window
      = kind.receive m.stored.window id.toNat := by
  have hle : id.toNat < 65536 := by
    cases kind <;> simp only [Kind.Fits] at hfits <;> omega
  have hid : id.toUInt16.toNat = id.toNat := by
    rw [UInt32.toNat_toUInt16]
    omega
  have htake := window_setFullMessageIdFlag h.persisted.readNv
    (by rw [hid]; exact hin.1) h.center hflag
  have hupTo (hlt : id.toNat < 65535) :
      (m.maskBelowMessageId (id + 1).toUInt16).stored.window
        = m.stored.window.takeUpTo id.toUInt16.toNat := by
    refine window_maskBelowMessageId ?_ (by rw [hid]; exact hin.1) h.center
    rw [UInt32.toNat_toUInt16, UInt32.toNat_add, hid]
    show (id.toNat + 1) % 2 ^ 32 % 2 ^ 16 = id.toNat + 1
    omega
  rw [hid] at htake hupTo
  cases kind with
  | addCredit => exact htake
  | demo => rfl
  | setCredit => exact hupTo hfits
  | wipeState target => exact hupTo hfits
  | extended => exact hupTo hfits

/-- A mask for an id that does not fit is no mask: its argument is 0, or lies
under the window. -/
theorem maskBelowMessageId_of_not_fits (hin : InWindow m id)
    (hpd' : m.pdIndex.toNat + 41 < 2 ^ 32) (hbig : 65535 ≤ id.toNat) :
    m.maskBelowMessageId (id + 1).toUInt16 = m := by
  obtain ⟨hlo, hhi⟩ := hin
  have hnext : (id + 1).toUInt16.toNat = (id.toNat + 1) % 65536 := by
    rw [UInt32.toNat_toUInt16, UInt32.toNat_add]
    show (id.toNat + 1) % 2 ^ 32 % 2 ^ 16 = (id.toNat + 1) % 65536
    omega
  unfold Machine.maskBelowMessageId
  split
  · rfl
  · next hne =>
      rw [if_pos]
      have hpos : (id.toNat + 1) % 65536 ≠ 0 := by
        rw [← hnext]
        exact fun h0 => hne (UInt16.toNat_inj.mp h0)
      rw [UInt32.lt_iff_toNat_lt, UInt16.toNat_toUInt32, UInt32.toNat_sub,
        receiveWindowBeforePd_toNat, hnext]
      omega

/-- The flag of an id under the window can be set without a trace: the flag of
the center is set in its place. -/
theorem pdIndex_setFullMessageIdFlag_of_below (h : Persisted m)
    {cut : UInt16} (hbelow : cut.toNat + 23 < m.pdIndex.toNat) :
    (m.setFullMessageIdFlag cut).pdIndex = m.pdIndex := by
  unfold Machine.setFullMessageIdFlag Machine.getFullMessageIdFlag
  simp only [h.readNv]
  split
  · rfl
  · rw [updateWindowAndMessageMaskId_of_below hbelow]
    simp only [Machine.pdIndex, Machine.updateNvBlocks_stored,
      Machine.setFlags]

/-- An id that does not fit is not flagged, before or after it is marked. -/
theorem idFlag_mark_of_not_fits (h : Settled m)
    (hpd' : m.pdIndex.toNat + 41 < 2 ^ 32) (hin : InWindow m id)
    {kind : Kind} (hkind : kind = .addCredit ∨ kind = .setCredit)
    (hfits : ¬ kind.Fits id) (hflag : m.idFlag id.toUInt16 = false) :
    (kind.mark m id).idFlag id.toUInt16 = false := by
  rcases hkind with rfl | rfl
  · have hbig : 65536 ≤ id.toNat := not_lt.mp hfits
    have hbelow : id.toUInt16.toNat + 23 < m.pdIndex.toNat := by
      rw [UInt32.toNat_toUInt16]
      have := hin.2
      omega
    have hpd := pdIndex_setFullMessageIdFlag_of_below h.persisted hbelow
    apply idFlag_of_below
    show _ < ((m.setFullMessageIdFlag id.toUInt16).pdIndex - _).toNat
    rw [hpd, UInt32.toNat_sub, receiveWindowBeforePd_toNat]
    omega
  · have hbig : 65535 ≤ id.toNat := not_lt.mp hfits
    show (m.maskBelowMessageId (id + 1).toUInt16).idFlag _ = false
    rw [maskBelowMessageId_of_not_fits hin hpd' hbig]
    exact hflag

/-- The answer to a flag lookup is a matter of the window alone. -/
theorem idFlag_congr (m m' : Machine)
    (h : m.stored.window = m'.stored.window) (cut : UInt16) :
    m.idFlag cut = m'.idFlag cut := by
  have hpd : m.pdIndex = m'.pdIndex :=
    UInt32.toNat_inj.mp (congrArg FlagWindow.center h)
  by_cases hgt : m.pdIndex.toNat < cut.toNat
  · rw [idFlag_of_gt hgt, idFlag_of_gt (by rw [← hpd]; exact hgt)]
  · by_cases hin : 23 ≤ m.pdIndex.toNat ∧ m.pdIndex.toNat ≤ cut.toNat + 23
    · rw [idFlag_of_mem hin.2 (not_lt.mp hgt) hin.1,
        idFlag_of_mem (by rw [← hpd]; exact hin.2)
          (by rw [← hpd]; exact not_lt.mp hgt) (by rw [← hpd]; exact hin.1),
        h, hpd]
    · have hbelow : cut.toNat
          < (m.pdIndex - receiveWindowBeforePd).toNat := by
        have hlt := cut.toNat_lt
        have hlt' := m.pdIndex.toNat_lt
        rw [UInt32.toNat_sub, receiveWindowBeforePd_toNat]
        omega
      rw [idFlag_of_below hbelow, idFlag_of_below (by rw [← hpd]; exact hbelow)]

/-- An id that fits is flagged once it is marked. -/
theorem idFlag_mark_of_fits (h : Settled m) (hin : InWindow m id)
    (kind : Kind) (hkind : kind ≠ .demo) (hfits : kind.Fits id)
    (hflag : m.idFlag id.toUInt16 = false) :
    (kind.mark m id).idFlag id.toUInt16 = true := by
  have hwindow := window_mark h hin hfits hflag
  have hle : id.toNat < 65536 := by
    cases kind <;> simp only [Kind.Fits] at hfits <;> omega
  have hid : id.toUInt16.toNat = id.toNat := by
    rw [UInt32.toNat_toUInt16]
    omega
  have hcenter : (kind.mark m id).pdIndex.toNat
      = max m.pdIndex.toNat id.toNat := by
    show (kind.mark m id).stored.window.center = _
    rw [hwindow]
    exact center_receive hkind
  have hlo := hin.1
  have hcen := h.center
  rw [idFlag_iff (by omega) (by omega), hid, hwindow]
  exact mem_receive hin.1 hkind

theorem idFlag_iff_received (h : Settled m) (hlow : m.pdIndex.toNat ≤ 65494)
    (hin : InWindow m id) :
    m.idFlag id.toUInt16 = true ↔ id.toNat ∈ m.stored.window.received := by
  obtain ⟨hlo, hhi⟩ := hin
  have hid : id.toUInt16.toNat = id.toNat := by
    rw [UInt32.toNat_toUInt16]
    omega
  rw [idFlag_iff (by rw [hid]; exact hlo) h.center, hid]

end

theorem Granted.window {payg : PaygState} {marked : Machine} {kind : Kind}
    {r : Response × Machine} (h : Granted payg marked kind r)
    (hwipe : ∀ target, kind = .wipeState target → target = 1 ∨ target = 2 →
      r.1 ≠ .validApplied) :
    r.2.stored.window = marked.stored.window := by
  cases h with
  | credit => rfl
  | flag => exact window_resetCustomFlag _ _
  | refused => rfl
  | demo => rfl
  | wipe ht => exact absurd rfl (hwipe _ rfl ht)
  | wipeCredit ht => exact absurd rfl (hwipe _ rfl ht)
  | unsupported => rfl

/-! ## How a message was answered -/

section

variable {m : Machine} {payg : PaygState} {c : Carried}
  {r : Response × Machine}

/-- An applied message was authentic and fresh. -/
theorem Answered.of_applied (h : Answered payg m c r)
    (hr : r.1 = .validApplied) :
    c.authentic = true ∧ m.idFlag c.id.toUInt16 = false ∧
      Granted payg (c.kind.mark m c.id) c.kind r := by
  cases h with
  | forged => cases hr
  | duplicate => cases hr
  | granted hauth hflag hgranted => exact ⟨hauth, hflag, hgranted⟩

/-- A flagged id is a duplicate. -/
theorem Answered.of_duplicate (h : Answered payg m c r) (hm : m.effects = [])
    (hauth : c.authentic = true) (hflag : m.idFlag c.id.toUInt16 = true) :
    r.1 = .validDuplicate ∧ ∀ e ∈ r.2.effects, e.isCredit = false := by
  cases h with
  | forged hforged => exact absurd hauth (by rw [hforged]; simp)
  | duplicate => exact ⟨rfl, by simp [hm]⟩
  | granted _ hfresh => exact absurd hflag (by rw [hfresh]; simp)

/-- An authentic message with a fresh id is granted. -/
theorem Answered.of_fresh (h : Answered payg m c r)
    (hauth : c.authentic = true)
    (hflag : m.idFlag c.id.toUInt16 = false) :
    Granted payg (c.kind.mark m c.id) c.kind r := by
  cases h with
  | forged hforged => exact absurd hauth (by rw [hforged]; simp)
  | duplicate _ hdup => exact absurd hdup (by rw [hflag]; simp)
  | granted _ _ hgranted => exact hgranted

/-- Marking an id makes no call but NV writes. -/
theorem mark_writes (m : Machine) (kind : Kind) (id : UInt32) :
    Writes m (kind.mark m id) := by
  cases kind with
  | addCredit => exact Writes.setFullMessageIdFlag m _
  | demo => exact .refl m
  | _ => exact Writes.maskBelowMessageId m _

theorem mark_effects (hm : m.effects = []) (kind : Kind) (id : UInt32) :
    ∀ e ∈ (kind.mark m id).effects, e.isNvWrite = true := by
  obtain ⟨es, ht, hes⟩ := mark_writes m kind id
  rw [ht.effects, hm, List.nil_append]
  exact hes

end

end Nexus.Keycode
