import Nexus.Channel.PaygCredit
import Nexus.Proofs.LinkTable

/-!
# The links of an accessory

A device that is an accessory only makes links to controllers. So in every slot
and in every block it is the accessory, and its operating mode is following as
long as there is a link, and independent without one. A handshake that takes
the place of a link deletes that one at once, and the new one waits for
`process`; there is room for it, so that nothing is lost.
-/

namespace Nexus.Channel

open Nexus.Lib Nexus.Util Nexus.Nv

variable {max : MaxLinks}

/-- In this link the device is the accessory. -/
def Link.Follows (l : Link) : Prop :=
  l.operatingMode = OperatingMode.accessory.toUInt8

theorem Link.follows_zero : Link.zero.Follows := rfl

theorem Link.Follows.aged {l : Link} (h : l.Follows)
    (secondsElapsed : UInt32) : (Cell.aged secondsElapsed l).Follows := h

/-- So it is in the slot, and in what the block reads back as. -/
structure Cell.Follows (i : Fin max.count) (c : Cell) : Prop where
  slot : c.slot.link.Follows
  stored : ∀ l, c.stored i = some l → l.Follows

namespace Cell

variable {i : Fin max.count} {c : Cell} {l : Link}

theorem follows_persist (hslot : c.slot.link.Follows) (hl : l.Follows) :
    (c.persist i l).Follows i := by
  refine ⟨hslot, ?_⟩
  intro l' hl'
  rw [stored_persist i hl']
  exact hl

theorem Follows.clear (h : c.Follows i) : (c.clear i).Follows i := by
  obtain ⟨s, block⟩ := c
  rw [Cell.clear]
  split
  · exact h
  · exact follows_persist Link.follows_zero Link.follows_zero

theorem Follows.process (h : c.Follows i) (secondsElapsed : UInt32) :
    (c.process i secondsElapsed).Follows i := by
  rcases process_cases i secondsElapsed c with
    ⟨-, heq⟩ | ⟨-, heq⟩ | ⟨-, -, -, heq⟩ | ⟨-, -, heq⟩
  · rw [heq]
    exact h
  · rw [heq]
    exact follows_persist Link.follows_zero Link.follows_zero
  · rw [heq]
    exact follows_persist (h.slot.aged _) (h.slot.aged _)
  · rw [heq]
    exact ⟨h.slot.aged _, h.stored⟩

/-- A restart finds the links that were stored. -/
theorem follows_load {block : Option (List UInt8)}
    (h : ∀ l, Cell.stored i ⟨Slot.zero, block⟩ = some l → l.Follows) :
    (Cell.load i ⟨Slot.zero, block⟩).Follows i := by
  rw [Cell.load]
  cases hstored : Cell.stored i ⟨Slot.zero, block⟩ with
  | none => exact ⟨Link.follows_zero, h⟩
  | some link =>
      have hlink : link.Follows := h link hstored
      dsimp only
      split
      · exact ⟨Link.follows_zero, h⟩
      · exact ⟨hlink, h⟩

end Cell

namespace LinkManager

variable (m : LinkManager max)

/-- A nonce or an age that is set changes no slot's use. -/
theorem setNonce_unchanged (id : NxId) (newNonce : UInt32) :
    (m.setSecurityDataAuthNonce id newNonce).2.pendingAddLink
        = m.pendingAddLink ∧
      ∀ i, ((m.setSecurityDataAuthNonce id newNonce).2.slot i).inUse
        = (m.slot i).inUse := by
  rw [setSecurityDataAuthNonce]
  cases m.linkIndexFromNxid id with
  | none => exact ⟨rfl, fun _ => rfl⟩
  | some i =>
      dsimp only
      split
      · exact ⟨rfl, fun _ => rfl⟩
      · exact ⟨rfl, inUse_setSlot rfl⟩

theorem resetActive_unchanged (id : NxId) :
    (m.resetLinkSecsSinceActive id).2.pendingAddLink = m.pendingAddLink ∧
      ∀ i, ((m.resetLinkSecsSinceActive id).2.slot i).inUse
        = (m.slot i).inUse := by
  rw [resetLinkSecsSinceActive]
  cases m.linkIndexFromNxid id with
  | none => exact ⟨rfl, fun _ => rfl⟩
  | some i => exact ⟨rfl, inUse_setSlot rfl⟩

end LinkManager

/-- The table of an accessory: it is the accessory in every link, also in the
pending one, and there is room for that one. -/
structure AccessoryLinks (m : LinkManager max) : Prop where
  cells : ∀ i, (m.cell i).Follows i
  pending : m.pendingLinkToCreate.Follows
  counted : m.Counted
  room : m.pendingAddLink = true → m.inUseSlots.card < max.count

namespace AccessoryLinks

variable {m : LinkManager max}

theorem clearAllLinks (h : AccessoryLinks m) :
    AccessoryLinks m.clearAllLinks :=
  ⟨h.cells, h.pending, h.counted, h.room⟩

theorem cells_clearLinkInternal (h : AccessoryLinks m) (i j : Fin max.count) :
    ((m.clearLinkInternal i).cell j).Follows j := by
  by_cases hj : j = i
  · subst hj
    rw [m.cell_clearLinkInternal_self]
    exact (h.cells j).clear
  · rw [m.cell_clearLinkInternal_of_ne i hj]
    exact h.cells j

theorem createLink (h : AccessoryLinks m) (id : NxId) (securityMode : UInt8)
    (data : SecurityMode0Data) :
    AccessoryLinks (m.createLink id .accessory securityMode data).2 := by
  rcases m.createLink_cases id .accessory securityMode data with
    heq | ⟨-, -, hroom, heq⟩ | ⟨i, -, -, -, heq⟩
  · rw [heq]
    exact h
  · rw [heq]
    refine ⟨h.cells, rfl, h.counted, fun _ => ?_⟩
    have hcounted : m.linkCount.toNat = m.inUseSlots.card := h.counted
    rw [hcounted] at hroom
    exact Nat.lt_of_le_of_ne m.card_inUseSlots_le hroom
  · rw [heq]
    exact ⟨h.cells_clearLinkInternal i, rfl, h.counted.clearLinkInternal i,
      fun _ => LinkManager.card_lt_of_free (m.clearLinkInternal_free i)⟩

/-- The ages, the nonce or the flag of a slot change. -/
theorem setSlot (h : AccessoryLinks m) {i : Fin max.count} {s : Slot}
    (huse : s.inUse = (m.slot i).inUse) (hlink : s.link.Follows) :
    AccessoryLinks (m.setSlot i s) := by
  refine ⟨fun j => ?_, h.pending, h.counted.setSlot huse, fun hp => ?_⟩
  · by_cases hj : j = i
    · subst hj
      rw [m.cell_setSlot_self]
      exact ⟨hlink, (h.cells j).stored⟩
    · rw [m.cell_setSlot_of_ne i s hj]
      exact h.cells j
  · rw [LinkManager.inUseSlots_congr (LinkManager.inUse_setSlot huse)]
    exact h.room hp

theorem setNonce (h : AccessoryLinks m) (id : NxId) (newNonce : UInt32) :
    AccessoryLinks (m.setSecurityDataAuthNonce id newNonce).2 := by
  rw [LinkManager.setSecurityDataAuthNonce]
  cases m.linkIndexFromNxid id with
  | none => exact h
  | some i =>
      dsimp only
      split
      · exact h
      · exact h.setSlot rfl (h.cells i).slot

theorem resetActive (h : AccessoryLinks m) (id : NxId) :
    AccessoryLinks (m.resetLinkSecsSinceActive id).2 := by
  rw [LinkManager.resetLinkSecsSinceActive]
  cases m.linkIndexFromNxid id with
  | none => exact h
  | some i => exact h.setSlot rfl (h.cells i).slot

theorem processLinks (h : AccessoryLinks m) (secondsElapsed : UInt32) :
    AccessoryLinks (m.processLinks secondsElapsed) := by
  have hwaiting := m.waiting_processLinks secondsElapsed
  have hadd : (m.processLinks secondsElapsed).pendingAddLink
      = m.pendingAddLink := congrArg Prod.fst hwaiting
  have hlink : (m.processLinks secondsElapsed).pendingLinkToCreate
      = m.pendingLinkToCreate := congrArg (fun w => w.2.1) hwaiting
  refine ⟨fun i => ?_, ?_, h.counted.processLinks secondsElapsed, fun hp => ?_⟩
  · rw [LinkManager.processLinks, m.cell_processLinks i secondsElapsed]
    exact (h.cells i).process secondsElapsed
  · rw [hlink]
    exact h.pending
  · rw [hadd] at hp
    exact (m.card_processLinks_le secondsElapsed).trans_lt (h.room hp)

/-- After `process` nothing is pending. -/
theorem calm_process (secondsElapsed : UInt32) :
    (m.process secondsElapsed).pendingAddLink = false := by
  have hadd : (m.processLinks secondsElapsed).pendingAddLink
      = m.pendingAddLink :=
    congrArg Prod.fst (m.waiting_processLinks secondsElapsed)
  rcases m.process_cases secondsElapsed with
    ⟨-, heq⟩ | ⟨hcalm, -, heq⟩ | ⟨hcalm, -, heq⟩
  · rw [heq]
    exact (LinkManager.addPendingLink_cases _).1
  · rw [heq]
    exact (congrArg Prod.fst (LinkManager.waiting_clearLinksInternal
      (m.processLinks secondsElapsed))).trans (hadd.trans hcalm)
  · rw [heq]
    exact hadd.trans hcalm

theorem cells_addPendingLink (h : AccessoryLinks m) (i : Fin max.count) :
    (m.addPendingLink.cell i).Follows i := by
  obtain ⟨-, ⟨-, hsame⟩ | ⟨j, -, hcell, hother⟩⟩ := m.addPendingLink_cases
  · rw [hsame]
    exact h.cells i
  · by_cases hi : i = j
    · subst hi
      rw [hcell]
      exact Cell.follows_persist h.pending h.pending
    · rw [hother i hi]
      exact h.cells i

theorem process (h : AccessoryLinks m) (secondsElapsed : UInt32) :
    AccessoryLinks (m.process secondsElapsed) := by
  have haged := h.processLinks secondsElapsed
  have hroom : (m.process secondsElapsed).pendingAddLink = true →
      (m.process secondsElapsed).inUseSlots.card < max.count := by
    intro hp
    rw [calm_process] at hp
    cases hp
  rcases m.process_cases secondsElapsed with
    ⟨-, heq⟩ | ⟨-, -, heq⟩ | ⟨-, -, heq⟩
  · rw [heq] at hroom ⊢
    exact ⟨haged.cells_addPendingLink, Link.follows_zero,
      haged.counted.addPendingLink, hroom⟩
  · rw [heq] at hroom ⊢
    refine ⟨fun i => ?_, ?_, haged.counted.clearLinksInternal, hroom⟩
    · have hcell := LinkManager.cell_clearLinksInternal
        (m.processLinks secondsElapsed) i
      exact hcell ▸ (haged.cells i).clear
    · have hlink : (m.processLinks
          secondsElapsed).clearLinksInternal.pendingLinkToCreate
          = (m.processLinks secondsElapsed).pendingLinkToCreate :=
        congrArg (fun w => w.2.1) (LinkManager.waiting_clearLinksInternal _)
      exact hlink ▸ haged.pending
  · rw [heq]
    exact haged

/-- A restart finds links that follow, if these were stored. -/
theorem init {nv : Store} (h : ∀ (i : Fin max.count) l,
    Cell.stored i ⟨Slot.zero, nv (indexToNvBlock i).blockId⟩ = some l →
      l.Follows) :
    AccessoryLinks (LinkManager.init max nv) := by
  have hpending : (LinkManager.init max nv).pendingLinkToCreate
      = Link.zero := congrArg (fun w => w.2.1) (LinkManager.waiting_init nv)
  refine ⟨fun i => ?_, ?_, LinkManager.counted_init nv, fun hp => ?_⟩
  · rw [LinkManager.cell_init]
    exact Cell.follows_load (h i)
  · rw [hpending]
    exact Link.follows_zero
  · rw [LinkManager.pendingAddLink_init nv] at hp
    cases hp

theorem init_factory {nv : Store}
    (h : ∀ i : Fin max.count, FactoryBlock (nv (indexToNvBlock i).blockId)) :
    AccessoryLinks (LinkManager.init max nv) := by
  refine init fun i l hl => ?_
  rw [Cell.stored_factory (h i)] at hl
  cases hl

theorem restart (h : AccessoryLinks m) :
    AccessoryLinks (LinkManager.init max m.nv) :=
  init fun i => (h.cells i).stored

/-! ## The operating mode -/

theorem isSome_hasLinkWithRole {mode : OperatingMode} :
    (m.hasLinkWithRole mode).isSome = true ↔
      ∃ i, (m.slot i).inUse = true ∧
        (m.slot i).link.operatingMode = mode.toUInt8 := by
  simp [LinkManager.hasLinkWithRole]

/-- Every link is one to a controller. -/
theorem isSome_hasLinkedController (h : AccessoryLinks m) :
    m.hasLinkedController.isSome = true ↔
      ∃ i, (m.slot i).inUse = true := by
  refine isSome_hasLinkWithRole.trans ⟨?_, ?_⟩
  · intro hlinked
    obtain ⟨i, huse, -⟩ := hlinked
    exact ⟨i, huse⟩
  · intro hlinked
    obtain ⟨i, huse⟩ := hlinked
    exact ⟨i, huse, (h.cells i).slot⟩

/-- The operating mode of an accessory with links to controllers, or without
links. -/
def modeWhen : Bool → CreditOperatingMode
  | true => .following
  | false => .independent

theorem creditOperatingMode_eq (h : AccessoryLinks m) :
    m.creditOperatingMode = modeWhen m.hasLinkedController.isSome := by
  have haccessory : m.hasLinkedAccessory = false := by
    rw [Bool.eq_false_iff]
    intro hsome
    obtain ⟨i, -, hrole⟩ := isSome_hasLinkWithRole.mp hsome
    have hfollows : (m.slot i).link.operatingMode
        = OperatingMode.accessory.toUInt8 := (h.cells i).slot
    rw [hfollows] at hrole
    exact absurd hrole (by decide)
  cases hlinked : m.hasLinkedController.isSome with
  | true => simp [LinkManager.creditOperatingMode, haccessory, hlinked, modeWhen]
  | false =>
      simp [LinkManager.creditOperatingMode, haccessory, hlinked, modeWhen]

theorem hasLinkedController_congr {m' : LinkManager max}
    (h : AccessoryLinks m) (h' : AccessoryLinks m')
    (huse : ∀ i, (m'.slot i).inUse = (m.slot i).inUse) :
    m'.hasLinkedController.isSome = m.hasLinkedController.isSome := by
  rw [Bool.eq_iff_iff, h'.isSome_hasLinkedController,
    h.isSome_hasLinkedController]
  simp only [huse]

/-- With a pending link there is a controller after `process`. -/
theorem hasLinkedController_process (h : AccessoryLinks m)
    (hpending : m.pendingAddLink = true) (secondsElapsed : UInt32) :
    (m.process secondsElapsed).hasLinkedController.isSome = true := by
  obtain ⟨i, huse, -⟩ := LinkManager.process_added hpending
    (h.room hpending) secondsElapsed
  exact (h.process secondsElapsed).isSome_hasLinkedController.mpr ⟨i, huse⟩

end AccessoryLinks

end Nexus.Channel
