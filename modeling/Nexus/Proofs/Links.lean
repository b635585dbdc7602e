import Nexus.Channel.LinkManager
import Nexus.Lib.Run

/-!
# Slots and their blocks

The link manager works on one slot and the nonvolatile block of that slot at a
time. This file takes the two together as the cell of an index and says what
each operation does to each cell; the loops are then one round for every cell.

Two facts tie the cells together. What a block reads back as belongs to the
link in its slot, and no two slots in use hold a link to the same device. Both
hold after every operation, a restart included.
-/

namespace Nexus.Channel

open Nexus.Util Nexus.Nv Nexus.Lib

/-! ## The memory of a link -/

theorem Link.length_bytes (l : Link) : l.bytes.length = 36 := by
  simp [Link.bytes, le16, le32]

theorem uint16At_le16 (v : UInt16) :
    (v.toUInt8.toUInt16 ||| (v >>> 8).toUInt8.toUInt16 <<< 8) = v := by
  apply UInt16.toNat_inj.mp
  have hv := v.toNat_lt
  have h1 : v.toNat % 2 ^ 8 < 2 ^ 8 := Nat.mod_lt _ (by decide)
  have h2 : v.toNat / 2 ^ 8 < 2 ^ 8 := by omega
  have hor := Nat.two_pow_add_eq_or_of_lt h1 (v.toNat / 2 ^ 8)
  simp only [UInt16.toNat_or, UInt8.toNat_toUInt16, UInt16.toNat_toUInt8,
    UInt16.toNat_shiftLeft, UInt16.toNat_shiftRight, UInt16.reduceToNat,
    Nat.reduceMod, Nat.shiftRight_eq_div_pow, Nat.shiftLeft_eq]
  rw [Nat.mod_eq_of_lt h2, Nat.mod_eq_of_lt (by omega : _ < 2 ^ 16),
    Nat.or_comm, Nat.mul_comm, ← hor]
  omega

/-- The key starts behind sixteen bytes. -/
theorem Link.getD_bytes_key (l : Link) (i : Fin 16) :
    l.bytes.getD (16 + i) 0 = l.securityData.symKey.bytes[i] := by
  have hsplit : l.bytes = (le16 l.linkedDeviceId.authorityId
      ++ le32 l.linkedDeviceId.deviceId ++ [l.operatingMode, l.securityMode]
      ++ le32 l.secondsSinceInit ++ le32 l.secondsSinceActive)
      ++ (l.securityData.symKey.bytes.toList
        ++ le32 l.securityData.nonce) := by
    simp [Link.bytes]
  have hi : (i : Nat) < l.securityData.symKey.bytes.toList.length := by simp
  rw [List.getD_eq_getElem?_getD, hsplit,
    List.getElem?_append_right (by simp [le16, le32]),
    List.getElem?_append_left (by simp [le16, le32])]
  simp [le16, le32]

theorem Link.ofBytes_bytes (l : Link) : Link.ofBytes l.bytes = l := by
  have hkey : (Vector.ofFn fun i : Fin 16 => l.bytes.getD (16 + i) 0)
      = l.securityData.symKey.bytes := by
    apply Vector.ext
    intro i hi
    rw [Vector.getElem_ofFn]
    exact l.getD_bytes_key ⟨i, hi⟩
  have hnonce : uint32At l.bytes 32 = l.securityData.nonce := by
    have hsplit : l.bytes = (le16 l.linkedDeviceId.authorityId
        ++ le32 l.linkedDeviceId.deviceId
        ++ [l.operatingMode, l.securityMode] ++ le32 l.secondsSinceInit
        ++ le32 l.secondsSinceActive ++ l.securityData.symKey.bytes.toList)
        ++ le32 l.securityData.nonce := rfl
    unfold uint32At
    rw [hsplit]
    simp only [List.getD_eq_getElem?_getD]
    rw [List.getElem?_append_right (by simp [le16, le32]),
      List.getElem?_append_right (by simp [le16, le32]),
      List.getElem?_append_right (by simp [le16, le32]),
      List.getElem?_append_right (by simp [le16, le32])]
    simp [le16, le32, ofLe32_le32]
  have hauthority : uint16At l.bytes 0 = l.linkedDeviceId.authorityId :=
    uint16At_le16 _
  have hdevice : uint32At l.bytes 2 = l.linkedDeviceId.deviceId :=
    ofLe32_le32 _
  have hinit : uint32At l.bytes 8 = l.secondsSinceInit := ofLe32_le32 _
  have hactive : uint32At l.bytes 12 = l.secondsSinceActive := ofLe32_le32 _
  simp only [Link.ofBytes, hkey, hnonce, hauthority, hdevice, hinit, hactive]
  rfl

/-! ## Cells -/

/-- A slot and what its block holds. -/
structure Cell where
  slot : Slot
  block : Option (List UInt8)

variable {max : MaxLinks}

def LinkManager.cell (m : LinkManager max) (i : Fin max.count) : Cell :=
  ⟨m.slot i, m.nv (indexToNvBlock i).blockId⟩

namespace Cell

variable (i : Fin max.count)

/-- The link the block reads back as. -/
def stored (c : Cell) : Option Link :=
  (nvRead (fun _ => c.block) (indexToNvBlock i)).map Link.ofBytes

/-- The cell after `nexus_nv_update` of its block. -/
def persist (c : Cell) (l : Link) : Cell :=
  ⟨c.slot, nvUpdate (fun _ => c.block) (indexToNvBlock i) l.bytes
    (indexToNvBlock i).blockId⟩

/-- What is read back after an update is what was written; a block that had
these bytes but does not check stays as it is. -/
theorem stored_persist {c : Cell} {l l' : Link}
    (h : (c.persist i l).stored i = some l') : l' = l := by
  have hlen : l.bytes.length + 4 = (indexToNvBlock i).length := by
    rw [l.length_bytes]
    rfl
  obtain ⟨bytes, hread, rfl⟩ := Option.map_eq_some_iff.mp h
  suffices bytes = l.bytes by rw [this, l.ofBytes_bytes]
  cases hw : updateWrites (fun _ => c.block) (indexToNvBlock i) l.bytes with
  | some block =>
      have hnew := eq_newBlock_of_updateWrites hw
      have hread' : nvRead (fun _ => some block) (indexToNvBlock i)
          = some l.bytes := nvRead_of_newBlock hlen (by rw [hnew])
      simp only [persist, nvUpdate, hw, nxpCommonNvWrite,
        Function.update_self] at hread
      rw [hread'] at hread
      exact (Option.some.inj hread).symm
  | none =>
      simp only [persist, nvUpdate, hw] at hread
      unfold updateWrites at hw
      unfold nvRead at hread
      cases hc : c.block with
      | none => simp [hc] at hw
      | some existing =>
          simp only [hc, Option.getD_some] at hw hread
          split at hw
          next heq =>
            split at hread
            · rw [← Option.some.inj hread]
              exact eq_of_beq heq
            · cases hread
          next => cases hw

/-- The cell after `_nexus_channel_link_manager_clear_link_internal`. -/
def clear : Cell → Cell
  | ⟨s, block⟩ =>
      if s.inUse = false then ⟨s, block⟩
      else
        persist i ⟨{ s with link := Link.zero, inUse := false }, block⟩
          Link.zero

/-- The link after some seconds. -/
def aged (secondsElapsed : UInt32) (l : Link) : Link :=
  { l with
    secondsSinceInit := l.secondsSinceInit + secondsElapsed
    secondsSinceActive := l.secondsSinceActive + secondsElapsed }

/-- The cell after a round of `nexus_channel_link_manager_process`. -/
def process (secondsElapsed : UInt32) : Cell → Cell
  | ⟨s, block⟩ =>
      let link := aged secondsElapsed s.link
      if s.inUse = false then ⟨s, block⟩
      else if link.secondsSinceActive > linkTimeoutSeconds then
        clear i ⟨{ s with link := link }, block⟩
      else if link.securityMode = securityModeCoseMac0
          ∧ s.shouldPersistNonce then
        persist i ⟨{ s with link := link, shouldPersistNonce := false },
          block⟩ link
      else ⟨{ s with link := link }, block⟩

/-- The cell after a round of `nexus_channel_link_manager_init`. -/
def load (c : Cell) : Cell :=
  match c.stored i with
  | none => c
  | some link =>
      if link.linkedDeviceId.deviceId = 0 then c
      else
        ⟨⟨{ link with securityData := { link.securityData with
          nonce := link.securityData.nonce + nonceNvStorageIntervalCount } },
          true, true⟩, c.block⟩

end Cell

/-! ## What the operations do to a cell -/

theorem indexToNvBlock_ne {i j : Fin max.count} (h : j ≠ i) :
    (indexToNvBlock j).blockId ≠ (indexToNvBlock i).blockId := by
  intro heq
  apply h
  have hmax := max.le_ten
  have hi := i.isLt
  have hj := j.isLt
  have hnat := congrArg UInt16.toNat heq
  simp only [indexToNvBlock, UInt16.toNat_ofNat'] at hnat
  rw [Nat.mod_eq_of_lt (by omega), Nat.mod_eq_of_lt (by omega)] at hnat
  exact Fin.ext (by omega)

namespace LinkManager

variable (m : LinkManager max) (i : Fin max.count)

@[simp] theorem cell_setSlot_self (s : Slot) :
    (m.setSlot i s).cell i = ⟨s, (m.cell i).block⟩ := by
  simp [cell, slot, setSlot]

theorem cell_setSlot_of_ne {j : Fin max.count} (s : Slot) (h : j ≠ i) :
    (m.setSlot i s).cell j = m.cell j := by
  have hne : (i : Nat) ≠ j := fun heq => h (Fin.ext heq.symm)
  simp [cell, slot, setSlot, Vector.getElem_set_ne _ _ hne]

@[simp] theorem cell_persist_self (l : Link) :
    (m.persist i l).cell i = (m.cell i).persist i l := by
  simp only [cell, persist, Cell.persist]
  rw [nvUpdate_self]
  rfl

theorem cell_persist_of_ne {j : Fin max.count} (l : Link) (h : j ≠ i) :
    (m.persist i l).cell j = m.cell j := by
  simp only [cell, persist]
  rw [nvUpdate_of_ne _ _ _ (indexToNvBlock_ne h)]
  rfl

@[simp] theorem slot_cell : (m.cell i).slot = m.slot i := rfl

theorem cell_clearLinkInternal_self :
    (m.clearLinkInternal i).cell i = (m.cell i).clear i := by
  show _ = Cell.clear i ⟨m.slot i, m.nv (indexToNvBlock i).blockId⟩
  unfold clearLinkInternal Cell.clear
  simp only []
  by_cases huse : (m.slot i).inUse = false
  · rw [if_pos huse, if_pos huse]
    rfl
  · rw [if_neg huse, if_neg huse]
    show ((m.setSlot i { m.slot i with
      link := Link.zero, inUse := false }).persist i Link.zero).cell i = _
    rw [cell_persist_self, cell_setSlot_self]
    rfl

theorem cell_clearLinkInternal_of_ne {j : Fin max.count} (h : j ≠ i) :
    (m.clearLinkInternal i).cell j = m.cell j := by
  unfold clearLinkInternal
  split
  · rfl
  · show ((m.setSlot i { m.slot i with
      link := Link.zero, inUse := false }).persist i Link.zero).cell j = _
    rw [cell_persist_of_ne _ _ _ h, cell_setSlot_of_ne _ _ _ h]

theorem cell_processLink_self (secondsElapsed : UInt32) :
    (m.processLink secondsElapsed i).cell i
      = (m.cell i).process i secondsElapsed := by
  show _ = Cell.process i secondsElapsed
    ⟨m.slot i, m.nv (indexToNvBlock i).blockId⟩
  unfold processLink Cell.process Cell.aged
  simp only []
  by_cases huse : (m.slot i).inUse = false
  · rw [if_pos huse, if_pos huse]
    rfl
  rw [if_neg huse, if_neg huse]
  by_cases hactive : (m.slot i).link.secondsSinceActive + secondsElapsed
      > linkTimeoutSeconds
  · rw [if_pos hactive, if_pos hactive, cell_clearLinkInternal_self,
      cell_setSlot_self]
    rfl
  rw [if_neg hactive, if_neg hactive]
  by_cases hpersist : (m.slot i).link.securityMode = securityModeCoseMac0
      ∧ (m.slot i).shouldPersistNonce = true
  · rw [if_pos hpersist, if_pos hpersist, cell_setSlot_self,
      cell_persist_self, cell_setSlot_self]
    rfl
  · rw [if_neg hpersist, if_neg hpersist, cell_setSlot_self]
    rfl

theorem cell_processLink_of_ne (secondsElapsed : UInt32) {j : Fin max.count}
    (h : j ≠ i) : (m.processLink secondsElapsed i).cell j = m.cell j := by
  unfold processLink
  simp only []
  split
  · rfl
  · split
    · rw [cell_clearLinkInternal_of_ne _ _ h, cell_setSlot_of_ne _ _ _ h]
    · split
      · rw [cell_setSlot_of_ne _ _ _ h, cell_persist_of_ne _ _ _ h,
          cell_setSlot_of_ne _ _ _ h]
      · rw [cell_setSlot_of_ne _ _ _ h]

theorem cell_initLink_self : (m.initLink i).cell i = (m.cell i).load i := by
  have hread : nvRead m.nv (indexToNvBlock i)
      = nvRead (fun _ => (m.cell i).block) (indexToNvBlock i) := rfl
  unfold initLink Cell.load Cell.stored
  rw [hread]
  cases nvRead (fun _ => (m.cell i).block) (indexToNvBlock i) with
  | none => rfl
  | some bytes =>
      simp only [Option.map_some]
      split
      · rfl
      · exact cell_setSlot_self m i _

theorem cell_initLink_of_ne {j : Fin max.count} (h : j ≠ i) :
    (m.initLink i).cell j = m.cell j := by
  unfold initLink
  split
  · rfl
  · simp only []
    split
    · rfl
    · exact cell_setSlot_of_ne m i _ h

/-! The three loops. -/

theorem cell_processLinks (secondsElapsed : UInt32) :
    ((List.finRange max.count).foldl (processLink secondsElapsed) m).cell i
      = (m.cell i).process i secondsElapsed :=
  foldl_finRange_cell (g := fun i c => c.process i secondsElapsed)
    (fun m i => m.cell_processLink_self i secondsElapsed)
    (fun m i _ h => m.cell_processLink_of_ne i secondsElapsed h) m i

theorem cell_clearLinksInternal :
    m.clearLinksInternal.cell i = (m.cell i).clear i :=
  foldl_finRange_cell (g := fun i c => c.clear i)
    (fun m i => m.cell_clearLinkInternal_self i)
    (fun m i _ h => m.cell_clearLinkInternal_of_ne i h) m i

theorem cell_init (nv : Store) :
    (init max nv).cell i
      = Cell.load i ⟨Slot.zero, nv (indexToNvBlock i).blockId⟩ := by
  have h := foldl_finRange_cell (g := fun i c => c.load i)
    (fun (m : LinkManager max) i => m.cell_initLink_self i)
    (fun m i _ h => m.cell_initLink_of_ne i h)
    ⟨Vector.replicate _ Slot.zero, Link.zero, 0, false, false, nv⟩ i
  have hstart : @cell max ⟨Vector.replicate _ Slot.zero, Link.zero, 0, false,
      false, nv⟩ i = ⟨Slot.zero, nv (indexToNvBlock i).blockId⟩ := by
    simp [cell, slot]
  rw [← hstart]
  exact h

/-! ## Finding a link -/

variable {m i} {id : NxId}

theorem of_linkIndexFromNxid (h : m.linkIndexFromNxid id = some i) :
    (m.slot i).inUse = true ∧ (m.slot i).link.linkedDeviceId = id := by
  simpa using List.find?_some h

theorem linkIndexFromNxid_eq_none :
    m.linkIndexFromNxid id = none ↔
      ∀ i : Fin max.count, (m.slot i).inUse = true →
        (m.slot i).link.linkedDeviceId ≠ id := by
  simp [linkIndexFromNxid]

/-- The search looks at the ids of the slots in use. -/
theorem linkIndexFromNxid_congr {m' : LinkManager max}
    (h : ∀ i : Fin max.count, (m'.slot i).inUse = (m.slot i).inUse ∧
      (m'.slot i).link.linkedDeviceId = (m.slot i).link.linkedDeviceId)
    (id : NxId) : m'.linkIndexFromNxid id = m.linkIndexFromNxid id := by
  unfold linkIndexFromNxid
  congr 1
  funext i
  rw [(h i).1, (h i).2]

/-! ## Consistency -/

end LinkManager

/-- What the block reads back as is the link of the slot, as far as the device
and the security mode go. -/
def Cell.Backed (i : Fin max.count) (c : Cell) : Prop :=
  ∀ l, c.stored i = some l → l.linkedDeviceId.deviceId ≠ 0 →
    c.slot.inUse = true ∧ c.slot.link.linkedDeviceId = l.linkedDeviceId ∧
      c.slot.link.securityMode = l.securityMode

/-- The slot was in use before, with a link to the same device. -/
def Cell.Keeps (before after : Cell) : Prop :=
  after.slot.inUse = true → before.slot.inUse = true ∧
    after.slot.link.linkedDeviceId = before.slot.link.linkedDeviceId

namespace Cell

variable {i : Fin max.count} {c : Cell}

theorem backed_persist {l : Link} (huse : c.slot.inUse = true)
    (hl : c.slot.link = l) : (c.persist i l).Backed i := by
  intro l' h _
  obtain rfl := stored_persist i h
  exact ⟨huse, by rw [← hl]; exact ⟨rfl, rfl⟩⟩

theorem backed_persist_zero : (c.persist i Link.zero).Backed i := by
  intro l h hdevice
  obtain rfl := stored_persist i h
  exact absurd rfl hdevice

theorem Backed.clear (h : c.Backed i) : (c.clear i).Backed i := by
  obtain ⟨s, block⟩ := c
  unfold Cell.clear
  simp only []
  split
  · exact h
  · exact backed_persist_zero

theorem clear_inUse : ¬ (c.clear i).slot.inUse = true := by
  obtain ⟨s, block⟩ := c
  intro huse
  by_cases hfree : s.inUse = false
  · have hsame : Cell.clear i ⟨s, block⟩ = ⟨s, block⟩ := if_pos hfree
    rw [hsame] at huse
    exact absurd huse (by rw [hfree]; decide)
  · have hclear : Cell.clear i ⟨s, block⟩ = persist i
        ⟨{ s with link := Link.zero, inUse := false }, block⟩ Link.zero :=
      if_neg hfree
    rw [hclear] at huse
    exact absurd huse Bool.false_ne_true

theorem keeps_clear : c.Keeps (c.clear i) :=
  fun huse => absurd huse clear_inUse

/-- What a round of processing does: nothing to a free slot; else the link
ages, and is then cleared, or written, or left for later. -/
theorem process_cases (i : Fin max.count) (secondsElapsed : UInt32) (c : Cell) :
    (c.slot.inUse = false ∧ c.process i secondsElapsed = c) ∨
    (c.slot.inUse = true ∧ c.process i secondsElapsed
      = persist i ⟨{ c.slot with link := Link.zero, inUse := false },
          c.block⟩ Link.zero) ∨
    (c.slot.inUse = true ∧ c.slot.link.securityMode = securityModeCoseMac0 ∧
      c.slot.shouldPersistNonce = true ∧ c.process i secondsElapsed
      = persist i ⟨{ c.slot with
          link := aged secondsElapsed c.slot.link
          shouldPersistNonce := false }, c.block⟩
          (aged secondsElapsed c.slot.link)) ∨
    (c.slot.inUse = true ∧ (c.slot.link.securityMode = securityModeCoseMac0 →
      c.slot.shouldPersistNonce = false) ∧ c.process i secondsElapsed
      = ⟨{ c.slot with link := aged secondsElapsed c.slot.link },
          c.block⟩) := by
  obtain ⟨s, block⟩ := c
  by_cases hfree : s.inUse = false
  · exact .inl ⟨hfree, if_pos hfree⟩
  have huse : s.inUse = true := Bool.not_eq_false _ ▸ hfree
  refine .inr ?_
  unfold process
  simp only [if_neg hfree]
  split
  · exact .inl ⟨huse, if_neg hfree⟩
  · split
    next hpersist => exact .inr (.inl ⟨huse, hpersist.1, hpersist.2, rfl⟩)
    next hpersist =>
      refine .inr (.inr ⟨huse, fun hmode => ?_, rfl⟩)
      exact Bool.not_eq_true _ ▸ fun hflag => hpersist ⟨hmode, hflag⟩

theorem Backed.process (h : c.Backed i) (secondsElapsed : UInt32) :
    (c.process i secondsElapsed).Backed i := by
  rcases process_cases i secondsElapsed c with
    ⟨-, heq⟩ | ⟨-, heq⟩ | ⟨huse, -, -, heq⟩ | ⟨huse, -, heq⟩
  · rw [heq]
    exact h
  · rw [heq]
    exact backed_persist_zero
  · rw [heq]
    exact backed_persist huse rfl
  · rw [heq]
    intro l hl hdevice
    exact ⟨huse, (h l hl hdevice).2⟩

theorem keeps_process (secondsElapsed : UInt32) :
    c.Keeps (c.process i secondsElapsed) := by
  rcases process_cases i secondsElapsed c with
    ⟨-, heq⟩ | ⟨-, heq⟩ | ⟨huse, -, -, heq⟩ | ⟨huse, -, heq⟩
  · rw [heq]
    intro huse
    exact ⟨huse, rfl⟩
  · rw [heq]
    intro huse
    exact absurd huse Bool.false_ne_true
  · rw [heq]
    intro _
    exact ⟨huse, rfl⟩
  · rw [heq]
    intro _
    exact ⟨huse, rfl⟩

theorem backed_load (block : Option (List UInt8)) :
    (Cell.load i ⟨Slot.zero, block⟩).Backed i := by
  intro l hl hdevice
  have hblock : (Cell.load i ⟨Slot.zero, block⟩).block = block := by
    unfold Cell.load
    split
    · rfl
    · split <;> rfl
  have hstored : stored i ⟨Slot.zero, block⟩ = some l := by
    rw [← hl]
    unfold stored
    rw [hblock]
  have hload : Cell.load i ⟨Slot.zero, block⟩
      = ⟨⟨{ l with securityData := { l.securityData with
        nonce := l.securityData.nonce + nonceNvStorageIntervalCount } },
        true, true⟩, block⟩ := by
    unfold Cell.load
    rw [hstored]
    exact if_neg hdevice
  rw [hload]
  exact ⟨rfl, rfl, rfl⟩

/-- What is in use after a restart is what the block read back as. -/
theorem load_inUse {block : Option (List UInt8)}
    (h : (Cell.load i ⟨Slot.zero, block⟩).slot.inUse = true) :
    ∃ l, stored i ⟨Slot.zero, block⟩ = some l ∧
      l.linkedDeviceId.deviceId ≠ 0 ∧ Cell.load i ⟨Slot.zero, block⟩
        = ⟨⟨{ l with securityData := { l.securityData with
          nonce := l.securityData.nonce + nonceNvStorageIntervalCount } },
          true, true⟩, block⟩ := by
  cases hstored : stored i ⟨Slot.zero, block⟩ with
  | none =>
      unfold Cell.load at h
      rw [hstored] at h
      exact absurd h Bool.false_ne_true
  | some l =>
      unfold Cell.load at h ⊢
      rw [hstored] at h ⊢
      dsimp only at h ⊢
      by_cases hdevice : l.linkedDeviceId.deviceId = 0
      · rw [if_pos hdevice] at h
        exact absurd h Bool.false_ne_true
      · exact ⟨l, rfl, hdevice, if_neg hdevice⟩

end Cell

/-- The state between two operations. -/
structure Consistent (m : LinkManager max) : Prop where
  backed : ∀ i, (m.cell i).Backed i
  distinct : ∀ i j : Fin max.count, (m.slot i).inUse = true →
    (m.slot j).inUse = true →
    (m.slot i).link.linkedDeviceId = (m.slot j).link.linkedDeviceId → i = j
  pending : m.pendingAddLink = true → ∀ i : Fin max.count,
    (m.slot i).inUse = true →
    (m.slot i).link.linkedDeviceId ≠ m.pendingLinkToCreate.linkedDeviceId

namespace Consistent

variable {m m' : LinkManager max}

/-- In a consistent state the search finds the one slot there is. -/
theorem linkIndexFromNxid_eq (h : Consistent m) {i : Fin max.count} {id : NxId}
    (huse : (m.slot i).inUse = true)
    (hid : (m.slot i).link.linkedDeviceId = id) :
    m.linkIndexFromNxid id = some i := by
  cases hfind : m.linkIndexFromNxid id with
  | none => exact absurd hid (LinkManager.linkIndexFromNxid_eq_none.mp hfind i huse)
  | some j =>
      obtain ⟨hjuse, hjid⟩ := LinkManager.of_linkIndexFromNxid hfind
      rw [h.distinct i j huse hjuse (hid.trans hjid.symm)]

/-- An operation that starts no links keeps the state consistent. -/
theorem of_keeps (h : Consistent m) (hbacked : ∀ i, (m'.cell i).Backed i)
    (hkeeps : ∀ i, (m.cell i).Keeps (m'.cell i))
    (hpending : m'.pendingAddLink = true → m.pendingAddLink = true ∧
      m'.pendingLinkToCreate = m.pendingLinkToCreate) : Consistent m' where
  backed := hbacked
  distinct i j hi hj hid := by
    obtain ⟨hi', hidi⟩ := hkeeps i hi
    obtain ⟨hj', hidj⟩ := hkeeps j hj
    exact h.distinct i j hi' hj' (hidi.symm.trans (hid.trans hidj))
  pending hp i hi := by
    obtain ⟨hp', hlink⟩ := hpending hp
    obtain ⟨hi', hidi⟩ := hkeeps i hi
    rw [hlink]
    exact fun heq => h.pending hp' i hi' (hidi.symm.trans heq)

end Consistent

/-! ## Every operation keeps the state consistent -/

namespace LinkManager

variable (m : LinkManager max)

/-- What waits for the next `process`. -/
def waiting : Bool × Link × Bool :=
  (m.pendingAddLink, m.pendingLinkToCreate, m.pendingClearAllLinks)

theorem waiting_clearLinkInternal (i : Fin max.count) :
    (m.clearLinkInternal i).waiting = m.waiting := by
  unfold clearLinkInternal
  split <;> rfl

theorem waiting_processLink (secondsElapsed : UInt32) (i : Fin max.count) :
    (m.processLink secondsElapsed i).waiting = m.waiting := by
  unfold processLink
  simp only []
  split
  · rfl
  · split
    · rw [waiting_clearLinkInternal]
      rfl
    · split <;> rfl

theorem keeps_clearLinkInternal (i j : Fin max.count) :
    (m.cell j).Keeps ((m.clearLinkInternal i).cell j) := by
  by_cases hji : j = i
  · subst hji
    rw [m.cell_clearLinkInternal_self]
    exact Cell.keeps_clear
  · rw [m.cell_clearLinkInternal_of_ne i hji]
    intro huse
    exact ⟨huse, rfl⟩

theorem waiting_init (nv : Store) :
    (init max nv).waiting = (false, Link.zero, false) := by
  have hround : ∀ (m : LinkManager max) (i : Fin max.count),
      (m.initLink i).waiting = m.waiting := by
    intro m i
    unfold initLink
    split
    · rfl
    · simp only []
      split <;> rfl
  exact foldl_unchanged waiting hround _ _

theorem pendingAddLink_init (nv : Store) :
    (init max nv).pendingAddLink = false :=
  congrArg Prod.fst (waiting_init nv)

/-- The links have aged, and nothing else has been done yet. -/
def processLinks (secondsElapsed : UInt32) : LinkManager max :=
  (List.finRange max.count).foldl (processLink secondsElapsed) m

theorem waiting_processLinks (secondsElapsed : UInt32) :
    (m.processLinks secondsElapsed).waiting = m.waiting :=
  foldl_unchanged waiting (fun m i => m.waiting_processLink secondsElapsed i)
    m _

theorem waiting_clearLinksInternal : m.clearLinksInternal.waiting = m.waiting :=
  foldl_unchanged waiting (fun m i => m.waiting_clearLinkInternal i) m _

/-- What is done after the links have aged. -/
theorem process_cases (secondsElapsed : UInt32) :
    (m.pendingAddLink = true ∧ m.process secondsElapsed
      = (m.processLinks secondsElapsed).addPendingLink) ∨
    (m.pendingAddLink = false ∧ m.pendingClearAllLinks = true ∧
      m.process secondsElapsed
        = { (m.processLinks secondsElapsed).clearLinksInternal with
            pendingClearAllLinks := false }) ∨
    (m.pendingAddLink = false ∧ m.pendingClearAllLinks = false ∧
      m.process secondsElapsed = m.processLinks secondsElapsed) := by
  have hwaiting := m.waiting_processLinks secondsElapsed
  have hadd : (m.processLinks secondsElapsed).pendingAddLink
      = m.pendingAddLink := congrArg Prod.fst hwaiting
  have hclear : (m.processLinks secondsElapsed).pendingClearAllLinks
      = m.pendingClearAllLinks := congrArg (fun w => w.2.2) hwaiting
  have heq : m.process secondsElapsed
      = if (m.processLinks secondsElapsed).pendingAddLink then
          (m.processLinks secondsElapsed).addPendingLink
        else if (m.processLinks secondsElapsed).pendingClearAllLinks then
          { (m.processLinks secondsElapsed).clearLinksInternal with
            pendingClearAllLinks := false }
        else m.processLinks secondsElapsed := rfl
  rw [heq, hadd, hclear]
  cases m.pendingAddLink with
  | true => exact .inl ⟨rfl, rfl⟩
  | false =>
      cases m.pendingClearAllLinks with
      | true => exact .inr (.inl ⟨rfl, rfl, rfl⟩)
      | false => exact .inr (.inr ⟨rfl, rfl, rfl⟩)

/-- The pending link takes a free slot, if there is one. -/
theorem addPendingLink_cases :
    m.addPendingLink.pendingAddLink = false ∧
    (((∀ i, (m.slot i).inUse = true) ∧
      ∀ i, m.addPendingLink.cell i = m.cell i) ∨
    ∃ i : Fin max.count, (m.slot i).inUse = false ∧
      m.addPendingLink.cell i = Cell.persist i
        ⟨{ m.slot i with inUse := true, link := m.pendingLinkToCreate },
          (m.cell i).block⟩ m.pendingLinkToCreate ∧
      ∀ j, j ≠ i → m.addPendingLink.cell j = m.cell j) := by
  unfold addPendingLink
  refine ⟨rfl, ?_⟩
  split
  next hfind =>
    refine .inl ⟨fun i => ?_, fun i => rfl⟩
    have hi := List.find?_eq_none.mp hfind i (List.mem_finRange i)
    simpa using hi
  next i hfind =>
    have hfree : (m.slot i).inUse = false := by
      simpa using List.find?_some hfind
    refine .inr ⟨i, hfree, ?_, fun j hj => ?_⟩
    · show ((LinkManager.setSlot _ i _).persist i _).cell i = _
      rw [cell_persist_self, cell_setSlot_self]
      rfl
    · show ((LinkManager.setSlot _ i _).persist i _).cell j = _
      rw [cell_persist_of_ne _ _ _ hj, cell_setSlot_of_ne _ _ _ hj]
      rfl

end LinkManager

namespace Consistent

variable {m : LinkManager max}

/-- The ages, the nonce or the flag of a slot change. -/
theorem setSlot (h : Consistent m) {i : Fin max.count} {s : Slot}
    (huse : s.inUse = (m.slot i).inUse)
    (hid : s.link.linkedDeviceId = (m.slot i).link.linkedDeviceId)
    (hmode : s.link.securityMode = (m.slot i).link.securityMode) :
    Consistent (m.setSlot i s) := by
  refine h.of_keeps (fun j => ?_) (fun j => ?_) fun hp => ⟨hp, rfl⟩
  · by_cases hji : j = i
    · subst hji
      rw [m.cell_setSlot_self]
      intro l hl hdevice
      obtain ⟨h1, h2, h3⟩ := h.backed j l hl hdevice
      exact ⟨huse.trans h1, hid.trans h2, hmode.trans h3⟩
    · rw [m.cell_setSlot_of_ne i s hji]
      exact h.backed j
  · by_cases hji : j = i
    · subst hji
      rw [m.cell_setSlot_self]
      intro hin
      exact ⟨huse.symm.trans hin, hid⟩
    · rw [m.cell_setSlot_of_ne i s hji]
      intro hin
      exact ⟨hin, rfl⟩

theorem processLinks (h : Consistent m) (secondsElapsed : UInt32) :
    Consistent (m.processLinks secondsElapsed) := by
  have hcell := fun i => m.cell_processLinks i secondsElapsed
  have hwaiting := m.waiting_processLinks secondsElapsed
  refine h.of_keeps (fun i => ?_) (fun i => ?_) fun hp => ⟨?_, ?_⟩
  · rw [LinkManager.processLinks, hcell]
    exact (h.backed i).process secondsElapsed
  · rw [LinkManager.processLinks, hcell]
    exact Cell.keeps_process secondsElapsed
  · exact (congrArg Prod.fst hwaiting).symm.trans hp
  · exact congrArg (fun w => w.2.1) hwaiting

theorem clearLinksInternal (h : Consistent m) :
    Consistent m.clearLinksInternal := by
  have hwaiting := m.waiting_clearLinksInternal
  refine h.of_keeps (fun i => ?_) (fun i => ?_) fun hp => ⟨?_, ?_⟩
  · rw [m.cell_clearLinksInternal]
    exact (h.backed i).clear
  · rw [m.cell_clearLinksInternal]
    exact Cell.keeps_clear
  · exact (congrArg Prod.fst hwaiting).symm.trans hp
  · exact congrArg (fun w => w.2.1) hwaiting

theorem clearLinkInternal (h : Consistent m) (i : Fin max.count) :
    Consistent (m.clearLinkInternal i) := by
  have hwaiting := m.waiting_clearLinkInternal i
  refine h.of_keeps (fun j => ?_) (fun j => ?_) fun hp => ⟨?_, ?_⟩
  · by_cases hj : j = i
    · subst hj
      rw [m.cell_clearLinkInternal_self]
      exact (h.backed j).clear
    · rw [m.cell_clearLinkInternal_of_ne i hj]
      exact h.backed j
  · exact m.keeps_clearLinkInternal i j
  · exact (congrArg Prod.fst hwaiting).symm.trans hp
  · exact congrArg (fun w => w.2.1) hwaiting

theorem addPendingLink (h : Consistent m) (hpending : m.pendingAddLink = true) :
    Consistent m.addPendingLink := by
  obtain ⟨hnone, ⟨-, hcells⟩ | ⟨i, hfree, hcell, hother⟩⟩ :=
    m.addPendingLink_cases
  · refine h.of_keeps (fun i => ?_) (fun i => ?_) fun hp => ?_
    · rw [hcells]
      exact h.backed i
    · rw [hcells]
      intro huse
      exact ⟨huse, rfl⟩
    · rw [hnone] at hp
      cases hp
  · have hslot : (m.addPendingLink.slot i)
        = { m.slot i with inUse := true, link := m.pendingLinkToCreate } :=
      congrArg Cell.slot hcell
    have hslots : ∀ j, j ≠ i → (m.addPendingLink.slot j) = m.slot j :=
      fun j hj => congrArg Cell.slot (hother j hj)
    refine ⟨fun j => ?_, fun j k hj hk hid => ?_, fun hp => ?_⟩
    · by_cases hji : j = i
      · subst hji
        rw [hcell]
        exact Cell.backed_persist rfl rfl
      · rw [hother j hji]
        exact h.backed j
    · by_cases hji : j = i
      · by_cases hki : k = i
        · exact hji.trans hki.symm
        · subst hji
          rw [hslots k hki] at hk hid
          rw [hslot] at hid
          exact absurd hid.symm (h.pending hpending k hk)
      · rw [hslots j hji] at hj hid
        by_cases hki : k = i
        · subst hki
          rw [hslot] at hid
          exact absurd hid (h.pending hpending j hj)
        · rw [hslots k hki] at hk hid
          exact h.distinct j k hj hk hid
    · rw [hnone] at hp
      cases hp

theorem process (h : Consistent m) (secondsElapsed : UInt32) :
    Consistent (m.process secondsElapsed) := by
  have haged := h.processLinks secondsElapsed
  rcases m.process_cases secondsElapsed with
    ⟨hadd, heq⟩ | ⟨-, -, heq⟩ | ⟨-, -, heq⟩
  · rw [heq]
    have hwaiting := m.waiting_processLinks secondsElapsed
    exact haged.addPendingLink ((congrArg Prod.fst hwaiting).trans hadd)
  · rw [heq]
    have hcleared := haged.clearLinksInternal
    exact ⟨hcleared.backed, hcleared.distinct, hcleared.pending⟩
  · rw [heq]
    exact haged

/-- A restart takes over what the blocks read back as. -/
theorem init (h : Consistent m) : Consistent (LinkManager.init max m.nv) := by
  have hpending := @LinkManager.pendingAddLink_init max m.nv
  refine h.of_keeps (fun i => ?_) (fun i => ?_) fun hp => ?_
  · rw [LinkManager.cell_init]
    exact Cell.backed_load _
  · rw [LinkManager.cell_init]
    intro huse
    obtain ⟨l, hstored, hdevice, hload⟩ := Cell.load_inUse huse
    obtain ⟨huse', hid, -⟩ := h.backed i l hstored hdevice
    rw [hload]
    exact ⟨huse', hid.symm⟩
  · rw [hpending] at hp
    cases hp

/-- Blank storage holds no links. -/
theorem free_of_blank {nv : Store}
    (h : ∀ i : Fin max.count, nvRead nv (indexToNvBlock i) = none)
    (i : Fin max.count) :
    ((LinkManager.init max nv).slot i).inUse ≠ true := by
  intro huse
  have hcell := LinkManager.cell_init i nv
  have huse' : (Cell.load i
      ⟨Slot.zero, nv (indexToNvBlock i).blockId⟩).slot.inUse = true := by
    rw [← hcell]
    exact huse
  obtain ⟨l, hstored, -⟩ := Cell.load_inUse huse'
  have hread : Cell.stored i ⟨Slot.zero, nv (indexToNvBlock i).blockId⟩
      = (nvRead nv (indexToNvBlock i)).map Link.ofBytes := rfl
  rw [hread, h i] at hstored
  cases hstored

theorem init_blank {nv : Store}
    (h : ∀ i : Fin max.count, nvRead nv (indexToNvBlock i) = none) :
    Consistent (LinkManager.init max nv) := by
  have hfree := free_of_blank h
  refine ⟨fun i => ?_, fun i _ hi => absurd hi (hfree i),
    fun _ i hi => absurd hi (hfree i)⟩
  rw [LinkManager.cell_init]
  exact Cell.backed_load _

theorem setPendingLink (h : Consistent m) {id : NxId} (mode : OperatingMode)
    (securityMode : UInt8) (data : SecurityMode0Data)
    (hid : ∀ i : Fin max.count, (m.slot i).inUse = true →
      (m.slot i).link.linkedDeviceId ≠ id) :
    Consistent (m.setPendingLink id mode securityMode data) :=
  ⟨h.backed, h.distinct, fun _ => hid⟩

theorem createLink (h : Consistent m) (id : NxId) (mode : OperatingMode)
    (securityMode : UInt8) (data : SecurityMode0Data) :
    Consistent (m.createLink id mode securityMode data).2 := by
  unfold LinkManager.createLink
  split
  · exact h
  · split
    next i hfind =>
      obtain ⟨huse, hid⟩ := LinkManager.of_linkIndexFromNxid hfind
      refine (h.clearLinkInternal i).setPendingLink mode securityMode data ?_
      intro j hj hidj
      by_cases hji : j = i
      · have hcell := m.cell_clearLinkInternal_self i
        subst hji
        have hslot := congrArg (fun c => c.slot.inUse) hcell
        exact Cell.clear_inUse (hslot.symm.trans hj)
      · have hslot := congrArg Cell.slot (m.cell_clearLinkInternal_of_ne i hji)
        have hslots : ((m.clearLinkInternal i).slot j) = m.slot j := hslot
        rw [hslots] at hj hidj
        exact hji (h.distinct j i hj huse (hidj.trans hid.symm))
    next hfind =>
      have hnone := LinkManager.linkIndexFromNxid_eq_none.mp hfind
      split
      · split
        · exact h
        · split
          · exact h
          next i _ =>
            refine (h.clearLinkInternal i).setPendingLink mode securityMode
              data ?_
            intro j hj hidj
            obtain ⟨hj', hidj'⟩ := m.keeps_clearLinkInternal i j hj
            exact hnone j hj' (hidj'.symm.trans hidj)
      · exact h.setPendingLink mode securityMode data hnone

end Consistent

end Nexus.Channel
