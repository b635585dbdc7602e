import Nexus.Proofs.Links

/-!
# The link table

The table as a whole, over any sequence of operations and restarts of a device
that began with no links: the count is the number of slots in use, the slots
not in use are zero, every slot agrees with its block, and whoever was promised
a link finds a free slot for it.

`nexus_nv_update` skips a write when the stored block already has the bytes,
without looking at its checksum. So the argument also needs that a block that
does not check never has the bytes of a link: blocks are either never written,
erased, or written by this code.
-/

namespace Nexus.Channel

open Nexus.Util Nexus.Nv Nexus.Lib

variable {max : MaxLinks}

/-! ## Cells and their blocks -/

/-- The bytes of erased storage. -/
def erasedBlock : List UInt8 := List.replicate 40 0xFF

/-- A block no link was ever written to. -/
def FactoryBlock (block : Option (List UInt8)) : Prop :=
  block = none ∨ block = some erasedBlock

/-- A link that erased storage cannot be taken for. -/
def Link.Storable (l : Link) : Prop := l.operatingMode ≠ 0xFF

theorem Link.storable_zero : Link.zero.Storable := by
  unfold Link.Storable
  decide

theorem OperatingMode.toUInt8_ne (mode : OperatingMode) :
    mode.toUInt8 ≠ 0xFF := by
  cases mode <;> decide

theorem Link.bytes_ne_erased {l : Link} (h : l.Storable) :
    l.bytes ≠ List.replicate 36 0xFF := by
  intro heq
  have hmode : l.bytes.getD 6 0 = l.operatingMode := by
    show (Link.ofBytes l.bytes).operatingMode = l.operatingMode
    rw [l.ofBytes_bytes]
  rw [heq] at hmode
  exact h hmode.symm

namespace Cell

variable {i : Fin max.count} {c : Cell} {l : Link}

/-- The block is blank or checks. -/
def Sound (i : Fin max.count) (c : Cell) : Prop :=
  FactoryBlock c.block ∨
    ∃ block, c.block = some block ∧ blockValid (indexToNvBlock i) block = true

theorem innerData_erased (i : Fin max.count) :
    innerData (indexToNvBlock i) erasedBlock = List.replicate 36 0xFF := rfl

/-- The bytes the block already has are read back, if the block is sound. -/
theorem stored_of_innerData (hsound : c.Sound i) (hl : l.Storable)
    {block : List UInt8} (hblock : c.block = some block)
    (hinner : innerData (indexToNvBlock i) block = l.bytes) :
    c.stored i = some l := by
  rcases hsound with (hnone | herased) | ⟨block', hblock', hvalid⟩
  · rw [hblock] at hnone
    cases hnone
  · rw [hblock] at herased
    injection herased with herased
    rw [herased, innerData_erased] at hinner
    exact absurd hinner.symm (Link.bytes_ne_erased hl)
  · rw [hblock] at hblock'
    injection hblock' with hblock'
    subst hblock'
    unfold stored nvRead
    simp only [hblock, Option.getD_some, hvalid, if_true, hinner,
      Option.map_some, l.ofBytes_bytes]

theorem persist_sound (hsound : c.Sound i) (hl : l.Storable) :
    (c.persist i l).stored i = some l ∧ (c.persist i l).Sound i := by
  have hlen : l.bytes.length + 4 = (indexToNvBlock i).length := by
    rw [l.length_bytes]
    rfl
  cases hw : updateWrites (fun _ => c.block) (indexToNvBlock i) l.bytes with
  | some block =>
      obtain rfl := eq_newBlock_of_updateWrites hw
      have hblock : (c.persist i l).block
          = some (newBlock (indexToNvBlock i) l.bytes) := by
        simp only [persist, nvUpdate, hw, nxpCommonNvWrite,
          Function.update_self]
      have hvalid := @blockValid_newBlock (indexToNvBlock i) l.bytes hlen
      have hinner := @innerData_newBlock (indexToNvBlock i) l.bytes hlen
      have hnew : (c.persist i l).Sound i := .inr ⟨_, hblock, hvalid⟩
      exact ⟨stored_of_innerData hnew hl hblock hinner, hnew⟩
  | none =>
      have hsame : c.persist i l = c := by
        simp only [persist, nvUpdate, hw]
      rw [hsame]
      unfold updateWrites at hw
      cases hblock : c.block with
      | none =>
          rw [hblock] at hw
          cases hw
      | some block =>
          simp only [hblock] at hw
          by_cases hinner : innerData (indexToNvBlock i) block = l.bytes
          · exact ⟨stored_of_innerData hsound hl hblock hinner, hsound⟩
          · rw [if_neg (by simpa using hinner)] at hw
            cases hw

end Cell

/-- The same link, as far as the ages and the nonce do not matter. -/
structure Link.Matches (l l' : Link) : Prop where
  linkedDeviceId : l.linkedDeviceId = l'.linkedDeviceId
  operatingMode : l.operatingMode = l'.operatingMode
  securityMode : l.securityMode = l'.securityMode
  symKey : l.securityData.symKey = l'.securityData.symKey

theorem Link.Matches.trans {l l' l'' : Link} (h : l.Matches l')
    (h' : l'.Matches l'') : l.Matches l'' :=
  ⟨h.linkedDeviceId.trans h'.linkedDeviceId,
    h.operatingMode.trans h'.operatingMode,
    h.securityMode.trans h'.securityMode, h.symKey.trans h'.symKey⟩

theorem Link.Matches.refl (l : Link) : l.Matches l := ⟨rfl, rfl, rfl, rfl⟩

/-- A link that may stand in a slot. -/
structure Link.Valid (l : Link) : Prop where
  deviceId : l.linkedDeviceId.deviceId ≠ 0
  storable : l.Storable

theorem Link.Matches.valid {l l' : Link} (h : l.Matches l') (hl : l.Valid) :
    l'.Valid where
  deviceId := by
    rw [← h.linkedDeviceId]
    exact hl.deviceId
  storable := by
    unfold Link.Storable
    rw [← h.operatingMode]
    exact hl.storable

/-- The slot and its block say the same. -/
structure Cell.Mirrored (i : Fin max.count) (c : Cell) : Prop where
  sound : c.Sound i
  free : c.slot.inUse = false → c.slot.link = Link.zero ∧
    ∀ l, c.stored i = some l → l.linkedDeviceId.deviceId = 0
  used : c.slot.inUse = true → c.slot.link.Valid ∧
    ∃ l, c.stored i = some l ∧ l.Matches c.slot.link

namespace Cell

variable {i : Fin max.count} {c : Cell}

/-- A link is put into a slot and written. -/
theorem Sound.mirrored_persist (h : c.Sound i) (huse : c.slot.inUse = true)
    (hl : c.slot.link.Valid) : (c.persist i c.slot.link).Mirrored i := by
  obtain ⟨hstored, hsound⟩ := persist_sound h hl.storable
  refine ⟨hsound, fun hfree => ?_, fun _ => ⟨hl, _, hstored, .refl _⟩⟩
  have huse' : (c.persist i c.slot.link).slot.inUse = true := huse
  rw [huse'] at hfree
  cases hfree

/-- A slot is emptied and zeros are written. -/
theorem Sound.mirrored_persist_zero (h : c.Sound i)
    (hfree : c.slot.inUse = false) (hzero : c.slot.link = Link.zero) :
    (c.persist i Link.zero).Mirrored i := by
  obtain ⟨hstored, hsound⟩ := persist_sound h Link.storable_zero
  refine ⟨hsound, fun _ => ⟨hzero, fun l hl => ?_⟩, fun huse => ?_⟩
  · rw [hstored] at hl
    injection hl with hl
    rw [← hl]
    rfl
  · have hfree' : (c.persist i Link.zero).slot.inUse = false := hfree
    rw [hfree'] at huse
    cases huse

theorem Mirrored.clear (h : c.Mirrored i) : (c.clear i).Mirrored i := by
  obtain ⟨s, block⟩ := c
  unfold Cell.clear
  by_cases hfree : s.inUse = false
  · simp only [if_pos hfree]
    exact h
  · simp only [if_neg hfree]
    exact Sound.mirrored_persist_zero h.sound rfl rfl

/-- The ages or the nonce of the link in a slot change. -/
theorem Mirrored.setLink (h : c.Mirrored i) {s : Slot}
    (huse : c.slot.inUse = true) (huse' : s.inUse = true)
    (hlink : c.slot.link.Matches s.link) :
    Cell.Mirrored i ⟨s, c.block⟩ := by
  obtain ⟨hvalid, l, hstored, hmatches⟩ := h.used huse
  refine ⟨h.sound, fun hfree => ?_, fun _ =>
    ⟨hlink.valid hvalid, l, hstored, hmatches.trans hlink⟩⟩
  have hfree' : s.inUse = false := hfree
  rw [huse'] at hfree'
  cases hfree'

theorem matches_aged (secondsElapsed : UInt32) (l : Link) :
    l.Matches (aged secondsElapsed l) := ⟨rfl, rfl, rfl, rfl⟩

theorem Mirrored.process (h : c.Mirrored i) (secondsElapsed : UInt32) :
    (c.process i secondsElapsed).Mirrored i := by
  rcases process_cases i secondsElapsed c with
    ⟨-, heq⟩ | ⟨-, heq⟩ | ⟨huse, -, -, heq⟩ | ⟨huse, -, heq⟩
  · rw [heq]
    exact h
  · rw [heq]
    exact Sound.mirrored_persist_zero h.sound rfl rfl
  · rw [heq]
    have haged := matches_aged secondsElapsed c.slot.link
    exact @Sound.mirrored_persist _ i ⟨{ c.slot with
      link := aged secondsElapsed c.slot.link
      shouldPersistNonce := false }, c.block⟩ h.sound huse
      (haged.valid (h.used huse).1)
  · rw [heq]
    exact h.setLink huse huse (matches_aged secondsElapsed c.slot.link)

/-- What a restart makes of a block that is sound and holds a valid link or
none. -/
theorem Sound.mirrored_load {block : Option (List UInt8)}
    (h : Cell.Sound i ⟨Slot.zero, block⟩)
    (hvalid : ∀ l, Cell.stored i ⟨Slot.zero, block⟩ = some l →
      l.linkedDeviceId.deviceId ≠ 0 → l.Valid) :
    (Cell.load i ⟨Slot.zero, block⟩).Mirrored i := by
  cases hstored : Cell.stored i ⟨Slot.zero, block⟩ with
  | none =>
      have hload : Cell.load i ⟨Slot.zero, block⟩ = ⟨Slot.zero, block⟩ := by
        unfold Cell.load
        rw [hstored]
      rw [hload]
      refine ⟨h, fun _ => ⟨rfl, fun l hl => ?_⟩, fun huse => ?_⟩
      · rw [hstored] at hl
        cases hl
      · cases huse
  | some l =>
      by_cases hdevice : l.linkedDeviceId.deviceId = 0
      · have hload : Cell.load i ⟨Slot.zero, block⟩ = ⟨Slot.zero, block⟩ := by
          unfold Cell.load
          rw [hstored]
          exact if_pos hdevice
        rw [hload]
        refine ⟨h, fun _ => ⟨rfl, fun l' hl => ?_⟩, fun huse => ?_⟩
        · rw [hstored] at hl
          injection hl with hl
          rw [← hl]
          exact hdevice
        · cases huse
      · have hload : Cell.load i ⟨Slot.zero, block⟩
            = ⟨⟨{ l with securityData := { l.securityData with
              nonce := l.securityData.nonce + nonceNvStorageIntervalCount } },
              true, true⟩, block⟩ := by
          unfold Cell.load
          rw [hstored]
          exact if_neg hdevice
        have hl := hvalid l hstored hdevice
        rw [hload]
        refine ⟨h, fun hfree => ?_, fun _ => ⟨⟨hl.deviceId, hl.storable⟩, l,
          hstored, ⟨rfl, rfl, rfl, rfl⟩⟩⟩
        cases hfree

theorem Mirrored.load (h : c.Mirrored i) :
    (Cell.load i ⟨Slot.zero, c.block⟩).Mirrored i := by
  refine Sound.mirrored_load h.sound fun l hl hdevice => ?_
  have hstored : c.stored i = some l := hl
  cases huse : c.slot.inUse with
  | false => exact absurd ((h.free huse).2 l hstored) hdevice
  | true =>
      obtain ⟨hvalid, l', hstored', hmatches⟩ := h.used huse
      rw [hstored] at hstored'
      injection hstored' with hsame
      refine ⟨hdevice, ?_⟩
      unfold Link.Storable
      rw [hsame, hmatches.operatingMode]
      exact hvalid.storable

/-- Neither zeros nor erased bytes begin with the id of a block. -/
theorem blockValid_eq_false (i : Fin max.count) {b : UInt8} {rest : List UInt8}
    (hb : b = 0x00 ∨ b = 0xFF) :
    blockValid (indexToNvBlock i) (b :: b :: rest) = false := by
  have hmax := max.le_ten
  have hi := i.isLt
  have hid : (UInt16.ofNat (4 + i)).toUInt8.toNat = 4 + i := by
    rw [UInt16.toNat_toUInt8, UInt16.toNat_ofNat']
    omega
  have hne : b ≠ (UInt16.ofNat (4 + i)).toUInt8 := by
    intro heq
    rw [← heq] at hid
    rcases hb with rfl | rfl
    · exact absurd hid (by simp; omega)
    · exact absurd hid (by simp; omega)
  have hhead : ((b :: b :: rest).take 2 == le16 (indexToNvBlock i).blockId)
      = false := by
    apply beq_eq_false_iff_ne.mpr
    intro heq
    exact hne (List.cons.inj heq).1
  unfold blockValid
  rw [hhead, Bool.false_and]

/-- A blank block holds no link. -/
theorem stored_factory {block : Option (List UInt8)} (h : FactoryBlock block)
    (s : Slot) : Cell.stored i ⟨s, block⟩ = none := by
  have hinvalid : blockValid (indexToNvBlock i) (block.getD
      (List.replicate (indexToNvBlock i).length 0x00)) = false := by
    rcases h with rfl | rfl
    · exact blockValid_eq_false i (.inl rfl)
    · exact blockValid_eq_false i (.inr rfl)
  unfold stored nvRead
  simp only [hinvalid, Bool.false_eq_true, if_false, Option.map_none]

end Cell

/-! ## Counting -/

namespace LinkManager

variable (m : LinkManager max)

/-- The slots in use. -/
def inUseSlots : Finset (Fin max.count) :=
  Finset.univ.filter fun i => (m.slot i).inUse = true

@[simp] theorem mem_inUseSlots {i : Fin max.count} :
    i ∈ m.inUseSlots ↔ (m.slot i).inUse = true := by
  simp [inUseSlots]

/-- `link_count` is the number of slots in use. -/
def Counted : Prop := m.linkCount.toNat = m.inUseSlots.card

theorem card_inUseSlots_le : m.inUseSlots.card ≤ max.count := by
  have hle := Finset.card_le_univ m.inUseSlots
  rwa [Fintype.card_fin] at hle

variable {m} {m' : LinkManager max}

theorem inUseSlots_congr (h : ∀ i, (m'.slot i).inUse = (m.slot i).inUse) :
    m'.inUseSlots = m.inUseSlots := by
  ext i
  rw [mem_inUseSlots, mem_inUseSlots, h]

theorem Counted.congr (h : m.Counted)
    (huse : ∀ i, (m'.slot i).inUse = (m.slot i).inUse)
    (hcount : m'.linkCount = m.linkCount) : m'.Counted := by
  unfold Counted
  rw [inUseSlots_congr huse, hcount]
  exact h

/-- One more slot, and one more in the count. -/
theorem Counted.add (h : m.Counted) {i : Fin max.count}
    (hfree : (m.slot i).inUse = false) (huse : (m'.slot i).inUse = true)
    (hother : ∀ j, j ≠ i → (m'.slot j).inUse = (m.slot j).inUse)
    (hcount : m'.linkCount = m.linkCount + 1) : m'.Counted := by
  have hi : i ∉ m.inUseSlots := by
    rw [mem_inUseSlots, hfree]
    decide
  have hinsert : m'.inUseSlots = insert i m.inUseSlots := by
    ext j
    by_cases hj : j = i
    · subst hj
      simp [huse]
    · simp [hj, hother j hj]
  have hle := m.card_inUseSlots_le
  have hmax := max.le_ten
  unfold Counted at h ⊢
  rw [hinsert, Finset.card_insert_of_notMem hi, hcount, UInt8.toNat_add, h]
  exact Nat.mod_eq_of_lt (by simpa using by omega)

/-- One slot less, and one less in the count. -/
theorem Counted.remove (h : m.Counted) {i : Fin max.count}
    (huse : (m.slot i).inUse = true) (hfree : (m'.slot i).inUse = false)
    (hother : ∀ j, j ≠ i → (m'.slot j).inUse = (m.slot j).inUse)
    (hcount : m'.linkCount = m.linkCount - 1) : m'.Counted := by
  have hi : i ∈ m.inUseSlots := m.mem_inUseSlots.mpr huse
  have herase : m'.inUseSlots = m.inUseSlots.erase i := by
    ext j
    by_cases hj : j = i
    · subst hj
      simp [hfree]
    · simp [hj, hother j hj]
  have hpos := Finset.card_pos.mpr ⟨i, hi⟩
  unfold Counted at h ⊢
  rw [herase, Finset.card_erase_of_mem hi, hcount, UInt8.toNat_sub_of_le, h]
  · rfl
  · apply UInt8.le_iff_toNat_le.mpr
    rw [h]
    exact hpos

theorem slot_eq_of_cell {i : Fin max.count} (h : m'.cell i = m.cell i) :
    m'.slot i = m.slot i :=
  congrArg Cell.slot h

theorem Counted.clearLinkInternal (h : m.Counted) (i : Fin max.count) :
    (m.clearLinkInternal i).Counted := by
  by_cases hfree : (m.slot i).inUse = false
  · have hsame : m.clearLinkInternal i = m := if_pos hfree
    rw [hsame]
    exact h
  · have huse : (m.slot i).inUse = true := Bool.not_eq_false _ ▸ hfree
    have hcount : (m.clearLinkInternal i).linkCount = m.linkCount - 1 := by
      unfold LinkManager.clearLinkInternal
      rw [if_neg hfree]
      rfl
    refine h.remove huse ?_ (fun j hj => ?_) hcount
    · have hcell := congrArg (fun c => c.slot.inUse)
        (m.cell_clearLinkInternal_self i)
      have hclear : ¬ ((m.clearLinkInternal i).slot i).inUse = true := by
        intro huse'
        exact Cell.clear_inUse (hcell.symm.trans huse')
      exact Bool.not_eq_true _ ▸ hclear
    · rw [slot_eq_of_cell (m.cell_clearLinkInternal_of_ne i hj)]

/-- What every round of a loop keeps, the loop keeps. -/
theorem Counted.foldl {α : Type} {f : LinkManager max → α → LinkManager max}
    (hf : ∀ m a, m.Counted → (f m a).Counted) (h : m.Counted) (as : List α) :
    (as.foldl f m).Counted := by
  induction as generalizing m with
  | nil => exact h
  | cons a as ih => exact ih (hf m a h)

theorem Counted.clearLinksInternal (h : m.Counted) :
    m.clearLinksInternal.Counted :=
  Counted.foldl (fun _ i h => h.clearLinkInternal i) h _

theorem inUse_setSlot {i : Fin max.count} {s : Slot}
    (huse : s.inUse = (m.slot i).inUse) (j : Fin max.count) :
    ((m.setSlot i s).slot j).inUse = (m.slot j).inUse := by
  by_cases hj : j = i
  · subst hj
    have hcell := congrArg (fun c => c.slot.inUse) (m.cell_setSlot_self j s)
    exact hcell.trans huse
  · rw [slot_eq_of_cell (m.cell_setSlot_of_ne i s hj)]

theorem Counted.setSlot (h : m.Counted) {i : Fin max.count} {s : Slot}
    (huse : s.inUse = (m.slot i).inUse) : (m.setSlot i s).Counted :=
  h.congr (inUse_setSlot huse) rfl

theorem Counted.processLink (h : m.Counted) (secondsElapsed : UInt32)
    (i : Fin max.count) : (m.processLink secondsElapsed i).Counted := by
  have haged := @Counted.setSlot _ m h i { m.slot i with
    link := Cell.aged secondsElapsed (m.slot i).link } rfl
  have hslot : (m.setSlot i { m.slot i with
      link := Cell.aged secondsElapsed (m.slot i).link }).slot i
      = { m.slot i with link := Cell.aged secondsElapsed (m.slot i).link } :=
    congrArg Cell.slot (m.cell_setSlot_self i _)
  unfold LinkManager.processLink
  simp only []
  split
  · exact h
  · split
    · exact haged.clearLinkInternal i
    · split
      · refine Counted.setSlot (haged.congr (fun _ => rfl) rfl) ?_
        exact (congrArg Slot.inUse hslot).symm
      · exact haged

theorem Counted.processLinks (h : m.Counted) (secondsElapsed : UInt32) :
    (m.processLinks secondsElapsed).Counted :=
  Counted.foldl (fun _ i h => h.processLink secondsElapsed i) h _

theorem Counted.addPendingLink (h : m.Counted) : m.addPendingLink.Counted := by
  unfold LinkManager.addPendingLink
  cases hfind : (List.finRange max.count).find? fun i =>
      (m.slot i).inUse == false with
  | none => exact h.congr (fun _ => rfl) rfl
  | some i =>
      have hfree : (m.slot i).inUse = false := by
        simpa using List.find?_some hfind
      have hadded : (({ m with linkCount := m.linkCount + 1 }).setSlot i
          { m.slot i with
            inUse := true, link := m.pendingLinkToCreate }).Counted := by
        refine h.add hfree ?_ (fun j hj => ?_) rfl
        · exact congrArg (fun c => c.slot.inUse) (cell_setSlot_self _ i _)
        · exact congrArg (fun c => c.slot.inUse) (cell_setSlot_of_ne _ i _ hj)
      exact hadded.congr (fun _ => rfl) rfl

theorem Counted.initLink (h : m.Counted) {i : Fin max.count}
    (hfree : (m.slot i).inUse = false) : (m.initLink i).Counted := by
  unfold LinkManager.initLink
  cases nvRead m.nv (indexToNvBlock i) with
  | none => exact h
  | some bytes =>
      dsimp only
      split
      · exact h
      · refine h.add hfree ?_ (fun j hj => ?_) rfl
        · exact congrArg (fun c => c.slot.inUse) (cell_setSlot_self m i _)
        · exact congrArg (fun c => c.slot.inUse) (cell_setSlot_of_ne m i _ hj)

/-- The links are loaded into slots that are free. -/
theorem counted_init (nv : Store) : (LinkManager.init max nv).Counted := by
  have hloop : ∀ (is : List (Fin max.count)) (m : LinkManager max),
      is.Nodup → m.Counted → (∀ i ∈ is, (m.slot i).inUse = false) →
      (is.foldl LinkManager.initLink m).Counted := by
    intro is
    induction is with
    | nil => exact fun _ _ h _ => h
    | cons i is ih =>
        intro m hnodup h hfree
        obtain ⟨hi, his⟩ := List.nodup_cons.mp hnodup
        refine ih _ his (h.initLink (hfree i List.mem_cons_self)) ?_
        intro j hj
        have hne : j ≠ i := by
          rintro rfl
          exact hi hj
        rw [slot_eq_of_cell (m.cell_initLink_of_ne i hne)]
        exact hfree j (List.mem_cons_of_mem i hj)
  have hslot : ∀ i : Fin max.count, (@LinkManager.slot max
      ⟨Vector.replicate _ Slot.zero, Link.zero, 0, false, false, nv⟩ i)
      = Slot.zero := by
    intro i
    simp [LinkManager.slot]
  refine hloop _ _ (List.nodup_finRange _) ?_ fun i _ => by rw [hslot]; rfl
  unfold Counted
  rw [Finset.card_eq_zero.mpr]
  · rfl
  · ext i
    rw [mem_inUseSlots, hslot]
    simp [Slot.zero]

/-- Below the limit there is a free slot. -/
theorem exists_free (h : m.inUseSlots.card < max.count) :
    ∃ i, (m.slot i).inUse = false := by
  by_contra hnone
  have hall : m.inUseSlots = Finset.univ := by
    ext i
    have hi := fun hfree => hnone ⟨i, hfree⟩
    simpa using hi
  rw [hall, Finset.card_univ, Fintype.card_fin] at h
  exact Nat.lt_irrefl _ h

theorem card_lt_of_free {i : Fin max.count} (h : (m.slot i).inUse = false) :
    m.inUseSlots.card < max.count := by
  have hi : i ∉ m.inUseSlots := by
    rw [mem_inUseSlots, h]
    decide
  have hlt := Finset.card_lt_univ_of_notMem hi
  rwa [Fintype.card_fin] at hlt

theorem clearLinkInternal_free (m : LinkManager max) (i : Fin max.count) :
    ((m.clearLinkInternal i).slot i).inUse = false := by
  rw [Bool.eq_false_iff]
  intro huse
  have hcell := congrArg (fun c => c.slot.inUse)
    (m.cell_clearLinkInternal_self i)
  exact Cell.clear_inUse (hcell.symm.trans huse)

end LinkManager

/-! ## Creating a link -/

namespace LinkManager

variable {m : LinkManager max}

/-- The link to make way is one in use, with this device as the accessory. -/
theorem of_oldestAccessoryLinkIdx {i : Fin max.count}
    (h : m.oldestAccessoryLinkIdx = some i) :
    (m.slot i).inUse = true ∧ (m.slot i).link.operatingMode
      = OperatingMode.accessory.toUInt8 := by
  have hloop : ∀ (is : List (Fin max.count))
      (acc : UInt32 × Option (Fin max.count)),
      (∀ i, acc.2 = some i → (m.slot i).inUse = true ∧
        (m.slot i).link.operatingMode = OperatingMode.accessory.toUInt8) →
      ∀ i, (is.foldl (fun acc i =>
        let s := m.slot i
        if s.link.operatingMode ≠ OperatingMode.accessory.toUInt8 then acc
        else if s.inUse ∧ s.link.secondsSinceInit ≥ acc.1 then
          (s.link.secondsSinceInit, some i)
        else acc) acc).2 = some i → (m.slot i).inUse = true ∧
          (m.slot i).link.operatingMode
            = OperatingMode.accessory.toUInt8 := by
    intro is
    induction is with
    | nil => exact fun _ hacc => hacc
    | cons j is ih =>
        intro acc hacc
        refine ih _ ?_
        intro i hi
        dsimp only at hi
        by_cases hmode : (m.slot j).link.operatingMode
            ≠ OperatingMode.accessory.toUInt8
        · rw [if_pos hmode] at hi
          exact hacc i hi
        · rw [if_neg hmode] at hi
          by_cases holder : (m.slot j).inUse = true ∧
              (m.slot j).link.secondsSinceInit ≥ acc.1
          · rw [if_pos holder] at hi
            injection hi with hi
            rw [← hi]
            exact ⟨holder.1, not_not.mp hmode⟩
          · rw [if_neg holder] at hi
            exact hacc i hi
  exact hloop _ _ (fun _ hi => by cases hi) i h

/-- A link is refused and nothing happens, or it is pending. Then there was
room, or a link was deleted for it: the one to the same device, or, in a full
table, one where this device is the accessory. -/
theorem createLink_cases (m : LinkManager max) (id : NxId)
    (mode : OperatingMode) (securityMode : UInt8) (data : SecurityMode0Data) :
    m.createLink id mode securityMode data = (false, m) ∨
    (m.pendingAddLink = false ∧ (∀ j, (m.slot j).inUse = true →
        (m.slot j).link.linkedDeviceId ≠ id) ∧
      m.linkCount.toNat ≠ max.count ∧
      m.createLink id mode securityMode data
        = (true, m.setPendingLink id mode securityMode data)) ∨
    ∃ i, m.pendingAddLink = false ∧ (m.slot i).inUse = true ∧
      ((m.slot i).link.linkedDeviceId = id ∨
        (∀ j, (m.slot j).inUse = true →
          (m.slot j).link.linkedDeviceId ≠ id) ∧
        m.linkCount.toNat = max.count ∧ mode = .accessory ∧
        (m.slot i).link.operatingMode = OperatingMode.accessory.toUInt8) ∧
      m.createLink id mode securityMode data
        = (true, (m.clearLinkInternal i).setPendingLink id mode securityMode
          data) := by
  unfold createLink
  cases hpending : m.pendingAddLink with
  | true => exact .inl (if_pos rfl)
  | false =>
      simp only [Bool.false_eq_true, if_false, true_and]
      cases hfind : m.linkIndexFromNxid id with
      | some i =>
          obtain ⟨huse, hid⟩ := of_linkIndexFromNxid hfind
          exact .inr (.inr ⟨i, huse, .inl hid, rfl⟩)
      | none =>
          have hnone := linkIndexFromNxid_eq_none.mp hfind
          dsimp only
          by_cases hfull : m.linkCount.toNat = max.count
          · rw [if_pos hfull]
            by_cases hmode : mode ≠ .accessory
            · exact .inl (if_pos hmode)
            · rw [if_neg hmode]
              cases holdest : m.oldestAccessoryLinkIdx with
              | none => exact .inl rfl
              | some i =>
                  obtain ⟨huse, hrole⟩ := of_oldestAccessoryLinkIdx holdest
                  exact .inr (.inr ⟨i, huse, .inr ⟨hnone, hfull,
                    not_not.mp hmode, hrole⟩, rfl⟩)
          · exact .inr (.inl ⟨hnone, hfull, if_neg hfull⟩)

theorem card_processLinks_le (m : LinkManager max) (secondsElapsed : UInt32) :
    (m.processLinks secondsElapsed).inUseSlots.card ≤ m.inUseSlots.card := by
  apply Finset.card_le_card
  intro i hi
  rw [mem_inUseSlots] at hi ⊢
  have hkeeps := @Cell.keeps_process _ i (m.cell i) secondsElapsed
  rw [← m.cell_processLinks i secondsElapsed] at hkeeps
  exact (hkeeps hi).1

/-- With room for it, the pending link is there after the next `process`. -/
theorem process_added {m : LinkManager max}
    (hpending : m.pendingAddLink = true)
    (hroom : m.inUseSlots.card < max.count) (secondsElapsed : UInt32) :
    ∃ i, ((m.process secondsElapsed).slot i).inUse = true ∧
      ((m.process secondsElapsed).slot i).link = m.pendingLinkToCreate := by
  have hlink : (m.processLinks secondsElapsed).pendingLinkToCreate
      = m.pendingLinkToCreate :=
    congrArg (fun w => w.2.1) (m.waiting_processLinks secondsElapsed)
  obtain ⟨j, hfree⟩ := exists_free
    ((m.card_processLinks_le secondsElapsed).trans_lt hroom)
  rcases m.process_cases secondsElapsed with
    ⟨-, heq⟩ | ⟨hcalm, -⟩ | ⟨hcalm, -⟩
  · obtain ⟨-, ⟨hall, -⟩ | ⟨i, -, hcell, -⟩⟩ :=
      (m.processLinks secondsElapsed).addPendingLink_cases
    · rw [hall j] at hfree
      cases hfree
    · have hslot := congrArg Cell.slot hcell
      refine ⟨i, ?_, ?_⟩
      · rw [heq]
        exact congrArg Slot.inUse hslot
      · rw [heq, ← hlink]
        exact congrArg Slot.link hslot
  · rw [hpending] at hcalm
    cases hcalm
  · rw [hpending] at hcalm
    cases hcalm

end LinkManager

/-! ## The invariant -/

/-- What holds of the table between two operations. -/
structure Tabled (m : LinkManager max) : Prop where
  consistent : Consistent m
  counted : m.Counted
  mirrored : ∀ i, (m.cell i).Mirrored i
  room : m.pendingAddLink = true → m.inUseSlots.card < max.count
  valid : m.pendingAddLink = true → m.pendingLinkToCreate.Valid

/-- What happens to a link table. -/
inductive TableOp
  | init
  | createLink (id : NxId) (mode : OperatingMode) (securityMode : UInt8)
      (data : SecurityMode0Data)
  | clearAllLinks
  | process (secondsElapsed : UInt32)
  | setNonce (id : NxId) (newNonce : UInt32)
  | resetActive (id : NxId)
deriving DecidableEq

/-- The devices have ids. -/
def TableOp.Admissible : TableOp → Prop
  | createLink id _ _ _ => id.deviceId ≠ 0
  | _ => True

def tableStep (m : LinkManager max) : TableOp → LinkManager max
  | .init => LinkManager.init max m.nv
  | .createLink id mode securityMode data =>
      (m.createLink id mode securityMode data).2
  | .clearAllLinks => m.clearAllLinks
  | .process secondsElapsed => m.process secondsElapsed
  | .setNonce id newNonce => (m.setSecurityDataAuthNonce id newNonce).2
  | .resetActive id => (m.resetLinkSecsSinceActive id).2

namespace Tabled

variable {m : LinkManager max}

theorem mirrored_clearLinkInternal (h : ∀ j, (m.cell j).Mirrored j)
    (i j : Fin max.count) : ((m.clearLinkInternal i).cell j).Mirrored j := by
  by_cases hj : j = i
  · subst hj
    rw [m.cell_clearLinkInternal_self]
    exact (h j).clear
  · rw [m.cell_clearLinkInternal_of_ne i hj]
    exact h j

theorem processLinks (h : Tabled m) (secondsElapsed : UInt32) :
    Tabled (m.processLinks secondsElapsed) := by
  have hwaiting := m.waiting_processLinks secondsElapsed
  have hadd : (m.processLinks secondsElapsed).pendingAddLink
      = m.pendingAddLink := congrArg Prod.fst hwaiting
  have hlink : (m.processLinks secondsElapsed).pendingLinkToCreate
      = m.pendingLinkToCreate := congrArg (fun w => w.2.1) hwaiting
  refine ⟨h.consistent.processLinks secondsElapsed,
    h.counted.processLinks secondsElapsed, fun i => ?_, fun hp => ?_,
    fun hp => ?_⟩
  · rw [LinkManager.processLinks, m.cell_processLinks i secondsElapsed]
    exact (h.mirrored i).process secondsElapsed
  · rw [hadd] at hp
    exact (m.card_processLinks_le secondsElapsed).trans_lt (h.room hp)
  · rw [hadd] at hp
    rw [hlink]
    exact h.valid hp

theorem clearLinksInternal (h : Tabled m)
    (hcalm : m.pendingAddLink = false) :
    Tabled { m.clearLinksInternal with pendingClearAllLinks := false } := by
  have hconsistent := h.consistent.clearLinksInternal
  have hcalm' : m.clearLinksInternal.pendingAddLink = false :=
    (congrArg Prod.fst m.waiting_clearLinksInternal).trans hcalm
  refine ⟨⟨hconsistent.backed, hconsistent.distinct, hconsistent.pending⟩,
    h.counted.clearLinksInternal, fun i => ?_, fun hp => ?_, fun hp => ?_⟩
  · have hcell : LinkManager.cell { m.clearLinksInternal with
        pendingClearAllLinks := false } i = m.clearLinksInternal.cell i := rfl
    rw [hcell, m.cell_clearLinksInternal]
    exact (h.mirrored i).clear
  · have hp' : m.clearLinksInternal.pendingAddLink = true := hp
    rw [hcalm'] at hp'
    cases hp'
  · have hp' : m.clearLinksInternal.pendingAddLink = true := hp
    rw [hcalm'] at hp'
    cases hp'

/-- The pending link is put into a free slot and written. -/
theorem addPendingLink (h : Tabled m) (hpending : m.pendingAddLink = true) :
    Tabled m.addPendingLink := by
  obtain ⟨j, hfree⟩ := LinkManager.exists_free (h.room hpending)
  obtain ⟨hnone, ⟨hall, -⟩ | ⟨i, -, hcell, hother⟩⟩ := m.addPendingLink_cases
  · rw [hall j] at hfree
    cases hfree
  · refine ⟨h.consistent.addPendingLink hpending, h.counted.addPendingLink,
      fun k => ?_, fun hp => ?_, fun hp => ?_⟩
    · by_cases hk : k = i
      · subst hk
        rw [hcell]
        exact @Cell.Sound.mirrored_persist _ k ⟨{ m.slot k with
          inUse := true, link := m.pendingLinkToCreate }, (m.cell k).block⟩
          (h.mirrored k).sound rfl (h.valid hpending)
      · rw [hother k hk]
        exact h.mirrored k
    · rw [hnone] at hp
      cases hp
    · rw [hnone] at hp
      cases hp

theorem process (h : Tabled m) (secondsElapsed : UInt32) :
    Tabled (m.process secondsElapsed) := by
  have haged := h.processLinks secondsElapsed
  have hwaiting := m.waiting_processLinks secondsElapsed
  rcases m.process_cases secondsElapsed with
    ⟨hadd, heq⟩ | ⟨hcalm, -, heq⟩ | ⟨-, -, heq⟩
  · rw [heq]
    exact haged.addPendingLink ((congrArg Prod.fst hwaiting).trans hadd)
  · rw [heq]
    exact haged.clearLinksInternal ((congrArg Prod.fst hwaiting).trans hcalm)
  · rw [heq]
    exact haged

/-- A restart loads what is stored, and nothing is pending. -/
theorem init (h : Tabled m) : Tabled (LinkManager.init max m.nv) := by
  have hcalm := @LinkManager.pendingAddLink_init max m.nv
  refine ⟨h.consistent.init, LinkManager.counted_init m.nv, fun i => ?_,
    fun hp => ?_, fun hp => ?_⟩
  · rw [LinkManager.cell_init]
    exact (h.mirrored i).load
  · rw [hcalm] at hp
    cases hp
  · rw [hcalm] at hp
    cases hp

/-- So does the first start. -/
theorem init_factory {nv : Store}
    (h : ∀ i : Fin max.count, FactoryBlock (nv (indexToNvBlock i).blockId)) :
    Tabled (LinkManager.init max nv) := by
  have hcalm := @LinkManager.pendingAddLink_init max nv
  have hstored : ∀ i : Fin max.count,
      Cell.stored i ⟨Slot.zero, nv (indexToNvBlock i).blockId⟩ = none :=
    fun i => Cell.stored_factory (h i) _
  refine ⟨Consistent.init_blank fun i => ?_, LinkManager.counted_init nv,
    fun i => ?_, fun hp => ?_, fun hp => ?_⟩
  · exact Option.map_eq_none_iff.mp (hstored i)
  · rw [LinkManager.cell_init]
    refine Cell.Sound.mirrored_load (.inl (h i)) fun l hl => ?_
    rw [hstored i] at hl
    cases hl
  · rw [hcalm] at hp
    cases hp
  · rw [hcalm] at hp
    cases hp

theorem clearAllLinks (h : Tabled m) : Tabled m.clearAllLinks :=
  ⟨⟨h.consistent.backed, h.consistent.distinct, h.consistent.pending⟩,
    h.counted, h.mirrored, h.room, h.valid⟩

theorem createLink (h : Tabled m) {id : NxId} (hid : id.deviceId ≠ 0)
    (mode : OperatingMode) (securityMode : UInt8) (data : SecurityMode0Data) :
    Tabled (m.createLink id mode securityMode data).2 := by
  have hconsistent := h.consistent.createLink id mode securityMode data
  have hvalid : ({ Link.zero with
      operatingMode := mode.toUInt8
      securityMode := securityMode
      linkedDeviceId := id
      securityData := data } : Link).Valid :=
    ⟨hid, mode.toUInt8_ne⟩
  rcases m.createLink_cases id mode securityMode data with
    heq | ⟨-, -, hroom, heq⟩ | ⟨i, -, huse, -, heq⟩
  · rw [heq]
    exact h
  · rw [heq] at hconsistent ⊢
    refine ⟨hconsistent, h.counted, h.mirrored, fun _ => ?_, fun _ => hvalid⟩
    have hcounted : m.linkCount.toNat = m.inUseSlots.card := h.counted
    rw [hcounted] at hroom
    exact Nat.lt_of_le_of_ne m.card_inUseSlots_le hroom
  · rw [heq] at hconsistent ⊢
    refine ⟨hconsistent, h.counted.clearLinkInternal i,
      mirrored_clearLinkInternal h.mirrored i, fun _ => ?_, fun _ => hvalid⟩
    exact LinkManager.card_lt_of_free (m.clearLinkInternal_free i)

/-- The ages, the nonce or the flag of a slot in use change. -/
theorem setSlot (h : Tabled m) {i : Fin max.count} {s : Slot}
    (huse : (m.slot i).inUse = true) (huse' : s.inUse = true)
    (hlink : (m.slot i).link.Matches s.link) : Tabled (m.setSlot i s) := by
  have hsame : ∀ j, ((m.setSlot i s).slot j).inUse = (m.slot j).inUse :=
    LinkManager.inUse_setSlot (huse'.trans huse.symm)
  refine ⟨h.consistent.setSlot (huse'.trans huse.symm)
    hlink.linkedDeviceId.symm hlink.securityMode.symm,
    h.counted.congr hsame rfl, fun j => ?_, fun hp => ?_, h.valid⟩
  · by_cases hj : j = i
    · subst hj
      rw [m.cell_setSlot_self]
      exact (h.mirrored j).setLink huse huse' hlink
    · rw [m.cell_setSlot_of_ne i s hj]
      exact h.mirrored j
  · rw [LinkManager.inUseSlots_congr hsame]
    exact h.room hp

theorem setNonce (h : Tabled m) (id : NxId) (newNonce : UInt32) :
    Tabled (m.setSecurityDataAuthNonce id newNonce).2 := by
  unfold LinkManager.setSecurityDataAuthNonce
  cases hfind : m.linkIndexFromNxid id with
  | none => exact h
  | some i =>
      have huse := (LinkManager.of_linkIndexFromNxid hfind).1
      dsimp only
      split
      · exact h
      · exact h.setSlot huse huse ⟨rfl, rfl, rfl, rfl⟩

theorem resetActive (h : Tabled m) (id : NxId) :
    Tabled (m.resetLinkSecsSinceActive id).2 := by
  unfold LinkManager.resetLinkSecsSinceActive
  cases hfind : m.linkIndexFromNxid id with
  | none => exact h
  | some i =>
      have huse := (LinkManager.of_linkIndexFromNxid hfind).1
      exact h.setSlot huse huse ⟨rfl, rfl, rfl, rfl⟩

theorem step (h : Tabled m) {op : TableOp} (hop : op.Admissible) :
    Tabled (tableStep m op) := by
  cases op with
  | init => exact h.init
  | createLink id mode securityMode data =>
      exact h.createLink hop mode securityMode data
  | clearAllLinks => exact h.clearAllLinks
  | process secondsElapsed => exact h.process secondsElapsed
  | setNonce id newNonce => exact h.setNonce id newNonce
  | resetActive id => exact h.resetActive id

end Tabled

/-! ## Every reachable table -/

/-- What the table promises. -/
structure LinkTable (m : LinkManager max) : Prop where
  count : m.linkCount.toNat = m.inUseSlots.card
  count_le : m.linkCount.toNat ≤ max.count
  distinct : ∀ i j : Fin max.count, (m.slot i).inUse = true →
    (m.slot j).inUse = true →
    (m.slot i).link.linkedDeviceId = (m.slot j).link.linkedDeviceId → i = j
  zero : ∀ i, (m.slot i).inUse = false → (m.slot i).link = Link.zero
  stored : ∀ i, (m.slot i).inUse = true →
    ∃ bytes, nvRead m.nv (indexToNvBlock i) = some bytes ∧
      (Link.ofBytes bytes).Matches (m.slot i).link
  blank : ∀ i, (m.slot i).inUse = false →
    ∀ bytes, nvRead m.nv (indexToNvBlock i) = some bytes →
      (Link.ofBytes bytes).linkedDeviceId.deviceId = 0
  added : m.pendingAddLink = true → ∀ secondsElapsed,
    ∃ i, ((m.process secondsElapsed).slot i).inUse = true ∧
      ((m.process secondsElapsed).slot i).link = m.pendingLinkToCreate
  refused : ∀ id mode securityMode data,
    (m.createLink id mode securityMode data).1 = false →
      (m.createLink id mode securityMode data).2 = m

theorem Tabled.linkTable {m : LinkManager max} (h : Tabled m) :
    LinkTable m where
  count := h.counted
  count_le := by
    have hcounted : m.linkCount.toNat = m.inUseSlots.card := h.counted
    rw [hcounted]
    exact m.card_inUseSlots_le
  distinct := h.consistent.distinct
  zero i hfree := ((h.mirrored i).free hfree).1
  stored i huse := by
    obtain ⟨-, l, hstored, hmatches⟩ := (h.mirrored i).used huse
    obtain ⟨bytes, hread, rfl⟩ := Option.map_eq_some_iff.mp hstored
    exact ⟨bytes, hread, hmatches⟩
  blank i hfree bytes hread := by
    refine ((h.mirrored i).free hfree).2 (Link.ofBytes bytes) ?_
    exact Option.map_eq_some_iff.mpr ⟨bytes, hread, rfl⟩
  added hpending := LinkManager.process_added hpending (h.room hpending)
  refused id mode securityMode data hrefused := by
    rcases m.createLink_cases id mode securityMode data with
      heq | ⟨-, -, -, heq⟩ | ⟨i, -, -, -, heq⟩
    · rw [heq]
    · rw [heq] at hrefused
      cases hrefused
    · rw [heq] at hrefused
      cases hrefused

/-- Every state a device gets into that began without links, by whatever
sequence of operations and restarts. -/
theorem link_table_reachable {nv : Store}
    (hfactory : ∀ i : Fin max.count,
      FactoryBlock (nv (indexToNvBlock i).blockId)) {ops : List TableOp}
    (hops : ∀ op ∈ ops, op.Admissible) :
    LinkTable (run tableStep (LinkManager.init max nv) ops) := by
  exact (run_invariant (fun _ _ h hop => h.step hop)
    (Tabled.init_factory hfactory) (along_of_forall hops)).linkTable

/-- Two links are made, and one of them is there. -/
theorem link_table_reachable_two :
    LinkTable (run tableStep (LinkManager.init ⟨2, by decide, by decide⟩
      fun _ => none)
      [.createLink ⟨0, 7⟩ .accessory 0 ⟨integrityCheckFixedFFKey, 0⟩,
        .process 5,
        .createLink ⟨0, 8⟩ .controller 0 ⟨integrityCheckFixed00Key, 0⟩]) := by
  refine link_table_reachable (fun _ => .inl rfl) fun op hop => ?_
  simp only [List.mem_cons, List.not_mem_nil, or_false] at hop
  rcases hop with rfl | rfl | rfl
  · exact (by decide : (7 : UInt32) ≠ 0)
  · trivial
  · exact (by decide : (8 : UInt32) ≠ 0)

end Nexus.Channel
