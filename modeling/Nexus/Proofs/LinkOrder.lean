import Nexus.Proofs.LinkTable

/-!
# Requests and their order

Clearing all links and creating one are only noted when they are asked for, and
the next calls of `process` do them. What a client may expect is said by a
table without delay: a collection of links to which each request is applied at
once, in the order of the calls.

The two agree as long as no link is created while a request to clear is still
waiting. `process` adds before it clears, and clears only when there is nothing
to add, so a link that was asked for after the clearing is made before it and
then goes with the others.
-/

namespace Nexus.Channel

open Nexus.Util Nexus.Nv Nexus.Lib

variable {max : MaxLinks}

/-! ## The table without delay -/

/-- A link, without its ages and its nonce. -/
structure LinkData where
  linkedDeviceId : NxId
  operatingMode : UInt8
  securityMode : UInt8
  symKey : CheckKey
deriving DecidableEq

def Link.data (l : Link) : LinkData :=
  ⟨l.linkedDeviceId, l.operatingMode, l.securityMode, l.securityData.symKey⟩

/-- What a client asks for, and the links that time out. -/
inductive TableEvent
  | clearAll
  | create (link : LinkData)
  | expire (ids : Finset NxId)
deriving DecidableEq

/-- One event, done at once. A new link replaces the one to the same device;
for a link in the role of an accessory a full table gives up another one of
that role. -/
inductive Executes (capacity : ℕ) :
    Finset LinkData → TableEvent → Finset LinkData → Prop
  | clearAll {links : Finset LinkData} : Executes capacity links .clearAll ∅
  | relink {links : Finset LinkData} {link old : LinkData} (hmem : old ∈ links)
      (hid : old.linkedDeviceId = link.linkedDeviceId) :
      Executes capacity links (.create link) (insert link (links.erase old))
  | evict {links : Finset LinkData} {link old : LinkData}
      (hnew : ∀ l ∈ links, l.linkedDeviceId ≠ link.linkedDeviceId)
      (hfull : links.card = capacity)
      (hrole : link.operatingMode = OperatingMode.accessory.toUInt8)
      (hmem : old ∈ links)
      (hold : old.operatingMode = OperatingMode.accessory.toUInt8) :
      Executes capacity links (.create link) (insert link (links.erase old))
  | add {links : Finset LinkData} {link : LinkData}
      (hnew : ∀ l ∈ links, l.linkedDeviceId ≠ link.linkedDeviceId)
      (hroom : links.card < capacity) :
      Executes capacity links (.create link) (insert link links)
  | expire {links : Finset LinkData} {ids : Finset NxId} :
      Executes capacity links (.expire ids)
        (links.filter fun l => l.linkedDeviceId ∉ ids)

/-- The events of a run, one after another. -/
inductive InOrder (capacity : ℕ) :
    Finset LinkData → List TableEvent → Finset LinkData → Prop
  | nil {links : Finset LinkData} : InOrder capacity links [] links
  | cons {links links' links'' : Finset LinkData} {e : TableEvent}
      {es : List TableEvent} (h : Executes capacity links e links')
      (hrest : InOrder capacity links' es links'') :
      InOrder capacity links (e :: es) links''

/-- A link that was created is there. -/
theorem Executes.mem_of_create {capacity : ℕ} {links links' : Finset LinkData}
    {link : LinkData} (h : Executes capacity links (.create link) links') :
    link ∈ links' := by
  cases h with
  | relink hmem hid => exact Finset.mem_insert_self _ _
  | evict hnew hfull hrole hmem hold => exact Finset.mem_insert_self _ _
  | add hnew hroom => exact Finset.mem_insert_self _ _

theorem Executes.eq_of_expire_empty {capacity : ℕ}
    {links links' : Finset LinkData}
    (h : Executes capacity links (.expire ∅) links') : links' = links := by
  cases h with
  | expire => simp

/-! ## The links of a table -/

namespace LinkManager

variable (m : LinkManager max)

/-- The links that are there. -/
def present : Finset LinkData :=
  m.inUseSlots.image fun i => (m.slot i).link.data

theorem mem_present {link : LinkData} :
    link ∈ m.present ↔
      ∃ i, (m.slot i).inUse = true ∧ (m.slot i).link.data = link := by
  simp [present]

/-- The time of the link in a slot is up. -/
def TimesOut (secondsElapsed : UInt32) (i : Fin max.count) : Prop :=
  (m.slot i).inUse = true ∧
    (m.slot i).link.secondsSinceActive + secondsElapsed > linkTimeoutSeconds

instance (secondsElapsed : UInt32) (i : Fin max.count) :
    Decidable (m.TimesOut secondsElapsed i) :=
  inferInstanceAs (Decidable (_ ∧ _))

/-- The devices whose links time out in a call of `process`. -/
def timedOut (secondsElapsed : UInt32) : Finset NxId :=
  (Finset.univ.filter fun i => m.TimesOut secondsElapsed i).image fun i =>
    (m.slot i).link.linkedDeviceId

theorem mem_timedOut {secondsElapsed : UInt32} {id : NxId} :
    id ∈ m.timedOut secondsElapsed ↔ ∃ i, m.TimesOut secondsElapsed i ∧
      (m.slot i).link.linkedDeviceId = id := by
  simp [timedOut]

variable {m} {m' : LinkManager max}

theorem present_congr
    (h : ∀ i, (m'.slot i).inUse = (m.slot i).inUse ∧
      ((m.slot i).inUse = true → (m'.slot i).link.data
        = (m.slot i).link.data)) : m'.present = m.present := by
  ext link
  rw [mem_present, mem_present]
  constructor
  · rintro ⟨i, huse, hdata⟩
    have huse' := (h i).1.symm.trans huse
    exact ⟨i, huse', ((h i).2 huse').symm.trans hdata⟩
  · rintro ⟨i, huse, hdata⟩
    exact ⟨i, (h i).1.trans huse, ((h i).2 huse).trans hdata⟩

/-- One more link. -/
theorem present_add {i : Fin max.count} (hfree : (m.slot i).inUse = false)
    (huse : (m'.slot i).inUse = true)
    (hother : ∀ j, j ≠ i → m'.slot j = m.slot j) :
    m'.present = insert (m'.slot i).link.data m.present := by
  ext link
  rw [Finset.mem_insert, mem_present, mem_present]
  constructor
  · rintro ⟨j, hj, hdata⟩
    by_cases hji : j = i
    · rw [hji] at hdata
      exact .inl hdata.symm
    · rw [hother j hji] at hj hdata
      exact .inr ⟨j, hj, hdata⟩
  · rintro (rfl | ⟨j, hj, hdata⟩)
    · exact ⟨i, huse, rfl⟩
    · have hji : j ≠ i := by
        rintro rfl
        rw [hfree] at hj
        cases hj
      exact ⟨j, by rw [hother j hji]; exact hj,
        by rw [hother j hji]; exact hdata⟩

/-- One link less, where no two links are to the same device. -/
theorem present_remove (h : Consistent m) {i : Fin max.count}
    (huse : (m.slot i).inUse = true) (hfree : (m'.slot i).inUse = false)
    (hother : ∀ j, j ≠ i → m'.slot j = m.slot j) :
    m'.present = m.present.erase (m.slot i).link.data := by
  ext link
  rw [Finset.mem_erase, mem_present, mem_present]
  constructor
  · rintro ⟨j, hj, hdata⟩
    have hji : j ≠ i := by
      rintro rfl
      rw [hfree] at hj
      cases hj
    rw [hother j hji] at hj hdata
    refine ⟨fun heq => hji (h.distinct j i hj huse ?_), j, hj, hdata⟩
    exact congrArg LinkData.linkedDeviceId (hdata.trans heq)
  · rintro ⟨hne, j, hj, hdata⟩
    have hji : j ≠ i := by
      rintro rfl
      exact hne hdata.symm
    exact ⟨j, by rw [hother j hji]; exact hj,
      by rw [hother j hji]; exact hdata⟩

theorem card_present (h : Consistent m) :
    m.present.card = m.inUseSlots.card := by
  apply Finset.card_image_of_injOn
  intro i hi j hj hdata
  exact h.distinct i j (m.mem_inUseSlots.mp hi) (m.mem_inUseSlots.mp hj)
    (congrArg LinkData.linkedDeviceId hdata)

/-- A slot after its round: in use if it was and its time is not up. -/
theorem slot_processLinks (secondsElapsed : UInt32) (i : Fin max.count) :
    (m.TimesOut secondsElapsed i ∧
      ((m.processLinks secondsElapsed).slot i).inUse = false) ∨
    (¬ m.TimesOut secondsElapsed i ∧
      ((m.processLinks secondsElapsed).slot i).inUse = (m.slot i).inUse ∧
      ((m.processLinks secondsElapsed).slot i).link.data
        = (m.slot i).link.data) := by
  have hcell : (m.processLinks secondsElapsed).slot i
      = (Cell.process i secondsElapsed ⟨m.slot i, (m.cell i).block⟩).slot :=
    congrArg Cell.slot (m.cell_processLinks i secondsElapsed)
  rw [hcell]
  unfold Cell.process
  by_cases hfree : (m.slot i).inUse = false
  · have hnot : ¬ m.TimesOut secondsElapsed i := by
      rintro ⟨huse, -⟩
      rw [hfree] at huse
      cases huse
    exact .inr ⟨hnot, by simp only [if_pos hfree, and_self]⟩
  · have huse : (m.slot i).inUse = true := Bool.not_eq_false _ ▸ hfree
    simp only [if_neg hfree]
    by_cases hlate : (Cell.aged secondsElapsed
        (m.slot i).link).secondsSinceActive > linkTimeoutSeconds
    · rw [if_pos hlate]
      refine .inl ⟨⟨huse, hlate⟩, ?_⟩
      exact Bool.eq_false_iff.mpr Cell.clear_inUse
    · rw [if_neg hlate]
      have hnot : ¬ m.TimesOut secondsElapsed i := fun h => hlate h.2
      refine .inr ⟨hnot, ?_⟩
      split
      · exact ⟨rfl, rfl⟩
      · exact ⟨rfl, rfl⟩

/-- The links that time out are gone, the others are there. -/
theorem present_processLinks (h : Consistent m) (secondsElapsed : UInt32) :
    (m.processLinks secondsElapsed).present
      = m.present.filter fun l =>
        l.linkedDeviceId ∉ m.timedOut secondsElapsed := by
  ext link
  rw [Finset.mem_filter, mem_present, mem_present, mem_timedOut]
  constructor
  · rintro ⟨i, huse, hdata⟩
    rcases m.slot_processLinks secondsElapsed i with
      ⟨-, hgone⟩ | ⟨hnot, hsame, hlink⟩
    · rw [hgone] at huse
      cases huse
    · have huse' := hsame.symm.trans huse
      have hdata' := hlink.symm.trans hdata
      refine ⟨⟨i, huse', hdata'⟩, ?_⟩
      rintro ⟨j, hlate, hid⟩
      rw [← hdata'] at hid
      rw [h.distinct j i hlate.1 huse' hid] at hlate
      exact hnot hlate
  · rintro ⟨⟨i, huse, hdata⟩, hnot⟩
    rcases m.slot_processLinks secondsElapsed i with
      ⟨hlate, -⟩ | ⟨-, hsame, hlink⟩
    · exact absurd ⟨i, hlate, congrArg LinkData.linkedDeviceId hdata⟩ hnot
    · exact ⟨i, hsame.trans huse, hlink.trans hdata⟩

theorem present_clearLinkInternal (h : Consistent m) {i : Fin max.count}
    (huse : (m.slot i).inUse = true) :
    (m.clearLinkInternal i).present
      = m.present.erase (m.slot i).link.data := by
  refine present_remove h huse ?_ fun j hj =>
    slot_eq_of_cell (m.cell_clearLinkInternal_of_ne i hj)
  have hcell := congrArg (fun c => c.slot.inUse)
    (m.cell_clearLinkInternal_self i)
  exact hcell.trans (Bool.eq_false_iff.mpr Cell.clear_inUse)

theorem present_clearLinksInternal : m.clearLinksInternal.present = ∅ := by
  ext link
  rw [mem_present]
  simp only [Finset.notMem_empty, iff_false]
  rintro ⟨i, huse, -⟩
  have hcell := congrArg (fun c => c.slot.inUse) (m.cell_clearLinksInternal i)
  exact Cell.clear_inUse (hcell.symm.trans huse)

theorem present_addPendingLink (hroom : m.inUseSlots.card < max.count) :
    m.addPendingLink.present
      = insert m.pendingLinkToCreate.data m.present := by
  obtain ⟨j, hfree⟩ := exists_free hroom
  obtain ⟨-, ⟨hall, -⟩ | ⟨i, hfree, hcell, hother⟩⟩ := m.addPendingLink_cases
  · rw [hall j] at hfree
    cases hfree
  · have hslot : m.addPendingLink.slot i
        = { m.slot i with inUse := true, link := m.pendingLinkToCreate } :=
      congrArg Cell.slot hcell
    rw [present_add hfree (by rw [hslot])
      fun j hj => slot_eq_of_cell (hother j hj), hslot]

theorem pendingClearAllLinks_addPendingLink (m : LinkManager max) :
    m.addPendingLink.pendingClearAllLinks = m.pendingClearAllLinks := by
  unfold addPendingLink
  split <;> rfl

end LinkManager

/-! ## The agreement -/

open LinkManager

/-- A request that was accepted, or the links that time out. -/
def tableEvent (m : LinkManager max) : TableOp → Option TableEvent
  | .createLink id mode securityMode data =>
      if (m.createLink id mode securityMode data).1 then
        some (.create ⟨id, mode.toUInt8, securityMode, data.symKey⟩)
      else none
  | .clearAllLinks => some .clearAll
  | .process secondsElapsed => some (.expire (m.timedOut secondsElapsed))
  | _ => none

/-- The links of the table without delay, as far as this table goes: what waits
is done already. -/
def promised (m : LinkManager max) : Finset LinkData :=
  if m.pendingClearAllLinks then ∅
  else if m.pendingAddLink then insert m.pendingLinkToCreate.data m.present
  else m.present

/-- No link is created while a request to clear waits. -/
def InTurn (m : LinkManager max) : TableOp → Prop
  | .createLink id mode securityMode data =>
      (m.createLink id mode securityMode data).1 = true →
        m.pendingClearAllLinks = false
  | _ => True

theorem promised_of_clear {m : LinkManager max}
    (h : m.pendingClearAllLinks = true) : promised m = ∅ := by
  unfold promised
  rw [if_pos h]

theorem promised_of_add {m : LinkManager max}
    (hclear : m.pendingClearAllLinks = false)
    (hadd : m.pendingAddLink = true) :
    promised m = insert m.pendingLinkToCreate.data m.present := by
  unfold promised
  rw [if_neg (by rw [hclear]; decide), if_pos hadd]

theorem promised_of_calm {m : LinkManager max}
    (hclear : m.pendingClearAllLinks = false)
    (hadd : m.pendingAddLink = false) : promised m = m.present := by
  unfold promised
  rw [if_neg (by rw [hclear]; decide), if_neg (by rw [hadd]; decide)]

theorem executes_process {m : LinkManager max} (h : Tabled m)
    (secondsElapsed : UInt32) :
    Executes max.count (promised m) (.expire (m.timedOut secondsElapsed))
      (promised (m.process secondsElapsed)) := by
  have haged := h.processLinks secondsElapsed
  have hwaiting := m.waiting_processLinks secondsElapsed
  have hpresent := present_processLinks h.consistent secondsElapsed
  have hclear : (m.processLinks secondsElapsed).pendingClearAllLinks
      = m.pendingClearAllLinks := congrArg (fun w => w.2.2) hwaiting
  suffices heq : promised (m.process secondsElapsed)
      = (promised m).filter fun l =>
        l.linkedDeviceId ∉ m.timedOut secondsElapsed by
    rw [heq]
    exact .expire
  rcases m.process_cases secondsElapsed with
    ⟨hadd, heq⟩ | ⟨hcalm, hpending, heq⟩ | ⟨hcalm, hquiet, heq⟩
  · rw [heq]
    have hkept :=
      (pendingClearAllLinks_addPendingLink
        (m.processLinks secondsElapsed)).trans hclear
    cases hpending : m.pendingClearAllLinks with
    | true =>
        rw [promised_of_clear hpending,
          promised_of_clear (hkept.trans hpending), Finset.filter_empty]
    | false =>
        have hadd' := (congrArg Prod.fst hwaiting).trans hadd
        have hlink : (m.processLinks secondsElapsed).pendingLinkToCreate
            = m.pendingLinkToCreate := congrArg (fun w => w.2.1) hwaiting
        have hnew : m.pendingLinkToCreate.data.linkedDeviceId
            ∉ m.timedOut secondsElapsed := by
          rw [mem_timedOut]
          rintro ⟨i, hlate, hid⟩
          exact h.consistent.pending hadd i hlate.1 hid
        rw [promised_of_add hpending hadd,
          promised_of_calm (hkept.trans hpending) (addPendingLink_cases _).1,
          present_addPendingLink (haged.room hadd'), hpresent, hlink,
          Finset.filter_insert, if_pos hnew]
  · have hcalm' : (m.processLinks
        secondsElapsed).clearLinksInternal.pendingAddLink = false :=
      (congrArg Prod.fst (waiting_clearLinksInternal _)).trans
        ((congrArg Prod.fst hwaiting).trans hcalm)
    have hcleared := @promised_of_calm _
      { (m.processLinks secondsElapsed).clearLinksInternal with
        pendingClearAllLinks := false } rfl hcalm'
    rw [promised_of_clear hpending, Finset.filter_empty, heq]
    exact hcleared.trans present_clearLinksInternal
  · rw [heq, promised_of_calm hquiet hcalm,
      promised_of_calm (hclear.trans hquiet)
        ((congrArg Prod.fst hwaiting).trans hcalm), hpresent]

theorem executes_createLink {m : LinkManager max} (h : Tabled m) {id : NxId}
    {mode : OperatingMode} {securityMode : UInt8} {data : SecurityMode0Data}
    (hclear : m.pendingClearAllLinks = false)
    (haccepted : (m.createLink id mode securityMode data).1 = true) :
    Executes max.count (promised m)
      (.create ⟨id, mode.toUInt8, securityMode, data.symKey⟩)
      (promised (m.createLink id mode securityMode data).2) := by
  have hcounted : m.linkCount.toNat = m.inUseSlots.card := h.counted
  have hcard := card_present h.consistent
  rcases m.createLink_cases id mode securityMode data with
    heq | ⟨hcalm, hnone, hroom, heq⟩ | ⟨i, hcalm, huse, hwhy, heq⟩
  · rw [heq] at haccepted
    cases haccepted
  · have hnew : ∀ l ∈ m.present, l.linkedDeviceId ≠ id := by
      intro l hl
      obtain ⟨j, hj, rfl⟩ := m.mem_present.mp hl
      exact hnone j hj
    rw [heq, promised_of_calm hclear hcalm]
    have hset := @promised_of_add _
      (m.setPendingLink id mode securityMode data) hclear rfl
    rw [hset]
    refine .add hnew ?_
    rw [hcard]
    rw [hcounted] at hroom
    exact Nat.lt_of_le_of_ne m.card_inUseSlots_le hroom
  · have hclear' : (m.clearLinkInternal i).pendingClearAllLinks = false :=
      (congrArg (fun w => w.2.2) (m.waiting_clearLinkInternal i)).trans hclear
    have hset := @promised_of_add _
      ((m.clearLinkInternal i).setPendingLink id mode securityMode data)
      hclear' rfl
    have hmem : (m.slot i).link.data ∈ m.present :=
      m.mem_present.mpr ⟨i, huse, rfl⟩
    have hpresent : ((m.clearLinkInternal i).setPendingLink id mode
        securityMode data).present = m.present.erase (m.slot i).link.data :=
      present_clearLinkInternal h.consistent huse
    rw [heq, promised_of_calm hclear hcalm]
    dsimp only
    rw [hset, hpresent]
    rcases hwhy with hid | ⟨hnone, hfull, hmode, hrole⟩
    · exact .relink hmem hid
    · refine .evict (fun l hl => ?_) ?_ (by rw [hmode]) hmem hrole
      · obtain ⟨j, hj, rfl⟩ := m.mem_present.mp hl
        exact hnone j hj
      · rw [hcard, ← hcounted, hfull]

theorem promised_setSlot {m : LinkManager max} {i : Fin max.count} {s : Slot}
    (huse : (m.slot i).inUse = true) (huse' : s.inUse = true)
    (hdata : s.link.data = (m.slot i).link.data) :
    promised (m.setSlot i s) = promised m := by
  have hpresent : (m.setSlot i s).present = m.present := by
    refine present_congr fun j => ?_
    by_cases hj : j = i
    · subst hj
      have hslot : (m.setSlot j s).slot j = s :=
        congrArg Cell.slot (m.cell_setSlot_self j s)
      rw [hslot]
      exact ⟨huse'.trans huse.symm, fun _ => hdata⟩
    · rw [slot_eq_of_cell (m.cell_setSlot_of_ne i s hj)]
      exact ⟨rfl, fun _ => rfl⟩
  unfold promised
  rw [hpresent]
  rfl

/-- Each step is the step of the table without delay. -/
theorem promised_step {m : LinkManager max} (h : Tabled m) {op : TableOp}
    (hop : op ≠ .init) (hturn : InTurn m op) :
    (tableEvent m op = none ∧ promised (tableStep m op) = promised m) ∨
    ∃ e, tableEvent m op = some e ∧
      Executes max.count (promised m) e (promised (tableStep m op)) := by
  cases op with
  | init => exact absurd rfl hop
  | createLink id mode securityMode data =>
      cases hresult : (m.createLink id mode securityMode data).1 with
      | false =>
          refine .inl ⟨?_, ?_⟩
          · simp only [tableEvent, hresult, Bool.false_eq_true, if_false]
          · exact congrArg promised
              (h.linkTable.refused id mode securityMode data hresult)
      | true =>
          refine .inr ⟨_, ?_, executes_createLink h (hturn hresult) hresult⟩
          simp only [tableEvent, hresult, if_true]
  | clearAllLinks =>
      refine .inr ⟨_, rfl, ?_⟩
      have hcleared : promised (tableStep m .clearAllLinks) = ∅ :=
        promised_of_clear rfl
      rw [hcleared]
      exact .clearAll
  | process secondsElapsed =>
      exact .inr ⟨_, rfl, executes_process h secondsElapsed⟩
  | setNonce id newNonce =>
      refine .inl ⟨rfl, ?_⟩
      show promised (m.setSecurityDataAuthNonce id newNonce).2 = promised m
      unfold LinkManager.setSecurityDataAuthNonce
      cases hfind : m.linkIndexFromNxid id with
      | none => rfl
      | some i =>
          have huse := (of_linkIndexFromNxid hfind).1
          dsimp only
          split
          · rfl
          · exact promised_setSlot huse huse rfl
  | resetActive id =>
      refine .inl ⟨rfl, ?_⟩
      show promised (m.resetLinkSecsSinceActive id).2 = promised m
      unfold LinkManager.resetLinkSecsSinceActive
      cases hfind : m.linkIndexFromNxid id with
      | none => rfl
      | some i =>
          have huse := (of_linkIndexFromNxid hfind).1
          exact promised_setSlot huse huse rfl

/-- So is a run. -/
theorem inOrder_run {m : LinkManager max} (h : Tabled m) {ops : List TableOp}
    (hops : ∀ op ∈ ops, op.Admissible ∧ op ≠ .init)
    (hturn : Along tableStep InTurn m ops) :
    InOrder max.count (promised m) (events tableStep tableEvent m ops)
      (promised (run tableStep m ops)) := by
  induction ops generalizing m with
  | nil => exact .nil
  | cons op ops ih =>
      obtain ⟨hadmissible, hnoinit⟩ := hops op List.mem_cons_self
      have hrest := ih (h.step hadmissible)
        (fun op' hop' => hops op' (List.mem_cons_of_mem op hop')) hturn.2
      rw [events, run_cons]
      rcases promised_step h hnoinit hturn.1 with ⟨hnone, hsame⟩ |
        ⟨e, hsome, hexecutes⟩
      · rw [hnone, ← hsame]
        exact hrest
      · rw [hsome]
        exact .cons hexecutes hrest

/-- Two calls of `process` leave nothing waiting. -/
theorem nothing_waits (m : LinkManager max) (secondsElapsed secondsElapsed' :
    UInt32) :
    ((m.process secondsElapsed).process secondsElapsed').pendingAddLink
      = false ∧
    ((m.process secondsElapsed).process secondsElapsed').pendingClearAllLinks
      = false := by
  have hadd : ∀ (m : LinkManager max) (secondsElapsed : UInt32),
      (m.process secondsElapsed).pendingAddLink = false := by
    intro m secondsElapsed
    have hwaiting := m.waiting_processLinks secondsElapsed
    rcases m.process_cases secondsElapsed with
      ⟨-, heq⟩ | ⟨hcalm, -, heq⟩ | ⟨hcalm, -, heq⟩
    · rw [heq]
      exact (addPendingLink_cases _).1
    · rw [heq]
      exact (congrArg Prod.fst (waiting_clearLinksInternal _)).trans
        ((congrArg Prod.fst hwaiting).trans hcalm)
    · rw [heq]
      exact (congrArg Prod.fst hwaiting).trans hcalm
  refine ⟨hadd _ _, ?_⟩
  rcases (m.process secondsElapsed).process_cases secondsElapsed' with
    ⟨hpending, -⟩ | ⟨-, -, heq⟩ | ⟨-, hquiet, heq⟩
  · rw [hadd] at hpending
    cases hpending
  · rw [heq]
  · rw [heq]
    exact (congrArg (fun w => w.2.2)
      (waiting_processLinks _ secondsElapsed')).trans hquiet

/-- Whatever a device has gone through, from a state in which nothing waits:
the links after a run and two more calls of `process` are those of the table
without delay, if no link was created while a request to clear was waiting. -/
theorem requests_in_order {nv : Store}
    (hfactory : ∀ i : Fin max.count,
      FactoryBlock (nv (indexToNvBlock i).blockId)) {history : List TableOp}
    (hhistory : ∀ op ∈ history, op.Admissible) {m₀ : LinkManager max}
    (hm₀ : m₀ = run tableStep (LinkManager.init max nv) history)
    (hcalm : m₀.pendingAddLink = false ∧ m₀.pendingClearAllLinks = false)
    {ops : List TableOp} (hops : ∀ op ∈ ops, op.Admissible ∧ op ≠ .init)
    (hturn : Along tableStep InTurn m₀ ops)
    (secondsElapsed secondsElapsed' : UInt32) :
    InOrder max.count m₀.present
      (events tableStep tableEvent m₀
        (ops ++ [.process secondsElapsed, .process secondsElapsed']))
      (run tableStep m₀
        (ops ++ [.process secondsElapsed, .process secondsElapsed'])).present
    := by
  have htabled : Tabled m₀ := by
    rw [hm₀]
    exact run_invariant (fun _ _ h hop => h.step hop)
      (Tabled.init_factory hfactory) (along_of_forall hhistory)
  have hops' : ∀ op ∈ ops ++ [.process secondsElapsed,
      .process secondsElapsed'], op.Admissible ∧ op ≠ .init := by
    intro op hop
    rcases List.mem_append.mp hop with hop | hop
    · exact hops op hop
    · simp only [List.mem_cons, List.not_mem_nil, or_false] at hop
      rcases hop with rfl | rfl
      · exact ⟨trivial, by simp⟩
      · exact ⟨trivial, by simp⟩
  have hturn' : Along tableStep InTurn m₀ (ops ++ [.process secondsElapsed,
      .process secondsElapsed']) :=
    along_append.mpr ⟨hturn, trivial, trivial, trivial⟩
  have horder := inOrder_run htabled hops' hturn'
  have hquiet := nothing_waits (run tableStep m₀ ops) secondsElapsed
    secondsElapsed'
  have hend : run tableStep m₀ (ops ++ [.process secondsElapsed,
      .process secondsElapsed']) = ((run tableStep m₀ ops).process
        secondsElapsed).process secondsElapsed' := by
    rw [run_append]
    rfl
  rw [promised_of_calm hcalm.2 hcalm.1] at horder
  rw [hend] at horder ⊢
  rwa [promised_of_calm hquiet.2 hquiet.1] at horder

theorem twoFreeSlots_one_le : 1 ≤ 2 := by decide

theorem twoFreeSlots_le_ten : 2 ≤ 10 := by decide

/-- A device with two slots and no links. -/
def twoFreeSlots : LinkManager ⟨2, twoFreeSlots_one_le, twoFreeSlots_le_ten⟩ :=
  LinkManager.init _ fun _ => none

/-- A link to device 7. -/
def linkToSeven : TableOp :=
  .createLink ⟨0, 7⟩ .controller 0 ⟨integrityCheckFixedFFKey, 0⟩

/-- Created, then cleared. -/
theorem requests_in_order_cleared :
    InOrder 2 twoFreeSlots.present
      (events tableStep tableEvent twoFreeSlots
        ([linkToSeven, .clearAllLinks] ++ [.process 0, .process 0]))
      (run tableStep twoFreeSlots
        ([linkToSeven, .clearAllLinks] ++ [.process 0, .process 0])).present
    := by
  have hops : ∀ op ∈ [linkToSeven, .clearAllLinks],
      op.Admissible ∧ op ≠ .init := by
    intro op hop
    simp only [List.mem_cons, List.not_mem_nil, or_false] at hop
    rcases hop with rfl | rfl
    · exact ⟨(by decide : (7 : UInt32) ≠ 0), by decide⟩
    · exact ⟨trivial, by decide⟩
  refine @requests_in_order ⟨2, by decide, by decide⟩ (fun _ => none)
    (fun _ => .inl rfl) [] (List.forall_mem_nil _) twoFreeSlots rfl
    ⟨by decide +kernel, by decide +kernel⟩ _ hops ⟨?_, trivial, trivial⟩ 0 0
  intro _
  decide +kernel

/-- Cleared, then created: the link is made and cleared. -/
theorem created_link_is_cleared :
    (twoFreeSlots.clearAllLinks.createLink ⟨0, 7⟩ .controller 0
      ⟨integrityCheckFixedFFKey, 0⟩).1 = true ∧
    (run tableStep twoFreeSlots
      ([.clearAllLinks, linkToSeven] ++ [.process 0])).present
      = {⟨⟨0, 7⟩, 1, 0, integrityCheckFixedFFKey⟩} ∧
    (run tableStep twoFreeSlots
      ([.clearAllLinks, linkToSeven] ++ [.process 0, .process 0])).present = ∅
    ∧ ¬ InOrder 2 twoFreeSlots.present
      (events tableStep tableEvent twoFreeSlots
        ([.clearAllLinks, linkToSeven] ++ [.process 0, .process 0]))
      (run tableStep twoFreeSlots
        ([.clearAllLinks, linkToSeven] ++ [.process 0, .process 0])).present
    := by
  have hgone : (run tableStep twoFreeSlots
      ([.clearAllLinks, linkToSeven] ++ [.process 0, .process 0])).present
      = ∅ := by
    decide +kernel
  have hevents : events tableStep tableEvent twoFreeSlots
      ([.clearAllLinks, linkToSeven] ++ [.process 0, .process 0])
      = [.clearAll, .create ⟨⟨0, 7⟩, 1, 0, integrityCheckFixedFFKey⟩,
        .expire ∅, .expire ∅] := by
    decide +kernel
  refine ⟨by decide +kernel, by decide +kernel, hgone, ?_⟩
  rw [hgone, hevents]
  -- at once, the clearing leaves nothing and the link then stays
  rintro (_ | ⟨-, _ | ⟨hcreate, _ | ⟨hfirst, _ | ⟨hsecond, _ | _⟩⟩⟩⟩)
  have hmem := hcreate.mem_of_create
  rw [← hfirst.eq_of_expire_empty, ← hsecond.eq_of_expire_empty] at hmem
  exact absurd hmem (Finset.notMem_empty _)

end Nexus.Channel
