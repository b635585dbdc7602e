import Nexus.Channel.PaygCredit
import Nexus.Lib.Turns
import Nexus.Proofs.LinkTable

/-!
# One accessory after the other

Asking the link manager for the next accessory goes round the slots in which
this device is the controller. With one such slot it always finds that one;
with more, the search from behind a slot ends at the next of them. So whoever
starts at an accessory meets every accessory once and is back, and the list of
controlled devices that a GET of `/nx/pc` shows is complete and ends.
-/

namespace Nexus.Channel

open Nexus.Lib Nexus.Util

variable {max : MaxLinks} {m : LinkManager max}

namespace LinkManager

/-- In every link this device is accessory or controller. -/
def PlainRoles (m : LinkManager max) : Prop :=
  ∀ i, (m.slot i).inUse = true →
    (m.slot i).link.operatingMode = OperatingMode.accessory.toUInt8 ∨
    (m.slot i).link.operatingMode = OperatingMode.controller.toUInt8

/-- The slot has a link in which this device is the controller. -/
def controls (m : LinkManager max) (i : Fin max.count) : Bool :=
  (m.slot i).inUse
    && (m.slot i).link.operatingMode == OperatingMode.controller.toUInt8

/-- The ids of the linked accessories, slot by slot. -/
def accessoryIds (m : LinkManager max) : List NxId :=
  (marked m.controls).map fun i => (m.slot i).link.linkedDeviceId

theorem accessoryIds_length : m.accessoryIds.length
    = (marked m.controls).length := List.length_map _

theorem length_accessoryIds_le : m.accessoryIds.length ≤ 10 := by
  have hle := (List.finRange max.count).length_filter_le m.controls
  rw [List.length_finRange] at hle
  rw [accessoryIds_length]
  exact hle.trans max.le_ten

/-- With plain roles, not to be the accessory is to be the controller. -/
theorem linksAccessory_eq (h : m.PlainRoles) : m.linksAccessory = m.controls := by
  funext i
  rw [linksAccessory, controls]
  cases huse : (m.slot i).inUse with
  | false => rfl
  | true =>
      rcases h i huse with hrole | hrole
      · rw [hrole]
        rfl
      · rw [hrole]
        rfl

/-- The accessories are counted right. -/
theorem toNat_accessoryLinkCount :
    m.accessoryLinkCount.toNat = m.accessoryIds.length := by
  have hfold : ∀ (is : List (Fin max.count)) (count : UInt8),
      is.foldl (fun accCount i =>
        if (m.slot i).inUse = false then accCount
        else if (m.slot i).link.operatingMode
            = OperatingMode.controller.toUInt8 then accCount + 1
        else accCount) count
        = count + UInt8.ofNat (is.filter m.controls).length := by
    intro is
    induction is with
    | nil =>
        intro count
        exact (add_zero count).symm
    | cons i is ih =>
        intro count
        rw [List.foldl_cons, ih, List.filter_cons, controls]
        cases huse : (m.slot i).inUse with
        | false => rfl
        | true =>
            by_cases hrole : (m.slot i).link.operatingMode
                = OperatingMode.controller.toUInt8
            · rw [if_neg Bool.true_eq_false_eq_False, if_pos hrole, hrole]
              simp [UInt8.ofNat_add, add_assoc, add_comm]
            · rw [if_neg Bool.true_eq_false_eq_False, if_neg hrole]
              simp [hrole]
  have hle := m.length_accessoryIds_le
  rw [accessoryIds_length] at hle ⊢
  rw [accessoryLinkCount, hfold, zero_add, UInt8.toNat_ofNat']
  exact Nat.mod_eq_of_lt (by rw [← marked]; omega)

/-! ## The next one -/

theorem firstLinkedAccessory_eq (h : m.PlainRoles) :
    m.firstLinkedAccessory = m.accessoryIds[0]? := by
  rw [firstLinkedAccessory, linksAccessory_eq h, ← List.head?_filter,
    accessoryIds, ← List.head?_eq_getElem?, List.head?_map]
  rfl

/-- The search for an id ends at the slot that has it. -/
theorem linkIndexFromNxid_of_slot (h : LinkTable m) {i : Fin max.count}
    (huse : (m.slot i).inUse = true) :
    m.linkIndexFromNxid (m.slot i).link.linkedDeviceId = some i := by
  cases hfind : m.linkIndexFromNxid (m.slot i).link.linkedDeviceId with
  | none => exact absurd rfl (linkIndexFromNxid_eq_none.mp hfind i huse)
  | some j =>
      obtain ⟨hjuse, hjid⟩ := of_linkIndexFromNxid hfind
      rw [h.distinct i j huse hjuse hjid.symm]

/-- After one accessory comes the accessory of the next slot, round the
slots. -/
theorem nextLinkedAccessory_eq (h : LinkTable m) (hroles : m.PlainRoles)
    (j : ℕ) (id : NxId) (hid : m.accessoryIds[j]? = some id) :
    m.nextLinkedAccessory (some id)
      = m.accessoryIds[(j + 1) % m.accessoryIds.length]? := by
  have hj : j < m.accessoryIds.length :=
    (List.getElem?_eq_some_iff.mp hid).1
  have hcount : m.accessoryLinkCount = 1 ↔ m.accessoryIds.length = 1 := by
    rw [← UInt8.toNat_inj, toNat_accessoryLinkCount]
    rfl
  rw [nextLinkedAccessory]
  by_cases hone : m.accessoryIds.length = 1
  · rw [if_pos (hcount.mpr hone), firstLinkedAccessory_eq hroles, hone,
      Nat.mod_one]
  · rw [if_neg (hcount.not.mpr hone)]
    rw [accessoryIds, List.getElem?_map] at hid
    obtain ⟨i, hi, rfl⟩ := Option.map_eq_some_iff.mp hid
    have hcontrols : m.controls i = true :=
      mem_marked.mp (List.mem_of_getElem? hi)
    have huse : (m.slot i).inUse = true := by
      rw [controls, Bool.and_eq_true] at hcontrols
      exact hcontrols.1
    have hmore : 1 < (marked m.controls).length := by
      rw [← accessoryIds_length]
      omega
    have hring := find?_ring max.one_le hi hmore
    rw [List.find?_map] at hring
    rw [linkIndexFromNxid_of_slot h huse]
    dsimp only
    rw [linksAccessory_eq hroles, accessoryIds_length, accessoryIds,
      List.getElem?_map, ← hring, Option.map_map]
    rfl

theorem nodup_accessoryIds (h : LinkTable m) : m.accessoryIds.Nodup := by
  refine (nodup_marked m.controls).map_on ?_
  intro i hi j hj hids
  have hi' := mem_marked.mp hi
  have hj' := mem_marked.mp hj
  rw [controls, Bool.and_eq_true] at hi' hj'
  exact h.distinct i j hi'.1 hj'.1 hids

/-- From one accessory to the next, if there is an answer. -/
def goOn (m : LinkManager max) (id : Option NxId) : Option NxId :=
  id.bind fun id => m.nextLinkedAccessory (some id)

end LinkManager

/-! ## The list of controlled devices -/

namespace PaygCredit

open LinkManager

/-- From the accessory in one place, the loop lists the places behind it. -/
theorem controlledIdsLoop_eq (h : LinkTable m) (hroles : m.PlainRoles)
    {firstId : NxId} (hfirst : m.accessoryIds[0]? = some firstId) :
    ∀ (fuel j : ℕ) (id : NxId), m.accessoryIds[j]? = some id →
      m.accessoryIds.length ≤ fuel + j →
      controlledIdsLoop m firstId fuel id
        = some (m.accessoryIds.drop (j + 1)) := by
  intro fuel
  induction fuel with
  | zero =>
      intro j id hid hfuel
      have hj := (List.getElem?_eq_some_iff.mp hid).1
      omega
  | succ fuel ih =>
      intro j id hid hfuel
      have hj := (List.getElem?_eq_some_iff.mp hid).1
      have hnext := nextLinkedAccessory_eq h hroles j id hid
      rw [controlledIdsLoop]
      by_cases hlast : j + 1 = m.accessoryIds.length
      · -- round the list: the first one again
        rw [hlast, Nat.mod_self, hfirst] at hnext
        rw [hnext]
        dsimp only
        rw [if_pos rfl, hlast, List.drop_length]
      · have hlt : j + 1 < m.accessoryIds.length := by omega
        rw [Nat.mod_eq_of_lt hlt, List.getElem?_eq_getElem hlt] at hnext
        rw [hnext]
        dsimp only
        have hne : firstId ≠ m.accessoryIds[j + 1] := by
          intro heq
          have hsame : m.accessoryIds[0]? = m.accessoryIds[j + 1]? := by
            rw [hfirst, heq, List.getElem?_eq_getElem hlt]
          have hzero : 0 < m.accessoryIds.length := by omega
          have := (List.getElem?_inj hzero (nodup_accessoryIds h)).mp hsame
          omega
        rw [if_neg hne, ih (j + 1) _ (List.getElem?_eq_getElem hlt) (by omega),
          List.drop_eq_getElem_cons hlt]
        rfl

/-- The loop ends, and lists the accessories slot by slot. -/
theorem controlledIds_eq (h : LinkTable m) (hroles : m.PlainRoles) {fuel : ℕ}
    (hfuel : m.accessoryIds.length ≤ fuel) :
    controlledIds m fuel = some m.accessoryIds := by
  have hfirst : m.nextLinkedAccessory none = m.accessoryIds[0]? :=
    firstLinkedAccessory_eq hroles
  rw [controlledIds, hfirst]
  cases hids : m.accessoryIds with
  | nil => rfl
  | cons id ids =>
      have hzero : m.accessoryIds[0]? = some id := by
        rw [hids]
        rfl
      have hloop := controlledIdsLoop_eq h hroles hzero fuel 0 id hzero hfuel
      rw [hids] at hloop
      dsimp only [List.getElem?_cons_zero]
      rw [hloop]
      rfl

theorem linkedNexusIdBe_injective : Function.Injective linkedNexusIdBe := by
  rintro ⟨authorityId, deviceId⟩ ⟨authorityId', deviceId'⟩ h
  simp only [linkedNexusIdBe, le16, le32, List.reverse_cons, List.reverse_nil,
    List.nil_append, List.cons_append, List.cons.injEq, and_true] at h
  obtain ⟨ha1, ha0, hd3, hd2, hd1, hd0⟩ := h
  have hauthority : authorityId = authorityId' := by
    rw [← uint16At_le16 authorityId, ha0, ha1, uint16At_le16]
  have hdevice : deviceId = deviceId' := by
    rw [← ofLe32_le32 deviceId, hd0, hd1, hd2, hd3, ofLe32_le32]
  rw [hauthority, hdevice]

end PaygCredit

/-! ## Every accessory once -/

/-- From an accessory on there is always a next one; the first answers, one for
each accessory, are the accessories, and the last of them is where it began. -/
structure VisitsEach (m : LinkManager max) (id : NxId) : Prop where
  answered : ∀ t, (m.goOn^[t] (some id)).isSome = true
  once : ∃ ids : List NxId, ids.Nodup ∧ ids.Perm m.accessoryIds ∧
    (List.range m.accessoryIds.length).map (fun t => m.goOn^[t + 1] (some id))
      = ids.map some
  back : m.goOn^[m.accessoryIds.length] (some id) = some id

/-- The GET handler of a leading device comes to an end, and its list has
every accessory once. -/
def ListsEach (m : LinkManager max) : Prop :=
  ∀ (support : SupportedModes) (product : ProductCredit)
    (credit : PaygCredit), support.controllerMode = true →
    m.creditOperatingMode = .leading →
    ∃ di, di.Nodup ∧
      di.Perm (m.accessoryIds.map PaygCredit.linkedNexusIdBe) ∧
      ∀ fuel, m.accessoryIds.length ≤ fuel →
        (credit.getHandler support m product fuel).1
          = some ⟨.leading, product.getLatest, units, di⟩

theorem visitsEach (h : LinkTable m) (hroles : m.PlainRoles) {id : NxId}
    (hid : id ∈ m.accessoryIds) : VisitsEach m id := by
  obtain ⟨j, hj⟩ := List.mem_iff_getElem?.mp hid
  have hpos : 0 < m.accessoryIds.length := List.length_pos_of_mem hid
  have hnext := LinkManager.nextLinkedAccessory_eq h hroles
  refine ⟨?_, ⟨m.accessoryIds.rotate (j + 1), ?_, ?_, ?_⟩, ?_⟩
  · intro t
    have hlt : (j + t) % m.accessoryIds.length < m.accessoryIds.length :=
      Nat.mod_lt _ hpos
    have hstep := iterate_next hnext hj t
    rw [List.getElem?_eq_getElem hlt] at hstep
    exact Option.isSome_iff_exists.mpr ⟨_, hstep⟩
  · exact List.nodup_rotate.mpr (LinkManager.nodup_accessoryIds h)
  · exact List.rotate_perm m.accessoryIds (j + 1)
  · exact map_iterate_range hnext hj
  · exact iterate_length hnext hj

theorem listsEach (h : LinkTable m) (hroles : m.PlainRoles) :
    ListsEach m := by
  intro support product credit hsupport hmode
  refine ⟨m.accessoryIds.map PaygCredit.linkedNexusIdBe, ?_, List.Perm.rfl, ?_⟩
  · exact (LinkManager.nodup_accessoryIds h).map
      PaygCredit.linkedNexusIdBe_injective
  · intro fuel hfuel
    rw [PaygCredit.getHandler]
    dsimp only
    rw [hmode, if_pos ⟨hsupport, rfl⟩,
      PaygCredit.controlledIds_eq h hroles hfuel]
    rfl

/-- Iterating over the accessories of a link table, from any of them, visits
each once; so the list of a GET is complete. -/
theorem accessories_visited_once (h : LinkTable m) (hroles : m.PlainRoles)
    {id : NxId} (hid : id ∈ m.accessoryIds) :
    VisitsEach m id ∧ ListsEach m :=
  ⟨visitsEach h hroles hid, listsEach h hroles⟩

theorem threeLinks_one_le : 1 ≤ 4 := by decide

theorem threeLinks_le_ten : 4 ≤ 10 := by decide

/-- Two accessories and a controller between them. -/
def threeLinks : LinkManager ⟨4, threeLinks_one_le, threeLinks_le_ten⟩ :=
  run tableStep (LinkManager.init _ fun _ => none)
    [.createLink ⟨0, 7⟩ .controller 0 ⟨integrityCheckFixed00Key, 0⟩,
      .process 1,
      .createLink ⟨0, 8⟩ .accessory 0 ⟨integrityCheckFixed00Key, 0⟩,
      .process 1,
      .createLink ⟨0, 9⟩ .controller 0 ⟨integrityCheckFixed00Key, 0⟩,
      .process 1]

theorem threeLinks_linkTable : LinkTable threeLinks := by
  have hdevice (n : UInt32) (h : n ≠ 0) (mode : OperatingMode) :
      (TableOp.createLink ⟨0, n⟩ mode 0
        ⟨integrityCheckFixed00Key, 0⟩).Admissible := h
  have htabled : Tabled threeLinks := by
    refine run_invariant (fun _ op h (hop : op.Admissible) => h.step hop)
      (Tabled.init_factory fun _ => .inl rfl) ?_
    exact ⟨hdevice 7 (by decide) _, trivial, hdevice 8 (by decide) _, trivial,
      hdevice 9 (by decide) _, trivial, trivial⟩
  exact htabled.linkTable

theorem threeLinks_visited :
    VisitsEach threeLinks ⟨0, 9⟩ ∧ ListsEach threeLinks := by
  refine accessories_visited_once threeLinks_linkTable ?_ ?_
  · show ∀ i : Fin 4, _
    decide +kernel
  · decide +kernel

end Nexus.Channel
