import Nexus.Nv
import Nexus.Util.Check

/-!
# The link manager

`nexus_channel_res_lm.c`. A link is the shared key with another device, the
role this device has towards it, and the last nonce both have seen. Links live
in a fixed number of slots, each with its own nonvolatile block. Creating and
clearing is only noted, and done by the next `process`; so is the writing of a
nonce that has moved into the next interval of 64.

What `nxp_channel_notify_event` and `nxp_common_request_processing` are told is
left out, and so is the resource `/l`.
-/

namespace Nexus.Channel

open Nexus.Util Nexus.Nv

/-- `struct nx_id`. -/
structure NxId where
  authorityId : UInt16
  deviceId : UInt32
deriving DecidableEq

/-- `enum nexus_channel_link_operating_mode`: the role of this device. -/
inductive OperatingMode
  | accessory
  | controller
  | dualModeActive
  | dualModeIdle
deriving DecidableEq

/-- The value of the enumerator. -/
def OperatingMode.toUInt8 : OperatingMode → UInt8
  | accessory => 0
  | controller => 1
  | dualModeActive => 2
  | dualModeIdle => 3

/-- `NEXUS_CHANNEL_LINK_SECURITY_MODE_KEY128SYM_COSE_MAC0_AUTH_SIPHASH24`. -/
def securityModeCoseMac0 : UInt8 := 0

/-- `NEXUS_CHANNEL_LINK_TIMEOUT_SECONDS`. -/
def linkTimeoutSeconds : UInt32 := 7776000

/-- `NEXUS_CHANNEL_LINK_SECURITY_NONCE_NV_STORAGE_INTERVAL_COUNT`. -/
def nonceNvStorageIntervalCount : UInt32 := 64

/-- `struct nexus_channel_link_security_mode0_data`. -/
structure SecurityMode0Data where
  symKey : CheckKey
  nonce : UInt32
deriving DecidableEq

/-- `nexus_channel_link_t`. -/
structure Link where
  linkedDeviceId : NxId
  operatingMode : UInt8
  securityMode : UInt8
  secondsSinceInit : UInt32
  secondsSinceActive : UInt32
  securityData : SecurityMode0Data
deriving DecidableEq

/-- The link `memset` leaves behind. -/
def Link.zero : Link :=
  ⟨⟨0, 0⟩, 0, 0, 0, 0, ⟨integrityCheckFixed00Key, 0⟩⟩

/-! ## The memory of a link -/

/-- The 36 bytes of a `nexus_channel_link_t`. -/
def Link.bytes (l : Link) : List UInt8 :=
  le16 l.linkedDeviceId.authorityId ++ le32 l.linkedDeviceId.deviceId
    ++ [l.operatingMode, l.securityMode]
    ++ le32 l.secondsSinceInit ++ le32 l.secondsSinceActive
    ++ l.securityData.symKey.bytes.toList ++ le32 l.securityData.nonce

/-- The `uint32_t` at an offset. -/
def uint32At (bytes : List UInt8) (offset : Nat) : UInt32 :=
  ofLe32 (bytes.getD offset 0) (bytes.getD (offset + 1) 0)
    (bytes.getD (offset + 2) 0) (bytes.getD (offset + 3) 0)

/-- The `uint16_t` at an offset. -/
def uint16At (bytes : List UInt8) (offset : Nat) : UInt16 :=
  (bytes.getD offset 0).toUInt16 ||| (bytes.getD (offset + 1) 0).toUInt16 <<< 8

/-- The link whose memory is these bytes. -/
def Link.ofBytes (bytes : List UInt8) : Link where
  linkedDeviceId := ⟨uint16At bytes 0, uint32At bytes 2⟩
  operatingMode := bytes.getD 6 0
  securityMode := bytes.getD 7 0
  secondsSinceInit := uint32At bytes 8
  secondsSinceActive := uint32At bytes 12
  securityData :=
    ⟨⟨Vector.ofFn fun i : Fin 16 => bytes.getD (16 + i) 0⟩, uint32At bytes 32⟩

/-! ## The state -/

/-- `NEXUS_CHANNEL_MAX_SIMULTANEOUS_LINKS`, and what the configuration asks of
it. -/
structure MaxLinks where
  count : Nat
  one_le : 1 ≤ count
  le_ten : count ≤ 10

/-- One index of the arrays `stored.links`, `link_idx_in_use` and
`link_idx_should_persist_nonce`. -/
structure Slot where
  link : Link
  inUse : Bool
  shouldPersistNonce : Bool
deriving DecidableEq

def Slot.zero : Slot := ⟨Link.zero, false, false⟩

/-- The static `_this` and the nonvolatile storage beside it. -/
structure LinkManager (max : MaxLinks) where
  slots : Vector Slot max.count
  pendingLinkToCreate : Link
  linkCount : UInt8
  pendingAddLink : Bool
  pendingClearAllLinks : Bool
  nv : Store

variable {max : MaxLinks}

/-- `_nexus_channel_link_manager_index_to_nv_block`. -/
def indexToNvBlock (i : Fin max.count) : BlockMeta :=
  ⟨UInt16.ofNat (4 + i), 40⟩

namespace LinkManager

def slot (m : LinkManager max) (i : Fin max.count) : Slot := m.slots[i]

def setSlot (m : LinkManager max) (i : Fin max.count) (s : Slot) :
    LinkManager max :=
  { m with slots := m.slots.set i s }

/-- `nexus_nv_update` of a slot's block. -/
def persist (m : LinkManager max) (i : Fin max.count) (l : Link) :
    LinkManager max :=
  { m with nv := nvUpdate m.nv (indexToNvBlock i) l.bytes }

/-! ## Starting -/

/-- The body of the loop of `nexus_channel_link_manager_init`. -/
def initLink (m : LinkManager max) (i : Fin max.count) : LinkManager max :=
  match nvRead m.nv (indexToNvBlock i) with
  | none => m
  | some bytes =>
      let link := Link.ofBytes bytes
      if link.linkedDeviceId.deviceId = 0 then m
      else
        let data := link.securityData
        { m.setSlot i ⟨{ link with securityData := { data with
              nonce := data.nonce + nonceNvStorageIntervalCount } },
              true, true⟩ with
          linkCount := m.linkCount + 1 }

/-- `nexus_channel_link_manager_init`. -/
def init (max : MaxLinks) (nv : Store) : LinkManager max :=
  (List.finRange max.count).foldl initLink
    ⟨Vector.replicate _ Slot.zero, Link.zero, 0, false, false, nv⟩

/-! ## Finding links -/

/-- `_nexus_channel_link_manager_link_index_from_nxid`. -/
def linkIndexFromNxid (m : LinkManager max) (id : NxId) :
    Option (Fin max.count) :=
  (List.finRange max.count).find? fun i =>
    (m.slot i).inUse && decide ((m.slot i).link.linkedDeviceId = id)

/-- `nexus_channel_link_manager_link_from_nxid`. -/
def linkFromNxid (m : LinkManager max) (id : NxId) : Option Link :=
  (m.linkIndexFromNxid id).map fun i => (m.slot i).link

/-- `nexus_channel_link_manager_security_data_from_nxid`. -/
def securityDataFromNxid (m : LinkManager max) (id : NxId) :
    Option SecurityMode0Data :=
  (m.linkFromNxid id).map Link.securityData

/-- `_nexus_channel_link_manager_has_link_with_role`. -/
def hasLinkWithRole (m : LinkManager max) (mode : OperatingMode) :
    Option NxId :=
  ((List.finRange max.count).find? fun i =>
    (m.slot i).inUse && (m.slot i).link.operatingMode == mode.toUInt8).map
      fun i => (m.slot i).link.linkedDeviceId

/-- `nexus_channel_link_manager_has_linked_controller`. -/
def hasLinkedController (m : LinkManager max) : Option NxId :=
  m.hasLinkWithRole .accessory

/-- `nexus_channel_link_manager_has_linked_accessory`. -/
def hasLinkedAccessory (m : LinkManager max) : Bool :=
  (m.hasLinkWithRole .controller).isSome

/-- `nexus_channel_link_manager_accessory_link_count`. -/
def accessoryLinkCount (m : LinkManager max) : UInt8 :=
  (List.finRange max.count).foldl (fun accCount i =>
    if (m.slot i).inUse = false then accCount
    else if (m.slot i).link.operatingMode
        = OperatingMode.controller.toUInt8 then accCount + 1
    else accCount) 0

/-- The slot has a link in which this device is not the accessory. -/
def linksAccessory (m : LinkManager max) (i : Fin max.count) : Bool :=
  (m.slot i).inUse
    && (m.slot i).link.operatingMode != OperatingMode.accessory.toUInt8

/-- The first loop of `nexus_channel_link_manager_next_linked_accessory`. -/
def firstLinkedAccessory (m : LinkManager max) : Option NxId :=
  ((List.finRange max.count).find? m.linksAccessory).map fun i =>
    (m.slot i).link.linkedDeviceId

/-- The slot of an index that has run past the last one. -/
def wrapIdx (i : Nat) : Fin max.count :=
  ⟨i % max.count, Nat.mod_lt i max.one_le⟩

/-- `nexus_channel_link_manager_next_linked_accessory`. -/
def nextLinkedAccessory (m : LinkManager max) (previousId : Option NxId) :
    Option NxId :=
  match previousId with
  | none => m.firstLinkedAccessory
  | some previousId =>
      if m.accessoryLinkCount = 1 then m.firstLinkedAccessory
      else
        match m.linkIndexFromNxid previousId with
        | none => none
        | some prev =>
            ((List.range' (prev + 1) (max.count - 1)).find? fun i =>
              m.linksAccessory (wrapIdx i)).map fun i =>
                (m.slot (wrapIdx i)).link.linkedDeviceId

/-- `_nexus_channel_link_manager_oldest_accessory_link_idx`. -/
def oldestAccessoryLinkIdx (m : LinkManager max) : Option (Fin max.count) :=
  ((List.finRange max.count).foldl (fun acc i =>
    let s := m.slot i
    if s.link.operatingMode ≠ OperatingMode.accessory.toUInt8 then acc
    else if s.inUse ∧ s.link.secondsSinceInit ≥ acc.1 then
      (s.link.secondsSinceInit, some i)
    else acc) ((0 : UInt32), none)).2

/-! ## Creating and clearing -/

/-- `_nexus_channel_link_manager_clear_link_internal`. The persist flag of the
slot stays as it is. -/
def clearLinkInternal (m : LinkManager max) (i : Fin max.count) :
    LinkManager max :=
  if (m.slot i).inUse = false then m
  else
    let m := m.setSlot i
      { m.slot i with link := Link.zero, inUse := false }
    { m.persist i Link.zero with linkCount := m.linkCount - 1 }

/-- `_nexus_channel_link_manager_clear_links_internal`. -/
def clearLinksInternal (m : LinkManager max) : LinkManager max :=
  (List.finRange max.count).foldl clearLinkInternal m

/-- `nexus_channel_link_manager_clear_all_links`. -/
def clearAllLinks (m : LinkManager max) : LinkManager max :=
  { m with pendingClearAllLinks := true }

/-- The end of `nexus_channel_link_manager_create_link`. -/
def setPendingLink (m : LinkManager max) (id : NxId) (mode : OperatingMode)
    (securityMode : UInt8) (data : SecurityMode0Data) : LinkManager max :=
  { m with
    pendingAddLink := true
    pendingLinkToCreate := { Link.zero with
      operatingMode := mode.toUInt8
      securityMode := securityMode
      linkedDeviceId := id
      securityData := data } }

/-- `nexus_channel_link_manager_create_link`. -/
def createLink (m : LinkManager max) (id : NxId) (mode : OperatingMode)
    (securityMode : UInt8) (data : SecurityMode0Data) :
    Bool × LinkManager max :=
  if m.pendingAddLink then (false, m)
  else
    match m.linkIndexFromNxid id with
    | some i =>
        (true, (m.clearLinkInternal i).setPendingLink id mode securityMode
          data)
    | none =>
        if m.linkCount.toNat = max.count then
          if mode ≠ .accessory then (false, m)
          else
            match m.oldestAccessoryLinkIdx with
            | none => (false, m)
            | some i =>
                (true, (m.clearLinkInternal i).setPendingLink id mode
                  securityMode data)
        else (true, m.setPendingLink id mode securityMode data)

/-! ## Processing -/

/-- The body of the loop over the links of
`nexus_channel_link_manager_process`. -/
def processLink (secondsElapsed : UInt32) (m : LinkManager max)
    (i : Fin max.count) : LinkManager max :=
  let s := m.slot i
  if s.inUse = false then m
  else
    let link := { s.link with
      secondsSinceInit := s.link.secondsSinceInit + secondsElapsed
      secondsSinceActive := s.link.secondsSinceActive + secondsElapsed }
    let m := m.setSlot i { s with link := link }
    if link.secondsSinceActive > linkTimeoutSeconds then m.clearLinkInternal i
    else if link.securityMode = securityModeCoseMac0
        ∧ s.shouldPersistNonce then
      (m.persist i link).setSlot i
        { s with link := link, shouldPersistNonce := false }
    else m

/-- The pending link takes the first free slot. -/
def addPendingLink (m : LinkManager max) : LinkManager max :=
  let m :=
    match (List.finRange max.count).find? fun i =>
      (m.slot i).inUse == false with
    | none => m
    | some i =>
        let m := { m with linkCount := m.linkCount + 1 }
        (m.setSlot i { m.slot i with
          inUse := true, link := m.pendingLinkToCreate }).persist i
            m.pendingLinkToCreate
  { m with pendingLinkToCreate := Link.zero, pendingAddLink := false }

/-- `nexus_channel_link_manager_process`. -/
def process (m : LinkManager max) (secondsElapsed : UInt32) :
    LinkManager max :=
  let m := (List.finRange max.count).foldl (processLink secondsElapsed) m
  if m.pendingAddLink then m.addPendingLink
  else if m.pendingClearAllLinks then
    { m.clearLinksInternal with pendingClearAllLinks := false }
  else m

/-! ## Nonces -/

/-- The loop of `nexus_channel_link_manager_set_security_data_auth_nonce`:
whether the counter meets a multiple of the interval. Any 64 numbers in a row
hold one, which bounds the rounds; from the highest number the counter goes on
at zero. -/
def crossesInterval (newNonce : UInt32) : Nat → UInt32 → Bool
  | 0, _ => false
  | fuel + 1, i =>
      if i ≤ newNonce then
        if i % nonceNvStorageIntervalCount = 0 then true
        else crossesInterval newNonce fuel (i + 1)
      else false

/-- Whether setting the nonce raises the persist flag. -/
def raisesPersistFlag (oldNonce newNonce : UInt32) : Bool :=
  if newNonce = 0 then true
  else if newNonce > oldNonce ∧ oldNonce > 0 then
    crossesInterval newNonce 64 (oldNonce + 1)
  else false

/-- `nexus_channel_link_manager_set_security_data_auth_nonce`. -/
def setSecurityDataAuthNonce (m : LinkManager max) (id : NxId)
    (newNonce : UInt32) : Bool × LinkManager max :=
  match m.linkIndexFromNxid id with
  | none => (false, m)
  | some i =>
      let s := m.slot i
      let data := s.link.securityData
      if s.link.securityMode ≠ securityModeCoseMac0 then (false, m)
      else
        (true, m.setSlot i { s with
          link := { s.link with
            securityData := { data with nonce := newNonce } }
          shouldPersistNonce := s.shouldPersistNonce
            || raisesPersistFlag data.nonce newNonce })

/-- `nexus_channel_link_manager_reset_link_secs_since_active`. -/
def resetLinkSecsSinceActive (m : LinkManager max) (id : NxId) :
    Bool × LinkManager max :=
  match m.linkIndexFromNxid id with
  | none => (false, m)
  | some i =>
      let s := m.slot i
      (true, m.setSlot i
        { s with link := { s.link with secondsSinceActive := 0 } })

end LinkManager

end Nexus.Channel
