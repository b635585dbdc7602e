import Nexus.Channel.SecurityManager
import Nexus.Proofs.Links

/-!
# Accepted nonces

What `nexus_channel_authenticate_message` does to the nonce of a link. A
message that verifies under the key of the link to its sender is judged by its
code and its nonce alone; every other message leaves all links as they are.

Over a run of messages the nonces of the accepted requests grow from one reset
of the nonce to the next. There is one gap: a request is compared with the
successor of the link's nonce, which for the highest nonce is zero, so then
any request passes.
-/

namespace Nexus.Channel

open Nexus.Util Nexus.Lib

variable {max : MaxLinks} {H : Type}

/-! ## Setting the nonce -/

/-- The slot after a message with this nonce. -/
def Slot.accept (s : Slot) (nonce : UInt32) : Slot where
  link := { s.link with
    secondsSinceActive := 0
    securityData := { s.link.securityData with nonce := nonce } }
  inUse := s.inUse
  shouldPersistNonce := s.shouldPersistNonce
    || LinkManager.raisesPersistFlag s.link.securityData.nonce nonce

namespace LinkManager

variable {m : LinkManager max} {id : NxId} {i : Fin max.count}

/-- A slot may be replaced by one in the same use. -/
theorem linkIndexFromNxid_setSlot {s : Slot}
    (huse : s.inUse = (m.slot i).inUse)
    (hid : s.link.linkedDeviceId = (m.slot i).link.linkedDeviceId)
    (id' : NxId) :
    (m.setSlot i s).linkIndexFromNxid id' = m.linkIndexFromNxid id' := by
  apply linkIndexFromNxid_congr
  intro j
  by_cases hj : j = i
  · subst hj
    have hslot : ((m.setSlot j s).slot j) = s :=
      congrArg Cell.slot (m.cell_setSlot_self j s)
    rw [hslot]
    exact ⟨huse, hid⟩
  · have hslot : ((m.setSlot i s).slot j) = m.slot j :=
      congrArg Cell.slot (m.cell_setSlot_of_ne i s hj)
    rw [hslot]
    exact ⟨rfl, rfl⟩

theorem slots_setSlot_self (s : Slot) : ((m.setSlot i s).slot i) = s :=
  congrArg Cell.slot (m.cell_setSlot_self i s)

theorem setSecurityDataAuthNonce_eq (h : m.linkIndexFromNxid id = some i)
    (hmode : (m.slot i).link.securityMode = securityModeCoseMac0)
    (nonce : UInt32) :
    (m.setSecurityDataAuthNonce id nonce).2 = m.setSlot i { m.slot i with
      link := { (m.slot i).link with
        securityData := { (m.slot i).link.securityData with nonce := nonce } }
      shouldPersistNonce := (m.slot i).shouldPersistNonce
        || raisesPersistFlag (m.slot i).link.securityData.nonce nonce } := by
  unfold setSecurityDataAuthNonce
  simp only [h]
  rw [if_neg (not_not.mpr hmode)]

theorem resetLinkSecsSinceActive_eq (h : m.linkIndexFromNxid id = some i) :
    (m.resetLinkSecsSinceActive id).2 = m.setSlot i { m.slot i with
      link := { (m.slot i).link with secondsSinceActive := 0 } } := by
  unfold resetLinkSecsSinceActive
  simp only [h]

theorem setSlot_setSlot (s s' : Slot) :
    (m.setSlot i s).setSlot i s' = m.setSlot i s' := by
  simp [setSlot, slot]

theorem acceptNonce_eq (h : m.linkIndexFromNxid id = some i)
    (hmode : (m.slot i).link.securityMode = securityModeCoseMac0)
    (nonce : UInt32) :
    m.acceptNonce id (some nonce) = m.setSlot i ((m.slot i).accept nonce) := by
  have hset := setSecurityDataAuthNonce_eq h hmode nonce
  have hfind := (linkIndexFromNxid_setSlot (m := m) (i := i)
    (s := { m.slot i with
      link := { (m.slot i).link with
        securityData := { (m.slot i).link.securityData with nonce := nonce } }
      shouldPersistNonce := (m.slot i).shouldPersistNonce
        || raisesPersistFlag (m.slot i).link.securityData.nonce nonce })
    rfl rfl id).trans h
  show ((m.setSecurityDataAuthNonce id nonce).2.resetLinkSecsSinceActive id).2
    = _
  rw [hset, resetLinkSecsSinceActive_eq hfind, slots_setSlot_self,
    setSlot_setSlot]
  rfl

/-- Without a link there is no nonce to set. -/
theorem acceptNonce_of_none (h : m.linkIndexFromNxid id = none)
    (nonce : Option UInt32) : m.acceptNonce id nonce = m := by
  cases nonce with
  | none => rfl
  | some nonce =>
      have hset : m.setSecurityDataAuthNonce id nonce = (false, m) := by
        unfold setSecurityDataAuthNonce
        rw [h]
      show ((m.setSecurityDataAuthNonce id nonce).2.resetLinkSecsSinceActive
        id).2 = m
      rw [hset]
      unfold resetLinkSecsSinceActive
      simp only [h]

theorem setSlot_self : m.setSlot i (m.slot i) = m := by
  simp [setSlot, slot]

/-- Whatever comes, at most the slot of the sender changes, and it stays in the
same use. -/
theorem acceptNonce_setSlot (h : m.linkIndexFromNxid id = some i)
    (nonce : Option UInt32) :
    ∃ s, m.acceptNonce id nonce = m.setSlot i s ∧
      s.inUse = (m.slot i).inUse ∧
      s.link.linkedDeviceId = (m.slot i).link.linkedDeviceId ∧
      s.link.securityMode = (m.slot i).link.securityMode := by
  cases nonce with
  | none => exact ⟨m.slot i, setSlot_self.symm, rfl, rfl, rfl⟩
  | some nonce =>
      by_cases hmode : (m.slot i).link.securityMode = securityModeCoseMac0
      · exact ⟨_, acceptNonce_eq h hmode nonce, rfl, rfl, rfl⟩
      · have hset : m.setSecurityDataAuthNonce id nonce = (false, m) := by
          unfold setSecurityDataAuthNonce
          simp only [h]
          rw [if_pos hmode]
        refine ⟨{ m.slot i with
          link := { (m.slot i).link with secondsSinceActive := 0 } },
          ?_, rfl, rfl, rfl⟩
        show ((m.setSecurityDataAuthNonce id nonce).2.resetLinkSecsSinceActive
          id).2 = _
        rw [hset]
        exact resetLinkSecsSinceActive_eq h

/-- No message changes which slot a link is in. -/
theorem linkIndexFromNxid_acceptNonce (nonce : Option UInt32) (id' : NxId) :
    (m.acceptNonce id nonce).linkIndexFromNxid id'
      = m.linkIndexFromNxid id' := by
  cases h : m.linkIndexFromNxid id with
  | none => rw [acceptNonce_of_none h]
  | some i =>
      obtain ⟨s, heq, huse, hid, -⟩ := acceptNonce_setSlot h nonce
      rw [heq, linkIndexFromNxid_setSlot huse hid]

/-- A message changes the cell of its sender only. -/
theorem cell_acceptNonce_of_ne {j : Fin max.count} (nonce : Option UInt32)
    (hj : m.linkIndexFromNxid id ≠ some j) :
    (m.acceptNonce id nonce).cell j = m.cell j := by
  cases h : m.linkIndexFromNxid id with
  | none => rw [acceptNonce_of_none h]
  | some i =>
      obtain ⟨s, heq, -⟩ := acceptNonce_setSlot h nonce
      have hne : j ≠ i := fun hji => hj (by rw [h, hji])
      rw [heq, m.cell_setSlot_of_ne i s hne]

end LinkManager

/-! ## Messages -/

/-- A message on its way to `nexus_channel_authenticate_message`, and what the
memory of its tag held. -/
structure Received where
  sender : NxId
  pkt : CoapPacket
  staleTag : Vector UInt8 8

namespace Received

/-- The security data, the nonce and the payload of a message that verifies
under the key of the link to its sender. -/
def verified (m : LinkManager max) (r : Received) :
    Option (SecurityMode0Data × UInt32 × List UInt8) :=
  if messageHeadersSecuredMode0 r.pkt
      ∧ ¬ r.pkt.payload.length > maxCborPayloadSize
      ∧ ¬ r.pkt.payload.length = 0 then
    match m.securityDataFromNxid r.sender with
    | none => none
    | some data =>
        match verifyMessage data.symKey r.pkt.aad r.pkt.payload r.staleTag with
        | .ok (nonce, payload) => some (data, nonce, payload)
        | .error _ => none
  else none

/-- `nexus_channel_authenticate_message`, on a message. -/
def authenticate (t : ResourceTable H) (m : LinkManager max) (r : Received) :
    AuthResult × CoapPacket × Bool × LinkManager max :=
  authenticateMessage t m r.sender r.pkt r.staleTag

/-- The nonce of a message that verifies. -/
def nonce? (m : LinkManager max) (r : Received) : Option UInt32 :=
  (r.verified m).map fun v => v.2.1

/-- Below the first of the response codes. -/
def IsRequest (r : Received) : Prop := r.pkt.code < created201

instance (r : Received) : Decidable r.IsRequest :=
  inferInstanceAs (Decidable (r.pkt.code < created201))

variable {t : ResourceTable H} {m : LinkManager max} {r : Received}

/-- A message that verifies is judged by its nonce. -/
theorem authenticate_of_verified {data : SecurityMode0Data} {nonce : UInt32}
    {payload : List UInt8} (h : r.verified m = some (data, nonce, payload)) :
    r.authenticate t m = ((checkNonce r.pkt.code data.nonce nonce).1,
      { r.pkt with payload := payload }, true,
      m.acceptNonce r.sender (checkNonce r.pkt.code data.nonce nonce).2) := by
  unfold verified at h
  split at h
  next hcond =>
    obtain ⟨hsecured, hsize, hempty⟩ := hcond
    unfold authenticate authenticateMessage
    rw [if_pos hsecured, if_neg hsize, if_neg hempty]
    cases hdata : m.securityDataFromNxid r.sender with
    | none =>
        rw [hdata] at h
        cases h
    | some data' =>
        simp only [hdata] at h ⊢
        cases hverify : verifyMessage data'.symKey r.pkt.aad r.pkt.payload
            r.staleTag with
        | error e =>
            rw [hverify] at h
            cases h
        | ok v =>
            rw [hverify] at h
            cases h
            rfl
  next => cases h

/-- Any other message leaves the links alone, and what is accepted of them was
not secured at all. -/
theorem authenticate_of_not_verified (h : r.verified m = none) :
    (r.authenticate t m).2.2.2 = m ∧ (r.authenticate t m).2.2.1 = false ∧
      (r.authenticate t m).1 ≠ .requestReceivedWithInvalidNonce ∧
      (r.authenticate t m).1 ≠ .validNonceSyncReceived ∧
      (r.authenticate t m).1 ≠ .nonceApproachingMaxForcedResetRequired ∧
      ((r.authenticate t m).1 = .none →
        messageHeadersSecuredMode0 r.pkt = false ∧
        requestedMethodIsSecured t r.pkt = false ∧
        (r.authenticate t m).2.1 = r.pkt) := by
  unfold authenticate authenticateMessage
  by_cases hsecured : messageHeadersSecuredMode0 r.pkt = true
  · rw [if_pos hsecured]
    by_cases hsize : r.pkt.payload.length > maxCborPayloadSize
    · rw [if_pos hsize]
      simp
    rw [if_neg hsize]
    by_cases hempty : r.pkt.payload.length = 0
    · rw [if_pos hempty]
      simp
    rw [if_neg hempty]
    unfold verified at h
    rw [if_pos ⟨hsecured, hsize, hempty⟩] at h
    cases hdata : m.securityDataFromNxid r.sender with
    | none => simp
    | some data =>
        simp only [hdata] at h ⊢
        cases hverify : verifyMessage data.symKey r.pkt.aad r.pkt.payload
            r.staleTag with
        | ok v =>
            rw [hverify] at h
            cases h
        | error e => cases e <;> simp
  · rw [if_neg hsecured]
    have hplain : messageHeadersSecuredMode0 r.pkt = false := by
      simpa using hsecured
    by_cases hmethod : requestedMethodIsSecured t r.pkt = true
    · rw [if_pos hmethod]
      simp
    · rw [if_neg hmethod]
      simp [hplain, hmethod]

/-- A message verifies under the key of the link to its sender. -/
theorem of_verified {data : SecurityMode0Data} {nonce : UInt32}
    {payload : List UInt8} (h : r.verified m = some (data, nonce, payload)) :
    messageHeadersSecuredMode0 r.pkt = true ∧
      m.securityDataFromNxid r.sender = some data ∧
      verifyMessage data.symKey r.pkt.aad r.pkt.payload r.staleTag
        = .ok (nonce, payload) := by
  unfold verified at h
  split at h
  next hcond =>
    cases hdata : m.securityDataFromNxid r.sender with
    | none =>
        rw [hdata] at h
        cases h
    | some data' =>
        simp only [hdata] at h
        cases hverify : verifyMessage data'.symKey r.pkt.aad r.pkt.payload
            r.staleTag with
        | error e =>
            rw [hverify] at h
            cases h
        | ok v =>
            rw [hverify] at h
            cases h
            exact ⟨hcond.1, rfl, hverify⟩
  next => cases h

theorem link_of_verified {data : SecurityMode0Data} {nonce : UInt32}
    {payload : List UInt8} (h : r.verified m = some (data, nonce, payload)) :
    ∃ i, m.linkIndexFromNxid r.sender = some i ∧
      (m.slot i).link.securityData = data := by
  obtain ⟨-, hdata, -⟩ := of_verified h
  obtain ⟨link, hlink, hlinkData⟩ := Option.map_eq_some_iff.mp hdata
  obtain ⟨i, hi, hslot⟩ := Option.map_eq_some_iff.mp hlink
  exact ⟨i, hi, by rw [hslot, hlinkData]⟩

theorem nonce?_of_verified {data : SecurityMode0Data} {nonce : UInt32}
    {payload : List UInt8} (h : r.verified m = some (data, nonce, payload)) :
    r.nonce? m = some nonce := by
  unfold nonce?
  rw [h]
  rfl

end Received

/-- The three ways a verified request can go. -/
theorem checkNonce_request {code : UInt8} (hcode : code < created201)
    (linkNonce received : UInt32) :
    (received < linkNonce + 1 ∧ checkNonce code linkNonce received
        = (.requestReceivedWithInvalidNonce, none)) ∨
    (linkNonce + 1 ≤ received ∧
      received ≤ resetNonceSignalValue - nonceNvStorageIntervalCount ∧
      checkNonce code linkNonce received = (.none, some received)) ∨
    (linkNonce + 1 ≤ received ∧
      received > resetNonceSignalValue - nonceNvStorageIntervalCount ∧
      checkNonce code linkNonce received
        = (.nonceApproachingMaxForcedResetRequired, some 0)) := by
  unfold checkNonce
  rw [if_pos hcode]
  by_cases hlow : received < linkNonce + 1
  · rw [if_pos hlow]
    exact .inl ⟨hlow, rfl⟩
  rw [if_neg hlow]
  have hle : linkNonce + 1 ≤ received := UInt32.not_lt.mp hlow
  by_cases htop : received >
      resetNonceSignalValue - nonceNvStorageIntervalCount
  · rw [if_pos htop]
    exact .inr (.inr ⟨hle, htop, rfl⟩)
  · rw [if_neg htop]
    exact .inr (.inl ⟨hle, UInt32.not_lt.mp htop, rfl⟩)

/-- The three ways a verified response can go. -/
theorem checkNonce_response {code : UInt8} (hcode : ¬ code < created201)
    (linkNonce received : UInt32) :
    (received < linkNonce ∧ checkNonce code linkNonce received
        = (.requestReceivedWithInvalidNonce, none)) ∨
    (linkNonce ≤ received ∧ code = notAcceptable406 ∧
      checkNonce code linkNonce received = (.validNonceSyncReceived,
        some (if received = resetNonceSignalValue then 0 else received))) ∨
    (linkNonce ≤ received ∧ code ≠ notAcceptable406 ∧
      checkNonce code linkNonce received = (.none, some received)) := by
  unfold checkNonce
  rw [if_neg hcode]
  by_cases hlow : received < linkNonce
  · rw [if_pos hlow]
    exact .inl ⟨hlow, rfl⟩
  rw [if_neg hlow]
  have hle : linkNonce ≤ received := UInt32.not_lt.mp hlow
  by_cases hsync : code = notAcceptable406
  · rw [if_pos hsync]
    exact .inr (.inl ⟨hle, hsync, rfl⟩)
  · rw [if_neg hsync]
    exact .inr (.inr ⟨hle, hsync, rfl⟩)

/-- The five ways a verified message can go. -/
theorem checkNonce_cases (code : UInt8) (linkNonce received : UInt32) :
    checkNonce code linkNonce received
        = (.requestReceivedWithInvalidNonce, none) ∨
    (code < created201 ∧ linkNonce + 1 ≤ received ∧
      checkNonce code linkNonce received = (.none, some received)) ∨
    (code < created201 ∧ linkNonce + 1 ≤ received ∧
      checkNonce code linkNonce received
        = (.nonceApproachingMaxForcedResetRequired, some 0)) ∨
    (¬ code < created201 ∧ linkNonce ≤ received ∧
      checkNonce code linkNonce received = (.validNonceSyncReceived,
        some (if received = resetNonceSignalValue then 0 else received))) ∨
    (¬ code < created201 ∧ linkNonce ≤ received ∧
      checkNonce code linkNonce received = (.none, some received)) := by
  by_cases hcode : code < created201
  · rcases checkNonce_request hcode linkNonce received with
      ⟨-, h⟩ | ⟨hle, -, h⟩ | ⟨hle, -, h⟩
    · exact .inl h
    · exact .inr (.inl ⟨hcode, hle, h⟩)
    · exact .inr (.inr (.inl ⟨hcode, hle, h⟩))
  · rcases checkNonce_response hcode linkNonce received with
      ⟨-, h⟩ | ⟨hle, -, h⟩ | ⟨hle, -, h⟩
    · exact .inl h
    · exact .inr (.inr (.inr (.inl ⟨hcode, hle, h⟩)))
    · exact .inr (.inr (.inr (.inr ⟨hcode, hle, h⟩)))

theorem toNat_succ_of_ne_top {n : UInt32} (h : n ≠ resetNonceSignalValue) :
    (n + 1).toNat = n.toNat + 1 := by
  have hlt := n.toNat_lt
  have hne : n.toNat ≠ 4294967295 := by
    intro heq
    exact h (UInt32.toNat_inj.mp heq)
  rw [UInt32.toNat_add]
  exact Nat.mod_eq_of_lt (by simpa using by omega)

/-! ## Runs of messages -/

section Epochs

variable (t : ResourceTable H) (id : NxId)

/-- The links after a message. -/
def receiveStep (m : LinkManager max) (r : Received) : LinkManager max :=
  (r.authenticate t m).2.2.2

/-- What a message means for the nonce of the link to `id`: an accepted request
with its nonce, or a reset to zero. -/
def nonceEvent (m : LinkManager max) (r : Received) : Option (Numbered ℕ) :=
  if r.sender = id then
    match (r.authenticate t m).1 with
    | .none =>
        if r.IsRequest then (r.nonce? m).map fun n => .number n.toNat else none
    | .nonceApproachingMaxForcedResetRequired => some .restart
    | .validNonceSyncReceived =>
        if r.nonce? m = some resetNonceSignalValue then some .restart else none
    | _ => none
  else none

/-- The nonce of the link to `id`. -/
def linkNonce (m : LinkManager max) : UInt32 :=
  ((m.linkFromNxid id).map fun l => l.securityData.nonce).getD 0

/-- No request verifies while the nonce of its link is the highest there
is. -/
def BelowTop (m : LinkManager max) (r : Received) : Prop :=
  r.sender = id → r.IsRequest → (r.nonce? m).isSome →
    linkNonce id m ≠ resetNonceSignalValue

instance (m : LinkManager max) (r : Received) : Decidable (BelowTop id m r) :=
  inferInstanceAs (Decidable (_ → _ → _ → _ ≠ _))

/-- The link to `id`, where there is one, is secured by the one mode there
is. -/
def Mode0 (m : LinkManager max) : Prop :=
  ∀ link, m.linkFromNxid id = some link →
    link.securityMode = securityModeCoseMac0

variable {t id} {m : LinkManager max} {r : Received}

theorem linkFromNxid_of_index {i : Fin max.count}
    (h : m.linkIndexFromNxid id = some i) :
    m.linkFromNxid id = some (m.slot i).link := by
  unfold LinkManager.linkFromNxid
  rw [h]
  rfl

/-- A message of another sender. -/
theorem linkFromNxid_receiveStep_of_ne (h : r.sender ≠ id) :
    (receiveStep t m r).linkFromNxid id = m.linkFromNxid id := by
  unfold receiveStep
  cases hv : r.verified m with
  | none => rw [(Received.authenticate_of_not_verified hv).1]
  | some v =>
      obtain ⟨data, nonce, payload⟩ := v
      rw [Received.authenticate_of_verified hv]
      unfold LinkManager.linkFromNxid
      rw [LinkManager.linkIndexFromNxid_acceptNonce]
      cases hi : m.linkIndexFromNxid id with
      | none => rfl
      | some i =>
          have hother : m.linkIndexFromNxid r.sender ≠ some i := by
            intro hsender
            have h1 := (LinkManager.of_linkIndexFromNxid hi).2
            have h2 := (LinkManager.of_linkIndexFromNxid hsender).2
            exact h (h2.symm.trans h1)
          have hcell := LinkManager.cell_acceptNonce_of_ne
            (checkNonce r.pkt.code data.nonce nonce).2 hother
          exact congrArg (fun c => some c.slot.link) hcell

/-- A message of the linked device that verifies. -/
theorem receiveStep_of_verified (hmode : Mode0 id m) (hsender : r.sender = id)
    {data : SecurityMode0Data} {nonce : UInt32} {payload : List UInt8}
    (hv : r.verified m = some (data, nonce, payload)) :
    ∃ i, m.linkIndexFromNxid id = some i ∧
      (m.slot i).link.securityData = data ∧ linkNonce id m = data.nonce ∧
      (receiveStep t m r) =
        match (checkNonce r.pkt.code data.nonce nonce).2 with
        | none => m
        | some nonce => m.setSlot i ((m.slot i).accept nonce) := by
  obtain ⟨i, hi, hdata⟩ := Received.link_of_verified hv
  rw [hsender] at hi
  have hlink := linkFromNxid_of_index hi
  refine ⟨i, hi, hdata, ?_, ?_⟩
  · unfold linkNonce
    rw [hlink, ← hdata]
    rfl
  · unfold receiveStep
    rw [Received.authenticate_of_verified hv, hsender]
    cases (checkNonce r.pkt.code data.nonce nonce).2 with
    | none => rfl
    | some nonce => exact LinkManager.acceptNonce_eq hi (hmode _ hlink) nonce

theorem linkNonce_accept {i : Fin max.count}
    (hi : m.linkIndexFromNxid id = some i) (nonce : UInt32) :
    linkNonce id (m.setSlot i ((m.slot i).accept nonce)) = nonce := by
  have hi' := (LinkManager.linkIndexFromNxid_setSlot (m := m) (i := i)
    (s := (m.slot i).accept nonce) rfl rfl id).trans hi
  unfold linkNonce
  rw [linkFromNxid_of_index hi', LinkManager.slots_setSlot_self]
  rfl

theorem Mode0.receiveStep (h : Mode0 id m) (r : Received) :
    Mode0 id (receiveStep t m r) := by
  by_cases hsender : r.sender = id
  · cases hv : r.verified m with
    | none =>
        unfold Nexus.Channel.receiveStep
        rw [(Received.authenticate_of_not_verified hv).1]
        exact h
    | some v =>
        obtain ⟨data, nonce, payload⟩ := v
        obtain ⟨i, hi, -, -, heq⟩ :=
          receiveStep_of_verified (t := t) h hsender hv
        rw [heq]
        split
        · exact h
        next nonce' _ =>
          intro link hlink
          have hi' := (LinkManager.linkIndexFromNxid_setSlot (m := m) (i := i)
            (s := (m.slot i).accept nonce') rfl rfl id).trans hi
          rw [linkFromNxid_of_index hi', LinkManager.slots_setSlot_self]
            at hlink
          cases hlink
          have hbefore := h (m.slot i).link (linkFromNxid_of_index hi)
          exact hbefore
  · intro link hlink
    rw [linkFromNxid_receiveStep_of_ne hsender] at hlink
    exact h link hlink

/-- A message that is no accepted request and no reset does not lower the
nonce of the link. -/
theorem linkNonce_of_no_event (hmode : Mode0 id m)
    (h : nonceEvent t id m r = none) :
    (linkNonce id m).toNat ≤ (linkNonce id (receiveStep t m r)).toNat := by
  by_cases hsender : r.sender = id
  · cases hv : r.verified m with
    | none =>
        unfold receiveStep
        rw [(Received.authenticate_of_not_verified hv).1]
    | some v =>
        obtain ⟨data, nonce, payload⟩ := v
        obtain ⟨i, hi, -, hlink, heq⟩ :=
          receiveStep_of_verified (t := t) hmode hsender hv
        unfold nonceEvent at h
        rw [if_pos hsender, Received.authenticate_of_verified hv] at h
        have hnonce := Received.nonce?_of_verified hv
        rw [heq, hlink]
        rcases checkNonce_cases r.pkt.code data.nonce nonce with
          hc | ⟨hcode, -, hc⟩ | ⟨-, -, hc⟩ | ⟨-, hle, hc⟩ | ⟨-, hle, hc⟩
        · rw [hc]
          dsimp only
          rw [hlink]
        · rw [hc, hnonce] at h
          dsimp only at h
          rw [if_pos (show r.IsRequest from hcode)] at h
          cases h
        · rw [hc] at h
          cases h
        · rw [hc, hnonce] at h
          dsimp only at h
          by_cases htop : nonce = resetNonceSignalValue
          · rw [if_pos (by rw [htop])] at h
            cases h
          · rw [hc]
            dsimp only
            rw [if_neg htop, linkNonce_accept hi]
            exact UInt32.le_iff_toNat_le.mp hle
        · rw [hc]
          dsimp only
          rw [linkNonce_accept hi]
          exact UInt32.le_iff_toNat_le.mp hle
  · unfold linkNonce
    rw [linkFromNxid_receiveStep_of_ne hsender]

/-- An accepted request has a higher nonce than the link had, and the link has
that nonce then. -/
theorem linkNonce_of_number (hmode : Mode0 id m) (htop : BelowTop id m r)
    {n : ℕ} (h : nonceEvent t id m r = some (.number n)) :
    (linkNonce id m).toNat < n ∧
      n ≤ (linkNonce id (receiveStep t m r)).toNat := by
  unfold nonceEvent at h
  split at h
  next hsender =>
    cases hv : r.verified m with
    | none =>
        obtain ⟨-, -, -, hsync, hreset, -⟩ :=
          Received.authenticate_of_not_verified (t := t) hv
        have hnonce : r.nonce? m = none := by
          unfold Received.nonce?
          rw [hv]
          rfl
        rw [hnonce] at h
        split at h
        · split at h <;> cases h
        · cases h
        · split at h <;> cases h
        · cases h
    | some v =>
        obtain ⟨data, nonce, payload⟩ := v
        obtain ⟨i, hi, -, hlink, heq⟩ :=
          receiveStep_of_verified (t := t) hmode hsender hv
        have hnonce := Received.nonce?_of_verified hv
        rw [Received.authenticate_of_verified hv, hnonce] at h
        rcases checkNonce_cases r.pkt.code data.nonce nonce with
          hc | ⟨hcode, hle, hc⟩ | ⟨-, -, hc⟩ | ⟨-, hle, hc⟩ | ⟨hcode, -, hc⟩
        · rw [hc] at h
          cases h
        · rw [hc] at h
          dsimp only at h
          rw [if_pos (show r.IsRequest from hcode)] at h
          cases h
          have hne := htop hsender hcode (by rw [hnonce]; rfl)
          rw [hlink] at hne
          have hsucc := toNat_succ_of_ne_top hne
          have hle' := UInt32.le_iff_toNat_le.mp hle
          rw [heq, hc]
          dsimp only
          rw [hlink, linkNonce_accept hi]
          omega
        · rw [hc] at h
          cases h
        · rw [hc] at h
          dsimp only at h
          split at h <;> cases h
        · rw [hc] at h
          dsimp only at h
          rw [if_neg (show ¬ r.IsRequest from hcode)] at h
          cases h
  next => cases h

/-- Between two resets of the nonce of a link, the requests accepted from its
device have growing nonces, as long as none of them is judged against the
highest nonce. -/
theorem accepted_requests_increase (hmode : Mode0 id m) {ops : List Received}
    (hops : Along (receiveStep t) (BelowTop id) m ops)
    {stretch : List (Numbered ℕ)}
    (hstretch : stretch <:+: events (receiveStep t) (nonceEvent t id) m ops)
    (hreset : .restart ∉ stretch) :
    (stretch.filterMap Numbered.value?).Pairwise (· < ·) := by
  obtain ⟨before, after, hevents⟩ := hstretch
  have hincreasing : Increasing ((linkNonce id m).toNat : WithBot ℕ)
      (events (receiveStep t) (nonceEvent t id) m ops) :=
    run_increasing (P := Mode0 id) (fun m => (linkNonce id m).toNat)
    (fun m r h _ => h.receiveStep r)
    (fun m r h _ hnone => linkNonce_of_no_event h hnone)
    (fun m r n h hguard hn => linkNonce_of_number h hguard hn) hmode hops
  rw [← hevents, List.append_assoc] at hincreasing
  exact (hincreasing.of_append.pairwise hreset).2

end Epochs

/-! ## A link at work -/

/-- A device that keeps one link. -/
def oneLink : MaxLinks := ⟨1, by decide, by decide⟩

/-- A peer and the key shared with it. -/
def peerId : NxId := ⟨1, 2⟩

def peerKey : CheckKey := ⟨Vector.ofFn fun i => UInt8.ofNat i⟩

/-- The link to the peer, with a nonce. -/
def linkedAt (nonce : UInt32) : LinkManager oneLink where
  slots := #v[⟨{ Link.zero with
    linkedDeviceId := peerId, securityData := ⟨peerKey, nonce⟩ }, true, false⟩]
  pendingLinkToCreate := Link.zero
  linkCount := 1
  pendingAddLink := false
  pendingClearAllLinks := false
  nv := fun _ => none

/-- A message of the peer. -/
def peerMessage (code : UInt8) (nonce : UInt32) : Received where
  sender := peerId
  pkt := CoapPacket.secure ⟨.non, code, 0, [0], 0, [], 0, []⟩ peerKey nonce
  staleTag := Vector.replicate 8 0

/-- No resources. -/
def noResources : ResourceTable Unit := .empty 0

theorem mode0_linkedAt (nonce : UInt32) : Mode0 peerId (linkedAt nonce) := by
  intro link hlink
  have hfind : (linkedAt nonce).linkFromNxid peerId = some { Link.zero with
      linkedDeviceId := peerId, securityData := ⟨peerKey, nonce⟩ } := rfl
  rw [hfind] at hlink
  cases hlink
  rfl

theorem accepted_requests_increase_twoRequests :
    events (receiveStep noResources) (nonceEvent noResources peerId)
        (linkedAt 4) [peerMessage 1 5, peerMessage 69 7, peerMessage 2 9]
      = [.number 5, .number 9] ∧
    ([.number 5, .number 9].filterMap Numbered.value?).Pairwise
      (fun a b : ℕ => a < b) := by
  have hevents : events (receiveStep noResources)
      (nonceEvent noResources peerId) (linkedAt 4)
      [peerMessage 1 5, peerMessage 69 7, peerMessage 2 9]
      = [.number 5, .number 9] := by decide +kernel
  have hops : Along (receiveStep noResources) (BelowTop peerId) (linkedAt 4)
      [peerMessage 1 5, peerMessage 69 7, peerMessage 2 9] := by decide +kernel
  refine ⟨hevents, accepted_requests_increase (mode0_linkedAt 4) hops ?_
    (by decide)⟩
  rw [hevents]

/-- A response with the highest nonce lets any request in afterwards: the peer's
request with nonce 3 is accepted after its request with nonce 5. -/
theorem accepted_requests_fall_at_top :
    .restart ∉ events (receiveStep noResources)
      (nonceEvent noResources peerId) (linkedAt 4)
      [peerMessage 1 5, peerMessage 69 0xFFFFFFFF, peerMessage 1 3] ∧
    ¬ ((events (receiveStep noResources) (nonceEvent noResources peerId)
      (linkedAt 4)
      [peerMessage 1 5, peerMessage 69 0xFFFFFFFF, peerMessage 1 3]).filterMap
        Numbered.value?).Pairwise (· < ·) := by
  have hevents : events (receiveStep noResources)
      (nonceEvent noResources peerId) (linkedAt 4)
      [peerMessage 1 5, peerMessage 69 0xFFFFFFFF, peerMessage 1 3]
      = [.number 5, .number 3] := by decide +kernel
  rw [hevents]
  decide

end Nexus.Channel
