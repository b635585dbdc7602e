import Nexus.Proofs.Cose
import Nexus.Proofs.Engine

/-!
# Packets between the ends of a link

What one end of a link secures, the other end verifies, whatever its own nonce
is: a nonce sync, for which there is always room, and a response, which has the
nonce of the link when it is sent. How long a payload gets depends on its nonce
alone, and no nonce is shorter than the first.
-/

namespace Nexus.Channel

open Nexus.Util

variable {max : MaxLinks} {H R A : Type}

/-! ## Links -/

/-- A link with this key and nonce. -/
structure Linked (id : NxId) (key : CheckKey) (nonce : UInt32)
    (m : LinkManager max) : Prop where
  mode0 : Mode0 id m
  data : m.securityDataFromNxid id = some ⟨key, nonce⟩

namespace Linked

variable {id : NxId} {key : CheckKey} {nonce : UInt32} {m : LinkManager max}

theorem index (h : Linked id key nonce m) :
    ∃ i, m.linkIndexFromNxid id = some i ∧
      (m.slot i).link.securityData = ⟨key, nonce⟩ ∧
      (m.slot i).link.securityMode = securityModeCoseMac0 := by
  obtain ⟨link, hlink, hdata⟩ := Option.map_eq_some_iff.mp h.data
  have hmode := h.mode0 link hlink
  obtain ⟨i, hi, rfl⟩ := Option.map_eq_some_iff.mp hlink
  exact ⟨i, hi, hdata, hmode⟩

theorem linkNonce_eq (h : Linked id key nonce m) : linkNonce id m = nonce := by
  obtain ⟨link, hlink, hdata⟩ := Option.map_eq_some_iff.mp h.data
  unfold linkNonce
  rw [hlink]
  show link.securityData.nonce = nonce
  rw [hdata]

/-- The nonce of the link is set, and nothing else about it. -/
theorem accept (h : Linked id key nonce m) (nonce' : UInt32) :
    Linked id key nonce' (m.acceptNonce id (some nonce')) := by
  obtain ⟨i, hi, hdata, hmode⟩ := h.index
  have hi' := (LinkManager.linkIndexFromNxid_setSlot (m := m) (i := i)
    (s := (m.slot i).accept nonce') rfl rfl id).trans hi
  have hlink : (m.acceptNonce id (some nonce')).linkFromNxid id
      = some ((m.slot i).accept nonce').link := by
    rw [LinkManager.acceptNonce_eq hi hmode, linkFromNxid_of_index hi',
      LinkManager.slots_setSlot_self]
  constructor
  · intro link hsome
    rw [hlink] at hsome
    cases hsome
    exact hmode
  · unfold LinkManager.securityDataFromNxid
    rw [hlink]
    simp [Slot.accept, hdata]

end Linked

/-! ## Signed packets -/

/-- A packet whose payload has been secured with this key and nonce. -/
structure CoapPacket.Signed (key : CheckKey) (nonce : UInt32)
    (payload : List UInt8) (pkt : CoapPacket) : Prop where
  contentFormat : pkt.contentFormat = applicationCoseMac0
  signed : signEncodeMessage ⟨key, nonce, pkt.aad, payload⟩ maxCborPayloadSize
    = .ok pkt.payload

/-- How many bytes a payload has once it is secured. -/
def securedLength (nonce : UInt32) (payload : List UInt8) : ℕ :=
  12 + (encodeProtectedHeaderMap nonce).length
    + (Cbor.encodeByteString payload).length

/-- No nonce is shorter than the first. -/
theorem securedLength_one_le (nonce : UInt32) (payload : List UInt8) :
    securedLength (0 + 1) payload ≤ securedLength nonce payload := by
  have hone : (encodeProtectedHeaderMap (0 + 1)).length = 3 := by decide
  have hheader : 3 ≤ (encodeProtectedHeaderMap nonce).length := by
    rw [encodeProtectedHeaderMap_eq]
    have hnumber : 0 < (Cbor.encodeNumber nonce.toUInt64
        Cbor.integerType).length := by
      unfold Cbor.encodeNumber
      split_ifs <;> simp
    simp only [List.length_cons]
    omega
  unfold securedLength
  omega

theorem signEncodeMessage_of_length {macParams : MacParams}
    (huri : macParams.aad.coapUri.length ≤ maxHumanReadableUriLength)
    (hlen : securedLength macParams.nonceToProtect macParams.payload
      ≤ maxCborPayloadSize) :
    signEncodeMessage macParams maxCborPayloadSize = .ok (mac0MessageBytes
      macParams.nonceToProtect macParams.payload (messageTag macParams)) :=
  signEncodeMessage_fits (Nat.le_refl _) huri
    (by rw [length_mac0MessageBytes]; exact hlen)

/-- What is too long is not signed. -/
theorem repackBufferSecured_of_long {macParams : MacParams}
    (hlen : ¬ securedLength macParams.nonceToProtect macParams.payload
      ≤ maxCborPayloadSize) : repackBufferSecured macParams = [] := by
  unfold repackBufferSecured
  cases hsigned : signEncodeMessage macParams maxCborPayloadSize with
  | error e => rfl
  | ok bytes =>
      obtain ⟨-, rfl, hfits⟩ := signEncodeMessage_ok hsigned
      rw [length_mac0MessageBytes] at hfits
      exact absurd hfits hlen

theorem repackBufferSecured_of_ok {macParams : MacParams} {bytes : List UInt8}
    (h : signEncodeMessage macParams maxCborPayloadSize = .ok bytes) :
    repackBufferSecured macParams = bytes := by
  unfold repackBufferSecured
  rw [h]

/-- What was secured, if it was. -/
theorem signed_of_isSome {endpoint : OcEndpoint} {pkt : CoapPacket}
    {macParams : MacParams}
    (h : (OcMessage.secured endpoint pkt macParams).signed.isSome) :
    signEncodeMessage macParams maxCborPayloadSize
      = .ok (repackBufferSecured macParams) := by
  unfold OcMessage.secured at h
  split at h
  · cases h
  next hlen =>
    cases hsigned : signEncodeMessage macParams maxCborPayloadSize with
    | error e =>
        refine absurd ?_ hlen
        unfold repackBufferSecured
        rw [hsigned]
        rfl
    | ok bytes => rw [repackBufferSecured_of_ok hsigned]

namespace CoapPacket.Signed

variable {key : CheckKey} {nonce : UInt32} {payload : List UInt8}
  {pkt : CoapPacket}

theorem fits (h : pkt.Signed key nonce payload) :
    pkt.payload.length = securedLength nonce payload ∧
      securedLength nonce payload ≤ maxCborPayloadSize ∧
      pkt.aad.coapUri.length ≤ maxHumanReadableUriLength := by
  obtain ⟨huri, hbytes, hsize⟩ := signEncodeMessage_ok h.signed
  rw [hbytes, length_mac0MessageBytes] at hsize ⊢
  exact ⟨rfl, hsize, huri⟩

theorem length_pos (h : pkt.Signed key nonce payload) :
    0 < pkt.payload.length := by
  rw [h.fits.1]
  unfold securedLength
  omega

/-- Its parts can be read without the key. -/
theorem deserialize (h : pkt.Signed key nonce payload)
    (staleTag : Vector UInt8 8) :
    ∃ tag, deserializeProtectedMessage pkt.payload staleTag
      = .ok ⟨nonce, payload, tag⟩ := by
  obtain ⟨-, hfits, -⟩ := h.fits
  have hshort : payload.length < 255 := by
    unfold securedLength at hfits
    rw [length_encodeByteString] at hfits
    unfold maxCborPayloadSize at hfits
    omega
  obtain ⟨-, hbytes, -⟩ := signEncodeMessage_ok h.signed
  rw [hbytes]
  exact ⟨_, deserializeProtectedMessage_encode nonce hshort _ staleTag⟩

/-- A signed packet verifies at the other end of the link. -/
theorem verified (h : pkt.Signed key nonce payload) {sender : NxId}
    {linkNonce : UInt32} {m : LinkManager max}
    (hlink : Linked sender key linkNonce m) (staleTag : Vector UInt8 8) :
    Received.verified m ⟨sender, pkt, staleTag⟩
      = some (⟨key, linkNonce⟩, nonce, payload) := by
  obtain ⟨-, -, hsize⟩ := signEncodeMessage_ok h.signed
  have hpos := h.length_pos
  have hverify := verifyMessage_sign h.signed staleTag
  have hsecured : messageHeadersSecuredMode0 pkt = true := by
    simp [messageHeadersSecuredMode0, h.contentFormat]
  unfold Received.verified
  rw [if_pos ⟨hsecured, by dsimp only; omega, by dsimp only; omega⟩]
  simp only [hlink.data, hverify]

end CoapPacket.Signed

/-- The packet of a nonce sync. -/
def nonceSync (key : CheckKey) (nonce : UInt32) (mid : UInt16)
    (token : List UInt8) : CoapPacket :=
  { CoapPacket.init .non notAcceptable406 mid token with
    contentFormat := applicationCoseMac0
    payload := repackBufferSecured ⟨key, nonce, ⟨notAcceptable406, []⟩, []⟩ }

/-- There is always room for a nonce sync. -/
theorem signed_nonceSync (key : CheckKey) (nonce : UInt32) (mid : UInt16)
    (token : List UInt8) :
    (nonceSync key nonce mid token).Signed key nonce [] := by
  have hheader := (length_encodeProtectedHeaderMap nonce).2
  have hempty : (Cbor.encodeByteString []).length = 1 := by decide
  have hlen : securedLength nonce [] ≤ maxCborPayloadSize := by
    unfold securedLength
    rw [hempty]
    simp only [maxProtectedHeaderBstrSize, maxCborPayloadSize] at hheader ⊢
    omega
  have hsigned : signEncodeMessage ⟨key, nonce, ⟨notAcceptable406, []⟩, []⟩
      maxCborPayloadSize = .ok _ :=
    signEncodeMessage_of_length (Nat.zero_le _) hlen
  constructor
  · rfl
  · show signEncodeMessage ⟨key, nonce, ⟨notAcceptable406, []⟩, []⟩ _
      = .ok (repackBufferSecured _)
    rw [repackBufferSecured_of_ok hsigned, hsigned]

/-! ## Responses -/

/-- A response, other than a nonce sync. -/
def CoapPacket.IsResponse (response : CoapPacket) : Prop :=
  created201 ≤ response.code ∧ response.code ≠ notAcceptable406 ∧
    response.uriPath = []

section

variable {t : ResourceTable H} {links : LinkManager max} {sender : NxId}
  {key : CheckKey} {nonce : UInt32} {pkt response : CoapPacket}

theorem responseMessage_of_linked (hlink : Linked sender key nonce links)
    (hresponse : response.IsResponse) :
    (responseMessage t links sender pkt response true).signed.isSome →
    responseMessage t links sender pkt response true
      = .secured (nxIdToOcEndpoint sender) response
        ⟨key, nonce, ⟨response.code, []⟩, response.payload⟩ := by
  have hcode : response.code ≠ 0 := by
    intro hzero
    have hle := hresponse.1
    rw [hzero] at hle
    exact absurd hle (by decide)
  intro hsome
  unfold responseMessage at hsome ⊢
  simp only [hlink.data, Bool.or_true, if_true, if_neg hcode] at hsome ⊢
  split at hsome
  · cases hsome
  next hsigned => rw [if_neg hsigned]

/-- A response that is sent secured has the nonce of the link. -/
theorem signed_responseMessage (hlink : Linked sender key nonce links)
    (hresponse : response.IsResponse)
    (hsome : (responseMessage t links sender pkt response true).signed.isSome) :
    (responseMessage t links sender pkt response true).pkt.Signed key nonce
        response.payload ∧
      (responseMessage t links sender pkt response true).pkt.code
        = response.code := by
  have heq := responseMessage_of_linked hlink hresponse hsome
  rw [heq] at hsome ⊢
  have haad : (OcMessage.secured (nxIdToOcEndpoint sender) response
      ⟨key, nonce, ⟨response.code, []⟩, response.payload⟩).pkt.aad
      = ⟨response.code, []⟩ := by
    show ExternalAad.mk response.code _ = _
    simp [OcMessage.secured, hresponse.2.2]
  refine ⟨⟨rfl, ?_⟩, rfl⟩
  rw [haad]
  exact signed_of_isSome hsome

/-- A response without a payload can always be sent secured. -/
theorem exists_responseMessage (t : ResourceTable H) (pkt : CoapPacket)
    (hlink : Linked sender key nonce links) :
    ∃ response : CoapPacket, response.IsResponse ∧
      (responseMessage t links sender pkt response true).signed.isSome := by
  have hsigned : signEncodeMessage
      ⟨key, nonce, ⟨created201, []⟩, []⟩ maxCborPayloadSize = .ok _ :=
    signEncodeMessage_of_length (Nat.zero_le _)
      (signed_nonceSync key nonce 0 []).fits.2.1
  have hpos : (repackBufferSecured
      ⟨key, nonce, ⟨created201, []⟩, []⟩).length ≠ 0 := by
    rw [repackBufferSecured_of_ok hsigned, length_mac0MessageBytes]
    omega
  have hcode : created201 ≠ 0 := by decide
  refine ⟨.init .non created201 0 [], ⟨by decide, by decide, rfl⟩, ?_⟩
  unfold responseMessage
  simp [hlink.data, CoapPacket.init, hcode, OcMessage.secured, hpos]

/-- What becomes of it at a client: it must not be behind. -/
theorem authenticate_response {payload : List UInt8}
    (hsigned : pkt.Signed key nonce payload)
    (hcode : created201 ≤ pkt.code ∧ pkt.code ≠ notAcceptable406) {c : UInt32}
    (hlink : Linked sender key c links) (staleTag : Vector UInt8 8) :
    (nonce < c ∧ (authenticateMessage t links sender pkt staleTag).1
      = .requestReceivedWithInvalidNonce) ∨
    (c ≤ nonce ∧ authenticateMessage t links sender pkt staleTag
      = (.none, { pkt with payload := payload }, true,
        links.acceptNonce sender (some nonce))) := by
  have hauth : authenticateMessage t links sender pkt staleTag = _ :=
    Received.authenticate_of_verified (hsigned.verified hlink staleTag)
  rw [hauth]
  rcases checkNonce_response (UInt8.not_lt.mpr hcode.1) c nonce with
    ⟨hlt, hnonce⟩ | ⟨-, heq, -⟩ | ⟨hle, -, hnonce⟩
  · exact .inl ⟨hlt, by rw [hnonce]⟩
  · exact absurd heq hcode.2
  · exact .inr ⟨hle, by rw [hnonce]⟩

end

end Nexus.Channel
