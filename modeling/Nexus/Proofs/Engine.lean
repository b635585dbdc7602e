import Nexus.Channel.Engine
import Nexus.Proofs.Nonces

/-!
# What becomes of a message

A message that `coap_receive` gets takes one of six ways. If it does not verify
under the key of the link to its sender, it is refused with an empty response
or, not being secured and not having to be, passed on as it is. If it verifies,
it is passed on with the payload that was secured, or answered with the nonce of
the link, or with a reset of the nonce, or it is a nonce sync itself and the
request it answers is sent again. In the first two ways the links stay as they
are; in the others `checkNonce` says what the nonce of the link becomes.

A handler of a resource is called for a message that is passed on, and for no
other.
-/

namespace Nexus.Channel

open Nexus.Util

variable {max : MaxLinks} {H R A : Type}

/-! ## Endpoints -/

/-- Bits that do not meet. -/
theorem or_of_lt {hi lo k : ℕ} (hlo : lo < 2 ^ k) :
    hi * 2 ^ k ||| lo = hi * 2 ^ k + lo := by
  rw [← Nat.shiftLeft_eq, ← Nat.shiftLeft_add_eq_or_of_lt hlo]

/-- Two bytes, put together again. -/
theorem bytes16 (v : UInt16) :
    ((v >>> 8).toUInt8.toUInt16 <<< 8) ||| v.toUInt8.toUInt16 = v := by
  have hv := v.toNat_lt
  have hhigh : ((v >>> 8).toUInt8.toUInt16 <<< 8).toNat
      = v.toNat / 256 % 256 * 2 ^ 8 % 2 ^ 16 := by
    rw [UInt16.toNat_shiftLeft, UInt8.toNat_toUInt16, UInt16.toNat_toUInt8,
      UInt16.toNat_shiftRight]
    simp [Nat.shiftRight_eq_div_pow, Nat.shiftLeft_eq]
  rw [← UInt16.toNat_inj, UInt16.toNat_or, hhigh, UInt8.toNat_toUInt16,
    UInt16.toNat_toUInt8, Nat.mod_eq_of_lt (by omega), or_of_lt (by omega)]
  omega

/-- Four bytes, put together again. -/
theorem bytes32 (v : UInt32) :
    ((v >>> 24).toUInt8.toUInt32 <<< 24)
      ||| ((v >>> 16).toUInt8.toUInt32 <<< 16)
      ||| ((v >>> 8).toUInt8.toUInt32 <<< 8) ||| v.toUInt8.toUInt32 = v := by
  have hv := v.toNat_lt
  have hbyte {k : UInt32} (hk : k.toNat ≤ 24) :
      ((v >>> k).toUInt8.toUInt32 <<< k).toNat
        = v.toNat / 2 ^ k.toNat % 256 * 2 ^ k.toNat := by
    have hpow : 2 ^ k.toNat ≤ 2 ^ 24 := Nat.pow_le_pow_right (by decide) hk
    have hlt : v.toNat / 2 ^ k.toNat % 256 * 2 ^ k.toNat < 2 ^ 32 :=
      calc v.toNat / 2 ^ k.toNat % 256 * 2 ^ k.toNat
          ≤ 255 * 2 ^ 24 := Nat.mul_le_mul (by omega) hpow
        _ < 2 ^ 32 := by decide
    rw [UInt32.toNat_shiftLeft, UInt8.toNat_toUInt32, UInt32.toNat_toUInt8,
      UInt32.toNat_shiftRight, Nat.mod_eq_of_lt (show k.toNat < 32 by omega),
      Nat.shiftRight_eq_div_pow, Nat.shiftLeft_eq, Nat.mod_eq_of_lt hlt]
  have h24 := hbyte (k := 24) (by decide)
  have h16 := hbyte (k := 16) (by decide)
  have h8 := hbyte (k := 8) (by decide)
  rw [← UInt32.toNat_inj]
  simp only [UInt32.toNat_or, h24, h16, h8, UInt8.toNat_toUInt32,
    UInt32.toNat_toUInt8, UInt32.reduceToNat, Nat.or_assoc]
  rw [or_of_lt (k := 8) (by omega), or_of_lt (k := 16) (by omega),
    or_of_lt (k := 24) (by omega)]
  omega

/-- The Nexus ID of an endpoint is the one that was put into it. -/
theorem nxId_nxIdToOcEndpoint (id : NxId) :
    (nxIdToOcEndpoint id).nxId = id := by
  have hflip : ((id.authorityId >>> 8).toUInt8 ^^^ (2 : UInt8)) ^^^ (2 : UInt8)
      = (id.authorityId >>> 8).toUInt8 := by
    rw [UInt8.xor_assoc, UInt8.xor_self, UInt8.xor_zero]
  show NxId.mk
    ((((id.authorityId >>> 8).toUInt8 ^^^ (2 : UInt8)) ^^^ (2 : UInt8)).toUInt16
      <<< 8 ||| id.authorityId.toUInt8.toUInt16)
    ((id.deviceId >>> 24).toUInt8.toUInt32 <<< 24
      ||| (id.deviceId >>> 16).toUInt8.toUInt32 <<< 16
      ||| (id.deviceId >>> 8).toUInt8.toUInt32 <<< 8
      ||| id.deviceId.toUInt8.toUInt32) = id
  rw [hflip, bytes16, bytes32]

theorem same_self (id : NxId) :
    (nxIdToOcEndpoint id).same (nxIdToOcEndpoint id) = true := by
  have hipv6 : (nxIdToOcEndpoint id).flags &&& OcEndpoint.ipv6 ≠ 0 := by
    show (if id = multicastNxId then OcEndpoint.ipv6 ||| OcEndpoint.multicast
      else OcEndpoint.ipv6) &&& OcEndpoint.ipv6 ≠ 0
    by_cases hid : id = multicastNxId
    · rw [if_pos hid]
      decide
    · rw [if_neg hid]
      decide
  simp [OcEndpoint.same, hipv6]

/-! ## Unpacking -/

/-- The packet that is passed on in place of a secured one. -/
def CoapPacket.unpacked (pkt : CoapPacket) (payload : List UInt8) :
    CoapPacket :=
  { pkt with contentFormat := applicationVndOcfCbor, payload := payload }

section

variable {t : ResourceTable H} {m : LinkManager max} {sender : NxId}
  {pkt : CoapPacket} {staleTag : Vector UInt8 8} {data : SecurityMode0Data}
  {nonce : UInt32} {payload : List UInt8}

theorem unpack_of_verified
    (h : Received.verified m ⟨sender, pkt, staleTag⟩
      = some (data, nonce, payload)) :
    unpackPossiblySecuredPayload t m sender pkt staleTag
      = ((checkNonce pkt.code data.nonce nonce).1.status, pkt.unpacked payload,
        true, m.acceptNonce sender (checkNonce pkt.code data.nonce nonce).2) := by
  have hauth : authenticateMessage t m sender pkt staleTag = _ :=
    Received.authenticate_of_verified h
  unfold unpackPossiblySecuredPayload
  rw [hauth]
  rfl

/-- Without a link to its sender, or without a tag that verifies, a message is
passed on as it is or refused. -/
theorem unpack_of_not_verified
    (h : Received.verified m ⟨sender, pkt, staleTag⟩ = none) :
    (messageHeadersSecuredMode0 pkt = false ∧
      requestedMethodIsSecured t pkt = false ∧
      unpackPossiblySecuredPayload t m sender pkt staleTag
        = (.noError, pkt, false, m)) ∨
    ∃ status pkt', unpackPossiblySecuredPayload t m sender pkt staleTag
        = (status, pkt', false, m) ∧
      (status = .badRequest400 ∨ status = .unauthorized401 ∨
        status = .forbidden403) ∧
      pkt'.type = pkt.type ∧ pkt'.mid = pkt.mid ∧ pkt'.token = pkt.token := by
  unfold unpackPossiblySecuredPayload authenticateMessage
  by_cases hsecured : messageHeadersSecuredMode0 pkt = true
  · refine .inr ?_
    rw [if_pos hsecured]
    by_cases hsize : pkt.payload.length > maxCborPayloadSize
    · rw [if_pos hsize]
      exact ⟨_, _, rfl, .inl rfl, rfl, rfl, rfl⟩
    rw [if_neg hsize]
    by_cases hempty : pkt.payload.length = 0
    · rw [if_pos hempty]
      exact ⟨_, _, rfl, .inl rfl, rfl, rfl, rfl⟩
    rw [if_neg hempty]
    unfold Received.verified at h
    rw [if_pos ⟨hsecured, hsize, hempty⟩] at h
    cases hdata : m.securityDataFromNxid sender with
    | none => exact ⟨_, _, rfl, .inr (.inl rfl), rfl, rfl, rfl⟩
    | some data =>
        simp only [hdata] at h ⊢
        cases hverify : verifyMessage data.symKey pkt.aad pkt.payload
            staleTag with
        | ok v =>
            rw [hverify] at h
            cases h
        | error e =>
            cases e with
            | macTagInvalid =>
                exact ⟨_, _, rfl, .inr (.inl rfl), rfl, rfl, rfl⟩
            | _ => exact ⟨_, _, rfl, .inl rfl, rfl, rfl, rfl⟩
  · rw [if_neg hsecured]
    by_cases hmethod : requestedMethodIsSecured t pkt = true
    · rw [if_pos hmethod]
      exact .inr ⟨_, _, rfl, .inr (.inr rfl), rfl, rfl, rfl⟩
    · rw [if_neg hmethod]
      exact .inl ⟨by simpa using hsecured, by simpa using hmethod, rfl⟩

end

/-- What a handler gets of a payload: nothing of an empty one, and otherwise
what the parser makes of it. -/
def Application.Reads (app : Application max H R A) (payload : List UInt8)
    (requestPayload : Option R) : Prop :=
  payload = [] ∧ requestPayload = none ∨ payload ≠ [] ∧
    ∃ rep, app.parseRep payload = .ok rep ∧ requestPayload = some rep

/-! ## The six ways -/

namespace Engine

section

variable {app : Application max H R A} {s : Surroundings} {e : Engine max H A}
  {sender : NxId} {pkt : CoapPacket}

variable (app) in
/-- A message that does not verify. -/
theorem coapReceive_of_not_verified
    (h : Received.verified e.links ⟨sender, pkt, s.staleTag⟩ = none) :
    (messageHeadersSecuredMode0 pkt = false ∧
      requestedMethodIsSecured e.resources pkt = false ∧
      e.coapReceive app s sender pkt = e.passOnwards app s sender pkt false) ∨
    ∃ status : CoapStatus, status.code ≥ OcStatus.badRequest.code ∧
      e.coapReceive app s sender pkt
        = (e, sendEmptyResponse s sender pkt status.code) := by
  unfold coapReceive
  rcases unpack_of_not_verified (t := e.resources) h with
    ⟨hplain, hopen, heq⟩ | ⟨status, pkt', heq, hstatus, htype, hmid, htoken⟩
  · rw [heq]
    exact .inl ⟨hplain, hopen, rfl⟩
  · rw [heq]
    have hsame : sendEmptyResponse (H := H) (R := R) s sender pkt'
        status.code = sendEmptyResponse s sender pkt status.code := by
      unfold sendEmptyResponse
      rw [htype, hmid, htoken]
    refine .inr ⟨status, ?_⟩
    rcases hstatus with rfl | rfl | rfl <;> exact ⟨by decide, by rw [← hsame]⟩

variable (app) in
/-- A message that is not secured and does not have to be. -/
theorem coapReceive_of_plain (hplain : messageHeadersSecuredMode0 pkt = false)
    (hopen : requestedMethodIsSecured e.resources pkt = false) :
    e.coapReceive app s sender pkt = e.passOnwards app s sender pkt false := by
  simp [coapReceive, unpackPossiblySecuredPayload, authenticateMessage, hplain,
    hopen, AuthResult.status]

variable {data : SecurityMode0Data} {nonce : UInt32} {payload : List UInt8}
  {next : Option UInt32}

/-- The device with the nonce of the link to the sender. -/
def accept (e : Engine max H A) (sender : NxId) (nonce : Option UInt32) :
    Engine max H A :=
  { e with links := e.links.acceptNonce sender nonce }

section

variable (h : Received.verified e.links ⟨sender, pkt, s.staleTag⟩
  = some (data, nonce, payload))

include h

/-- A message that verifies and whose nonce is taken. -/
theorem coapReceive_of_none
    (hnonce : checkNonce pkt.code data.nonce nonce = (.none, next)) :
    e.coapReceive app s sender pkt
      = (e.accept sender next).passOnwards app s sender (pkt.unpacked payload)
        true := by
  unfold coapReceive
  rw [unpack_of_verified h, hnonce]
  rfl

/-- A message that verifies, with a nonce that has been used. -/
theorem coapReceive_of_invalid
    (hnonce : checkNonce pkt.code data.nonce nonce
      = (.requestReceivedWithInvalidNonce, none)) :
    e.coapReceive app s sender pkt
      = (e, e.sendNonceSyncResponse s sender (pkt.unpacked payload) false) := by
  unfold coapReceive
  rw [unpack_of_verified h, hnonce]
  rfl

/-- A request that verifies, with a nonce close to the highest. -/
theorem coapReceive_of_reset
    (hnonce : checkNonce pkt.code data.nonce nonce
      = (.nonceApproachingMaxForcedResetRequired, next)) :
    e.coapReceive app s sender pkt
      = (e.accept sender next, (e.accept sender next).sendNonceSyncResponse s
        sender (pkt.unpacked payload) true) := by
  unfold coapReceive
  rw [unpack_of_verified h, hnonce]
  rfl

/-- A nonce sync. -/
theorem coapReceive_of_sync
    (hnonce : checkNonce pkt.code data.nonce nonce
      = (.validNonceSyncReceived, next)) :
    e.coapReceive app s sender pkt
      = (e.accept sender next).sendPreviousRequest s sender pkt.mid := by
  unfold coapReceive
  rw [unpack_of_verified h, hnonce]
  rfl

end

/-! ## Calls of handlers -/

/-- A request goes to the handler of its resource. -/
theorem findHandler_eq_ok {t : ResourceTable H} {method : Method} {handler : H}
    {request : OcRequest H R}
    (h : findHandler app t sender pkt method = .ok (handler, request)) :
    t.getResourceByUri pkt.uriPath = some request.resource ∧
      request.resource.handler method = some handler ∧
      request.method = method ∧ request.origin = sender ∧
      request.resource.ifaceMask pkt.queryInterface
        &&& ~~~request.resource.interfaces = 0 ∧
      app.Reads pkt.payload request.requestPayload := by
  unfold findHandler at h
  dsimp only at h
  split at h
  · cases h
  · cases h
  next parsed hparsed =>
    split at h
    · cases h
    next resource hresource =>
      split at h
      · cases h
      next hallowed =>
        split at h
        · cases h
        next handler' hhandler =>
          cases h
          refine ⟨hresource, hhandler, rfl, rfl,
            not_not.mp (not_or.mp hallowed).1, ?_⟩
          split at hparsed
          next hpayload =>
            obtain ⟨rep, hrep, rfl⟩ : ∃ rep,
                app.parseRep pkt.payload = .ok rep ∧ some rep = parsed := by
              cases hrep : app.parseRep pkt.payload with
              | error e =>
                  rw [hrep] at hparsed
                  cases hparsed
              | ok rep =>
                  rw [hrep] at hparsed
                  cases hparsed
                  exact ⟨rep, rfl, rfl⟩
            exact .inr ⟨List.ne_nil_of_length_pos hpayload, rep, hrep, rfl⟩
          next hempty =>
            cases hparsed
            exact .inl ⟨List.eq_nil_of_length_eq_zero (by omega), rfl⟩

/-- What the handler does is what becomes of the request. -/
theorem invoke_of_ok {method : Method} {handler : H} {request : OcRequest H R}
    (h : findHandler app e.resources sender pkt method
      = .ok (handler, request)) :
    invokeCoapEntityHandler app e sender pkt method
      = ((app.handle handler request e.links e.app).1.elim
          (responseBuffer sender 0 []) (fun response =>
            responseBuffer sender response.status.code response.payload),
        [.handled handler request],
        (app.handle handler request e.links e.app).2) := by
  rcases hhandled : app.handle handler request e.links e.app
    with ⟨response, state⟩
  simp only [invokeCoapEntityHandler, h, hhandled]
  cases response <;> rfl

/-- A request that is passed on calls no handler but that of its resource. -/
theorem handled_of_receiveRequest {rcvdPktSecured : Bool} {method : Method}
    {handler : H} {request : OcRequest H R}
    (h : .handled handler request
      ∈ (e.receiveRequest app s sender pkt rcvdPktSecured method).2) :
    findHandler app e.resources sender pkt method
      = .ok (handler, request) := by
  have hinvoke (h : Effect.handled handler request
      ∈ (invokeCoapEntityHandler app e sender pkt method).2.1) :
      findHandler app e.resources sender pkt method
        = .ok (handler, request) := by
    unfold invokeCoapEntityHandler at h
    split at h
    · cases h
    next handler' request' hfound =>
      rw [List.mem_singleton] at h
      cases h
      exact hfound
  unfold receiveRequest at h
  dsimp only at h
  split at h
  · split at h
    · exact hinvoke h
    · split at h
      · exact hinvoke h
      · rcases List.mem_append.mp h with h | h
        · exact hinvoke h
        · cases List.mem_singleton.mp h
  · cases h

/-- Requests that are sent call no handler. -/
theorem sent_of_sendRequests (e : Engine max H A) (rs : List OutgoingRequest)
    {effect : Effect H R} (h : effect ∈ (e.sendRequests rs).2) :
    ∃ message, effect = .sent message := by
  induction rs generalizing e with
  | nil => cases h
  | cons r rs ih =>
      have hor : effect ∈ (e.sendRequest r).2 ∨
          effect ∈ ((e.sendRequest r).1.sendRequests rs).2 :=
        List.mem_append.mp h
      rcases hor with h | h
      · unfold sendRequest at h
        dsimp only at h
        split at h
        · cases h
        · obtain ⟨message, -, rfl⟩ :=
            Option.map_eq_some_iff.mp (Option.mem_toList.mp h)
          exact ⟨message, rfl⟩
      · exact ih _ h

/-- Nor does a response that is passed on. -/
theorem not_handled_of_receiveResponse {rcvdPktSecured : Bool} {handler : H}
    {request : OcRequest H R} :
    .handled handler request
      ∉ (e.receiveResponse app sender pkt rcvdPktSecured).2 := by
  intro h
  unfold receiveResponse at h
  dsimp only at h
  split at h
  · cases h
  · split at h
    · cases h
    · rcases List.mem_cons.mp h with h | h
      · cases h
      · obtain ⟨message, hsent⟩ := sent_of_sendRequests _ _ h
        cases hsent

/-- What the handler of a resource is called for: a packet that verified, with
the payload that was secured, or one that did not have to be secured. -/
theorem handled_of_coapReceive {handler : H} {request : OcRequest H R}
    (h : .handled handler request ∈ (e.coapReceive app s sender pkt).2) :
    ∃ method, methodOfCode pkt.code = some method ∧
      ((∃ data nonce payload,
          Received.verified e.links ⟨sender, pkt, s.staleTag⟩
            = some (data, nonce, payload) ∧
          findHandler app e.resources sender (pkt.unpacked payload) method
            = .ok (handler, request)) ∨
        requestedMethodIsSecured e.resources pkt = false ∧
          findHandler app e.resources sender pkt method
            = .ok (handler, request)) := by
  have hpass {e' : Engine max H A} {pkt' : CoapPacket} {rcvdPktSecured : Bool}
      (h : Effect.handled handler request
        ∈ (e'.passOnwards app s sender pkt' rcvdPktSecured).2) :
      ∃ method, methodOfCode pkt'.code = some method ∧
        findHandler app e'.resources sender pkt' method
          = .ok (handler, request) := by
    unfold passOnwards at h
    dsimp only at h
    split at h
    next method hmethod =>
      exact ⟨method, hmethod,
        handled_of_receiveRequest (e := e'.clearTransaction pkt'.mid) h⟩
    · exact absurd h not_handled_of_receiveResponse
  have hsync {e' : Engine max H A} {pkt' : CoapPacket} {reset : Bool} :
      Effect.handled handler request
        ∉ e'.sendNonceSyncResponse (R := R) s sender pkt' reset := by
    intro h
    unfold sendNonceSyncResponse at h
    split at h
    · cases h
    · dsimp only at h
      split at h
      · cases List.mem_singleton.mp h
      · cases h
  cases hv : Received.verified e.links ⟨sender, pkt, s.staleTag⟩ with
  | none =>
      rcases coapReceive_of_not_verified app hv with
        ⟨-, hopen, heq⟩ | ⟨status, -, heq⟩
      · rw [heq] at h
        obtain ⟨method, hmethod, hfound⟩ := hpass h
        exact ⟨method, hmethod, .inr ⟨hopen, hfound⟩⟩
      · rw [heq] at h
        unfold sendEmptyResponse at h
        dsimp only at h
        split at h
        · cases List.mem_singleton.mp h
        · cases h
  | some v =>
      obtain ⟨data, nonce, payload⟩ := v
      have hnone {next : Option UInt32}
          (hnonce : checkNonce pkt.code data.nonce nonce = (.none, next)) :
          ∃ method, methodOfCode pkt.code = some method ∧
            findHandler app e.resources sender (pkt.unpacked payload) method
              = .ok (handler, request) := by
        rw [coapReceive_of_none hv hnonce] at h
        exact hpass h
      rcases checkNonce_cases pkt.code data.nonce nonce with hnonce |
        ⟨-, -, hnonce⟩ | ⟨-, -, hnonce⟩ | ⟨-, -, hnonce⟩ | ⟨-, -, hnonce⟩
      · rw [coapReceive_of_invalid hv hnonce] at h
        exact absurd h hsync
      · obtain ⟨method, hmethod, hfound⟩ := hnone hnonce
        exact ⟨method, hmethod, .inl ⟨data, nonce, payload, rfl, hfound⟩⟩
      · rw [coapReceive_of_reset hv hnonce] at h
        exact absurd h hsync
      · rw [coapReceive_of_sync hv hnonce] at h
        unfold sendPreviousRequest at h
        split at h
        · cases h
        · split at h
          · cases h
          · split at h
            · cases h
            · split at h
              · cases List.mem_singleton.mp h
              · cases h
      · obtain ⟨method, hmethod, hfound⟩ := hnone hnonce
        exact ⟨method, hmethod, .inl ⟨data, nonce, payload, rfl, hfound⟩⟩

end

end Engine

end Nexus.Channel
