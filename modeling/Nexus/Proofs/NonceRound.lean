import Nexus.Proofs.SecuredPackets

/-!
# One round

A client has sent one secured request to a server it shares a link with, and
nothing else is going on. Packets go back and forth in rounds: the server gets
what was sent to it, the client what the server sent to it, and what the client
sends then is there for the next round. Nothing is lost.

A request on its way meets one of four fates in a round. The server accepts it;
or both ends go back to nonce zero and the client asks again; or the client is
told the server's nonce, takes it and asks again; or it does not take it, being
ahead itself, and tells the server so, which has nothing to send again. A packet
that does not verify is answered by an error, which reaches no one.
-/

namespace Nexus.Channel

open Nexus.Util

/-! ## Rounds -/

/-- A device on the network. -/
structure Peer (max : MaxLinks) (H R A : Type) where
  id : NxId
  app : Application max H R A

section

variable {max : MaxLinks} {H R A : Type}

/-- The device sends a request. -/
def Peer.sendRequest (_ : Peer max H R A) (e : Engine max H A)
    (r : OutgoingRequest) : Engine max H A × List (Effect H R) :=
  e.sendRequest r

/-- The packets that go out to a device. -/
def packetsTo (id : NxId) (effects : List (Effect H R)) : List CoapPacket :=
  effects.filterMap fun effect =>
    match effect with
    | .sent message =>
        if message.endpoint.nxId = id then some message.pkt else none
    | _ => none

namespace Engine

/-- One packet after the other, all of one sender. -/
def coapReceives (app : Application max H R A) (s : Surroundings)
    (e : Engine max H A) (sender : NxId) :
    List CoapPacket → Engine max H A × List (Effect H R)
  | [] => (e, [])
  | pkt :: pkts =>
      let (e, effects) := e.coapReceive app s sender pkt
      let (e, effects') := e.coapReceives app s sender pkts
      (e, effects ++ effects')

/-- The device accepts a packet as a secured one. -/
def accepts (e : Engine max H A) (s : Surroundings) (sender : NxId)
    (pkt : CoapPacket) : Bool :=
  let (result, _, moved, _) :=
    authenticateMessage e.resources e.links sender pkt s.staleTag
  moved && result = .none

end Engine

/-- A secured response with code 4.06. -/
def CoapPacket.isNonceSync (pkt : CoapPacket) : Bool :=
  pkt.code == notAcceptable406 && messageHeadersSecuredMode0 pkt

end

variable {max max' : MaxLinks} {H H' R R' A A' : Type}

/-- Two devices, the packets on their way to the server, and how many nonce
syncs there have been. -/
structure Exchange (max max' : MaxLinks) (H H' A A' : Type) where
  client : Engine max H A
  server : Engine max' H' A'
  toServer : List CoapPacket
  nonceSyncs : ℕ

namespace Exchange

section

variable (client : Peer max H R A) (server : Peer max' H' R' A')

/-- One round, in the surroundings of the client and those of the server. It is
over when the server accepts what it gets. -/
def round (w : Surroundings × Surroundings)
    (x : Exchange max max' H H' A A') : Exchange max max' H H' A A' :=
  if x.toServer.any (x.server.accepts w.2 client.id) then x
  else
    let (e', effects') :=
      x.server.coapReceives server.app w.2 client.id x.toServer
    let toClient := packetsTo client.id effects'
    let (e, effects) := x.client.coapReceives client.app w.1 server.id toClient
    let toServer := packetsTo server.id effects
    ⟨e, e', toServer,
      x.nonceSyncs + (toClient ++ toServer).countP CoapPacket.isNonceSync⟩

/-- The exchange before the round with this number. -/
def rounds (w : ℕ → Surroundings × Surroundings)
    (x : Exchange max max' H H' A A') : ℕ → Exchange max max' H H' A A'
  | 0 => x
  | n + 1 => round client server (w n) (rounds w x n)

/-- The client, and what is on its way after it has sent a request. -/
def start (e : Engine max H A) (e' : Engine max' H' A') (r : OutgoingRequest) :
    Exchange max max' H H' A A' :=
  let (e, effects) := client.sendRequest e r
  ⟨e, e', packetsTo server.id effects, 0⟩

/-- The server accepts the request in this round, after no more than two nonce
syncs, and the client accepts every secured response to it, after which both
ends of the link have the same nonce. -/
def Settled (w : Surroundings × Surroundings) (r : OutgoingRequest)
    (x : Exchange max max' H H' A A') : Prop :=
  ∃ pkt links, x.toServer = [pkt] ∧
    authenticateMessage x.server.resources x.server.links client.id pkt
        w.2.staleTag
      = (.none, { pkt with payload := r.payload }, true, links) ∧
    pkt.code = r.method.code ∧ pkt.uriPath = r.packet.uriPath ∧
    x.nonceSyncs ≤ 2 ∧
    ∀ response : CoapPacket, response.IsResponse → ∀ message,
      responseMessage x.server.resources links client.id pkt response true
        = message → message.signed.isSome → ∀ staleTag,
      ∃ links', authenticateMessage x.client.resources x.client.links server.id
          message.pkt staleTag
        = (.none, { message.pkt with payload := response.payload }, true,
          links') ∧
        linkNonce server.id links' = linkNonce client.id links

/-- The exchange comes to its end. -/
def Converges (w : ℕ → Surroundings × Surroundings) (r : OutgoingRequest)
    (x : Exchange max max' H H' A A') : Prop :=
  ∃ n, Settled client server (w n) r (rounds client server w x n)

end

end Exchange

/-! ## Packets of the exchange -/

/-- The secured packet of a request, with these bytes in it. -/
def OutgoingRequest.carrying (r : OutgoingRequest) (payload : List UInt8) :
    CoapPacket :=
  { r.packet with contentFormat := applicationCoseMac0, payload := payload }

theorem OutgoingRequest.isRequest (r : OutgoingRequest)
    (payload : List UInt8) : (r.carrying payload).code < created201 := by
  show r.method.code < created201
  cases r.method <;> decide

theorem OutgoingRequest.not_isNonceSync (r : OutgoingRequest)
    (payload : List UInt8) : (r.carrying payload).isNonceSync = false := by
  have hcode : (r.carrying payload).code ≠ notAcceptable406 := by
    intro heq
    have hlt := r.isRequest payload
    rw [heq] at hlt
    exact absurd hlt (by decide)
  simp [CoapPacket.isNonceSync, hcode]

/-! ## One device -/

namespace Engine

variable {e : Engine max H A} {s : Surroundings} {sender : NxId}
  {pkt : CoapPacket} {key : CheckKey} {nonce : UInt32}

theorem accepts_of_verified {data : SecurityMode0Data} {nonce : UInt32}
    {payload : List UInt8}
    (h : Received.verified e.links ⟨sender, pkt, s.staleTag⟩
      = some (data, nonce, payload)) :
    e.accepts s sender pkt
      = decide ((checkNonce pkt.code data.nonce nonce).1 = .none) := by
  have hauth : authenticateMessage e.resources e.links sender pkt s.staleTag
      = _ := Received.authenticate_of_verified h
  unfold accepts
  rw [hauth]
  rfl

theorem accepts_of_not_verified
    (h : Received.verified e.links ⟨sender, pkt, s.staleTag⟩ = none) :
    e.accepts s sender pkt = false := by
  have hmoved : (authenticateMessage e.resources e.links sender pkt
      s.staleTag).2.2.1 = false :=
    (Received.authenticate_of_not_verified (t := e.resources) h).2.1
  simp [accepts, hmoved]

/-- A nonce sync is always sent. -/
theorem packetsTo_sendNonceSyncResponse (hlink : Linked sender key nonce e.links)
    (hfree : s.messageFree = true) (pkt : CoapPacket) (isNonceReset : Bool) :
    packetsTo sender
        (e.sendNonceSyncResponse (R := R) s sender pkt isNonceReset)
      = [nonceSync key (if isNonceReset then resetNonceSignalValue else nonce)
          pkt.mid pkt.token] := by
  simp [sendNonceSyncResponse, hlink.data, hfree, packetsTo, OcMessage.secured,
    nxId_nxIdToOcEndpoint, nonceSync]

/-- So is the response to what does not verify. -/
theorem packetsTo_sendEmptyResponse (hfree : s.messageFree = true)
    (code : UInt8) :
    packetsTo sender (sendEmptyResponse (H := H) (R := R) s sender pkt code)
      = [.init (if pkt.type = .con then .ack else .non) code pkt.mid
          pkt.token] := by
  simp [sendEmptyResponse, hfree, packetsTo, nxId_nxIdToOcEndpoint]

/-- The request is kept, to be sent again. -/
def Caches (e : Engine max H A) (peer : NxId) (r : OutgoingRequest)
    (payload : List UInt8) : Prop :=
  ∃ t message, (e.client.transactions.find? fun t => t.mid = r.mid) = some t ∧
    e.messages t.requestId = some message ∧
    message.endpoint = nxIdToOcEndpoint peer ∧
    message.pkt = r.carrying payload

/-- It is sent again with the next nonce of the link, if it fits then. -/
theorem sendPreviousRequest_of_caches {r : OutgoingRequest} {used : UInt32}
    {bytes : List UInt8} (hcached : e.Caches sender r bytes)
    (hsigned : (r.carrying bytes).Signed key used r.payload)
    (hlink : Linked sender key nonce e.links) :
    ∃ messages, e.sendPreviousRequest (R := R) s sender r.mid
        = ({ e with messages := messages },
          [.sent (.secured (nxIdToOcEndpoint sender) (r.carrying bytes)
            ⟨key, nonce + 1, r.packet.aad, r.payload⟩)]) ∧
      Caches { e with messages := messages } sender r
        (repackBufferSecured ⟨key, nonce + 1, r.packet.aad, r.payload⟩) := by
  obtain ⟨t, message, hfind, hmessage, hto, hpkt⟩ := hcached
  obtain ⟨endpoint, pkt, signed⟩ := message
  dsimp only at hto hpkt
  subst hto hpkt
  obtain ⟨tag, hread⟩ := hsigned.deserialize s.staleTag
  refine ⟨Function.update e.messages t.requestId (some (.secured
    (nxIdToOcEndpoint sender) (r.carrying bytes)
    ⟨key, nonce + 1, r.packet.aad, r.payload⟩)), ?_, ?_⟩
  · unfold sendPreviousRequest
    simp only [hfind, hmessage, same_self, Bool.true_eq_false, if_false, hread,
      nxId_nxIdToOcEndpoint, hlink.data]
    rfl
  · exact ⟨t, _, hfind, Function.update_self .., rfl, rfl⟩

/-- A response that is not secured reaches no callback of a secured request. -/
theorem receiveResponse_of_plain (app : Application max H R A)
    (hsecured : ∀ cb ∈ e.client.clientCbs, cb.nxRequestSecured = true) :
    e.receiveResponse app sender pkt false = (e, []) := by
  have hnone : e.client.invokedCb (clientResponse pkt false) = none := by
    unfold ClientCbs.invokedCb
    split
    · rfl
    · refine Option.filter_eq_none_iff.mpr ?_
      intro cb hcb
      have hmem := List.mem_of_find?_eq_some hcb
      simp [hsecured cb hmem, clientResponse]
  unfold receiveResponse
  dsimp only
  rw [hnone]

end Engine

/-! ## One round -/

namespace Exchange

variable {client : Peer max H R A} {server : Peer max' H' R' A'}
  {w : Surroundings × Surroundings} {x : Exchange max max' H H' A A'}
  {r : OutgoingRequest} {key : CheckKey} {c s n : UInt32} {k : ℕ}

/-- One packet to the server, one back. -/
theorem round_eq {pkt pkt' : CoapPacket} {e : Engine max H A}
    {e' : Engine max' H' A'} {effects : List (Effect H R)}
    {effects' : List (Effect H' R')} (hto : x.toServer = [pkt])
    (hrefused : x.server.accepts w.2 client.id pkt = false)
    (hserver : x.server.coapReceive server.app w.2 client.id pkt
      = (e', effects'))
    (hback : packetsTo client.id effects' = [pkt'])
    (hclient : x.client.coapReceive client.app w.1 server.id pkt'
      = (e, effects)) :
    round client server w x = ⟨e, e', packetsTo server.id effects,
      x.nonceSyncs
        + (pkt' :: packetsTo server.id effects).countP CoapPacket.isNonceSync⟩ := by
  simp [round, hto, hrefused, Engine.coapReceives, hserver, hback, hclient]

/-- Nothing comes of nothing. -/
theorem round_of_nil (hto : x.toServer = []) :
    (round client server w x).toServer = [] := by
  simp [round, hto, Engine.coapReceives, packetsTo]

/-- Both ends of a link, and a request on its way from one to the other that
may be sent again. -/
structure Asks (client : Peer max H R A) (server : Peer max' H' R' A')
    (r : OutgoingRequest) (key : CheckKey) (c s n : UInt32) (k : ℕ)
    (x : Exchange max max' H H' A A') : Prop where
  linked : Linked server.id key c x.client.links
  linked' : Linked client.id key s x.server.links
  callbacks : ∀ cb ∈ x.client.client.clientCbs, cb.nxRequestSecured = true
  idle' : x.server.client.transactions = []
  inFlight : ∃ bytes, x.toServer = [r.carrying bytes] ∧
    (r.carrying bytes).Signed key n r.payload ∧
    x.client.Caches server.id r bytes
  nonceSyncs : x.nonceSyncs = k

/-- Both ends of a link, and a packet on its way that does not verify. -/
structure Spoilt (client : Peer max H R A) (server : Peer max' H' R' A')
    (x : Exchange max max' H H' A A') : Prop where
  callbacks : ∀ cb ∈ x.client.client.clientCbs, cb.nxRequestSecured = true
  inFlight : ∃ pkt, x.toServer = [pkt] ∧
    messageHeadersSecuredMode0 pkt = true ∧
    ∀ staleTag, Received.verified x.server.links ⟨client.id, pkt, staleTag⟩
      = none

/-- It is refused without a secured response, and that is the end. -/
theorem Spoilt.round (h : Spoilt client server x)
    (hfree : w.2.messageFree = true) :
    (round client server w x).toServer = [] := by
  obtain ⟨pkt, hto, hheaders, hverified⟩ := h.inFlight
  have hrefused := Engine.accepts_of_not_verified (s := w.2)
    (hverified w.2.staleTag)
  rcases Engine.coapReceive_of_not_verified server.app
    (hverified w.2.staleTag) with ⟨hplain, -⟩ | ⟨status, hstatus, hserver⟩
  · rw [hheaders] at hplain
    cases hplain
  have hback : packetsTo client.id
      (Engine.sendEmptyResponse (H := H') (R := R') w.2 client.id pkt
        status.code) = _ := Engine.packetsTo_sendEmptyResponse hfree _
  -- the client gets an error that is not secured
  have hmethod : methodOfCode status.code = none := by
    revert hstatus
    cases status <;> decide
  have hclient (type : CoapType) : x.client.coapReceive client.app w.1
      server.id (.init type status.code pkt.mid pkt.token)
        = (x.client.clearTransaction pkt.mid, []) := by
    rw [Engine.coapReceive_of_plain client.app rfl rfl]
    unfold Engine.passOnwards
    simp only [CoapPacket.init, hmethod]
    exact Engine.receiveResponse_of_plain client.app h.callbacks
  rw [round_eq hto hrefused hserver hback (hclient _)]
  rfl

/-- The client is told a nonce it accepts, and asks again. -/
theorem Asks.resend (h : Asks client server r key c s n k x)
    {bytes : List UInt8} (hto : x.toServer = [r.carrying bytes])
    (hrefused : x.server.accepts w.2 client.id (r.carrying bytes) = false)
    {e' : Engine max' H' A'} {effects' : List (Effect H' R')}
    (hserver : x.server.coapReceive server.app w.2 client.id
      (r.carrying bytes) = (e', effects'))
    {received next s' : UInt32}
    (hback : packetsTo client.id effects'
      = [nonceSync key received r.mid [r.token]])
    (hlinked' : Linked client.id key s' e'.links)
    (hidle' : e'.client.transactions = []) (hle : c ≤ received)
    (hnext : (if received = resetNonceSignalValue then 0 else received)
      = next) :
    (securedLength (next + 1) r.payload ≤ maxCborPayloadSize →
      Asks client server r key next s' (next + 1) (k + 1)
        (Exchange.round client server w x)) ∧
    (¬ securedLength (next + 1) r.payload ≤ maxCborPayloadSize →
      Spoilt client server (Exchange.round client server w x)) := by
  obtain ⟨bytes', hto', hsigned, hcached⟩ := h.inFlight
  rw [hto] at hto'
  cases hto'
  have hsync := (signed_nonceSync key received r.mid [r.token]).verified
    h.linked w.1.staleTag
  have hnonce : checkNonce notAcceptable406 c received
      = (.validNonceSyncReceived, some next) := by
    rw [← hnext]
    simp [checkNonce, UInt32.not_lt.mpr hle, notAcceptable406, created201]
  have hlinked := h.linked.accept next
  obtain ⟨messages, hsend, hcached'⟩ :=
    Engine.sendPreviousRequest_of_caches (R := R) (s := w.1)
      (e := x.client.accept server.id (some next)) hcached hsigned hlinked
  have hclient : x.client.coapReceive client.app w.1 server.id
      (nonceSync key received r.mid [r.token]) = _ :=
    (Engine.coapReceive_of_sync hsync hnonce).trans hsend
  have hforth : packetsTo server.id [Effect.sent (H := H) (R := R)
      (.secured (nxIdToOcEndpoint server.id) (r.carrying bytes)
        ⟨key, next + 1, r.packet.aad, r.payload⟩)]
      = [r.carrying (repackBufferSecured
        ⟨key, next + 1, r.packet.aad, r.payload⟩)] := by
    simp [packetsTo, OcMessage.secured, nxId_nxIdToOcEndpoint,
      OutgoingRequest.carrying]
  have hcount (payload : List UInt8) :
      [nonceSync key received r.mid [r.token], r.carrying payload].countP
        CoapPacket.isNonceSync = 1 := by
    rw [List.countP_cons_of_pos rfl, List.countP_cons_of_neg
      (by rw [r.not_isNonceSync]; decide)]
    rfl
  rw [round_eq hto hrefused hserver hback hclient, hforth, hcount,
    h.nonceSyncs]
  constructor
  · intro hfits
    have hsigned' : signEncodeMessage ⟨key, next + 1, r.packet.aad, r.payload⟩
        maxCborPayloadSize = .ok _ :=
      signEncodeMessage_of_length hsigned.fits.2.2 hfits
    refine ⟨hlinked, hlinked', h.callbacks, hidle', ⟨_, rfl, ⟨rfl, ?_⟩,
      hcached'⟩, rfl⟩
    exact hsigned'.trans
      (congrArg Except.ok (repackBufferSecured_of_ok hsigned').symm)
  · intro hlong
    have hempty : repackBufferSecured
        ⟨key, next + 1, r.packet.aad, r.payload⟩ = [] :=
      repackBufferSecured_of_long hlong
    refine ⟨h.callbacks, _, rfl, rfl, ?_⟩
    intro staleTag
    rw [hempty]
    unfold Received.verified
    rw [if_neg]
    intro hsize
    exact hsize.2.2 rfl

/-- What the server accepts of a request that verifies. -/
theorem Asks.any_accepts (h : Asks client server r key c s n k x)
    (w : Surroundings) :
    x.toServer.any (x.server.accepts w client.id)
      = decide (s + 1 ≤ n ∧
        n ≤ resetNonceSignalValue - nonceNvStorageIntervalCount) := by
  obtain ⟨bytes, hto, hsigned, -⟩ := h.inFlight
  have hverified := hsigned.verified h.linked' w.staleTag
  rw [hto, List.any_cons, List.any_nil, Bool.or_false,
    Engine.accepts_of_verified hverified]
  rcases checkNonce_request (r.isRequest bytes) s n with
    ⟨hused, hnonce⟩ | ⟨hnew, hlow, hnonce⟩ | ⟨-, hhigh, hnonce⟩
  · simp [hnonce, UInt32.not_le.mpr hused]
  · simp [hnonce, hnew, hlow]
  · simp [hnonce, UInt32.not_le.mpr hhigh]

theorem Asks.not_accepted_of_used (h : Asks client server r key c s n k x)
    (hused : n < s + 1) (w : Surroundings) :
    x.toServer.any (x.server.accepts w client.id) = false := by
  rw [h.any_accepts w]
  exact decide_eq_false fun hboth => UInt32.not_le.mpr hused hboth.1

/-- The server is ahead of a request, and the client is not ahead of it. -/
theorem Asks.behind (h : Asks client server r key c s n k x)
    (hfree : w.2.messageFree = true) (hused : n < s + 1) (hle : c ≤ s) :
    (securedLength (s + 1) r.payload ≤ maxCborPayloadSize →
      Asks client server r key s s (s + 1) (k + 1)
        (Exchange.round client server w x)) ∧
    (¬ securedLength (s + 1) r.payload ≤ maxCborPayloadSize →
      Spoilt client server (Exchange.round client server w x)) := by
  have hany := h.any_accepts w.2
  obtain ⟨bytes, hto, hsigned, -⟩ := h.inFlight
  have hrefused : x.server.accepts w.2 client.id (r.carrying bytes)
      = false := by
    simpa [hto, UInt32.not_le.mpr hused] using hany
  have hverified := hsigned.verified h.linked' w.2.staleTag
  have hnonce : checkNonce (r.carrying bytes).code s n
      = (.requestReceivedWithInvalidNonce, none) := by
    unfold checkNonce
    rw [if_pos (r.isRequest bytes), if_pos hused]
  have hserver : x.server.coapReceive server.app w.2 client.id
      (r.carrying bytes) = _ := Engine.coapReceive_of_invalid hverified hnonce
  have htop : s ≠ resetNonceSignalValue := by
    intro hs
    rw [hs] at hused
    exact absurd hused (by simp [resetNonceSignalValue])
  exact h.resend hto hrefused hserver
    (Engine.packetsTo_sendNonceSyncResponse h.linked' hfree _ false)
    h.linked' h.idle' hle (if_neg htop)

/-- A request close to the highest nonce: both ends start again. -/
theorem Asks.reset (h : Asks client server r key c s n k x)
    (hfree : w.2.messageFree = true) (hnew : s + 1 ≤ n)
    (hhigh : n > resetNonceSignalValue - nonceNvStorageIntervalCount) :
    Asks client server r key 0 0 (0 + 1) (k + 1)
      (Exchange.round client server w x) := by
  have hany := h.any_accepts w.2
  obtain ⟨bytes, hto, hsigned, -⟩ := h.inFlight
  have hrefused : x.server.accepts w.2 client.id (r.carrying bytes)
      = false := by
    simpa [hto, UInt32.not_le.mpr hhigh] using hany
  have hverified := hsigned.verified h.linked' w.2.staleTag
  have hnonce : checkNonce (r.carrying bytes).code s n
      = (.nonceApproachingMaxForcedResetRequired, some 0) := by
    unfold checkNonce
    rw [if_pos (r.isRequest bytes), if_neg (UInt32.not_lt.mpr hnew),
      if_pos hhigh]
  have hserver : x.server.coapReceive server.app w.2 client.id
      (r.carrying bytes) = _ := Engine.coapReceive_of_reset hverified hnonce
  have hlinked' : Linked client.id key 0
      (x.server.accept client.id (some 0)).links := h.linked'.accept 0
  have hle : c ≤ resetNonceSignalValue := by
    have hlt := c.toNat_lt
    exact UInt32.le_iff_toNat_le.mpr (Nat.le_of_lt_succ hlt)
  have hresend := h.resend hto hrefused hserver
    (Engine.packetsTo_sendNonceSyncResponse hlinked' hfree _ true) hlinked'
    h.idle' hle (if_pos rfl)
  exact hresend.1
    ((securedLength_one_le n r.payload).trans hsigned.fits.2.1)

/-- A nonce sync of the client on its way to a server that has nothing to send
again. -/
structure Crossed (client : Peer max H R A) (x : Exchange max max' H H' A A') :
    Prop where
  idle' : x.server.client.transactions = []
  inFlight : ∃ key c s mid token, x.toServer = [nonceSync key c mid token] ∧
    Linked client.id key s x.server.links ∧ s ≤ c

/-- The server is ahead of the request, and the client of the server: it
answers with a nonce sync of its own. -/
theorem Asks.crossed (h : Asks client server r key c s n k x)
    (hfree : w.1.messageFree = true ∧ w.2.messageFree = true)
    (hused : n < s + 1) (hlt : s < c) :
    Crossed client (Exchange.round client server w x) := by
  have hany := h.any_accepts w.2
  obtain ⟨bytes, hto, hsigned, -⟩ := h.inFlight
  have hrefused : x.server.accepts w.2 client.id (r.carrying bytes)
      = false := by
    simpa [hto, UInt32.not_le.mpr hused] using hany
  have hverified := hsigned.verified h.linked' w.2.staleTag
  have hnonce : checkNonce (r.carrying bytes).code s n
      = (.requestReceivedWithInvalidNonce, none) := by
    unfold checkNonce
    rw [if_pos (r.isRequest bytes), if_pos hused]
  have hserver : x.server.coapReceive server.app w.2 client.id
      (r.carrying bytes) = _ := Engine.coapReceive_of_invalid hverified hnonce
  have hsync := (signed_nonceSync key s r.mid [r.token]).verified h.linked
    w.1.staleTag
  have hrefusal : checkNonce notAcceptable406 c s
      = (.requestReceivedWithInvalidNonce, none) := by
    simp [checkNonce, hlt, notAcceptable406, created201]
  have hclient : x.client.coapReceive client.app w.1 server.id
      (nonceSync key s r.mid [r.token]) = _ :=
    Engine.coapReceive_of_invalid hsync hrefusal
  have hforth : packetsTo server.id _ = _ :=
    Engine.packetsTo_sendNonceSyncResponse (R := R) h.linked hfree.1
      ((nonceSync key s r.mid [r.token]).unpacked []) false
  rw [round_eq hto hrefused hserver
    (Engine.packetsTo_sendNonceSyncResponse h.linked' hfree.2 _ false) hclient,
    hforth]
  exact ⟨h.idle', key, c, s, r.mid, [r.token], rfl, h.linked',
    UInt32.le_of_lt hlt⟩

/-- The server takes the nonce, and that is the end. -/
theorem Crossed.round (h : Crossed client x) :
    x.toServer.any (x.server.accepts w.2 client.id) = false ∧
      (Exchange.round client server w x).toServer = [] := by
  obtain ⟨key, c, s, mid, token, hto, hlink, hle⟩ := h.inFlight
  have hsync := (signed_nonceSync key c mid token).verified hlink w.2.staleTag
  have hnonce : checkNonce notAcceptable406 s c
      = (.validNonceSyncReceived,
        some (if c = resetNonceSignalValue then 0 else c)) := by
    simp [checkNonce, UInt32.not_lt.mpr hle, notAcceptable406, created201]
  have hrefused : x.server.accepts w.2 client.id (nonceSync key c mid token)
      = false := by
    rw [Engine.accepts_of_verified hsync]
    show decide ((checkNonce notAcceptable406 s c).1 = .none) = false
    rw [hnonce]
    rfl
  have hserver : x.server.coapReceive server.app w.2 client.id
      (nonceSync key c mid token) = _ :=
    Engine.coapReceive_of_sync hsync hnonce
  refine ⟨by simp [hto, hrefused], ?_⟩
  simp [Exchange.round, hto, hrefused, Engine.coapReceives, hserver,
    Engine.sendPreviousRequest, Engine.accept, h.idle', packetsTo]

/-- The server accepts the request. The response has the nonce of the request,
so the client accepts it if it is not ahead of that. -/
theorem Asks.settled_iff (h : Asks client server r key c s n k x)
    (hnew : s + 1 ≤ n)
    (hlow : n ≤ resetNonceSignalValue - nonceNvStorageIntervalCount) :
    Settled client server w r x ↔ k ≤ 2 ∧ c ≤ n := by
  obtain ⟨bytes, hto, hsigned, -⟩ := h.inFlight
  have hverified := hsigned.verified h.linked' w.2.staleTag
  have hnonce : checkNonce (r.carrying bytes).code s n = (.none, some n) := by
    unfold checkNonce
    rw [if_pos (r.isRequest bytes), if_neg (UInt32.not_lt.mpr hnew),
      if_neg (UInt32.not_lt.mpr hlow)]
  have hauth : authenticateMessage x.server.resources x.server.links client.id
      (r.carrying bytes) w.2.staleTag = _ :=
    Received.authenticate_of_verified hverified
  rw [hnonce] at hauth
  have hlinked' := h.linked'.accept n
  constructor
  · intro hsettled
    obtain ⟨pkt, links, hto', hauth', -, -, hcount, hresponses⟩ := hsettled
    rw [hto] at hto'
    cases hto'
    rw [hauth] at hauth'
    simp only [Prod.mk.injEq, true_and] at hauth'
    subst hauth'
    refine ⟨h.nonceSyncs ▸ hcount, ?_⟩
    obtain ⟨response, hresponse, hsome⟩ := exists_responseMessage
      x.server.resources (r.carrying bytes) hlinked'
    obtain ⟨hsigned', hcode⟩ := signed_responseMessage hlinked' hresponse hsome
    obtain ⟨links', hclient, -⟩ := hresponses _ hresponse _ rfl hsome
      w.1.staleTag
    rcases authenticate_response (t := x.client.resources) hsigned'
      (hcode ▸ ⟨hresponse.1, hresponse.2.1⟩) h.linked w.1.staleTag with
      ⟨-, hinvalid⟩ | ⟨hle, -⟩
    · rw [hclient] at hinvalid
      cases hinvalid
    · exact hle
  · intro hle
    obtain ⟨hcount, hle⟩ := hle
    refine ⟨r.carrying bytes, _, hto, hauth, rfl, rfl, h.nonceSyncs ▸ hcount,
      ?_⟩
    intro response hresponse message hmessage hsome staleTag
    subst hmessage
    obtain ⟨hsigned', hcode⟩ := signed_responseMessage hlinked' hresponse hsome
    rcases authenticate_response (t := x.client.resources) hsigned'
      (hcode ▸ ⟨hresponse.1, hresponse.2.1⟩) h.linked staleTag with
      ⟨hlt, -⟩ | ⟨-, hclient⟩
    · exact absurd hle (UInt32.not_le.mpr hlt)
    · refine ⟨_, hclient, ?_⟩
      rw [(h.linked.accept n).linkNonce_eq, hlinked'.linkNonce_eq]

end Exchange

end Nexus.Channel
