import Nexus.Proofs.NonceRound
import Nexus.Proofs.SecuredHandlers

/-!
# When the nonces of a link meet

What becomes of one secured request depends on the two nonces of the link. A
server that is ahead answers with its own nonce, a client that is behind takes
it and asks again, one higher; a request close to the highest nonce has both go
back to the beginning. Neither works for a client whose nonce is the highest
there is. Its request has nonce zero, and so either the server refuses it, with
a nonce that the client refuses in turn, or the server takes it and the client
refuses the response. Nor does it help to ask again if the request does not fit
with the higher nonce, which may take more bytes.
-/

namespace Nexus.Channel

open Nexus.Util

variable {max max' : MaxLinks} {H H' R R' A A' : Type}

/-! ## The first packet -/

/-- No request is under way. -/
structure Engine.Idle (e : Engine max H A) : Prop where
  clientCbs : e.client.clientCbs = []
  transactions : e.client.transactions = []

/-- The one request that is under way after that. -/
theorem ClientCbs.doRequest_of_idle {cs : ClientCbs} (hcbs : cs.clientCbs = [])
    (htransactions : cs.transactions = []) {request : ClientRequest}
    (hsecured : request.secured = true) (hsent : request.dispatch = .sent) :
    ∃ cb, (cs.allocClientCb request).map Prod.fst = some cb ∧
      cb.nxRequestSecured = true ∧ cb.requestId = cs.nextRequestId ∧
      (cs.doRequest request).clientCbs = [cb] ∧
      (cs.doRequest request).transactions
        = [⟨request.mid, cs.nextRequestId⟩] := by
  have hslot : cs.freeSlot = some 0 := by
    simp [freeSlot, hcbs, List.finRange_succ]
  simp only [allocClientCb, hslot, Option.map_some, doRequest, hsent, hsecured,
    if_true, setDelayedCallback, hcbs, List.nil_append]
  refine ⟨_, rfl, rfl, rfl, ?_⟩
  split <;> simp [htransactions]

namespace OutgoingRequest

/-- The tag of the request, which is computed over the URI as it was written, is
the one over the path that travels, and the server can compute it. -/
def SameTag (r : OutgoingRequest) (key : CheckKey) (c : UInt32) : Prop :=
  r.packet.aad.coapUri.length ≤ maxHumanReadableUriLength ∧
    messageTag (r.macParams ⟨key, c⟩)
      = messageTag ⟨key, c + 1, r.packet.aad, r.payload⟩

/-- A short URI without a slash in front travels as it was written. -/
theorem sameTag_of_short {r : OutgoingRequest}
    (hlen : r.uri.length ≤ maxHumanReadableUriLength)
    (hslash : r.uri.head? ≠ some slash) (key : CheckKey) (c : UInt32) :
    r.SameTag key c := by
  have hpath : (r.uri.dropWhile fun c => c == slash) = r.uri := by
    cases huri : r.uri with
    | nil => rfl
    | cons c rest =>
        have hne : (c == slash) = false := by
          rw [huri] at hslash
          simpa using hslash
        rw [List.dropWhile_cons, hne]
        rfl
  have haad : r.packet.aad = (r.macParams ⟨key, c⟩).aad := by
    simp [CoapPacket.aad, packet, macParams, hpath]
  constructor
  · rw [haad]
    show (r.uri.take _).length ≤ _
    rw [List.length_take]
    omega
  · rw [haad]
    rfl

variable {r : OutgoingRequest} {key : CheckKey} {c : UInt32} {bytes : List UInt8}

theorem signed_of_sameTag
    (hsigned : signEncodeMessage (r.macParams ⟨key, c⟩) maxCborPayloadSize
      = .ok bytes) (hsame : r.SameTag key c) :
    (r.carrying bytes).Signed key (c + 1) r.payload := by
  obtain ⟨huri, htag⟩ := hsame
  obtain ⟨-, hbytes, hfits⟩ := signEncodeMessage_ok hsigned
  rw [hbytes, length_mac0MessageBytes] at hfits
  refine ⟨rfl, ?_⟩
  have hsigned' : signEncodeMessage ⟨key, c + 1, r.packet.aad, r.payload⟩
      maxCborPayloadSize = .ok _ := signEncodeMessage_of_length huri hfits
  rw [← htag] at hsigned'
  exact hsigned'.trans (congrArg Except.ok hbytes.symm)

theorem not_verified_of_not_sameTag
    (hsigned : signEncodeMessage (r.macParams ⟨key, c⟩) maxCborPayloadSize
      = .ok bytes) (hsame : ¬ r.SameTag key c) {m : LinkManager max}
    {sender : NxId} {s : UInt32} (hlink : Linked sender key s m)
    (staleTag : Vector UInt8 8) :
    Received.verified m ⟨sender, r.carrying bytes, staleTag⟩ = none := by
  obtain ⟨-, hbytes, hfits⟩ := signEncodeMessage_ok hsigned
  have hshort : r.payload.length < 255 := by
    rw [hbytes, length_mac0MessageBytes, length_encodeByteString] at hfits
    have hlen : (r.macParams ⟨key, c⟩).payload.length = r.payload.length := rfl
    unfold maxCborPayloadSize at hfits
    omega
  have hread : deserializeProtectedMessage bytes staleTag
      = .ok ⟨c + 1, r.payload, (messageTag (r.macParams ⟨key, c⟩)).toList⟩ := by
    rw [hbytes]
    exact deserializeProtectedMessage_encode _ hshort _ _
  have hverify : ∃ e, verifyMessage key r.packet.aad bytes staleTag
      = .error e := by
    unfold verifyMessage
    rw [hread]
    by_cases huri : r.packet.aad.coapUri.length ≤ maxHumanReadableUriLength
    · rw [hbytes] at hfits
      have hstruct : macParamsToMacStructure
          ⟨key, c + 1, r.packet.aad, r.payload⟩ = .ok _ :=
        macParamsToMacStructure_fits huri (macStructure_fits huri hfits)
      have htag : ((messageTag ⟨key, c + 1, r.packet.aad, r.payload⟩).toList
          == (messageTag (r.macParams ⟨key, c⟩)).toList) = false := by
        rw [beq_eq_false_iff_ne]
        intro heq
        exact hsame ⟨huri, (Vector.toList_inj.mp heq).symm⟩
      refine ⟨.macTagInvalid, ?_⟩
      simp only [ok_bind, hstruct]
      rw [← messageTag.eq_1 ⟨key, c + 1, r.packet.aad, r.payload⟩, htag]
      rfl
    · refine ⟨.inputDataInvalid, ?_⟩
      simp only [ok_bind, macParamsToMacStructure]
      rw [if_pos (Nat.lt_of_not_le huri)]
      rfl
  obtain ⟨error, hverify⟩ := hverify
  have haad : (r.carrying bytes).aad = r.packet.aad := rfl
  have hpayload : (r.carrying bytes).payload = bytes := rfl
  unfold Received.verified
  simp only [hlink.data, haad, hpayload, hverify]
  split <;> rfl

end OutgoingRequest

namespace Exchange

variable {client : Peer max H R A} {server : Peer max' H' R' A'}
  {r : OutgoingRequest} {key : CheckKey} {c s n : UInt32} {k : ℕ}
  {e : Engine max H A} {e' : Engine max' H' A'}

/-- What the client sends, and what it keeps. -/
theorem start_eq (e' : Engine max' H' A') (hidle : e.Idle)
    (hlink : Linked server.id key c e.links)
    (hsecured : r.secured = true)
    (hserver : r.endpoint = nxIdToOcEndpoint server.id)
    (hsent : (r.message e.links).isSome) :
    ∃ bytes, signEncodeMessage (r.macParams ⟨key, c⟩) maxCborPayloadSize
        = .ok bytes ∧
      (start client server e e' r).toServer = [r.carrying bytes] ∧
      (start client server e e' r).client.Caches server.id r bytes ∧
      (start client server e e' r).client.links = e.links ∧
      (∀ cb ∈ (start client server e e' r).client.client.clientCbs,
        cb.nxRequestSecured = true) := by
  obtain ⟨message, hmessage⟩ := Option.isSome_iff_exists.mp hsent
  have hto : r.endpoint.nxId = server.id := by
    rw [hserver, nxId_nxIdToOcEndpoint]
  have hfree : ¬ (r.transactionFree = false ∨ r.headerFits = false) := by
    intro hfull
    unfold OutgoingRequest.message at hmessage
    rw [if_pos hfull] at hmessage
    cases hmessage
  have hsigned : (OcMessage.secured r.endpoint r.packet
      (r.macParams ⟨key, c⟩)).signed.isSome ∧
      message = .secured r.endpoint r.packet (r.macParams ⟨key, c⟩) := by
    unfold OutgoingRequest.message at hmessage
    rw [if_neg hfree, if_pos hsecured, hto, hlink.data] at hmessage
    dsimp only at hmessage
    split at hmessage
    · cases hmessage
    next hsome =>
      cases hmessage
      exact ⟨by simpa [Option.isSome_iff_ne_none] using hsome, rfl⟩
  obtain ⟨hsome, rfl⟩ := hsigned
  have hdispatch : (r.toClientRequest e.links).dispatch = .sent := by
    have htransaction : r.transactionFree ≠ false := fun h => hfree (.inl h)
    simp [OutgoingRequest.toClientRequest, htransaction, hmessage]
  obtain ⟨cb, halloc, hcb, hid, hcbs, htransactions⟩ :=
    ClientCbs.doRequest_of_idle hidle.clientCbs hidle.transactions hsecured
      hdispatch
  obtain ⟨⟨cb', cs⟩, hcreated, rfl⟩ := Option.map_eq_some_iff.mp halloc
  refine ⟨_, signed_of_isSome hsome, ?_⟩
  unfold start Peer.sendRequest Engine.sendRequest
  dsimp only
  rw [hcreated, hmessage]
  refine ⟨?_, ?_, rfl, ?_⟩
  · simp [packetsTo, hto, OutgoingRequest.carrying, OcMessage.secured]
  · refine ⟨⟨r.mid, cb'.requestId⟩, _, ?_, Function.update_self .., hserver,
      rfl⟩
    have hid' : cb'.requestId = e.client.nextRequestId := hid
    have hmid : (r.toClientRequest e.links).mid = r.mid := rfl
    dsimp only
    rw [htransactions, hmid]
    simp [hid']
  · intro cb'' hmem
    rw [hcbs, List.mem_singleton] at hmem
    rw [hmem]
    exact hcb

/-! ## The whole exchange -/

section

variable {x : Exchange max max' H H' A A'}
  {w : ℕ → Surroundings × Surroundings}

/-- The first round, and the rounds after it. -/
theorem rounds_succ (n : ℕ) :
    rounds client server w x (n + 1)
      = rounds client server (fun n => w (n + 1))
        (round client server (w 0) x) n := by
  induction n with
  | zero => rfl
  | succ n ih => exact congrArg (round client server (w (n + 1))) ih

/-- A packet that the server does not accept decides nothing. -/
theorem converges_of_refused
    (hrefused : x.toServer.any (x.server.accepts (w 0).2 client.id) = false) :
    Converges client server w r x ↔
      Converges client server (fun n => w (n + 1)) r
        (round client server (w 0) x) := by
  constructor
  · intro h
    obtain ⟨n, hsettled⟩ := h
    cases n with
    | zero =>
        obtain ⟨pkt, links, hto, hauth, -⟩ := hsettled
        have hto' : x.toServer = [pkt] := hto
        rw [hto', List.any_cons, List.any_nil, Bool.or_false] at hrefused
        have hauth' : authenticateMessage x.server.resources x.server.links
          client.id pkt (w 0).2.staleTag = _ := hauth
        unfold Engine.accepts at hrefused
        rw [hauth'] at hrefused
        cases hrefused
    | succ n =>
        rw [rounds_succ] at hsettled
        exact ⟨n, hsettled⟩
  · intro h
    obtain ⟨n, hsettled⟩ := h
    refine ⟨n + 1, ?_⟩
    rw [rounds_succ]
    exact hsettled

/-- Once the server accepts a packet, nothing changes any more. -/
theorem rounds_of_accepted
    (haccepted : ∀ s, x.toServer.any (x.server.accepts s client.id) = true)
    (n : ℕ) : rounds client server w x n = x := by
  induction n with
  | zero => rfl
  | succ n ih =>
      show round client server (w n) (rounds client server w x n) = x
      rw [ih]
      unfold round
      rw [if_pos (haccepted _)]

theorem not_converges_of_nil (hto : x.toServer = []) :
    ¬ Converges client server w r x := by
  have hnil (n : ℕ) : (rounds client server w x n).toServer = [] := by
    induction n with
    | zero => exact hto
    | succ n ih => exact round_of_nil ih
  intro h
  obtain ⟨n, pkt, links, hpkt, -⟩ := h
  rw [hnil n] at hpkt
  cases hpkt

theorem Spoilt.not_converges (h : Spoilt client server x)
    (hfree : ∀ n, (w n).1.messageFree = true ∧ (w n).2.messageFree = true) :
    ¬ Converges client server w r x := by
  obtain ⟨pkt, hto, -, hverified⟩ := h.inFlight
  have hrefused := Engine.accepts_of_not_verified (s := (w 0).2)
    (hverified (w 0).2.staleTag)
  rw [converges_of_refused (by simp [hto, hrefused])]
  exact not_converges_of_nil (h.round (hfree 0).2)

theorem Crossed.not_converges (h : Crossed client x) :
    ¬ Converges client server w r x := by
  have hround : _ ∧ (Exchange.round client server (w 0) x).toServer = [] :=
    h.round
  rw [converges_of_refused hround.1]
  exact not_converges_of_nil hround.2

/-- A request with a nonce the server has not used yet. -/
theorem Asks.converges_iff (h : Asks client server r key c s n k x)
    (hfree : ∀ n, (w n).1.messageFree = true ∧ (w n).2.messageFree = true)
    (hnew : s + 1 ≤ n) (hk : k ≤ 1) :
    Converges client server w r x ↔
      (n ≤ resetNonceSignalValue - nonceNvStorageIntervalCount → c ≤ n) := by
  by_cases hlow : n ≤ resetNonceSignalValue - nonceNvStorageIntervalCount
  · have haccepted (s' : Surroundings) :
        x.toServer.any (x.server.accepts s' client.id) = true := by
      rw [h.any_accepts s']
      exact decide_eq_true ⟨hnew, hlow⟩
    have hrounds (n : ℕ) : rounds client server w x n = x :=
      rounds_of_accepted haccepted n
    unfold Converges
    simp only [hrounds, h.settled_iff hnew hlow, exists_const]
    constructor
    · intro hsettled _
      exact hsettled.2
    · intro hle
      exact ⟨by omega, hle hlow⟩
  · have hrefused : x.toServer.any (x.server.accepts (w 0).2 client.id)
        = false := by
      rw [h.any_accepts]
      exact decide_eq_false fun hboth => hlow hboth.2
    have hreset := h.reset (w := w 0) (hfree 0).2 hnew
      (UInt32.not_le.mp hlow)
    have haccepted (s' : Surroundings) :
        (round client server (w 0) x).toServer.any
          ((round client server (w 0) x).server.accepts s' client.id)
            = true := by
      rw [hreset.any_accepts s']
      decide
    have hrounds (n : ℕ) : rounds client server (fun n => w (n + 1))
        (round client server (w 0) x) n = round client server (w 0) x :=
      rounds_of_accepted haccepted n
    rw [converges_of_refused hrefused]
    unfold Converges
    simp only [hrounds, hreset.settled_iff (by decide) (by decide),
      exists_const]
    constructor
    · intro _ hlow'
      exact absurd hlow' hlow
    · intro _
      exact ⟨by omega, by decide⟩

end

theorem succ_lt_succ_iff {a b : UInt32} (ha : a ≠ resetNonceSignalValue)
    (hb : b ≠ resetNonceSignalValue) : a + 1 < b + 1 ↔ a < b := by
  rw [UInt32.lt_iff_toNat_lt, UInt32.lt_iff_toNat_lt, toNat_succ_of_ne_top ha,
    toNat_succ_of_ne_top hb]
  omega

theorem le_succ {a : UInt32} (ha : a ≠ resetNonceSignalValue) : a ≤ a + 1 := by
  rw [UInt32.le_iff_toNat_le, toNat_succ_of_ne_top ha]
  omega

theorem lt_top {a : UInt32} (ha : a ≠ resetNonceSignalValue) :
    a < resetNonceSignalValue := by
  have hlt := a.toNat_lt
  have hne : a.toNat ≠ 4294967295 := fun heq => ha (UInt32.toNat_inj.mp heq)
  rw [UInt32.lt_iff_toNat_lt]
  show a.toNat < 4294967295
  omega

variable {w : ℕ → Surroundings × Surroundings}

/-- The first request, if it verifies. -/
theorem Asks.converges_first {x : Exchange max max' H H' A A'}
    (h : Asks client server r key c s (c + 1) 0 x)
    (hfree : ∀ n, (w n).1.messageFree = true ∧ (w n).2.messageFree = true) :
    Converges client server w r x ↔ c ≠ resetNonceSignalValue ∧
      (c < s → s ≠ resetNonceSignalValue →
        securedLength (s + 1) r.payload ≤ maxCborPayloadSize) := by
  by_cases hc : c = resetNonceSignalValue
  · -- a request with nonce zero
    subst hc
    refine iff_of_false ?_ fun hboth => hboth.1 rfl
    by_cases hs : s = resetNonceSignalValue
    · subst hs
      rw [h.converges_iff hfree (UInt32.le_refl _) (by decide)]
      decide
    · have hpos : (0 : UInt32) < s + 1 := by
        rw [UInt32.lt_iff_toNat_lt, toNat_succ_of_ne_top hs]
        exact Nat.succ_pos _
      rw [converges_of_refused (h.not_accepted_of_used hpos _)]
      exact (h.crossed (hfree 0) hpos (lt_top hs)).not_converges
  · by_cases hnew : s + 1 ≤ c + 1
    · rw [h.converges_iff hfree hnew (by decide)]
      refine iff_of_true (fun _ => le_succ hc) ⟨hc, ?_⟩
      intro hlt hs
      exact absurd hnew (UInt32.not_le.mpr ((succ_lt_succ_iff hc hs).mpr hlt))
    · have hused := UInt32.not_le.mp hnew
      have hs : s ≠ resetNonceSignalValue := by
        intro hs
        subst hs
        exact absurd hused (by simp [resetNonceSignalValue])
      have hlt := (succ_lt_succ_iff hc hs).mp hused
      have hbehind := h.behind (w := w 0) (hfree 0).2 hused
        (UInt32.le_of_lt hlt)
      rw [converges_of_refused (h.not_accepted_of_used hused _)]
      by_cases hfits : securedLength (s + 1) r.payload ≤ maxCborPayloadSize
      · rw [(hbehind.1 hfits).converges_iff (fun n => hfree (n + 1))
          (UInt32.le_refl _) (by decide)]
        exact iff_of_true (fun _ => le_succ hs) ⟨hc, fun _ _ => hfits⟩
      · exact iff_of_false ((hbehind.2 hfits).not_converges
          fun n => hfree (n + 1)) fun hboth => hfits (hboth.2 hlt hs)

/-- When the exchange comes to its end: the client's nonce is not the highest,
the tag of its request is the one the server computes, and if the server is
ahead, the request still fits with the server's nonce. -/
structure GetsThrough (r : OutgoingRequest) (key : CheckKey) (c s : UInt32) :
    Prop where
  notTop : c ≠ resetNonceSignalValue
  sameTag : r.SameTag key c
  fits : c < s → s ≠ resetNonceSignalValue →
    securedLength (s + 1) r.payload ≤ maxCborPayloadSize

section

variable (client : Peer max H R A) (server : Peer max' H' R' A')
  (hidle : e.Idle) (hidle' : e'.Idle)
  (hlink : Linked server.id key c e.links)
  (hlink' : Linked client.id key s e'.links)
  (hsecured : r.secured = true)
  (hserver : r.endpoint = nxIdToOcEndpoint server.id)
  (hsent : (r.message e.links).isSome)

include hidle hidle' hlink hlink' hsecured hserver hsent

/-- A request the server can verify. -/
theorem asks_start (hsame : r.SameTag key c) :
    Asks client server r key c s (c + 1) 0 (start client server e e' r) := by
  obtain ⟨bytes, hsigned, hto, hcached, hlinks, hcallbacks⟩ :=
    start_eq e' hidle hlink hsecured hserver hsent
  exact ⟨hlinks ▸ hlink, hlink', hcallbacks, hidle'.transactions,
    ⟨bytes, hto, OutgoingRequest.signed_of_sameTag hsigned hsame, hcached⟩, rfl⟩

omit hidle' in
/-- A request it cannot verify. -/
theorem spoilt_start (hsame : ¬ r.SameTag key c) :
    Spoilt client server (start client server e e' r) := by
  obtain ⟨bytes, hsigned, hto, -, -, hcallbacks⟩ :=
    start_eq e' hidle hlink hsecured hserver hsent
  exact ⟨hcallbacks, _, hto, rfl,
    OutgoingRequest.not_verified_of_not_sameTag hsigned hsame hlink'⟩

/-- One secured request, with nothing else going on, ends with the server
accepting it after no more than two nonce syncs and with the same nonce at both
ends once a response is accepted, exactly if it gets through. -/
theorem converges_iff_getsThrough
    (hfree : ∀ n, (w n).1.messageFree = true ∧ (w n).2.messageFree = true) :
    Converges client server w r (start client server e e' r) ↔
      GetsThrough r key c s := by
  by_cases hsame : r.SameTag key c
  · have hasks := asks_start client server hidle hidle' hlink hlink' hsecured
      hserver hsent hsame
    rw [hasks.converges_first hfree]
    constructor
    · intro hboth
      exact ⟨hboth.1, hsame, hboth.2⟩
    · intro hthrough
      exact ⟨hthrough.notTop, hthrough.fits⟩
  · have hspoilt := spoilt_start client server hidle hlink hlink' hsecured
      hserver hsent hsame
    exact iff_of_false (hspoilt.not_converges hfree)
      fun hthrough => hsame hthrough.sameTag

end

end Exchange

/-! ## Two devices -/

/-- The device at the other end of the peer's link. -/
def ownId : NxId := ⟨3, 4⟩

/-- A device with one link. -/
def deviceTo (id : NxId) (nonce : UInt32) : Engine oneLink Unit Unit :=
  { deviceAt nonce [] with
    links := { linkedAt nonce with
      slots := #v[⟨{ Link.zero with
        linkedDeviceId := id, securityData := ⟨peerKey, nonce⟩ }, true,
          false⟩] } }

theorem linked_deviceTo (id : NxId) (nonce : UInt32) :
    Linked id peerKey nonce (deviceTo id nonce).links := by
  have hfind : (deviceTo id nonce).links.linkIndexFromNxid id
      = some (0 : Fin 1) := by
    have hfirst : (true && decide (id = id)) = true := by simp
    exact List.find?_cons_of_pos hfirst
  have hlink := linkFromNxid_of_index hfind
  constructor
  · intro link hsome
    rw [hlink] at hsome
    cases hsome
    rfl
  · unfold LinkManager.securityDataFromNxid
    rw [hlink]
    rfl

theorem idle_deviceTo (id : NxId) (nonce : UInt32) :
    (deviceTo id nonce).Idle := ⟨rfl, rfl⟩

/-- A secured GET of `nx/pc` from the peer. -/
def getCredit : OutgoingRequest where
  uri := [0x6E, 0x78, 0x2F, 0x70, 0x63]
  endpoint := nxIdToOcEndpoint peerId
  method := .get
  queryInterface := 0
  payload := []
  userData := none
  secured := true
  mid := 7
  token := 9
  transactionFree := true
  headerFits := true

namespace Exchange

/-- The peer's and the other device's applications. -/
def here : Peer oneLink Unit Unit Unit := ⟨ownId, answering⟩
def there : Peer oneLink Unit Unit Unit := ⟨peerId, answering⟩

/-- A server that is ahead of its client. -/
theorem converges_iff_getsThrough_ahead :
    Converges here there (fun _ => (roomy, roomy)) getCredit
        (start here there (deviceTo peerId 4) (deviceTo ownId 900) getCredit) ↔
      GetsThrough getCredit peerKey 4 900 := by
  have hsent : (getCredit.message (deviceTo peerId 4).links).isSome := by
    decide +kernel
  exact converges_iff_getsThrough here there (idle_deviceTo _ _)
    (idle_deviceTo _ _) (linked_deviceTo _ _) (linked_deviceTo _ _) rfl rfl
    hsent fun _ => ⟨rfl, rfl⟩

/-- With the highest nonce a client is not heard. -/
theorem not_converges_at_top :
    ¬ Converges here there (fun _ => (roomy, roomy)) getCredit
      (start here there (deviceTo peerId 0xFFFFFFFF) (deviceTo ownId 5)
        getCredit) := by
  have hsent : (getCredit.message
      (deviceTo peerId 0xFFFFFFFF).links).isSome := by
    decide +kernel
  have hsame : getCredit.SameTag peerKey 0xFFFFFFFF :=
    OutgoingRequest.sameTag_of_short (by decide) (by decide) _ _
  have hasks := asks_start here there (idle_deviceTo _ _)
    (idle_deviceTo ownId 5) (linked_deviceTo _ _) (linked_deviceTo _ _) rfl rfl
    hsent hsame
  intro h
  exact ((hasks.converges_first fun _ => ⟨rfl, rfl⟩).mp h).1 rfl

end Exchange

end Nexus.Channel
