import Nexus.Proofs.RequestOrigin

/-!
# Who made a response

A response finds the callback of a request by its token alone, one byte that the
client chose. If the request was secured, so must the response be, under the key
of the link to the device that it comes from, with a nonce that is not below the
nonce of that link. Nobody looks at the device the request went to: any device
the client is linked to can answer. Where only the client and that device have
the key, one of them created the response, as one, with this code and payload.
-/

namespace Nexus.Channel

open Nexus.Util Nexus.Lib ResourceTable

/-! ## Calls of callbacks -/

section

variable {max : MaxLinks} {H R A : Type} {app : Application max H R A}
  {e : Engine max H A} {s : Surroundings} {sender : NxId} {pkt : CoapPacket}
  {cb : ClientCb} {call : OcClientResponse R}

namespace Engine

/-- What a callback is called with. -/
theorem of_clientCall (h : clientCall app sender pkt = some call) :
    call.source = sender ∧ call.code = pkt.code ∧
      app.Reads pkt.payload call.payload := by
  unfold clientCall at h
  split at h
  next hpayload =>
    split at h
    · cases h
    next rep hrep =>
      cases h
      exact ⟨rfl, rfl, .inr ⟨List.ne_nil_of_length_pos hpayload, rep, hrep,
        rfl⟩⟩
  next hempty =>
    split at h
    · cases h
    · cases h
      exact ⟨rfl, rfl,
        .inl ⟨List.eq_nil_of_length_eq_zero (by omega), rfl⟩⟩

/-- The callback that is invoked has the token of the response. -/
theorem of_invokedCb {cs : ClientCbs} {rcvdPktSecured : Bool}
    (h : cs.invokedCb (clientResponse pkt rcvdPktSecured) = some cb) :
    cb ∈ cs.clientCbs ∧ pkt.token = [cb.token] ∧
      (cb.nxRequestSecured = true → rcvdPktSecured = true) := by
  unfold ClientCbs.invokedCb at h
  split at h
  · cases h
  · obtain ⟨hfind, hsecured⟩ := Option.filter_eq_some_iff.mp h
    have htoken := List.find?_some hfind
    refine ⟨List.mem_of_find?_eq_some hfind, ?_, ?_⟩
    · simpa [clientResponse, eq_comm] using htoken
    · intro hrequest
      simpa [hrequest, clientResponse] using hsecured

theorem responded_of_receiveResponse {rcvdPktSecured : Bool}
    (h : .responded cb call
      ∈ (e.receiveResponse app sender pkt rcvdPktSecured).2) :
    e.client.invokedCb (clientResponse pkt rcvdPktSecured) = some cb ∧
      clientCall app sender pkt = some call := by
  unfold receiveResponse at h
  dsimp only at h
  split at h
  · cases h
  next cb' hinvoked =>
    split at h
    · cases h
    next call' hcall =>
      rcases List.mem_cons.mp h with h | h
      · cases h
        exact ⟨hinvoked, hcall⟩
      · obtain ⟨message, hsent⟩ := sent_of_sendRequests _ _ h
        cases hsent

/-- A request that is passed on invokes no callback. -/
theorem not_responded_of_receiveRequest {rcvdPktSecured : Bool}
    {method : Method} :
    .responded cb call
      ∉ (e.receiveRequest app s sender pkt rcvdPktSecured method).2 := by
  have hinvoke : Effect.responded cb call
      ∉ (invokeCoapEntityHandler app e sender pkt method).2.1 := by
    intro h
    unfold invokeCoapEntityHandler at h
    split at h
    · cases h
    · cases List.mem_singleton.mp h
  intro h
  unfold receiveRequest at h
  dsimp only at h
  split at h
  · split at h
    · exact hinvoke h
    · split at h
      · exact hinvoke h
      · rcases List.mem_append.mp h with h | h
        · exact hinvoke h
        · cases List.mem_singleton.mp h
  · cases h

/-- The callback of a secured request is invoked only with a packet that
verified and whose nonce is accepted. -/
theorem responded_of_coapReceive
    (h : .responded cb call ∈ (e.coapReceive app s sender pkt).2)
    (hsecured : cb.nxRequestSecured = true) :
    ∃ data nonce payload,
      Received.verified e.links ⟨sender, pkt, s.staleTag⟩
        = some (data, nonce, payload) ∧
      (checkNonce pkt.code data.nonce nonce).1 = .none ∧
      methodOfCode pkt.code = none ∧
      cb ∈ e.client.clientCbs ∧ pkt.token = [cb.token] ∧
      call.source = sender ∧ call.code = pkt.code ∧
      app.Reads payload call.payload := by
  have hpass {e' : Engine max H A} {pkt' : CoapPacket} {rcvdPktSecured : Bool}
      (h : Effect.responded cb call
        ∈ (e'.passOnwards app s sender pkt' rcvdPktSecured).2) :
      methodOfCode pkt'.code = none ∧ cb ∈ e'.client.clientCbs ∧
        pkt'.token = [cb.token] ∧ rcvdPktSecured = true ∧
        clientCall app sender pkt' = some call := by
    unfold passOnwards at h
    dsimp only at h
    split at h
    · exact absurd h not_responded_of_receiveRequest
    next hmethod =>
      obtain ⟨hinvoked, hcall⟩ := responded_of_receiveResponse h
      obtain ⟨hmem, htoken, hboth⟩ := of_invokedCb hinvoked
      exact ⟨hmethod, hmem, htoken, hboth hsecured, hcall⟩
  have hsync {e' : Engine max H A} {pkt' : CoapPacket} {reset : Bool} :
      Effect.responded cb call
        ∉ e'.sendNonceSyncResponse (R := R) s sender pkt' reset := by
    intro h
    unfold sendNonceSyncResponse at h
    split at h
    · cases h
    · dsimp only at h
      split at h
      · cases List.mem_singleton.mp h
      · cases h
  cases hv : Received.verified e.links ⟨sender, pkt, s.staleTag⟩ with
  | none =>
      rcases coapReceive_of_not_verified app hv with
        ⟨-, -, heq⟩ | ⟨status, -, heq⟩
      · rw [heq] at h
        obtain ⟨-, -, -, hno, -⟩ := hpass h
        cases hno
      · rw [heq] at h
        unfold sendEmptyResponse at h
        dsimp only at h
        split at h
        · cases List.mem_singleton.mp h
        · cases h
  | some v =>
      obtain ⟨data, nonce, payload⟩ := v
      have hnone {next : Option UInt32}
          (hnonce : checkNonce pkt.code data.nonce nonce = (.none, next)) :
          methodOfCode pkt.code = none ∧ cb ∈ e.client.clientCbs ∧
            pkt.token = [cb.token] ∧
            clientCall app sender (pkt.unpacked payload) = some call := by
        rw [coapReceive_of_none hv hnonce] at h
        obtain ⟨hmethod, hmem, htoken, -, hcall⟩ := hpass h
        exact ⟨hmethod, hmem, htoken, hcall⟩
      have hdone {next : Option UInt32}
          (hnonce : checkNonce pkt.code data.nonce nonce = (.none, next)) :
          ∃ data' nonce' payload',
            some (data, nonce, payload) = some (data', nonce', payload') ∧
            (checkNonce pkt.code data'.nonce nonce').1 = .none ∧
            methodOfCode pkt.code = none ∧ cb ∈ e.client.clientCbs ∧
            pkt.token = [cb.token] ∧ call.source = sender ∧
            call.code = pkt.code ∧ app.Reads payload' call.payload := by
        obtain ⟨hmethod, hmem, htoken, hcall⟩ := hnone hnonce
        obtain ⟨hsource, hcode, hreads⟩ := of_clientCall hcall
        exact ⟨data, nonce, payload, rfl, by rw [hnonce], hmethod, hmem, htoken,
          hsource, hcode, hreads⟩
      rcases checkNonce_cases pkt.code data.nonce nonce with hnonce |
        ⟨-, -, hnonce⟩ | ⟨-, -, hnonce⟩ | ⟨-, -, hnonce⟩ | ⟨-, -, hnonce⟩
      · rw [coapReceive_of_invalid hv hnonce] at h
        exact absurd h hsync
      · exact hdone hnonce
      · rw [coapReceive_of_reset hv hnonce] at h
        exact absurd h hsync
      · rw [coapReceive_of_sync hv hnonce] at h
        unfold sendPreviousRequest at h
        split at h
        · cases h
        · split at h
          · cases h
          · split at h
            · cases h
            · split at h
              · cases List.mem_singleton.mp h
              · cases h
      · exact hdone hnonce

end Engine

end

/-! ## Responses on the network -/

section

variable {max : Party → MaxLinks} {H R A : Party → Type}

/-- The callback of a secured request is invoked only with what was secured
under the key of the link to the device that sent it, with a nonce that is not
below that of the link, and has the token of the request. If just the two
devices have the key, one of them created it as a response. -/
theorem secured_response_created
    (app : (i : Party) → Application (max i) (H i) (R i) (A i))
    {start : Network max H A} (hfresh : start.Fresh)
    (ops : List (Network.Op max H A)) {i : Party} {s : Surroundings}
    {sender : NxId} {pkt : CoapPacket} {cb : ClientCb}
    {call : OcClientResponse (R i)}
    (hresponded : .responded cb call
      ∈ (((run (Network.step app) start ops).devices i).coapReceive (app i) s
        sender pkt).2)
    (hsecured : cb.nxRequestSecured = true) :
    ∃ data nonce payload,
      ((run (Network.step app) start ops).devices
        i).links.securityDataFromNxid sender = some data ∧
      verifyMessage data.symKey pkt.aad pkt.payload s.staleTag
        = .ok (nonce, payload) ∧
      cb ∈ ((run (Network.step app) start ops).devices i).client.clientCbs ∧
      pkt.token = [cb.token] ∧ call.source = sender ∧ call.code = pkt.code ∧
      (app i).Reads payload call.payload ∧
      ((run (Network.step app) start ops).Unforged data.symKey
          (.receive i s sender pkt) →
        created201 ≤ pkt.code ∧ pkt.code ≠ notAcceptable406 ∧
        data.nonce ≤ nonce ∧
        ∃ creator message,
          (creator, message) ∈ (run (Network.step app) start ops).sent ∧
          message.pkt.code = pkt.code ∧
          message.signed = some ⟨data.symKey, nonce, pkt.aad, payload⟩) := by
  have hgenuine := Network.genuine_run app hfresh.genuine ops
  revert hresponded hgenuine
  generalize run (Network.step app) start ops = n
  intro hresponded hgenuine
  obtain ⟨data, nonce, payload, hv, hnonce, hmethod, hmem, htoken, hsource, hcode,
    hreads⟩ := Engine.responded_of_coapReceive hresponded hsecured
  obtain ⟨-, hdata, hverify⟩ := Received.of_verified hv
  refine ⟨data, nonce, payload, hdata, hverify, hmem, htoken, hsource, hcode,
    hreads, ?_⟩
  intro hunforged
  obtain ⟨creator, message, hsent, hsigned, hsound⟩ :=
    hgenuine.created hunforged hverify
  have hpkt : pkt.code = message.pkt.code := hsound.code
  -- the code of a request does not reach a callback
  have hresponse : created201 ≤ pkt.code := by
    rcases hsound.kind with hrequest | hresponse
    · rw [← hpkt, hmethod] at hrequest
      cases hrequest
    · rw [hpkt]
      exact hresponse
  rcases checkNonce_response (UInt8.not_lt.mpr hresponse) data.nonce nonce with
    ⟨-, hinvalid⟩ | ⟨-, -, hsync⟩ | ⟨hle, hcode', -⟩
  · rw [hinvalid] at hnonce
    cases hnonce
  · rw [hsync] at hnonce
    cases hnonce
  · exact ⟨hresponse, hcode', hle, creator, message, hsent, hpkt.symm, hsigned⟩

end

/-! ## A client with two links -/

/-- Another device the client is linked to. -/
def thirdId : NxId := ⟨5, 6⟩

def thirdKey : CheckKey := ⟨Vector.ofFn fun i => UInt8.ofNat (i + 100)⟩

theorem pairOfLinks_one_le : 1 ≤ 2 := by decide

theorem pairOfLinks_le_ten : 2 ≤ 10 := by decide

/-- Devices that keep two links. -/
def pairOfLinks : MaxLinks := ⟨2, pairOfLinks_one_le, pairOfLinks_le_ten⟩

/-- A slot of such a device. -/
def linkSlot (id : NxId) (key : CheckKey) (nonce : UInt32) : Slot :=
  ⟨{ Link.zero with linkedDeviceId := id, securityData := ⟨key, nonce⟩ }, true,
    false⟩

/-- A device with two links and a secured GET of `/a`. -/
def deviceWith (first second : Slot) : Engine pairOfLinks Unit Unit where
  resources := registered 4 securedGet
  links :=
    { slots := #v[first, second]
      pendingLinkToCreate := Link.zero
      linkCount := 2
      pendingAddLink := false
      pendingClearAllLinks := false
      nv := fun _ => none }
  client := .init
  messages _ := none
  app := ()

/-- A client that is linked to the peer and to the third device, and the
peer. -/
def clientAndServer : Network (fun _ : Party => pairOfLinks) (fun _ => Unit)
    fun _ => Unit where
  devices
    | .a => deviceWith (linkSlot peerId peerKey 4) (linkSlot thirdId thirdKey 6)
    | .b => deviceWith (linkSlot ownId peerKey 4) (linkSlot thirdId thirdKey 2)
  sent := []

theorem fresh_clientAndServer : clientAndServer.Fresh := by
  refine ⟨rfl, ?_⟩
  intro i id
  cases i <;> rfl

/-- Every request is answered, and every payload can be read. -/
def replying (_ : Party) : Application pairOfLinks Unit Unit Unit where
  parseRep _ := .ok ()
  handle _ _ _ _ := (some ⟨.ok, [0xA0]⟩, ())
  respond _ _ _ _ := ([], ())

/-- A secured GET of `a` from the peer. -/
def getA : OutgoingRequest := { getCredit with uri := [0x61] }

/-- Its callback. -/
def callbackOfA : ClientCb where
  slot := 0
  uri := [0x61]
  endpoint := nxIdToOcEndpoint peerId
  method := 1
  userData := none
  timestamp := 0
  mid := 7
  token := 9
  nxRequestSecured := true
  requestId := 0

/-- A response with its token. -/
def answerToA (key : CheckKey) (nonce : UInt32) : CoapPacket :=
  .secure ⟨.non, 69, 1, [9], 0, [], 0, [0xA0]⟩ key nonce

/-- The peer gets the request and answers it. -/
theorem secured_response_created_getA :
    ∃ data nonce payload,
      ((run (Network.step replying) clientAndServer [.send .a getA,
        .receive .b roomy ownId (.secure getA.packet peerKey 5)]).devices
          .a).links.securityDataFromNxid peerId = some data ∧
      verifyMessage data.symKey (answerToA peerKey 5).aad
        (answerToA peerKey 5).payload roomy.staleTag = .ok (nonce, payload) ∧
      callbackOfA ∈ ((run (Network.step replying) clientAndServer
        [.send .a getA,
          .receive .b roomy ownId (.secure getA.packet peerKey 5)]).devices
            .a).client.clientCbs ∧
      (answerToA peerKey 5).token = [callbackOfA.token] ∧ peerId = peerId ∧
      (69 : UInt8) = (answerToA peerKey 5).code ∧
      (replying .a).Reads payload (some ()) ∧
      ((run (Network.step replying) clientAndServer [.send .a getA,
          .receive .b roomy ownId (.secure getA.packet peerKey 5)]).Unforged
          data.symKey (.receive .a roomy peerId (answerToA peerKey 5)) →
        created201 ≤ (answerToA peerKey 5).code ∧
        (answerToA peerKey 5).code ≠ notAcceptable406 ∧ data.nonce ≤ nonce ∧
        ∃ creator message,
          (creator, message) ∈ (run (Network.step replying) clientAndServer
            [.send .a getA,
              .receive .b roomy ownId (.secure getA.packet peerKey 5)]).sent ∧
          message.pkt.code = (answerToA peerKey 5).code ∧
          message.signed = some
            ⟨data.symKey, nonce, (answerToA peerKey 5).aad, payload⟩) := by
  have hresponded : Effect.responded callbackOfA ⟨peerId, 69, some ()⟩
      ∈ (((run (Network.step replying) clientAndServer [.send .a getA,
        .receive .b roomy ownId (.secure getA.packet peerKey 5)]).devices
          .a).coapReceive (replying .a) roomy peerId
            (answerToA peerKey 5)).2 := by
    decide +kernel
  exact secured_response_created replying fresh_clientAndServer
    [.send .a getA, .receive .b roomy ownId (.secure getA.packet peerKey 5)]
    hresponded rfl

/-- The third device answers a request to the peer, which has sent nothing. -/
theorem third_device_answers :
    callbackOfA.endpoint = nxIdToOcEndpoint peerId ∧
    callbackOfA.nxRequestSecured = true ∧
    .responded callbackOfA ⟨thirdId, 69, some ()⟩
      ∈ (((run (Network.step replying) clientAndServer [.send .a getA]).devices
        .a).coapReceive (replying .a) roomy thirdId
          (answerToA thirdKey 6)).2 ∧
    (run (Network.step replying) clientAndServer [.send .a getA]).Unforged
      peerKey (.receive .a roomy thirdId (answerToA thirdKey 6)) ∧
    ∀ message, (Party.b, message) ∉ (run (Network.step replying)
      clientAndServer [.send .a getA]).sent := by
  have hwrong : verifyMessage peerKey (answerToA thirdKey 6).aad
      (answerToA thirdKey 6).payload roomy.staleTag
        = .error .macTagInvalid := by
    decide +kernel
  have hsent : (run (Network.step replying) clientAndServer
      [.send .a getA]).sent.map Prod.fst = [Party.a] := by
    decide +kernel
  refine ⟨rfl, rfl, by decide +kernel, ?_, ?_⟩
  · intro nonce payload hverify
    rw [hwrong] at hverify
    cases hverify
  · intro message hmem
    have hfst := List.mem_map_of_mem (f := Prod.fst) hmem
    rw [hsent] at hfst
    cases List.mem_singleton.mp hfst

end Nexus.Channel
