import Nexus.Channel.Network
import Nexus.Lib.Run
import Nexus.Proofs.SecuredPackets

/-!
# Where secured messages come from

A device tags a payload in four places: when it sends a request, when it sends
one again, in a response and in a nonce sync. What it tags says by its code
which of these it is, for the codes of requests and of responses do not meet. So
whatever verifies under a key that only some devices have was created by one of
them, as a request or as a response, depending on its code.

That is all there is: the tag does not say who made it. A device takes its own
request for one of its peer when it comes back, and a client takes the response
of any device it is linked to for the one it is waiting for, if the token is
right.
-/

namespace Nexus.Channel

open Nexus.Util Nexus.Lib

/-! ## What is sent -/

/-- The payload of a message is secured as it says, under its own code, which is
that of a request or of a response. -/
structure OcMessage.Sound (message : OcMessage) (params : MacParams) : Prop where
  secured : signEncodeMessage params maxCborPayloadSize
    = .ok message.pkt.payload
  code : params.aad.coapMethod = message.pkt.code
  kind : (methodOfCode message.pkt.code).isSome ∨
    created201 ≤ message.pkt.code

/-- A request. -/
def OcMessage.IsRequest (message : OcMessage) : Prop :=
  (methodOfCode message.pkt.code).isSome

section

variable {max : MaxLinks} {H R A : Type}

@[simp] theorem mem_sentMessages {effects : List (Effect H R)}
    {message : OcMessage} :
    message ∈ sentMessages effects ↔ .sent message ∈ effects := by
  unfold sentMessages
  rw [List.mem_filterMap]
  constructor
  · intro h
    obtain ⟨effect, hmem, hsome⟩ := h
    cases effect with
    | sent message' =>
        cases hsome
        exact hmem
    | handled handler request => cases hsome
    | responded cb response => cases hsome
  · intro h
    exact ⟨_, h, rfl⟩

/-- Only requests are kept. -/
def Engine.Keeps (e : Engine max H A) : Prop :=
  ∀ id message, e.messages id = some message → message.IsRequest

/-- All messages are sound, and only requests are kept. -/
structure Engine.Tags (moved : Engine max H A × List (Effect H R)) : Prop where
  kept : moved.1.Keeps
  sound : ∀ message params, .sent message ∈ moved.2 →
    message.signed = some params → message.Sound params

theorem isRequest_packet (r : OutgoingRequest) :
    (methodOfCode r.packet.code).isSome := by
  show (methodOfCode r.method.code).isSome
  cases r.method <;> decide

/-- What is secured is secured as it says. -/
theorem sound_secured {endpoint : OcEndpoint} {pkt : CoapPacket}
    {macParams params : MacParams} (hcode : macParams.aad.coapMethod = pkt.code)
    (hkind : (methodOfCode pkt.code).isSome ∨ created201 ≤ pkt.code)
    (h : (OcMessage.secured endpoint pkt macParams).signed = some params) :
    (OcMessage.secured endpoint pkt macParams).Sound params := by
  have hsome : (OcMessage.secured endpoint pkt macParams).signed.isSome := by
    rw [h]
    rfl
  have hsigned := signed_of_isSome hsome
  have hparams : params = macParams := by
    unfold OcMessage.secured at h
    split at h
    · cases h
    · cases h
      rfl
  subst hparams
  exact ⟨hsigned, hcode, hkind⟩

theorem sound_message {links : LinkManager max} {r : OutgoingRequest}
    {message : OcMessage} (h : r.message links = some message) :
    message.IsRequest ∧
      ∀ params, message.signed = some params → message.Sound params := by
  unfold OutgoingRequest.message at h
  split at h
  · cases h
  · split at h
    · split at h
      · cases h
      · dsimp only at h
        split at h
        · cases h
        · cases h
          refine ⟨isRequest_packet r, ?_⟩
          intro params hparams
          exact sound_secured rfl (.inl (isRequest_packet r)) hparams
    · split at h
      · cases h
        exact ⟨isRequest_packet r, fun params hparams => by cases hparams⟩
      · cases h
        exact ⟨isRequest_packet r, fun params hparams => by cases hparams⟩

theorem sound_responseMessage {t : ResourceTable H} {links : LinkManager max}
    {sender : NxId} {pkt response : CoapPacket} {rcvdPktSecured : Bool}
    {params : MacParams} (hcode : response.code = 0 ∨ created201 ≤ response.code)
    (h : (responseMessage t links sender pkt response rcvdPktSecured).signed
      = some params) :
    (responseMessage t links sender pkt response rcvdPktSecured).Sound
      params := by
  unfold responseMessage at h ⊢
  dsimp only at h ⊢
  split at h
  · cases h
  next hzero =>
    rw [if_neg hzero]
    split at h
    · cases h
    · split at h
      next hsecured =>
        rw [if_pos hsecured]
        split at h
        · cases h
        next hsome =>
          rw [if_neg hsome]
          exact sound_secured rfl (.inr (hcode.resolve_left hzero)) h
      · cases h

namespace Engine

variable {e : Engine max H A} (hkept : e.Keeps)

include hkept

theorem tags_sendRequest (r : OutgoingRequest) :
    Tags (R := R) (e.sendRequest r) := by
  unfold sendRequest
  dsimp only
  split
  · exact ⟨hkept, fun _ _ h => by cases h⟩
  next cb _ _ =>
    constructor
    · intro id message hmessage
      dsimp only at hmessage
      by_cases hid : id = cb.requestId
      · rw [hid, Function.update_self] at hmessage
        exact (sound_message hmessage).1
      · rw [Function.update_of_ne hid] at hmessage
        exact hkept id message hmessage
    · intro message params hsent hparams
      obtain ⟨message', hmessage, heq⟩ :=
        Option.map_eq_some_iff.mp (Option.mem_toList.mp hsent)
      cases heq
      exact (sound_message hmessage).2 params hparams

theorem tags_sendRequests (rs : List OutgoingRequest) :
    Tags (R := R) (e.sendRequests rs) := by
  induction rs generalizing e with
  | nil => exact ⟨hkept, fun _ _ h => by cases h⟩
  | cons r rs ih =>
      have hfirst := tags_sendRequest (R := R) hkept r
      have hrest := ih hfirst.kept
      refine ⟨hrest.kept, ?_⟩
      intro message params hsent hparams
      rcases List.mem_append.mp hsent with h | h
      · exact hfirst.sound message params h hparams
      · exact hrest.sound message params h hparams

omit hkept in
/-- The code a response gets. -/
theorem code_of_invoke {app : Application max H R A} {sender : NxId}
    {pkt : CoapPacket} {method : Method} {code : UInt8} {payload : List UInt8}
    (h : (invokeCoapEntityHandler app e sender pkt method).1
      = some (code, payload)) : code = 0 ∨ created201 ≤ code := by
  have hstatus (status : OcStatus) : created201 ≤ status.code := by
    cases status <;> decide
  have hbuffer {code' : UInt8} {payload' : List UInt8}
      (h : responseBuffer sender code' payload' = some (code, payload)) :
      code = code' := by
    unfold responseBuffer at h
    split at h
    · cases h
    · cases h
      rfl
  unfold invokeCoapEntityHandler at h
  split at h
  · rw [hbuffer h]
    exact .inr (hstatus _)
  · dsimp only at h
    split at h
    · exact .inl (hbuffer h)
    · rw [hbuffer h]
      exact .inr (hstatus _)

theorem tags_receiveRequest {app : Application max H R A} {s : Surroundings}
    {sender : NxId} {pkt : CoapPacket} {rcvdPktSecured : Bool}
    {method : Method} :
    Tags (e.receiveRequest app s sender pkt rcvdPktSecured method) := by
  have hhandled {message : OcMessage}
      (h : .sent message ∈ (invokeCoapEntityHandler app e sender pkt
        method).2.1) : False := by
    unfold invokeCoapEntityHandler at h
    split at h
    · cases h
    · cases List.mem_singleton.mp h
  unfold receiveRequest
  dsimp only
  split
  · split
    · exact ⟨hkept, fun message _ hsent => (hhandled hsent).elim⟩
    next code payload hbuffer =>
      split
      · exact ⟨hkept, fun message _ hsent => (hhandled hsent).elim⟩
      · refine ⟨hkept, ?_⟩
        intro message params hsent hparams
        rcases List.mem_append.mp hsent with h | h
        · exact (hhandled h).elim
        · cases List.mem_singleton.mp h
          exact sound_responseMessage (code_of_invoke hbuffer) hparams
  · exact ⟨hkept, fun _ _ h => by cases h⟩

theorem tags_receiveResponse {app : Application max H R A} {sender : NxId}
    {pkt : CoapPacket} {rcvdPktSecured : Bool} :
    Tags (e.receiveResponse app sender pkt rcvdPktSecured) := by
  unfold receiveResponse
  dsimp only
  split
  · exact ⟨hkept, fun _ _ h => by cases h⟩
  next cb _ =>
    split
    · exact ⟨hkept, fun _ _ h => by cases h⟩
    next call _ =>
      have hsent := tags_sendRequests (R := R)
        (e := { e with app := (app.respond cb call e.links e.app).2 }) hkept
        (app.respond cb call e.links e.app).1
      refine ⟨hsent.kept, ?_⟩
      intro message params hmem hparams
      rcases List.mem_cons.mp hmem with h | h
      · cases h
      · exact hsent.sound message params h hparams

omit hkept in
/-- A nonce sync is a response. -/
theorem sound_sendNonceSyncResponse {s : Surroundings} {sender : NxId}
    {pkt : CoapPacket} {isNonceReset : Bool} {message : OcMessage}
    {params : MacParams}
    (hsent : .sent message
      ∈ e.sendNonceSyncResponse (R := R) s sender pkt isNonceReset)
    (hparams : message.signed = some params) : message.Sound params := by
  unfold sendNonceSyncResponse at hsent
  split at hsent
  · cases hsent
  · dsimp only at hsent
    split at hsent
    · cases List.mem_singleton.mp hsent
      have hresponse : created201 ≤ notAcceptable406 := by decide
      exact sound_secured rfl (.inr hresponse) hparams
    · cases hsent

theorem tags_sendPreviousRequest {s : Surroundings} {sender : NxId}
    {mid : UInt16} : Tags (R := R) (e.sendPreviousRequest s sender mid) := by
  unfold sendPreviousRequest
  split
  · exact ⟨hkept, fun _ _ h => by cases h⟩
  next t _ =>
    split
    · exact ⟨hkept, fun _ _ h => by cases h⟩
    next message hmessage =>
      have hrequest := hkept _ _ hmessage
      split
      · exact ⟨hkept, fun _ _ h => by cases h⟩
      · split
        · constructor
          · intro id message' hmessage'
            dsimp only at hmessage'
            by_cases hid : id = t.requestId
            · rw [hid, Function.update_self] at hmessage'
              cases hmessage'
              exact hrequest
            · rw [Function.update_of_ne hid] at hmessage'
              exact hkept id message' hmessage'
          · intro message' params hsent hparams
            cases List.mem_singleton.mp hsent
            exact sound_secured rfl (.inl hrequest) hparams
        · exact ⟨hkept, fun _ _ h => by cases h⟩

theorem tags_coapReceive {app : Application max H R A} {s : Surroundings}
    {sender : NxId} {pkt : CoapPacket} :
    Tags (e.coapReceive app s sender pkt) := by
  unfold coapReceive
  dsimp only
  split
  · unfold passOnwards
    dsimp only
    split
    · apply tags_receiveRequest
      exact hkept
    · apply tags_receiveResponse
      exact hkept
  · exact ⟨hkept, fun _ _ => sound_sendNonceSyncResponse⟩
  · exact ⟨hkept, fun _ _ => sound_sendNonceSyncResponse⟩
  · apply tags_sendPreviousRequest
    exact hkept
  · refine ⟨hkept, ?_⟩
    intro message params hsent hparams
    unfold sendEmptyResponse at hsent
    dsimp only at hsent
    split at hsent
    · cases List.mem_singleton.mp hsent
      cases hparams
    · cases hsent

end Engine

end

/-! ## What verifies -/

/-- What verifies is short enough for its MAC structure. -/
theorem struct_of_verifyMessage {key : CheckKey} {aad : ExternalAad}
    {data : List UInt8} {staleTag : Vector UInt8 8} {nonce : UInt32}
    {payload : List UInt8}
    (h : verifyMessage key aad data staleTag = .ok (nonce, payload)) :
    ∃ macStruct, macParamsToMacStructure ⟨key, nonce, aad, payload⟩
      = .ok macStruct := by
  unfold verifyMessage at h
  cases hread : deserializeProtectedMessage data staleTag with
  | error e =>
      rw [hread] at h
      cases h
  | ok extracted =>
      rw [hread] at h
      cases hstruct : macParamsToMacStructure
          ⟨key, extracted.nonce, aad, extracted.payload⟩ with
      | error e =>
          simp only [ok_bind, hstruct] at h
          cases h
      | ok macStruct =>
          simp only [ok_bind, hstruct] at h
          cases htag : (computeTag macStruct key).toList == extracted.tag with
          | false =>
              rw [htag] at h
              cases h
          | true =>
              rw [htag] at h
              cases h
              exact ⟨macStruct, hstruct⟩

theorem length_of_struct {macParams : MacParams} {macStruct : List UInt8}
    (h : macParamsToMacStructure macParams = .ok macStruct) :
    macParams.aad.coapUri.length < 2 ^ 63 ∧
      macParams.payload.length < 2 ^ 64 := by
  obtain ⟨huri, hstruct⟩ := macParamsToMacStructure_ok h
  have hlen : (macStructureBytes macParams.nonceToProtect macParams.aad
      macParams.payload).length ≤ macStructureSize := by
    unfold macParamsToMacStructure at h
    rw [if_neg (Nat.not_lt.mpr huri)] at h
    dsimp only at h
    split at h
    · cases h
    next hsize => exact Nat.le_of_not_lt hsize
  rw [length_macStructureBytes _ huri, length_encodeByteString] at hlen
  simp only [maxHumanReadableUriLength, macStructureSize,
    maxProtectedHeaderBstrSize, maxCborPayloadSize] at huri hlen
  constructor
  · omega
  · omega

theorem struct_of_signed {macParams : MacParams} {bytes : List UInt8}
    (h : signEncodeMessage macParams maxCborPayloadSize = .ok bytes) :
    ∃ macStruct, macParamsToMacStructure macParams = .ok macStruct := by
  unfold signEncodeMessage at h
  split at h
  · cases h
  · split at h
    · cases h
    next macStruct hstruct => exact ⟨macStruct, hstruct⟩

/-! ## The network -/

namespace Network

variable {ι : Type} [DecidableEq ι] {max : ι → MaxLinks} {H R A : ι → Type}
  {app : (i : ι) → Application (max i) (H i) (R i) (A i)}
  {n : Network max H A}

/-- Every message is sound, and only requests are kept anywhere. -/
structure Genuine (n : Network max H A) : Prop where
  kept : ∀ i, (n.devices i).Keeps
  sound : ∀ sender message params, (sender, message) ∈ n.sent →
    message.signed = some params → message.Sound params

omit [DecidableEq ι] in
theorem Fresh.genuine (h : n.Fresh) : n.Genuine where
  kept := by
    intro i id message hmessage
    rw [h.2 i id] at hmessage
    cases hmessage
  sound := by
    intro sender message params hsent
    rw [h.1] at hsent
    cases hsent

theorem Genuine.advance (h : n.Genuine) {i : ι}
    {moved : Engine (max i) (H i) (A i) × List (Effect (H i) (R i))}
    (htags : Engine.Tags moved) : (n.advance i moved).Genuine where
  kept := by
    intro j
    unfold Network.advance
    by_cases hj : j = i
    · subst hj
      dsimp only
      rw [Function.update_self]
      exact htags.kept
    · dsimp only
      rw [Function.update_of_ne hj]
      exact h.kept j
  sound := by
    intro sender message params hsent hparams
    rcases List.mem_append.mp hsent with hsent | hsent
    · exact h.sound sender message params hsent hparams
    · obtain ⟨message', hmem, heq⟩ := List.mem_map.mp hsent
      cases heq
      exact htags.sound message params (mem_sentMessages.mp hmem) hparams

theorem Genuine.step (h : n.Genuine) (op : Op max H A) :
    (Network.step app n op).Genuine := by
  cases op with
  | send i r => exact h.advance (Engine.tags_sendRequest (h.kept i) r)
  | receive i s sender pkt =>
      exact h.advance (Engine.tags_coapReceive (h.kept i))
  | change i resources links client state =>
      exact h.advance ⟨h.kept i, fun _ _ hsent => by cases hsent⟩

variable (app) in
theorem genuine_run (h : n.Genuine) (ops : List (Op max H A)) :
    (run (Network.step app) n ops).Genuine :=
  run_invariant (fun _ op h _ => h.step op) h (along_true n ops)

omit [DecidableEq ι] in
/-- What verifies under a key that the network does not have was created by a
device, with the same code, path, nonce and payload. -/
theorem Genuine.created (h : n.Genuine) {key : CheckKey} {i : ι}
    {s : Surroundings} {sender : NxId} {pkt : CoapPacket}
    (hunforged : n.Unforged key (.receive i s sender pkt)) {nonce : UInt32}
    {payload : List UInt8}
    (hverify : verifyMessage key pkt.aad pkt.payload s.staleTag
      = .ok (nonce, payload)) :
    ∃ creator message, (creator, message) ∈ n.sent ∧
      message.signed = some ⟨key, nonce, pkt.aad, payload⟩ ∧
      message.Sound ⟨key, nonce, pkt.aad, payload⟩ := by
  obtain ⟨creator, message, params, hsent, hparams, rfl, hbytes⟩ :=
    hunforged nonce payload hverify
  have hsound := h.sound creator message params hsent hparams
  obtain ⟨macStruct, hstruct⟩ := struct_of_verifyMessage hverify
  obtain ⟨macStruct', hstruct'⟩ := struct_of_signed hsound.secured
  obtain ⟨huri, hlen⟩ := length_of_struct hstruct
  obtain ⟨huri', hlen'⟩ := length_of_struct hstruct'
  obtain ⟨hnonce, haad, hpayload⟩ :=
    macStructureBytes_inj huri' huri hlen' hlen hbytes
  have heq : params = ⟨params.key, nonce, pkt.aad, payload⟩ := by
    obtain ⟨key, nonce', aad', payload'⟩ := params
    dsimp only at hnonce haad hpayload ⊢
    rw [hnonce, haad, hpayload]
  refine ⟨creator, message, hsent, ?_, ?_⟩
  · rw [hparams, ← heq]
  · rw [← heq]
    exact hsound

end Network

end Nexus.Channel
