import Nexus.Proofs.Network
import Nexus.Proofs.NonceSync

/-!
# Who made a request

Two devices share a link key that nobody else has. Whatever they do and whatever
the network makes of their messages, a secured request that one of them accepts
was created, as a request with this method, path, nonce and payload, by one of
the two. Which one the tag does not say: both compute it with the same key over
the same data, and the nonce of a link is not advanced when a request is sent.
So a device accepts its own request when it comes back with the peer's address.
-/

namespace Nexus.Channel

open Nexus.Util Nexus.Lib

/-- The two ends of a link. -/
inductive Party
  | a
  | b
deriving DecidableEq

section

variable {max : Party → MaxLinks} {H R A : Party → Type}

/-- A secured request that is accepted was created by one of the two devices
that have the key. -/
theorem accepted_request_created
    (app : (i : Party) → Application (max i) (H i) (R i) (A i))
    {start : Network max H A} (hfresh : start.Fresh)
    (ops : List (Network.Op max H A)) {i : Party} {s : Surroundings}
    {sender : NxId} {pkt unpacked : CoapPacket} {key : CheckKey}
    {data : SecurityMode0Data} {links : LinkManager (max i)}
    (hunforged : (run (Network.step app) start ops).Unforged key
      (.receive i s sender pkt))
    (hdata : ((run (Network.step app) start ops).devices
      i).links.securityDataFromNxid sender = some data)
    (hkey : data.symKey = key) (hrequest : pkt.code < created201)
    (haccepted : authenticateMessage
        ((run (Network.step app) start ops).devices i).resources
        ((run (Network.step app) start ops).devices i).links sender pkt
        s.staleTag
      = (.none, unpacked, true, links)) :
    ∃ nonce creator message,
      verifyMessage key pkt.aad pkt.payload s.staleTag
        = .ok (nonce, unpacked.payload) ∧
      (creator, message) ∈ (run (Network.step app) start ops).sent ∧
      message.IsRequest ∧ message.pkt.code = pkt.code ∧
      message.signed = some ⟨key, nonce, pkt.aad, unpacked.payload⟩ := by
  have hgenuine := Network.genuine_run app hfresh.genuine ops
  revert hunforged hdata haccepted hgenuine
  generalize run (Network.step app) start ops = n
  intro hunforged hdata haccepted hgenuine
  cases hv : Received.verified (n.devices i).links
      ⟨sender, pkt, s.staleTag⟩ with
  | none =>
      have hmoved : (authenticateMessage (n.devices i).resources
          (n.devices i).links sender pkt s.staleTag).2.2.1 = false :=
        (Received.authenticate_of_not_verified hv).2.1
      rw [haccepted] at hmoved
      cases hmoved
  | some v =>
      obtain ⟨data', nonce, payload⟩ := v
      obtain ⟨-, hdata', hverify⟩ := Received.of_verified hv
      have hauth : authenticateMessage (n.devices i).resources
          (n.devices i).links sender pkt s.staleTag = _ :=
        Received.authenticate_of_verified hv
      rw [haccepted] at hauth
      simp only [Prod.mk.injEq, true_and] at hauth
      obtain ⟨-, hunpacked, -⟩ := hauth
      have hsame : data' = data := Option.some.inj (hdata'.symm.trans hdata)
      rw [hsame, hkey] at hverify
      obtain ⟨creator, message, hsent, hsigned, hsound⟩ :=
        hgenuine.created hunforged hverify
      have hcode : pkt.code = message.pkt.code := hsound.code
      refine ⟨nonce, creator, message, ?_, hsent, ?_, hcode.symm, ?_⟩
      · rw [hunpacked]
        exact hverify
      · -- the code of a response is not that of a request
        refine hsound.kind.resolve_right ?_
        rw [← hcode]
        exact UInt8.not_le.mpr hrequest
      · rw [hunpacked]
        exact hsigned

end

/-! ## Two devices -/

/-- The two ends of a link, with these nonces. -/
def twoDevices (nonce nonce' : UInt32) :
    Network (fun _ : Party => oneLink) (fun _ => Unit) fun _ => Unit where
  devices
    | .a => deviceTo peerId nonce
    | .b => deviceTo ownId nonce'
  sent := []

/-- What both of them run. -/
def answeringBoth (_ : Party) : Application oneLink Unit Unit Unit := answering

theorem fresh_twoDevices (nonce nonce' : UInt32) :
    (twoDevices nonce nonce').Fresh := by
  refine ⟨rfl, ?_⟩
  intro i id
  cases i <;> rfl

/-- A secured GET of `nx/pc` from the other device. -/
def getCreditBack : OutgoingRequest :=
  { getCredit with endpoint := nxIdToOcEndpoint ownId }

/-- The message of such a request. -/
def creditMessage (id : NxId) (nonce : UInt32) : OcMessage :=
  .secured (nxIdToOcEndpoint id) getCredit.packet
    ⟨peerKey, nonce, getCredit.packet.aad, []⟩

/-- One request has been sent, and it is that request which arrives. -/
theorem unforged_creditMessage {n : Network (fun _ : Party => oneLink)
    (fun _ => Unit) fun _ => Unit} {creator i : Party} {id id' : NxId}
    {nonce : UInt32}
    (hsent : (creator, creditMessage id nonce) ∈ n.sent)
    (hsigned : (creditMessage id nonce).signed
      = some ⟨peerKey, nonce, getCredit.packet.aad, []⟩)
    (hverify : verifyMessage peerKey (creditMessage id nonce).pkt.aad
      (creditMessage id nonce).pkt.payload roomy.staleTag = .ok (nonce, [])) :
    n.Unforged peerKey (.receive i roomy id' (creditMessage id nonce).pkt) := by
  intro nonce' payload hverify'
  rw [hverify] at hverify'
  cases hverify'
  exact ⟨creator, _, _, hsent, hsigned, rfl, rfl⟩

theorem eq_of_parts {α β γ δ : Type} {x : α × β × γ × δ} {a : α} {b : β} {c : γ}
    (ha : x.1 = a) (hb : x.2.1 = b) (hc : x.2.2.1 = c) :
    x = (a, b, c, x.2.2.2) := by
  subst ha hb hc
  rfl

/-- One device asks the other. -/
theorem accepted_request_created_getCredit :
    ∃ nonce creator message,
      verifyMessage peerKey (creditMessage ownId 8).pkt.aad
        (creditMessage ownId 8).pkt.payload roomy.staleTag = .ok (nonce, []) ∧
      (creator, message) ∈ (run (Network.step answeringBoth) (twoDevices 4 7)
        [.send .b getCreditBack]).sent ∧
      message.IsRequest ∧
      message.pkt.code = (creditMessage ownId 8).pkt.code ∧
      message.signed
        = some ⟨peerKey, nonce, (creditMessage ownId 8).pkt.aad, []⟩ := by
  have hsent : (Party.b, creditMessage ownId 8)
      ∈ (run (Network.step answeringBoth) (twoDevices 4 7)
        [.send .b getCreditBack]).sent := by
    decide +kernel
  have hsigned : (creditMessage ownId 8).signed
      = some ⟨peerKey, 8, getCredit.packet.aad, []⟩ := by
    decide +kernel
  have hverify : verifyMessage peerKey (creditMessage ownId 8).pkt.aad
      (creditMessage ownId 8).pkt.payload roomy.staleTag = .ok (8, []) := by
    decide +kernel
  have hdata : ((run (Network.step answeringBoth) (twoDevices 4 7)
      [.send .b getCreditBack]).devices .a).links.securityDataFromNxid peerId
        = some ⟨peerKey, 4⟩ := (linked_deviceTo peerId 4).data
  have hresult : (authenticateMessage
      ((run (Network.step answeringBoth) (twoDevices 4 7)
        [.send .b getCreditBack]).devices .a).resources
      ((run (Network.step answeringBoth) (twoDevices 4 7)
        [.send .b getCreditBack]).devices .a).links peerId
      (creditMessage ownId 8).pkt roomy.staleTag).1 = .none := by
    decide +kernel
  have hunpacked : (authenticateMessage
      ((run (Network.step answeringBoth) (twoDevices 4 7)
        [.send .b getCreditBack]).devices .a).resources
      ((run (Network.step answeringBoth) (twoDevices 4 7)
        [.send .b getCreditBack]).devices .a).links peerId
      (creditMessage ownId 8).pkt roomy.staleTag).2.1
        = { (creditMessage ownId 8).pkt with payload := [] } := by
    decide +kernel
  have hmoved : (authenticateMessage
      ((run (Network.step answeringBoth) (twoDevices 4 7)
        [.send .b getCreditBack]).devices .a).resources
      ((run (Network.step answeringBoth) (twoDevices 4 7)
        [.send .b getCreditBack]).devices .a).links peerId
      (creditMessage ownId 8).pkt roomy.staleTag).2.2.1 = true := by
    decide +kernel
  have hrequest : (creditMessage ownId 8).pkt.code < created201 := by
    decide +kernel
  exact accepted_request_created answeringBoth (fresh_twoDevices 4 7)
    [.send .b getCreditBack] (unforged_creditMessage hsent hsigned hverify)
    hdata rfl hrequest (eq_of_parts hresult hunpacked hmoved)

/-- A request that comes back is accepted by the device that sent it, and the
other device has sent nothing. -/
theorem own_request_accepted :
    (run (Network.step answeringBoth) (twoDevices 4 7)
        [.send .a getCredit]).Unforged peerKey
      (.receive .a roomy peerId (creditMessage peerId 5).pkt) ∧
    (creditMessage peerId 5).pkt.code < created201 ∧
    (authenticateMessage ((run (Network.step answeringBoth) (twoDevices 4 7)
        [.send .a getCredit]).devices .a).resources
      ((run (Network.step answeringBoth) (twoDevices 4 7)
        [.send .a getCredit]).devices .a).links peerId
      (creditMessage peerId 5).pkt roomy.staleTag).1 = .none ∧
    ∀ message, (Party.b, message) ∉ (run (Network.step answeringBoth)
      (twoDevices 4 7) [.send .a getCredit]).sent := by
  have hsent : (run (Network.step answeringBoth) (twoDevices 4 7)
      [.send .a getCredit]).sent = [(Party.a, creditMessage peerId 5)] := by
    decide +kernel
  have hsigned : (creditMessage peerId 5).signed
      = some ⟨peerKey, 5, getCredit.packet.aad, []⟩ := by
    decide +kernel
  have hverify : verifyMessage peerKey (creditMessage peerId 5).pkt.aad
      (creditMessage peerId 5).pkt.payload roomy.staleTag = .ok (5, []) := by
    decide +kernel
  refine ⟨unforged_creditMessage (by rw [hsent]; exact List.mem_cons_self)
    hsigned hverify, by decide +kernel, by decide +kernel, ?_⟩
  intro message hmem
  rw [hsent] at hmem
  cases List.mem_singleton.mp hmem

end Nexus.Channel
