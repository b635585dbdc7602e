import Nexus.Proofs.Engine
import Nexus.Proofs.SecuredMethods

/-!
# Handlers of secured methods

Whether a method is secured is asked before a message is unpacked, and its
handler is looked up afterwards, from the path of the same packet. In between
come the core resources, which have no handlers and so only ever take a request
away from the application. Both questions find the same resource: a path with
nothing in it is never asked about, and finds no resource whose URI goes on
after the slash. So a handler of a secured method that is called has been asked
about, and the message had to verify.
-/

namespace Nexus.Channel

open Nexus.Util Nexus.Lib

variable {max : MaxLinks} {H R A : Type}

/-! ## The URIs of a table -/

namespace ResourceTable

/-- A registered URI begins with a slash and does not end there. -/
def GoesOn (uri : List UInt8) : Prop :=
  uri.head? = some slash ∧ 2 ≤ uri.length

/-- So do all URIs of a table, if every resource was registered with one that
does. -/
theorem goesOn_of_registered {maxAppResources : ℕ}
    {regs : List (Registration H)}
    (hregs : ∀ props, .resource props ∈ regs →
      2 ≤ (storeUri props.uri).length) {uri : List UInt8}
    (huri : uri ∈ (registered maxAppResources regs).appResources.map
      Resource.uri) : GoesOn uri := by
  obtain ⟨props, hprops, rfl⟩ := uri_of_registered huri
  exact ⟨head_storeUri props.uri, hregs props hprops⟩

/-- A path finds the resource whose URI it is, but for a slash in front. -/
theorem uri_of_getAppResourceByUri {t : ResourceTable H}
    {uriPath : List UInt8} {r : Resource H}
    (h : t.getAppResourceByUri uriPath = some r)
    (huri : r.uri.head? = some slash) :
    r ∈ t.appResources ∧ r.uri = storeUri uriPath := by
  unfold getAppResourceByUri at h
  dsimp only at h
  have hmem := List.mem_of_find?_eq_some h
  have hfound := List.find?_some h
  rw [Bool.and_eq_true, beq_iff_eq, beq_iff_eq] at hfound
  refine ⟨hmem, ?_⟩
  unfold storeUri
  split at hfound
  next hslash =>
    rw [if_pos hslash]
    exact hfound.2
  next hslash =>
    rw [if_neg hslash]
    obtain ⟨c, rest, hcons⟩ := List.exists_cons_of_length_pos
      (show 0 < r.uri.length by omega)
    rw [hcons] at huri hfound ⊢
    cases huri
    rw [← hfound.2]
    rfl

/-- A core resource has no handler. -/
theorem app_of_handler {t : ResourceTable H} {uriPath : List UInt8}
    {r : Resource H} {method : Method} {handler : H}
    (h : t.getResourceByUri uriPath = some r)
    (hhandler : r.handler method = some handler) :
    t.getAppResourceByUri uriPath = some r := by
  rcases Option.or_eq_some_iff.mp h with hcore | ⟨-, happ⟩
  · have hmem := List.mem_of_find?_eq_some hcore
    have hno : ∀ r ∈ (coreResources : List (Resource H)),
        r.handler method = none := by
      intro r hr
      simp only [coreResources, List.mem_cons, List.not_mem_nil,
        or_false] at hr
      rcases hr with rfl | rfl <;> cases method <;> rfl
    rw [hno r hmem] at hhandler
    cases hhandler
  · exact happ

end ResourceTable

theorem code_of_methodOfCode {code : UInt8} {method : Method}
    (h : methodOfCode code = some method) : method.code = code := by
  simpa using List.find?_some h

/-! ## Calls -/

open ResourceTable

/-- A handler of a secured method is called only for a packet that verifies
under the key of the link to its sender, for this method and this path, and
gets the payload that was verified. -/
theorem secured_handler_runs_verified (app : Application max H R A)
    (s : Surroundings) {e : Engine max H A} {maxAppResources : ℕ}
    {regs : List (Registration H)}
    (htable : e.resources = registered maxAppResources regs)
    (hregs : ∀ props, .resource props ∈ regs →
      2 ≤ (storeUri props.uri).length)
    (sender : NxId) {pkt : CoapPacket}
    (hsize : pkt.uriPath.length + pkt.payload.length ≤ maxCoapTotalMessageSize)
    {handler : H} {request : OcRequest H R}
    (hcalled : .handled handler request ∈ (e.coapReceive app s sender pkt).2)
    (hsecured : WasSecured maxAppResources regs request.resource.uri
      request.method) :
    ∃ data nonce payload, e.links.securityDataFromNxid sender = some data ∧
      pkt.contentFormat = applicationCoseMac0 ∧
      verifyMessage data.symKey ⟨request.method.code, pkt.uriPath⟩ pkt.payload
        s.staleTag = .ok (nonce, payload) ∧
      request.resource.uri = storeUri pkt.uriPath ∧
      app.Reads payload request.requestPayload := by
  obtain ⟨method, hmethod, hways⟩ := Engine.handled_of_coapReceive hcalled
  have hcode := code_of_methodOfCode hmethod
  -- the resource the path leads to, whatever the payload
  have hresource (pkt' : CoapPacket) (hpath : pkt'.uriPath = pkt.uriPath)
      (hfound : findHandler app e.resources sender pkt' method
        = .ok (handler, request)) :
      e.resources.getAppResourceByUri pkt.uriPath = some request.resource ∧
        request.method = method ∧ app.Reads pkt'.payload
          request.requestPayload := by
    obtain ⟨hresource, hhandler, rfl, -, -, hreads⟩ :=
      Engine.findHandler_eq_ok hfound
    rw [hpath] at hresource
    exact ⟨app_of_handler hresource hhandler, rfl, hreads⟩
  have huri (happ : e.resources.getAppResourceByUri pkt.uriPath
      = some request.resource) :
      GoesOn request.resource.uri ∧
        request.resource.uri = storeUri pkt.uriPath := by
    have hmem : request.resource ∈ e.resources.appResources :=
      List.mem_of_find?_eq_some happ
    rw [htable] at hmem
    have hgoes := goesOn_of_registered hregs (List.mem_map_of_mem hmem)
    exact ⟨hgoes, (uri_of_getAppResourceByUri happ hgoes.1).2⟩
  rcases hways with ⟨data, nonce, payload, hverified, hfound⟩ | ⟨hopen, hfound⟩
  · obtain ⟨hheaders, hdata, hverify⟩ := Received.of_verified hverified
    obtain ⟨happ, rfl, hreads⟩ := hresource (pkt.unpacked payload) rfl hfound
    have haad : pkt.aad = ⟨request.method.code, pkt.uriPath⟩ := by
      unfold CoapPacket.aad
      rw [Nat.mod_eq_of_lt (by unfold maxCoapTotalMessageSize at hsize; omega),
        List.take_length, hcode]
    refine ⟨data, nonce, payload, hdata, ?_, ?_, (huri happ).2, hreads⟩
    · simpa [messageHeadersSecuredMode0] using hheaders
    · rw [← haad]
      exact hverify
  · -- the same lookup would have asked for a secured message
    obtain ⟨happ, rfl, -⟩ := hresource pkt rfl hfound
    obtain ⟨⟨-, hlong⟩, hstore⟩ := huri happ
    have hpath : pkt.uriPath.length ≠ 0 := by
      intro hnil
      rw [List.length_eq_zero_iff] at hnil
      rw [hstore, hnil] at hlong
      exact absurd hlong (by decide)
    have hasked : requestedMethodIsSecured e.resources pkt = true := by
      unfold requestedMethodIsSecured
      rw [if_neg hpath, happ, ← hcode, htable]
      exact (resourceMethodIsSecured_iff _ _).mpr
        ⟨_, List.prefix_rfl, hsecured⟩
    rw [hasked] at hopen
    cases hopen

/-- `/a`, with a secured GET. -/
def securedGet : List (Registration Unit) :=
  [.resource ⟨[0x2F, 0x61], [ifRw], some (), true, none, false⟩]

/-- An application that answers every request, and takes no payloads. -/
def answering : Application oneLink Unit Unit Unit where
  parseRep _ := .error .other
  handle _ _ _ _ := (some ⟨.ok, []⟩, ())
  respond _ _ _ _ := ([], ())

/-- A device with one link and these resources. -/
def deviceAt (nonce : UInt32) (regs : List (Registration Unit)) :
    Engine oneLink Unit Unit where
  resources := registered 4 regs
  links := linkedAt nonce
  client := .init
  messages _ := none
  app := ()

/-- Room for everything. -/
def roomy : Surroundings := ⟨Vector.replicate 8 0, 1, true, true⟩

/-- The peer's secured GET of `/a`. -/
def securedGetRequest : CoapPacket :=
  .secure ⟨.non, 1, 0, [0], 0, [0x61], 0, []⟩ peerKey 5

/-- What its handler is called with. -/
def securedGetCall : OcRequest Unit Unit where
  origin := peerId
  resource := newResource ⟨[0x2F, 0x61], [ifRw], some (), true, none, false⟩
  method := .get
  ifaceMask := ifRw
  requestPayload := none

theorem secured_handler_runs_verified_get :
    ∃ data nonce payload,
      (deviceAt 4 securedGet).links.securityDataFromNxid peerId = some data ∧
      securedGetRequest.contentFormat = applicationCoseMac0 ∧
      verifyMessage data.symKey
        ⟨securedGetCall.method.code, securedGetRequest.uriPath⟩
        securedGetRequest.payload roomy.staleTag = .ok (nonce, payload) ∧
      securedGetCall.resource.uri = storeUri securedGetRequest.uriPath ∧
      answering.Reads payload securedGetCall.requestPayload := by
  have hregs : ∀ props, .resource props ∈ securedGet →
      2 ≤ (storeUri props.uri).length := by
    intro props hprops
    rw [securedGet, List.mem_singleton] at hprops
    cases hprops
    decide
  have hsize : securedGetRequest.uriPath.length
      + securedGetRequest.payload.length ≤ maxCoapTotalMessageSize := by
    decide +kernel
  have hcalled : Effect.handled () securedGetCall
      ∈ ((deviceAt 4 securedGet).coapReceive answering roomy peerId
        securedGetRequest).2 := by
    decide +kernel
  have hsecured : WasSecured 4 securedGet securedGetCall.resource.uri
      securedGetCall.method := by
    rw [WasSecured]
    decide
  exact secured_handler_runs_verified answering roomy rfl hregs peerId hsize
    hcalled hsecured

end Nexus.Channel
