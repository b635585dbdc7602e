import Nexus.Channel.ClientCallbacks
import Nexus.Channel.SecurityManager

/-!
# The CoAP engine

`coap_receive` of `engine.c` for a message that could be parsed, the dispatch of
requests in `oc_ri.c`, and the requests that `oc_client_api.c` sends. A device
has its resources, its links, the callbacks of its own requests and, for each
request it may have to send again, the message that went out.

How a payload is parsed and what handlers do is given by the application, with
a state of its own. What memory and chance decide is given with each call. What
a call does outside of the device comes back with the new state, in order.

A payload that has been secured is in a message only together with its tag, so a
message that is sent says which parameters its payload was secured with.
-/

namespace Nexus.Channel

open Nexus.Util

/-! ## Codes -/

/-- `coap_status_t`, as far as `_coap_unpack_possibly_secured_payload` returns
it. -/
inductive CoapStatus
  | noError
  | badRequest400
  | unauthorized401
  | forbidden403
  | notAcceptable406
  | resendPreviousRequest
  | requireNonceSyncSpecialCaseReset
deriving DecidableEq

def CoapStatus.code : CoapStatus → UInt8
  | noError => 0
  | badRequest400 => 128
  | unauthorized401 => 129
  | forbidden403 => 131
  | notAcceptable406 => 134
  | resendPreviousRequest => 200
  | requireNonceSyncSpecialCaseReset => 201

/-- `oc_status_t`. -/
inductive OcStatus
  | ok
  | created
  | changed
  | deleted
  | notModified
  | badRequest
  | unauthorized
  | badOption
  | forbidden
  | notFound
  | methodNotAllowed
  | notAcceptable
  | requestEntityTooLarge
  | unsupportedMediaType
  | internalServerError
  | notImplemented
  | badGateway
  | serviceUnavailable
  | gatewayTimeout
  | proxyingNotSupported
deriving DecidableEq

/-- `oc_status_code`. -/
def OcStatus.code : OcStatus → UInt8
  | ok => 69
  | created => 65
  | changed => 68
  | deleted => 66
  | notModified => 67
  | badRequest => 128
  | unauthorized => 129
  | badOption => 130
  | forbidden => 131
  | notFound => 132
  | methodNotAllowed => 133
  | notAcceptable => 134
  | requestEntityTooLarge => 141
  | unsupportedMediaType => 143
  | internalServerError => 160
  | notImplemented => 161
  | badGateway => 162
  | serviceUnavailable => 163
  | gatewayTimeout => 164
  | proxyingNotSupported => 165

/-- The method of a request code. -/
def methodOfCode (code : UInt8) : Option Method :=
  [Method.get, .post, .put, .delete].find? fun method => method.code == code

/-! ## Endpoints and messages -/

/-- `NEXUS_OC_WRAPPER_MULTICAST_NX_ID`. -/
def multicastNxId : NxId := ⟨0xFF00, 0x158⟩

/-- `nexus_oc_wrapper_nx_id_to_oc_endpoint`. -/
def nxIdToOcEndpoint (id : NxId) : OcEndpoint where
  device := 0
  flags :=
    if id = multicastNxId then OcEndpoint.ipv6 ||| OcEndpoint.multicast
    else OcEndpoint.ipv6
  port := 5683
  address := ⟨(nxIdToAddress id).toArray, rfl⟩

/-- `nexus_oc_wrapper_oc_endpoint_to_nx_id`. -/
def OcEndpoint.nxId (endpoint : OcEndpoint) : NxId :=
  addressToNxId endpoint.address.toList

/-- `NEXUS_CHANNEL_MAX_COAP_TOTAL_MESSAGE_SIZE`, beyond which
`nx_channel_network_receive` takes nothing. -/
def maxCoapTotalMessageSize : Nat := 120

/-- `oc_message_t`, not yet serialised; `signed` are the parameters its payload
was secured with. -/
structure OcMessage where
  endpoint : OcEndpoint
  pkt : CoapPacket
  signed : Option MacParams
deriving DecidableEq

/-- The message with its payload secured; what cannot be packed leaves an empty
payload. -/
def OcMessage.secured (endpoint : OcEndpoint) (pkt : CoapPacket)
    (macParams : MacParams) : OcMessage where
  endpoint
  pkt := { pkt with
    contentFormat := applicationCoseMac0
    payload := repackBufferSecured macParams }
  signed :=
    if (repackBufferSecured macParams).length = 0 then none else some macParams

/-- `coap_udp_init_message`, with a token. -/
def CoapPacket.init (type : CoapType) (code : UInt8) (mid : UInt16)
    (token : List UInt8) : CoapPacket where
  type
  code
  mid
  token
  contentFormat := 0
  uriPath := []
  queryInterface := 0
  payload := []

/-! ## The application -/

/-- What `oc_parse_rep` fails with. -/
inductive RepError
  | unexpectedEof
  | other
deriving DecidableEq

/-- `oc_request_t`, with the method and the interface. -/
structure OcRequest (H R : Type) where
  origin : NxId
  resource : Resource H
  method : Method
  ifaceMask : UInt16
  requestPayload : Option R
deriving DecidableEq

/-- `oc_response_buffer_t` after `oc_send_response`. -/
structure OcResponse where
  status : OcStatus
  payload : List UInt8
deriving DecidableEq

/-- `oc_client_response_t`. -/
structure OcClientResponse (R : Type) where
  source : NxId
  code : UInt8
  payload : Option R
deriving DecidableEq

/-- A request of the client side: the arguments of `oc_do_get`, or of
`oc_init_post` and `oc_do_post`, with the payload. The message id and the token
are drawn; there may be no transaction for it, or its header may be too long. -/
structure OutgoingRequest where
  uri : List UInt8
  endpoint : OcEndpoint
  method : Method
  queryInterface : UInt16
  payload : List UInt8
  userData : Option (Fin simultaneousLinkHandshakes)
  secured : Bool
  mid : UInt16
  token : UInt8
  transactionFree : Bool
  headerFits : Bool
deriving DecidableEq

variable {max : MaxLinks} {H R A : Type}

/-- `oc_parse_rep`, the handlers of requests, which may leave a request without
an answer, and the handlers of responses, with the requests they send. -/
structure Application (max : MaxLinks) (H R A : Type) where
  parseRep : List UInt8 → Except RepError R
  handle : H → OcRequest H R → LinkManager max → A → Option OcResponse × A
  respond : ClientCb → OcClientResponse R → LinkManager max → A →
    List OutgoingRequest × A

/-- What is seen outside of the device. -/
inductive Effect (H R : Type)
  | handled (handler : H) (request : OcRequest H R)
  | responded (cb : ClientCb) (response : OcClientResponse R)
  | sent (message : OcMessage)
deriving DecidableEq

/-- The stale bytes of a tag, the next message id, and whether there is room for
a message and for a transaction. -/
structure Surroundings where
  staleTag : Vector UInt8 8
  mid : UInt16
  messageFree : Bool
  transactionFree : Bool

/-- A device. The message of a cached transaction is known by the number of the
request it belongs to. -/
structure Engine (max : MaxLinks) (H A : Type) where
  resources : ResourceTable H
  links : LinkManager max
  client : ClientCbs
  messages : Nat → Option OcMessage
  app : A

/-! ## Requests to a resource -/

/-- The resources of `oc_core_res.c` that are set up, `/oic/p` and `/oic/d/`.
None of them has a handler. -/
def coreResources : List (Resource H) :=
  [⟨[0x2F, 0x6F, 0x69, 0x63, 0x2F, 0x70], ifR ||| ifBaseline, ifR,
      none, none, none, none⟩,
    ⟨[0x2F, 0x6F, 0x69, 0x63, 0x2F, 0x64, 0x2F], ifR ||| ifBaseline, ifR,
      none, none, none, none⟩]

/-- The resource a request is for: a core resource, or else one of the
application. -/
def ResourceTable.getResourceByUri (t : ResourceTable H)
    (uriPath : List UInt8) : Option (Resource H) :=
  (coreResources.find? fun r =>
    r.uri.length == uriPath.length + 1 && r.uri.drop 1 == uriPath).or
      (t.getAppResourceByUri uriPath)

/-- The interface of a request, the default one if it selects none. -/
def Resource.ifaceMask (r : Resource H) (queryInterface : UInt16) : UInt16 :=
  if queryInterface = 0 then r.defaultInterface else queryInterface

/-- What becomes of a request before its handler is called: the status of a
refusal, or the handler and what it is called with. -/
def findHandler (app : Application max H R A) (t : ResourceTable H)
    (sender : NxId) (pkt : CoapPacket) (method : Method) :
    Except OcStatus (H × OcRequest H R) :=
  let parsed :=
    if pkt.payload.length > 0 then (app.parseRep pkt.payload).map some
    else .ok none
  match parsed with
  | .error .unexpectedEof => .error .requestEntityTooLarge
  | .error .other => .error .badRequest
  | .ok payload =>
      match t.getResourceByUri pkt.uriPath with
      | none => .error .notFound
      | some resource =>
          let ifaceMask := resource.ifaceMask pkt.queryInterface
          if ifaceMask &&& ~~~resource.interfaces ≠ 0
              ∨ doesInterfaceSupportMethod ifaceMask method = false then
            .error .forbidden
          else
            match resource.handler method with
            | none => .error .methodNotAllowed
            | some handler =>
                .ok (handler, ⟨sender, resource, method, ifaceMask, payload⟩)

/-- The code and the payload a response gets, or `none` where the transaction is
cleared: no error goes out to a multicast address. -/
def responseBuffer (sender : NxId) (code : UInt8) (payload : List UInt8) :
    Option (UInt8 × List UInt8) :=
  if sender = multicastNxId ∧ code ≥ OcStatus.badRequest.code then none
  else some (code, payload)

/-- `oc_ri_invoke_coap_entity_handler`. -/
def invokeCoapEntityHandler (app : Application max H R A)
    (e : Engine max H A) (sender : NxId) (pkt : CoapPacket) (method : Method) :
    Option (UInt8 × List UInt8) × List (Effect H R) × A :=
  match findHandler app e.resources sender pkt method with
  | .error status => (responseBuffer sender status.code [], [], e.app)
  | .ok (handler, request) =>
      let (response, state) := app.handle handler request e.links e.app
      let buffer :=
        match response with
        | none => responseBuffer sender 0 []
        | some response =>
            responseBuffer sender response.status.code response.payload
      (buffer, [.handled handler request], state)

/-- The response to a request, on its way to the message: a secured one if there
is a link to the sender and the request was secured or had to be. A response
without a code is an empty message, and one that cannot be packed goes out
without its payload, as if it had not been secured. -/
def responseMessage (t : ResourceTable H) (links : LinkManager max)
    (sender : NxId) (pkt response : CoapPacket) (rcvdPktSecured : Bool) :
    OcMessage :=
  let resourceSecured :=
    t.resourceMethodIsSecured (t.getAppResourceByUri pkt.uriPath) pkt.code
  let unsecured : OcMessage := ⟨nxIdToOcEndpoint sender, response, none⟩
  let message :=
    match links.securityDataFromNxid sender with
    | none => unsecured
    | some data =>
        if resourceSecured || rcvdPktSecured then
          let secured := OcMessage.secured (nxIdToOcEndpoint sender) response
            ⟨data.symKey, data.nonce, ⟨response.code, []⟩, response.payload⟩
          if secured.signed.isNone then
            { unsecured with pkt := { response with payload := [] } }
          else secured
        else unsecured
  if response.code = 0 then
    { unsecured with pkt := .init response.type 0 response.mid [] }
  else message

namespace Engine

/-- `coap_receive`, the part for requests. The transaction of a response that is
not sent, because the request has no token, is not given back. -/
def receiveRequest (app : Application max H R A) (s : Surroundings)
    (e : Engine max H A) (sender : NxId) (pkt : CoapPacket)
    (rcvdPktSecured : Bool) (method : Method) :
    Engine max H A × List (Effect H R) :=
  -- "oic/res"
  let isDiscovery :=
    pkt.uriPath == [0x6F, 0x69, 0x63, 0x2F, 0x72, 0x65, 0x73]
  let type :=
    if pkt.type = .con then CoapType.ack
    else if isDiscovery then .con else .non
  let mid := if pkt.type = .con then pkt.mid else s.mid
  if s.transactionFree && s.messageFree then
    let (buffer, effects, state) :=
      invokeCoapEntityHandler app e sender pkt method
    let e := { e with app := state }
    match buffer with
    | none => (e, effects)
    | some (code, payload) =>
        if pkt.token.length = 0 then
          ({ e with client := { e.client with
              transactions := e.client.transactions
                ++ [⟨mid, e.client.nextRequestId⟩]
              nextRequestId := e.client.nextRequestId + 1 } }, effects)
        else
          let response := { CoapPacket.init type code mid pkt.token with
            contentFormat :=
              if payload.length > 0 then applicationVndOcfCbor else 0
            payload := payload }
          (e, effects ++ [.sent (responseMessage e.resources e.links sender pkt
            response rcvdPktSecured)])
  else (e, [])

end Engine

/-! ## Requests of the client side -/

namespace OutgoingRequest

/-- `prepare_coap_request`. -/
def packet (r : OutgoingRequest) : CoapPacket where
  type := .non
  code := r.method.code
  mid := r.mid
  token := [r.token]
  contentFormat := 0
  uriPath := r.uri.dropWhile fun c => c == slash
  queryInterface := r.queryInterface
  payload := []

/-- The parameters of `_prepare_secured_coap_request`: the next nonce of the
link, and the URI as the client wrote it. -/
def macParams (r : OutgoingRequest) (data : SecurityMode0Data) : MacParams where
  key := data.symKey
  nonceToProtect := data.nonce + 1
  aad := ⟨r.method.code, r.uri.take (r.uri.length % 256)⟩
  payload := r.payload

/-- The message `dispatch_coap_request` sends, if it gets that far. -/
def message (links : LinkManager max) (r : OutgoingRequest) :
    Option OcMessage :=
  if r.transactionFree = false ∨ r.headerFits = false then none
  else if r.secured then
    match links.securityDataFromNxid r.endpoint.nxId with
    | none => none
    | some data =>
        let secured := OcMessage.secured r.endpoint r.packet (r.macParams data)
        if secured.signed.isNone then none else some secured
  else if r.payload.length > 0 then
    some ⟨r.endpoint, { r.packet with
      contentFormat := applicationVndOcfCbor, payload := r.payload }, none⟩
  else some ⟨r.endpoint, r.packet, none⟩

/-- The request as the pool of callbacks sees it. -/
def toClientRequest (links : LinkManager max) (r : OutgoingRequest) :
    ClientRequest where
  uri := r.uri
  endpoint := r.endpoint
  method := r.method.code
  userData := r.userData
  secured := r.secured
  mid := r.mid
  token := r.token
  dispatch :=
    if r.transactionFree = false then .noTransaction
    else if (r.message links).isSome then .sent
    else .notSent

end OutgoingRequest

namespace Engine

/-- `oc_do_get`, or `oc_init_post` and `oc_do_post`. -/
def sendRequest (e : Engine max H A) (r : OutgoingRequest) :
    Engine max H A × List (Effect H R) :=
  let request := r.toClientRequest e.links
  match e.client.allocClientCb request with
  | none => (e, [])
  | some (cb, _) =>
      let message := r.message e.links
      ({ e with
          client := e.client.doRequest request
          messages := Function.update e.messages cb.requestId message },
        (message.map Effect.sent).toList)

/-- One request after the other. -/
def sendRequests (e : Engine max H A) :
    List OutgoingRequest → Engine max H A × List (Effect H R)
  | [] => (e, [])
  | r :: rs =>
      let (e, effects) := e.sendRequest r
      let (e, effects') := e.sendRequests rs
      (e, effects ++ effects')

/-! ## Responses -/

/-- A response as the pool of callbacks sees it; what its handler sends has been
sent before. -/
def clientResponse (pkt : CoapPacket) (rcvdPktSecured : Bool) :
    ClientCbs.ClientResponse where
  mid := pkt.mid
  token := pkt.token
  reset := pkt.type == .rst
  secured := rcvdPktSecured
  separate := pkt.payload.length == 0 && pkt.type == .ack && pkt.code == 0
  sends := []

/-- What the handler of a response is called with, if it is called. -/
def clientCall (app : Application max H R A) (sender : NxId)
    (pkt : CoapPacket) : Option (OcClientResponse R) :=
  if pkt.payload.length > 0 then
    match app.parseRep pkt.payload with
    | .error _ => none
    | .ok rep => some ⟨sender, pkt.code, some rep⟩
  else if pkt.type = .ack ∧ pkt.code = 0 then none
  else some ⟨sender, pkt.code, none⟩

/-- `coap_receive`, the part for responses, with `oc_ri_invoke_client_cb`. -/
def receiveResponse (app : Application max H R A) (e : Engine max H A)
    (sender : NxId) (pkt : CoapPacket) (rcvdPktSecured : Bool) :
    Engine max H A × List (Effect H R) :=
  let response := clientResponse pkt rcvdPktSecured
  match e.client.invokedCb response with
  | none => (e, [])
  | some cb =>
      let (e, effects) :=
        match clientCall app sender pkt with
        | none => (e, [])
        | some call =>
            let (requests, state) := app.respond cb call e.links e.app
            let (e, sent) := { e with app := state }.sendRequests requests
            (e, Effect.responded cb call :: sent)
      ({ e with client := e.client.invokeClientCb cb response }, effects)

/-! ## Answers of the security layer -/

/-- `coap_clear_transaction` of the first transaction with this message id. -/
def clearTransaction (e : Engine max H A) (mid : UInt16) : Engine max H A :=
  { e with client := e.client.clearTransaction mid }

/-- `coap_send_empty_response`. -/
def sendEmptyResponse (s : Surroundings) (sender : NxId) (pkt : CoapPacket)
    (code : UInt8) : List (Effect H R) :=
  let type := if pkt.type = .con then CoapType.ack else .non
  if s.messageFree then
    [.sent ⟨nxIdToOcEndpoint sender, .init type code pkt.mid pkt.token, none⟩]
  else []

/-- `coap_send_nonce_sync_response`, to a device there is a link to. -/
def sendNonceSyncResponse (s : Surroundings) (e : Engine max H A)
    (sender : NxId) (pkt : CoapPacket) (isNonceReset : Bool) :
    List (Effect H R) :=
  match e.links.securityDataFromNxid sender with
  | none => []
  | some data =>
      let syncNonce :=
        if isNonceReset then resetNonceSignalValue else data.nonce
      if s.messageFree then
        [.sent (.secured (nxIdToOcEndpoint sender)
          (.init .non notAcceptable406 pkt.mid pkt.token)
          ⟨data.symKey, syncNonce, ⟨notAcceptable406, []⟩, []⟩)]
      else []

/-- `coap_send_previous_request_with_repacked_security`. -/
def sendPreviousRequest (s : Surroundings) (e : Engine max H A)
    (sender : NxId) (mid : UInt16) : Engine max H A × List (Effect H R) :=
  match e.client.transactions.find? fun t => t.mid = mid with
  | none => (e, [])
  | some t =>
      match e.messages t.requestId with
      | none => (e.clearTransaction mid, [])
      | some message =>
          if message.endpoint.same (nxIdToOcEndpoint sender) = false then
            (e, [])
          else
            match deserializeProtectedMessage message.pkt.payload s.staleTag,
              e.links.securityDataFromNxid message.endpoint.nxId with
            | .ok extracted, some data =>
                let message := OcMessage.secured message.endpoint message.pkt
                  ⟨data.symKey, data.nonce + 1, message.pkt.aad,
                    extracted.payload⟩
                ({ e with messages :=
                    Function.update e.messages t.requestId (some message) },
                  [.sent message])
            | _, _ => (e.clearTransaction mid, [])

end Engine

/-! ## Receiving -/

/-- The status of what became of a message in the security manager. -/
def AuthResult.status : AuthResult → CoapStatus
  | none => .noError
  | senderDeviceNotLinked => .unauthorized401
  | resourceRequiresSecuredRequest => .forbidden403
  | macInvalid => .unauthorized401
  | coseUnparseable => .badRequest400
  | payloadSizeInvalid => .badRequest400
  | requestReceivedWithInvalidNonce => .notAcceptable406
  | validNonceSyncReceived => .resendPreviousRequest
  | nonceApproachingMaxForcedResetRequired =>
      .requireNonceSyncSpecialCaseReset

/-- `_coap_unpack_possibly_secured_payload`: the status, the packet, whether it
was secured, and the links. -/
def unpackPossiblySecuredPayload (t : ResourceTable H) (m : LinkManager max)
    (sender : NxId) (pkt : CoapPacket) (staleTag : Vector UInt8 8) :
    CoapStatus × CoapPacket × Bool × LinkManager max :=
  let (result, pkt, moved, links) := authenticateMessage t m sender pkt staleTag
  let pkt :=
    if moved then { pkt with contentFormat := applicationVndOcfCbor } else pkt
  (result.status, pkt, moved, links)

namespace Engine

/-- `coap_receive`, of a message that is passed on to a handler. -/
def passOnwards (app : Application max H R A) (s : Surroundings)
    (e : Engine max H A) (sender : NxId) (pkt : CoapPacket)
    (rcvdPktSecured : Bool) : Engine max H A × List (Effect H R) :=
  let e := e.clearTransaction pkt.mid
  match methodOfCode pkt.code with
  | some method => e.receiveRequest app s sender pkt rcvdPktSecured method
  | none => e.receiveResponse app sender pkt rcvdPktSecured

/-- `coap_receive`. -/
def coapReceive (app : Application max H R A) (s : Surroundings)
    (e : Engine max H A) (sender : NxId) (pkt : CoapPacket) :
    Engine max H A × List (Effect H R) :=
  let (status, pkt, rcvdPktSecured, links) :=
    unpackPossiblySecuredPayload e.resources e.links sender pkt s.staleTag
  let e := { e with links := links }
  match status with
  | .noError => e.passOnwards app s sender pkt rcvdPktSecured
  | .notAcceptable406 => (e, e.sendNonceSyncResponse s sender pkt false)
  | .requireNonceSyncSpecialCaseReset =>
      (e, e.sendNonceSyncResponse s sender pkt true)
  | .resendPreviousRequest => e.sendPreviousRequest s sender pkt.mid
  | _ => (e, sendEmptyResponse s sender pkt status.code)

end Engine

end Nexus.Channel
