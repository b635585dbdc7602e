import Nexus.Channel.LinkHandshake

/-!
# Client callbacks

The client side of `oc_ri.c` and `oc_client_api.c`. Every request takes a
callback from a small pool and has a timer armed that gives it back. A callback
is known by its address, which is the slot of the pool that it occupies: the
timers, the user of a callback and the list of pending callbacks all hold that
address and nothing else.

The program knows the slots only. To tell one request from the next in the same
slot, callbacks, timers and cached transactions here also have the number of the
request they belong to, which no function of the program looks at.

`multicast`, `discovery` and `observe_seq` keep the values that
`oc_ri_alloc_client_cb` gives them, for every request that the sources make.
-/

namespace Nexus.Channel

open Nexus.Util

/-! ## Endpoints -/

/-- `oc_endpoint_t`, as far as `oc_endpoint_compare` looks at it. -/
structure OcEndpoint where
  device : Nat
  flags : UInt8
  port : UInt16
  address : Vector UInt8 16
deriving DecidableEq

namespace OcEndpoint

/-- `IPV6` of `enum transport_flags`. -/
def ipv6 : UInt8 := 0x08

/-- `MULTICAST` of `enum transport_flags`. -/
def multicast : UInt8 := 0x40

/-- `oc_endpoint_compare` finds no difference. -/
def same (ep1 ep2 : OcEndpoint) : Bool :=
  ep1.flags &&& ~~~multicast == ep2.flags &&& ~~~multicast
    && ep1.device == ep2.device && ep1.flags &&& ipv6 != 0
    && ep1.address == ep2.address && ep1.port == ep2.port

/-- `NEXUS_OC_WRAPPER_MULTICAST_OC_ENDPOINT_T_ADDR`. -/
def allDevices : OcEndpoint where
  device := 0
  flags := ipv6 ||| multicast
  port := 5683
  address := #v[0xff, 0x02, 0, 0, 0, 0, 0, 0, 0, 0, 0, 0, 0, 0, 0x01, 0x58]

end OcEndpoint

/-! ## The pools -/

/-- `OC_MAX_NUM_CONCURRENT_REQUESTS`. -/
abbrev maxNumConcurrentRequests : Nat := 2

/-- A slot of `client_cbs_s`. -/
abbrev CbSlot := Fin (maxNumConcurrentRequests + 1)

/-- The size of `event_callbacks_s`: one, the five core resources of the one
device, four application resources, and two for each concurrent request. -/
def maxEventCallbacks : Nat := 1 + 5 * 1 + 4 + maxNumConcurrentRequests * 2

/-- `OC_NON_LIFETIME`, in ticks, of which there is one in a second. -/
def nonLifetime : Nat := 14

/-- `oc_client_cb_t`. The user data of a handshake POST is the handshake; an
application has its own. -/
structure ClientCb where
  slot : CbSlot
  uri : List UInt8
  endpoint : OcEndpoint
  method : UInt8
  userData : Option (Fin simultaneousLinkHandshakes)
  timestamp : Nat
  mid : UInt16
  token : UInt8
  nxRequestSecured : Bool
  requestId : Nat
deriving DecidableEq

/-- `oc_event_callback_t` with the callback `oc_ri_remove_client_cb`, which is
the only one in use. `expired` is that the process of the timer is
`OC_PROCESS_NONE`. -/
structure EventCallback where
  data : CbSlot
  start : Nat
  expired : Bool
  requestId : Nat
deriving DecidableEq

/-- `coap_transaction_t` of a secured request, kept to be sent again. -/
structure CachedTransaction where
  mid : UInt16
  requestId : Nat
deriving DecidableEq

/-- `client_cbs`, `timed_callbacks` and `transactions_list`, and the clock. -/
structure ClientCbs where
  clientCbs : List ClientCb
  timedCallbacks : List EventCallback
  transactions : List CachedTransaction
  clockTime : Nat
  nextRequestId : Nat
deriving DecidableEq

/-! ## Requests -/

/-- How far `prepare_coap_request` and `dispatch_coap_request` get. -/
inductive Dispatch
  | noTransaction
  | notSent
  | sent
deriving DecidableEq

/-- A request: its arguments, the message id and the random token it is given,
and how far it gets. -/
structure ClientRequest where
  uri : List UInt8
  endpoint : OcEndpoint
  method : UInt8
  userData : Option (Fin simultaneousLinkHandshakes)
  secured : Bool
  mid : UInt16
  token : UInt8
  dispatch : Dispatch
deriving DecidableEq

/-- `OC_POST`. -/
def ocPost : UInt8 := 2

/-- The URI of the handshake resource, "/h". -/
def linkHsUri : List UInt8 := [0x2F, 0x68]

/-- The callback of a handshake POST. -/
def ClientCb.isHandshakePost (cb : ClientCb) : Bool :=
  cb.uri == linkHsUri && cb.endpoint.same .allDevices && cb.method == ocPost

namespace ClientCbs

/-- Nothing has been sent. -/
def init : ClientCbs := ⟨[], [], [], 0, 0⟩

/-- `free_client_cb`. -/
def freeClientCb (s : ClientCbs) (slot : CbSlot) : ClientCbs :=
  { s with clientCbs := s.clientCbs.filter fun cb => cb.slot ≠ slot }

/-- `oc_ri_remove_timed_event_callback`: the first that matches. -/
def removeTimedEventCallback (s : ClientCbs) (slot : CbSlot) : ClientCbs :=
  { s with
    timedCallbacks := s.timedCallbacks.eraseP fun e => e.data = slot }

/-- `oc_set_delayed_callback` of `oc_ri_remove_client_cb`. -/
def setDelayedCallback (s : ClientCbs) (cb : ClientCb) : ClientCbs :=
  if s.timedCallbacks.length < maxEventCallbacks then
    { s with timedCallbacks := s.timedCallbacks
        ++ [⟨cb.slot, s.clockTime, false, cb.requestId⟩] }
  else s

/-- `oc_memb_alloc`: the first slot that is free. -/
def freeSlot (s : ClientCbs) : Option CbSlot :=
  (List.finRange _).find? fun slot => s.clientCbs.all fun cb => cb.slot ≠ slot

/-- `oc_ri_alloc_client_cb`. What `dispatch_coap_request` writes is in the
callback from the start. -/
def allocClientCb (s : ClientCbs) (r : ClientRequest) :
    Option (ClientCb × ClientCbs) :=
  s.freeSlot.map fun slot =>
    let cb : ClientCb :=
      { slot
        uri := r.uri
        endpoint := r.endpoint
        method := r.method
        userData := r.userData
        timestamp := s.clockTime
        mid := r.mid
        token := r.token
        nxRequestSecured := r.secured
        requestId := s.nextRequestId }
    (cb, { s with
      clientCbs := s.clientCbs ++ [cb]
      nextRequestId := s.nextRequestId + 1 })

/-- `oc_do_get`, or `oc_init_post` and `oc_do_post`. A secured request that has
been sent stays in the list of transactions. -/
def doRequest (s : ClientCbs) (r : ClientRequest) : ClientCbs :=
  match s.allocClientCb r with
  | none => s
  | some (cb, s) =>
      match r.dispatch with
      | .noTransaction | .notSent => s.freeClientCb cb.slot
      | .sent =>
          let s := s.setDelayedCallback cb
          if r.secured then
            { s with transactions := s.transactions ++ [⟨cb.mid, cb.requestId⟩] }
          else s

/-- `oc_ri_get_client_cb`, for a handshake POST. -/
def getHandshakeCb (s : ClientCbs) : Option ClientCb :=
  s.clientCbs.find? ClientCb.isHandshakePost

/-- The POST of a handshake. -/
structure HandshakePost where
  i : Fin simultaneousLinkHandshakes
  mid : UInt16
  token : UInt8
  dispatch : Dispatch
deriving DecidableEq

/-- The arguments that `oc_init_post` and `oc_do_post` get. -/
def HandshakePost.request (p : HandshakePost) : ClientRequest where
  uri := linkHsUri
  endpoint := .allDevices
  method := ocPost
  userData := some p.i
  secured := false
  mid := p.mid
  token := p.token
  dispatch := p.dispatch

/-- `_nexus_channel_res_link_hs_link_mode_3_send_post`. The callback that is
replaced is freed, and its timer stays armed. -/
def linkMode3SendPost (s : ClientCbs) (p : HandshakePost) : ClientCbs :=
  let s :=
    match s.getHandshakeCb with
    | some cb => s.freeClientCb cb.slot
    | none => s
  s.doRequest p.request

/-- What a device, or the handler of a response, may send. -/
inductive Send
  | request (r : ClientRequest)
  | handshakePost (p : HandshakePost)
deriving DecidableEq

def send (s : ClientCbs) : Send → ClientCbs
  | .request r => s.doRequest r
  | .handshakePost p => s.linkMode3SendPost p

/-! ## What ends a request -/

/-- A response that `coap_receive` passes on, and what the handler sends when it
is called with it. `separate` is an empty acknowledgement. -/
structure ClientResponse where
  mid : UInt16
  token : List UInt8
  reset : Bool
  secured : Bool
  separate : Bool
  sends : List Send
deriving DecidableEq

/-- `oc_ri_find_client_cb_by_token`. -/
def findClientCbByToken (s : ClientCbs) (token : List UInt8) :
    Option ClientCb :=
  s.clientCbs.find? fun cb => [cb.token] = token

/-- `oc_ri_is_client_cb_valid`. -/
def isClientCbValid (s : ClientCbs) (slot : CbSlot) : Bool :=
  s.clientCbs.any fun cb => cb.slot = slot

/-- `coap_clear_transaction` of the first transaction with this message id. -/
def clearTransaction (s : ClientCbs) (mid : UInt16) : ClientCbs :=
  { s with transactions := s.transactions.eraseP fun t => t.mid = mid }

/-- `oc_ri_invoke_client_cb`. -/
def invokeClientCb (s : ClientCbs) (cb : ClientCb) (r : ClientResponse) :
    ClientCbs :=
  let s := r.sends.foldl send s
  if s.isClientCbValid cb.slot = false then s
  else if r.separate then s
  else (s.removeTimedEventCallback cb.slot).freeClientCb cb.slot

/-- The callback that `coap_receive` invokes with a response. -/
def invokedCb (s : ClientCbs) (r : ClientResponse) : Option ClientCb :=
  if r.reset then none
  else
    (s.findClientCbByToken r.token).filter fun cb =>
      !(cb.nxRequestSecured && !r.secured)

/-- `coap_receive`, of a response. -/
def receiveResponse (s : ClientCbs) (r : ClientResponse) : ClientCbs :=
  let s := s.clearTransaction r.mid
  match s.invokedCb r with
  | none => s
  | some cb => s.invokeClientCb cb r

/-- `notify_client_cb_503`, with what the handler sends. -/
def notifyClientCb503 (sends : ClientCb → List Send) (s : ClientCbs)
    (cb : ClientCb) : ClientCbs :=
  ((sends cb).foldl send (s.removeTimedEventCallback cb.slot)).freeClientCb
    cb.slot

/-- `oc_ri_free_client_cbs_by_mid`. The callbacks are those that have the
message id to begin with; a handler does not get round to sending so many
requests that the id comes up again. -/
def freeClientCbsByMid (sends : ClientCb → List Send) (s : ClientCbs)
    (mid : UInt16) : ClientCbs :=
  (s.clientCbs.filter fun cb => cb.mid = mid).foldl (notifyClientCb503 sends) s

/-- `coap_check_transactions`, for one transaction whose idle timer has
expired. -/
def idleTimeout (sends : ClientCb → List Send) (s : ClientCbs) (k : Nat) :
    ClientCbs :=
  match s.transactions[k]? with
  | none => s
  | some t =>
      let s := s.freeClientCbsByMid sends t.mid
      { s with transactions := s.transactions.eraseIdx k }

/-- The process of the timers finds those that have expired. -/
def etimerProcess (s : ClientCbs) : ClientCbs :=
  { s with timedCallbacks := s.timedCallbacks.map fun e =>
      { e with expired := e.expired
          || decide (nonLifetime ≤ s.clockTime - e.start) } }

/-- `poll_event_callback_timers`: every expired timer frees its slot. -/
def checkEventCallbacks (s : ClientCbs) : ClientCbs :=
  let s' := (s.timedCallbacks.filter EventCallback.expired).foldl
    (fun s e => s.freeClientCb e.data) s
  { s' with
    timedCallbacks := s.timedCallbacks.filter fun e => e.expired = false }

/-- Everything that can happen to the callbacks. A message that is not a
response may clear a transaction as well. -/
inductive Op
  | send (x : Send)
  | response (r : ClientResponse)
  | clearTransaction (mid : UInt16)
  | idleTimeout (k : Nat) (sends : ClientCb → List Send)
  | elapse (ticks : Nat)
  | etimerProcess
  | checkEventCallbacks

def step (s : ClientCbs) : Op → ClientCbs
  | .send x => s.send x
  | .response r => s.receiveResponse r
  | .clearTransaction mid => s.clearTransaction mid
  | .idleTimeout k sends => s.idleTimeout sends k
  | .elapse ticks => { s with clockTime := s.clockTime + ticks }
  | .etimerProcess => s.etimerProcess
  | .checkEventCallbacks => s.checkEventCallbacks

end ClientCbs

end Nexus.Channel
