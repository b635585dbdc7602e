import Nexus.Lib.Ring

/-!
# Messages, transactions and events

`oc_memb.c`, `oc_buffer.c`, `transactions.c`, the event queue of `oc_process.c`,
and what `nexus_oc_wrapper.c`, `oc_client_api.c` and `engine.c` do with messages.
Messages lie in blocks of two pools and count the references to them. An event
that is queued holds one, so does a transaction, and so does the engine while it
handles a message.

What a message says, endpoint and bytes, is its content, whatever that is. Which
steps are taken, and with which contents, is up to network and application.

A reference count is a byte. Confirmable messages are compiled out, so the
timer for retransmissions is never set. Every process runs.
-/

namespace Nexus.Channel.MessageBuffers

open Nexus.Lib

variable {n : Nat} {α : Type}

/-- `oc_incoming_buffers` and `oc_outgoing_buffers`. -/
inductive Pool
  | incoming
  | outgoing
deriving DecidableEq

/-- A block of a pool. -/
structure Block (n : Nat) where
  pool : Pool
  slot : Fin n
deriving DecidableEq

/-- `oc_message_t`. -/
structure Message (α : Type) where
  refCount : UInt8
  content : α

/-- `coap_transaction_t`. -/
structure Transaction (n : Nat) where
  mid : UInt16
  message : Block n
  /-- the idle timer has an owner, so it has not expired -/
  idleRuns : Bool

/-- The events that are posted. -/
inductive Event (n : Nat)
  /-- `INBOUND_NETWORK_EVENT`, for `message_buffer_handler` -/
  | inboundNetwork (b : Block n)
  /-- `OUTBOUND_NETWORK_EVENT`, for `message_buffer_handler` -/
  | outboundNetwork (b : Block n)
  /-- `INBOUND_RI_EVENT`, for `coap_engine` -/
  | inboundRi (b : Block n)
  /-- `OC_PROCESS_EVENT_TIMER`, for `coap_engine` -/
  | timer
  /-- an event of a process that has nothing to do with messages -/
  | other
deriving DecidableEq

/-- `OC_PROCESS_NUMEVENTS`. -/
def numEvents : Nat := 10

instance : NeZero numEvents := ⟨by decide⟩

/-- What has happened to messages so far. -/
structure Log (α : Type) where
  /-- received from the network and queued -/
  accepted : List α
  /-- given to `coap_receive` -/
  handled : List α
  /-- queued to be sent -/
  posted : List α
  /-- given to `oc_send_buffer` -/
  sent : List α

/-- The pools, the transactions and the queue. -/
structure State (n : Nat) (α : Type) where
  /-- `count` of the pools of messages -/
  count : Block n → Nat
  message : Block n → Message α
  /-- `count` of `transactions_memb` -/
  transactionCount : Fin n → Nat
  transaction : Fin n → Transaction n
  /-- `transactions_list` -/
  transactions : List (Fin n)
  events : Ring numEvents (Event n)
  /-- the message `coap_receive` is at -/
  handling : Option (Block n)
  log : Log α

/-! ## Blocks -/

/-- `_oc_memb_alloc`: the first block that is free. -/
def membAlloc (count : Fin n → Nat) : Option (Fin n) :=
  (List.finRange n).find? fun i => count i = 0

/-- `_oc_memb_free`. -/
def membFree {ι : Type} [DecidableEq ι] (count : ι → Nat) (i : ι) : ι → Nat :=
  Function.update count i (count i - 1)

namespace State

/-- The content of a message is written. -/
def write (s : State n α) (b : Block n) (content : α) : State n α :=
  { s with
    message := Function.update s.message b { s.message b with content } }

/-- The reference count of a message is written. -/
def setRefCount (s : State n α) (b : Block n) (refCount : UInt8) : State n α :=
  { s with
    message := Function.update s.message b { s.message b with refCount } }

/-- `allocate_message`. A block that is allocated is zeroed first. -/
def allocateMessage [Inhabited α] (s : State n α) (pool : Pool) :
    Option (Block n × State n α) :=
  (membAlloc fun i => s.count ⟨pool, i⟩).map fun i =>
    let b : Block n := ⟨pool, i⟩
    (b,
      { s with
        count := Function.update s.count b (s.count b + 1)
        message := Function.update s.message b ⟨1, default⟩ })

/-- `oc_message_add_ref`. -/
def messageAddRef (s : State n α) (b : Block n) : State n α :=
  s.setRefCount b ((s.message b).refCount + 1)

/-- `oc_message_unref`. -/
def messageUnref (s : State n α) (b : Block n) : State n α :=
  let s := s.setRefCount b ((s.message b).refCount - 1)
  if (s.message b).refCount ≤ 0 then { s with count := membFree s.count b }
  else s

/-! ## Events -/

/-- `oc_process_post`; nothing where the queue is full. -/
def post (s : State n α) (e : Event n) : Option (State n α) :=
  (s.events.post e).map fun events => { s with events }

/-- `oc_recv_message`. -/
def recvMessage (s : State n α) (b : Block n) : State n α :=
  match s.post (.inboundNetwork b) with
  | some s =>
      { s with
        log.accepted := s.log.accepted ++ [(s.message b).content] }
  | none => s.messageUnref b

/-- `oc_send_message`. Where the queue is full a reference is dropped, but the
block is not given back. -/
def sendMessage (s : State n α) (b : Block n) : State n α :=
  match s.post (.outboundNetwork b) with
  | some s =>
      { s with
        log.posted := s.log.posted ++ [(s.message b).content] }
  | none => s.setRefCount b ((s.message b).refCount - 1)

/-- `nx_channel_network_receive`, of a message that is not empty or too long. -/
def networkReceive [Inhabited α] (s : State n α) (content : α) : State n α :=
  match s.allocateMessage .incoming with
  | some (b, s) => (s.write b content).recvMessage b
  | none => s

/-! ## Transactions -/

/-- The idle timer of a transaction is set or stopped. -/
def setIdle (s : State n α) (t : Fin n) (idleRuns : Bool) : State n α :=
  { s with
    transaction :=
      Function.update s.transaction t { s.transaction t with idleRuns } }

/-- `coap_new_transaction`. -/
def newTransaction [Inhabited α] (s : State n α) (mid : UInt16) : State n α :=
  match membAlloc s.transactionCount with
  | none => s
  | some t =>
      match s.allocateMessage .outgoing with
      | none => s
      | some (b, s) =>
          { s with
            transactionCount := Function.update s.transactionCount t
              (s.transactionCount t + 1)
            transaction := Function.update s.transaction t ⟨mid, b, false⟩
            transactions := s.transactions.erase t ++ [t] }

/-- `coap_clear_transaction`. -/
def clearTransaction (s : State n α) (t : Fin n) : State n α :=
  let s := (s.setIdle t false).messageUnref (s.transaction t).message
  { s with
    transactions := s.transactions.erase t
    transactionCount := membFree s.transactionCount t }

/-- `coap_send_transaction`. -/
def sendTransaction (s : State n α) (t : Fin n) (shouldCache : Bool) :
    State n α :=
  let b := (s.transaction t).message
  let s := (s.messageAddRef b).sendMessage b
  if shouldCache then s.setIdle t true else s.clearTransaction t

/-- One round of the loop of `coap_check_transactions`: a transaction whose idle
timer has expired is cleared, and any other is sent again, because its other
timer was never set. -/
def checkTransaction (s : State n α) (t : Fin n) : State n α :=
  if (s.transaction t).idleRuns then s.sendTransaction t false
  else s.clearTransaction t

/-- `coap_check_transactions`. -/
def checkTransactions (s : State n α) : State n α :=
  s.transactions.foldl checkTransaction s

/-! ## The engine -/

/-- `coap_send_empty_response` and `coap_send_nonce_sync_response`; no content
is a message that could not be serialised. -/
def sendResponse [Inhabited α] (s : State n α) (content : Option α) :
    State n α :=
  match s.allocateMessage .outgoing with
  | none => s
  | some (b, s) =>
      let s :=
        match content with
        | some content => (s.write b content).sendMessage b
        | none => s
      if (s.message b).refCount = 0 then s.messageUnref b else s

end State

/-- What may come of a message that is to be sent again. -/
inductive Repacked (α : Type)
  /-- it went to another endpoint -/
  | otherEndpoint
  /-- it cannot be parsed or repacked; parsing it leaves this content -/
  | refused (content : α)
  /-- it was repacked; no content is a message that could not be serialised -/
  | repacked (content : Option α)

namespace State

/-- `coap_send_previous_request_with_repacked_security`. -/
def sendPreviousRequest (s : State n α) (mid : UInt16) (r : Repacked α) :
    State n α :=
  match s.transactions.find? fun t => (s.transaction t).mid = mid with
  | none => s
  | some t =>
      let b := (s.transaction t).message
      match r with
      | .otherEndpoint => s
      | .refused content => (s.write b content).clearTransaction t
      | .repacked content =>
          let s :=
            match content with
            | some content => (s.write b content).sendMessage b
            | none => s
          if (s.message b).refCount = 0 then s.messageUnref b else s

/-- An event is given to its process. -/
def deliver (s : State n α) : Event n → State n α
  | .inboundNetwork b => (s.post (.inboundRi b)).getD s
  | .outboundNetwork b =>
      ({ s with log.sent := s.log.sent ++ [(s.message b).content] }).messageUnref
        b
  | .inboundRi b =>
      { s with
        handling := some b
        log.handled := s.log.handled ++ [(s.message b).content] }
  | .timer => s.checkTransactions
  | .other => s

/-- `do_event`, up to where `coap_receive` begins. There is no event while it is
at work. -/
def doEvent (s : State n α) : State n α :=
  match s.handling, s.events.take with
  | none, some (e, events) => { s with events }.deliver e
  | _, _ => s

/-- `coap_engine`, behind `coap_receive`. -/
def finishReceive (s : State n α) : State n α :=
  match s.handling with
  | none => s
  | some b => { s with handling := none }.messageUnref b

/-- `oc_etimer_process`, of the idle timer of a transaction: it posts an event,
unless the queue is full. -/
def idleTimeout (s : State n α) (t : Fin n) : State n α :=
  if (s.transaction t).idleRuns then
    match s.post .timer with
    | some s => s.setIdle t false
    | none => s
  else s

end State

/-- What happens next. -/
inductive Act (n : Nat) (α : Type)
  | networkReceive (content : α)
  | newTransaction (mid : UInt16)
  /-- the message of a transaction is written -/
  | compose (t : Fin n) (content : α)
  | sendTransaction (t : Fin n) (shouldCache : Bool)
  | clearTransaction (t : Fin n)
  | sendResponse (content : Option α)
  | sendPreviousRequest (mid : UInt16) (r : Repacked α)
  | idleTimeout (t : Fin n)
  | postOther
  | doEvent
  | finishReceive

/-- One step. -/
def step [Inhabited α] (s : State n α) : Act n α → State n α
  | .networkReceive content => s.networkReceive content
  | .newTransaction mid => s.newTransaction mid
  | .compose t content => s.write (s.transaction t).message content
  | .sendTransaction t shouldCache => s.sendTransaction t shouldCache
  | .clearTransaction t => s.clearTransaction t
  | .sendResponse content => s.sendResponse content
  | .sendPreviousRequest mid r => s.sendPreviousRequest mid r
  | .idleTimeout t => s.idleTimeout t
  | .postOther => (s.post .other).getD s
  | .doEvent => s.doEvent
  | .finishReceive => s.finishReceive

/-- Everything is free, and nothing is queued. -/
def State.init [NeZero n] [Inhabited α] : State n α where
  count := fun _ => 0
  message := fun _ => ⟨0, default⟩
  transactionCount := fun _ => 0
  transaction := fun _ => ⟨0, ⟨.outgoing, 0⟩, false⟩
  transactions := []
  events := .empty .other
  handling := none
  log := ⟨[], [], [], []⟩

end Nexus.Channel.MessageBuffers
