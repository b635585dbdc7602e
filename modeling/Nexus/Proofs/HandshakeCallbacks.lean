import Nexus.Proofs.ClientCallbacks
import Nexus.Proofs.ClientHandshake

/-!
# Several handshakes at once

All handshakes of a controller post to the same URI of everybody, and a POST
frees the callback it finds for that URI, whichever handshake it belongs to. So
the response to a POST is heard as long as no other handshake has posted since.
It also has to come before anything else frees the slot: another response with
the same token, or the timer of an earlier request that had the same slot.
-/

namespace Nexus.Channel

open Nexus.Util Nexus.Lib ClientCbs

/-! ## The handshakes and their callbacks -/

/-- The handshakes of a controller, the client callbacks, and the links. -/
structure Handshakes (L : Type) where
  clients : LinkHsClients
  callbacks : ClientCbs
  links : L

/-- The message id and the token that a POST is given, and how far it gets. -/
structure PostNumbers where
  mid : UInt16
  token : UInt8
  dispatch : Dispatch

/-- What can happen: an origin command, one round of the loop of
`nexus_channel_res_link_hs_process`, a request of the application, a response
with its code and the properties of its payload, if they could be parsed, and
whatever else happens to the callbacks. -/
inductive HandshakesOp
  | linkMode3 (challenge : OriginChallenge)
  | process (i : Fin simultaneousLinkHandshakes) (secondsElapsed : UInt32)
      (numbers : PostNumbers)
  | request (r : ClientRequest)
  | response (r : ClientResponse) (code : UInt8) (payload : Option (List Rep))
  | clearTransaction (mid : UInt16)
  | idleTimeout (k : Nat) (sends : ClientCb → List ClientRequest)
  | elapse (ticks : Nat)
  | etimerProcess
  | checkEventCallbacks

namespace Handshakes

variable {L : Type} (createLink : L → UInt8 → SecurityMode0Data → Bool × L)

/-- The POST of a handshake. -/
def handshakePost (i : Fin simultaneousLinkHandshakes)
    (numbers : PostNumbers) : HandshakePost :=
  ⟨i, numbers.mid, numbers.token, numbers.dispatch⟩

/-- One round of the loop of `nexus_channel_res_link_hs_process`. -/
def process (s : Handshakes L) (i : Fin simultaneousLinkHandshakes)
    (secondsElapsed : UInt32) (numbers : PostNumbers) : Handshakes L :=
  let r := (s.clients i).process secondsElapsed
  { s with
    clients := Function.update s.clients i r.2
    callbacks :=
      if r.1 then s.callbacks.linkMode3SendPost (handshakePost i numbers)
      else s.callbacks }

/-- A response. The handler of a handshake POST is
`nexus_channel_res_link_hs_client_post`, which sends nothing. -/
def response (s : Handshakes L) (r : ClientResponse) (code : UInt8)
    (payload : Option (List Rep)) : Handshakes L :=
  match (s.callbacks.clearTransaction r.mid).invokedCb r with
  | none => { s with callbacks := s.callbacks.receiveResponse r }
  | some cb =>
      match cb.userData with
      | none => { s with callbacks := s.callbacks.receiveResponse r }
      | some i =>
          let callbacks := s.callbacks.receiveResponse { r with sends := [] }
          match r.separate, payload with
          | false, some payload =>
              let p := (s.clients i).clientPost createLink code payload s.links
              { clients := Function.update s.clients i p.2.2
                callbacks := callbacks
                links := p.2.1 }
          | _, _ => { s with callbacks := callbacks }

def step (s : Handshakes L) : HandshakesOp → Handshakes L
  | .linkMode3 challenge =>
      { s with
        clients := (s.clients.linkMode3 challenge.sixIntDigits
          challenge.rand challenge.rand').getD s.clients }
  | .process i secondsElapsed numbers => s.process i secondsElapsed numbers
  | .request r =>
      { s with callbacks := s.callbacks.doRequest { r with userData := none } }
  | .response r code payload => s.response createLink r code payload
  | .clearTransaction mid =>
      { s with callbacks := s.callbacks.clearTransaction mid }
  | .idleTimeout k sends =>
      { s with
        callbacks := s.callbacks.idleTimeout
          (fun cb => (sends cb).map Send.request) k }
  | .elapse ticks =>
      { s with callbacks := s.callbacks.step (.elapse ticks) }
  | .etimerProcess => { s with callbacks := s.callbacks.etimerProcess }
  | .checkEventCallbacks =>
      { s with callbacks := s.callbacks.checkEventCallbacks }

end Handshakes

/-! ## A callback that nothing has freed -/

namespace ClientCbs

variable {s s' : ClientCbs} {cb : ClientCb}

/-- The callback is pending, alone in its slot, and the timers for the slot are
its own. -/
structure Held (cb : ClientCb) (s : ClientCbs) : Prop where
  pending : cb ∈ s.clientCbs
  alone : ∀ c ∈ s.clientCbs, c.slot = cb.slot → c = cb
  own : ∀ e ∈ s.timedCallbacks, e.data = cb.slot → e.start = cb.timestamp ∧
    (e.expired = true → nonLifetime ≤ s.clockTime - e.start)

theorem Held.doRequest (h : Held cb s) (r : ClientRequest) :
    Held cb (s.doRequest r) := by
  rcases s.doRequest_cases r with
    ⟨n, heq⟩ | ⟨slot, hfree, hcbs, hclock, htimed, -⟩
  · rw [heq]
    exact ⟨h.pending, h.alone, h.own⟩
  have hne := slot_ne_of_freeSlot hfree
  refine ⟨?_, ?_, ?_⟩
  · rw [hcbs]
    exact List.mem_append_left _ h.pending
  · intro c hc hslot
    rw [hcbs] at hc
    rcases List.mem_append.mp hc with hc | hc
    · exact h.alone c hc hslot
    · rw [List.mem_singleton.mp hc] at hslot
      exact absurd hslot.symm (hne cb h.pending)
  · intro e he hdata
    rw [hclock]
    rcases htimed with heq | heq
    · rw [heq] at he
      exact h.own e he hdata
    · rw [heq] at he
      rcases List.mem_append.mp he with he | he
      · exact h.own e he hdata
      · rw [List.mem_singleton.mp he] at hdata
        exact absurd hdata.symm (hne cb h.pending)

theorem Held.sends (h : Held cb s) {xs : List Send}
    (hxs : ∀ x ∈ xs, ∃ r, x = .request r) : Held cb (xs.foldl send s) := by
  have hguard : Along send (fun _ x => ∃ r, x = .request r) s xs :=
    along_of_forall hxs
  refine run_invariant ?_ h hguard
  rintro s _ hs ⟨r, rfl⟩
  exact hs.doRequest r

theorem Held.removeTimedEventCallback (h : Held cb s) (slot : CbSlot) :
    Held cb (s.removeTimedEventCallback slot) :=
  ⟨h.pending, h.alone, fun e he => h.own e (List.mem_of_mem_eraseP he)⟩

theorem Held.freeClientCb (h : Held cb s) {slot : CbSlot}
    (hne : cb.slot ≠ slot) : Held cb (s.freeClientCb slot) :=
  ⟨mem_freeClientCb.mpr ⟨h.pending, hne⟩,
    fun c hc => h.alone c (mem_freeClientCb.mp hc).1, h.own⟩

theorem Held.of_transactions (h : Held cb s) (ts : List CachedTransaction) :
    Held cb { s with transactions := ts } := ⟨h.pending, h.alone, h.own⟩

/-- A response with another token is for another callback. -/
theorem Held.receiveResponse (h : Held cb s) {r : ClientResponse}
    (htoken : r.token ≠ [cb.token])
    (hsends : ∀ x ∈ r.sends, ∃ r, x = .request r) :
    Held cb (s.receiveResponse r) := by
  have hcleared : Held cb (s.clearTransaction r.mid) := h.of_transactions _
  unfold ClientCbs.receiveResponse
  simp only
  cases hinvoked : (s.clearTransaction r.mid).invokedCb r with
  | none => exact hcleared
  | some c =>
      obtain ⟨hc, htoken'⟩ := mem_of_invokedCb hinvoked
      have hne : cb.slot ≠ c.slot := by
        intro hslot
        rw [← h.alone c hc hslot.symm] at htoken
        exact htoken htoken'.symm
      have hsent := hcleared.sends hsends
      simp only [invokeClientCb]
      split
      · exact hsent
      split
      · exact hsent
      · exact (hsent.removeTimedEventCallback c.slot).freeClientCb hne

/-- The timeout of a transaction with another message id. -/
theorem Held.idleTimeout (h : Held cb s) {k : ℕ}
    {sends : ClientCb → List Send}
    (hmid : ∀ t, s.transactions[k]? = some t → t.mid ≠ cb.mid)
    (hsends : ∀ c, ∀ x ∈ sends c, ∃ r, x = .request r) :
    Held cb (s.idleTimeout sends k) := by
  unfold ClientCbs.idleTimeout
  cases ht : s.transactions[k]? with
  | none => exact h
  | some t =>
      have hother : ∀ c ∈ s.clientCbs.filter (fun c => c.mid = t.mid),
          cb.slot ≠ c.slot := by
        intro c hc hslot
        obtain ⟨hc, hmid'⟩ := List.mem_filter.mp hc
        rw [h.alone c hc hslot.symm] at hmid'
        exact hmid t ht (of_decide_eq_true hmid').symm
      have hnotified : Held cb (s.freeClientCbsByMid sends t.mid) := by
        have hguard : Along (notifyClientCb503 sends)
            (fun _ c => cb.slot ≠ c.slot) s _ := along_of_forall hother
        refine run_invariant ?_ h hguard
        intro s c hs hne
        exact ((hs.removeTimedEventCallback c.slot).sends
          (hsends c)).freeClientCb hne
      exact hnotified.of_transactions _

/-- The timers free nothing before the lifetime is over. -/
theorem Held.checkEventCallbacks (h : Held cb s)
    (hyoung : s.clockTime - cb.timestamp < nonLifetime) :
    Held cb s.checkEventCallbacks := by
  have hmem : ∀ {c : ClientCb}, c ∈ s.checkEventCallbacks.clientCbs ↔
      c ∈ s.clientCbs ∧
        ∀ e ∈ s.timedCallbacks.filter EventCallback.expired,
          c.slot ≠ e.data := mem_freeAll
  refine ⟨hmem.mpr ⟨h.pending, fun e he hdata => ?_⟩,
    fun c hc => h.alone c (hmem.mp hc).1, fun e he => ?_⟩
  · obtain ⟨he, hexpired⟩ := List.mem_filter.mp he
    obtain ⟨hstart, hpast⟩ := h.own e he hdata.symm
    have hpast := hpast hexpired
    rw [hstart] at hpast
    omega
  · rw [s.clockTime_checkEventCallbacks]
    exact h.own e (List.mem_filter.mp he).1

theorem Held.etimerProcess (h : Held cb s) : Held cb s.etimerProcess := by
  refine ⟨h.pending, h.alone, fun e he hdata => ?_⟩
  obtain ⟨e', he', rfl⟩ := List.mem_map.mp he
  obtain ⟨hstart, hpast⟩ := h.own e' he' hdata
  refine ⟨hstart, fun hexpired => ?_⟩
  rcases (Bool.or_eq_true _ _).mp hexpired with hexpired | hpast'
  · exact hpast hexpired
  · exact of_decide_eq_true hpast'

theorem Held.elapse (h : Held cb s) (ticks : ℕ) :
    Held cb (s.step (.elapse ticks)) := by
  refine ⟨h.pending, h.alone, fun e he hdata => ?_⟩
  obtain ⟨hstart, hpast⟩ := h.own e he hdata
  refine ⟨hstart, fun hexpired => ?_⟩
  have hpast := hpast hexpired
  show nonLifetime ≤ s.clockTime + ticks - e.start
  omega

end ClientCbs

/-! ## The response to a POST -/

namespace Handshakes

variable {L : Type} {createLink : L → UInt8 → SecurityMode0Data → Bool × L}
  {s : Handshakes L} {cb : ClientCb}

/-- The callbacks as a POST finds them, after the one it replaces has been
freed. -/
def beforePost (s : ClientCbs) : ClientCbs :=
  match s.getHandshakeCb with
  | some cb => s.freeClientCb cb.slot
  | none => s

/-- The callback of a POST that is sent. -/
def postedCb (s : ClientCbs) (i : Fin simultaneousLinkHandshakes)
    (numbers : PostNumbers) : Option ClientCb :=
  if numbers.dispatch = .sent then
    (beforePost s).freeSlot.map
      ((beforePost s).newCb (handshakePost i numbers).request)
  else none

/-- An operation that leaves the callback of a POST alone: no POST is sent for
any handshake, no response carries its token, and no transaction with its
message id times out. The timers may do as they like. -/
def Spares (cb : ClientCb) (s : Handshakes L) : HandshakesOp → Prop
  | .process i secondsElapsed _ =>
      ((s.clients i).process secondsElapsed).1 = false
  | .response r _ _ =>
      r.token ≠ [cb.token] ∧ ∀ x ∈ r.sends, ∃ r, x = .request r
  | .idleTimeout k _ =>
      ∀ t, s.callbacks.transactions[k]? = some t → t.mid ≠ cb.mid
  | _ => True

/-- A POST that is sent has its callback, if no timer is armed for the slot. -/
theorem held_post {i : Fin simultaneousLinkHandshakes}
    {numbers : PostNumbers} {s : ClientCbs}
    (hposted : postedCb s i numbers = some cb)
    (hunarmed : s.Disarmed cb.slot) :
    Held cb (s.linkMode3SendPost (handshakePost i numbers)) := by
  unfold postedCb at hposted
  split at hposted
  case isFalse => cases hposted
  next hsent =>
  obtain ⟨slot, hfree, rfl⟩ := Option.map_eq_some_iff.mp hposted
  have htimed : (beforePost s).timedCallbacks = s.timedCallbacks := by
    unfold beforePost
    split
    · rfl
    · rfl
  have hpost : s.linkMode3SendPost (handshakePost i numbers)
      = (beforePost s).doRequest (handshakePost i numbers).request := rfl
  have hne := slot_ne_of_freeSlot hfree
  obtain ⟨hcbs, hclock, htimers, -⟩ := doRequest_sent
    (r := (handshakePost i numbers).request) hfree hsent
  rw [hpost]
  refine ⟨?_, ?_, ?_⟩
  · rw [hcbs]
    exact List.mem_append_right _ (List.mem_singleton_self _)
  · intro c hc hslot
    rw [hcbs] at hc
    rcases List.mem_append.mp hc with hc | hc
    · exact absurd hslot (hne c hc)
    · exact List.mem_singleton.mp hc
  · intro e he hdata
    rw [htimed] at htimers
    rcases htimers with heq | heq
    · rw [heq] at he
      exact absurd hdata (hunarmed e he)
    · rw [heq] at he
      rcases List.mem_append.mp he with he | he
      · exact absurd hdata (hunarmed e he)
      · rw [List.mem_singleton.mp he]
        exact ⟨rfl, fun hexpired => nomatch hexpired⟩

variable (createLink) in
theorem clockTime_step_le (s : Handshakes L) (op : HandshakesOp) :
    s.callbacks.clockTime ≤ (s.step createLink op).callbacks.clockTime := by
  cases op with
  | linkMode3 challenge => exact le_rfl
  | process i secondsElapsed numbers =>
      show _ ≤ (s.process i secondsElapsed numbers).callbacks.clockTime
      unfold Handshakes.process
      simp only
      split
      · exact (s.callbacks.clockTime_send (.handshakePost _)).ge
      · exact le_rfl
  | request r => exact (s.callbacks.clockTime_send (.request _)).ge
  | response r code payload =>
      show _ ≤ (s.response createLink r code payload).callbacks.clockTime
      have hreceive := s.callbacks.clockTime_receiveResponse
      unfold Handshakes.response
      split
      · exact (hreceive r).ge
      · split
        · exact (hreceive r).ge
        · simp only
          split
          · exact (hreceive _).ge
          · exact (hreceive _).ge
  | clearTransaction mid => exact le_rfl
  | idleTimeout k sends => exact (s.callbacks.clockTime_idleTimeout _ k).ge
  | elapse ticks => exact Nat.le_add_right _ _
  | etimerProcess => exact le_rfl
  | checkEventCallbacks => exact s.callbacks.clockTime_checkEventCallbacks.ge

/-- Until its lifetime is over, an operation that spares a callback leaves it
where it is. -/
theorem held_step {op : HandshakesOp} (h : Held cb s.callbacks)
    (hyoung : s.callbacks.clockTime - cb.timestamp < nonLifetime)
    (hop : Spares cb s op) : Held cb (s.step createLink op).callbacks := by
  cases op with
  | linkMode3 challenge => exact h
  | process i secondsElapsed numbers =>
      have hnone : ((s.clients i).process secondsElapsed).1 = false := hop
      show Held cb (s.process i secondsElapsed numbers).callbacks
      unfold Handshakes.process
      simp only [hnone]
      exact h
  | request r => exact h.doRequest _
  | response r code payload =>
      show Held cb (s.response createLink r code payload).callbacks
      unfold Handshakes.response
      split
      · exact h.receiveResponse hop.1 hop.2
      · split
        · exact h.receiveResponse hop.1 hop.2
        · have hreceived : Held cb
              (s.callbacks.receiveResponse { r with sends := [] }) :=
            h.receiveResponse hop.1 fun x hx => absurd hx List.not_mem_nil
          simp only
          split
          · exact hreceived
          · exact hreceived
  | clearTransaction mid => exact h.of_transactions _
  | idleTimeout k sends =>
      refine h.idleTimeout hop fun c x hx => ?_
      obtain ⟨r, -, rfl⟩ := List.mem_map.mp hx
      exact ⟨r, rfl⟩
  | elapse ticks => exact h.elapse ticks
  | etimerProcess => exact h.etimerProcess
  | checkEventCallbacks => exact h.checkEventCallbacks hyoung

theorem held_run {ops : List HandshakesOp} (h : Held cb s.callbacks)
    (hops : Along (step createLink) (Spares cb) s ops)
    (hyoung : (run (step createLink) s ops).callbacks.clockTime
      - cb.timestamp < nonLifetime) :
    Held cb (run (step createLink) s ops).callbacks := by
  have hrun := run_invariant (P := fun s : Handshakes L =>
    nonLifetime ≤ s.callbacks.clockTime - cb.timestamp ∨ Held cb s.callbacks)
    (fun s op hs hop => ?_) (Or.inr h) hops
  · rcases hrun with hold | hheld
    · omega
    · exact hheld
  · have hclock := s.clockTime_step_le createLink op
    rcases hs with hold | hheld
    · exact Or.inl (by omega)
    · by_cases hyoung : s.callbacks.clockTime - cb.timestamp < nonLifetime
      · exact Or.inr (held_step hheld hyoung hop)
      · exact Or.inl (by omega)

/-- The link manager has been asked for the link of the handshake, and if it has
accepted, the handshake is over. -/
def Completes (createLink : L → UInt8 → SecurityMode0Data → Bool × L)
    (i : Fin simultaneousLinkHandshakes) (s s' : Handshakes L) : Prop :=
  s'.links = (LinkHsController.creates createLink s.links (s.clients i)).2 ∧
    ((LinkHsController.creates createLink s.links (s.clients i)).1 = true →
      s'.clients i = .zero)

/-- A response with one `rD`, which carries the check value of the handshake. -/
structure Valid (client : LinkHsController) (r : ClientResponse)
    (payload : List Rep) : Prop where
  reset : r.reset = false
  separate : r.separate = false
  respData : ∃ rep, Nexus.Channel.respData payload = [rep] ∧
    rep.carries client.expectedMac = true

/-- The first callback with a property, if none before it has the property. -/
theorem find?_of_takeWhile {α : Type*} [DecidableEq α] {p : α → Bool} {a : α}
    {l : List α} (ha : a ∈ l) (hp : p a = true)
    (hbefore : ∀ b ∈ l.takeWhile (· ≠ a), p b = false) :
    l.find? p = some a := by
  induction l with
  | nil => cases ha
  | cons b l ih =>
      by_cases hab : b = a
      · rw [hab]
        exact List.find?_cons_of_pos hp
      · have htake : (b :: l).takeWhile (· ≠ a) = b :: l.takeWhile (· ≠ a) :=
          List.takeWhile_cons_of_pos (by simpa using hab)
        rw [htake] at hbefore
        have hb := hbefore b List.mem_cons_self
        rw [List.find?_cons_of_neg (by rw [hb]; decide)]
        refine ih ?_ fun c hc => hbefore c (List.mem_cons_of_mem b hc)
        rcases List.mem_cons.mp ha with rfl | ha
        · exact absurd rfl hab
        · exact ha

theorem completes_response {i : Fin simultaneousLinkHandshakes}
    {r : ClientResponse} {payload : List Rep}
    (hinvoked : (s.callbacks.clearTransaction r.mid).invokedCb r = some cb)
    (hi : cb.userData = some i) (hvalid : Valid (s.clients i) r payload) :
    Completes createLink i s
      (s.response createLink r created201 (some payload)) := by
  obtain ⟨rep, hreps, hcarries⟩ := hvalid.respData
  have hname : rep.named respDataShortPropName = true := by
    have hmem : rep ∈ respData payload := by
      rw [hreps]
      exact List.mem_singleton_self rep
    exact (List.mem_filter.mp hmem).2
  have hpost : ((s.clients i).clientPost createLink created201 payload s.links)
      = LinkHsController.clientPostLoop createLink [rep] s.links
        (s.clients i) := by
    unfold LinkHsController.clientPost
    rw [if_neg (not_not.mpr rfl), ← LinkHsController.clientPostLoop_respData,
      hreps]
  have hresponse : s.response createLink r created201 (some payload)
      = { clients := Function.update s.clients i
            (LinkHsController.clientPostLoop createLink [rep] s.links
              (s.clients i)).2.2
          callbacks := s.callbacks.receiveResponse { r with sends := [] }
          links := (LinkHsController.clientPostLoop createLink [rep] s.links
            (s.clients i)).2.1 } := by
    unfold Handshakes.response
    simp only [hinvoked, hi, hvalid.separate, hpost]
  rw [hresponse, LinkHsController.clientPostLoop_cons hname,
    if_neg (by rw [hcarries]; decide)]
  by_cases hcreates : (LinkHsController.creates createLink s.links
      (s.clients i)).1 = false
  · rw [if_pos hcreates]
    refine ⟨rfl, fun h => ?_⟩
    rw [hcreates] at h
    cases h
  · rw [if_neg hcreates]
    exact ⟨rfl, fun _ => Function.update_self ..⟩

/-- The response to the latest POST of a handshake completes it, if no POST has
been sent for another handshake since and nothing else has freed its callback:
no other response with its token, no timer that was armed for an earlier request
in the same slot, no transaction with its message id; and if no callback that was
pending before has the same token. -/
theorem response_completes_handshake
    (createLink : L → UInt8 → SecurityMode0Data → Bool × L)
    (s : Handshakes L) (i : Fin simultaneousLinkHandshakes)
    (secondsElapsed : UInt32) (numbers : PostNumbers) (cb : ClientCb)
    (hposts : ((s.clients i).process secondsElapsed).1 = true)
    (hposted : postedCb s.callbacks i numbers = some cb)
    (hunarmed : s.callbacks.Disarmed cb.slot) (ops : List HandshakesOp)
    (hops : Along (step createLink) (Spares cb)
      (s.step createLink (.process i secondsElapsed numbers)) ops)
    (r : ClientResponse) (payload : List Rep) (s' : Handshakes L)
    (hs' : s' = run (step createLink) s
      (.process i secondsElapsed numbers :: ops))
    (hyoung : s'.callbacks.clockTime - cb.timestamp < nonLifetime)
    (htoken : r.token = [cb.token])
    (hfirst : ∀ c ∈ s'.callbacks.clientCbs.takeWhile (· ≠ cb),
      c.token ≠ cb.token)
    (hvalid : Valid (s'.clients i) r payload) :
    Completes createLink i s'
      (s'.step createLink (.response r created201 (some payload))) := by
  have hpost : (s.step createLink (.process i secondsElapsed
      numbers)).callbacks
      = s.callbacks.linkMode3SendPost (handshakePost i numbers) := by
    show (s.process i secondsElapsed numbers).callbacks = _
    unfold Handshakes.process
    simp only [hposts, if_true]
  have hheld : Held cb s'.callbacks := by
    rw [hs', run_cons]
    refine held_run ?_ hops ?_
    · rw [hpost]
      exact held_post hposted hunarmed
    · rw [hs', run_cons] at hyoung
      exact hyoung
  have hcb : cb.userData = some i ∧ cb.nxRequestSecured = false := by
    unfold postedCb at hposted
    split at hposted
    · obtain ⟨slot, -, rfl⟩ := Option.map_eq_some_iff.mp hposted
      exact ⟨rfl, rfl⟩
    · cases hposted
  have hfound : (s'.callbacks.clearTransaction r.mid).findClientCbByToken
      r.token = some cb := by
    rw [htoken]
    refine find?_of_takeWhile hheld.pending (decide_eq_true rfl) ?_
    intro c hc
    refine decide_eq_false fun heq => hfirst c hc ?_
    exact List.singleton_inj.mp heq
  have hinvoked : (s'.callbacks.clearTransaction r.mid).invokedCb r
      = some cb := by
    unfold invokedCb
    rw [hvalid.reset, hfound]
    simp [hcb.2]
  exact completes_response hinvoked hcb.1 hvalid

/-- A controller that has sent nothing yet. -/
def idle (links : L) : Handshakes L := ⟨fun _ => .zero, .init, links⟩

/-- The response of the accessory that a handshake is meant for. -/
def answer (client : LinkHsController) : List Rep :=
  [⟨respDataShortPropName, .byteString client.expectedMac.toList⟩]

/-- Two handshakes, of which one has posted. The response comes three seconds
later, with a request of the application in between. -/
theorem response_completes_handshake_first :
    let createLink : ℕ → UInt8 → SecurityMode0Data → Bool × ℕ :=
      fun links _ _ => (true, links + 1)
    let s := run (step createLink) (idle 0)
      [.linkMode3 ⟨847602, 1, 2⟩, .linkMode3 ⟨123456, 3, 4⟩]
    let ops : List HandshakesOp :=
      [.elapse 3,
        .request ⟨[0x6E], .allDevices, 1, none, true, 2, 8, .sent⟩]
    let s' := run (step createLink) s (.process 0 5 ⟨1, 7, .sent⟩ :: ops)
    Completes createLink 0 s'
      (s'.step createLink (.response ⟨1, [7], false, false, false, []⟩
        created201 (some (answer (s'.clients 0))))) := by
  intro createLink s ops s'
  refine response_completes_handshake createLink s 0 5 ⟨1, 7, .sent⟩
    ⟨0, linkHsUri, .allDevices, ocPost, some 0, 0, 1, 7, false, 0⟩
    (by decide +kernel) (by decide +kernel) (by unfold Disarmed; decide +kernel)
    ops ⟨trivial, trivial, trivial⟩ _ _ s' rfl (by decide +kernel) rfl
    (by decide +kernel) ⟨rfl, rfl, ?_⟩
  exact ⟨_, rfl, by decide +kernel⟩

/-- Both have posted, one right after the other. The response to the first POST
comes at once, and is not heard. -/
theorem later_post_silences_handshake :
    let createLink : ℕ → UInt8 → SecurityMode0Data → Bool × ℕ :=
      fun links _ _ => (true, links + 1)
    let s := run (step createLink) (idle 0)
      [.linkMode3 ⟨847602, 1, 2⟩, .linkMode3 ⟨123456, 3, 4⟩,
        .process 0 5 ⟨1, 7, .sent⟩, .process 1 5 ⟨2, 8, .sent⟩]
    let r : ClientResponse := ⟨1, [7], false, false, false, []⟩
    let payload := answer (s.clients 0)
    let s' := s.step createLink (.response r created201 (some payload))
    (s.clients 0).state = .active ∧ s.callbacks.clockTime < nonLifetime ∧
      Valid (s.clients 0) r payload ∧
      s'.links = 0 ∧ s'.clients 0 = s.clients 0 ∧
      ¬ Completes createLink 0 s s' := by
  intro createLink s r payload s'
  have hlinks : s'.links = 0 := by decide +kernel
  refine ⟨by decide +kernel, by decide +kernel, ⟨rfl, rfl, ?_⟩, hlinks,
    by decide +kernel, fun h => ?_⟩
  · exact ⟨_, rfl, by decide +kernel⟩
  · have hasked := h.1
    rw [hlinks] at hasked
    exact absurd hasked (by decide +kernel)

end Handshakes

end Nexus.Channel
