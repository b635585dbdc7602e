import Nexus.Channel.ClientCallbacks
import Nexus.Lib.Run

/-!
# Whose callback a timer removes

A timer frees a slot of the pool, whatever is in that slot when it expires. So
it removes its own callback only if the slot has not been handed out again in
the meantime, and that is for the code that frees a callback to see to: it has
to stop the timer first. The response to a request does so, the timeout of its
transaction does so, and a timer that has expired is gone. A handshake POST that
replaces a callback does not; as long as no POST finds one to replace, every
armed timer belongs to the callback in its slot.
-/

namespace Nexus.Channel

open Nexus.Util Nexus.Lib

namespace ClientCbs

variable {s s' : ClientCbs}

/-! ## The property -/

/-- The callback is that of a handshake POST, and this is another one. -/
def Send.Replaces : Send → ClientCb → Prop
  | .request _, _ => False
  | .handshakePost _, cb => cb.isHandshakePost = true

instance (x : Send) (cb : ClientCb) : Decidable (x.Replaces cb) :=
  match x with
  | .request _ => inferInstanceAs (Decidable False)
  | .handshakePost _ => inferInstanceAs (Decidable (_ = true))

/-- The ways in which a pending callback may disappear: by a response with its
token, by a handshake POST in its place, by the timeout of the transaction of
its own request, or when its own lifetime is over. -/
def RemovedByOwn (s : ClientCbs) (cb : ClientCb) : Op → Prop
  | .send x => x.Replaces cb
  | .response r => r.token = [cb.token] ∨ ∃ x ∈ r.sends, x.Replaces cb
  | .idleTimeout k sends =>
      (∃ t, s.transactions[k]? = some t ∧ t.requestId = cb.requestId) ∨
        ∃ c, ∃ x ∈ sends c, x.Replaces cb
  | .checkEventCallbacks => nonLifetime ≤ s.clockTime - cb.timestamp
  | _ => False

/-- A timer frees the callback of its own request, if it frees one. -/
def TimersOwn (s : ClientCbs) : Prop :=
  ∀ e ∈ s.timedCallbacks, ∀ cb ∈ s.clientCbs, cb.slot = e.data →
    cb.requestId = e.requestId

/-! ## The condition -/

/-- No callback and no transaction has this message id. -/
def FreshMid (s : ClientCbs) (mid : UInt16) : Prop :=
  (∀ cb ∈ s.clientCbs, cb.mid ≠ mid) ∧ ∀ t ∈ s.transactions, t.mid ≠ mid

instance (s : ClientCbs) (mid : UInt16) : Decidable (s.FreshMid mid) :=
  inferInstanceAs (Decidable (_ ∧ _))

/-- The message id is not in use, and a handshake POST has no callback to
replace. -/
def Careful (s : ClientCbs) : Send → Prop
  | .request r => s.FreshMid r.mid
  | .handshakePost p => s.FreshMid p.mid ∧ s.getHandshakeCb = none

instance (s : ClientCbs) (x : Send) : Decidable (s.Careful x) :=
  match x with
  | .request _ => inferInstanceAs (Decidable (FreshMid _ _))
  | .handshakePost _ => inferInstanceAs (Decidable (_ ∧ _))

/-- The same of everything that is sent in an operation. -/
def CarefulOp (s : ClientCbs) : Op → Prop
  | .send x => s.Careful x
  | .response r =>
      ∀ cb, (s.clearTransaction r.mid).invokedCb r = some cb →
        Along send Careful (s.clearTransaction r.mid) r.sends
  | .idleTimeout k sends =>
      ∀ t, s.transactions[k]? = some t →
        Along (notifyClientCb503 sends)
          (fun s cb => Along send Careful
            (s.removeTimedEventCallback cb.slot) (sends cb))
          s (s.clientCbs.filter fun cb => cb.mid = t.mid)
  | _ => True

/-! ## The invariant -/

/-- Every armed timer belongs to the callback in its slot, and no slot has two;
a transaction and a callback with the same message id belong to the same
request. -/
structure Sound (s : ClientCbs) : Prop where
  slots : (s.clientCbs.map ClientCb.slot).Nodup
  armed : ∀ e ∈ s.timedCallbacks, ∃ cb ∈ s.clientCbs, cb.slot = e.data ∧
    cb.requestId = e.requestId ∧ cb.timestamp = e.start
  timers : (s.timedCallbacks.map EventCallback.data).Nodup
  expired : ∀ e ∈ s.timedCallbacks, e.expired = true →
    nonLifetime ≤ s.clockTime - e.start
  cached : ∀ t ∈ s.transactions, ∀ cb ∈ s.clientCbs, cb.mid = t.mid →
    cb.requestId = t.requestId

theorem sound_init : init.Sound :=
  ⟨List.nodup_nil, fun _ h => absurd h List.not_mem_nil, List.nodup_nil,
    fun _ h => absurd h List.not_mem_nil, fun _ h => absurd h List.not_mem_nil⟩

/-- Only one pending callback has a slot. -/
theorem Sound.eq_of_slot (h : s.Sound) {cb cb' : ClientCb}
    (hcb : cb ∈ s.clientCbs) (hcb' : cb' ∈ s.clientCbs)
    (hslot : cb.slot = cb'.slot) : cb = cb' :=
  List.inj_on_of_nodup_map h.slots hcb hcb' hslot

theorem Sound.timersOwn (h : s.Sound) : s.TimersOwn := by
  intro e he cb hcb hslot
  obtain ⟨own, hown, hslot', hid, -⟩ := h.armed e he
  rw [h.eq_of_slot hcb hown (hslot.trans hslot'.symm)]
  exact hid

/-! ## Sending -/

/-- A request takes no callback away, and arms no timer for a slot that was
occupied. -/
structure Grows (s s' : ClientCbs) : Prop where
  pending : ∀ cb ∈ s.clientCbs, cb ∈ s'.clientCbs
  timers : ∀ e ∈ s'.timedCallbacks, e ∈ s.timedCallbacks ∨
    ∀ cb ∈ s.clientCbs, cb.slot ≠ e.data

theorem Grows.refl (s : ClientCbs) : Grows s s :=
  ⟨fun _ h => h, fun _ h => Or.inl h⟩

theorem Grows.trans {s'' : ClientCbs} (h : Grows s s') (h' : Grows s' s'') :
    Grows s s'' := by
  refine ⟨fun cb hcb => h'.pending cb (h.pending cb hcb), fun e he => ?_⟩
  rcases h'.timers e he with he' | hfree
  · exact h.timers e he'
  · exact Or.inr fun cb hcb => hfree cb (h.pending cb hcb)

theorem slot_ne_of_freeSlot {slot : CbSlot} (h : s.freeSlot = some slot) :
    ∀ cb ∈ s.clientCbs, cb.slot ≠ slot := by
  intro cb hcb
  have hall := List.find?_some h
  exact of_decide_eq_true (List.all_eq_true.mp hall cb hcb)

/-- The callback that a request gets. -/
def newCb (s : ClientCbs) (r : ClientRequest) (slot : CbSlot) : ClientCb where
  slot := slot
  uri := r.uri
  endpoint := r.endpoint
  method := r.method
  userData := r.userData
  timestamp := s.clockTime
  mid := r.mid
  token := r.token
  nxRequestSecured := r.secured
  requestId := s.nextRequestId

/-- A request that is sent takes a free slot, arms a timer for it if there is one
left, and caches its transaction. -/
theorem doRequest_sent {r : ClientRequest} {slot : CbSlot}
    (hfree : s.freeSlot = some slot) (hsent : r.dispatch = .sent) :
    (s.doRequest r).clientCbs = s.clientCbs ++ [s.newCb r slot] ∧
      (s.doRequest r).clockTime = s.clockTime ∧
      ((s.doRequest r).timedCallbacks = s.timedCallbacks ∨
        (s.doRequest r).timedCallbacks = s.timedCallbacks
          ++ [⟨slot, s.clockTime, false, s.nextRequestId⟩]) ∧
      ((s.doRequest r).transactions = s.transactions ∨
        (s.doRequest r).transactions
          = s.transactions ++ [⟨r.mid, s.nextRequestId⟩]) := by
  unfold doRequest allocClientCb setDelayedCallback
  simp only [hfree, Option.map_some, hsent]
  split
  · split
    · exact ⟨rfl, rfl, Or.inr rfl, Or.inr rfl⟩
    · exact ⟨rfl, rfl, Or.inl rfl, Or.inr rfl⟩
  · split
    · exact ⟨rfl, rfl, Or.inr rfl, Or.inl rfl⟩
    · exact ⟨rfl, rfl, Or.inl rfl, Or.inl rfl⟩

/-- One that is not sent leaves no trace. -/
theorem doRequest_notSent {r : ClientRequest} (hsent : r.dispatch ≠ .sent) :
    ∃ n, s.doRequest r = { s with nextRequestId := n } := by
  unfold doRequest allocClientCb
  cases hslot : s.freeSlot with
  | none => exact ⟨_, rfl⟩
  | some slot =>
      have hfreed : (s.clientCbs ++ [s.newCb r slot]).filter
          (fun cb => cb.slot ≠ slot) = s.clientCbs := by
        rw [List.filter_append, List.filter_eq_self.mpr fun cb hcb =>
          decide_eq_true (slot_ne_of_freeSlot hslot cb hcb)]
        simp [newCb]
      have hstate : (ClientCbs.freeClientCb { s with
          clientCbs := s.clientCbs ++ [s.newCb r slot]
          nextRequestId := s.nextRequestId + 1 } slot)
          = { s with nextRequestId := s.nextRequestId + 1 } :=
        congrArg (fun l => { s with
          clientCbs := l, nextRequestId := s.nextRequestId + 1 }) hfreed
      refine ⟨s.nextRequestId + 1, ?_⟩
      simp only [Option.map_some]
      cases hdispatch : r.dispatch with
      | noTransaction => exact hstate
      | notSent => exact hstate
      | sent => exact absurd hdispatch hsent

theorem doRequest_cases (s : ClientCbs) (r : ClientRequest) :
    (∃ n, s.doRequest r = { s with nextRequestId := n }) ∨
      ∃ slot, s.freeSlot = some slot ∧
        (s.doRequest r).clientCbs = s.clientCbs ++ [s.newCb r slot] ∧
        (s.doRequest r).clockTime = s.clockTime ∧
        ((s.doRequest r).timedCallbacks = s.timedCallbacks ∨
          (s.doRequest r).timedCallbacks = s.timedCallbacks
            ++ [⟨slot, s.clockTime, false, s.nextRequestId⟩]) ∧
        ((s.doRequest r).transactions = s.transactions ∨
          (s.doRequest r).transactions
            = s.transactions ++ [⟨r.mid, s.nextRequestId⟩]) := by
  by_cases hsent : r.dispatch = .sent
  · cases hslot : s.freeSlot with
    | none =>
        refine Or.inl ⟨s.nextRequestId, ?_⟩
        unfold doRequest allocClientCb
        rw [hslot]
        rfl
    | some slot => exact Or.inr ⟨slot, rfl, doRequest_sent hslot hsent⟩
  · exact Or.inl (doRequest_notSent hsent)

theorem Sound.doRequest (h : s.Sound) {r : ClientRequest}
    (hfresh : s.FreshMid r.mid) :
    (s.doRequest r).Sound ∧ Grows s (s.doRequest r) := by
  rcases s.doRequest_cases r with
    ⟨n, heq⟩ | ⟨slot, hfree, hcbs, hclock, htimed, hcached⟩
  · rw [heq]
    exact ⟨⟨h.slots, h.armed, h.timers, h.expired, h.cached⟩,
      ⟨fun _ hcb => hcb, fun _ he => Or.inl he⟩⟩
  have hne := slot_ne_of_freeSlot hfree
  have hold : ∀ cb ∈ s.clientCbs, cb ∈ (s.doRequest r).clientCbs := by
    intro cb hcb
    rw [hcbs]
    exact List.mem_append_left _ hcb
  have hnew : s.newCb r slot ∈ (s.doRequest r).clientCbs := by
    rw [hcbs]
    exact List.mem_append_right _ (List.mem_singleton_self _)
  -- a timer of the new state is an old one, or the one of the new callback
  have htimer : ∀ e ∈ (s.doRequest r).timedCallbacks,
      e ∈ s.timedCallbacks ∨
        e = ⟨slot, s.clockTime, false, s.nextRequestId⟩ := by
    intro e he
    rcases htimed with heq | heq
    · rw [heq] at he
      exact Or.inl he
    · rw [heq] at he
      rcases List.mem_append.mp he with he | he
      · exact Or.inl he
      · exact Or.inr (List.mem_singleton.mp he)
  have hdata : ∀ e ∈ s.timedCallbacks, e.data ≠ slot := by
    intro e he
    obtain ⟨cb, hcb, hslot, -⟩ := h.armed e he
    rw [← hslot]
    exact hne cb hcb
  have hcase : ∀ cb ∈ (s.doRequest r).clientCbs,
      cb ∈ s.clientCbs ∨ cb = s.newCb r slot := by
    intro cb hcb
    rw [hcbs] at hcb
    rcases List.mem_append.mp hcb with hcb | hcb
    · exact Or.inl hcb
    · exact Or.inr (List.mem_singleton.mp hcb)
  refine ⟨⟨?_, ?_, ?_, ?_, ?_⟩, ⟨hold, ?_⟩⟩
  · rw [hcbs, List.map_append]
    refine List.nodup_append.mpr ⟨h.slots, List.nodup_singleton _, ?_⟩
    intro a ha b hb hab
    obtain ⟨cb, hcb, rfl⟩ := List.mem_map.mp ha
    exact hne cb hcb (hab.trans (List.mem_singleton.mp hb))
  · intro e he
    rcases htimer e he with he | rfl
    · obtain ⟨cb, hcb, hown⟩ := h.armed e he
      exact ⟨cb, hold cb hcb, hown⟩
    · exact ⟨_, hnew, rfl, rfl, rfl⟩
  · rcases htimed with heq | heq
    · rw [heq]
      exact h.timers
    · rw [heq, List.map_append]
      refine List.nodup_append.mpr ⟨h.timers, List.nodup_singleton _, ?_⟩
      intro a ha b hb hab
      obtain ⟨e, he, rfl⟩ := List.mem_map.mp ha
      exact hdata e he (hab.trans (List.mem_singleton.mp hb))
  · intro e he hexpired
    rw [hclock]
    rcases htimer e he with he | rfl
    · exact h.expired e he hexpired
    · cases hexpired
  · intro t ht cb hcb hmid
    have ht' : t ∈ s.transactions ∨ t = ⟨r.mid, s.nextRequestId⟩ := by
      rcases hcached with heq | heq
      · rw [heq] at ht
        exact Or.inl ht
      · rw [heq] at ht
        rcases List.mem_append.mp ht with ht | ht
        · exact Or.inl ht
        · exact Or.inr (List.mem_singleton.mp ht)
    rcases ht' with ht | rfl
    · rcases hcase cb hcb with hcb | rfl
      · exact h.cached t ht cb hcb hmid
      · exact absurd hmid.symm (hfresh.2 t ht)
    · rcases hcase cb hcb with hcb | rfl
      · exact absurd hmid (hfresh.1 cb hcb)
      · rfl
  · intro e he
    rcases htimer e he with he | rfl
    · exact Or.inl he
    · exact Or.inr hne

theorem Sound.send (h : s.Sound) {x : Send} (hx : s.Careful x) :
    (s.send x).Sound ∧ Grows s (s.send x) := by
  cases x with
  | request r => exact h.doRequest hx
  | handshakePost p =>
      have heq : s.send (.handshakePost p) = s.doRequest p.request := by
        show s.linkMode3SendPost p = _
        unfold linkMode3SendPost
        rw [hx.2]
      rw [heq]
      exact h.doRequest hx.1

theorem Sound.sends (h : s.Sound) {xs : List Send}
    (hxs : Along ClientCbs.send Careful s xs) :
    (xs.foldl ClientCbs.send s).Sound ∧
      Grows s (xs.foldl ClientCbs.send s) := by
  refine run_invariant (P := fun s' => s'.Sound ∧ Grows s s') ?_ ⟨h, .refl s⟩
    hxs
  intro s' x hs' hx
  obtain ⟨hsound, hgrows⟩ := hs'.1.send hx
  exact ⟨hsound, hs'.2.trans hgrows⟩

/-! ## Taking a callback away -/

/-- No timer is armed for the slot. -/
def Disarmed (s : ClientCbs) (slot : CbSlot) : Prop :=
  ∀ e ∈ s.timedCallbacks, e.data ≠ slot

theorem Grows.disarmed (h : Grows s s') {cb : ClientCb}
    (hcb : cb ∈ s.clientCbs) (hdisarmed : s.Disarmed cb.slot) :
    s'.Disarmed cb.slot := by
  intro e he
  rcases h.timers e he with he | hfree
  · exact hdisarmed e he
  · exact (hfree cb hcb).symm

theorem ne_of_mem_eraseP {α β : Type*} [DecidableEq β] {f : α → β} {b : β}
    {l : List α} (h : (l.map f).Nodup) :
    ∀ a ∈ l.eraseP fun a => decide (f a = b), f a ≠ b := by
  induction l with
  | nil => exact fun a ha => absurd ha List.not_mem_nil
  | cons x l ih =>
      obtain ⟨hx, hl⟩ := List.nodup_cons.mp h
      intro a ha
      rw [List.eraseP_cons] at ha
      by_cases hxb : f x = b
      · rw [decide_eq_true hxb] at ha
        intro hab
        exact hx (List.mem_map.mpr ⟨a, ha, hab.trans hxb.symm⟩)
      · rw [decide_eq_false hxb] at ha
        rcases List.mem_cons.mp ha with rfl | ha
        · exact hxb
        · exact ih hl a ha

theorem Sound.removeTimedEventCallback (h : s.Sound) (slot : CbSlot) :
    (s.removeTimedEventCallback slot).Sound ∧
      (s.removeTimedEventCallback slot).Disarmed slot := by
  have hsub : ∀ e ∈ (s.removeTimedEventCallback slot).timedCallbacks,
      e ∈ s.timedCallbacks := fun e he => List.mem_of_mem_eraseP he
  refine ⟨⟨h.slots, fun e he => h.armed e (hsub e he), ?_,
    fun e he => h.expired e (hsub e he), h.cached⟩, ?_⟩
  · exact h.timers.sublist (List.eraseP_sublist.map _)
  · exact ne_of_mem_eraseP h.timers

theorem mem_freeClientCb {slot : CbSlot} {cb : ClientCb} :
    cb ∈ (s.freeClientCb slot).clientCbs ↔
      cb ∈ s.clientCbs ∧ cb.slot ≠ slot := by
  show cb ∈ s.clientCbs.filter _ ↔ _
  rw [List.mem_filter, decide_eq_true_iff]

/-- A callback may be freed once its timer has been stopped. -/
theorem Sound.freeClientCb (h : s.Sound) {slot : CbSlot}
    (hdisarmed : s.Disarmed slot) : (s.freeClientCb slot).Sound := by
  refine ⟨?_, ?_, h.timers, h.expired, ?_⟩
  · exact h.slots.sublist (List.filter_sublist.map _)
  · intro e he
    obtain ⟨cb, hcb, hslot, hown⟩ := h.armed e he
    refine ⟨cb, mem_freeClientCb.mpr ⟨hcb, ?_⟩, hslot, hown⟩
    rw [hslot]
    exact hdisarmed e he
  · intro t ht cb hcb
    exact h.cached t ht cb (mem_freeClientCb.mp hcb).1

theorem Sound.invokeClientCb (h : s.Sound) {cb : ClientCb}
    {r : ClientResponse} (hcb : cb ∈ s.clientCbs)
    (hsends : Along ClientCbs.send Careful s r.sends) :
    (s.invokeClientCb cb r).Sound ∧
      ∀ c ∈ s.clientCbs, c ∉ (s.invokeClientCb cb r).clientCbs → c = cb := by
  obtain ⟨hsound, hgrows⟩ := h.sends hsends
  unfold ClientCbs.invokeClientCb
  simp only
  split
  · exact ⟨hsound, fun c hc hgone => absurd (hgrows.pending c hc) hgone⟩
  split
  · exact ⟨hsound, fun c hc hgone => absurd (hgrows.pending c hc) hgone⟩
  obtain ⟨hstopped, hdisarmed⟩ := hsound.removeTimedEventCallback cb.slot
  refine ⟨hstopped.freeClientCb hdisarmed, fun c hc hgone => ?_⟩
  by_contra hne
  refine hgone (mem_freeClientCb.mpr ⟨hgrows.pending c hc, fun hslot => ?_⟩)
  exact hne (h.eq_of_slot hc hcb hslot)

theorem Sound.notifyClientCb503 (h : s.Sound) {cb : ClientCb}
    {sends : ClientCb → List Send} (hcb : cb ∈ s.clientCbs)
    (hsends : Along ClientCbs.send Careful
      (s.removeTimedEventCallback cb.slot) (sends cb)) :
    (notifyClientCb503 sends s cb).Sound ∧
      ∀ c ∈ s.clientCbs, c ≠ cb →
        c ∈ (notifyClientCb503 sends s cb).clientCbs := by
  obtain ⟨hstopped, hdisarmed⟩ := h.removeTimedEventCallback cb.slot
  obtain ⟨hsound, hgrows⟩ := hstopped.sends hsends
  refine ⟨hsound.freeClientCb (hgrows.disarmed hcb hdisarmed), ?_⟩
  intro c hc hne
  refine mem_freeClientCb.mpr ⟨hgrows.pending c hc, fun hslot => ?_⟩
  exact hne (h.eq_of_slot hc hcb hslot)

/-- The callbacks that have been notified are gone, the others are not. -/
theorem Sound.notifyAll (h : s.Sound) {sends : ClientCb → List Send}
    {cbs : List ClientCb} (hcbs : ∀ cb ∈ cbs, cb ∈ s.clientCbs)
    (hnodup : cbs.Nodup)
    (hsends : Along (ClientCbs.notifyClientCb503 sends)
      (fun s cb => Along ClientCbs.send Careful
        (s.removeTimedEventCallback cb.slot) (sends cb)) s cbs) :
    (cbs.foldl (ClientCbs.notifyClientCb503 sends) s).Sound ∧
      ∀ c ∈ s.clientCbs, c ∉ cbs →
        c ∈ (cbs.foldl (ClientCbs.notifyClientCb503 sends) s).clientCbs := by
  induction cbs generalizing s with
  | nil => exact ⟨h, fun c hc _ => hc⟩
  | cons cb cbs ih =>
      obtain ⟨hnotmem, hnodup⟩ := List.nodup_cons.mp hnodup
      obtain ⟨hsound, hothers⟩ :=
        h.notifyClientCb503 (hcbs cb List.mem_cons_self) hsends.1
      have hrest : ∀ c ∈ cbs,
          c ∈ (ClientCbs.notifyClientCb503 sends s cb).clientCbs := by
        intro c hc
        refine hothers c (hcbs c (List.mem_cons_of_mem cb hc)) ?_
        rintro rfl
        exact hnotmem hc
      obtain ⟨hsound', hothers'⟩ := ih hsound hrest hnodup hsends.2
      refine ⟨hsound', fun c hc hc' => ?_⟩
      rw [List.mem_cons, not_or] at hc'
      exact hothers' c (hothers c hc hc'.1) hc'.2

theorem Sound.clientCbs_nodup (h : s.Sound) : s.clientCbs.Nodup :=
  List.Nodup.of_map _ h.slots

/-- Fewer transactions make no difference. -/
theorem Sound.of_transactions (h : s.Sound) {ts : List CachedTransaction}
    (hts : ∀ t ∈ ts, t ∈ s.transactions) :
    ClientCbs.Sound { s with transactions := ts } :=
  ⟨h.slots, h.armed, h.timers, h.expired,
    fun t ht => h.cached t (hts t ht)⟩

/-! ## Timers -/

theorem mem_freeAll {es : List EventCallback} {cb : ClientCb} :
    cb ∈ (es.foldl (fun s e => s.freeClientCb e.data) s).clientCbs ↔
      cb ∈ s.clientCbs ∧ ∀ e ∈ es, cb.slot ≠ e.data := by
  induction es generalizing s with
  | nil => simp
  | cons e es ih =>
      rw [List.foldl_cons, ih, mem_freeClientCb, List.forall_mem_cons,
        and_assoc]

theorem sublist_freeAll (es : List EventCallback) :
    (es.foldl (fun s e => s.freeClientCb e.data) s).clientCbs.Sublist
      s.clientCbs := by
  induction es generalizing s with
  | nil => exact List.Sublist.refl _
  | cons e es ih => exact ih.trans List.filter_sublist

/-- Every expired timer takes its own callback with it. -/
theorem Sound.checkEventCallbacks (h : s.Sound) :
    s.checkEventCallbacks.Sound ∧
      ∀ c ∈ s.clientCbs, c ∉ s.checkEventCallbacks.clientCbs →
        nonLifetime ≤ s.clockTime - c.timestamp := by
  have hmem : ∀ {c : ClientCb}, c ∈ s.checkEventCallbacks.clientCbs ↔
      c ∈ s.clientCbs ∧
        ∀ e ∈ s.timedCallbacks.filter EventCallback.expired,
          c.slot ≠ e.data := mem_freeAll
  have htransactions : s.checkEventCallbacks.transactions = s.transactions :=
    foldl_unchanged
      (f := fun (s : ClientCbs) (e : EventCallback) => s.freeClientCb e.data)
      ClientCbs.transactions (fun _ _ => rfl) s _
  have htimed : ∀ e ∈ s.checkEventCallbacks.timedCallbacks,
      e ∈ s.timedCallbacks ∧ e.expired = false := by
    intro e he
    obtain ⟨he, hexpired⟩ := List.mem_filter.mp he
    exact ⟨he, of_decide_eq_true hexpired⟩
  refine ⟨⟨?_, ?_, ?_, ?_, ?_⟩, ?_⟩
  · exact h.slots.sublist ((sublist_freeAll _).map _)
  · intro e he
    obtain ⟨he, hexpired⟩ := htimed e he
    obtain ⟨cb, hcb, hslot, hown⟩ := h.armed e he
    refine ⟨cb, hmem.mpr ⟨hcb, fun e' he' hdata => ?_⟩, hslot, hown⟩
    obtain ⟨he', hexpired'⟩ := List.mem_filter.mp he'
    have heq : e = e' :=
      List.inj_on_of_nodup_map h.timers he he' (hslot.symm.trans hdata)
    rw [heq, hexpired'] at hexpired
    cases hexpired
  · exact h.timers.sublist (List.filter_sublist.map _)
  · intro e he hexpired
    rw [(htimed e he).2] at hexpired
    cases hexpired
  · intro t ht cb hcb
    rw [htransactions] at ht
    exact h.cached t ht cb (hmem.mp hcb).1
  · intro c hc hgone
    by_contra hyoung
    refine hgone (hmem.mpr ⟨hc, fun e he hslot => hyoung ?_⟩)
    obtain ⟨he, hexpired⟩ := List.mem_filter.mp he
    obtain ⟨cb, hcb, hslot', -, hstart⟩ := h.armed e he
    rw [h.eq_of_slot hc hcb (hslot.trans hslot'.symm), hstart]
    exact h.expired e he hexpired

theorem Sound.etimerProcess (h : s.Sound) : s.etimerProcess.Sound := by
  have hold : ∀ e ∈ s.etimerProcess.timedCallbacks,
      ∃ e' ∈ s.timedCallbacks, e'.data = e.data ∧
        e'.requestId = e.requestId ∧ e'.start = e.start ∧
        (e.expired = true → e'.expired = true ∨
          nonLifetime ≤ s.clockTime - e.start) := by
    intro e he
    obtain ⟨e', he', rfl⟩ := List.mem_map.mp he
    refine ⟨e', he', rfl, rfl, rfl, fun hexpired => ?_⟩
    rcases (Bool.or_eq_true _ _).mp hexpired with hexpired | hpast
    · exact Or.inl hexpired
    · exact Or.inr (of_decide_eq_true hpast)
  refine ⟨h.slots, ?_, ?_, ?_, h.cached⟩
  · intro e he
    obtain ⟨e', he', hdata, hid, hstart, -⟩ := hold e he
    rw [← hdata, ← hid, ← hstart]
    exact h.armed e' he'
  · have hdata : s.etimerProcess.timedCallbacks.map EventCallback.data
        = s.timedCallbacks.map EventCallback.data := by
      show List.map _ (List.map _ _) = _
      rw [List.map_map]
      rfl
    rw [hdata]
    exact h.timers
  · intro e he hexpired
    obtain ⟨e', he', -, -, hstart, hpast⟩ := hold e he
    rcases hpast hexpired with hexpired' | hpast
    · rw [← hstart]
      exact h.expired e' he' hexpired'
    · exact hpast

/-! ## The clock -/

theorem clockTime_send (s : ClientCbs) (x : Send) :
    (s.send x).clockTime = s.clockTime := by
  have hrequest : ∀ (s : ClientCbs) (r : ClientRequest),
      (s.doRequest r).clockTime = s.clockTime := by
    intro s r
    rcases s.doRequest_cases r with ⟨n, heq⟩ | ⟨_, _, _, hclock, _⟩
    · rw [heq]
    · exact hclock
  cases x with
  | request r => exact hrequest s r
  | handshakePost p =>
      show (s.linkMode3SendPost p).clockTime = s.clockTime
      unfold linkMode3SendPost
      split
      · exact hrequest _ _
      · exact hrequest _ _

theorem clockTime_sends (s : ClientCbs) (xs : List Send) :
    (xs.foldl send s).clockTime = s.clockTime :=
  foldl_unchanged ClientCbs.clockTime clockTime_send s xs

theorem clockTime_receiveResponse (s : ClientCbs) (r : ClientResponse) :
    (s.receiveResponse r).clockTime = s.clockTime := by
  unfold receiveResponse invokeClientCb
  simp only
  split
  · rfl
  · have hsends := clockTime_sends (s.clearTransaction r.mid) r.sends
    split
    · exact hsends
    split
    · exact hsends
    · exact hsends

theorem clockTime_idleTimeout (s : ClientCbs) (sends : ClientCb → List Send)
    (k : ℕ) : (s.idleTimeout sends k).clockTime = s.clockTime := by
  unfold idleTimeout
  split
  · rfl
  · refine foldl_unchanged ClientCbs.clockTime (fun s cb => ?_) s _
    exact clockTime_sends (s.removeTimedEventCallback cb.slot) (sends cb)

theorem clockTime_checkEventCallbacks (s : ClientCbs) :
    s.checkEventCallbacks.clockTime = s.clockTime :=
  foldl_unchanged
    (f := fun (s : ClientCbs) (e : EventCallback) => s.freeClientCb e.data)
    ClientCbs.clockTime (fun _ _ => rfl) s _

/-! ## Runs -/

theorem mem_of_invokedCb {r : ClientResponse} {cb : ClientCb}
    (h : s.invokedCb r = some cb) :
    cb ∈ s.clientCbs ∧ [cb.token] = r.token := by
  unfold invokedCb at h
  split at h
  · cases h
  · obtain ⟨hfound, -⟩ := Option.filter_eq_some_iff.mp h
    have htoken := List.find?_some
      (show s.clientCbs.find? (fun cb => [cb.token] = r.token) = some cb
        from hfound)
    exact ⟨List.mem_of_find?_eq_some hfound, of_decide_eq_true htoken⟩

/-- What one operation preserves, and why a callback disappears in it. -/
theorem Sound.step (h : s.Sound) {op : Op} (hop : s.CarefulOp op) :
    (s.step op).Sound ∧
      ∀ cb ∈ s.clientCbs, cb ∉ (s.step op).clientCbs →
        s.RemovedByOwn cb op := by
  cases op with
  | send x =>
      obtain ⟨hsound, hgrows⟩ := h.send hop
      exact ⟨hsound, fun cb hcb hgone => absurd (hgrows.pending cb hcb) hgone⟩
  | response r =>
      have hcleared : (s.clearTransaction r.mid).Sound :=
        h.of_transactions fun t ht => List.mem_of_mem_eraseP ht
      show (s.receiveResponse r).Sound ∧ _
      simp only [ClientCbs.step, receiveResponse]
      cases hinvoked : (s.clearTransaction r.mid).invokedCb r with
      | none => exact ⟨hcleared, fun cb hcb hgone => absurd hcb hgone⟩
      | some own =>
          obtain ⟨hown, htoken⟩ := mem_of_invokedCb hinvoked
          obtain ⟨hsound, hothers⟩ :=
            hcleared.invokeClientCb hown (hop own hinvoked)
          refine ⟨hsound, fun cb hcb hgone => Or.inl ?_⟩
          rw [hothers cb hcb hgone]
          exact htoken.symm
  | clearTransaction mid =>
      exact ⟨h.of_transactions fun t ht => List.mem_of_mem_eraseP ht,
        fun cb hcb hgone => absurd hcb hgone⟩
  | idleTimeout k sends =>
      simp only [ClientCbs.step, ClientCbs.idleTimeout]
      cases ht : s.transactions[k]? with
      | none => exact ⟨h, fun cb hcb hgone => absurd hcb hgone⟩
      | some t =>
          obtain ⟨hsound, hothers⟩ := h.notifyAll
            (fun cb hcb => (List.mem_filter.mp hcb).1)
            (h.clientCbs_nodup.filter _) (hop t ht)
          refine ⟨hsound.of_transactions fun t ht => List.mem_of_mem_eraseIdx ht,
            fun cb hcb hgone => Or.inl ⟨t, ht, ?_⟩⟩
          by_contra hid
          refine hgone (hothers cb hcb fun hmem => hid ?_)
          have hmid := of_decide_eq_true (List.mem_filter.mp hmem).2
          exact (h.cached t (List.mem_of_getElem? ht) cb hcb hmid).symm
  | elapse ticks =>
      refine ⟨⟨h.slots, h.armed, h.timers, fun e he hexpired => ?_, h.cached⟩,
        fun cb hcb hgone => absurd hcb hgone⟩
      have hpast := h.expired e he hexpired
      show nonLifetime ≤ s.clockTime + ticks - e.start
      omega
  | etimerProcess =>
      exact ⟨h.etimerProcess, fun cb hcb hgone => absurd hcb hgone⟩
  | checkEventCallbacks => exact h.checkEventCallbacks

/-- As long as no handshake POST finds a callback to replace and no message id
is given out that is still in use, a timer removes its own callback only, and a
callback disappears by its own response, by the timeout of its own transaction
or at the end of its own lifetime. -/
theorem timers_remove_own_callbacks (ops : List Op)
    (hops : Along ClientCbs.step CarefulOp init ops) :
    ∀ pre post, ops = pre ++ post →
      (run ClientCbs.step init pre).TimersOwn ∧
      ∀ op post', post = op :: post' →
        ∀ cb ∈ (run ClientCbs.step init pre).clientCbs,
          cb ∉ ((run ClientCbs.step init pre).step op).clientCbs →
          (run ClientCbs.step init pre).RemovedByOwn cb op := by
  rintro pre post rfl
  obtain ⟨hpre, hpost⟩ := along_append.mp hops
  have hsound : (run ClientCbs.step init pre).Sound :=
    run_invariant (fun _ _ h hop => (h.step hop).1) sound_init hpre
  refine ⟨hsound.timersOwn, ?_⟩
  rintro op post' rfl
  exact (hsound.step hpost.1).2

/-- A handshake POST that is answered after five seconds, and a secured request
in the same slot that is never answered. -/
theorem timers_remove_own_callbacks_answered :
    let ops : List Op :=
      [.send (.handshakePost ⟨0, 1, 7, .sent⟩), .elapse 5,
        .response ⟨1, [7], false, false, false, []⟩,
        .send (.request ⟨[0x6E], .allDevices, 1, none, true, 2, 8, .sent⟩),
        .elapse 14, .etimerProcess]
    let s := run ClientCbs.step init ops
    s.clientCbs.map ClientCb.slot = [0] ∧ s.TimersOwn ∧
      (s.step .checkEventCallbacks).clientCbs = [] ∧
      ∀ cb ∈ s.clientCbs, s.RemovedByOwn cb .checkEventCallbacks := by
  intro ops s
  have hops : Along ClientCbs.step CarefulOp init
      (ops ++ [.checkEventCallbacks]) := by
    refine ⟨?_, trivial, fun _ _ => trivial, ?_, trivial, trivial, trivial,
      trivial⟩
    · simp only [CarefulOp]
      decide
    · simp only [CarefulOp]
      decide +kernel
  have hown := timers_remove_own_callbacks (ops ++ [.checkEventCallbacks]) hops
    ops [.checkEventCallbacks] rfl
  have hgone : (s.step .checkEventCallbacks).clientCbs = [] := by
    decide +kernel
  refine ⟨by decide +kernel, hown.1, hgone, fun cb hcb => ?_⟩
  refine hown.2 _ [] rfl cb hcb ?_
  rw [hgone]
  exact List.not_mem_nil

/-- Two POSTs of the same handshake, five seconds apart. The second replaces the
callback of the first and is given its slot, and the timer of the first removes
the callback of the second nine seconds after it was sent. -/
theorem replaced_timer_removes_later_callback :
    let ops : List Op :=
      [.send (.handshakePost ⟨0, 1, 7, .sent⟩), .elapse 5,
        .send (.handshakePost ⟨0, 2, 8, .sent⟩), .elapse 9, .etimerProcess]
    let s := run ClientCbs.step init ops
    ¬ s.TimersOwn ∧
      ∃ cb ∈ s.clientCbs, cb.mid = 2 ∧ cb.token = 8 ∧ cb.timestamp = 5 ∧
        cb ∉ (s.step .checkEventCallbacks).clientCbs ∧
        ¬ s.RemovedByOwn cb .checkEventCallbacks := by
  intro ops s
  let cb : ClientCb :=
    ⟨0, linkHsUri, .allDevices, ocPost, some 0, 5, 2, 8, false, 1⟩
  have hcb : cb ∈ s.clientCbs := by decide +kernel
  refine ⟨?_, cb, hcb, rfl, rfl, rfl, by decide +kernel, ?_⟩
  · intro hown
    have hid := hown ⟨0, 0, true, 0⟩ (by decide +kernel) cb hcb rfl
    cases hid
  · show ¬ nonLifetime ≤ s.clockTime - 5
    decide +kernel

end ClientCbs

end Nexus.Channel
