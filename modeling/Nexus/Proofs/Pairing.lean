import Nexus.Proofs.ClientHandshake
import Nexus.Proofs.HandshakeIndex
import Nexus.Proofs.LinkTable

/-!
# A controller and an accessory over a network that loses messages

The controller posts the same challenge every five seconds until it times out.
Lost POSTs do no harm. The accessory, though, uses the index up and creates its
link when a POST arrives; if its response is lost, the next POST carries a
challenge whose index has been used, and is refused. So the handshake completes
with the first POST that reaches the accessory, or not at all.
-/

namespace Nexus.Channel

open Nexus.Util Nexus.Lib Nexus.Nv

/-! ## A link manager with room -/

/-- Nothing is pending, and a slot is free. -/
structure LinkManager.Free {max : MaxLinks} (m : LinkManager max) : Prop where
  consistent : Consistent m
  counted : m.Counted
  calm : m.pendingAddLink = false
  room : m.inUseSlots.card < max.count

namespace LinkManager.Free

variable {max : MaxLinks} {m : LinkManager max}

theorem process (h : m.Free) (secondsElapsed : UInt32) :
    (m.process secondsElapsed).Free := by
  have hconsistent := h.consistent.process secondsElapsed
  have hcounted := h.counted.processLinks secondsElapsed
  have hcalm : (m.processLinks secondsElapsed).pendingAddLink = false :=
    (congrArg Prod.fst (m.waiting_processLinks secondsElapsed)).trans h.calm
  have hroom := (m.card_processLinks_le secondsElapsed).trans_lt h.room
  rcases m.process_cases secondsElapsed with
    ⟨hadd, -⟩ | ⟨-, -, heq⟩ | ⟨-, -, heq⟩
  · rw [h.calm] at hadd
    cases hadd
  · rw [heq] at hconsistent ⊢
    refine ⟨hconsistent, hcounted.clearLinksInternal, ?_, ?_⟩
    · exact (congrArg Prod.fst
        (m.processLinks secondsElapsed).waiting_clearLinksInternal).trans hcalm
    · have hnone : ∀ i, ¬ ((m.processLinks
          secondsElapsed).clearLinksInternal.slot i).inUse = true := by
        intro i huse
        have hcell := congrArg (fun c => c.slot.inUse)
          ((m.processLinks secondsElapsed).cell_clearLinksInternal i)
        exact Cell.clear_inUse (hcell.symm.trans huse)
      have hempty : LinkManager.inUseSlots
          { (m.processLinks secondsElapsed).clearLinksInternal with
            pendingClearAllLinks := false } = ∅ := by
        ext i
        rw [mem_inUseSlots]
        exact iff_of_false (hnone i) (Finset.notMem_empty i)
      rw [hempty, Finset.card_empty]
      exact Nat.zero_lt_of_lt h.room
  · rw [heq] at hconsistent ⊢
    exact ⟨hconsistent, hcounted, hcalm, hroom⟩

/-- A link is accepted, and there after the next `process`. -/
theorem createLink (h : m.Free) (id : NxId) (mode : OperatingMode)
    (securityMode : UInt8) (data : SecurityMode0Data) :
    (m.createLink id mode securityMode data).1 = true ∧
      ∀ secondsElapsed, ((m.createLink id mode securityMode data).2.process
        secondsElapsed).securityDataFromNxid id = some data := by
  have hconsistent := h.consistent.createLink id mode securityMode data
  have hcounted : m.linkCount.toNat = m.inUseSlots.card := h.counted
  have hroom := h.room
  -- every way to accept it leaves the link pending, and a slot for it
  have hpending : ∃ m' : LinkManager max,
      m.createLink id mode securityMode data
        = (true, m'.setPendingLink id mode securityMode data) ∧
      m'.inUseSlots.card < max.count := by
    rcases m.createLink_cases id mode securityMode data with
      heq | ⟨-, -, -, heq⟩ | ⟨i, -, huse, -, heq⟩
    · exfalso
      unfold LinkManager.createLink at heq
      rw [h.calm, if_neg (by decide)] at heq
      split at heq
      · cases heq
      · rw [if_neg (by omega)] at heq
        cases heq
    · exact ⟨m, heq, hroom⟩
    · refine ⟨m.clearLinkInternal i, heq, ?_⟩
      have hfree : ((m.clearLinkInternal i).slot i).inUse ≠ true := by
        intro huse'
        have hcell := congrArg (fun c => c.slot.inUse)
          (m.cell_clearLinkInternal_self i)
        exact Cell.clear_inUse (hcell.symm.trans huse')
      exact card_lt_of_free (Bool.eq_false_iff.mpr hfree)
  obtain ⟨m', heq, hroom'⟩ := hpending
  rw [heq] at hconsistent ⊢
  refine ⟨rfl, fun secondsElapsed => ?_⟩
  obtain ⟨i, huse, hlink⟩ := process_added
    (m := m'.setPendingLink id mode securityMode data) rfl hroom'
    secondsElapsed
  have hindex := (hconsistent.process secondsElapsed).linkIndexFromNxid_eq
    huse (congrArg Link.linkedDeviceId hlink)
  have hid : (m'.setPendingLink id mode securityMode
      data).pendingLinkToCreate.linkedDeviceId = id := rfl
  rw [hid] at hindex
  unfold securityDataFromNxid linkFromNxid
  rw [hindex]
  simp only [Option.map_some, hlink]
  rfl

end LinkManager.Free

/-! ## The two devices -/

/-- A handshake of a controller, the accessory it is meant for, and the links
of both. -/
structure Pairing (controllerMax accessoryMax : MaxLinks) where
  client : LinkHsController
  controllerLinks : LinkManager controllerMax
  server : LinkHsServer
  accessoryLinks : LinkManager accessoryMax

/-- What the network does to a POST and to the response to it. -/
inductive Fate
  | postLost
  | responseLost
  | delivered
deriving DecidableEq

/-- One call of `process` on each device, and the fate of the POST that the
controller may send then. -/
structure Tick where
  controllerElapsed : UInt32
  accessoryElapsed : UInt32
  fate : Fate

/-- `BAD_REQUEST_4_00`. -/
def badRequest400 : UInt8 := 128

/-- The response of the accessory: the MAC over the inverted salt, or an
error. -/
def handshakeResponse : Option AcceptedHandshake → UInt8 × List Rep
  | some a =>
      (created201, [⟨respDataShortPropName, .byteString a.respData.toList⟩])
  | none => (badRequest400, [])

namespace Pairing

variable {controllerMax accessoryMax : MaxLinks}

/-- The controller sends a POST at this tick. -/
def posts (s : Pairing controllerMax accessoryMax) (t : Tick) : Bool :=
  (s.client.process t.controllerElapsed).1

/-- Time passes on both devices. -/
def elapse (s : Pairing controllerMax accessoryMax) (t : Tick) :
    Pairing controllerMax accessoryMax where
  client := (s.client.process t.controllerElapsed).2
  controllerLinks := s.controllerLinks.process t.controllerElapsed
  server := s.server.process t.accessoryElapsed
  accessoryLinks := s.accessoryLinks.process t.accessoryElapsed

variable (originKey : CheckKey) (controllerId accessoryId : NxId)

/-- What the accessory makes of the controller's POST. -/
def answer (s : Pairing controllerMax accessoryMax) :
    Option AcceptedHandshake × LinkHsServer :=
  s.server.serverPost originKey
    (fun mode data =>
      (s.accessoryLinks.createLink controllerId .accessory mode data).1)
    s.client.postPayload

/-- The POST reaches the accessory. -/
def reachAccessory (s : Pairing controllerMax accessoryMax) :
    Pairing controllerMax accessoryMax :=
  let r := s.answer originKey controllerId
  { s with
    server := r.2
    accessoryLinks :=
      match r.1 with
      | some a =>
          (s.accessoryLinks.createLink controllerId .accessory
            a.linkSecurityMode a.securityData).2
      | none => s.accessoryLinks }

/-- A response reaches the controller. -/
def reachController (s : Pairing controllerMax accessoryMax)
    (response : UInt8 × List Rep) : Pairing controllerMax accessoryMax :=
  let r := s.client.clientPost
    (fun links mode data =>
      LinkManager.createLink links accessoryId .controller mode data)
    response.1 response.2 s.controllerLinks
  { s with client := r.2.2, controllerLinks := r.2.1 }

def step (s : Pairing controllerMax accessoryMax) (t : Tick) :
    Pairing controllerMax accessoryMax :=
  let s' := s.elapse t
  if s.posts t = false then s'
  else
    match t.fate with
    | .postLost => s'
    | .responseLost => s'.reachAccessory originKey controllerId
    | .delivered =>
        (s'.reachAccessory originKey controllerId).reachController accessoryId
          (handshakeResponse (s'.answer originKey controllerId).1)

/-- The handshake of a challenge, at some time after its start. -/
def Started (challenge : OriginChallenge) (client : LinkHsController) : Prop :=
  ∃ secondsSinceInit lastPostSeconds, client
    = { LinkHsController.start challenge.sixIntDigits challenge.rand
          challenge.rand' with
        secondsSinceInit := secondsSinceInit
        lastPostSeconds := lastPostSeconds }

/-- The controller has started the handshake with a challenge that belongs to
an unused index of the accessory, and both have room for a link. The last
condition rules out a MAC that two different keys have in common. -/
structure Ready (challenge : OriginChallenge)
    (s : Pairing controllerMax accessoryMax) : Prop where
  client : Started challenge s.client
  sound : s.server.Sound
  range : s.server.InRange
  known : ∃ k, s.server.getCurrentWindow.Holds 15 8 k ∧ k ∉ s.server.used ∧
    sixDigitIntChallenge originKey k = challenge.sixIntDigits
  unambiguous : ∀ i, s.server.getCurrentWindow.Holds 15 8 i →
    i ∉ s.server.used →
    checkCompute (generateLinkKey (sixDigitIntChallenge originKey i)
      s.client.salt) s.client.salt.toList = s.client.saltMac →
    generateLinkKey (sixDigitIntChallenge originKey i) s.client.salt
      = s.client.linkKey
  controllerLinks : s.controllerLinks.Free
  accessoryLinks : s.accessoryLinks.Free

/-- The handshake has been completed: from the next `process` on, each device
has a link to the other, and the keys are the same. -/
structure Linked (key : CheckKey) (s : Pairing controllerMax accessoryMax) :
    Prop where
  client : s.client = .zero
  controller : ∀ secondsElapsed, (s.controllerLinks.process
    secondsElapsed).securityDataFromNxid accessoryId = some ⟨key, 0⟩
  accessory : ∀ secondsElapsed, (s.accessoryLinks.process
    secondsElapsed).securityDataFromNxid controllerId = some ⟨key, 0⟩

variable {originKey controllerId accessoryId} {challenge : OriginChallenge}
  {s : Pairing controllerMax accessoryMax}

/-! ## The POST -/

theorem Started.process {client : LinkHsController}
    (h : Started challenge client) (secondsElapsed : UInt32) :
    client.process secondsElapsed = (false, .zero) ∨
      Started challenge (client.process secondsElapsed).2 := by
  obtain ⟨secondsSinceInit, lastPostSeconds, rfl⟩ := h
  unfold LinkHsController.process
  rw [if_neg (by exact LinkHandshakeState.noConfusion)]
  simp only
  split
  · exact Or.inl rfl
  · split
    · exact Or.inr ⟨_, _, rfl⟩
    · exact Or.inr ⟨_, _, rfl⟩

theorem Started.active {client : LinkHsController}
    (h : Started challenge client) : client.state = .active := by
  obtain ⟨_, _, rfl⟩ := h
  rfl

theorem Started.agree {client client' : LinkHsController}
    (h : Started challenge client) (h' : Started challenge client') :
    client'.salt = client.salt ∧ client'.saltMac = client.saltMac ∧
      client'.linkKey = client.linkKey := by
  obtain ⟨_, _, rfl⟩ := h
  obtain ⟨_, _, rfl⟩ := h'
  exact ⟨rfl, rfl, rfl⟩

theorem Started.linkKey {client : LinkHsController}
    (h : Started challenge client) :
    client.linkKey = generateLinkKey challenge.sixIntDigits client.salt ∧
      client.saltMac = checkCompute client.linkKey client.salt.toList := by
  obtain ⟨_, _, rfl⟩ := h
  exact ⟨rfl, rfl⟩

theorem ofFn_getD_toList {n : ℕ} (v : Vector UInt8 n) :
    (Vector.ofFn fun i : Fin n => v.toList.getD i 0) = v := by
  ext i hi
  simp

theorem parse_chalData (server : LinkHsAccessory) (data : Vector UInt8 16) :
    server.postParseProperty ⟨chalDataShortPropName, .byteString data.toList⟩
      = some { server with chalData := data, chalDataLen := 16 } := by
  have hlength : UInt8.ofNat data.toList.length = 16 := by
    rw [Vector.length_toList]
    rfl
  show server.postParsePayloadChalData _ _ = _
  unfold LinkHsAccessory.postParsePayloadChalData
  rw [if_pos ⟨rfl, hlength⟩, ofFn_getD_toList]

/-- The two halves of the challenge data. -/
theorem halves_append (salt mac : Vector UInt8 8) :
    (Vector.ofFn fun i : Fin 8 => (salt ++ mac).toList.getD i 0) = salt ∧
      (Vector.ofFn fun i : Fin 8 => (salt ++ mac).toList.getD (8 + i) 0)
        = mac := by
  have hlist : (salt ++ mac).toList = salt.toList ++ mac.toList :=
    Vector.toList_append
  constructor
  · refine Eq.trans ?_ (ofFn_getD_toList salt)
    congr 1
    funext i
    rw [hlist, List.getD_append _ _ _ _ (by simp)]
  · refine Eq.trans ?_ (ofFn_getD_toList mac)
    congr 1
    funext i
    rw [hlist, List.getD_append_right _ _ _ _ (by simp)]
    simp

/-- The accessory reads from the POST what the controller has put there. -/
theorem Started.postParsePayload {client : LinkHsController}
    (h : Started challenge client) (server : LinkHsAccessory) :
    ∃ server', server.postParsePayload client.postPayload = (true, server') ∧
      server'.salt = client.salt ∧ server'.receivedMac = client.saltMac ∧
      server'.linkSecurityMode = 0 := by
  obtain ⟨secondsSinceInit, lastPostSeconds, rfl⟩ := h
  generalize hclient : LinkHsController.start challenge.sixIntDigits
    challenge.rand challenge.rand' = client
  have hdata : client.sendChalData = client.salt ++ client.saltMac := by
    rw [← hclient]
    rfl
  have hlen : client.sendChalDataLen = 16 := by
    rw [← hclient]
    rfl
  have hmodes : client.requestedChalMode = 0 ∧
      client.requestedSecurityMode = 0 := by
    rw [← hclient]
    exact ⟨rfl, rfl⟩
  have hpayload : LinkHsController.postPayload { client with
      secondsSinceInit := secondsSinceInit
      lastPostSeconds := lastPostSeconds }
      = [⟨chalDataShortPropName, .byteString client.sendChalData.toList⟩,
        ⟨chalModeShortPropName, .int 0⟩,
        ⟨linkSecModeShortPropName, .int 0⟩] := by
    unfold LinkHsController.postPayload
    simp only [hlen, hmodes.1, hmodes.2]
    rw [List.take_of_length_le (by simp)]
    rfl
  refine ⟨{ server with
    chalData := client.sendChalData
    chalDataLen := 16
    chalMode := 0
    linkSecurityMode := 0 }, ?_, ?_, ?_, rfl⟩
  · rw [hpayload]
    unfold LinkHsAccessory.postParsePayload LinkHsAccessory.postParseLoop
    rw [parse_chalData]
    rfl
  · show (Vector.ofFn fun i : Fin 8 => client.sendChalData.toList.getD i 0)
      = client.salt
    rw [hdata]
    exact (halves_append client.salt client.saltMac).1
  · show (Vector.ofFn fun i : Fin 8 =>
      client.sendChalData.toList.getD (8 + i) 0) = client.saltMac
    rw [hdata]
    exact (halves_append client.salt client.saltMac).2

/-! ## The response -/

/-- A POST that reaches a ready accessory is answered with the check value the
controller expects, under the controller's key. -/
theorem Ready.answer (h : Ready originKey challenge s) (controllerId : NxId) :
    ∃ i server', s.answer originKey controllerId
      = (some ⟨i, 0, ⟨s.client.linkKey, 0⟩, s.client.expectedMac⟩,
        server') := by
  obtain ⟨k, hholds, hfresh, hdigits⟩ := h.known
  obtain ⟨hkey, hmac⟩ := h.client.linkKey
  obtain ⟨server, hparse, hsalt, hreceived, hmode⟩ :=
    h.client.postParsePayload { s.server.server with state := .active }
  -- the search finds an index, and its key is the controller's
  obtain ⟨i, key, hfound⟩ := h.sound.validateChallenge_some h.range hholds
    hfresh (show checkCompute (generateLinkKey
      (sixDigitIntChallenge originKey k) s.client.salt) s.client.salt.toList
        = s.client.saltMac by rw [hdigits, ← hkey, hmac])
  obtain ⟨hholds', hfresh', hderived, hmac'⟩ :=
    h.sound.validateChallenge h.range hfound
  rw [hderived] at hmac'
  have hsame : key = s.client.linkKey :=
    hderived.trans (h.unambiguous i hholds' hfresh' hmac')
  have hlink := (h.accessoryLinks.createLink controllerId .accessory 0
    ⟨key, 0⟩).1
  unfold Pairing.answer LinkHsServer.serverPost
  rw [hparse]
  have hwindow : LinkHsServer.getCurrentWindow
      { s.server with server := server } = s.server.getCurrentWindow := rfl
  simp only [Bool.true_eq_false, if_false, hwindow, hsalt, hreceived, hfound,
    hmode, hlink]
  rw [hsame]
  exact ⟨i, _, rfl⟩

/-- Delivered both ways, the exchange gives each device a link. -/
theorem Ready.delivered (h : Ready originKey challenge s)
    (controllerId accessoryId : NxId) :
    Linked controllerId accessoryId s.client.linkKey
      ((s.reachAccessory originKey controllerId).reachController accessoryId
        (handshakeResponse (s.answer originKey controllerId).1)) := by
  obtain ⟨i, server', hanswer⟩ := h.answer controllerId
  have haccessory := h.accessoryLinks.createLink controllerId .accessory 0
    ⟨s.client.linkKey, 0⟩
  have hcontroller := h.controllerLinks.createLink accessoryId .controller
    s.client.requestedSecurityMode ⟨s.client.linkKey, 0⟩
  have hcarries : Rep.carries ⟨respDataShortPropName,
      .byteString s.client.expectedMac.toList⟩ s.client.expectedMac = true := by
    have hlength : UInt8.ofNat s.client.expectedMac.toList.length = 8 := by
      rw [Vector.length_toList]
      rfl
    show (UInt8.ofNat s.client.expectedMac.toList.length == 8
      && s.client.expectedMac.toList == s.client.expectedMac.toList.take 8)
        = true
    rw [hlength, List.take_of_length_le (by simp)]
    simp
  have hpost : s.client.clientPost
      (fun links mode data => LinkManager.createLink links accessoryId
        .controller mode data) created201
      [⟨respDataShortPropName, .byteString s.client.expectedMac.toList⟩]
      s.controllerLinks
      = ([s.client], (s.controllerLinks.createLink accessoryId .controller
          s.client.requestedSecurityMode ⟨s.client.linkKey, 0⟩).2, .zero) := by
    unfold LinkHsController.clientPost
    rw [if_neg (not_not.mpr rfl), LinkHsController.clientPostLoop_cons rfl,
      hcarries, if_neg (by decide)]
    simp only [LinkHsController.creates, hcontroller.1]
    rfl
  unfold reachAccessory reachController
  simp only [hanswer, handshakeResponse, hpost]
  exact ⟨rfl, hcontroller.2, haccessory.2⟩

/-! ## Ticks -/

/-- Time leaves the two devices ready, or the handshake times out. -/
theorem Ready.elapse (h : Ready originKey challenge s) (t : Tick) :
    (s.posts t = false ∧ (s.elapse t).client = .zero) ∨
      Ready originKey challenge (s.elapse t) := by
  have hsame := LinkHsServer.sameStored_process s.server t.accessoryElapsed
  have hwindow : (s.elapse t).server.getCurrentWindow
      = s.server.getCurrentWindow := hsame.window
  have hused : (s.elapse t).server.used = s.server.used := by
    unfold LinkHsServer.used
    rw [hwindow]
  rcases h.client.process t.controllerElapsed with hzero | hstarted
  · exact Or.inl ⟨congrArg Prod.fst hzero, congrArg Prod.snd hzero⟩
  · have hstarted : Started challenge (s.elapse t).client := hstarted
    obtain ⟨hsalt, hmac, hkey⟩ := h.client.agree hstarted
    refine Or.inr ⟨hstarted, hsame.sound h.sound, ?_, ?_, ?_,
      h.controllerLinks.process _, h.accessoryLinks.process _⟩
    · show (s.server.process t.accessoryElapsed).InRange
      unfold LinkHsServer.InRange
      rw [hsame.stored]
      exact h.range
    · rw [hwindow, hused]
      exact h.known
    · rw [hwindow, hused, hsalt, hmac, hkey]
      exact h.unambiguous

theorem process_of_zero (h : s.client = .zero) (t : Tick) :
    s.posts t = false ∧ (s.elapse t).client = .zero := by
  have hprocess : s.client.process t.controllerElapsed = (false, .zero) := by
    rw [h]
    rfl
  exact ⟨congrArg Prod.fst hprocess, congrArg Prod.snd hprocess⟩

/-- A handshake that is over stays over. -/
theorem step_of_zero (h : s.client = .zero) (t : Tick) :
    (step originKey controllerId accessoryId s t).client = .zero := by
  obtain ⟨hposts, hzero⟩ := process_of_zero h t
  unfold step
  simp only [hposts, if_true]
  exact hzero

/-- If no response is lost, one tick leaves the two devices ready, or ends the
handshake. -/
theorem Ready.step (h : Ready originKey challenge s) {t : Tick}
    (hlost : s.posts t = true → t.fate ≠ .responseLost) :
    (step originKey controllerId accessoryId s t).client = .zero ∨
      Ready originKey challenge
        (step originKey controllerId accessoryId s t) := by
  unfold Pairing.step
  simp only
  rcases h.elapse t with ⟨hposts, hzero⟩ | hready
  · rw [if_pos hposts]
    exact Or.inl hzero
  by_cases hposts : s.posts t = false
  · rw [if_pos hposts]
    exact Or.inr hready
  rw [if_neg hposts]
  cases hfate : t.fate with
  | postLost => exact Or.inr hready
  | responseLost =>
      exact absurd hfate (hlost (Bool.eq_true_of_not_eq_false hposts))
  | delivered =>
      exact Or.inl (hready.delivered controllerId accessoryId).client

theorem Ready.run (h : Ready originKey challenge s) {ticks : List Tick}
    (hlost : Along (Pairing.step originKey controllerId accessoryId)
      (fun s t => s.posts t = true → t.fate ≠ .responseLost) s ticks) :
    (Lib.run (Pairing.step originKey controllerId accessoryId) s
        ticks).client = .zero ∨
      Ready originKey challenge
        (Lib.run (Pairing.step originKey controllerId accessoryId) s
          ticks) := by
  refine run_invariant (P := fun s =>
    s.client = .zero ∨ Ready originKey challenge s) ?_ (Or.inr h) hlost
  intro s t hs ht
  rcases hs with hzero | hready
  · exact Or.inl (step_of_zero hzero t)
  · exact hready.step ht

/-- The indexes of the window that have not been used, one by one. -/
theorem forall_unused {m : LinkHsServer} (h : m.Sound) {P : UInt32 → Prop}
    (hP : ∀ n : Fin 24,
      windowIdFlagAlreadySet m.getCurrentWindow
          (m.stored.index - 15 + UInt32.ofNat n) = false →
        P (m.stored.index - 15 + UInt32.ofNat n)) :
    ∀ i, m.getCurrentWindow.Holds 15 8 i → i ∉ m.used → P i := by
  intro i hholds hfresh
  have hlow : m.stored.index.toNat ≤ i.toNat + 15 := hholds.low
  have hhigh : i.toNat ≤ m.stored.index.toNat + 8 := hholds.high
  have hcenter := h.center
  have hlt := m.stored.index.toNat_lt
  have hi : m.stored.index - 15
      + UInt32.ofNat (i.toNat + 15 - m.stored.index.toNat) = i := by
    apply UInt32.toNat.inj
    rw [UInt32.toNat_add, UInt32.toNat_sub,
      UInt32.toNat_ofNat_of_lt' (by show _ < 2 ^ 32; omega)]
    have hfifteen : (15 : UInt32).toNat = 15 := rfl
    have hilt := i.toNat_lt
    omega
  have hset : windowIdFlagAlreadySet m.getCurrentWindow i = false := by
    refine Bool.eq_false_iff.mpr fun hset => hfresh ?_
    exact (flagAlreadySet_iff m.sized hholds).mp hset
  have hin := hP ⟨i.toNat + 15 - m.stored.index.toNat, by omega⟩
  rw [hi] at hin
  exact hin hset

/-- A controller that has just started its first handshake, and an accessory
that has never been linked. -/
def fresh (controllerMax accessoryMax : MaxLinks)
    (challenge : OriginChallenge) : Pairing controllerMax accessoryMax where
  client := .start challenge.sixIntDigits challenge.rand challenge.rand'
  controllerLinks := .init controllerMax fun _ => none
  server := .init fun _ => none
  accessoryLinks := .init accessoryMax fun _ => none

theorem free_init (max : MaxLinks) :
    (LinkManager.init max fun _ => none).Free := by
  have hblank : ∀ i : Fin max.count,
      nvRead (fun _ => none) (indexToNvBlock i) = none := fun i =>
    Option.map_eq_none_iff.mp (Cell.stored_factory (.inl rfl) Slot.zero)
  refine ⟨Consistent.init_blank hblank, LinkManager.counted_init _,
    LinkManager.pendingAddLink_init _, ?_⟩
  exact LinkManager.card_lt_of_free (i := ⟨0, max.one_le⟩)
    (Bool.eq_false_iff.mpr (Consistent.free_of_blank hblank _))

/-- Such devices are ready, if the challenge belongs to one of the first
twenty-four indexes and no other index fits it. -/
theorem ready_fresh {k : UInt32} (hk : k.toNat < 24)
    (hdigits : sixDigitIntChallenge originKey k = challenge.sixIntDigits)
    (hunambiguous : ∀ n : Fin 24,
      checkCompute (generateLinkKey
          (sixDigitIntChallenge originKey (UInt32.ofNat n))
          (LinkHsController.randomSalt challenge.rand challenge.rand'))
        (LinkHsController.randomSalt challenge.rand challenge.rand').toList
        = (LinkHsController.start challenge.sixIntDigits challenge.rand
            challenge.rand').saltMac →
      sixDigitIntChallenge originKey (UInt32.ofNat n)
        = challenge.sixIntDigits) :
    Ready originKey challenge (fresh controllerMax accessoryMax challenge) := by
  have hsound : (LinkHsServer.init fun _ => none).Sound :=
    LinkHsServer.sound_init (.never rfl rfl)
  have hindex : (LinkHsServer.init fun _ => none).stored.index = 15 := rfl
  have hholds : (LinkHsServer.init
      fun _ => none).getCurrentWindow.Holds 15 8 k :=
    ⟨Nat.le_refl 15, by decide, Nat.le_add_left 15 _, Nat.le_of_lt_succ hk⟩
  refine ⟨⟨_, _, rfl⟩, hsound, ?_, ⟨k, hholds, ?_, hdigits⟩, ?_, free_init _,
    free_init _⟩
  · show (15 : UInt32).toNat + 8 < 2 ^ 32 - 1
    decide
  · intro hused
    have hset := (flagAlreadySet_iff (LinkHsServer.sized _) hholds).mpr hused
    have hclear : ∀ n : Fin 24, windowIdFlagAlreadySet (LinkHsServer.init
        fun _ => none).getCurrentWindow (UInt32.ofNat n) = false := by
      decide +kernel
    have hk' := hclear ⟨k.toNat, hk⟩
    simp only [UInt32.ofNat_toNat, hset] at hk'
    cases hk'
  · refine forall_unused hsound ?_
    intro n _ hmac
    have hn : (15 : UInt32) - 15 + UInt32.ofNat n = UInt32.ofNat n :=
      UInt32.zero_add _
    rw [hindex, hn] at hmac ⊢
    exact congrArg (generateLinkKey · _) (hunambiguous n hmac)

/-- No unused index of the accessory fits the challenge any more, and the
controller has no link. -/
structure Stranded (originKey : CheckKey) (accessoryId : NxId)
    (challenge : OriginChallenge) (s : Pairing controllerMax accessoryMax) :
    Prop where
  client : s.client = .zero ∨ Started challenge s.client
  sound : s.server.Sound
  range : s.server.InRange
  used : ∀ i, s.server.getCurrentWindow.Holds 15 8 i → i ∉ s.server.used →
    checkCompute (generateLinkKey (sixDigitIntChallenge originKey i)
        (LinkHsController.randomSalt challenge.rand challenge.rand'))
      (LinkHsController.randomSalt challenge.rand challenge.rand').toList
      ≠ (LinkHsController.start challenge.sixIntDigits challenge.rand
        challenge.rand').saltMac
  calm : s.controllerLinks.pendingAddLink = false
  unlinked : s.controllerLinks.linkIndexFromNxid accessoryId = none

theorem unlinked_process {max : MaxLinks} {m : LinkManager max} {id : NxId}
    (hcalm : m.pendingAddLink = false)
    (hnone : m.linkIndexFromNxid id = none) (secondsElapsed : UInt32) :
    (m.process secondsElapsed).pendingAddLink = false ∧
      (m.process secondsElapsed).linkIndexFromNxid id = none := by
  have hcalm' : (m.processLinks secondsElapsed).pendingAddLink = false :=
    (congrArg Prod.fst (m.waiting_processLinks secondsElapsed)).trans hcalm
  have hkeeps : ∀ i, (m.cell i).Keeps
      ((m.processLinks secondsElapsed).cell i) := by
    intro i
    rw [LinkManager.processLinks, m.cell_processLinks i secondsElapsed]
    exact Cell.keeps_process secondsElapsed
  rw [LinkManager.linkIndexFromNxid_eq_none] at hnone ⊢
  rcases m.process_cases secondsElapsed with
    ⟨hadd, -⟩ | ⟨-, -, heq⟩ | ⟨-, -, heq⟩
  · rw [hcalm] at hadd
    cases hadd
  · rw [heq]
    refine ⟨(congrArg Prod.fst (m.processLinks
      secondsElapsed).waiting_clearLinksInternal).trans hcalm', ?_⟩
    intro i huse
    have hcell := congrArg (fun c => c.slot.inUse)
      ((m.processLinks secondsElapsed).cell_clearLinksInternal i)
    exact absurd (hcell.symm.trans huse) Cell.clear_inUse
  · rw [heq]
    refine ⟨hcalm', fun i huse hid => ?_⟩
    obtain ⟨huse', hid'⟩ := hkeeps i huse
    exact hnone i huse' (hid'.symm.trans hid)

/-- A stranded accessory refuses the POST and keeps what is stored. -/
theorem Stranded.answer (h : Stranded originKey accessoryId challenge s)
    (hstarted : Started challenge s.client) (controllerId : NxId) :
    (s.answer originKey controllerId).1 = none ∧
      s.server.SameStored (s.answer originKey controllerId).2 := by
  obtain ⟨server, hparse, hsalt, hreceived, -⟩ :=
    hstarted.postParsePayload { s.server.server with state := .active }
  have hclient : s.client.salt
        = LinkHsController.randomSalt challenge.rand challenge.rand' ∧
      s.client.saltMac = (LinkHsController.start challenge.sixIntDigits
        challenge.rand challenge.rand').saltMac := by
    obtain ⟨_, _, heq⟩ := hstarted
    rw [heq]
    exact ⟨rfl, rfl⟩
  have hnone : serverValidateChallenge originKey server.salt
      server.receivedMac s.server.getCurrentWindow = none := by
    cases hfound : serverValidateChallenge originKey server.salt
        server.receivedMac s.server.getCurrentWindow with
    | none => rfl
    | some found =>
        obtain ⟨hholds, hfresh, hkey, hmac⟩ :=
          h.sound.validateChallenge h.range hfound
        rw [hkey, hsalt, hreceived, hclient.1, hclient.2] at hmac
        exact absurd hmac (h.used _ hholds hfresh)
  have hwindow : LinkHsServer.getCurrentWindow
      { s.server with server := server } = s.server.getCurrentWindow := rfl
  unfold Pairing.answer LinkHsServer.serverPost
  rw [hparse]
  simp only [Bool.true_eq_false, if_false, hwindow, hnone]
  exact ⟨trivial, rfl, rfl⟩

theorem Stranded.elapse (h : Stranded originKey accessoryId challenge s)
    (t : Tick) : Stranded originKey accessoryId challenge (s.elapse t) := by
  have hsame := LinkHsServer.sameStored_process s.server t.accessoryElapsed
  have hwindow : (s.elapse t).server.getCurrentWindow
      = s.server.getCurrentWindow := hsame.window
  have hused : (s.elapse t).server.used = s.server.used := by
    unfold LinkHsServer.used
    rw [hwindow]
  have hlinks := unlinked_process h.calm h.unlinked t.controllerElapsed
  refine ⟨?_, hsame.sound h.sound, ?_, ?_, hlinks.1, hlinks.2⟩
  · rcases h.client with hzero | hstarted
    · exact Or.inl (process_of_zero hzero t).2
    · rcases hstarted.process t.controllerElapsed with hzero | hstarted'
      · exact Or.inl (congrArg Prod.snd hzero)
      · exact Or.inr hstarted'
  · show (s.server.process t.accessoryElapsed).InRange
    unfold LinkHsServer.InRange
    rw [hsame.stored]
    exact h.range
  · rw [hwindow, hused]
    exact h.used

/-- From then on nothing that is delivered makes a difference. -/
theorem Stranded.step (h : Stranded originKey accessoryId challenge s)
    (t : Tick) :
    Stranded originKey accessoryId challenge
      (step originKey controllerId accessoryId s t) := by
  have helapsed := h.elapse t
  unfold Pairing.step
  simp only
  by_cases hposts : s.posts t = false
  · rw [if_pos hposts]
    exact helapsed
  rw [if_neg hposts]
  have hstarted : Started challenge (s.elapse t).client := by
    rcases h.client with hzero | hstarted
    · exact absurd (process_of_zero hzero t).1 hposts
    · rcases hstarted.process t.controllerElapsed with hzero | hstarted'
      · exact absurd (congrArg Prod.fst hzero) hposts
      · exact hstarted'
  obtain ⟨hnone, hsame⟩ := helapsed.answer hstarted controllerId
  have hreached : Stranded originKey accessoryId challenge
      ((s.elapse t).reachAccessory originKey controllerId) := by
    have hwindow := hsame.window
    refine ⟨helapsed.client, hsame.sound helapsed.sound, ?_, ?_,
      helapsed.calm, helapsed.unlinked⟩
    · show ((s.elapse t).answer originKey controllerId).2.InRange
      unfold LinkHsServer.InRange
      rw [hsame.stored]
      exact helapsed.range
    · show ∀ i, ((s.elapse t).answer originKey
          controllerId).2.getCurrentWindow.Holds 15 8 i →
        i ∉ ((s.elapse t).answer originKey controllerId).2.used → _
      unfold LinkHsServer.used
      rw [hwindow]
      exact helapsed.used
  cases t.fate with
  | postLost => exact helapsed
  | responseLost => exact hreached
  | delivered =>
      rw [hnone]
      exact ⟨hreached.client, hreached.sound, hreached.range, hreached.used,
        hreached.calm, hreached.unlinked⟩

theorem Stranded.run (h : Stranded originKey accessoryId challenge s)
    (controllerId : NxId) (ticks : List Tick) :
    Stranded originKey accessoryId challenge
      (Lib.run (Pairing.step originKey controllerId accessoryId) s ticks) :=
  run_invariant (fun _ t hs _ => hs.step t) h (along_true s ticks)

theorem step_responseLost {t : Tick} (hposts : s.posts t = true)
    (hfate : t.fate = .responseLost) :
    step originKey controllerId accessoryId s t
      = (s.elapse t).reachAccessory originKey controllerId := by
  rw [Pairing.step]
  simp only [hposts, hfate]
  rfl

theorem Stranded.securityData (h : Stranded originKey accessoryId challenge s) :
    s.controllerLinks.securityDataFromNxid accessoryId = none := by
  unfold LinkManager.securityDataFromNxid LinkManager.linkFromNxid
  rw [h.unlinked]
  rfl

end Pairing

end Nexus.Channel
