import Nexus.Channel.LinkHandshake
import Nexus.Lib.Run

/-!
# Handshakes that have been cleared

A handshake of the controller is active, with a key drawn from the challenge of
its origin command, or all zero. The callback of a POST keeps a pointer to the
handshake, and nothing tells it that the handshake has been cleared since. A
response that carries the check value of the all-zero handshake, which anybody
can compute, is then valid, and a link is created under the all-zero key. This
is the only way: in a run without such a response every link is created for an
active handshake, with its own key.
-/

namespace Nexus.Channel

open Nexus.Util Nexus.Lib

/-! ## One response -/

/-- A byte string with the length of a check value, cut to a byte as the source
does it, that begins with this one. -/
def Rep.carries (rep : Rep) (mac : Vector UInt8 8) : Bool :=
  match rep.value with
  | .byteString repData =>
      UInt8.ofNat repData.length == 8 && mac.toList == repData.take 8
  | _ => false

/-- The properties of a payload that a response is read from. -/
def respData (payload : List Rep) : List Rep :=
  payload.filter fun rep => rep.named respDataShortPropName

namespace LinkHsController

variable {L : Type} {createLink : L → UInt8 → SecurityMode0Data → Bool × L}
  {links : L} {client : LinkHsController}

/-- What the link manager answers for a handshake. -/
def creates (createLink : L → UInt8 → SecurityMode0Data → Bool × L)
    (links : L) (client : LinkHsController) : Bool × L :=
  createLink links client.requestedSecurityMode ⟨client.linkKey, 0⟩

theorem clientPostLoop_respData (payload : List Rep) :
    clientPostLoop createLink (respData payload) links client
      = clientPostLoop createLink payload links client := by
  induction payload generalizing links client with
  | nil => rfl
  | cons rep payload ih =>
      by_cases hname : rep.named respDataShortPropName = true
      · have hcons : respData (rep :: payload) = rep :: respData payload :=
          List.filter_cons_of_pos hname
        rw [hcons, clientPostLoop, clientPostLoop]
        simp only [ih]
      · have hcons : respData (rep :: payload) = respData payload :=
          List.filter_cons_of_neg hname
        rw [hcons, ih, clientPostLoop, if_neg hname]

/-- The loop at a property that a response is read from. -/
theorem clientPostLoop_cons {rep : Rep} {reps : List Rep}
    (hname : rep.named respDataShortPropName = true) :
    clientPostLoop createLink (rep :: reps) links client
      = if rep.carries client.expectedMac = false then ([], links, client)
        else if (creates createLink links client).1 = false then
          ([client], (creates createLink links client).2, client)
        else
          (client :: (clientPostLoop createLink reps
              (creates createLink links client).2 zero).1,
            (clientPostLoop createLink reps
              (creates createLink links client).2 zero).2) := by
  rw [clientPostLoop, if_pos hname]
  cases hvalue : rep.value with
  | byteString repData =>
      simp only [Rep.carries, hvalue]
      by_cases hlength : UInt8.ofNat repData.length = 8
      · by_cases hmac : client.expectedMac.toList = repData.take 8
        · have hcarries : ¬ (UInt8.ofNat repData.length == 8
              && client.expectedMac.toList == repData.take 8) = false := by
            simp [hlength, hmac]
          rw [if_neg (not_not.mpr hlength), if_neg (not_not.mpr hmac),
            if_neg hcarries]
          rfl
        · simp [hlength, hmac]
      · simp [hlength]
  | int value => simp [Rep.carries, hvalue]
  | other => simp [Rep.carries, hvalue]

/-- The handshake that the loop leaves is the one it was given, or cleared. -/
theorem clientPostLoop_client (payload : List Rep) :
    (clientPostLoop createLink payload links client).2.2 = client ∨
      (clientPostLoop createLink payload links client).2.2 = zero := by
  induction payload generalizing links client with
  | nil => exact Or.inl rfl
  | cons rep payload ih =>
      by_cases hname : rep.named respDataShortPropName = true
      · rw [clientPostLoop_cons hname]
        split
        · exact Or.inl rfl
        · split
          · exact Or.inl rfl
          · refine Or.inr ?_
            rcases @ih (creates createLink links client).2 zero with h | h
            · exact h
            · exact h
      · rw [clientPostLoop, if_neg hname]
        exact ih

/-- A cleared handshake calls the link manager as soon as the first of these
properties carries the check value of the all-zero handshake. -/
theorem clientPostLoop_zero {reps : List Rep}
    (hnames : ∀ rep ∈ reps, rep.named respDataShortPropName = true) :
    (clientPostLoop createLink reps links zero).1 = [] ↔
      ∀ rep, reps.head? = some rep → rep.carries zero.expectedMac = false := by
  cases reps with
  | nil => exact ⟨by simp, fun _ => rfl⟩
  | cons rep reps =>
      rw [clientPostLoop_cons (hnames rep List.mem_cons_self)]
      simp only [List.head?_cons, Option.some.injEq, forall_eq']
      constructor
      · intro h
        by_contra hcarries
        rw [if_neg hcarries] at h
        split at h
        · cases h
        · cases h
      · intro hcarries
        rw [if_pos hcarries]

/-- Every call that a cleared handshake makes is made from a cleared one. -/
theorem clientPostLoop_zero_calls (reps : List Rep) :
    ∀ call ∈ (clientPostLoop createLink reps links zero).1, call = zero := by
  induction reps generalizing links with
  | nil => exact fun call hcall => absurd hcall List.not_mem_nil
  | cons rep reps ih =>
      by_cases hname : rep.named respDataShortPropName = true
      · rw [clientPostLoop_cons hname]
        split
        · exact fun call hcall => absurd hcall List.not_mem_nil
        · split
          · exact fun call hcall => List.mem_singleton.mp hcall
          · intro call hcall
            rcases List.mem_cons.mp hcall with rfl | hcall
            · rfl
            · exact ih call hcall
      · rw [clientPostLoop, if_neg hname]
        exact ih

end LinkHsController

/-! ## The controller -/

/-- What an origin command and the random source give to a handshake. -/
structure OriginChallenge where
  sixIntDigits : UInt32
  rand : UInt32
  rand' : UInt32
deriving DecidableEq

/-- The handshakes of a controller. For each there is also the challenge it was
last started with, which the program does not keep. -/
structure Controller where
  clients : LinkHsClients
  origin : Fin simultaneousLinkHandshakes → Option OriginChallenge

/-- An origin command; the passing of time; a response to a POST of the
handshake `i`, whenever it comes and whatever the links are then. -/
inductive ControllerOp (L : Type)
  | originCommand (challenge : OriginChallenge)
  | process (secondsElapsed : UInt32)
  | response (i : Fin simultaneousLinkHandshakes) (code : UInt8)
      (payload : List Rep) (links : L)

/-- A call of `nexus_channel_link_manager_create_link`: the handshake it is
made from, and the challenge that handshake was last started with. -/
structure LinkCall where
  client : LinkHsController
  origin : Option OriginChallenge

/-- The handshake is in progress, and the key is the one of its challenge and
its salt. -/
structure LinkCall.InProgress (call : LinkCall) : Prop where
  active : call.client.state = .active
  key : ∃ challenge, call.origin = some challenge ∧
    call.client.salt
      = LinkHsController.randomSalt challenge.rand challenge.rand' ∧
    call.client.linkKey
      = generateLinkKey challenge.sixIntDigits call.client.salt

namespace Controller

/-- `nexus_channel_res_link_hs_init`. -/
def init : Controller := ⟨fun _ => .zero, fun _ => none⟩

variable {L : Type} (createLink : L → UInt8 → SecurityMode0Data → Bool × L)

def step (m : Controller) : ControllerOp L → Controller
  | .originCommand challenge =>
      match (List.finRange simultaneousLinkHandshakes).find? fun i =>
        (m.clients i).state == .idle with
      | none => m
      | some i =>
          { clients := Function.update m.clients i
              (.start challenge.sixIntDigits challenge.rand challenge.rand')
            origin := Function.update m.origin i (some challenge) }
  | .process secondsElapsed =>
      { m with clients := m.clients.process secondsElapsed }
  | .response i code payload links =>
      { m with
        clients := Function.update m.clients i
          ((m.clients i).clientPost createLink code payload links).2.2 }

/-- The calls that an operation makes. -/
def calls (m : Controller) : ControllerOp L → List LinkCall
  | .response i code payload links =>
      ((m.clients i).clientPost createLink code payload links).1.map
        fun client => ⟨client, m.origin i⟩
  | _ => []

/-- A response that gets a cleared handshake to create a link: the handshake is
cleared and the first `rD` carries the check value of the all-zero handshake,
or it is active, the first `rD` completes it, and the second is such a one. -/
def ReachesCleared (m : Controller) : ControllerOp L → Prop
  | .response i code payload links =>
      code = created201 ∧
        match (m.clients i).state with
        | .idle =>
            ∃ rep, (respData payload).head? = some rep ∧
              rep.carries LinkHsController.zero.expectedMac = true
        | .active =>
            ∃ first second rest, respData payload = first :: second :: rest ∧
              first.carries (m.clients i).expectedMac = true ∧
              ((m.clients i).creates createLink links).1 = true ∧
              second.carries LinkHsController.zero.expectedMac = true
  | _ => False

/-- A handshake is cleared, or active with the key of its challenge. -/
def Sound (m : Controller) : Prop :=
  ∀ i, m.clients i = .zero ∨ LinkCall.InProgress ⟨m.clients i, m.origin i⟩

variable {createLink} {m : Controller}

theorem inProgress_process {client : LinkHsController}
    {origin : Option OriginChallenge}
    (h : LinkCall.InProgress ⟨client, origin⟩) (secondsElapsed : UInt32) :
    (client.process secondsElapsed).2 = .zero ∨
      LinkCall.InProgress ⟨(client.process secondsElapsed).2, origin⟩ := by
  obtain ⟨hactive, hkey⟩ := h
  unfold LinkHsController.process
  split
  · exact Or.inr ⟨hactive, hkey⟩
  · simp only
    split
    · exact Or.inl rfl
    · split
      · exact Or.inr ⟨hactive, hkey⟩
      · exact Or.inr ⟨hactive, hkey⟩

theorem Sound.step (h : m.Sound) (op : ControllerOp L) :
    (step createLink m op).Sound := by
  cases op with
  | originCommand challenge =>
      simp only [Controller.step]
      split
      · exact h
      · next i _ =>
          intro j
          by_cases hj : j = i
          · subst hj
            refine Or.inr ⟨?_, challenge, ?_, ?_, ?_⟩
            · simp only [Function.update_self]
              rfl
            · simp only [Function.update_self]
            · simp only [Function.update_self]
              rfl
            · simp only [Function.update_self]
              rfl
          · simp only [Function.update_of_ne hj]
            exact h j
  | process secondsElapsed =>
      intro i
      rcases h i with hzero | hprogress
      · refine Or.inl ?_
        show ((m.clients i).process secondsElapsed).2 = .zero
        rw [hzero]
        rfl
      · exact inProgress_process hprogress secondsElapsed
  | response i code payload links =>
      intro j
      by_cases hj : j = i
      · subst hj
        have hclient : ((m.clients j).clientPost createLink code payload
            links).2.2 = m.clients j ∨
            ((m.clients j).clientPost createLink code payload
              links).2.2 = .zero := by
          unfold LinkHsController.clientPost
          split
          · exact Or.inl rfl
          · exact LinkHsController.clientPostLoop_client payload
        simp only [Controller.step, Function.update_self]
        rcases hclient with heq | hzero
        · rw [heq]
          exact h j
        · exact Or.inl hzero
      · simp only [Controller.step, Function.update_of_ne hj]
        exact h j

/-- A call that is made from a cleared handshake is not in progress. -/
theorem not_inProgress_zero (origin : Option OriginChallenge) :
    ¬ LinkCall.InProgress ⟨.zero, origin⟩ := fun h => by
  cases h.active

theorem zero_calls_iff {reps : List Rep} {links : L}
    {origin : Option OriginChallenge}
    (hnames : ∀ rep ∈ reps, rep.named respDataShortPropName = true) :
    (∀ client ∈ (LinkHsController.clientPostLoop createLink reps links
        .zero).1, LinkCall.InProgress ⟨client, origin⟩) ↔
      ∀ rep, reps.head? = some rep →
        rep.carries LinkHsController.zero.expectedMac = false := by
  rw [← LinkHsController.clientPostLoop_zero hnames]
  constructor
  · intro h
    refine List.eq_nil_iff_forall_not_mem.mpr fun client hclient => ?_
    have hzero :=
      LinkHsController.clientPostLoop_zero_calls reps client hclient
    exact not_inProgress_zero origin (hzero ▸ h client hclient)
  · intro h client hclient
    rw [h] at hclient
    cases hclient

theorem active_calls_iff {reps : List Rep} {links : L}
    {client : LinkHsController} {origin : Option OriginChallenge}
    (hprogress : LinkCall.InProgress ⟨client, origin⟩)
    (hnames : ∀ rep ∈ reps, rep.named respDataShortPropName = true) :
    (∀ call ∈ (client.clientPostLoop createLink reps links).1,
        LinkCall.InProgress ⟨call, origin⟩) ↔
      ¬ ∃ first second rest, reps = first :: second :: rest ∧
        first.carries client.expectedMac = true ∧
        (client.creates createLink links).1 = true ∧
        second.carries LinkHsController.zero.expectedMac = true := by
  cases reps with
  | nil => simp [LinkHsController.clientPostLoop]
  | cons first reps =>
      rw [LinkHsController.clientPostLoop_cons
        (hnames first List.mem_cons_self)]
      by_cases hcarries : first.carries client.expectedMac = false
      · rw [if_pos hcarries]
        simp [hcarries]
      rw [if_neg hcarries]
      by_cases hlink : (client.creates createLink links).1 = false
      · rw [if_pos hlink]
        simp [hlink, hprogress]
      rw [if_neg hlink]
      rw [Bool.not_eq_false] at hcarries hlink
      have hzero : (∀ call ∈ (LinkHsController.clientPostLoop createLink reps
          (client.creates createLink links).2 .zero).1,
            LinkCall.InProgress ⟨call, origin⟩) ↔ _ :=
        zero_calls_iff fun rep hrep =>
          hnames rep (List.mem_cons_of_mem first hrep)
      simp only [List.forall_mem_cons, hprogress, true_and, hzero]
      cases reps with
      | nil => simp
      | cons second rest => simp [hcarries, hlink]

/-- An operation makes only calls that are in progress, unless it gets a
cleared handshake to create a link. -/
theorem Sound.calls_iff (h : m.Sound) (op : ControllerOp L) :
    (∀ call ∈ calls createLink m op, call.InProgress) ↔
      ¬ ReachesCleared createLink m op := by
  cases op with
  | originCommand challenge => simp [calls, ReachesCleared]
  | process secondsElapsed => simp [calls, ReachesCleared]
  | response i code payload links =>
      have hnames : ∀ rep ∈ respData payload,
          rep.named respDataShortPropName = true :=
        fun rep hrep => (List.mem_filter.mp hrep).2
      simp only [calls, List.forall_mem_map, ReachesCleared, not_and,
        LinkHsController.clientPost]
      by_cases hcode : code = created201
      · rw [if_neg (not_not.mpr hcode),
          ← LinkHsController.clientPostLoop_respData]
        simp only [hcode, forall_const]
        rcases h i with hzero | hprogress
        · rw [hzero, zero_calls_iff hnames]
          show _ ↔ ¬ ∃ rep, _
          simp
        · rw [active_calls_iff hprogress hnames]
          have hactive : (m.clients i).state = .active := hprogress.active
          rw [hactive]
      · rw [if_pos hcode]
        simp [hcode]

/-- From the start on, along every run of origin commands, processing and
responses: the calls of `nexus_channel_link_manager_create_link` are all made
for handshakes in progress, with the key of their challenge and salt, exactly
if no response reaches a cleared handshake with the check value of the all-zero
one. -/
theorem links_in_progress_iff
    (createLink : L → UInt8 → SecurityMode0Data → Bool × L)
    (ops : List (ControllerOp L)) :
    Along (step createLink)
        (fun m op => ∀ call ∈ calls createLink m op, call.InProgress) init
        ops ↔
      Along (step createLink) (fun m op => ¬ ReachesCleared createLink m op)
        init ops := by
  have hinit : init.Sound := fun i => Or.inl rfl
  revert hinit
  generalize init = m
  intro hm
  induction ops generalizing m with
  | nil => exact Iff.rfl
  | cons op ops ih =>
      exact and_congr (hm.calls_iff op) (ih _ (hm.step op))

/-- A handshake is posted a last time after 3595 seconds and times out six
seconds later. The response that then comes, while the callback of that POST
still waits, creates a link under the all-zero key. -/
theorem cleared_handshake_creates_link :
    let createLink : Unit → UInt8 → SecurityMode0Data → Bool × Unit :=
      fun links _ _ => (true, links)
    let before : List (ControllerOp Unit) := [.originCommand ⟨123456, 7, 9⟩]
    let posted : ControllerOp Unit := .process 3595
    let timedOut : ControllerOp Unit := .process 6
    let response : ControllerOp Unit := .response 0 created201
      [⟨respDataShortPropName,
        .byteString LinkHsController.zero.expectedMac.toList⟩] ()
    (run (step createLink) init before).clients.posts 3595 = [0] ∧
      (calls createLink (run (step createLink) init
          (before ++ [posted, timedOut])) response).map
        (fun call => (call.client.state, call.client.linkKey))
        = [(.idle, ⟨Vector.replicate 16 0⟩)] ∧
      ¬ Along (step createLink)
        (fun m op => ∀ call ∈ calls createLink m op, call.InProgress) init
        (before ++ [posted, timedOut, response]) := by
  intro createLink before posted timedOut response
  have hcalls : (calls createLink (run (step createLink) init
        (before ++ [posted, timedOut])) response).map
      (fun call => (call.client.state, call.client.linkKey))
      = [(.idle, ⟨Vector.replicate 16 0⟩)] := by decide +kernel
  refine ⟨by decide +kernel, hcalls, fun hall => ?_⟩
  have hsplit : before ++ [posted, timedOut, response]
      = (before ++ [posted, timedOut]) ++ [response] := rfl
  rw [hsplit, along_append] at hall
  obtain ⟨-, hlast, -⟩ := hall
  have hmem := List.mem_singleton_self
    (LinkHandshakeState.idle, (⟨Vector.replicate 16 0⟩ : CheckKey))
  rw [← hcalls] at hmem
  obtain ⟨call, hcall, heq⟩ := List.mem_map.mp hmem
  have hactive := (hlast call hcall).active
  rw [(Prod.mk.inj heq).1] at hactive
  cases hactive

end Controller

end Nexus.Channel
