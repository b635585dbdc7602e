import Nexus.Proofs.Settled

/-!
# No message id is used twice

The abstract receiver is a `FlagWindow`: an ADD_CREDIT message takes its id, a
SET_CREDIT, WIPE_STATE or extended message takes every id up to its own, and a
DEMO message takes none. `perform_cases` says that one operation of the
program does to the window what its message does to the receiver, or nothing;
the rest is that the set of received ids only grows.

Two things can take ids out of that set, and both are excluded: a mask wipe,
which is meant to, and ids that no longer fit in 16 bits, which the bound on
the center keeps away.
-/

namespace Nexus.Keycode

open Nexus.Util Nexus.Lib

/-! ## One operation -/

/-- The operation is an applied command to forget the received ids. -/
def WipesMask (cfg : Config) (m : Machine) (op : Operation) : Prop :=
  (m.perform cfg op).1 = .validApplied ∧
    match op with
    | .smallFrame env frame =>
        ∃ message, smallDecode cfg env frame m.pdIndex = some message ∧
          message.typeCode = smallMaintenanceOrTestType ∧
          (message.body = 0x81 ∨ message.body = 0x82)
    | .fullFrame env frame =>
        ∃ message, (m.fullParse env frame).1 = some message ∧
          message.typeCode = fullActivationWipeState ∧
          (message.body = 1 ∨ message.body = 2)
    | _ => False

/-- The operations of the runs considered: any small frame and any full frame
of 14 digits while the center is low enough, and anything that is no frame;
none of them an applied mask wipe. -/
structure Admissible (cfg : Config) (m : Machine) (op : Operation) : Prop where
  small : ∀ env frame, op = .smallFrame env frame →
    m.pdIndex.toNat ≤ 65494
  full : ∀ env frame, op = .fullFrame env frame →
    m.pdIndex.toNat ≤ 65494 ∧ frame.keys.length = 14
  keepsMask : ¬ WipesMask cfg m op

/-- Nothing but a refusal: no credit moved, nothing reported as applied. -/
structure Refused (r : Response × Machine) : Prop where
  response : r.1 ≠ .validApplied
  credit : ∀ e ∈ r.2.effects, e.isCredit = false

/-- One operation as the receiver sees it: its message is received, or the
window stays and a message in it, if there is one, is refused. -/
inductive Received (m : Machine) (carried : Option Carried)
    (r : Response × Machine) : Prop
  | fresh (c : Carried) (hc : carried = some c) (hauth : c.authentic = true)
      (hin : InWindow m c.id)
      (hfresh : c.id.toNat ∉ m.stored.window.received)
      (hwindow : r.2.stored.window
        = c.kind.receive m.stored.window c.id.toNat)
  | kept (hwindow : r.2.stored.window = m.stored.window)
      (hrefused : ∀ c, carried = some c → c.kind ≠ .extended ∧ Refused r ∧
        (c.authentic = true → m.idFlag c.id.toUInt16 = true))

theorem fits_of_low {m : Machine} (hlow : m.pdIndex.toNat ≤ 65494)
    {id : UInt32} (hin : InWindow m id) (kind : Kind) : kind.Fits id := by
  have := hin.2
  cases kind <;> simp only [Kind.Fits] <;> omega

theorem Answered.received {payg : PaygState} {m : Machine} {c : Carried}
    {r : Response × Machine} (h : Answered payg m.quiet c r)
    (hm : Settled m) (hlow : m.pdIndex.toNat ≤ 65494)
    (hin : InWindow m c.id) (hkind : c.kind ≠ .extended)
    (hwipe : ∀ target, c.kind = .wipeState target →
      target = 1 ∨ target = 2 → r.1 ≠ .validApplied) :
    Received m (some c) r := by
  have hflag := idFlag_iff_received hm hlow hin
  cases h with
  | forged hauth =>
      refine .kept rfl fun c' hc' => ?_
      obtain rfl := Option.some.inj hc'
      refine ⟨hkind, ⟨by simp, by simp [Machine.quiet]⟩, fun h => ?_⟩
      rw [hauth] at h
      cases h
  | duplicate hauth hdup =>
      refine .kept rfl fun c' hc' => ?_
      obtain rfl := Option.some.inj hc'
      exact ⟨hkind, ⟨by simp, by simp [Machine.quiet]⟩, fun _ => hdup⟩
  | granted hauth hfresh hgranted =>
      refine .fresh c rfl hauth hin ?_ ?_
      · rw [← hflag]
        exact Bool.eq_false_iff.mp hfresh
      · rw [hgranted.window hwipe]
        exact window_mark ⟨hm.persisted.quiet, hm.center⟩ hin
          (fits_of_low hlow hin c.kind) hfresh

section

variable {m : Machine} {cfg : Config} {env : Env} {frame : Frame}

/-- An activation message has an id of the window. -/
theorem inWindow_infer (h : Settled m) (hlow : m.pdIndex.toNat ≤ 65494)
    {compressed : UInt8} (hc : compressed.toNat < 64) :
    InWindow m (inferFullMessageId compressed m.pdIndex) := by
  have hspec := inferFullMessageId_spec m.pdIndex h.center
    (by omega) hc
  exact ⟨hspec.1, hspec.2.1⟩

/-- The extended message found by the search is received. -/
theorem extendedSmallApplyInferred_received (h : Settled m)
    (hlow : m.pdIndex.toNat ≤ 65494) {message found : ExtendedSmallMessage}
    (hfound : extendedSmallInferWindowedMessageId message
      m.quiet.getCurrentMessageIdWindow env.secretKey = some found) :
    Received m (some ⟨.extended, found.inferredMessageId, true⟩)
      (.none, m.quiet.extendedSmallApplyInferred found) := by
  have hpd' : m.pdIndex.toNat + 40 < 2 ^ 32 := by omega
  have hspec := extendedSmallInferWindowedMessageId_spec hfound
  have hin : InWindow m found.inferredMessageId :=
    (windowIdWithinWindow_iff h.center hpd').mp hspec.within
  have hset := windowIdFlagAlreadySet_iff h.center hpd' hin.1 hin.2
  have hfresh : found.inferredMessageId.toNat
      ∉ m.stored.window.received := by
    rw [← hset]
    exact Bool.eq_false_iff.mp hspec.unused
  have hid : found.inferredMessageId.toUInt16.toNat
      = found.inferredMessageId.toNat := by
    rw [UInt32.toNat_toUInt16]
    have := hin.2
    omega
  have hnext : (found.inferredMessageId.toUInt16 + 1).toNat
      = found.inferredMessageId.toUInt16.toNat + 1 := by
    rw [UInt16.toNat_add, hid]
    show (found.inferredMessageId.toNat + 1) % 2 ^ 16 = _
    have := hin.2
    omega
  have hmask (e : Effect) := window_maskBelowMessageId (m := m.quiet.emit e)
    hnext (by rw [hid]; exact hin.1) h.center
  refine .fresh _ rfl rfl hin hfresh ?_
  simp only [Machine.extendedSmallApplyInferred, window_emit,
    window_resetCustomFlag]
  split <;> rw [hmask, hid] <;> rfl

theorem smallFrame_received (h : Settled m)
    (hop : Admissible cfg m (.smallFrame env frame)) :
    Received m (m.smallCarried cfg env frame)
      (m.perform cfg (.smallFrame env frame)) := by
  have hlow := hop.small env frame rfl
  have hkeeps := hop.keepsMask
  have hout := smallOutcome cfg env frame m.quiet
  unfold WipesMask at hkeeps
  show Received m (m.quiet.smallCarried cfg env frame)
    (m.quiet.smallParseAndApply cfg env frame)
  change ¬ ((m.quiet.smallParseAndApply cfg env frame).1 = .validApplied ∧ _)
    at hkeeps
  revert hout hkeeps
  generalize m.quiet.smallParseAndApply cfg env frame = r
  generalize m.quiet.smallCarried cfg env frame = carried
  intro hout hkeeps
  cases hout with
  | rejected => exact .kept rfl (by simp)
  | unread => exact .kept rfl (by simp)
  | extended hdecode hfound =>
      exact extendedSmallApplyInferred_received h hlow hfound
  | @message message hdecode htype =>
      have hspec := smallDecode_spec hdecode
      cases hc : message.carried env.secretKey with
      | none =>
          have hthree := typeCode_of_not_carried hspec.1 htype hc
          refine .kept (window_smallApply _ _ _ hthree ?_) (by simp)
          intro hbody happlied
          exact hkeeps ⟨happlied, message, hdecode, hthree, hbody⟩
      | some c =>
          obtain ⟨hadd, hid, hkind⟩ := smallCarried_kind hc
          obtain ⟨compressed, hlt, hinfer⟩ := hspec.2 hadd
          have hin : InWindow m c.id := by
            rw [hid, hinfer]
            exact inWindow_infer h hlow hlt
          have hans := smallApply_answered cfg h.persisted.quiet hc
          refine hans.received h hlow hin ?_ ?_
          · rcases hkind with hk | hk <;> rw [hk] <;> simp
          · rcases hkind with hk | hk <;> rw [hk] <;> simp

theorem fullFrame_received (h : Settled m)
    (hop : Admissible cfg m (.fullFrame env frame)) :
    Received m (m.fullCarried env frame)
      (m.perform cfg (.fullFrame env frame)) := by
  obtain ⟨hlow, hlength⟩ := hop.full env frame rfl
  have hkeeps := hop.keepsMask
  have hout := fullOutcome cfg env frame m.quiet
  have hcarried : m.quiet.fullCarried env frame
      = m.fullCarried env frame := by
    unfold Machine.fullCarried
    rw [fullParse_quiet]
  rw [hcarried] at hout
  unfold WipesMask at hkeeps
  rw [show m.perform cfg (.fullFrame env frame)
    = m.quiet.fullParseAndApply cfg env frame from rfl] at hkeeps ⊢
  revert hout hkeeps
  generalize m.quiet.fullParseAndApply cfg env frame = r
  generalize m.fullCarried env frame = carried
  intro hkeeps hout
  cases hout with
  | rejected => exact .kept rfl (by simp)
  | passthrough keys hresponse => exact .kept rfl (by simp)
  | @message message hdecode htype =>
      rw [fullParse_quiet] at hdecode
      have hparse : fullParseActivation m.pdIndex frame.keys
          env.stack.digitChars = some message := by
        rw [← hdecode, Machine.fullParse, if_pos hlength]
      obtain ⟨hlt, compressed, hcompressed, hinfer⟩ :=
        fullParseActivation_spec hparse
      cases hc : message.carried env.secretKey with
      | none => exact absurd hc (fullCarried_ne_none hlt)
      | some c =>
          obtain ⟨hid, -, hkind, hwipe⟩ := fullCarried_kind hc
          have hin : InWindow m c.id := by
            rw [hid, hinfer]
            exact inWindow_infer h hlow hcompressed
          have hans := fullApply_answered cfg h.persisted.quiet hc
          refine hans.received h hlow hin hkind fun target ht ht' happ => ?_
          obtain ⟨htype, rfl⟩ := hwipe target ht
          exact hkeeps ⟨happ, message, hdecode, htype, ht'⟩

end

/-- What the program does with an operation is what the receiver does. -/
theorem perform_received {m : Machine} {cfg : Config} {op : Operation}
    (h : Settled m) (hop : Admissible cfg m op) :
    Received m (m.carried cfg op) (m.perform cfg op) := by
  cases op with
  | smallFrame env frame => exact smallFrame_received h hop
  | fullFrame env frame => exact fullFrame_received h hop
  | setCustomFlag flag =>
      exact .kept (window_setCustomFlag m.quiet flag) (by
        simp [Machine.carried])
  | resetCustomFlag flag =>
      exact .kept (window_resetCustomFlag m.quiet flag) (by
        simp [Machine.carried])
  | reboot =>
      refine .kept ?_ (by simp [Machine.carried])
      show m.quiet.init.stored.window = _
      rw [h.persisted.quiet.init]
      rfl

/-! ## Received ids only accumulate -/

section

variable {m : Machine} {carried : Option Carried} {r : Response × Machine}

theorem Received.mono (h : Received m carried r) :
    m.stored.window.received ⊆ r.2.stored.window.received := by
  cases h with
  | fresh c hc hauth hin hfresh hwindow =>
      rw [hwindow]
      exact received_subset_receive hin.1 c.kind
  | kept hwindow hrefused => rw [hwindow]

theorem Received.center (h : Received m carried r) :
    m.stored.window.center ≤ r.2.stored.window.center := by
  cases h with
  | fresh c hc hauth hin hfresh hwindow =>
      rw [hwindow]
      exact center_le_receive _ _ _
  | kept hwindow hrefused => rw [hwindow]

/-- A message whose id had been received is refused. -/
theorem Received.refused (h : Received m carried r) {c : Carried}
    (hc : carried = some c)
    (hreceived : c.id.toNat ∈ m.stored.window.received) :
    c.kind ≠ .extended ∧ Refused r := by
  cases h with
  | fresh c' hc' hauth hin hfresh hwindow =>
      obtain rfl : c = c' := Option.some.inj (hc.symm.trans hc')
      exact absurd hreceived hfresh
  | kept hwindow hrefused =>
      exact ⟨(hrefused c hc).1, (hrefused c hc).2.1⟩

end

/-! ## Runs -/

/-- The operation carries an authentic ADD_CREDIT, SET_CREDIT, WIPE_STATE or
extended message that gets past the check of its id. An extended message has
passed it when an id was found for it. -/
def Consumes (cfg : Config) (m : Machine) (op : Operation) (id : UInt32) :
    Prop :=
  ∃ c, m.carried cfg op = some c ∧ c.id = id ∧ c.kind ≠ .demo ∧
    c.authentic = true ∧
    (c.kind = .extended ∨ (m.getFullMessageIdFlag id.toUInt16).1 = false)

/-- The operation is an applied SET_CREDIT, WIPE_STATE or extended message
with this id. -/
def AppliesUpTo (cfg : Config) (m : Machine) (op : Operation) (id : UInt32) :
    Prop :=
  ∃ c, m.carried cfg op = some c ∧ c.id = id ∧
    (c.kind = .extended ∨
      ((c.kind = .setCredit ∨ ∃ target, c.kind = .wipeState target) ∧
        (m.perform cfg op).1 = .validApplied))

section

variable {m : Machine} {cfg : Config} {op : Operation} {id : UInt32}

/-- A consumed id was not received before, and is received after. -/
theorem Consumes.received (h : Consumes cfg m op id) (hm : Settled m)
    (hop : Admissible cfg m op) :
    id.toNat ∉ m.stored.window.received ∧
      id.toNat ∈ (m.step cfg op).stored.window.received := by
  obtain ⟨c, hc, rfl, hdemo, hauth, hcheck⟩ := h
  cases perform_received hm hop with
  | fresh c' hc' hauth' hin hfresh hwindow =>
      obtain rfl : c = c' := Option.some.inj (hc.symm.trans hc')
      refine ⟨hfresh, ?_⟩
      show _ ∈ (m.perform cfg op).2.stored.window.received
      rw [hwindow]
      exact mem_receive hin.1 hdemo
  | kept hwindow hrefused =>
      obtain ⟨hkind, -, hflag⟩ := hrefused c hc
      rcases hcheck with hk | hcheck
      · exact absurd hk hkind
      · rw [Machine.getFullMessageIdFlag, hm.persisted.readNv] at hcheck
        exact absurd (hflag hauth) (Bool.eq_false_iff.mp hcheck)

/-- An applied SET_CREDIT, WIPE_STATE or extended message takes every id up to
its own. -/
theorem AppliesUpTo.received (h : AppliesUpTo cfg m op id) (hm : Settled m)
    (hop : Admissible cfg m op) :
    {j | j ≤ id.toNat} ⊆ (m.step cfg op).stored.window.received := by
  obtain ⟨c, hc, rfl, happlied⟩ := h
  cases perform_received hm hop with
  | fresh c' hc' hauth hin hfresh hwindow =>
      obtain rfl : c = c' := Option.some.inj (hc.symm.trans hc')
      have hreceive : c.kind.receive m.stored.window c.id.toNat
          = m.stored.window.takeUpTo c.id.toNat := by
        rcases happlied with hk | ⟨hk | ⟨target, hk⟩, -⟩ <;> rw [hk] <;> rfl
      show _ ⊆ (m.perform cfg op).2.stored.window.received
      rw [hwindow, hreceive, FlagWindow.received_takeUpTo hin.1]
      exact Set.subset_union_right
  | kept hwindow hrefused =>
      obtain ⟨hkind, hrefused, -⟩ := hrefused c hc
      rcases happlied with hk | ⟨-, happlied⟩
      · exact absurd hk hkind
      · exact absurd happlied hrefused.response

end

/-- In every run from the factory state: an id is consumed at most once, and
once a SET_CREDIT, WIPE_STATE or extended message with id `k` was applied, a
later message with an id up to `k` is refused, whatever its kind. -/
theorem replay_protection (cfg : Config) (nv : Nv.Store)
    (hnv : nv Nv.blockKeycodePro.blockId = none)
    (pre mid post : List Operation) (op op' : Operation)
    (hrun : Along (Machine.step cfg) (Admissible cfg) (Machine.boot nv)
      (pre ++ op :: (mid ++ op' :: post))) :
    (∀ id, Consumes cfg (run (Machine.step cfg) (Machine.boot nv) pre) op id →
      ¬ Consumes cfg
        (run (Machine.step cfg) (Machine.boot nv) (pre ++ op :: mid)) op' id) ∧
    (∀ k, AppliesUpTo cfg
        (run (Machine.step cfg) (Machine.boot nv) pre) op k →
      ∀ c, (run (Machine.step cfg) (Machine.boot nv)
          (pre ++ op :: mid)).carried cfg op' = some c →
        c.id ≤ k → c.kind ≠ .extended ∧
          Refused ((run (Machine.step cfg) (Machine.boot nv)
            (pre ++ op :: mid)).perform cfg op')) := by
  have hstep : ∀ m op, Settled m → Admissible cfg m op →
      Settled (m.step cfg op) := fun m op h _ => h.step cfg op
  have hmono : ∀ m op, Settled m → Admissible cfg m op →
      m.stored.window.received
        ⊆ (m.step cfg op).stored.window.received :=
    fun m op h hop => (perform_received h hop).mono
  have hboot := Settled.boot hnv
  -- the second operation's state, and its guard
  have hsplit : pre ++ op :: (mid ++ op' :: post)
      = (pre ++ op :: mid) ++ op' :: post := by simp
  have hrun' := hrun
  rw [hsplit, along_append] at hrun'
  have hm' := run_invariant hstep hboot hrun'.1
  have hop' := hrun'.2.1
  constructor
  · intro id hconsumes hconsumes'
    have hlater := spent_later hstep hmono hboot hrun
      (T := {id.toNat}) fun h hop => by
        rw [Set.singleton_subset_iff]
        exact (hconsumes.received h hop).2
    exact (hconsumes'.received hm' hop').1 (hlater rfl)
  · intro k happlies c hc hle
    have hlater := spent_later hstep hmono hboot hrun
      (T := {j | j ≤ k.toNat}) fun h hop => happlies.received h hop
    refine (perform_received hm' hop').refused hc (hlater ?_)
    exact UInt32.le_iff_toNat_le.mp hle

/-- A SET_CREDIT frame with id 63, for the key of zeros. -/
def setCreditFrame : Frame :=
  ⟨[54, 51, 53, 51, 48, 53, 49, 53, 57, 54, 49, 49, 52, 56], by decide⟩

theorem setCreditFrame_admissible {m : Machine} (hm : m.pdIndex ≤ 65494)
    (hparse : (m.fullParse (testEnv .enabled) setCreditFrame).1.map
      FullMessage.typeCode = some fullActivationSetCredit) :
    Admissible (.default .full) m
      (.fullFrame (testEnv .enabled) setCreditFrame) where
  small := by simp
  full := by
    rintro env frame h
    cases h
    exact ⟨UInt32.le_iff_toNat_le.mp hm, rfl⟩
  keepsMask := by
    rintro ⟨-, message, hdecode, htype, -⟩
    rw [hdecode, Option.map_some, htype] at hparse
    exact absurd hparse (by decide)

/-- The same SET_CREDIT frame before and after a power cycle. -/
theorem replay_protection_setCreditFrame :
    AppliesUpTo (.default .full) (Machine.boot fun _ => none)
        (.fullFrame (testEnv .enabled) setCreditFrame) 63 ∧
      Refused (Machine.perform (.default .full)
        (run (Machine.step (.default .full)) (Machine.boot fun _ => none)
          [.fullFrame (testEnv .enabled) setCreditFrame, .reboot])
        (.fullFrame (testEnv .enabled) setCreditFrame)) := by
  have happlies : AppliesUpTo (.default .full) (Machine.boot fun _ => none)
      (.fullFrame (testEnv .enabled) setCreditFrame) 63 :=
    ⟨⟨.setCredit, 63, true⟩, by decide +kernel, rfl,
      Or.inr ⟨Or.inl rfl, by decide +kernel⟩⟩
  have hrun : Along (Machine.step (.default .full))
      (Admissible (.default .full)) (Machine.boot fun _ => none)
      ([] ++ .fullFrame (testEnv .enabled) setCreditFrame
        :: ([.reboot] ++ .fullFrame (testEnv .enabled) setCreditFrame
          :: [])) := by
    refine ⟨setCreditFrame_admissible (by decide +kernel)
      (by decide +kernel), ⟨by simp, by simp, ?_⟩,
      setCreditFrame_admissible (by decide +kernel) (by decide +kernel),
      trivial⟩
    rintro ⟨-, h⟩
    exact h
  have hmain := replay_protection (.default .full) (fun _ => none) rfl [] _ _
    _ _ hrun
  exact ⟨happlies, (hmain.2 63 happlies ⟨.setCredit, 63, true⟩
    (by decide +kernel) (by decide)).2⟩

end Nexus.Keycode
