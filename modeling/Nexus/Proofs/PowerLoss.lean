import Nexus.Proofs.Again
import Nexus.Proofs.Rejection
import Nexus.Proofs.Replay

/-!
# Power loss in the middle of a message

The trace of a message is cut by a power loss, and what was written to NV by
then is what the device starts from. A message that marks its id before it
touches credit cannot be used again once it has touched credit; both protocols
work that way. The extended message does not: it sets the credit first, and a
cut right after that leaves NV as it was.

The other exception is a full frame of seven digits that is read as an
activation message. Its id is 0, and once the window has moved there is no flag
for that id.
-/

namespace Nexus.Keycode

open Nexus.Util Nexus.Lib

/-- `nexus_keycode_pro_get_full_message_id_flag` finds the id marked. -/
def Stored.Marks (s : Stored) (id : UInt32) : Prop :=
  (Machine.ofStored s).idFlag id.toUInt16 = true

/-- The frame carries an ADD_CREDIT, SET_CREDIT, WIPE_STATE or extended message
that is applied. An extended message is applied when an id is found for it. -/
structure AppliesFrame (cfg : Config) (m : Machine) (op : Operation)
    (c : Carried) : Prop where
  carried : m.carried cfg op = some c
  kind : c.kind ≠ .demo
  applied : c.kind ≠ .extended → (m.perform cfg op).1 = .validApplied

/-- Credit is touched only after a write to NV that marks the id, and wherever
the trace is cut after that, the device that starts from what was written
refuses the frame. -/
structure PowerSafe (cfg : Config) (m : Machine) (op : Operation)
    (id : UInt32) : Prop where
  preceded : ∀ before e after,
    (m.perform cfg op).2.effects = before ++ e :: after →
    e.isCredit = true →
    ∃ s : Stored, .nvWrite Nv.blockKeycodePro.blockId s.block ∈ before ∧
      s.Marks id
  once : ∀ before after,
    (m.perform cfg op).2.effects = before ++ after →
    (∃ e ∈ before, e.isCredit = true) →
    ∀ op', SameFrame op op' →
      ∀ e ∈ ((Machine.boot (nvAfter m.nv before)).perform cfg op').2.effects,
        e.isCredit = false

/-! ## Traces -/

/-- What a trace leaves in a block is what was there or what it wrote last. -/
theorem nvAfter_eq_or_mem (nv : Nv.Store) (es : List Effect) (i : UInt16) :
    nvAfter nv es i = nv i ∨
      ∃ block, nvAfter nv es i = some block ∧ .nvWrite i block ∈ es := by
  induction es generalizing nv with
  | nil => exact Or.inl rfl
  | cons e es ih =>
      cases e with
      | nvWrite j block =>
          rcases ih (Function.update nv j (some block)) with
            h | ⟨block', h, hmem⟩
          · by_cases hij : i = j
            · subst hij
              refine Or.inr ⟨block, ?_, by simp⟩
              rw [nvAfter, h, Function.update_self]
            · refine Or.inl ?_
              rw [nvAfter, h, Function.update_of_ne hij]
          · exact Or.inr ⟨block', h, List.mem_cons_of_mem _ hmem⟩
      | _ =>
          rcases ih nv with h | ⟨block', h, hmem⟩
          · exact Or.inl h
          · exact Or.inr ⟨block', h, List.mem_cons_of_mem _ hmem⟩

/-- In a trace of writes with one credit call behind them, that call is the
only place for credit. -/
theorem credit_last {ws before after : List Effect} {e e' : Effect}
    (hws : ∀ w ∈ ws, w.isCredit = false)
    (h : ws ++ [e] = before ++ e' :: after) (hcredit : e'.isCredit = true) :
    before = ws ∧ e' = e ∧ after = [] := by
  rcases List.append_eq_append_iff.mp h with ⟨l, h1, h2⟩ | ⟨l, h1, h2⟩
  · cases l with
    | nil =>
        simp only [List.append_nil, List.nil_append, List.cons.injEq] at h1 h2
        exact ⟨h1, h2.1.symm, h2.2.symm⟩
    | cons x l =>
        have hlen := congrArg List.length h2
        simp at hlen
  · cases l with
    | nil =>
        simp only [List.append_nil, List.nil_append, List.cons.injEq] at h1 h2
        exact ⟨h1.symm, h2.1, h2.2⟩
    | cons x l =>
        rw [List.cons_append, List.cons.injEq] at h2
        have hmem : e' ∈ ws := by rw [h1, h2.1]; simp
        rw [hws e' hmem] at hcredit
        cases hcredit

theorem not_credit_of_nvWrite {e : Effect} (h : e.isNvWrite = true) :
    e.isCredit = false := by
  cases e <;> first | rfl | cases h

/-- Power on after a completed operation. -/
theorem Persisted.boot_eq {m : Machine} (h : Persisted m) :
    Machine.boot m.nv = m.quiet :=
  h.quiet.init

section

variable {m : Machine} {cfg : Config} {op : Operation} {c : Carried}

theorem mark_persisted (h : Persisted m) (kind : Kind) (id : UInt32) :
    Persisted (kind.mark m id) := by
  cases kind with
  | addCredit => exact h.setFullMessageIdFlag _
  | demo => exact h
  | _ => exact h.maskBelowMessageId _

/-- Marking a fresh id ends with a write of the structure that has it. -/
theorem mark_mem_effects (h : Settled m) (hm : m.effects = [])
    {kind : Kind} {id : UInt32} (hin : InWindow m id)
    (hkind : kind ≠ .demo) (hfits : kind.Fits id)
    (hflag : m.idFlag id.toUInt16 = false) :
    .nvWrite Nv.blockKeycodePro.blockId (kind.mark m id).stored.block
      ∈ (kind.mark m id).effects := by
  have hmarked := idFlag_mark_of_fits h hin _ hkind hfits hflag
  have hne : (kind.mark m id).stored ≠ m.stored := by
    intro heq
    rw [idFlag_congr _ _ (congrArg Stored.window heq), hflag] at hmarked
    cases hmarked
  have hpersisted := mark_persisted h.persisted kind id
  obtain ⟨es, htraced, -⟩ := mark_writes m kind id
  rw [htraced.effects, hm, List.nil_append]
  have hnv := congrFun htraced.nv Nv.blockKeycodePro.blockId
  rcases nvAfter_eq_or_mem m.nv es Nv.blockKeycodePro.blockId with
    hsame | ⟨block, hblock, hmem⟩
  · -- nothing was written, so the structure did not change
    rw [hsame] at hnv
    rcases h.persisted with ⟨h1, h2⟩ | h1 <;>
      rcases hpersisted with ⟨h3, h4⟩ | h3
    · exact absurd (h4.trans h2.symm) hne
    · rw [h3, h1] at hnv
      cases hnv
    · rw [h3, h1] at hnv
      cases hnv
    · rw [h3, h1] at hnv
      exact absurd (Stored.block_injective (Option.some.inj hnv)) hne
  · rw [hblock] at hnv
    rcases hpersisted with ⟨h3, -⟩ | h3
    · rw [h3] at hnv
      cases hnv
    · rw [h3] at hnv
      rw [Option.some.inj hnv]
      exact hmem

/-- What a granted message does behind its mark. -/
theorem Granted.trace {payg : PaygState} {marked : Machine} {kind : Kind}
    {r : Response × Machine} (h : Granted payg marked kind r)
    (happlied : r.1 = .validApplied) (hdemo : kind ≠ .demo)
    (hwipe : ∀ target, kind = .wipeState target → target = 1 ∨ target = 2 →
      r.1 ≠ .validApplied) :
    (∃ e, e.isCredit = true ∧ r.2 = marked.emit e) ∨
      r.2 = marked.resetCustomFlag .restricted := by
  cases h with
  | @credit kind e he => exact Or.inl ⟨e, he, rfl⟩
  | flag => exact Or.inr rfl
  | refused => cases happlied
  | demo => exact absurd rfl hdemo
  | wipe ht => exact absurd rfl (hwipe _ rfl ht)
  | wipeCredit ht => exact absurd rfl (hwipe _ rfl ht)
  | unsupported => cases happlied

theorem resetCustomFlag_effects (flag : CustomFlag)
    (hm : ∀ e ∈ m.effects, e.isCredit = false) :
    ∀ e ∈ (m.resetCustomFlag flag).effects, e.isCredit = false := by
  obtain ⟨es, ht, hes⟩ := Writes.ofStored_update m
    { m.stored with customFlags := m.stored.customFlags &&& ~~~flag.bit }
  intro e he
  unfold Machine.resetCustomFlag at he
  rw [Machine.emit, ht.effects] at he
  simp only [List.mem_append, List.mem_singleton] at he
  rcases he with (he | he) | rfl
  · exact hm e he
  · exact not_credit_of_nvWrite (hes e he)
  · rfl

/-- Mask wipes aside, a granted WIPE_STATE message has another target. -/
theorem wipe_target_of_keeps (hc : m.carried cfg op = some c)
    (hkeeps : ¬ WipesMask cfg m op) :
    ∀ target, c.kind = .wipeState target → target = 1 ∨ target = 2 →
      (m.perform cfg op).1 ≠ .validApplied := by
  intro target hkind htarget happlied
  cases op with
  | smallFrame env frame =>
      simp only [Machine.carried, Machine.smallCarried] at hc
      split at hc
      · obtain ⟨found, -, rfl⟩ := Option.map_eq_some_iff.mp hc
        cases hkind
      · obtain ⟨message, -, hmessage⟩ := Option.bind_eq_some_iff.mp hc
        rcases (smallCarried_kind hmessage).2.2 with hk | hk <;>
          rw [hk] at hkind <;> cases hkind
  | fullFrame env frame =>
      obtain ⟨message, hdecode, hmessage⟩ := Option.bind_eq_some_iff.mp hc
      obtain ⟨htype, rfl⟩ := (fullCarried_kind hmessage).2.2.2 target hkind
      exact hkeeps ⟨happlied, message, hdecode, htype, htarget⟩
  | _ => cases hc

/-- Where the window stands once an id of it has been marked. -/
theorem moved_mark (h : Settled m) (hlow : m.pdIndex.toNat ≤ 65494)
    {kind : Kind} {id : UInt32} (hin : InWindow m id) (hkind : kind ≠ .demo)
    (hflag : m.idFlag id.toUInt16 = false) :
    Moved m (kind.mark m id) id := by
  have hcenter : (kind.mark m id).pdIndex.toNat
      = max m.pdIndex.toNat id.toNat := by
    show (kind.mark m id).stored.window.center = _
    rw [window_mark h hin (fits_of_low hlow hin kind) hflag]
    exact center_receive hkind
  obtain ⟨hlo, hhi⟩ := hin
  have := h.center
  refine ⟨h.center, by omega, by omega, by omega, ?_, ?_⟩ <;> omega

/-- The messages of the two protocols mark first. -/
theorem powerSafe_of_inWindow (h : Settled m)
    (hlow : m.pdIndex.toNat ≤ 65494) (happ : AppliesFrame cfg m op c)
    (hkeeps : ¬ WipesMask cfg m op) (hkind : c.kind ≠ .extended)
    (hin : InWindow m c.id) : PowerSafe cfg m op c.id := by
  obtain ⟨payg, hans⟩ := perform_answered h.persisted happ.carried hkind
  obtain ⟨hauth, hflag, hgranted⟩ := hans.of_applied (happ.applied hkind)
  have hsettled : Settled m.quiet := ⟨h.persisted.quiet, h.center⟩
  have hfits := fits_of_low hlow hin c.kind
  have hws : ∀ w ∈ (c.kind.mark m.quiet c.id).effects, w.isCredit = false :=
    fun w hw => not_credit_of_nvWrite (mark_effects rfl c.kind c.id w hw)
  have hmem := mark_mem_effects hsettled rfl hin happ.kind hfits hflag
  have hmarked := idFlag_mark_of_fits hsettled hin _ happ.kind hfits hflag
  have hmoved : Moved m (c.kind.mark m.quiet c.id).quiet c.id := by
    have hmoved := moved_mark hsettled hlow hin happ.kind hflag
    exact ⟨hmoved.center, hmoved.max, hmoved.center', hmoved.max',
      hmoved.inWindow⟩
  have hpersisted := mark_persisted hsettled.persisted c.kind c.id
  obtain ⟨es, htraced, -⟩ := mark_writes m.quiet c.kind c.id
  have hnv : (c.kind.mark m.quiet c.id).nv
      = nvAfter m.nv (c.kind.mark m.quiet c.id).effects := by
    rw [htraced.nv, htraced.effects]
    rfl
  rcases hgranted.trace (happ.applied hkind) happ.kind
    (wipe_target_of_keeps happ.carried hkeeps) with ⟨e, he, hr⟩ | hr
  · have heffects : (m.perform cfg op).2.effects
        = (c.kind.mark m.quiet c.id).effects ++ [e] := by rw [hr]; rfl
    constructor
    · intro before e' after htrace hcredit
      rw [heffects] at htrace
      obtain ⟨rfl, -, -⟩ := credit_last hws htrace hcredit
      exact ⟨_, hmem, (idFlag_congr _ (c.kind.mark m.quiet c.id)
        rfl _).trans hmarked⟩
    · rintro before after htrace ⟨e', he', hcredit⟩ op' hsame
      obtain ⟨b1, b2, rfl⟩ := List.append_of_mem he'
      rw [heffects, List.append_assoc, List.cons_append] at htrace
      obtain ⟨rfl, rfl, hrest⟩ := credit_last hws htrace hcredit
      obtain ⟨rfl, -⟩ := List.append_eq_nil_iff.mp hrest
      -- the cut is behind the only credit call, so NV holds the mark
      have hboot : nvAfter m.nv ((c.kind.mark m.quiet c.id).effects ++ [e'])
          = (c.kind.mark m.quiet c.id).nv := by
        rw [nvAfter_append, hnv]
        cases e' <;> first | rfl | cases he
      rw [hboot, hpersisted.boot_eq]
      obtain ⟨payg', hans'⟩ := perform_answered hpersisted.quiet
        (carried_again happ.carried hkind hmoved hsame) hkind
      exact (hans'.of_duplicate rfl hauth hmarked).2
  · have hnone : ∀ e ∈ (m.perform cfg op).2.effects, e.isCredit = false := by
      rw [hr]
      exact resetCustomFlag_effects _ hws
    constructor
    · intro before e' after htrace hcredit
      rw [hnone e' (by rw [htrace]; simp)] at hcredit
      cases hcredit
    · rintro before after htrace ⟨e', he', hcredit⟩
      rw [hnone e' (by rw [htrace]; simp [he'])] at hcredit
      cases hcredit

/-! ## What is not safe -/

/-- The extended message begins with the credit call. -/
theorem extendedSmallApplyInferred_effects (message : ExtendedSmallMessage) :
    ∃ e rest, e.isCredit = true ∧
      (m.quiet.extendedSmallApplyInferred message).effects = e :: rest := by
  obtain ⟨e, he, hfirst⟩ : ∃ e : Effect, e.isCredit = true ∧
      (if smallGetSetCreditIncrementDays message.incrementId
          ≠ smallUnlockIncrement then
        m.quiet.emit (.creditSet ((smallGetSetCreditIncrementDays
          message.incrementId).toUInt32 * secondsInDay))
      else m.quiet.emit .creditUnlock) = m.quiet.emit e := by
    split
    · exact ⟨_, rfl, rfl⟩
    · exact ⟨_, rfl, rfl⟩
  obtain ⟨es, ht, -⟩ := Writes.maskBelowMessageId (m.quiet.emit e)
    (message.inferredMessageId.toUInt16 + 1)
  obtain ⟨es', ht', -⟩ := Writes.ofStored_update
    ((m.quiet.emit e).maskBelowMessageId
      (message.inferredMessageId.toUInt16 + 1))
    { ((m.quiet.emit e).maskBelowMessageId
        (message.inferredMessageId.toUInt16 + 1)).stored with
      customFlags := ((m.quiet.emit e).maskBelowMessageId
        (message.inferredMessageId.toUInt16 + 1)).stored.customFlags
          &&& ~~~CustomFlag.restricted.bit }
  refine ⟨e, es ++ es' ++ [.customFlagChanged .restricted false,
    .feedbackStart .messageApplied], he, ?_⟩
  unfold Machine.extendedSmallApplyInferred Machine.resetCustomFlag
  simp only []
  rw [hfirst]
  simp only [Machine.emit] at ht ht' ⊢
  rw [ht'.effects, ht.effects]
  simp [Machine.quiet]

theorem not_powerSafe_of_extended (happ : AppliesFrame cfg m op c)
    (hkind : c.kind = .extended) : ¬ PowerSafe cfg m op c.id := by
  intro hsafe
  have hc := happ.carried
  obtain ⟨e, rest, he, heffects⟩ : ∃ e rest, e.isCredit = true ∧
      (m.perform cfg op).2.effects = e :: rest := by
    cases op with
    | smallFrame env frame =>
        have hout := smallOutcome cfg env frame m.quiet
        change m.quiet.smallCarried cfg env frame = some c at hc
        rw [hc] at hout
        show ∃ e rest, e.isCredit = true ∧
          (m.quiet.smallParseAndApply cfg env frame).2.effects = e :: rest
        revert hout
        generalize m.quiet.smallParseAndApply cfg env frame = r
        intro hout
        generalize hcarried : some c = carried at hout
        cases hout with
        | rejected => cases hcarried
        | unread => cases hcarried
        | message =>
            rcases (smallCarried_kind hcarried.symm).2.2 with hk | hk <;>
              rw [hk] at hkind <;> cases hkind
        | extended => exact extendedSmallApplyInferred_effects _
    | fullFrame env frame =>
        obtain ⟨message, -, hmessage⟩ := Option.bind_eq_some_iff.mp hc
        exact absurd hkind (fullCarried_kind hmessage).2.2.1
    | _ => cases hc
  obtain ⟨s, hmem, -⟩ := hsafe.preceded [] e rest heffects he
  cases hmem

/-- An applied activation message without a body touches credit. -/
theorem fullApply_bodyless (h : Persisted m) {env : Env}
    {message : FullMessage} (hc : message.carried env.secretKey = some c)
    (hbody : message.body = 0) (hdemo : c.kind ≠ .demo)
    (happlied : (m.fullApply cfg env message).1 = .validApplied) :
    ∃ e, e.isCredit = true ∧
      (m.fullApply cfg env message).2 = (c.kind.mark m c.id).emit e := by
  rw [fullApply_of_activation (fullCarried_typeCode hc)] at happlied ⊢
  split at happlied
  · cases happlied
  · next hauth =>
      rw [if_neg hauth]
      unfold Machine.fullApplyActivation Machine.getFullMessageIdFlag
        at happlied ⊢
      simp only [h.readNv] at happlied ⊢
      split at happlied
      · cases happlied
      · next hflag =>
          rw [if_neg hflag]
          unfold FullMessage.carried at hc
          simp only [] at hc
          split at hc
          · next hadd =>
              obtain rfl := Option.some.inj hc
              rw [if_pos hadd] at happlied ⊢
              split at happlied
              · next hpayg =>
                  rw [if_pos hpayg]
                  exact ⟨_, rfl, rfl⟩
              · cases happlied
          · next hadd =>
              rw [if_neg hadd]
              split at hc
              · next hset =>
                  obtain rfl := Option.some.inj hc
                  have hne : message.typeCode ≠ fullActivationDemoCode := by
                    rw [hset]; decide
                  rw [if_neg hne, if_pos hset]
                  split <;> exact ⟨_, rfl, rfl⟩
              · next hset =>
                  split at hc
                  · next hwipe =>
                      obtain rfl := Option.some.inj hc
                      have hne : message.typeCode
                          ≠ fullActivationDemoCode := by
                        rw [hwipe]; decide
                      rw [if_neg hne, if_neg hset, if_pos hwipe]
                      unfold Machine.fullApplyWipeState
                      simp only []
                      rw [if_neg (by rw [hbody]; decide), if_pos hbody]
                      exact ⟨_, rfl, rfl⟩
                  · split at hc
                    · obtain rfl := Option.some.inj hc
                      exact absurd rfl hdemo
                    · cases hc

theorem mem_updateNvBlocks {e : Effect}
    (he : e ∈ m.updateNvBlocks.effects) :
    e ∈ m.effects ∨
      e = .nvWrite Nv.blockKeycodePro.blockId m.stored.block := by
  unfold Machine.updateNvBlocks Machine.nvUpdate at he
  split at he
  · next block hblock =>
      rw [Nv.eq_newBlock_of_updateWrites hblock] at he
      simpa [Machine.emit, Stored.block] using he
  · exact Or.inl he

/-- Marking an id under the window leaves the window where it is. -/
theorem mark_zero_effects (h : Persisted m) (hm : m.effects = [])
    (hpd : 23 < m.pdIndex.toNat) (hflag : m.idFlag 0 = false)
    {kind : Kind} {s : Stored}
    (hmem : .nvWrite Nv.blockKeycodePro.blockId s.block
      ∈ (kind.mark m 0).effects) : s.pdIndex = m.pdIndex := by
  have hbelow : (0 : UInt16).toNat + 23 < m.pdIndex.toNat := hpd
  have hone {flags : Vector UInt8 5}
      (hmem : .nvWrite Nv.blockKeycodePro.blockId s.block
        ∈ (m.setFlags flags).updateNvBlocks.effects) :
      s.pdIndex = m.pdIndex := by
    rcases mem_updateNvBlocks hmem with hmem | hwrite
    · change _ ∈ m.effects at hmem
      rw [hm] at hmem
      cases hmem
    · rw [Stored.block_injective (Effect.nvWrite.inj hwrite).2]
      rfl
  have hmask (hmem : .nvWrite Nv.blockKeycodePro.blockId s.block
      ∈ (m.maskBelowMessageId 1).effects) : s.pdIndex = m.pdIndex := by
    unfold Machine.maskBelowMessageId at hmem
    rw [if_neg (by decide)] at hmem
    split at hmem
    · rw [hm] at hmem
      cases hmem
    · rw [show (1 : UInt16) - 1 = 0 from rfl,
        updateWindowAndMessageMaskId_of_below hbelow] at hmem
      exact hone hmem
  cases kind with
  | addCredit =>
      change _ ∈ (m.setFullMessageIdFlag 0).effects at hmem
      unfold Machine.setFullMessageIdFlag Machine.getFullMessageIdFlag at hmem
      simp only [h.readNv, hflag, Bool.false_eq_true, if_false,
        updateWindowAndMessageMaskId_of_below hbelow] at hmem
      exact hone hmem
  | demo =>
      change _ ∈ m.effects at hmem
      rw [hm] at hmem
      cases hmem
  | _ => exact hmask hmem

/-- A message out of the window comes from a frame that is not fourteen keys
long: its id is 0, and it has no body. -/
theorem fullFrame_of_not_inWindow (h : Settled m)
    (hlow : m.pdIndex.toNat ≤ 65494) (hc : m.carried cfg op = some c)
    (hkind : c.kind ≠ .extended) (hin : ¬ InWindow m c.id) :
    ∃ env frame message, op = .fullFrame env frame ∧
      (m.fullParse env frame).1 = some message ∧
      message.carried env.secretKey = some c ∧
      message.fullMessageId = 0 ∧ message.body = 0 := by
  cases op with
  | smallFrame env frame =>
      simp only [Machine.carried, Machine.smallCarried] at hc
      split at hc
      · obtain ⟨found, -, rfl⟩ := Option.map_eq_some_iff.mp hc
        exact absurd rfl hkind
      · obtain ⟨message, hdecode, hmessage⟩ := Option.bind_eq_some_iff.mp hc
        obtain ⟨htype, hid, -⟩ := smallCarried_kind hmessage
        obtain ⟨compressed, hlt, hinfer⟩ :=
          (smallDecode_spec hdecode).2 htype
        rw [hid, hinfer] at hin
        exact absurd (inWindow_infer h hlow hlt) hin
  | fullFrame env frame =>
      obtain ⟨message, hdecode, hmessage⟩ := Option.bind_eq_some_iff.mp hc
      refine ⟨env, frame, message, rfl, hdecode, hmessage, ?_⟩
      have htype := fullCarried_typeCode hmessage
      by_cases hlen : frame.keys.length = 14
      · rw [fullParse_activation hlen] at hdecode
        obtain ⟨-, compressed, hlt, hinfer⟩ :=
          fullParseActivation_spec hdecode
        rw [(fullCarried_kind hmessage).1, hinfer] at hin
        exact absurd (inWindow_infer h hlow hlt) hin
      · rw [Machine.fullParse, if_neg hlen] at hdecode
        exact (fullParseFactoryAndPassthrough_again m env hdecode
           (UInt8.lt_trans htype (by decide))).2
  | _ => cases hc

theorem not_powerSafe_of_not_inWindow (h : Settled m)
    (hlow : m.pdIndex.toNat ≤ 65494) (happ : AppliesFrame cfg m op c)
    (hkind : c.kind ≠ .extended) (hin : ¬ InWindow m c.id) :
    ¬ PowerSafe cfg m op c.id := by
  intro hsafe
  obtain ⟨env, frame, message, rfl, hdecode, hmessage, hid, hbody⟩ :=
    fullFrame_of_not_inWindow h hlow happ.carried hkind hin
  have hid' : c.id = 0 := (fullCarried_kind hmessage).1.trans hid
  have htype := fullCarried_typeCode hmessage
  have hperform : m.perform cfg (.fullFrame env frame)
      = m.quiet.fullApply cfg env message := by
    refine fullParseAndApply_of_parse ?_ ?_
    · rw [fullParse_quiet, hdecode]
    · intro heq
      rw [heq] at htype
      exact absurd htype (by decide)
  have happlied := happ.applied hkind
  obtain ⟨payg, hans⟩ := perform_answered h.persisted happ.carried hkind
  obtain ⟨-, hflag, -⟩ := hans.of_applied happlied
  rw [hperform] at happlied
  obtain ⟨e, he, hr⟩ := fullApply_bodyless h.persisted.quiet hmessage hbody
    happ.kind happlied
  obtain ⟨s, hmem, hmarks⟩ := hsafe.preceded
    (c.kind.mark m.quiet c.id).effects e [] (by rw [hperform, hr]; rfl) he
  have hpd : 23 < m.pdIndex.toNat := by
    rw [hid'] at hin
    by_contra hle
    refine hin ⟨?_, Nat.zero_le _⟩
    show m.pdIndex.toNat ≤ 0 + 23
    omega
  rw [hid'] at hmem hmarks hflag
  have hsame := mark_zero_effects h.persisted.quiet rfl hpd hflag hmem
  have hbelow : (Machine.ofStored s).idFlag (0 : UInt32).toUInt16 = false := by
    apply idFlag_of_below
    show 0 < (s.pdIndex - receiveWindowBeforePd).toNat
    rw [hsame, UInt32.toNat_sub, receiveWindowBeforePd_toNat]
    have := m.pdIndex.toNat_lt
    show 0 < (2 ^ 32 - 23 + m.pdIndex.toNat) % 2 ^ 32
    omega
  rw [Stored.Marks, hbelow] at hmarks
  cases hmarks

/-- An applied message is safe against power loss exactly when it is not an
extended message and its id has a place in the window. -/
theorem powerSafe_iff (h : Settled m) (hlow : m.pdIndex.toNat ≤ 65494)
    (happ : AppliesFrame cfg m op c) (hkeeps : ¬ WipesMask cfg m op) :
    PowerSafe cfg m op c.id ↔ c.kind ≠ .extended ∧ InWindow m c.id := by
  constructor
  · intro hsafe
    have hkind : c.kind ≠ .extended := fun hext =>
      not_powerSafe_of_extended happ hext hsafe
    refine ⟨hkind, ?_⟩
    by_contra hin
    exact not_powerSafe_of_not_inWindow h hlow happ hkind hin hsafe
  · rintro ⟨hkind, hin⟩
    exact powerSafe_of_inWindow h hlow happ hkeeps hkind hin

end

/-- SET_CREDIT with id 63, on a new unit. -/
theorem setCreditFrame_powerSafe :
    PowerSafe (.default .full) (.ofStored .factory)
      (.fullFrame (testEnv .enabled) setCreditFrame) 63 := by
  refine (powerSafe_iff (c := ⟨.setCredit, 63, true⟩)
    ⟨.ofStored .factory, by decide⟩ (by decide)
    ⟨by decide +kernel, by simp, fun _ => by decide +kernel⟩ ?_).mpr
      ⟨by simp, by decide, by decide⟩
  exact (setCreditFrame_admissible (by decide) (by decide +kernel)).keepsMask

/-- SET_CREDIT_AND_WIPE_FLAG with id 25 and thirty days, keys `54232534423442`,
authentic under the key of zeros. -/
def extendedFrame : Frame :=
  ⟨[53, 52, 50, 51, 50, 53, 51, 52, 52, 50, 51, 52, 52, 50], by decide⟩

/-- The credit is set, the power goes, and the same frame sets it again. -/
theorem extendedFrame_sets_twice :
    AppliesFrame (.default .small) (.ofStored .factory)
        (.smallFrame (testEnv .enabled) extendedFrame)
        ⟨.extended, 25, true⟩ ∧
      .creditSet 2592000 ∈ ((Machine.boot
        (nvAfter (Machine.ofStored .factory).nv
          [.creditSet 2592000])).perform (.default .small)
            (.smallFrame (testEnv .enabled) extendedFrame)).2.effects ∧
      ¬ PowerSafe (.default .small) (.ofStored .factory)
        (.smallFrame (testEnv .enabled) extendedFrame) 25 := by
  have hagain : .creditSet 2592000 ∈ ((Machine.boot
      (nvAfter (Machine.ofStored .factory).nv
        [.creditSet 2592000])).perform (.default .small)
          (.smallFrame (testEnv .enabled) extendedFrame)).2.effects := by
    decide +kernel
  refine ⟨⟨by decide +kernel, by simp, fun h => absurd rfl h⟩, hagain,
    fun hsafe => ?_⟩
  have htrace : ((Machine.ofStored .factory).perform (.default .small)
      (.smallFrame (testEnv .enabled) extendedFrame)).2.effects
        = [.creditSet 2592000] ++ ((Machine.ofStored .factory).perform
          (.default .small)
          (.smallFrame (testEnv .enabled) extendedFrame)).2.effects.tail := by
    decide +kernel
  have hrefused := hsafe.once _ _ htrace
    ⟨.creditSet 2592000, List.mem_singleton_self _, rfl⟩ _
    (.small rfl extendedFrame) _ hagain
  cases hrefused

end Nexus.Keycode
