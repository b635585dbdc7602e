import Nexus.Proofs.Bitstream
import Nexus.Proofs.Infer

/-!
# What a frame carries

A frame goes through the parsers before anything happens, and the parsers read
nothing of the machine but the center of its window. So what a frame does is
settled by the message in it, and this file says so once: `SmallOutcome` and
`FullOutcome` list the ways a frame can end, each with the message that was
found, and `Granted` lists what an authenticated message with a fresh id does
after its id has been marked. Proofs about frames go through these lists
instead of through the code.
-/

namespace Nexus.Keycode

open Nexus.Util Nexus.Lib

/-- The messages that carry a message id. -/
inductive Kind
  | addCredit
  | setCredit
  | wipeState (target : UInt32)
  | demo
  | extended
deriving DecidableEq

/-- A message with an id, and whether its check is the one computed over it. -/
structure Carried where
  kind : Kind
  id : UInt32
  authentic : Bool
deriving DecidableEq

/-! ## Decoding -/

/-- The message of a small frame, at a center. -/
def smallDecode (cfg : Config) (env : Env) (frame : Frame)
    (pdIndex : UInt32) : Option SmallMessage :=
  (smallDeobfuscate cfg.alphabet env.stack frame).map
    fun r => smallFields r.1 r.2 pdIndex

/-- The 26 bits a passthrough frame hands on. -/
def smallPassthroughBits (stack : Stack) (deobfuscated : Bitstream) :
    Bitstream :=
  bitstreamSetBitPosition
    (smallInternalExtractPassthroughMessage
      (bitstreamInit stack.passthroughBytes.toList 32 0) deobfuscated) 0

/-- The extended message among passthrough bits, when the first of them says
that there is one. -/
def extendedDecode (bits : Bitstream) : Option ExtendedSmallMessage :=
  if (bitstreamPullBit bits).1 = false then none
  else extendedSmallParse (bitstreamPullBit bits).2

/-- The extended message of a small frame. -/
def smallExtended (cfg : Config) (env : Env) (frame : Frame) :
    Option ExtendedSmallMessage :=
  (smallDeobfuscate cfg.alphabet env.stack frame).bind fun r =>
    if (smallFields r.1 r.2 0).typeCode = smallTypePassthrough then
      extendedDecode (smallPassthroughBits env.stack r.2)
    else none

/-- The activation messages of the small protocol. -/
def SmallMessage.carried (message : SmallMessage) (secretKey : CheckKey) :
    Option Carried :=
  let authentic := message.check == smallComputeCheck message secretKey
  if message.typeCode = smallActivationAddCreditType then
    some ⟨.addCredit, message.fullMessageId, authentic⟩
  else if message.typeCode = smallActivationSetCreditType then
    some ⟨.setCredit, message.fullMessageId, authentic⟩
  else none

/-- The activation messages of the full protocol. -/
def FullMessage.carried (message : FullMessage) (secretKey : CheckKey) :
    Option Carried :=
  let authentic := message.check == fullComputeCheck message secretKey
  if message.typeCode = fullActivationAddCredit then
    some ⟨.addCredit, message.fullMessageId, authentic⟩
  else if message.typeCode = fullActivationSetCredit then
    some ⟨.setCredit, message.fullMessageId, authentic⟩
  else if message.typeCode = fullActivationWipeState then
    some ⟨.wipeState message.body, message.fullMessageId, authentic⟩
  else if message.typeCode = fullActivationDemoCode then
    some ⟨.demo, message.fullMessageId, authentic⟩
  else none

namespace Machine

/-- What a small frame carries. An extended message has no id until one is
found for which it is authentic. -/
def smallCarried (m : Machine) (cfg : Config) (env : Env) (frame : Frame) :
    Option Carried :=
  match smallExtended cfg env frame with
  | some message =>
      (extendedSmallInferWindowedMessageId message
        m.getCurrentMessageIdWindow env.secretKey).map
          fun found => ⟨.extended, found.inferredMessageId, true⟩
  | none =>
      (smallDecode cfg env frame m.pdIndex).bind
        fun message => message.carried env.secretKey

/-- What a full frame carries. -/
def fullCarried (m : Machine) (env : Env) (frame : Frame) : Option Carried :=
  (m.fullParse env frame).1.bind fun message => message.carried env.secretKey

/-- What an operation carries. -/
def carried (m : Machine) (cfg : Config) : Operation → Option Carried
  | .smallFrame env frame => m.smallCarried cfg env frame
  | .fullFrame env frame => m.fullCarried env frame
  | _ => none

end Machine

/-! ## Outcomes of frames -/

section

variable (cfg : Config) (env : Env) (frame : Frame) (m : Machine)

/-- How a small frame can end. -/
inductive SmallOutcome : Option Carried → Response × Machine → Prop
  | rejected : SmallOutcome none (.invalid, m)
  | message {message : SmallMessage}
      (hdecode : smallDecode cfg env frame m.pdIndex = some message)
      (htype : message.typeCode ≠ smallTypePassthrough) :
      SmallOutcome (message.carried env.secretKey)
        (m.smallApply cfg env message)
  | unread : SmallOutcome none
      (.none, m.emit (.feedbackStart .messageInvalid))
  | extended {message found : ExtendedSmallMessage}
      (hdecode : smallExtended cfg env frame = some message)
      (hfound : extendedSmallInferWindowedMessageId message
        m.getCurrentMessageIdWindow env.secretKey = some found) :
      SmallOutcome (some ⟨.extended, found.inferredMessageId, true⟩)
        (.none, m.extendedSmallApplyInferred found)

/-- How a full frame can end. -/
inductive FullOutcome : Option Carried → Response × Machine → Prop
  | rejected : FullOutcome none (.invalid, m)
  | passthrough {response : Response} (keys : List Key)
      (hresponse : response = .invalid ∨ response = .none) :
      FullOutcome none (response, m.emit (.passthrough keys))
  | message {message : FullMessage}
      (hdecode : (m.fullParse env frame).1 = some message)
      (htype : message.typeCode ≠ fullPassthroughCommand) :
      FullOutcome (message.carried env.secretKey)
        (m.fullApply cfg env message)

end

/-- The type bits do not depend on the center. -/
theorem smallFields_typeCode (check : UInt16) (deobfuscated : Bitstream)
    (pd pd' : UInt32) :
    (smallFields check deobfuscated pd).typeCode
      = (smallFields check deobfuscated pd').typeCode := rfl

/-- The passthrough branch of the parser, whatever the bits are. -/
theorem smallOutcome_passthrough {cfg : Config} {env : Env} {frame : Frame}
    {m : Machine} {message : SmallMessage} {bits : Bitstream}
    (hdecode : smallDecode cfg env frame m.pdIndex = some message)
    (htype : message.typeCode = smallTypePassthrough)
    (hext : smallExtended cfg env frame = extendedDecode bits) :
    SmallOutcome cfg env frame m (m.smallCarried cfg env frame)
      (match (if (m.smallInternalBitstreamPassthrough env bits).1 = .none
            then some message else none,
          (m.smallInternalBitstreamPassthrough env bits).2) with
        | (none, m) => (.invalid, m)
        | (some message, m) =>
            if message.typeCode = smallTypePassthrough then (.none, m)
            else m.smallApply cfg env message) := by
  have hnone : message.carried env.secretKey = none := by
    simp only [SmallMessage.carried, htype]
    rfl
  unfold Machine.smallInternalBitstreamPassthrough Machine.smallCarried
  rw [hext, hdecode, extendedDecode]
  by_cases happ : (bitstreamPullBit bits).1 = false
  · simp only [if_pos happ, Option.bind_some, hnone]
    exact .rejected
  · rw [extendedDecode, if_neg happ] at hext
    simp only [if_neg happ, if_true, if_pos htype, Option.bind_some, hnone]
    unfold Machine.extendedSmallParseAndApplyKeycode
    cases hparse : extendedSmallParse (bitstreamPullBit bits).2 with
    | none => exact .unread
    | some message =>
        unfold Machine.extendedSmallApply
        simp only []
        cases hfound : extendedSmallInferWindowedMessageId message
            m.getCurrentMessageIdWindow env.secretKey with
        | none => exact .unread
        | some found => exact .extended (hext.trans hparse) hfound

theorem smallOutcome (cfg : Config) (env : Env) (frame : Frame)
    (m : Machine) :
    SmallOutcome cfg env frame m (m.smallCarried cfg env frame)
      (m.smallParseAndApply cfg env frame) := by
  unfold Machine.smallParseAndApply Machine.smallParse
  cases hdeob : smallDeobfuscate cfg.alphabet env.stack frame with
  | none =>
      have hcarried : m.smallCarried cfg env frame = none := by
        simp [Machine.smallCarried, smallExtended, smallDecode, hdeob]
      rw [hcarried]
      exact .rejected
  | some r =>
      have hdecode : smallDecode cfg env frame m.pdIndex
          = some (smallFields r.1 r.2 m.pdIndex) := by
        simp [smallDecode, hdeob]
      by_cases htype : (smallFields r.1 r.2 m.pdIndex).typeCode
          = smallTypePassthrough
      · have hext : smallExtended cfg env frame
            = extendedDecode (smallPassthroughBits env.stack r.2) := by
          simp only [smallExtended, hdeob, Option.bind_some]
          rw [if_pos (by rw [← htype]; rfl)]
        simp only [if_pos htype]
        exact smallOutcome_passthrough hdecode htype hext
      · have hext : smallExtended cfg env frame = none := by
          simp only [smallExtended, hdeob, Option.bind_some]
          rw [if_neg (by
            rw [smallFields_typeCode _ _ 0 m.pdIndex]; exact htype)]
        have hcarried : m.smallCarried cfg env frame
            = (smallFields r.1 r.2 m.pdIndex).carried env.secretKey := by
          simp [Machine.smallCarried, hext, hdecode]
        rw [hcarried]
        simp only [if_neg htype]
        exact .message hdecode htype

/-! ## Parsing a full frame -/

theorem fullActivationBody_typeCode {typeCode : UInt8} {digits : Digits}
    {r : UInt32 × Digits} (h : fullActivationBody typeCode digits = some r) :
    typeCode < fullFactoryAllowTest := by
  unfold fullActivationBody at h
  split at h
  · next htype =>
      rcases htype with rfl | rfl | rfl <;> decide
  · split at h
    · next htype =>
        rw [htype]
        decide
    · cases h

/-- The activation parser lets through the four activation types, with an id
inferred from a residue. -/
theorem fullParseActivationBody_spec {pd check : UInt32}
    {typeCode received : UInt8} {digits : Digits} {message : FullMessage}
    (h : fullParseActivationBody pd check typeCode received digits
      = some message) :
    message.typeCode < fullFactoryAllowTest ∧
      ∃ compressed : UInt8, compressed.toNat < 64 ∧
        message.fullMessageId = inferFullMessageId compressed pd := by
  unfold fullParseActivationBody at h
  split at h
  · cases h
  · next hid =>
      rw [gt_iff_lt, UInt8.lt_iff_toNat_lt, not_lt] at hid
      split at h
      · cases h
      · next hbody =>
          simp only [Option.ite_none_right_eq_some, Option.some.injEq] at h
          rw [← h.2]
          exact ⟨fullActivationBody_typeCode hbody, received,
            Nat.lt_succ_of_le hid, rfl⟩

theorem fullParseActivation_spec {pd : UInt32} {keys : List Key}
    {stale : ℕ → Key} {message : FullMessage}
    (h : fullParseActivation pd keys stale = some message) :
    message.typeCode < fullFactoryAllowTest ∧
      ∃ compressed : UInt8, compressed.toNat < 64 ∧
        message.fullMessageId = inferFullMessageId compressed pd := by
  unfold fullParseActivation at h
  exact fullParseActivationBody_spec h

theorem fullParseFactoryMac_typeCode {typeCode : UInt8} {underrun : Bool}
    {digits : Digits} {message : FullMessage}
    (h : fullParseFactoryMac typeCode underrun digits = some message) :
    message.typeCode = typeCode := by
  unfold fullParseFactoryMac at h
  simp only [Option.ite_none_right_eq_some, Option.some.injEq] at h
  rw [← h.2]

theorem fullParseNomacDeviceId_typeCode {typeCode : UInt8} {underrun : Bool}
    {digits : Digits} {message : FullMessage}
    (h : fullParseNomacDeviceId typeCode underrun digits = some message) :
    message.typeCode = typeCode := by
  unfold fullParseNomacDeviceId at h
  simp only [] at h
  split at h
  · cases h
  · split at h
    · obtain rfl := Option.some.inj h
      rfl
    · cases h

/-- Parsing a full frame leaves the machine alone, but for a passthrough
command it tells the product. -/
theorem fullParse_cases (env : Env) (frame : Frame) (m : Machine) :
    ((m.fullParse env frame).2 = m ∧
        ∀ message, (m.fullParse env frame).1 = some message →
          message.typeCode ≠ fullPassthroughCommand) ∨
      ∃ keys, (m.fullParse env frame).2 = m.emit (.passthrough keys) ∧
        ∀ message, (m.fullParse env frame).1 = some message →
          message.typeCode = fullPassthroughCommand := by
  unfold Machine.fullParse Machine.fullParseFactoryAndPassthrough
  simp only []
  split
  · refine Or.inl ⟨rfl, fun message h htype => ?_⟩
    dsimp only at h
    have hlt := (fullParseActivation_spec h).1
    rw [htype] at hlt
    exact absurd hlt (by decide)
  · split
    · exact Or.inl ⟨rfl, by simp⟩
    · split
      · next hlt =>
          refine Or.inl ⟨rfl, fun message h htype => ?_⟩
          dsimp only at h
          rw [← fullParseFactoryMac_typeCode h, htype] at hlt
          exact absurd hlt (by decide)
      · split
        · next heq =>
            refine Or.inl ⟨rfl, fun message h htype => ?_⟩
            dsimp only at h
            rw [← fullParseNomacDeviceId_typeCode h, htype] at heq
            exact absurd heq (by decide)
        · split
          · next htype =>
              split
              · refine Or.inr ⟨_, rfl, fun message h => ?_⟩
                simp only [Option.ite_none_right_eq_some,
                  Option.some.injEq] at h
                rw [← h.2]
                exact htype
              · exact Or.inl ⟨rfl, by simp⟩
          · next hne =>
              split
              · refine Or.inl ⟨rfl, fun message h => ?_⟩
                rw [← Option.some.inj h]
                exact hne
              · exact Or.inl ⟨rfl, by simp⟩

theorem fullOutcome (cfg : Config) (env : Env) (frame : Frame)
    (m : Machine) :
    FullOutcome cfg env frame m (m.fullCarried env frame)
      (m.fullParseAndApply cfg env frame) := by
  have hcases := fullParse_cases env frame m
  have hmessage := @FullOutcome.message cfg env frame m
  unfold Machine.fullParseAndApply Machine.fullCarried
  revert hcases hmessage
  generalize m.fullParse env frame = r
  obtain ⟨parsed, m'⟩ := r
  rintro (⟨rfl, htype⟩ | ⟨keys, rfl, htype⟩) hmessage
  · cases parsed with
    | none => exact .rejected
    | some message =>
        have hne := htype message rfl
        simp only [if_neg hne]
        exact hmessage rfl hne
  · cases parsed with
    | none => exact .passthrough keys (Or.inl rfl)
    | some message =>
        have heq := htype message rfl
        have hnone : message.carried env.secretKey = none := by
          simp only [FullMessage.carried, heq]
          rfl
        simp only [if_pos heq, Option.bind_some, hnone]
        exact .passthrough keys (Or.inr rfl)

/-- A full frame with a message that is no passthrough command. -/
theorem fullParseAndApply_of_parse {cfg : Config} {env : Env} {frame : Frame}
    {m : Machine} {message : FullMessage}
    (hparse : (m.fullParse env frame).1 = some message)
    (htype : message.typeCode ≠ fullPassthroughCommand) :
    m.fullParseAndApply cfg env frame = m.fullApply cfg env message := by
  have hcases := fullParse_cases env frame m
  unfold Machine.fullParseAndApply
  revert hcases hparse
  generalize m.fullParse env frame = r
  obtain ⟨parsed, m'⟩ := r
  rintro rfl (⟨rfl, -⟩ | ⟨keys, -, hpass⟩)
  · simp only [if_neg htype]
  · exact absurd (hpass message rfl) htype

/-! ## Fields of a small frame -/

/-- Two bits of type, and six bits of id to infer from. -/
theorem smallFields_spec (check : UInt16) (deobfuscated : Bitstream)
    (pd : UInt32) :
    (smallFields check deobfuscated pd).typeCode.toNat < 4 ∧
      ((smallFields check deobfuscated pd).typeCode
            = smallActivationAddCreditType ∨
          (smallFields check deobfuscated pd).typeCode
            = smallActivationSetCreditType →
        ∃ compressed : UInt8, compressed.toNat < 64 ∧
          (smallFields check deobfuscated pd).fullMessageId
            = inferFullMessageId compressed pd) := by
  constructor
  · exact bitstreamPullUint8_lt (n := 2) (by omega) _
  · intro htype
    refine ⟨(bitstreamPullUint8
      (bitstreamSetBitPosition deobfuscated 0) 6).1,
      bitstreamPullUint8_lt (n := 6) (by omega) _, ?_⟩
    unfold smallFields at htype ⊢
    exact if_pos htype

theorem smallDecode_spec {cfg : Config} {env : Env} {frame : Frame}
    {pd : UInt32} {message : SmallMessage}
    (h : smallDecode cfg env frame pd = some message) :
    message.typeCode.toNat < 4 ∧
      (message.typeCode = smallActivationAddCreditType ∨
          message.typeCode = smallActivationSetCreditType →
        ∃ compressed : UInt8, compressed.toNat < 64 ∧
          message.fullMessageId = inferFullMessageId compressed pd) := by
  unfold smallDecode at h
  rw [Option.map_eq_some_iff] at h
  obtain ⟨r, -, rfl⟩ := h
  exact smallFields_spec r.1 r.2 pd

/-! ## Kinds and types -/

theorem smallCarried_kind {message : SmallMessage} {key : CheckKey}
    {c : Carried} (hc : message.carried key = some c) :
    (message.typeCode = smallActivationAddCreditType ∨
        message.typeCode = smallActivationSetCreditType) ∧
      c.id = message.fullMessageId ∧
      (c.kind = .addCredit ∨ c.kind = .setCredit) := by
  unfold SmallMessage.carried at hc
  simp only [] at hc
  split at hc
  · next hadd =>
      obtain rfl := Option.some.inj hc
      exact ⟨Or.inl hadd, rfl, Or.inl rfl⟩
  · split at hc
    · next hset =>
        obtain rfl := Option.some.inj hc
        exact ⟨Or.inr hset, rfl, Or.inr rfl⟩
    · cases hc

theorem fullCarried_kind {message : FullMessage} {key : CheckKey}
    {c : Carried} (hc : message.carried key = some c) :
    c.id = message.fullMessageId ∧
      c.authentic = (message.check == fullComputeCheck message key) ∧
      c.kind ≠ .extended ∧
      ∀ target, c.kind = .wipeState target →
        message.typeCode = fullActivationWipeState ∧
          message.body = target := by
  unfold FullMessage.carried at hc
  simp only [] at hc
  repeat' split at hc
  all_goals cases hc
  · exact ⟨rfl, rfl, by simp, by simp⟩
  · exact ⟨rfl, rfl, by simp, by simp⟩
  · next hwipe =>
      refine ⟨rfl, rfl, by simp, fun target ht => ⟨hwipe, ?_⟩⟩
      exact Kind.wipeState.inj ht
  · exact ⟨rfl, rfl, by simp, by simp⟩

theorem fullCarried_typeCode {message : FullMessage} {key : CheckKey}
    {c : Carried} (hc : message.carried key = some c) :
    message.typeCode < fullFactoryAllowTest := by
  unfold FullMessage.carried at hc
  simp only [] at hc
  repeat' split at hc
  all_goals first
    | (next heq => rw [heq]; decide)
    | cases hc

/-- Of the four types, the one that carries no id and is no passthrough. -/
theorem typeCode_of_not_carried {message : SmallMessage} {key : CheckKey}
    (hlt : message.typeCode.toNat < 4)
    (htype : message.typeCode ≠ smallTypePassthrough)
    (hc : message.carried key = none) :
    message.typeCode = smallMaintenanceOrTestType := by
  unfold SmallMessage.carried at hc
  simp only [] at hc
  split at hc
  · cases hc
  · next hadd =>
      split at hc
      · cases hc
      · next hset =>
          rw [Ne, ← UInt8.toNat_inj] at htype
          rw [← UInt8.toNat_inj] at hadd hset ⊢
          change ¬ _ = 0 at hadd
          change ¬ _ = 2 at hset
          change ¬ _ = 1 at htype
          show _ = 3
          omega

/-- The four activation types all carry an id. -/
theorem fullCarried_ne_none {message : FullMessage} {key : CheckKey}
    (hlt : message.typeCode < fullFactoryAllowTest) :
    message.carried key ≠ none := by
  rw [UInt8.lt_iff_toNat_lt] at hlt
  change _ < 4 at hlt
  unfold FullMessage.carried
  simp only []
  split
  · simp
  · next h0 =>
      split
      · simp
      · next h1 =>
          split
          · simp
          · next h2 =>
              split
              · simp
              · next h3 =>
                  rw [← UInt8.toNat_inj] at h0 h1 h2 h3
                  change ¬ _ = 0 at h0
                  change ¬ _ = 1 at h1
                  change ¬ _ = 2 at h2
                  change ¬ _ = 3 at h3
                  omega

theorem fullParse_quiet (m : Machine) (env : Env) (frame : Frame) :
    (m.quiet.fullParse env frame).1 = (m.fullParse env frame).1 := by
  unfold Machine.fullParse
  split
  · rfl
  · unfold Machine.fullParseFactoryAndPassthrough
    simp only []
    repeat' split
    all_goals rfl

/-! ## Application of an authenticated message -/

/-- How the kinds mark an id. -/
def Kind.mark (m : Machine) (id : UInt32) : Kind → Machine
  | .addCredit => m.setFullMessageIdFlag id.toUInt16
  | .demo => m
  | _ => m.maskBelowMessageId (id + 1).toUInt16

/-- What an authenticated message with a fresh id does once it is marked. -/
inductive Granted (payg : PaygState) (marked : Machine) :
    Kind → Response × Machine → Prop
  | credit {kind : Kind} {e : Effect} (he : e.isCredit = true)
      (hpayg : kind = .addCredit → payg ≠ .unlocked) :
      Granted payg marked kind (.validApplied, marked.emit e)
  | flag {kind : Kind} (hkind : kind ≠ .addCredit) :
      Granted payg marked kind
        (.validApplied, marked.resetCustomFlag .restricted)
  | refused (hpayg : payg = .unlocked) :
      Granted payg marked .addCredit (.validDuplicate, marked)
  | demo : Granted payg marked .demo (.validApplied, marked)
  | wipe {target : UInt32} (ht : target = 1 ∨ target = 2) :
      Granted payg marked (.wipeState target) (.validApplied, marked.wipeMask)
  | wipeCredit {target : UInt32} (ht : target = 1 ∨ target = 2) :
      Granted payg marked (.wipeState target)
        (.validApplied, marked.wipeMask.emit (.creditSet 0))
  | unsupported {target : UInt32} (ht : 4 ≤ target) :
      Granted payg marked (.wipeState target) (.invalid, marked)

/-- The three ends of a message that carries an id. -/
inductive Answered (payg : PaygState) (m : Machine) (c : Carried) :
    Response × Machine → Prop
  | forged (h : c.authentic = false) : Answered payg m c (.invalid, m)
  | duplicate (h : c.authentic = true)
      (hflag : m.idFlag c.id.toUInt16 = true) :
      Answered payg m c (.validDuplicate, m)
  | granted {r : Response × Machine} (h : c.authentic = true)
      (hflag : m.idFlag c.id.toUInt16 = false)
      (hgranted : Granted payg (c.kind.mark m c.id) c.kind r) :
      Answered payg m c r

/-- Check the MAC, then the flag, then grant: the shape of both protocols. -/
theorem Answered.intro {payg : PaygState} {m : Machine} {c : Carried}
    {r : Response × Machine}
    (h : Granted payg (c.kind.mark m c.id) c.kind r) :
    Answered payg m c
      (if c.authentic = false then (.invalid, m)
      else if m.idFlag c.id.toUInt16 then (.validDuplicate, m) else r) := by
  split
  · next hforged => exact .forged hforged
  · next hauth =>
      rw [Bool.not_eq_false] at hauth
      split
      · next hflag => exact .duplicate hauth hflag
      · next hflag =>
          rw [Bool.not_eq_true] at hflag
          exact .granted hauth hflag h

section

variable {m : Machine} {cfg : Config} {env : Env} {c : Carried}

theorem smallApply_of_activation {message : SmallMessage}
    (htype : message.typeCode < smallMaintenanceOrTestType) :
    m.smallApply cfg env message
      = if (message.check == smallComputeCheck message env.secretKey) = false
        then (.invalid, m) else m.smallApplyActivation env message := by
  have hkey : smallCheckKey env message = env.secretKey := by
    unfold smallCheckKey
    rw [if_neg]
    rintro ⟨heq, -⟩
    rw [heq] at htype
    exact absurd htype (by decide)
  unfold Machine.smallApply
  rw [hkey]
  by_cases hcheck : message.check = smallComputeCheck message env.secretKey
  · simp [hcheck, htype]
  · simp [hcheck]

theorem fullApply_of_activation {message : FullMessage}
    (htype : message.typeCode < fullFactoryAllowTest) :
    m.fullApply cfg env message
      = if (message.check == fullComputeCheck message env.secretKey) = false
        then (.invalid, m) else m.fullApplyActivation env message := by
  have hkey : fullCheckKey env message = env.secretKey := by
    unfold fullCheckKey
    rw [if_pos htype]
  have hmac : message.typeCode < fullFactoryNomacDeviceIdConfirmation :=
    UInt8.lt_trans htype (by decide)
  unfold Machine.fullApply
  rw [hkey]
  by_cases hcheck : message.check = fullComputeCheck message env.secretKey
  · simp [hcheck, htype]
  · simp [hcheck, hmac]

theorem smallApply_answered (cfg : Config) (h : Persisted m)
    {message : SmallMessage}
    (hc : message.carried env.secretKey = some c) :
    Answered env.paygState m c (m.smallApply cfg env message) := by
  unfold SmallMessage.carried at hc
  simp only [] at hc
  split at hc
  · next hadd =>
      obtain rfl := Option.some.inj hc
      have hset : message.typeCode ≠ smallActivationSetCreditType := by
        rw [hadd]; decide
      rw [smallApply_of_activation (by rw [hadd]; decide)]
      unfold Machine.smallApplyActivation Machine.getFullMessageIdFlag
      simp only [h.readNv]
      rw [if_neg hset, if_pos hadd]
      refine .intro (c := ⟨.addCredit, _, _⟩) ?_
      unfold Machine.smallApplyAddCredit
      simp only []
      split
      · next hpayg => split <;> exact .credit rfl fun _ => hpayg
      · next hpayg => exact .refused (not_not.mp hpayg)
  · split at hc
    · next hset =>
        obtain rfl := Option.some.inj hc
        rw [smallApply_of_activation (by rw [hset]; decide)]
        unfold Machine.smallApplyActivation Machine.getFullMessageIdFlag
        simp only [h.readNv]
        rw [if_pos hset]
        refine .intro (c := ⟨.setCredit, _, _⟩) ?_
        unfold Machine.smallApplySetCredit
        simp only []
        repeat' split
        · exact .credit rfl (by simp)
        · exact .credit rfl (by simp)
        · exact .flag (by simp)
        · exact .credit rfl (by simp)
    · cases hc

/-- The four targets, and those that are none. -/
theorem fullApplyWipeState_granted (payg : PaygState)
    (message : FullMessage) :
    Granted payg (m.maskBelowMessageId (message.fullMessageId + 1).toUInt16)
      (.wipeState message.body) (m.fullApplyWipeState message) := by
  unfold Machine.fullApplyWipeState
  simp only []
  split
  · next h1 => exact .wipeCredit (Or.inl h1)
  · next h1 =>
      split
      · exact .credit rfl (by simp)
      · next h0 =>
          split
          · next h2 => exact .wipe (Or.inr h2)
          · next h2 =>
              split
              · exact .flag (by simp)
              · next h3 =>
                  have hne (k : UInt32) (hk : message.body ≠ k) :
                      message.body.toNat ≠ k.toNat :=
                    fun heq => hk (UInt32.toNat_inj.mp heq)
                  have hne0 := hne _ h0
                  have hne1 := hne _ h1
                  have hne2 := hne _ h2
                  have hne3 := hne _ h3
                  refine .unsupported ?_
                  simp only [UInt32.le_iff_toNat_le, UInt32.reduceToNat]
                    at hne0 hne1 hne2 hne3 ⊢
                  omega

theorem fullApply_answered (cfg : Config) (h : Persisted m)
    {message : FullMessage}
    (hc : message.carried env.secretKey = some c) :
    Answered env.paygState m c (m.fullApply cfg env message) := by
  rw [fullApply_of_activation (fullCarried_typeCode hc)]
  unfold Machine.fullApplyActivation Machine.getFullMessageIdFlag
  simp only [h.readNv]
  unfold FullMessage.carried at hc
  simp only [] at hc
  split at hc
  · next hadd =>
      obtain rfl := Option.some.inj hc
      rw [if_pos hadd]
      refine .intro (c := ⟨.addCredit, _, _⟩) ?_
      split
      · next hpayg => exact .credit rfl fun _ => hpayg
      · next hpayg => exact .refused (not_not.mp hpayg)
  · next hadd =>
      rw [if_neg hadd]
      split at hc
      · next hset =>
          obtain rfl := Option.some.inj hc
          have hdemo : message.typeCode ≠ fullActivationDemoCode := by
            rw [hset]; decide
          rw [if_neg hdemo, if_pos hset]
          refine .intro (c := ⟨.setCredit, _, _⟩) ?_
          split <;> exact .credit rfl (by simp)
      · next hset =>
          rw [if_neg hset]
          split at hc
          · next hwipe =>
              obtain rfl := Option.some.inj hc
              have hdemo : message.typeCode ≠ fullActivationDemoCode := by
                rw [hwipe]; decide
              rw [if_neg hdemo, if_pos hwipe]
              exact .intro (c := ⟨.wipeState _, _, _⟩)
                (fullApplyWipeState_granted _ message)
          · split at hc
            · next hdemo =>
                obtain rfl := Option.some.inj hc
                rw [if_pos hdemo]
                refine .intro (c := ⟨.demo, _, _⟩) ?_
                split
                · exact .credit rfl (by simp)
                · exact .demo
            · cases hc

end

end Nexus.Keycode
