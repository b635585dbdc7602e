import Nexus.Proofs.FullCode
import Nexus.Proofs.Mark
import Nexus.Proofs.SmallCode

/-!
# The same frame, read again

A frame that comes back later meets another stack, another product state and a
window that has moved. The parsers do not see the first two, and of the window
they see only the center, from which the full id is inferred. As long as the id
lies in both windows it is inferred alike, and the frame carries what it
carried before.
-/

namespace Nexus.Keycode

open Nexus.Util Nexus.Lib

/-! ## Small frames -/

section

variable {cfg : Config} {frame : Frame}

theorem smallRead_or (cfg : Config) (frame : Frame) :
    (frame.keys.length = 14 ∧ ∀ key ∈ frame.keys, key ∈ cfg.alphabet) ∨
      (frame.keys.length ≠ 14 ∨ ∃ key ∈ frame.keys, key ∉ cfg.alphabet) := by
  by_cases hlen : frame.keys.length = 14
  · by_cases hkeys : ∀ key ∈ frame.keys, key ∈ cfg.alphabet
    · exact Or.inl ⟨hlen, hkeys⟩
    · push Not at hkeys
      exact Or.inr (Or.inr hkeys)
  · exact Or.inr (Or.inl hlen)

theorem smallDecode_env (cfg : Config) (env env' : Env) (frame : Frame)
    (pd : UInt32) :
    smallDecode cfg env' frame pd = smallDecode cfg env frame pd := by
  unfold smallDecode
  rcases smallRead_or cfg frame with ⟨hlen, hkeys⟩ | hbad
  · obtain ⟨s, hs, hholds⟩ := smallDeobfuscate_of_mem env.stack
      hlen hkeys
    obtain ⟨s', hs', hholds'⟩ := smallDeobfuscate_of_mem
      env'.stack hlen hkeys
    have hclear : (smallClearOf
        (smallFrameBits cfg.alphabet frame.keys)).length = 28 :=
      length_smallClearOf (by rw [length_smallFrameBits, hlen])
    rw [hs, hs', Option.map_some, Option.map_some,
      smallFields_eq hholds hclear, smallFields_eq hholds' hclear]
  · rw [smallDeobfuscate_eq_none hbad, smallDeobfuscate_eq_none hbad]

theorem extendedDecode_eq {s : Bitstream} {bits : List Bool}
    (h : s.Holds bits) (hlen : bits.length = 26) (hpos : s.position = 0) :
    extendedDecode s
      = if bits.getD 0 false = false then none else extendedMessageOf bits := by
  have hlt : s.position < bits.length := by omega
  have hfirst : bits[s.position] = bits.getD 0 false := by
    rw [List.getD_eq_getElem _ _ (by omega)]
    simp only [hpos]
  have hat1 : (bitstreamPullBit s).2 = bitstreamSetBitPosition s 1 := by
    rw [bitstreamPullBit, hpos]
    rfl
  rw [extendedDecode, hat1, extendedSmallParse_eq (h.move 1) hlen rfl,
    h.pullBit hlt, hfirst]

theorem smallExtended_env (cfg : Config) (env env' : Env) (frame : Frame) :
    smallExtended cfg env' frame = smallExtended cfg env frame := by
  unfold smallExtended
  rcases smallRead_or cfg frame with ⟨hlen, hkeys⟩ | hbad
  · obtain ⟨s, hs, hholds⟩ := smallDeobfuscate_of_mem env.stack
      hlen hkeys
    obtain ⟨s', hs', hholds'⟩ := smallDeobfuscate_of_mem
      env'.stack hlen hkeys
    have hclear : (smallClearOf
        (smallFrameBits cfg.alphabet frame.keys)).length = 28 :=
      length_smallClearOf (by rw [length_smallFrameBits, hlen])
    obtain ⟨hpass, hpos⟩ := smallPassthroughBits_holds env.stack
      hholds hclear
    obtain ⟨hpass', hpos'⟩ := smallPassthroughBits_holds
      env'.stack hholds' hclear
    have hlen' := length_smallPassthroughOf hclear
    rw [hs, hs', Option.bind_some, Option.bind_some]
    simp only [smallFields_eq hholds hclear, smallFields_eq hholds' hclear,
      extendedDecode_eq hpass hlen' hpos, extendedDecode_eq hpass' hlen' hpos']
  · rw [smallDeobfuscate_eq_none hbad, smallDeobfuscate_eq_none hbad,
      Option.bind_none, Option.bind_none]

end

/-- An id of two windows is inferred alike in both. -/
theorem inferFullMessageId_again {pd pd' : UInt32} {compressed : UInt8}
    (hc : compressed.toNat < 64) (hpd : 23 ≤ pd.toNat)
    (hmax : pd.toNat + 40 < 2 ^ 32) (hpd' : 23 ≤ pd'.toNat)
    (hmax' : pd'.toNat + 40 < 2 ^ 32)
    (hlo : pd'.toNat ≤ (inferFullMessageId compressed pd).toNat + 23)
    (hhi : (inferFullMessageId compressed pd).toNat ≤ pd'.toNat + 40) :
    inferFullMessageId compressed pd' = inferFullMessageId compressed pd :=
  inferFullMessageId_eq hpd' hmax' hlo hhi
    (inferFullMessageId_spec _ hpd hmax hc).2.2

/-- A center that an id of the window has been moved to, or that stayed. -/
structure Moved (m m' : Machine) (id : UInt32) : Prop where
  center : 23 ≤ m.pdIndex.toNat
  max : m.pdIndex.toNat + 40 < 2 ^ 32
  center' : 23 ≤ m'.pdIndex.toNat
  max' : m'.pdIndex.toNat + 40 < 2 ^ 32
  inWindow : InWindow m' id

section

variable {m m' : Machine} {cfg : Config} {env env' : Env} {frame : Frame}

theorem smallDecode_again {message : SmallMessage} {key : CheckKey}
    {c : Carried}
    (h : smallDecode cfg env frame m.pdIndex = some message)
    (hc : message.carried key = some c) (hmoved : Moved m m' c.id) :
    smallDecode cfg env' frame m'.pdIndex = some message := by
  obtain ⟨htype, hid, -⟩ := smallCarried_kind hc
  rw [smallDecode_env cfg env env']
  unfold smallDecode at h ⊢
  obtain ⟨r, hr, rfl⟩ := Option.map_eq_some_iff.mp h
  rw [hr, Option.map_some]
  obtain ⟨hlo, hhi⟩ := hmoved.inWindow
  have hpull := bitstreamPullUint8_lt (n := 6) (by omega)
    (bitstreamSetBitPosition r.2 0)
  have hinferred : (smallFields r.1 r.2 m.pdIndex).fullMessageId
      = inferFullMessageId
        (bitstreamPullUint8 (bitstreamSetBitPosition r.2 0) 6).1
        m.pdIndex := if_pos htype
  have hinferred' : (smallFields r.1 r.2 m'.pdIndex).fullMessageId
      = inferFullMessageId
        (bitstreamPullUint8 (bitstreamSetBitPosition r.2 0) 6).1
        m'.pdIndex := if_pos htype
  rw [hid, hinferred] at hlo hhi
  have hagain := inferFullMessageId_again hpull hmoved.center hmoved.max
    hmoved.center' hmoved.max' hlo hhi
  rw [← hinferred, ← hinferred'] at hagain
  refine congrArg some ?_
  unfold smallFields at hagain ⊢
  simp only [SmallMessage.mk.injEq, and_true]
  exact hagain

/-! ## Full frames -/

theorem fullCheckFieldFromFrame_stale {keys : List Key}
    (hlen : keys.length = 14) (stale stale' : ℕ → Key) :
    fullCheckFieldFromFrame keys stale'
      = fullCheckFieldFromFrame keys stale := by
  have hagree := digitsInit_agree keys stale stale'
  have hlength : (digitsInit keys stale).length = 14 := hlen
  have hposition : (digitsInit keys stale).position = 0 := rfl
  unfold fullCheckFieldFromFrame
  rw [hlen, if_neg (by omega), if_neg (by omega)]
  have hskip := skipDigits_agree (n := 14 - 6) hagree (by omega) (by omega)
  refine (hskip.pullUint32 ?_).1
  rw [skipDigits_position (by omega) (by omega)]
  show (digitsInit keys stale).position + 8 + 6
    ≤ (digitsInit keys stale).length
  omega

theorem fullActivationBody_stale {s s' : Digits} (h : s.Agree s')
    (hlen : s.length = 14) (hpos : s.position = 3) (typeCode : UInt8) :
    fullActivationBody typeCode s = none ∧
        fullActivationBody typeCode s' = none ∨
      ∃ body rest rest', fullActivationBody typeCode s = some (body, rest) ∧
        fullActivationBody typeCode s' = some (body, rest') ∧
        rest.Agree rest' ∧ rest.length = 14 ∧ rest.position = 8 := by
  unfold fullActivationBody
  by_cases hhours : typeCode = fullActivationAddCredit ∨
      typeCode = fullActivationDemoCode ∨ typeCode = fullActivationSetCredit
  · obtain ⟨hvalue, hrest, hlen', hpos'⟩ := h.pullUint32_within (n := 5)
      (by omega) (by omega)
    refine Or.inr ⟨(digitsPullUint32 s 5).1, (digitsPullUint32 s 5).2,
      (digitsPullUint32 s' 5).2, ?_, ?_, hrest, by omega, by omega⟩
    · rw [if_pos hhours]
    · rw [if_pos hhours, ← hvalue]
  · rw [if_neg hhours, if_neg hhours]
    by_cases hwipe : typeCode = fullActivationWipeState
    · obtain ⟨-, hreserved, hlen', hpos'⟩ := h.pullUint32_within (n := 4)
        (by omega) (by omega)
      obtain ⟨hvalue, hrest, hlen'', hpos''⟩ :=
        hreserved.pullUint8_within (n := 1) (by omega) (by omega)
      refine Or.inr ⟨_, _, _, if_pos hwipe, ?_, hrest, by omega, by omega⟩
      rw [if_pos hwipe]
      dsimp only
      rw [hvalue]
    · rw [if_neg hwipe, if_neg hwipe]
      exact Or.inl ⟨rfl, rfl⟩

theorem fullParseActivationBody_stale {s s' : Digits} (h : s.Agree s')
    (hlen : s.length = 14) (hpos : s.position = 3) (pd check : UInt32)
    (typeCode received : UInt8) :
    fullParseActivationBody pd check typeCode received s'
      = fullParseActivationBody pd check typeCode received s := by
  unfold fullParseActivationBody
  by_cases hid : received > 63
  · rw [if_pos hid, if_pos hid]
  · rw [if_neg hid, if_neg hid]
    rcases fullActivationBody_stale h hlen hpos typeCode with
      ⟨h1, h2⟩ | ⟨body, rest, rest', h1, h2, hagree, hlen', hpos'⟩
    · rw [h1, h2]
    · have hend := (hagree.pullUint32 (n := 6) (by omega)).2
      rw [h1, h2]
      simp only [hend.length, hend.position]

theorem fullParseActivation_stale {keys : List Key}
    (hlen : keys.length = 14) (pd : UInt32) (stale stale' : ℕ → Key) :
    fullParseActivation pd keys stale'
      = fullParseActivation pd keys stale := by
  have hcheck := fullCheckFieldFromFrame_stale hlen stale stale'
  rw [fullParseActivation_of pd hcheck,
    fullParseActivation_of pd (rfl : fullCheckFieldFromFrame keys stale = _)]
  generalize fullCheckFieldFromFrame keys stale = check
  have hlength : (digitsInit (fullDeinterleave keys check) stale).length
      = 14 := by
    show (fullDeinterleave keys check).length = 14
    simp [fullDeinterleave, hlen]
  have hposition : (digitsInit (fullDeinterleave keys check)
    stale).position = 0 := rfl
  have hagree := digitsInit_agree (fullDeinterleave keys check) stale stale'
  generalize digitsInit (fullDeinterleave keys check) stale = s
    at hlength hposition hagree ⊢
  generalize digitsInit (fullDeinterleave keys check) stale' = s'
    at hagree ⊢
  obtain ⟨htype, hagree1, hlen1, hpos1⟩ := hagree.pullUint8_within (n := 1)
    (by omega) (by omega)
  obtain ⟨hid, hagree3, hlen3, hpos3⟩ := hagree1.pullUint8_within (n := 2)
    (by omega) (by omega)
  rw [htype, hid]
  exact fullParseActivationBody_stale hagree3 (by omega) (by omega) _ _ _ _

/-- The center enters by the inferred id alone. -/
theorem fullParseActivationBody_again {check : UInt32}
    {typeCode received : UInt8} {digits : Digits} {message : FullMessage}
    (h : fullParseActivationBody m.pdIndex check typeCode received digits
      = some message) (hmoved : Moved m m' message.fullMessageId) :
    fullParseActivationBody m'.pdIndex check typeCode received digits
      = some message := by
  unfold fullParseActivationBody at h ⊢
  split
  · next hbig =>
      rw [if_pos hbig] at h
      cases h
  · next hbig =>
      rw [if_neg hbig] at h
      have hreceived : received.toNat < 64 := by
        rw [gt_iff_lt, UInt8.lt_iff_toNat_lt, not_lt] at hbig
        exact Nat.lt_succ_of_le hbig
      split at h
      · cases h
      · next body rest hbody =>
          dsimp only
          simp only [Option.ite_none_right_eq_some, Option.some.injEq] at h ⊢
          refine ⟨h.1, ?_⟩
          obtain ⟨hlo, hhi⟩ := hmoved.inWindow
          have hid : message.fullMessageId
              = inferFullMessageId received m.pdIndex := by rw [← h.2]
          rw [hid] at hlo hhi
          rw [inferFullMessageId_again hreceived hmoved.center hmoved.max
            hmoved.center' hmoved.max' hlo hhi]
          exact h.2

theorem fullParseActivation_again {keys : List Key} {stale : ℕ → Key}
    {message : FullMessage}
    (h : fullParseActivation m.pdIndex keys stale = some message)
    (hmoved : Moved m m' message.fullMessageId) :
    fullParseActivation m'.pdIndex keys stale = some message := by
  rw [fullParseActivation_of _
    (rfl : fullCheckFieldFromFrame keys stale = _)] at h ⊢
  exact fullParseActivationBody_again h hmoved

/-- The MAC branch, for the types without a body. -/
theorem fullParseFactoryMac_stale {s s' : Digits} (h : s.Agree s')
    (hshort : s.length < 65536) (hpos : s.position ≤ s.length)
    {typeCode : UInt8} (htype : typeCode ≠ fullFactoryQcTest)
    (underrun : Bool) :
    fullParseFactoryMac typeCode underrun s'
      = fullParseFactoryMac typeCode underrun s := by
  obtain ⟨hvalue, hflag, hrest, -, -⟩ := h.tryPullUint32 (n := 6) hshort hpos
    underrun
  unfold fullParseFactoryMac
  simp only [if_neg htype, hvalue, hflag, hrest.length, hrest.position]

/-- A message without a body, from a frame that is not fourteen keys long. -/
theorem fullParseFactoryAndPassthrough_again (m' : Machine) (env' : Env)
    {keys : List Key}
    {message : FullMessage}
    (h : (m.fullParseFactoryAndPassthrough env keys).1 = some message)
    (htype : message.typeCode < fullFactoryQcTest) :
    (m'.fullParseFactoryAndPassthrough env' keys).1 = some message ∧
      message.fullMessageId = 0 ∧ message.body = 0 := by
  unfold Machine.fullParseFactoryAndPassthrough at h ⊢
  by_cases hlen : keys.length > 30
  · rw [if_pos hlen] at h
    cases h
  · rw [if_neg hlen] at h ⊢
    have hlength : (digitsInit keys env.stack.digitChars).length
        = keys.length := rfl
    have hposition : (digitsInit keys env.stack.digitChars).position = 0 :=
      rfl
    have hagree := digitsInit_agree keys env.stack.digitChars
      env'.stack.digitChars
    generalize digitsInit keys env.stack.digitChars = s
      at h hlength hposition hagree
    generalize digitsInit keys env'.stack.digitChars = s' at hagree ⊢
    obtain ⟨hvalue, hflag, hrest, hlen', hpos'⟩ := hagree.tryPullUint32
      (n := 1) (by omega) (by omega) false
    obtain ⟨⟨value, underrun, rest⟩, hr⟩ :
        ∃ r, digitsTryPullUint32 s 1 false = r := ⟨_, rfl⟩
    obtain ⟨⟨value', underrun', rest'⟩, hr'⟩ :
        ∃ r, digitsTryPullUint32 s' 1 false = r := ⟨_, rfl⟩
    simp only [hr, hr'] at h hvalue hflag hrest hlen' hpos' ⊢
    rw [hvalue, hflag]
    by_cases hmac : value.toUInt8 < fullFactoryNomacDeviceIdConfirmation
    · rw [if_pos hmac] at h ⊢
      dsimp only at h ⊢
      have hne : value.toUInt8 ≠ fullFactoryQcTest := by
        rw [← fullParseFactoryMac_typeCode h]
        exact UInt8.ne_of_lt htype
      rw [fullParseFactoryMac_stale hrest (by omega) (by omega) hne]
      refine ⟨h, ?_⟩
      unfold fullParseFactoryMac at h
      simp only [if_neg hne, Option.ite_none_right_eq_some,
        Option.some.injEq] at h
      rw [← h.2]
      exact ⟨rfl, rfl⟩
    · have hcode : message.typeCode = value.toUInt8 := by
        rw [if_neg hmac] at h
        split at h
        · exact fullParseNomacDeviceId_typeCode h
        · split at h
          · split at h
            · simp only [Option.ite_none_right_eq_some,
                Option.some.injEq] at h
              rw [← h.2]
            · cases h
          · split at h
            · rw [← Option.some.inj h]
            · cases h
      rw [hcode] at htype
      exact absurd (UInt8.lt_trans htype (by decide)) hmac

/-- A frame that carries an activation message carries it again. -/
theorem fullParse_again {message : FullMessage}
    (h : (m.fullParse env frame).1 = some message)
    (htype : message.typeCode < fullFactoryAllowTest)
    (hmoved : Moved m m' message.fullMessageId) :
    (m'.fullParse env' frame).1 = some message := by
  unfold Machine.fullParse at h ⊢
  by_cases hlen : frame.keys.length = 14
  · rw [if_pos hlen] at h ⊢
    dsimp only at h ⊢
    rw [fullParseActivation_stale hlen _ env.stack.digitChars]
    exact fullParseActivation_again h hmoved
  · rw [if_neg hlen] at h ⊢
    exact (fullParseFactoryAndPassthrough_again _ _ h
      (UInt8.lt_trans htype (by decide))).1

end

/-! ## Operations -/

/-- The same frame for the same device, at any other time. -/
inductive SameFrame : Operation → Operation → Prop
  | small {env env' : Env} (hkey : env'.secretKey = env.secretKey)
      (frame : Frame) :
      SameFrame (.smallFrame env frame) (.smallFrame env' frame)
  | full {env env' : Env} (hkey : env'.secretKey = env.secretKey)
      (frame : Frame) :
      SameFrame (.fullFrame env frame) (.fullFrame env' frame)

section

variable {m m' : Machine} {cfg : Config} {op op' : Operation} {c : Carried}

/-- What a frame carries, it carries again while its id lies in the window. -/
theorem carried_again (hc : m.carried cfg op = some c)
    (hkind : c.kind ≠ .extended) (hmoved : Moved m m' c.id)
    (hsame : SameFrame op op') : m'.carried cfg op' = some c := by
  cases hsame with
  | @small env env' hkey frame =>
      simp only [Machine.carried, Machine.smallCarried] at hc ⊢
      rw [smallExtended_env cfg env env']
      cases hext : smallExtended cfg env frame with
      | some message =>
          rw [hext] at hc
          obtain ⟨found, -, rfl⟩ := Option.map_eq_some_iff.mp hc
          exact absurd rfl hkind
      | none =>
          rw [hext] at hc
          obtain ⟨message, hdecode, hmessage⟩ :=
            Option.bind_eq_some_iff.mp hc
          simp only []
          rw [smallDecode_again hdecode hmessage hmoved, Option.bind_some,
            hkey]
          exact hmessage
  | @full env env' hkey frame =>
      simp only [Machine.carried, Machine.fullCarried] at hc ⊢
      obtain ⟨message, hdecode, hmessage⟩ := Option.bind_eq_some_iff.mp hc
      rw [(fullCarried_kind hmessage).1] at hmoved
      rw [fullParse_again hdecode (fullCarried_typeCode hmessage) hmoved,
        Option.bind_some, hkey]
      exact hmessage

/-- A frame with an id is answered the way its message is. -/
theorem perform_answered (h : Persisted m) (hc : m.carried cfg op = some c)
    (hkind : c.kind ≠ .extended) :
    ∃ payg, Answered payg m.quiet c (m.perform cfg op) := by
  cases op with
  | smallFrame env frame =>
      have hout := smallOutcome cfg env frame m.quiet
      change m.quiet.smallCarried cfg env frame = some c at hc
      rw [hc] at hout
      refine ⟨env.paygState, ?_⟩
      show Answered _ _ _ (m.quiet.smallParseAndApply cfg env frame)
      revert hout
      generalize m.quiet.smallParseAndApply cfg env frame = r
      intro hout
      generalize hcarried : some c = carried at hout
      cases hout with
      | rejected => cases hcarried
      | unread => cases hcarried
      | message => exact smallApply_answered _ h.quiet hcarried.symm
      | extended =>
          rw [Option.some.inj hcarried] at hkind
          exact absurd rfl hkind
  | fullFrame env frame =>
      have hout := fullOutcome cfg env frame m.quiet
      have hcarried : m.quiet.fullCarried env frame = some c := by
        rw [← hc]
        show _ = m.fullCarried env frame
        unfold Machine.fullCarried
        rw [fullParse_quiet]
      rw [hcarried] at hout
      refine ⟨env.paygState, ?_⟩
      show Answered _ _ _ (m.quiet.fullParseAndApply cfg env frame)
      revert hout
      generalize m.quiet.fullParseAndApply cfg env frame = r
      intro hout
      generalize hcarried' : some c = carried at hout
      cases hout with
      | rejected => cases hcarried'
      | passthrough => cases hcarried'
      | message => exact fullApply_answered _ h.quiet hcarried'.symm
  | _ => cases hc

end

end Nexus.Keycode
