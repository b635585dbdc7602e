import Nexus.Proofs.KeyReading
import Nexus.Proofs.Replay

/-!
# Keys outside the alphabet

The small protocol looks every key up in its alphabet and rejects a frame with
a key that is not there. The full protocol only asserts, at the bottom of its
digit streams, that a key is a digit. Without assertions a factory frame is
whatever its keys add up to, and a frame of fourteen keys has its first eight
keys reduced modulo ten by the deinterleaving, so each of them can be any of
some twenty-five characters.
-/

namespace Nexus.Keycode

open Nexus.Util Nexus.Lib

/-! ## Frames of fourteen keys -/

/-- The check fourteen keys spell. -/
def keysCheck (keys : List Key) : UInt32 :=
  UInt32.ofInt (keysValue (keys.drop 8))

/-- One of their first eight digits, once deinterleaved. -/
def clearDigit (keys : List Key) (i : ℕ) : ℕ :=
  (((keys.getD i 0 - 48) % 256
    - ((fullPrngBytes (keysCheck keys)).getD i 0).toNat) % 10).toNat

/-- Fourteen keys that deinterleave to a type of activation message and a
compressed id of six bits. -/
def SpellsActivation (keys : List Key) : Prop :=
  keys.length = 14 ∧ clearDigit keys 0 ≤ 3 ∧
    10 * clearDigit keys 1 + clearDigit keys 2 ≤ 63

section

variable {keys : List Key} {stale : ℕ → Key}

theorem fullCheckFieldFromFrame_value (hlen : keys.length = 14) :
    fullCheckFieldFromFrame keys stale = keysCheck keys := by
  have hskip : skipDigits 8 (digitsInit keys stale) = streamAt keys stale 8 :=
    skipDigits_position (s := digitsInit keys stale)
      (by show keys.length < 65536; omega)
      (by show 0 + 8 ≤ keys.length; omega)
  have hall : (keys.drop 8).take 6 = keys.drop 8 :=
    List.take_of_length_le (by rw [List.length_drop]; omega)
  rw [fullCheckFieldFromFrame, if_neg (by omega), hlen, hskip,
    pullUint32_streamAt (by omega) (by omega), hall, keysCheck]

theorem clearDigit_lt (i : ℕ) : clearDigit keys i < 10 := by
  rw [clearDigit]
  omega

/-- What deinterleaving leaves in the first eight places. -/
theorem chars_fullDeinterleave {i : ℕ} (hi : i < 8)
    (hlen : keys.length = 14) :
    (digitsInit (fullDeinterleave keys (keysCheck keys)) stale).chars i
      = 48 + (clearDigit keys i : ℤ) := by
  have hlt : i < (fullDeinterleave keys (keysCheck keys)).length := by
    rw [fullDeinterleave, List.length_mapIdx]
    omega
  show (fullDeinterleave keys (keysCheck keys)).getD i (stale i) = _
  rw [List.getD_eq_getElem _ _ hlt]
  simp only [fullDeinterleave, List.getElem_mapIdx]
  rw [if_pos hi, deinterleaveKey_key, clearDigit,
    List.getD_eq_getElem keys _ (by omega)]

/-- The activation parser accepts what spells an activation message. -/
theorem fullParseActivation_isSome (hlen : keys.length = 14) (pd : UInt32) :
    (fullParseActivation pd keys stale).isSome ↔ SpellsActivation keys := by
  have hchars (i : ℕ) (hi : i < 8) :=
    @chars_fullDeinterleave keys stale i hi hlen
  have hparse := fullParseActivation_of pd
    (@fullCheckFieldFromFrame_value keys stale hlen)
  have hslen : (digitsInit (fullDeinterleave keys (keysCheck keys))
      stale).length = 14 := by
    show (fullDeinterleave keys (keysCheck keys)).length = 14
    rw [fullDeinterleave, List.length_mapIdx, hlen]
  have hspos : (digitsInit (fullDeinterleave keys (keysCheck keys))
    stale).position = 0 := rfl
  generalize digitsInit _ stale = s at hchars hparse hslen hspos
  have h0 := @clearDigit_lt keys 0
  have h1 := @clearDigit_lt keys 1
  have h2 := @clearDigit_lt keys 2
  have hmoved := digitsPullUint8_position (s := s) (n := 1) (by omega)
    (by omega)
  rw [hspos, Nat.zero_add] at hmoved
  have hmoved' := digitsPullUint8_position (s := { s with position := 1 })
    (n := 2) (by show s.length < 65536; omega)
    (by show 1 + 2 ≤ s.length; omega)
  have htype : (digitsPullUint8 s 1).1.toNat = clearDigit keys 0 := by
    refine digitsPullUint8_value (by omega) (by omega) (by omega) ?_
    have hvalue := charsToUint32_mod s.chars 0 [clearDigit keys 0]
      (by simpa using h0) (by simpa using hchars 0 (by omega))
    rw [hspos]
    refine hvalue.trans ?_
    show (10 * 0 + clearDigit keys 0) % 2 ^ 32 = _
    omega
  have hid : (digitsPullUint8 { s with position := 1 } 2).1.toNat
      = 10 * clearDigit keys 1 + clearDigit keys 2 := by
    refine digitsPullUint8_value (by show s.length < 65536; omega)
      (by show 1 + 2 ≤ s.length; omega) (by omega) ?_
    have hvalue := charsToUint32_mod s.chars 1
      [clearDigit keys 1, clearDigit keys 2] (by simpa using ⟨h1, h2⟩) ?_
    · refine hvalue.trans ?_
      show (10 * (10 * 0 + clearDigit keys 1) + clearDigit keys 2) % 2 ^ 32 = _
      omega
    · intro i hi
      rw [List.length_cons, List.length_singleton] at hi
      interval_cases i
      · exact hchars 1 (by omega)
      · exact hchars 2 (by omega)
  have hbody := fullParseActivationBody_typeCode
    (s := { s with position := 1 + 2 }) hslen rfl pd (keysCheck keys)
    (digitsPullUint8 s 1).1 (digitsPullUint8 { s with position := 1 } 2).1
  rw [htype, hid] at hbody
  rw [hparse, hmoved, hmoved', ← Option.isSome_map
    (f := fun message : FullMessage => message.typeCode.toNat), hbody]
  by_cases hspells : clearDigit keys 0 ≤ 3 ∧
      10 * clearDigit keys 1 + clearDigit keys 2 ≤ 63
  · rw [if_pos hspells]
    exact iff_of_true rfl ⟨hlen, hspells⟩
  · rw [if_neg hspells]
    exact iff_of_false (by simp) fun h => hspells h.2

/-- Another key in the first place that deinterleaves alike, a digit or one of
the ten keys after the digits. -/
def aliasKey (k : ℤ) : ℤ :=
  if k = 48 + (k - 48) % 256 % 10 then 58 + (k - 48) % 256 % 10
  else 48 + (k - 48) % 256 % 10

theorem aliasKey_ne (k : ℤ) : aliasKey k ≠ k := by
  rw [aliasKey]
  split <;> omega

theorem deinterleaveKey_aliasKey (k : ℤ) (p : UInt8) :
    deinterleaveKey (aliasKey k) p = deinterleaveKey k p := by
  have halike : (aliasKey k - 48) % 256 % 10 = (k - 48) % 256 % 10 := by
    have hlo := Int.emod_nonneg ((k - 48) % 256) (by decide : (10 : ℤ) ≠ 0)
    have hhi := Int.emod_lt_of_pos ((k - 48) % 256) (by decide : (0 : ℤ) < 10)
    rw [aliasKey]
    generalize (k - 48) % 256 % 10 = d at hlo hhi
    split <;> omega
  rw [deinterleaveKey_key, deinterleaveKey_key]
  generalize (aliasKey k - 48) % 256 = x at halike
  generalize (k - 48) % 256 = y at halike
  rw [show (x - p.toNat) % 10 = (y - p.toNat) % 10 by omega]

/-- It is read as the same message. -/
theorem fullParseActivation_alias {k : Key} {rest : List Key}
    (hlen : (k :: rest).length = 14) (pd : UInt32) :
    fullParseActivation pd (aliasKey k :: rest) stale
      = fullParseActivation pd (k :: rest) stale := by
  have hcheck : keysCheck (aliasKey k :: rest) = keysCheck (k :: rest) := by
    rw [keysCheck, keysCheck, List.drop_succ_cons, List.drop_succ_cons]
  have hlen' : (aliasKey k :: rest).length = 14 := by
    rw [List.length_cons] at hlen ⊢
    exact hlen
  have hclear (check : UInt32) : fullDeinterleave (aliasKey k :: rest) check
      = fullDeinterleave (k :: rest) check := by
    rw [fullDeinterleave, fullDeinterleave, List.mapIdx_cons,
      List.mapIdx_cons, if_pos (by omega), if_pos (by omega),
      deinterleaveKey_aliasKey]
  have hfield : fullCheckFieldFromFrame (aliasKey k :: rest) stale
      = keysCheck (k :: rest) :=
    (fullCheckFieldFromFrame_value hlen').trans hcheck
  rw [fullParseActivation_of pd hfield,
    fullParseActivation_of pd (fullCheckFieldFromFrame_value hlen), hclear]

end

/-! ## Frames that get through -/

/-- `NEXUS_KEYCODE_ALPHABET` of the full protocol. -/
def InAlphabet (k : Key) : Prop := 48 ≤ k ∧ k ≤ 57

/-- A frame answered INVALID that changed neither stored state nor credit. -/
def RejectedUnchanged (m : Machine) (r : Response × Machine) : Prop :=
  r.1 = .invalid ∧ r.2.stored = m.stored ∧ r.2.nv = m.nv ∧
    ∀ e ∈ r.2.effects, e.isCredit = false

/-- The activation message, check included, a frame is decoded to. -/
def activationOf (m : Machine) (env : Env) (frame : Frame) :
    Option FullMessage :=
  if frame.keys.length = 14 then
    fullParseActivation m.pdIndex frame.keys env.stack.digitChars
  else none

/-- A frame with a key outside the alphabet is rejected, and no other frame of
its length is decoded to its activation message. -/
def EnforcesAlphabet (m : Machine) (cfg : Config) (env : Env)
    (frame : Frame) : Prop :=
  ((∃ k ∈ frame.keys, ¬ InAlphabet k) →
    RejectedUnchanged m (m.quiet.fullParseAndApply cfg env frame)) ∧
  ∀ other : Frame, other.keys.length = frame.keys.length → other ≠ frame →
    ∀ message, activationOf m env frame = some message →
      activationOf m env other ≠ some message

/-- A factory frame that spells a message with the right check, or a device
id, which has none. -/
def SpellsFactory (env : Env) (keys : List Key) : Prop :=
  ∃ message, factoryReading keys = some message ∧
    message.typeCode ≤ fullFactoryNomacDeviceIdConfirmation ∧
    (message.typeCode < fullFactoryNomacDeviceIdConfirmation →
      message.check = fullComputeCheck message (fullCheckKey env message))

section

variable {m : Machine} {cfg : Config} {env : Env} {frame : Frame}

theorem rejectedUnchanged_self : RejectedUnchanged m (.invalid, m.quiet) :=
  ⟨rfl, rfl, rfl, by simp [Machine.quiet]⟩

/-- A message without a body is not rejected once its check is right. -/
theorem fullApplyActivation_ne_invalid {message : FullMessage}
    (htype : message.typeCode < fullFactoryAllowTest)
    (hbody : message.body = 0) :
    (m.fullApplyActivation env message).1 ≠ .invalid := by
  have hknown : message.typeCode = fullActivationAddCredit ∨
      message.typeCode = fullActivationDemoCode ∨
      message.typeCode = fullActivationSetCredit ∨
      message.typeCode = fullActivationWipeState := by
    simp only [← UInt8.toNat_inj]
    rw [UInt8.lt_iff_toNat_lt] at htype
    change _ < 4 at htype
    show _ = 0 ∨ _ = 3 ∨ _ = 1 ∨ _ = 2
    omega
  rw [Machine.fullApplyActivation]
  dsimp only
  split
  · simp
  · rcases hknown with h | h | h | h <;> rw [h]
    · rw [if_pos rfl]
      split <;> simp
    · rw [if_neg (by decide), if_pos rfl]
      split <;> simp
    · rw [if_neg (by decide), if_neg (by decide), if_pos rfl]
      split <;> simp
    · rw [if_neg (by decide), if_neg (by decide), if_neg (by decide),
        if_pos rfl, Machine.fullApplyWipeState, hbody]
      simp

theorem fullApplyFactory_ne_invalid {message : FullMessage}
    (hfactory : ¬ message.typeCode < fullFactoryAllowTest)
    (hle : message.typeCode ≤ fullFactoryNomacDeviceIdConfirmation) :
    (m.fullApplyFactory cfg env message).1 ≠ .invalid := by
  have hknown : message.typeCode = fullFactoryAllowTest ∨
      message.typeCode = fullFactoryQcTest ∨
      message.typeCode = fullFactoryDeviceIdDisplay ∨
      message.typeCode = fullFactoryNomacDeviceIdConfirmation := by
    simp only [← UInt8.toNat_inj]
    rw [UInt8.lt_iff_toNat_lt] at hfactory
    rw [UInt8.le_iff_toNat_le] at hle
    change ¬ _ < 4 at hfactory
    change _ ≤ 7 at hle
    show _ = 4 ∨ _ = 5 ∨ _ = 6 ∨ _ = 7
    omega
  rw [Machine.fullApplyFactory]
  rcases hknown with h | h | h | h <;> rw [h]
  · rw [if_pos rfl]
    split <;> simp
  · rw [if_neg (by decide), if_pos rfl, Machine.fullApplyQcTest]
    dsimp only
    split
    · split <;> simp
    · simp
  · rw [if_neg (by decide), if_neg (by decide), if_pos rfl]
    simp
  · rw [if_neg (by decide), if_neg (by decide), if_neg (by decide),
      if_pos rfl]
    split <;> simp

/-- No reading is a passthrough command, the activation types have no body in
it, and no frame of fourteen keys has one. -/
theorem factoryReading_spec {keys : List Key} {message : FullMessage}
    (hread : factoryReading keys = some message) :
    message.typeCode ≠ fullPassthroughCommand ∧
      (message.typeCode < fullFactoryAllowTest → message.body = 0) ∧
      keys.length ≠ 14 := by
  cases keys with
  | nil => cases hread
  | cons k rest =>
      rw [factoryReading] at hread
      rw [List.length_cons]
      split at hread
      · next hmac =>
          cases hread
          refine ⟨?_, fun _ => rfl, by omega⟩
          rintro (heq : keyType k = fullPassthroughCommand)
          rw [heq] at hmac
          exact absurd hmac.1 (by decide)
      · split at hread
        · next hqc =>
            cases hread
            dsimp only
            rw [hqc.1]
            exact ⟨by decide, fun h => absurd h (by decide), by omega⟩
        · split at hread
          · next hnomac =>
              cases hread
              dsimp only
              rw [hnomac.1]
              exact ⟨by decide, fun h => absurd h (by decide), by omega⟩
          · split at hread
            · next hbig =>
                cases hread
                refine ⟨(UInt8.ne_of_lt hbig.1).symm, fun _ => rfl, ?_⟩
                rw [hbig.2]
                decide
            · cases hread

/-- A factory frame that spells a message gets through. -/
theorem fullParseAndApply_of_spells
    (hpass : ¬ IsPassthrough frame.keys)
    (hspells : SpellsFactory env frame.keys) :
    (m.fullParseAndApply cfg env frame).1 ≠ .invalid := by
  obtain ⟨message, hread, hle, hcheck⟩ := hspells
  obtain ⟨hcommand, hbody, hlen⟩ := factoryReading_spec hread
  have hne : frame.keys ≠ [] := by
    intro hnil
    rw [hnil] at hread
    cases hread
  have hparse := @fullParse_reads m env frame hne hlen hpass
  rw [hread] at hparse
  rw [fullParseAndApply_of_parse (by rw [hparse]) hcommand,
    Machine.fullApply, if_neg fun h => h.1 (hcheck h.2)]
  split
  · next hlt => exact fullApplyActivation_ne_invalid hlt (hbody hlt)
  · next hge => exact fullApplyFactory_ne_invalid hge hle

/-- Every other one is rejected before anything happens. -/
theorem fullParseAndApply_of_not_spells (hne : frame.keys ≠ [])
    (hlen : frame.keys.length ≠ 14) (hpass : ¬ IsPassthrough frame.keys)
    (hspells : ¬ SpellsFactory env frame.keys) :
    m.fullParseAndApply cfg env frame = (.invalid, m) := by
  have hparse := @fullParse_reads m env frame hne hlen hpass
  cases hread : factoryReading frame.keys with
  | none =>
      rw [hread] at hparse
      rw [Machine.fullParseAndApply, hparse]
  | some message =>
      rw [hread] at hparse
      rw [fullParseAndApply_of_parse (by rw [hparse])
        (factoryReading_spec hread).1, Machine.fullApply]
      by_cases hmac : message.typeCode < fullFactoryNomacDeviceIdConfirmation
      · have hcheck : message.check
            ≠ fullComputeCheck message (fullCheckKey env message) :=
          fun heq => hspells ⟨message, hread, UInt8.le_of_lt hmac,
            fun _ => heq⟩
        rw [if_pos ⟨hcheck, hmac⟩]
      · -- a type past the last one, which no branch of the switch takes
        have hgt : ¬ message.typeCode
            ≤ fullFactoryNomacDeviceIdConfirmation :=
          fun hle => hspells ⟨message, hread, hle, fun h => absurd h hmac⟩
        rw [UInt8.le_iff_toNat_le] at hgt
        change ¬ _ ≤ 7 at hgt
        have hne (t : UInt8) (ht : t.toNat ≤ 7) : message.typeCode ≠ t := by
          rintro rfl
          exact hgt ht
        have hactivation : ¬ message.typeCode < fullFactoryAllowTest := by
          rw [UInt8.lt_iff_toNat_lt]
          show ¬ _ < 4
          omega
        rw [if_neg fun h => hmac h.2, if_neg hactivation,
          Machine.fullApplyFactory, if_neg (hne _ (by decide)),
          if_neg (hne _ (by decide)), if_neg (hne _ (by decide)),
          if_neg (hne _ (by decide))]

/-- Fourteen keys that spell no activation message are rejected. -/
theorem fullParseAndApply_of_not_activation (hlen : frame.keys.length = 14)
    (hspells : ¬ SpellsActivation frame.keys) :
    m.fullParseAndApply cfg env frame = (.invalid, m) := by
  have hnone := (@fullParseActivation_isSome frame.keys env.stack.digitChars
    hlen m.pdIndex).not.mpr hspells
  rw [Option.not_isSome_iff_eq_none] at hnone
  rw [Machine.fullParseAndApply, Machine.fullParse, if_pos hlen, hnone]

/-- Another frame decodes to every activation message a frame spells. -/
theorem exists_alias (hspells : SpellsActivation frame.keys) :
    ∃ other : Frame, other.keys.length = frame.keys.length ∧ other ≠ frame ∧
      ∃ message, activationOf m env frame = some message ∧
        activationOf m env other = some message := by
  obtain ⟨keys, hle⟩ := frame
  have hlen : keys.length = 14 := hspells.1
  obtain ⟨message, hmessage⟩ := Option.isSome_iff_exists.mp
    ((@fullParseActivation_isSome keys env.stack.digitChars hlen
      m.pdIndex).mpr hspells)
  cases keys with
  | nil => cases hlen
  | cons k rest =>
      refine ⟨⟨aliasKey k :: rest, hle⟩, rfl, ?_, message, ?_, ?_⟩
      · intro heq
        exact aliasKey_ne k (List.cons.inj (Frame.mk.inj heq)).1
      · rw [activationOf, if_pos hlen, hmessage]
      · have hlen' : (aliasKey k :: rest).length = 14 := hlen
        rw [activationOf, if_pos hlen', fullParseActivation_alias hlen,
          hmessage]

/-- Exactly which frames break the rule: every frame of fourteen keys that
spells an activation message, since another one spells it too, and of the
frames with a key outside the alphabet those that spell a factory message. -/
theorem enforcesAlphabet_iff (m : Machine) (cfg : Config) (env : Env)
    (frame : Frame) (hne : frame.keys ≠ [])
    (hpass : ¬ IsPassthrough frame.keys) :
    EnforcesAlphabet m cfg env frame ↔
      ¬ SpellsActivation frame.keys ∧
        ((∃ k ∈ frame.keys, ¬ InAlphabet k) →
          ¬ SpellsFactory env frame.keys) := by
  constructor
  · rintro ⟨hrejects, hunique⟩
    refine ⟨?_, ?_⟩
    · intro hspells
      obtain ⟨other, hlen, hother, message, hframe, hsame⟩ :=
        @exists_alias m env frame hspells
      exact hunique other hlen hother message hframe hsame
    · intro houtside hspells
      exact fullParseAndApply_of_spells hpass hspells (hrejects houtside).1
  · rintro ⟨hactivation, hfactory⟩
    have hresult : (∃ k ∈ frame.keys, ¬ InAlphabet k) →
        m.quiet.fullParseAndApply cfg env frame = (.invalid, m.quiet) := by
      intro houtside
      by_cases hlen : frame.keys.length = 14
      · exact fullParseAndApply_of_not_activation hlen hactivation
      · exact fullParseAndApply_of_not_spells hne hlen hpass
          (hfactory houtside)
    refine ⟨?_, ?_⟩
    · intro houtside
      rw [hresult houtside]
      exact rejectedUnchanged_self
    · intro other _ _ message hframe
      rw [activationOf] at hframe
      split at hframe
      · next hlen =>
          exact absurd ((fullParseActivation_isSome hlen m.pdIndex).mp
            (Option.isSome_of_eq_some hframe)) hactivation
      · cases hframe

end

/-- `:000000`, of a type that does not exist. -/
def colonFrame : Frame := ⟨[58, 48, 48, 48, 48, 48, 48], by decide⟩

theorem enforcesAlphabet_colon :
    (∃ k ∈ colonFrame.keys, ¬ InAlphabet k) ∧
      EnforcesAlphabet (.ofStored .factory) (.default .full) (testEnv .enabled)
        colonFrame := by
  have hpass : ¬ IsPassthrough colonFrame.keys :=
    fun h => absurd h.2.2 (by decide)
  refine ⟨⟨58, by decide, fun h => absurd h.2 (by decide)⟩, ?_⟩
  refine (enforcesAlphabet_iff _ _ (testEnv .enabled) colonFrame (by decide)
    hpass).mpr ⟨fun h => absurd h.1 (by decide), ?_⟩
  rintro - ⟨message, hread, -⟩
  have hnone : factoryReading colonFrame.keys = none := by decide
  rw [hnone] at hread
  cases hread

/-- `71234566B`: the last two keys stand for 6 and 18, which is 78. -/
def letterFrame : Frame :=
  ⟨[55, 49, 50, 51, 52, 53, 54, 54, 66], by decide⟩

/-- The SET_CREDIT frame `63530515961148` with `@` for its first key. -/
def aliasFrame : Frame :=
  ⟨[64, 51, 53, 51, 48, 53, 49, 53, 57, 54, 49, 49, 52, 56], by decide⟩

/-- The first confirms a device id, and the second is decoded to the message of
the frame it was made from and sets the credit. -/
theorem letters_accepted :
    (Machine.ofStored .factory |>.quiet.fullParseAndApply (.default .full)
        (testEnv .enabled) letterFrame).1 = .validApplied ∧
      ¬ EnforcesAlphabet (.ofStored .factory) (.default .full) (testEnv .enabled)
        letterFrame ∧
      activationOf (.ofStored .factory) (testEnv .enabled) aliasFrame
        = activationOf (.ofStored .factory) (testEnv .enabled) setCreditFrame ∧
      (activationOf (.ofStored .factory) (testEnv .enabled) aliasFrame).isSome ∧
      (Machine.ofStored .factory |>.quiet.fullParseAndApply (.default .full)
        (testEnv .enabled) aliasFrame).1 = .validApplied := by
  have happlied : (Machine.ofStored .factory |>.quiet.fullParseAndApply
      (.default .full) (testEnv .enabled) letterFrame).1 = .validApplied := by
    decide +kernel
  refine ⟨happlied, ?_, by decide +kernel, by decide +kernel,
    by decide +kernel⟩
  rintro ⟨hrejects, -⟩
  have hinvalid := (hrejects ⟨66, by decide, fun h =>
    absurd h.2 (by decide)⟩).1
  rw [happlied] at hinvalid
  cases hinvalid

end Nexus.Keycode
