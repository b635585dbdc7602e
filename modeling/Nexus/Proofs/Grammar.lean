import Nexus.Proofs.FullCode

/-!
# The frames the full protocol accepts

Fourteen digits go to the activation parser, every other length to the factory
and passthrough parser. The second one lets the type digit decide what else to
pull and accepts when every digit has been consumed. It was written for the
types from ALLOW_TEST on, and does not say so: types 0 to 3 take its MAC branch
in seven digits, and a lone 9 takes no branch at all and has nothing left to
consume.
-/

namespace Nexus.Keycode

open Nexus.Util Nexus.Lib

section

variable {m : Machine} {env : Env} {frame : Frame}

/-! ## Fourteen digits -/

/-- The check a frame of fourteen digits carries. -/
def checkOf (digits : List ℕ) : UInt32 :=
  UInt32.ofNat (ofDigits 10 (digits.drop 8))

/-- The digits of such a frame after deinterleaving. -/
def clearOf (digits : List ℕ) : List ℕ :=
  unscramble (digits.take 8) (checkOf digits) ++ digits.drop 8

/-- The two digits of compressed id. -/
def compressedIdOf (digits : List ℕ) : ℕ :=
  ofDigits 10 (((clearOf digits).drop 1).take 2)

/-- The type digit. -/
def activationTypeOf (digits : List ℕ) : ℕ := (clearOf digits).getD 0 0

theorem fullCheckFieldFromFrame_eq {digits : List ℕ}
    (hlen : digits.length = 14) (hlt : ∀ d ∈ digits, d < 10)
    (stale : ℕ → Key) :
    fullCheckFieldFromFrame (ascii digits) stale = checkOf digits := by
  have hbound : ofDigits 10 (digits.drop 8) < 10 ^ 6 := by
    refine (ofDigits_lt fun d hd => hlt d (List.mem_of_mem_drop hd)).trans_le
      ?_
    exact Nat.pow_le_pow_right (by omega) (by rw [List.length_drop]; omega)
  rw [← UInt32.toNat_inj, fullCheckFieldFromFrame_ascii hlen hlt, checkOf,
    UInt32.toNat_ofNat']
  omega

theorem holds_clearOf {digits : List ℕ} (hlen : digits.length = 14)
    (hlt : ∀ d ∈ digits, d < 10) (stale : ℕ → Key) :
    (digitsInit (fullDeinterleave (ascii digits) (checkOf digits))
      stale).Holds (clearOf digits) := by
  have hbody : Body (digits.take 8) :=
    ⟨by rw [List.length_take]; omega,
      fun d hd => hlt d (List.mem_of_mem_take hd)⟩
  have hclear := body_unscramble (checkOf digits) hbody.length
  have hdeint := fullDeinterleave_ascii (checkOf digits) hbody
    (digits.drop 8)
  rw [List.take_append_drop] at hdeint
  rw [hdeint]
  refine digitsInit_holds _ ?_ ?_ stale
  · rw [List.length_append, hclear.length, List.length_drop]
    omega
  · intro d hd
    rcases List.mem_append.mp hd with hd | hd
    · exact hclear.lt d hd
    · exact hlt d (List.mem_of_mem_drop hd)

theorem length_clearOf {digits : List ℕ} (hlen : digits.length = 14) :
    (clearOf digits).length = 14 := by
  rw [clearOf, List.length_append,
    length_unscramble _ (by rw [List.length_take]; omega), List.length_drop]
  omega

/-- The activation types have a body of five digits, the others none. -/
theorem fullActivationBody_position (typeCode : UInt8) {s : Digits}
    (hlen : s.length = 14) (hpos : s.position = 3) :
    (typeCode.toNat ≤ 3 → ∃ body, fullActivationBody typeCode s
        = some (body, { s with position := 8 })) ∧
      (¬ typeCode.toNat ≤ 3 → fullActivationBody typeCode s = none) := by
  have htypes : typeCode.toNat ≤ 3 ↔
      (typeCode = fullActivationAddCredit ∨
        typeCode = fullActivationDemoCode ∨
        typeCode = fullActivationSetCredit) ∨
      typeCode = fullActivationWipeState := by
    simp only [← UInt8.toNat_inj]
    show _ ↔ (_ = 0 ∨ _ = 3 ∨ _ = 1) ∨ _ = 2
    omega
  unfold fullActivationBody
  by_cases hhours : typeCode = fullActivationAddCredit ∨
      typeCode = fullActivationDemoCode ∨ typeCode = fullActivationSetCredit
  · have hpull := digitsPullUint32_position (s := s) (n := 5) (by omega)
      (by omega)
    rw [hpos] at hpull
    refine ⟨fun _ => ⟨(digitsPullUint32 s 5).1, ?_⟩, fun hno => ?_⟩
    · rw [if_pos hhours, ← hpull]
    · exact absurd (htypes.mpr (Or.inl hhours)) hno
  · rw [if_neg hhours]
    by_cases hwipe : typeCode = fullActivationWipeState
    · have hreserved := digitsPullUint32_position (s := s) (n := 4) (by omega)
        (by omega)
      have htarget := digitsPullUint8_position
        (s := { s with position := 7 }) (n := 1)
        (by show s.length < 65536; omega) (by show 7 + 1 ≤ s.length; omega)
      refine ⟨fun _ =>
        ⟨(digitsPullUint8 { s with position := 7 } 1).1.toUInt32, ?_⟩,
        fun hno => ?_⟩
      · rw [if_pos hwipe]
        simp only [hreserved, hpos, Nat.reduceAdd, htarget]
      · exact absurd (htypes.mpr (Or.inr hwipe)) hno
    · rw [if_neg hwipe]
      refine ⟨fun hyes => ?_, fun _ => rfl⟩
      rcases htypes.mp hyes with hyes | hyes
      · exact absurd hyes hhours
      · exact absurd hyes hwipe

/-- The second half of the parser, at the third digit. -/
theorem fullParseActivationBody_typeCode {s : Digits}
    (hlen : s.length = 14) (hpos : s.position = 3) (pd check : UInt32)
    (typeCode received : UInt8) :
    (fullParseActivationBody pd check typeCode received s).map
        (fun message => message.typeCode.toNat)
      = if typeCode.toNat ≤ 3 ∧ received.toNat ≤ 63 then
          some typeCode.toNat
        else none := by
  obtain ⟨hknown, hunknown⟩ := fullActivationBody_position
    typeCode hlen hpos
  have hend := digitsPullUint32_position (s := { s with position := 8 })
    (n := 6) (by show s.length < 65536; omega)
    (by show 8 + 6 ≤ s.length; omega)
  have hbig : received > 63 ↔ ¬ received.toNat ≤ 63 := by
    rw [gt_iff_lt, UInt8.lt_iff_toNat_lt, not_le]
    rfl
  unfold fullParseActivationBody
  by_cases hid : received.toNat ≤ 63
  · rw [if_neg fun hgt => hbig.mp hgt hid]
    by_cases htype : typeCode.toNat ≤ 3
    · obtain ⟨body, hbody⟩ := hknown htype
      rw [hbody, if_pos ⟨htype, hid⟩]
      simp only [hend]
      rw [if_pos (by rw [hlen]), Option.map_some]
    · rw [hunknown htype, if_neg fun hand => htype hand.1]
      simp only [Option.map_none]
  · rw [if_pos (hbig.mpr hid), if_neg fun hand => hid hand.2, Option.map_none]

/-- What the activation parser accepts: a type it knows and a compressed id
of six bits. -/
theorem fullParseActivation_typeCode {digits : List ℕ}
    (hlen : digits.length = 14) (hlt : ∀ d ∈ digits, d < 10) (pd : UInt32)
    (stale : ℕ → Key) :
    (fullParseActivation pd (ascii digits) stale).map
        (fun message => message.typeCode.toNat)
      = if activationTypeOf digits ≤ 3 ∧ compressedIdOf digits ≤ 63 then
          some (activationTypeOf digits)
        else none := by
  have hholds := holds_clearOf hlen hlt stale
  have hlen' := length_clearOf hlen
  have hparse := fullParseActivation_of pd
    (fullCheckFieldFromFrame_eq hlen hlt stale)
  have hpos : (digitsInit (fullDeinterleave (ascii digits)
    (checkOf digits)) stale).position = 0 := rfl
  generalize digitsInit _ stale = s at hholds hpos hparse
  obtain ⟨htype, hmoved⟩ := hholds.pullUint8 (n := 1) (by omega) (by omega)
  rw [hpos] at htype hmoved
  obtain ⟨hid, hmoved'⟩ := (hholds.move 1).pullUint8 (n := 2) (by omega)
    (by show 1 + 2 ≤ _; omega)
  rw [← compressedIdOf] at hid
  have htype' : (digitsPullUint8 s 1).1.toNat = activationTypeOf digits := by
    rw [htype, activationTypeOf]
    obtain ⟨d, rest, hd⟩ : ∃ d rest, clearOf digits = d :: rest :=
      List.exists_cons_of_length_pos (by omega)
    simp [hd, ofDigits]
  rw [Nat.zero_add] at hmoved
  have hlen'' : s.length = 14 := hholds.length.trans hlen'
  rw [hparse, hmoved, hmoved', fullParseActivationBody_typeCode
    (s := { s with position := 1 + 2 }) hlen'' rfl, htype', hid]

/-! ## Every other length -/

/-- Pulling `n` digits consumes the stream when `n` digits remain, and under no
other condition: a position past the end makes the 16-bit difference large, but
it cannot bring the position back to the length. -/
theorem tryPullUint32_consumes {s : Digits} {n : ℕ}
    (hlen : s.length < 65536) (hpos : s.position + n < 65536) :
    ((digitsTryPullUint32 s n false).2.1 = false ∧
        (digitsTryPullUint32 s n false).2.2.length
          = (digitsTryPullUint32 s n false).2.2.position) ↔
      s.length = s.position + n := by
  unfold digitsTryPullUint32 digitsRemaining
  split
  · next hunder =>
      simp only [Bool.true_eq_false, false_and, false_iff]
      simp only [Bool.false_eq_true, false_or] at hunder
      omega
  · simp only [digitsPullUint32, true_and]
    omega

/-- The MAC branch: six digits after the type, or eleven for a QC test. -/
theorem fullParseFactoryMac_accepts {s : Digits} (hlen : s.length < 31)
    (hpos : s.position = 1) (typeCode : UInt8) :
    (fullParseFactoryMac typeCode false s).map
        (fun message => message.typeCode.toNat)
      = if s.length = if typeCode = fullFactoryQcTest then 12 else 7 then
          some typeCode.toNat
        else none := by
  unfold fullParseFactoryMac
  by_cases hqc : typeCode = fullFactoryQcTest
  · -- the minutes are pulled only when two digits are seen to remain, which a
    -- position past the end also satisfies
    obtain ⟨p, hp, hpull⟩ : ∃ p, (p = 6 ∨ p = 4 ∧ s.length < 6) ∧
        (digitsPullUint8 (digitsPullUint32 s 3).2 2).2
          = { s with position := p } := by
      unfold digitsPullUint8 digitsRemaining
      simp only [digitsPullUint32, hpos]
      split
      · exact ⟨4, Or.inr ⟨rfl, by omega⟩, rfl⟩
      · split
        · exact ⟨6, Or.inl rfl, rfl⟩
        · exact ⟨6, Or.inl rfl, rfl⟩
    simp only [if_pos hqc, hpull]
    have hconsumes := tryPullUint32_consumes
      (s := { s with position := p }) (n := 6)
      (by show s.length < 65536; omega) (by show p + 6 < 65536; omega)
    by_cases hfull : s.length = p + 6
    · rw [if_pos (hconsumes.mpr hfull), if_pos (by omega), Option.map_some]
    · rw [if_neg (hconsumes.not.mpr hfull), if_neg (by omega),
        Option.map_none]
  · simp only [if_neg hqc]
    have hconsumes := tryPullUint32_consumes (s := s) (n := 6) (by omega)
      (by omega)
    by_cases hfull : s.length = 7
    · rw [if_pos (hconsumes.mpr (by omega)), if_pos hfull, Option.map_some]
    · rw [if_neg (hconsumes.not.mpr (by omega)), if_neg hfull,
        Option.map_none]

/-- The NOMAC branch: eight to ten digits of device id. -/
theorem fullParseNomacDeviceId_accepts {s : Digits} (hlen : s.length < 31)
    (hlen' : 0 < s.length) (hpos : s.position = 1) (typeCode : UInt8) :
    (fullParseNomacDeviceId typeCode false s).map
        (fun message => message.typeCode.toNat)
      = if 9 ≤ s.length ∧ s.length ≤ 11 then some typeCode.toNat
        else none := by
  have hserial : (UInt8.ofNat (s.length + 255)).toNat = s.length - 1 := by
    rw [UInt8.toNat_ofNat']
    omega
  have hconsumes := tryPullUint32_consumes (s := s) (n := s.length - 1)
    (by omega) (by omega)
  unfold fullParseNomacDeviceId
  simp only [UInt8.lt_iff_toNat_lt, gt_iff_lt, hserial]
  by_cases hrange : 9 ≤ s.length ∧ s.length ≤ 11
  · rw [if_neg (by
      show ¬ (_ < 8 ∨ 10 < _)
      omega), if_pos (hconsumes.mpr (by omega)), if_pos hrange,
      Option.map_some]
  · rw [if_pos (by
      show _ < 8 ∨ 10 < _
      omega), if_neg hrange, Option.map_none]

/-- What the factory and passthrough parser accepts, by type digit and number
of digits after it. -/
def FactoryAccepts (env : Env) (d : ℕ) (rest : List ℕ) : Prop :=
  (d ≤ 4 ∨ d = 6) ∧ rest.length = 6 ∨
  d = 5 ∧ rest.length = 11 ∨
  d = 7 ∧ 8 ≤ rest.length ∧ rest.length ≤ 10 ∨
  d = 8 ∧ 2 ≤ rest.length ∧ env.passthroughKeycode (ascii rest) = .none ∨
  d = 9 ∧ rest.length = 0

instance (env : Env) (d : ℕ) (rest : List ℕ) :
    Decidable (FactoryAccepts env d rest) := by
  unfold FactoryAccepts
  infer_instance

/-- The first pull. -/
theorem tryPullUint32_type {d : ℕ} {rest : List ℕ} (hd : d < 10)
    (hlen : rest.length < 30) (hlt : ∀ d ∈ rest, d < 10)
    (stale : ℕ → Key) :
    ∃ s : Digits, s.length = rest.length + 1 ∧ s.position = 1 ∧
      digitsTryPullUint32 (digitsInit (ascii (d :: rest)) stale) 1 false
        = (UInt32.ofNat d, false, s) := by
  have hholds := digitsInit_holds (d :: rest)
    (by rw [List.length_cons]; omega)
    (by
      intro d' hd'
      rcases List.mem_cons.mp hd' with rfl | hd'
      · exact hd
      · exact hlt d' hd') stale
  obtain ⟨hvalue, hmoved⟩ := hholds.pullUint32 (n := 1) (by omega)
    (by show 0 + 1 ≤ _; rw [List.length_cons]; omega)
  refine ⟨{ digitsInit (ascii (d :: rest)) stale with position := 1 }, ?_,
    rfl, ?_⟩
  · show (ascii (d :: rest)).length = _
    rw [length_ascii, List.length_cons]
  · unfold digitsTryPullUint32
    rw [if_neg (by
      rw [hholds.remaining (by show 0 ≤ _; omega)]
      show ¬ (false = true ∨ (d :: rest).length - 0 < 1)
      simp)]
    simp only [hmoved]
    refine Prod.ext ?_ rfl
    rw [← UInt32.toNat_inj, UInt32.toNat_ofNat']
    refine hvalue.trans ?_
    show 10 * 0 + d = _
    omega

theorem fullParseFactoryAndPassthrough_typeCode {d : ℕ} {rest : List ℕ}
    (hd : d < 10) (hlen : rest.length < 30) (hlen' : rest.length ≠ 13)
    (hlt : ∀ d ∈ rest, d < 10) :
    (m.fullParseFactoryAndPassthrough env (ascii (d :: rest))).1.map
        (fun message => message.typeCode.toNat)
      = if FactoryAccepts env d rest then some d else none := by
  obtain ⟨s, hslen, hspos, hpull⟩ := tryPullUint32_type hd hlen hlt
    env.stack.digitChars
  have htype : (UInt32.ofNat d).toUInt8.toNat = d := by
    rw [UInt32.toNat_toUInt8, UInt32.toNat_ofNat']
    omega
  unfold Machine.fullParseFactoryAndPassthrough
  rw [if_neg (by rw [length_ascii, List.length_cons]; omega)]
  simp only [hpull]
  generalize (UInt32.ofNat d).toUInt8 = typeCode at htype
  have hcode (k : UInt8) : typeCode = k ↔ d = k.toNat := by
    rw [← UInt8.toNat_inj, htype]
  by_cases hmac : d < 7
  · rw [if_pos (by
      rw [UInt8.lt_iff_toNat_lt, htype]
      exact hmac)]
    dsimp only
    rw [fullParseFactoryMac_accepts (by omega) hspos, htype]
    by_cases hqc : d = 5
    · rw [if_pos ((hcode fullFactoryQcTest).mpr hqc)]
      refine if_congr ?_ rfl rfl
      unfold FactoryAccepts
      omega
    · rw [if_neg ((hcode fullFactoryQcTest).not.mpr hqc)]
      refine if_congr ?_ rfl rfl
      unfold FactoryAccepts
      omega
  · rw [if_neg (by
      rw [UInt8.lt_iff_toNat_lt, htype]
      exact hmac)]
    by_cases hnomac : d = 7
    · rw [if_pos ((hcode fullFactoryNomacDeviceIdConfirmation).mpr hnomac)]
      dsimp only
      rw [fullParseNomacDeviceId_accepts (by omega) (by omega) hspos, htype]
      refine if_congr ?_ rfl rfl
      unfold FactoryAccepts
      omega
    · rw [if_neg ((hcode fullFactoryNomacDeviceIdConfirmation).not.mpr hnomac)]
      by_cases hpass : d = 8
      · rw [if_pos ((hcode fullPassthroughCommand).mpr hpass), hspos]
        have hdrop : (ascii (d :: rest)).drop 1 = ascii rest := rfl
        by_cases hlong : 2 ≤ rest.length
        · rw [if_pos (by omega), hdrop]
          by_cases hok : env.passthroughKeycode (ascii rest) = .none
          · rw [if_pos hok, if_pos, Option.map_some, htype]
            exact Or.inr (Or.inr (Or.inr (Or.inl ⟨hpass, hlong, hok⟩)))
          · rw [if_neg hok, if_neg, Option.map_none]
            unfold FactoryAccepts
            simp only [hok, and_false, false_or]
            omega
        · rw [if_neg (by omega), if_neg (by unfold FactoryAccepts; omega),
            Option.map_none]
      · rw [if_neg ((hcode fullPassthroughCommand).not.mpr hpass)]
        by_cases halone : rest.length = 0
        · rw [if_pos ⟨trivial, by omega⟩,
            if_pos (by unfold FactoryAccepts; omega), Option.map_some, htype]
        · rw [if_neg (by omega), if_neg (by unfold FactoryAccepts; omega),
            Option.map_none]

/-! ## The grammar -/

/-- The frame's message gets to `nexus_keycode_pro_full_apply_activation`. -/
def ReachesActivation (m : Machine) (env : Env) (frame : Frame) : Prop :=
  ∃ message, (m.fullParse env frame).1 = some message ∧
    message.typeCode < fullFactoryAllowTest ∧
    message.check = fullComputeCheck message env.secretKey

/-- What the parser may make of a frame of these digits. -/
structure Grammatical (m : Machine) (env : Env) (frame : Frame)
    (digits : List ℕ) : Prop where
  activation : ∀ message, (m.fullParse env frame).1 = some message →
    message.typeCode.toNat ≤ 3 →
    digits.length = 14 ∧ compressedIdOf digits ≤ 63
  factory : digits.length ≠ 14 →
    ∀ message, (m.fullParse env frame).1 = some message →
      (message.typeCode = fullFactoryAllowTest ∨
        message.typeCode = fullFactoryDeviceIdDisplay) ∧
          digits.length = 7 ∨
      message.typeCode = fullFactoryQcTest ∧ digits.length = 12 ∨
      message.typeCode = fullFactoryNomacDeviceIdConfirmation ∧
        9 ≤ digits.length ∧ digits.length ≤ 11 ∨
      message.typeCode = fullPassthroughCommand ∧ 3 ≤ digits.length ∧
        env.passthroughKeycode (frame.keys.drop 1) = .none
  notReached : digits.length ≠ 14 → ¬ ReachesActivation m env frame

/-- Seven digits that begin with an activation type. -/
def ShortActivation (digits : List ℕ) : Prop :=
  digits.length = 7 ∧ digits.getD 0 0 ≤ 3

theorem tryPullUint32_nil (stale : ℕ → Key) :
    digitsTryPullUint32 (digitsInit [] stale) 1 false
      = (4294967295, true, digitsInit [] stale) := by
  rw [digitsTryPullUint32,
    if_pos (Or.inr (by simp [digitsRemaining, digitsInit]))]
  rfl

theorem fullParseFactoryAndPassthrough_nil :
    m.fullParseFactoryAndPassthrough env [] = (none, m) := by
  rw [Machine.fullParseFactoryAndPassthrough, if_neg (by decide),
    tryPullUint32_nil]
  dsimp only
  rw [if_neg (by decide), if_neg (by decide), if_neg (by decide),
    if_neg fun h => absurd h.1 (by decide)]

theorem fullParse_empty (hkeys : frame.keys = []) :
    (m.fullParse env frame).1 = none := by
  rw [Machine.fullParse, if_neg (by rw [hkeys]; decide), hkeys,
    fullParseFactoryAndPassthrough_nil]

/-- The type the parser sees, whatever the length. -/
theorem fullParse_typeCode (m : Machine) (env : Env) {d : ℕ} {rest : List ℕ}
    (hkeys : frame.keys = ascii (d :: rest))
    (hlt : ∀ d' ∈ d :: rest, d' < 10) :
    (m.fullParse env frame).1.map (fun message => message.typeCode.toNat)
      = if rest.length = 13 then
          if activationTypeOf (d :: rest) ≤ 3 ∧
              compressedIdOf (d :: rest) ≤ 63 then
            some (activationTypeOf (d :: rest))
          else none
        else if FactoryAccepts env d rest then some d else none := by
  have hlen := frame.length_le
  rw [hkeys, length_ascii, List.length_cons] at hlen
  unfold Machine.fullParse
  by_cases hact : rest.length = 13
  · rw [if_pos (by rw [hkeys, length_ascii, List.length_cons]; omega),
      if_pos hact, hkeys]
    dsimp only
    rw [fullParseActivation_typeCode (by rw [List.length_cons]; omega) hlt]
  · rw [if_neg (by rw [hkeys, length_ascii, List.length_cons]; omega),
      if_neg hact, hkeys]
    exact fullParseFactoryAndPassthrough_typeCode (hlt d (by simp))
      (by omega) hact fun d' hd' => hlt d' (by simp [hd'])

theorem grammatical_of_none {digits : List ℕ}
    (h : (m.fullParse env frame).1 = none) :
    Grammatical m env frame digits where
  activation := by simp [h]
  factory := by simp [h]
  notReached := by
    rintro - ⟨message, hparse, -⟩
    rw [h] at hparse
    cases hparse

/-- An activation frame is read by the parser that was written for it. -/
theorem grammatical_of_length {digits : List ℕ}
    (hkeys : frame.keys = ascii digits) (hlt : ∀ d ∈ digits, d < 10)
    (hlen : digits.length = 14) : Grammatical m env frame digits where
  activation := by
    intro message hparse htype
    refine ⟨hlen, ?_⟩
    obtain ⟨d, rest, rfl⟩ : ∃ d rest, digits = d :: rest :=
      List.exists_cons_of_length_pos (by omega)
    have htypeCode := fullParse_typeCode m env hkeys hlt
    rw [hparse, if_pos (by rw [List.length_cons] at hlen; omega)] at htypeCode
    by_contra hid
    rw [if_neg fun h => hid h.2] at htypeCode
    cases htypeCode
  factory := fun hne => absurd hlen hne
  notReached := fun hne => absurd hlen hne

/-- Other frames are read by type digit: the grammar misses the two kinds that
the parser accepts without a branch for them. -/
theorem grammatical_iff_of_factory {d : ℕ} {rest : List ℕ}
    (hkeys : frame.keys = ascii (d :: rest))
    (hlt : ∀ d' ∈ d :: rest, d' < 10) (hlen : rest.length ≠ 13) :
    Grammatical m env frame (d :: rest) ↔
      ¬ ShortActivation (d :: rest) ∧ d :: rest ≠ [9] := by
  have htypeCode := fullParse_typeCode m env hkeys hlt
  rw [if_neg hlen] at htypeCode
  have hd : d < 10 := hlt d (by simp)
  have hdrop : frame.keys.drop 1 = ascii rest := by rw [hkeys]; rfl
  have hshort : ShortActivation (d :: rest) ↔ rest.length = 6 ∧ d ≤ 3 := by
    unfold ShortActivation
    rw [List.length_cons, List.getD_cons_zero]
    omega
  have hnine : d :: rest = [9] ↔ d = 9 ∧ rest.length = 0 := by
    rw [List.cons.injEq, List.length_eq_zero_iff]
  rw [hshort, Ne, hnine]
  by_cases haccepts : FactoryAccepts env d rest
  · rw [if_pos haccepts] at htypeCode
    obtain ⟨message, hparse, htype⟩ := Option.map_eq_some_iff.mp htypeCode
    have hcode (k : UInt8) : message.typeCode = k ↔ d = k.toNat := by
      rw [← UInt8.toNat_inj, htype]
    constructor
    · rintro ⟨hactivation, hfactory, -⟩
      constructor
      · rintro ⟨-, hle⟩
        have := (hactivation message hparse (by omega)).1
        rw [List.length_cons] at this
        omega
      · rintro ⟨rfl, hrest⟩
        have := hfactory (by rw [List.length_cons]; omega) message hparse
        simp only [hcode] at this
        rcases this with ⟨h | h, -⟩ | ⟨h, -⟩ | ⟨h, -⟩ | ⟨h, -⟩ <;> cases h
    · rintro ⟨hno, hno'⟩
      have hle : ¬ message.typeCode.toNat ≤ 3 := by
        rw [htype]
        rcases haccepts with h | h | h | h | h <;> omega
      refine ⟨?_, ?_, ?_⟩
      · intro message' hparse' hle'
        rw [Option.some.inj (hparse'.symm.trans hparse)] at hle'
        exact absurd hle' hle
      · intro hne message' hparse'
        rw [Option.some.inj (hparse'.symm.trans hparse), hdrop]
        simp only [hcode, List.length_cons]
        show (d = 4 ∨ d = 6) ∧ _ ∨ d = 5 ∧ _ ∨ d = 7 ∧ _ ∨ d = 8 ∧ _
        rcases haccepts with h | h | h | h | h
        · exact Or.inl ⟨by omega, by omega⟩
        · exact Or.inr (Or.inl ⟨h.1, by omega⟩)
        · exact Or.inr (Or.inr (Or.inl ⟨h.1, by omega⟩))
        · exact Or.inr (Or.inr (Or.inr ⟨h.1, by omega, h.2.2⟩))
        · exact absurd h hno'
      · rintro - ⟨message', hparse', hlt', -⟩
        rw [Option.some.inj (hparse'.symm.trans hparse),
          UInt8.lt_iff_toNat_lt] at hlt'
        change _ < 4 at hlt'
        omega
  · rw [if_neg haccepts, Option.map_eq_none_iff] at htypeCode
    refine iff_of_true (grammatical_of_none htypeCode) ⟨?_, ?_⟩
    · rintro ⟨h1, h2⟩
      exact haccepts (Or.inl ⟨by omega, h1⟩)
    · exact fun h => haccepts (Or.inr (Or.inr (Or.inr (Or.inr h))))

/-- A frame of decimal digits is read by the grammar exactly when it is
neither seven digits that begin with an activation type nor the single digit
9. -/
theorem grammatical_iff {digits : List ℕ}
    (hkeys : frame.keys = ascii digits) (hlt : ∀ d ∈ digits, d < 10) :
    Grammatical m env frame digits ↔
      ¬ ShortActivation digits ∧ digits ≠ [9] := by
  cases digits with
  | nil =>
      refine iff_of_true (grammatical_of_none (fullParse_empty hkeys))
        ⟨fun h => ?_, by simp⟩
      exact absurd h.1 (by decide)
  | cons d rest =>
      by_cases hlen : rest.length = 13
      · have hlength : (d :: rest).length = 14 := by
          rw [List.length_cons, hlen]
        refine iff_of_true (grammatical_of_length hkeys hlt hlength)
          ⟨fun h => ?_, fun h => ?_⟩
        · rw [ShortActivation, hlength] at h
          exact absurd h.1 (by decide)
        · rw [h] at hlength
          exact absurd hlength (by decide)
      · exact grammatical_iff_of_factory hkeys hlt hlen

end

/-- ALLOW_TEST in its seven digits. -/
theorem allowTest_grammatical :
    ((Machine.ofStored .factory).fullParse (testEnv .disabled)
        ⟨[52, 48, 54, 52, 57, 56, 51], by decide⟩).1
      = some ⟨0, fullFactoryAllowTest, 0, 64983⟩ ∧
      Grammatical (.ofStored .factory) (testEnv .disabled)
        ⟨[52, 48, 54, 52, 57, 56, 51], by decide⟩ [4, 0, 6, 4, 9, 8, 3] :=
  ⟨by decide +kernel,
    (grammatical_iff (by decide) (by decide)).mpr
      ⟨fun h => absurd h.2 (by decide), by decide⟩⟩

/-- SET_CREDIT in seven digits, `1876736`, with the check of a message of id
0 and no body under the key of zeros. -/
def shortActivationFrame : Frame :=
  ⟨[49, 56, 55, 54, 55, 51, 54], by decide⟩

/-- It is parsed as SET_CREDIT, handled as one, and sets the credit. -/
theorem shortActivationFrame_reaches :
    ((Machine.ofStored .factory).fullParse (testEnv .enabled)
        shortActivationFrame).1
      = some ⟨0, fullActivationSetCredit, 0, 876736⟩ ∧
      ReachesActivation (.ofStored .factory) (testEnv .enabled)
        shortActivationFrame ∧
      .creditSet 0 ∈ ((Machine.ofStored .factory).fullParseAndApply
        (.default .full) (testEnv .enabled) shortActivationFrame).2.effects ∧
      ¬ Grammatical (.ofStored .factory) (testEnv .enabled)
        shortActivationFrame [1, 8, 7, 6, 7, 3, 6] := by
  have hparse : ((Machine.ofStored .factory).fullParse (testEnv .enabled)
      shortActivationFrame).1
        = some ⟨0, fullActivationSetCredit, 0, 876736⟩ := by
    decide +kernel
  refine ⟨hparse, ⟨_, hparse, by decide, by decide +kernel⟩,
    by decide +kernel, fun h => ?_⟩
  exact absurd (h.activation _ hparse (by decide)).1 (by decide)

end Nexus.Keycode
