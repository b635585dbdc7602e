import Nexus.Proofs.Carried
import Nexus.Proofs.Digits

/-!
# Full-protocol activation codes

What the backend does to a message: eight clear digits, each shifted by a
pseudorandom byte drawn from the check, and the six digits of the check. The
parser undoes it. Taking the bytes off is a subtraction that can go well below
zero, and modulo ten it is the inverse of the addition, so for each check the
scrambling is a bijection of the eight-digit bodies; the id comes back because
the window holds one id of each residue.
-/

namespace Nexus.Keycode

open Nexus.Util Nexus.Lib

/-! ## Digits and pseudorandom bytes -/

theorem mathmod10Loop_eq {fuel : ℕ} {x : ℤ} (hfuel : (-x).toNat ≤ fuel) :
    mathmod10Loop fuel x = if x < 0 then x % 10 else x := by
  induction fuel generalizing x with
  | zero =>
      rw [mathmod10Loop, if_neg (by omega)]
  | succ fuel ih =>
      rw [mathmod10Loop]
      by_cases hneg : x < 0
      · rw [if_pos hneg, if_pos hneg, ih (by omega)]
        split <;> omega
      · rw [if_neg hneg, if_neg hneg]

/-- `_mathmod10` is the mathematical remainder. -/
theorem mathmod10_toNat {x : ℤ} (hx : x < 2 ^ 32) :
    (mathmod10 x).toNat = (x % 10).toNat := by
  have hloop := mathmod10Loop_eq (le_refl (-x).toNat)
  obtain ⟨n, hn⟩ : ∃ n : ℕ, mathmod10Loop (-x).toNat x = n := by
    refine ⟨(mathmod10Loop (-x).toNat x).toNat, ?_⟩
    rw [hloop]
    split <;> omega
  have hlt : n < 2 ^ 32 := by
    rw [hn] at hloop
    split at hloop <;> omega
  have hmod : n % 10 = (x % 10).toNat := by
    rw [hn] at hloop
    split at hloop <;> omega
  unfold mathmod10
  rw [hn, UInt32.toNat_toUInt8, UInt32.toNat_mod, UInt32.ofInt,
    UInt32.toNat_ofNat', ← hmod]
  show ((n : ℤ) % 2 ^ 32).toNat % 2 ^ 32 % 10 % 2 ^ 8 = n % 10
  omega

/-- Take the pseudorandom bytes off eight digits. -/
def unscramble (digits : List ℕ) (check : UInt32) : List ℕ :=
  List.zipWith
    (fun (d : ℕ) (p : UInt8) => (((d : ℤ) - p.toNat) % 10).toNat) digits
    (fullPrngBytes check)

/-- Put them on. -/
def scramble (digits : List ℕ) (check : UInt32) : List ℕ :=
  List.zipWith (fun (d : ℕ) (p : UInt8) => (d + p.toNat) % 10) digits
    (fullPrngBytes check)

theorem length_fullPrngBytes (check : UInt32) :
    (fullPrngBytes check).length = 8 :=
  length_checkComputePseudorandomBytes _ _ (by omega)

/-- The lists of eight decimal digits. -/
structure Body (digits : List ℕ) : Prop where
  length : digits.length = 8
  lt : ∀ d ∈ digits, d < 10

section

variable {digits : List ℕ} (check : UInt32)

theorem length_scramble (h : digits.length = 8) :
    (scramble digits check).length = 8 := by
  simp [scramble, h, length_fullPrngBytes]

theorem length_unscramble (h : digits.length = 8) :
    (unscramble digits check).length = 8 := by
  simp [unscramble, h, length_fullPrngBytes]

theorem body_scramble (h : digits.length = 8) :
    Body (scramble digits check) where
  length := length_scramble check h
  lt := by
    intro d hd
    obtain ⟨i, hi, rfl⟩ := List.mem_iff_getElem.mp hd
    simp only [scramble, List.getElem_zipWith]
    omega

theorem body_unscramble (h : digits.length = 8) :
    Body (unscramble digits check) where
  length := length_unscramble check h
  lt := by
    intro d hd
    obtain ⟨i, hi, rfl⟩ := List.mem_iff_getElem.mp hd
    simp only [unscramble, List.getElem_zipWith]
    omega

theorem unscramble_scramble (h : Body digits) :
    unscramble (scramble digits check) check = digits := by
  refine List.ext_getElem ?_ fun i h1 h2 => ?_
  · rw [length_unscramble _ (length_scramble _ h.length), h.length]
  · have hd := h.lt digits[i] (List.getElem_mem h2)
    simp only [unscramble, scramble, List.getElem_zipWith]
    omega

theorem scramble_unscramble (h : Body digits) :
    scramble (unscramble digits check) check = digits := by
  refine List.ext_getElem ?_ fun i h1 h2 => ?_
  · rw [length_scramble _ (length_unscramble _ h.length), h.length]
  · have hd := h.lt digits[i] (List.getElem_mem h2)
    simp only [unscramble, scramble, List.getElem_zipWith]
    omega

/-- One key of `nexus_keycode_pro_full_deinterleave`, whatever the key. -/
theorem deinterleaveKey_key (k : Key) (p : UInt8) :
    deinterleaveKey k p
      = 48 + ((((k - 48) % 256 - p.toNat) % 10).toNat : ℤ) := by
  have hp := p.toNat_lt
  rw [deinterleaveKey, mathmod10_toNat (by omega)]
  exact add_comm _ _

/-- A digit stays a digit. -/
theorem deinterleaveKey_eq {d : ℕ} (hd : d < 10) (p : UInt8) :
    deinterleaveKey (48 + (d : ℤ)) p
      = 48 + ((((d : ℤ) - p.toNat) % 10).toNat : ℤ) := by
  rw [deinterleaveKey_key, add_sub_cancel_left,
    show (d : ℤ) % 256 = d by omega]

/-- The frame's first eight keys lose their bytes, the rest stay. -/
theorem fullDeinterleave_ascii (h : Body digits) (rest : List ℕ) :
    fullDeinterleave (ascii (digits ++ rest)) check
      = ascii (unscramble digits check ++ rest) := by
  have hlen := length_unscramble check h.length
  refine List.ext_getElem ?_ fun i h1 h2 => ?_
  · simp [fullDeinterleave, hlen, h.length]
  · simp only [fullDeinterleave, ascii, List.getElem_mapIdx,
      List.getElem_map]
    by_cases hi : i < 8
    · rw [if_pos hi, List.getElem_append_left (by rw [h.length]; exact hi),
        List.getElem_append_left (by rw [hlen]; exact hi),
        deinterleaveKey_eq (h.lt _ (List.getElem_mem _))]
      simp only [unscramble, List.getElem_zipWith]
      rw [List.getD_eq_getElem _ _ (by
        rw [length_fullPrngBytes]; exact hi)]
    · rw [if_neg hi, List.getElem_append_right (by rw [h.length]; omega),
        List.getElem_append_right (by rw [hlen]; omega)]
      simp only [hlen, h.length]

end

/-- The keys of the eight-digit bodies. -/
def bodyKeys : Set (List Key) := {keys | ∃ digits, Body digits ∧
  keys = ascii digits}

theorem fullDeinterleave_bijOn (check : UInt32) :
    Set.BijOn (fun keys => fullDeinterleave keys check) bodyKeys bodyKeys := by
  have hdeint {digits : List ℕ} (h : Body digits) :
      fullDeinterleave (ascii digits) check
        = ascii (unscramble digits check) := by
    simpa using fullDeinterleave_ascii check h []
  have hinj : Function.Injective ascii :=
    List.map_injective_iff.mpr fun a b hab => by
      simpa using hab
  refine ⟨?_, ?_, ?_⟩
  · rintro keys ⟨digits, h, rfl⟩
    exact ⟨_, body_unscramble check h.length, hdeint h⟩
  · rintro keys ⟨digits, h, rfl⟩ keys' ⟨digits', h', rfl⟩ heq
    simp only [hdeint h, hdeint h'] at heq
    rw [← scramble_unscramble check h, hinj heq, scramble_unscramble check h']
  · rintro keys ⟨digits, h, rfl⟩
    refine ⟨ascii (scramble digits check),
      ⟨_, body_scramble check h.length, rfl⟩, ?_⟩
    simp only [hdeint (body_scramble check h.length)]
    rw [unscramble_scramble check h]

/-! ## Frames of fourteen digits -/

/-- The check field is the last six digits. -/
theorem fullCheckFieldFromFrame_ascii {digits : List ℕ}
    (hlen : digits.length = 14) (hlt : ∀ d ∈ digits, d < 10)
    (stale : ℕ → Key) :
    (fullCheckFieldFromFrame (ascii digits) stale).toNat
      = ofDigits 10 (digits.drop 8) := by
  have hholds := digitsInit_holds _ (by omega) hlt stale
  unfold fullCheckFieldFromFrame
  rw [length_ascii, hlen, if_neg (by omega), hholds.skip (by
    show 0 + 8 ≤ _; omega)]
  refine ((hholds.move 8).pullUint32 (n := 6) (by omega) (by
    show 8 + 6 ≤ _; omega)).1.trans ?_
  show ofDigits 10 ((digits.drop 8).take 6) = _
  rw [List.take_of_length_le (by rw [List.length_drop]; omega)]

theorem fullParseActivation_of (pd : UInt32) {check : UInt32} {keys : List Key}
    {stale : ℕ → Key} (h : fullCheckFieldFromFrame keys stale = check) :
    fullParseActivation pd keys stale
      = fullParseActivationBody pd check
        (digitsPullUint8
          (digitsInit (fullDeinterleave keys check) stale) 1).1
        (digitsPullUint8 (digitsPullUint8
          (digitsInit (fullDeinterleave keys check) stale) 1).2 2).1
        (digitsPullUint8 (digitsPullUint8
          (digitsInit (fullDeinterleave keys check) stale) 1).2 2).2 := by
  rw [fullParseActivation, h]

/-! ## Codes -/

/-- The eight clear digits of a message: type, compressed id, body. -/
def fullClearDigits (message : FullMessage) : List ℕ :=
  toDigits 10 1 message.typeCode.toNat
    ++ toDigits 10 2 (message.fullMessageId.toNat % 64)
    ++ toDigits 10 5 message.body.toNat

/-- The fourteen digits of a message's code. -/
def fullCodeDigits (message : FullMessage) : List ℕ :=
  scramble (fullClearDigits message) message.check
    ++ toDigits 10 6 message.check.toNat

/-- The code as keys. -/
def fullCode (message : FullMessage) : List Key :=
  ascii (fullCodeDigits message)

/-- A message a code can carry: hours of five digits, or a target of one. -/
structure Encodable (message : FullMessage) : Prop where
  typeCode : message.typeCode < fullFactoryAllowTest
  hours : message.typeCode ≠ fullActivationWipeState →
    message.body.toNat < 100000
  target : message.typeCode = fullActivationWipeState →
    message.body.toNat < 10
  check : message.check.toNat < 1000000

theorem body_fullClearDigits (message : FullMessage) :
    Body (fullClearDigits message) where
  length := by simp [fullClearDigits]
  lt := by
    intro d hd
    simp only [fullClearDigits, List.mem_append] at hd
    rcases hd with (hd | hd) | hd <;> exact lt_of_mem_toDigits (by omega) hd

theorem length_fullCodeDigits (message : FullMessage) :
    (fullCodeDigits message).length = 14 := by
  simp [fullCodeDigits, length_scramble _ (body_fullClearDigits message).length]

theorem length_fullCode (message : FullMessage) :
    (fullCode message).length = 14 := by
  rw [fullCode, length_ascii, length_fullCodeDigits]

/-- The frame that carries a message. -/
def fullFrameOf (message : FullMessage) : Frame :=
  ⟨fullCode message, by rw [length_fullCode]; omega⟩

theorem fullCheckFieldFromFrame_fullCode {message : FullMessage}
    (h : Encodable message) (stale : ℕ → Key) :
    fullCheckFieldFromFrame (fullCode message) stale = message.check := by
  have hbody := body_scramble message.check
    (body_fullClearDigits message).length
  have hlt : ∀ d ∈ fullCodeDigits message, d < 10 := by
    intro d hd
    rcases List.mem_append.mp hd with hd | hd
    · exact hbody.lt d hd
    · exact lt_of_mem_toDigits (by omega) hd
  rw [← UInt32.toNat_inj, fullCode,
    fullCheckFieldFromFrame_ascii (length_fullCodeDigits message) hlt,
    fullCodeDigits, List.drop_left' hbody.length]
  exact ofDigits_toDigits (by have := h.check; omega)

/-- The digit stream the activation parser works on. -/
theorem digits_fullCode (message : FullMessage) (stale : ℕ → Key) :
    (digitsInit (fullDeinterleave (fullCode message) message.check)
      stale).Holds
        (fullClearDigits message ++ toDigits 10 6 message.check.toNat) := by
  have hclear := body_fullClearDigits message
  have hbody := body_scramble message.check hclear.length
  rw [fullCode, fullCodeDigits, fullDeinterleave_ascii _ hbody,
    unscramble_scramble _ hclear]
  refine digitsInit_holds _ (by simp [hclear.length]) ?_ stale
  intro d hd
  rcases List.mem_append.mp hd with hd | hd
  · exact hclear.lt d hd
  · exact lt_of_mem_toDigits (by omega) hd

/-- The fields of the clear digits, where the parser looks for them. -/
theorem fields_fullClearDigits (message : FullMessage) (rest : List ℕ) :
    ((fullClearDigits message ++ rest).drop 0).take 1
        = toDigits 10 1 message.typeCode.toNat ∧
      ((fullClearDigits message ++ rest).drop 1).take 2
        = toDigits 10 2 (message.fullMessageId.toNat % 64) ∧
      ((fullClearDigits message ++ rest).drop 3).take 5
        = toDigits 10 5 message.body.toNat := by
  simp only [fullClearDigits, List.append_assoc, List.drop_zero]
  refine ⟨List.take_left' (by simp), ?_, ?_⟩
  · rw [List.drop_left' (by simp), List.take_left' (by simp)]
  · rw [← List.append_assoc, List.drop_left' (by simp),
      List.take_left' (by simp)]

/-- A wipe target is the last of its five digits. -/
theorem target_fullClearDigits {message : FullMessage}
    (h : message.body.toNat < 10) (rest : List ℕ) :
    ((fullClearDigits message ++ rest).drop 7).take 1
      = [message.body.toNat] := by
  have hdigits : toDigits 10 5 message.body.toNat
      = [0, 0, 0, 0] ++ [message.body.toNat] := by
    simp [toDigits]
    omega
  rw [fullClearDigits, hdigits, List.append_assoc _ _ rest,
    List.append_assoc [0, 0, 0, 0], ← List.append_assoc _ [0, 0, 0, 0],
    List.drop_left' (by simp)]
  rfl

/-- The body of a message, pulled as its type says. -/
theorem fullActivationBody_fullCode {message : FullMessage}
    (h : Encodable message) {digits : Digits}
    (hholds : digits.Holds
      (fullClearDigits message ++ toDigits 10 6 message.check.toNat))
    (hpos : digits.position = 3) :
    fullActivationBody message.typeCode digits
      = some (message.body, { digits with position := 8 }) := by
  have hlen : (fullClearDigits message
      ++ toDigits 10 6 message.check.toNat).length = 14 := by
    simp [(body_fullClearDigits message).length]
  unfold fullActivationBody
  by_cases hwipe : message.typeCode = fullActivationWipeState
  · obtain ⟨-, hreserved⟩ := hholds.pullUint32 (n := 4) (by omega) (by omega)
    obtain ⟨htarget, hrest⟩ := (hholds.move 7).pullUint8 (n := 1) (by omega)
      (by show 7 + 1 ≤ _; omega)
    rw [if_neg (by rw [hwipe]; decide), if_pos hwipe]
    simp only [hreserved, hpos, Nat.reduceAdd, hrest]
    change _ = ofDigits 10 (List.take 1 (List.drop 7 _)) at htarget
    rw [target_fullClearDigits (h.target hwipe)] at htarget
    refine congrArg some (Prod.ext ?_ rfl)
    rw [← UInt32.toNat_inj, UInt8.toNat_toUInt32, htarget]
    simp [ofDigits]
  · obtain ⟨hbody, hrest⟩ := hholds.pullUint32 (n := 5) (by omega) (by omega)
    have htype : message.typeCode = fullActivationAddCredit ∨
        message.typeCode = fullActivationDemoCode ∨
        message.typeCode = fullActivationSetCredit := by
      have hlt := h.typeCode
      rw [UInt8.lt_iff_toNat_lt] at hlt
      simp only [← UInt8.toNat_inj] at hwipe ⊢
      change _ < 4 at hlt
      change ¬ _ = 2 at hwipe
      show _ = 0 ∨ _ = 3 ∨ _ = 1
      omega
    rw [if_pos htype]
    rw [hpos, (fields_fullClearDigits message _).2.2,
      ofDigits_toDigits (h.hours hwipe)] at hbody
    refine congrArg some (Prod.ext (UInt32.toNat_inj.mp hbody) ?_)
    rw [hrest, hpos]

theorem fullParseActivation_fullCode {message : FullMessage}
    (h : Encodable message) {pd : UInt32} (hpd : 23 ≤ pd.toNat)
    (hpd' : pd.toNat + 40 < 2 ^ 32)
    (hlo : pd.toNat ≤ message.fullMessageId.toNat + 23)
    (hhi : message.fullMessageId.toNat ≤ pd.toNat + 40)
    (stale : ℕ → Key) :
    fullParseActivation pd (fullCode message) stale = some message := by
  have hholds := digits_fullCode message stale
  have hlen : (fullClearDigits message
      ++ toDigits 10 6 message.check.toNat).length = 14 := by
    simp [(body_fullClearDigits message).length]
  obtain ⟨hfield1, hfield2, -⟩ := fields_fullClearDigits message
    (toDigits 10 6 message.check.toNat)
  have hpos : (digitsInit (fullDeinterleave (fullCode message)
    message.check) stale).position = 0 := rfl
  have hparse := fullParseActivation_of pd
    (fullCheckFieldFromFrame_fullCode h stale)
  generalize digitsInit _ stale = digits at hholds hpos hparse
  obtain ⟨htype, hmoved⟩ := hholds.pullUint8 (n := 1) (by omega) (by omega)
  rw [hpos] at htype hmoved
  obtain ⟨hid, hmoved'⟩ := (hholds.move 1).pullUint8 (n := 2) (by omega)
    (by show 1 + 2 ≤ _; omega)
  change _ = ofDigits 10 (List.take 2 (List.drop 1 _)) at hid
  have hlt : message.typeCode.toNat < 10 := by
    have hlt := h.typeCode
    rw [UInt8.lt_iff_toNat_lt] at hlt
    change _ < 4 at hlt
    omega
  rw [hfield1, ofDigits_toDigits hlt] at htype
  rw [hfield2, ofDigits_toDigits (by omega)] at hid
  rw [Nat.zero_add] at hmoved
  rw [hparse, hmoved, UInt8.toNat_inj.mp htype, hmoved']
  show fullParseActivationBody pd message.check message.typeCode _
    { digits with position := 3 } = _
  generalize (digitsPullUint8 { digits with position := 1 } 2).1
    = received at hid
  have hbody := fullActivationBody_fullCode h (hholds.move 3) rfl
  have hend := ((hholds.move 8).pullUint32 (n := 6) (by omega)
    (by show 8 + 6 ≤ _; omega)).2
  unfold fullParseActivationBody
  rw [if_neg (by
    rw [gt_iff_lt, UInt8.lt_iff_toNat_lt, hid]
    show ¬ 63 < _
    omega), hbody]
  simp only [hend]
  rw [if_pos (by rw [hholds.length, hlen]),
    inferFullMessageId_eq hpd hpd' hlo hhi hid.symm]

/-- Every code decodes to the message it was made from, and for every check
the scrambling of the eight digits in front of it is a bijection. -/
theorem fullCode_round_trip (m : Machine) (hpd : 23 ≤ m.pdIndex.toNat)
    (hpd' : m.pdIndex.toNat ≤ 4294967295 - 40) (env : Env) :
    (∀ message : FullMessage, Encodable message →
      m.pdIndex.toNat ≤ message.fullMessageId.toNat + 23 →
      message.fullMessageId.toNat ≤ m.pdIndex.toNat + 40 →
      (fullCode message).length = 14 ∧
        m.fullParse env (fullFrameOf message) = (some message, m)) ∧
    ∀ check : UInt32,
      Set.BijOn (fun keys => fullDeinterleave keys check)
        bodyKeys bodyKeys := by
  refine ⟨fun message h hlo hhi => ⟨length_fullCode message, ?_⟩,
    fullDeinterleave_bijOn⟩
  have hlength : (fullFrameOf message).keys.length = 14 :=
    length_fullCode message
  rw [Machine.fullParse, if_pos hlength, fullFrameOf]
  rw [fullParseActivation_fullCode h hpd (by omega) hlo hhi]

/-- A WIPE_STATE code with target 7 and id 24, at the factory window. -/
theorem fullCode_round_trip_wipe :
    (fullCode ⟨24, fullActivationWipeState, 7, 241342⟩).length = 14 ∧
      (Machine.ofStored .factory).fullParse (testEnv .enabled)
          (fullFrameOf ⟨24, fullActivationWipeState, 7, 241342⟩)
        = (some ⟨24, fullActivationWipeState, 7, 241342⟩,
          .ofStored .factory) :=
  (fullCode_round_trip (.ofStored .factory) (by decide) (by decide)
    (testEnv .enabled)).1 _ ⟨by decide, by decide, by decide, by decide⟩
      (by decide) (by decide)

end Nexus.Keycode
