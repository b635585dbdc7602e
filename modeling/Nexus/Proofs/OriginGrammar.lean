import Nexus.Channel.OriginManager
import Nexus.Proofs.FullCode

/-!
# What an origin command spells

A command is a type digit, a body whose length the type decides, and six digits
of MAC. What stands before the MAC is masked: each digit has the pseudorandom
byte of its place added to it, modulo ten. The parser takes the mask off and
pulls type and body; a command is one if six digits remain. Whatever lies on
the stack behind the eight bytes that are computed, a digit comes out of it, and
so the length and the first digit decide.
-/

namespace Nexus.Channel

open Nexus.Lib Nexus.Util
open Nexus.Keycode (fullPrngBytes length_fullPrngBytes deinterleaveKey_eq)

/-! ## Commands -/

/-- The digits of the body. -/
def OmCommandType.bodyDigits : OmCommandType → ℕ
  | genericControllerAction => 2
  | accessoryActionUnlock => 1
  | accessoryActionUnlink => 1
  | createAccessoryLinkMode3 => 6
  | invalid => 0

/-- The body that holds a number. -/
def OmCommandType.bodyOf : OmCommandType → ℕ → OmCommandBody
  | genericControllerAction, v =>
      { OmCommandBody.zero with actionType := UInt32.ofNat v }
  | accessoryActionUnlock, v =>
      { OmCommandBody.zero with
        truncDigitsInt := UInt32.ofNat v, truncDigitsCount := 1 }
  | accessoryActionUnlink, v =>
      { OmCommandBody.zero with
        truncDigitsInt := UInt32.ofNat v, truncDigitsCount := 1 }
  | createAccessoryLinkMode3, v =>
      { OmCommandBody.zero with accessoryChallenge := UInt32.ofNat v }
  | invalid, _ => OmCommandBody.zero

/-- The pseudorandom bytes of a MAC: the eight bytes of its check value. -/
def macBytes (mac : ℕ) : List UInt8 := fullPrngBytes (UInt32.ofNat mac)

/-- The sender's side: type and body, masked, and the MAC. -/
def encode (type : OmCommandType) (body mac : ℕ) : List ℕ :=
  (type.toUInt8.toNat :: toDigits 10 type.bodyDigits body).mapIdx (fun i d =>
    (d + ((macBytes mac).getD i 0).toNat) % 10) ++ toDigits 10 6 mac

/-- A digit without its mask. -/
def unmask (byte : UInt8) (d : ℕ) : ℕ := (((d : ℤ) - byte.toNat) % 10).toNat

/-- The number in the last six digits. -/
def macOf (digits : List ℕ) : ℕ :=
  ofDigits 10 (digits.drop (digits.length - 6))

/-- The type digit and the length of a command. -/
def InGrammar (digits : List ℕ) : Prop :=
  ∃ d rest, digits = d :: rest ∧
    (unmask ((macBytes (macOf digits)).getD 0 0) d, digits.length)
      ∈ [(0, 9), (1, 8), (2, 8), (9, 13)]

/-- The parser of command digits, whatever else is in memory. -/
def parseDigits (stack : OmStack) (stale : ℕ → Key) (digits : List ℕ) :
    Option OmCommandMessage :=
  asciiParseMessage stack (digitsInit (ascii digits) stale)

/-- Exactly the commands are accepted, of all runs of at most twenty digits. -/
def AcceptsGrammar (stack : OmStack) (stale : ℕ → Key) : Prop :=
  ∀ digits : List ℕ, (∀ d ∈ digits, d < 10) →
    digits.length ≤ omCommandAsciiDigitsMaxLength →
    ((parseDigits stack stale digits).isSome = true ↔ InGrammar digits)

/-- What is sent is what is parsed. -/
def InvertsEncoder (stack : OmStack) (stale : ℕ → Key) : Prop :=
  ∀ (type : OmCommandType) (body mac : ℕ), type ≠ .invalid →
    body < 10 ^ type.bodyDigits → mac < 10 ^ 6 →
    parseDigits stack stale (encode type body mac)
      = some ⟨type, type.bodyOf body, UInt32.ofNat mac, 0⟩

/-! ## Without the mask -/

theorem unmask_lt (byte : UInt8) (d : ℕ) : unmask byte d < 10 := by
  rw [unmask]
  omega

theorem unmask_masked (byte : UInt8) {d : ℕ} (hd : d < 10) :
    unmask byte ((d + byte.toNat) % 10) = d := by
  rw [unmask]
  omega

/-- The digits that are parsed. Behind the eighth, the mask is whatever the
stack holds. -/
def plain (stack : OmStack) (digits : List ℕ) (mac : UInt32) : List ℕ :=
  (digits.take (digits.length - 6)).mapIdx (fun i d =>
    unmask ((fullPrngBytes mac).getD i (stack.prngBytes i)) d)
    ++ digits.drop (digits.length - 6)

section

variable {stack : OmStack} {digits : List ℕ} {s : Digits} {mac : UInt32}

theorem length_plain : (plain stack digits mac).length = digits.length := by
  rw [plain, List.length_append, List.length_mapIdx, ← List.length_append,
    List.take_append_drop]

/-- As many bytes as are asked for, and behind the eighth the stack. -/
theorem getD_prngBytes {n i : ℕ} (hi : i < n) (b : UInt8) :
    (checkComputePseudorandomBytes integrityCheckFixed00Key (le32 mac)
      n).getD i b = (fullPrngBytes mac).getD i b := by
  have hall : fullPrngBytes mac =
      (checkCompute integrityCheckFixed00Key (0x00 :: le32 mac)).toList := by
    rw [fullPrngBytes, checkComputePseudorandomBytes]
    exact List.take_of_length_le (by rw [Vector.length_toList])
  rw [checkComputePseudorandomBytes, ← hall, List.getD_eq_getElem?_getD,
    List.getD_eq_getElem?_getD, List.getElem?_take_of_lt hi]

theorem plain_lt (hlt : ∀ d ∈ digits, d < 10) :
    ∀ d ∈ plain stack digits mac, d < 10 := by
  intro d hd
  rw [plain, List.mem_append] at hd
  rcases hd with hd | hd
  · obtain ⟨i, hi, rfl⟩ := List.mem_iff_getElem.mp hd
    rw [List.getElem_mapIdx]
    exact unmask_lt _ _
  · exact hlt d (List.mem_of_mem_drop hd)

/-- The stream behind `_nexus_channel_om_deinterleave_digits`. -/
theorem deinterleaveDigits_holds (h : s.Holds digits)
    (hlong : 6 ≤ digits.length)
    (hshort : digits.length ≤ omCommandAsciiDigitsMaxLength) :
    (deinterleaveDigits stack s mac).Holds (plain stack digits mac) := by
  have hshort' : digits.length ≤ 20 := hshort
  have hcount : (s.length - omFixedMacDigitCount) % 256
      = digits.length - 6 := by
    rw [h.length]
    show (digits.length - 6) % 256 = _
    omega
  refine ⟨h.length.trans length_plain.symm, ?_, plain_lt h.lt, ?_⟩
  · rw [length_plain]
    exact h.short
  · intro i hi
    have hi' : i < digits.length := by
      rw [length_plain] at hi
      exact hi
    have htake : (digits.take (digits.length - 6)).length
        = digits.length - 6 := by
      rw [List.length_take]
      omega
    rw [deinterleaveDigits]
    dsimp only
    rw [hcount]
    by_cases hbody : i < digits.length - 6
    · have hleft : (plain stack digits mac)[i]
          = unmask ((fullPrngBytes mac).getD i (stack.prngBytes i))
            digits[i] := by
        simp only [plain]
        rw [List.getElem_append_left (by rw [List.length_mapIdx, htake]; exact hbody),
          List.getElem_mapIdx, List.getElem_take]
      rw [if_pos hbody, h.chars i hi', hleft,
        deinterleaveKey_eq (h.lt _ (List.getElem_mem hi')),
        getD_prngBytes hbody]
      rfl
    · have hright : (plain stack digits mac)[i] = digits[i] := by
        simp only [plain]
        rw [List.getElem_append_right (by rw [List.length_mapIdx, htake]; omega),
          List.getElem_drop]
        congr 1
        rw [List.length_mapIdx, htake]
        omega
      have hmac : i < digits.length - 6 + omFixedMacDigitCount := by
        show i < digits.length - 6 + 6
        omega
      rw [if_neg hbody, if_pos hmac, h.chars i hi', hright]

end

/-! ## Pulling the body -/

section

variable {digits : List ℕ} {s : Digits}

/-- The number in the next digits. -/
def valueAt (digits : List ℕ) (position n : ℕ) : ℕ :=
  ofDigits 10 ((digits.drop position).take n)

theorem tryPullUint32_holds (h : s.Holds digits) {n : ℕ} (hn : n ≤ 9)
    (hfits : s.position + n ≤ digits.length) :
    digitsTryPullUint32 s n false
      = (UInt32.ofNat (valueAt digits s.position n), false,
        { s with position := s.position + n }) := by
  obtain ⟨hvalue, hrest⟩ := h.pullUint32 hn hfits
  have hremains : ¬ (false = true ∨ digitsRemaining s < n) := by
    rw [h.remaining (by omega)]
    rintro (hfalse | hless)
    · cases hfalse
    · omega
  rw [digitsTryPullUint32, if_neg hremains]
  dsimp only
  rw [hrest, valueAt, ← hvalue, UInt32.ofNat_toNat]

theorem remaining_at (h : s.Holds digits) {p : ℕ} (hp : p < digits.length) :
    digitsRemaining { s with position := p } > 0 := by
  rw [(h.move p).remaining (le_of_lt hp)]
  exact Nat.sub_pos_of_lt hp

/-- Two digits are never `UINT8_MAX`. -/
theorem asciiExtractBodyControllerAction_holds (h : s.Holds digits)
    (hpos : s.position = 1) (hlong : 7 ≤ digits.length) :
    asciiExtractBodyControllerAction s =
      some ({ OmCommandBody.zero with
        actionType := UInt32.ofNat (valueAt digits 1 2) },
        { s with position := 1 + 2 }) := by
  obtain ⟨hvalue, hrest⟩ := h.pullUint8 le_rfl (by omega)
  rw [hpos] at hvalue hrest
  have hsmall : valueAt digits 1 2 < 10 ^ 2 := by
    refine (ofDigits_lt fun d hd =>
      h.lt d (List.mem_of_mem_drop (List.mem_of_mem_take hd))).trans_le ?_
    refine Nat.pow_le_pow_right (by omega) ?_
    rw [List.length_take]
    exact Nat.min_le_left _ _
  have hnot : (digitsPullUint8 s 2).1 ≠ 255 := by
    intro hmax
    rw [hmax] at hvalue
    have h255 : valueAt digits 1 2 = 255 := hvalue.symm
    omega
  have hbody : (digitsPullUint8 s 2).1.toUInt32
      = UInt32.ofNat (valueAt digits 1 2) := by
    have hbyte := (digitsPullUint8 s 2).1.toNat_lt
    rw [valueAt, ← hvalue, ← UInt32.toNat_inj, UInt8.toNat_toUInt32,
      UInt32.toNat_ofNat', Nat.mod_eq_of_lt (by omega)]
  rw [asciiExtractBodyControllerAction]
  dsimp only
  rw [hrest, if_pos ⟨hnot, remaining_at h (by omega)⟩, hbody]

theorem asciiExtractBodyAccessoryAction_holds (h : s.Holds digits)
    (hpos : s.position = 1) (hlong : 7 ≤ digits.length) :
    asciiExtractBodyAccessoryAction s =
      some ({ OmCommandBody.zero with
        truncDigitsInt := UInt32.ofNat (valueAt digits 1 1)
        truncDigitsCount := 1 }, { s with position := 1 + 1 }) := by
  have hpull := tryPullUint32_holds h (n := 1) (by omega) (by omega)
  rw [hpos] at hpull
  rw [asciiExtractBodyAccessoryAction, hpull]
  dsimp only
  rw [if_pos ⟨rfl, remaining_at h (by omega)⟩]

/-- Of seven digits none would remain. -/
theorem asciiExtractBodyCreateLink_holds (h : s.Holds digits)
    (hpos : s.position = 1) (hlong : 7 ≤ digits.length) :
    asciiExtractBodyCreateLink s =
      if 7 < digits.length then
        some ({ OmCommandBody.zero with
          accessoryChallenge := UInt32.ofNat (valueAt digits 1 6) },
          { s with position := 1 + 6 })
      else none := by
  have hpull := tryPullUint32_holds h (n := 6) (by omega) (by omega)
  rw [hpos] at hpull
  rw [asciiExtractBodyCreateLink, hpull]
  dsimp only
  by_cases hmore : 7 < digits.length
  · rw [if_pos hmore, if_pos ⟨rfl, remaining_at h hmore⟩]
  · rw [if_neg hmore, if_neg]
    rintro ⟨-, hremains⟩
    rw [(h.move _).remaining (by show 1 + 6 ≤ _; omega)] at hremains
    change digits.length - (1 + 6) > 0 at hremains
    omega

/-- With seven digits or more every body can be pulled; something must
remain. -/
theorem asciiExtractBody_holds (h : s.Holds digits) (hpos : s.position = 1)
    (hlong : 7 ≤ digits.length) {type : OmCommandType}
    (htype : type ≠ .invalid) :
    asciiExtractBody type s =
      if 1 + type.bodyDigits < digits.length then
        some (type.bodyOf (valueAt digits 1 type.bodyDigits),
          { s with position := 1 + type.bodyDigits })
      else none := by
  cases type with
  | genericControllerAction =>
      have hfits : 1 + 2 < digits.length := by omega
      exact (asciiExtractBodyControllerAction_holds h hpos hlong).trans
        (if_pos hfits).symm
  | accessoryActionUnlock =>
      have hfits : 1 + 1 < digits.length := by omega
      exact (asciiExtractBodyAccessoryAction_holds h hpos hlong).trans
        (if_pos hfits).symm
  | accessoryActionUnlink =>
      have hfits : 1 + 1 < digits.length := by omega
      exact (asciiExtractBodyAccessoryAction_holds h hpos hlong).trans
        (if_pos hfits).symm
  | createAccessoryLinkMode3 =>
      exact asciiExtractBodyCreateLink_holds h hpos hlong
  | invalid => exact absurd rfl htype

/-! ## The message -/

/-- The message that digits without a mask spell. -/
def reading (digits : List ℕ) (mac : UInt32) : Option OmCommandMessage :=
  match digits with
  | [] => none
  | t :: rest =>
      let type := asciiValidateCommandType (UInt8.ofNat t)
      if type ≠ .invalid ∧ rest.length = type.bodyDigits + 6 then
        some ⟨type, type.bodyOf (ofDigits 10 (rest.take type.bodyDigits)),
          mac, 0⟩
      else none

end

section

variable {stack : OmStack} {digits : List ℕ} {s : Digits}

/-- What remains at the beginning are all digits. -/
theorem remaining_start (h : s.Holds digits) (hpos : s.position = 0)
    (hshort : digits.length ≤ omCommandAsciiDigitsMaxLength) :
    digitsRemaining s % 256 = digits.length := by
  have hshort' : digits.length ≤ 20 := hshort
  rw [h.remaining (by rw [hpos]; exact Nat.zero_le _), hpos]
  omega

/-- Commands that are too short for a type and a MAC are none. -/
theorem asciiParseMessage_short (h : s.Holds digits) (hpos : s.position = 0)
    (hlen : digits.length ≤ 6) : asciiParseMessage stack s = none := by
  have hremaining := remaining_start h hpos (hlen.trans (by decide))
  rw [asciiParseMessage, hremaining]
  exact if_pos hlen

/-- The MAC is pulled from the end. -/
theorem pullMac_holds (h : s.Holds digits)
    (hlong : 6 < digits.length) :
    digitsTryPullUint32
        { s with position := s.length - omFixedMacDigitCount }
        omFixedMacDigitCount false
      = (UInt32.ofNat (macOf digits), false,
        { s with position := digits.length - 6 + 6 }) := by
  have hposition : s.length - omFixedMacDigitCount = digits.length - 6 := by
    rw [h.length, omFixedMacDigitCount]
  have hvalue : valueAt digits (digits.length - 6) 6 = macOf digits := by
    rw [valueAt, macOf, List.take_of_length_le]
    rw [List.length_drop]
    omega
  rw [hposition, omFixedMacDigitCount, ← hvalue]
  refine tryPullUint32_holds (h.move (digits.length - 6)) (by omega) ?_
  show digits.length - 6 + 6 ≤ _
  omega

/-- The type is the first digit. -/
theorem pullType_holds {t : ℕ} {rest : List ℕ} (h : s.Holds (t :: rest))
    (hpos : s.position = 0) :
    digitsPullUint8 s 1 = (UInt8.ofNat t, { s with position := 1 }) := by
  obtain ⟨hvalue, hrest⟩ := h.pullUint8 (by omega : 1 ≤ 2)
    (by rw [hpos, List.length_cons]; omega)
  have ht : t < 10 := h.lt t List.mem_cons_self
  rw [hpos] at hvalue hrest
  refine Prod.ext ?_ hrest
  rw [← UInt8.toNat_inj, hvalue, UInt8.toNat_ofNat', Nat.mod_eq_of_lt (by omega)]
  show 10 * 0 + t = t
  omega

/-- All others are read without their mask. -/
theorem asciiParseMessage_reads (h : s.Holds digits) (hpos : s.position = 0)
    (hlong : 6 < digits.length)
    (hshort : digits.length ≤ omCommandAsciiDigitsMaxLength) :
    asciiParseMessage stack s
      = reading (plain stack digits (UInt32.ofNat (macOf digits)))
        (UInt32.ofNat (macOf digits)) := by
  have hremaining : ¬ digitsRemaining s % 256 ≤ omFixedMacDigitCount := by
    rw [remaining_start h hpos hshort]
    exact not_le.mpr hlong
  have hunmasked : (deinterleaveDigits stack s
      (UInt32.ofNat (macOf digits))).Holds
        (plain stack digits (UInt32.ofNat (macOf digits))) :=
    deinterleaveDigits_holds h (le_of_lt hlong) hshort
  have hposition : (deinterleaveDigits stack s
      (UInt32.ofNat (macOf digits))).position = 0 := rfl
  have hlength : (plain stack digits (UInt32.ofNat (macOf digits))).length
      = digits.length := length_plain
  -- the pull is named first: its parts are not to be computed
  obtain ⟨auth, hauth⟩ : ∃ auth, digitsTryPullUint32
      { s with position := s.length - omFixedMacDigitCount }
      omFixedMacDigitCount false = auth := ⟨_, rfl⟩
  have hmac := hauth.symm.trans (pullMac_holds h hlong)
  have hvalue : auth.1 = UInt32.ofNat (macOf digits) := congrArg Prod.fst hmac
  have hunderrun : auth.2.1 = false := congrArg (fun r => r.2.1) hmac
  rw [asciiParseMessage, if_neg hremaining, hauth]
  dsimp only
  rw [hvalue, hunderrun]
  generalize deinterleaveDigits stack s (UInt32.ofNat (macOf digits))
    = stream at hunmasked hposition ⊢
  generalize plain stack digits (UInt32.ofNat (macOf digits))
    = unmasked at hunmasked hlength ⊢
  cases unmasked with
  | nil =>
      rw [← hlength] at hlong
      exact absurd hlong (Nat.not_lt_zero 6)
  | cons t rest =>
      have hlong' : 7 ≤ (t :: rest).length := by
        rw [hlength]
        exact hlong
      rw [pullType_holds hunmasked hposition, reading]
      dsimp only
      generalize asciiValidateCommandType (UInt8.ofNat t) = type
      by_cases htype : type = .invalid
      · rw [htype, asciiExtractBody, if_neg fun h => h.1 rfl]
      · rw [asciiExtractBody_holds (hunmasked.move 1) rfl hlong' htype]
        by_cases hfits : 1 + type.bodyDigits < (t :: rest).length
        · have hremaining : digitsRemaining
              { stream with position := 1 + type.bodyDigits }
                = rest.length - type.bodyDigits := by
            rw [(hunmasked.move _).remaining (le_of_lt hfits)]
            show rest.length + 1 - (1 + type.bodyDigits) = _
            omega
          rw [if_pos hfits]
          dsimp only
          rw [hremaining, omFixedMacDigitCount]
          rw [List.length_cons] at hfits
          by_cases hsix : rest.length = type.bodyDigits + 6
          · rw [if_pos ⟨rfl, by rw [hsix, Nat.add_sub_cancel_left]⟩,
              if_pos ⟨htype, hsix⟩]
            rfl
          · have hnot : ¬ rest.length - type.bodyDigits = 6 := by omega
            rw [if_neg fun h => hnot h.2, if_neg fun h => hsix h.2]
        · rw [if_neg hfits]
          rw [List.length_cons] at hfits
          rw [if_neg fun h => hfits (by omega)]

/-! ## The grammar -/

theorem reading_isSome_iff {t : ℕ} (ht : t < 10) (rest : List ℕ)
    (mac : UInt32) : (reading (t :: rest) mac).isSome = true ↔
      (t, rest.length + 1) ∈ [(0, 9), (1, 8), (2, 8), (9, 13)] := by
  rw [reading]
  interval_cases t <;>
    simp [asciiValidateCommandType, OmCommandType.bodyDigits]

/-- A byte of the eight. -/
theorem getD_fullPrngBytes {mac : UInt32} {i : ℕ} (hi : i < 8) (b b' : UInt8) :
    (fullPrngBytes mac).getD i b = (fullPrngBytes mac).getD i b' := by
  have hlt : i < (fullPrngBytes mac).length := by
    rw [length_fullPrngBytes]
    exact hi
  rw [List.getD_eq_getElem _ _ hlt, List.getD_eq_getElem _ _ hlt]

theorem plain_cons {d : ℕ} {rest : List ℕ} (hlong : 6 < (d :: rest).length)
    (mac : UInt32) : ∃ rest', rest'.length = rest.length ∧
      plain stack (d :: rest) mac
        = unmask ((fullPrngBytes mac).getD 0 0) d :: rest' := by
  obtain ⟨n, hn⟩ : ∃ n, (d :: rest).length - 6 = n + 1 :=
    ⟨(d :: rest).length - 7, by omega⟩
  have hlength : (plain stack (d :: rest) mac).length = (d :: rest).length :=
    length_plain
  have hplain : ∃ rest', plain stack (d :: rest) mac
      = unmask ((fullPrngBytes mac).getD 0 0) d :: rest' := by
    rw [plain, hn, List.take_succ_cons, List.mapIdx_cons,
      getD_fullPrngBytes (by omega) _ 0]
    exact ⟨_, rfl⟩
  obtain ⟨rest', hrest'⟩ := hplain
  rw [hrest', List.length_cons, List.length_cons] at hlength
  exact ⟨rest', by omega, hrest'⟩

end

theorem acceptsGrammar (stack : OmStack) (stale : ℕ → Key) :
    AcceptsGrammar stack stale := by
  intro digits hlt hshort
  have hshort' : digits.length ≤ 20 := hshort
  have hholds : (digitsInit (ascii digits) stale).Holds digits :=
    digitsInit_holds digits (by omega) hlt stale
  by_cases hlong : 6 < digits.length
  · obtain ⟨d, rest, rfl⟩ := List.exists_cons_of_length_pos
      (Nat.zero_lt_of_lt hlong)
    obtain ⟨rest', hlength, hplain⟩ := @plain_cons stack d rest hlong
      (UInt32.ofNat (macOf (d :: rest)))
    rw [parseDigits, asciiParseMessage_reads hholds rfl hlong hshort, hplain,
      reading_isSome_iff (unmask_lt _ _), hlength]
    constructor
    · intro hmem
      exact ⟨d, rest, rfl, hmem⟩
    · rintro ⟨d', rest'', heq, hmem⟩
      obtain ⟨rfl, rfl⟩ := List.cons.inj heq
      exact hmem
  · rw [parseDigits, asciiParseMessage_short hholds rfl (not_lt.mp hlong)]
    refine iff_of_false Bool.false_ne_true ?_
    rintro ⟨d, rest, -, hmem⟩
    simp only [List.mem_cons, Prod.mk.injEq, List.not_mem_nil, or_false] at hmem
    omega

/-! ## The encoder -/

section

variable {type : OmCommandType} {body mac : ℕ}

/-- The type and the body, before they are masked. -/
def spelled (type : OmCommandType) (body : ℕ) : List ℕ :=
  type.toUInt8.toNat :: toDigits 10 type.bodyDigits body

/-- With the mask of a MAC. -/
def masked (type : OmCommandType) (body mac : ℕ) : List ℕ :=
  (spelled type body).mapIdx fun i d =>
    (d + ((macBytes mac).getD i 0).toNat) % 10

theorem length_masked :
    (masked type body mac).length = type.bodyDigits + 1 := by
  rw [masked, List.length_mapIdx, spelled, List.length_cons, length_toDigits]

theorem encode_eq :
    encode type body mac = masked type body mac ++ toDigits 10 6 mac := rfl

theorem length_encode :
    (encode type body mac).length = type.bodyDigits + 1 + 6 := by
  rw [encode_eq, List.length_append, length_masked, length_toDigits]

theorem bodyDigits_le (type : OmCommandType) : type.bodyDigits ≤ 6 := by
  cases type <;> decide

theorem encode_lt : ∀ d ∈ encode type body mac, d < 10 := by
  intro d hd
  rw [encode_eq, List.mem_append] at hd
  rcases hd with hd | hd
  · obtain ⟨i, hi, rfl⟩ := List.mem_iff_getElem.mp hd
    simp only [masked, List.getElem_mapIdx]
    exact Nat.mod_lt _ (by omega)
  · exact lt_of_mem_toDigits (by omega) hd

theorem macOf_encode (hmac : mac < 10 ^ 6) :
    macOf (encode type body mac) = mac := by
  rw [macOf, length_encode, encode_eq, Nat.add_sub_cancel,
    ← @length_masked type body mac,
    List.drop_left, ofDigits_toDigits hmac]

theorem spelled_lt (htype : type ≠ .invalid) :
    ∀ d ∈ spelled type body, d < 10 := by
  intro d hd
  rcases List.mem_cons.mp hd with rfl | hd
  · cases type with
    | invalid => exact absurd rfl htype
    | genericControllerAction => decide
    | accessoryActionUnlock => decide
    | accessoryActionUnlink => decide
    | createAccessoryLinkMode3 => decide
  · exact lt_of_mem_toDigits (by omega) hd

/-- The mask is taken off again. -/
theorem plain_encode (stack : OmStack) (htype : type ≠ .invalid) :
    plain stack (encode type body mac) (UInt32.ofNat mac)
      = spelled type body ++ toDigits 10 6 mac := by
  have hspelled : (spelled type body).length = type.bodyDigits + 1 := by
    rw [spelled, List.length_cons, length_toDigits]
  have hunmask : (masked type body mac).mapIdx (fun i d =>
      unmask ((fullPrngBytes (UInt32.ofNat mac)).getD i (stack.prngBytes i)) d)
      = spelled type body := by
    refine List.ext_getElem ?_ ?_
    · rw [List.length_mapIdx, length_masked, hspelled]
    · intro i hi hi'
      have hi8 : i < 8 := by
        have := bodyDigits_le type
        omega
      rw [List.getElem_mapIdx]
      simp only [masked, List.getElem_mapIdx]
      rw [getD_fullPrngBytes hi8 (stack.prngBytes i) 0]
      exact unmask_masked _ (spelled_lt htype _ (List.getElem_mem hi'))
  rw [plain, length_encode, Nat.add_sub_cancel, encode_eq,
    ← @length_masked type body mac,
    List.take_left, List.drop_left, hunmask]

theorem invertsEncoder (stack : OmStack) (stale : ℕ → Key) :
    InvertsEncoder stack stale := by
  intro type body mac htype hbody hmac
  have hdigits := bodyDigits_le type
  have hlength := @length_encode type body mac
  have hshort : (encode type body mac).length
      ≤ omCommandAsciiDigitsMaxLength := by
    rw [hlength]
    show _ ≤ 20
    omega
  have hholds : (digitsInit (ascii (encode type body mac)) stale).Holds
      (encode type body mac) :=
    digitsInit_holds _ (by omega) encode_lt stale
  have htypeDigit : asciiValidateCommandType
      (UInt8.ofNat type.toUInt8.toNat) = type := by
    cases type with
    | invalid => exact absurd rfl htype
    | genericControllerAction => rfl
    | accessoryActionUnlock => rfl
    | accessoryActionUnlink => rfl
    | createAccessoryLinkMode3 => rfl
  have hrest : (toDigits 10 type.bodyDigits body ++ toDigits 10 6 mac).length
      = type.bodyDigits + 6 := by
    rw [List.length_append, length_toDigits, length_toDigits]
  have htake : (toDigits 10 type.bodyDigits body
      ++ toDigits 10 6 mac).take type.bodyDigits
        = toDigits 10 type.bodyDigits body :=
    List.take_left' (length_toDigits _ _)
  rw [parseDigits, asciiParseMessage_reads hholds rfl (by omega) hshort,
    macOf_encode hmac, plain_encode stack htype, spelled, List.cons_append,
    reading, htypeDigit, if_pos ⟨htype, hrest⟩, htake,
    ofDigits_toDigits hbody]

end

/-- The parser of origin commands accepts their grammar and inverts their
encoding, whatever it finds on the stack. -/
theorem origin_commands_parsed (stack : OmStack) (stale : ℕ → Key) :
    AcceptsGrammar stack stale ∧ InvertsEncoder stack stale :=
  ⟨acceptsGrammar stack stale, invertsEncoder stack stale⟩

end Nexus.Channel
