import Nexus.Lib.Run
import Nexus.Proofs.Grammar

/-!
# What the keys of a frame spell

With assertions compiled out nothing asks whether a key is a digit. A digit
stream takes a key for its code less 48, whatever that is, and adds it up in
32 bits, so a colon counts ten and ten digits can be more than the result
holds. A frame of any keys therefore spells numbers modulo `2 ^ 32`, and this
file reads the frames of the factory parser that way. The frames that confirm
a device id are the ones with room for a number that does not fit: what is
compared with the id is the rest modulo `2 ^ 32`.
-/

namespace Nexus.Util

/-- The number keys denote, each for its code less that of the digit zero. -/
def keysValue (keys : List Key) : ℤ :=
  keys.foldl (fun n k => 10 * n + (k - 48)) 0

theorem keysValue_concat (keys : List Key) (k : Key) :
    keysValue (keys ++ [k]) = 10 * keysValue keys + (k - 48) := by
  rw [keysValue, List.foldl_append]
  rfl

theorem keysValue_singleton (k : Key) : keysValue [k] = k - 48 := by
  rw [keysValue, List.foldl_cons, List.foldl_nil]
  ring

/-- Of digits it is the number they spell. -/
theorem keysValue_ascii (digits : List ℕ) :
    keysValue (ascii digits) = (Lib.ofDigits 10 digits : ℤ) := by
  induction digits using List.reverseRecOn with
  | nil => rfl
  | append_singleton digits d ih =>
      have happend : ascii (digits ++ [d]) = ascii digits ++ [48 + (d : ℤ)] := by
        rw [ascii, List.map_append]
        rfl
      have hlast : Lib.ofDigits 10 [d] = d := by
        simp [Lib.ofDigits]
      rw [happend, keysValue_concat, ih, Lib.ofDigits_append, hlast,
        List.length_singleton]
      push_cast
      ring

/-- `_chars_to_uint32`, on any keys. -/
theorem charsToUint32_value (chars : ℕ → Key) (start count : ℕ) :
    charsToUint32 chars start count
      = UInt32.ofInt
        (keysValue ((List.range count).map fun i => chars (start + i))) := by
  induction count with
  | zero => rfl
  | succ count ih =>
      rw [charsToUint32, ih, List.range_succ, List.map_append,
        List.map_singleton, keysValue_concat, UInt32.ofInt_add,
        UInt32.ofInt_mul, mul_comm]
      rfl

/-! ## A stream over a frame -/

/-- The stream over `keys`, `position` keys in. -/
def streamAt (keys : List Key) (stale : ℕ → Key) (position : ℕ) : Digits :=
  { digitsInit keys stale with position := position }

section

variable {keys : List Key} {stale : ℕ → Key} {p n : ℕ}

theorem charsToUint32_streamAt (hle : p + n ≤ keys.length) :
    charsToUint32 (streamAt keys stale p).chars p n
      = UInt32.ofInt (keysValue ((keys.drop p).take n)) := by
  rw [charsToUint32_value]
  exact congrArg (fun keys => UInt32.ofInt (keysValue keys))
    (Lib.map_range_getD hle)

theorem pullUint32_streamAt (hshort : keys.length < 65536)
    (hle : p + n ≤ keys.length) :
    digitsPullUint32 (streamAt keys stale p) n
      = (UInt32.ofInt (keysValue ((keys.drop p).take n)),
        streamAt keys stale (p + n)) := by
  refine Prod.ext (charsToUint32_streamAt hle) ?_
  exact digitsPullUint32_position (s := streamAt keys stale p) hshort hle

theorem pullUint8_streamAt (hshort : keys.length < 65536)
    (hle : p + n ≤ keys.length) :
    digitsPullUint8 (streamAt keys stale p) n
      = (if UInt32.ofInt (keysValue ((keys.drop p).take n)) > 255 then 255
          else (UInt32.ofInt (keysValue ((keys.drop p).take n))).toUInt8,
        streamAt keys stale (p + n)) := by
  have hremains : ¬ digitsRemaining (streamAt keys stale p) < n := by
    rw [digitsRemaining]
    show ¬ (keys.length + 65536 - p) % 65536 < n
    omega
  rw [digitsPullUint8, if_neg hremains, pullUint32_streamAt hshort hle]
  dsimp only
  split <;> rfl

theorem tryPullUint32_streamAt (hshort : keys.length < 65536)
    (hle : p + n ≤ keys.length) :
    digitsTryPullUint32 (streamAt keys stale p) n false
      = (UInt32.ofInt (keysValue ((keys.drop p).take n)), false,
        streamAt keys stale (p + n)) := by
  have hremains : ¬ (false = true ∨
      digitsRemaining (streamAt keys stale p) < n) := by
    rw [digitsRemaining, Bool.false_eq_true, false_or]
    show ¬ (keys.length + 65536 - p) % 65536 < n
    omega
  rw [digitsTryPullUint32, if_neg hremains, pullUint32_streamAt hshort hle]

end

end Nexus.Util

namespace Nexus.Keycode

open Nexus.Util Nexus.Lib

/-! ## Frames of the factory parser -/

/-- The type code of a frame's first key. -/
def keyType (k : Key) : UInt8 := (UInt32.ofInt (k - 48)).toUInt8

/-- `nexus_digits_pull_uint8` of a number. -/
def clampUint8 (v : ℤ) : UInt8 :=
  if UInt32.ofInt v > 255 then 255 else (UInt32.ofInt v).toUInt8

/-- The message a frame of any keys spells, if it is not fourteen keys long
and no passthrough command. Seven keys are a type and a check, twelve a type,
three reserved keys, two of minutes and a check, and nine to eleven a type and
a device id. -/
def factoryReading : List Key → Option FullMessage
  | [] => none
  | k :: rest =>
      if keyType k < fullFactoryNomacDeviceIdConfirmation
          ∧ keyType k ≠ fullFactoryQcTest ∧ rest.length = 6 then
        some ⟨0, keyType k, 0, UInt32.ofInt (keysValue rest)⟩
      else if keyType k = fullFactoryQcTest ∧ rest.length = 11 then
        some ⟨0, keyType k,
          (clampUint8 (keysValue ((rest.drop 3).take 2))).toUInt32,
          UInt32.ofInt (keysValue (rest.drop 5))⟩
      else if keyType k = fullFactoryNomacDeviceIdConfirmation
          ∧ 8 ≤ rest.length ∧ rest.length ≤ 10 then
        some ⟨0, keyType k, UInt32.ofInt (keysValue rest), 0⟩
      else if fullPassthroughCommand < keyType k ∧ rest = [] then
        some ⟨0, keyType k, 0, 0⟩
      else none

/-- Such frames are handed to the product as they stand. -/
def IsPassthrough (keys : List Key) : Prop :=
  2 < keys.length ∧ keys.length ≠ 14 ∧
    keyType (keys.getD 0 0) = fullPassthroughCommand

section

variable {m : Machine} {env : Env} {k : Key} {rest : List Key}
  {stale : ℕ → Key}

theorem fullParseFactoryMac_of_length {s : Digits} (hlen : s.length < 31)
    (hpos : s.position = 1) {typeCode : UInt8}
    (hother : s.length ≠ if typeCode = fullFactoryQcTest then 12 else 7) :
    fullParseFactoryMac typeCode false s = none := by
  have haccepts := fullParseFactoryMac_accepts hlen hpos typeCode
  rw [if_neg hother] at haccepts
  exact Option.map_eq_none_iff.mp haccepts

/-- A check behind the type. -/
theorem fullParseFactoryMac_reads {typeCode : UInt8}
    (hqc : typeCode ≠ fullFactoryQcTest) (hlen : rest.length = 6) :
    fullParseFactoryMac typeCode false (streamAt (k :: rest) stale 1)
      = some ⟨0, typeCode, 0, UInt32.ofInt (keysValue rest)⟩ := by
  have hlength : (k :: rest).length = 7 := by rw [List.length_cons, hlen]
  have hpull := @tryPullUint32_streamAt (k :: rest) stale 1 6 (by omega)
    hlength.ge
  have htake : ((k :: rest).drop 1).take 6 = rest :=
    List.take_of_length_le hlen.le
  rw [htake] at hpull
  rw [fullParseFactoryMac]
  simp only [if_neg hqc, hpull]
  exact if_pos ⟨trivial, hlength⟩

/-- Reserved keys, minutes and a check behind the type of a QC test. -/
theorem fullParseFactoryMac_reads_qc {typeCode : UInt8}
    (hqc : typeCode = fullFactoryQcTest) (hlen : rest.length = 11) :
    fullParseFactoryMac typeCode false (streamAt (k :: rest) stale 1)
      = some ⟨0, typeCode,
        (clampUint8 (keysValue ((rest.drop 3).take 2))).toUInt32,
        UInt32.ofInt (keysValue (rest.drop 5))⟩ := by
  have hlength : (k :: rest).length = 12 := by rw [List.length_cons, hlen]
  have hreserved := @pullUint32_streamAt (k :: rest) stale 1 3 (by omega)
    (by omega)
  have hminutes := @pullUint8_streamAt (k :: rest) stale 4 2 (by omega)
    (by omega)
  have hcheck := @tryPullUint32_streamAt (k :: rest) stale 6 6 (by omega)
    (by omega)
  have htake : ((k :: rest).drop 6).take 6 = rest.drop 5 :=
    List.take_of_length_le (by rw [List.drop_succ_cons, List.length_drop]; omega)
  rw [htake] at hcheck
  rw [fullParseFactoryMac]
  simp only [if_pos hqc, hreserved, hminutes, hcheck, Nat.reduceAdd]
  exact if_pos ⟨trivial, hlength⟩

/-- A device id behind the type. -/
theorem fullParseNomacDeviceId_reads {typeCode : UInt8}
    (hlen : 8 ≤ rest.length ∧ rest.length ≤ 10) :
    fullParseNomacDeviceId typeCode false (streamAt (k :: rest) stale 1)
      = some ⟨0, typeCode, UInt32.ofInt (keysValue rest), 0⟩ := by
  have hlength : (streamAt (k :: rest) stale 1).length = rest.length + 1 := rfl
  have hserial : (UInt8.ofNat ((streamAt (k :: rest) stale 1).length
      + 255)).toNat = rest.length := by
    rw [UInt8.toNat_ofNat', hlength]
    omega
  have hpull := @tryPullUint32_streamAt (k :: rest) stale 1 rest.length
    (by rw [List.length_cons]; omega)
    (by rw [List.length_cons]; omega)
  have htake : ((k :: rest).drop 1).take rest.length = rest :=
    List.take_of_length_le (le_refl _)
  rw [htake] at hpull
  rw [fullParseNomacDeviceId]
  simp only [UInt8.lt_iff_toNat_lt, gt_iff_lt, hserial]
  rw [if_neg (by show ¬ (_ < 8 ∨ 10 < _); omega), hpull]
  exact if_pos ⟨rfl, by rw [Nat.add_comm]; rfl⟩

theorem fullParseNomacDeviceId_of_length {s : Digits} (hlen : s.length < 31)
    (hlen' : 0 < s.length) (hpos : s.position = 1) {typeCode : UInt8}
    (hother : ¬ (9 ≤ s.length ∧ s.length ≤ 11)) :
    fullParseNomacDeviceId typeCode false s = none := by
  have haccepts := fullParseNomacDeviceId_accepts hlen hlen' hpos typeCode
  rw [if_neg hother] at haccepts
  exact Option.map_eq_none_iff.mp haccepts

/-- What the factory and passthrough parser makes of any frame it does not
pass through. -/
theorem fullParseFactoryAndPassthrough_reads (hlen : rest.length < 30)
    (hpass : ¬ IsPassthrough (k :: rest)) :
    m.fullParseFactoryAndPassthrough env (k :: rest)
      = (factoryReading (k :: rest), m) := by
  have hlength : (k :: rest).length = rest.length + 1 := List.length_cons
  have hpull := @tryPullUint32_streamAt (k :: rest) env.stack.digitChars 0 1
    (by omega) (by omega)
  have hfirst : keysValue (((k :: rest).drop 0).take 1) = k - 48 :=
    keysValue_singleton k
  have hinit : digitsInit (k :: rest) env.stack.digitChars
    = streamAt (k :: rest) env.stack.digitChars 0 := rfl
  have hs : (streamAt (k :: rest) env.stack.digitChars (0 + 1)).length
    = rest.length + 1 := rfl
  have hp : (streamAt (k :: rest) env.stack.digitChars (0 + 1)).position
    = 1 := rfl
  rw [hfirst] at hpull
  rw [Machine.fullParseFactoryAndPassthrough, if_neg (by omega),
    factoryReading, hinit, hpull]
  dsimp only
  rw [← keyType]
  by_cases hmac : keyType k < fullFactoryNomacDeviceIdConfirmation
  · have hnomac : keyType k ≠ fullFactoryNomacDeviceIdConfirmation :=
      UInt8.ne_of_lt hmac
    have hbig : ¬ fullPassthroughCommand < keyType k := by
      rw [UInt8.lt_iff_toNat_lt] at hmac ⊢
      change _ < 7 at hmac
      show ¬ 8 < _
      omega
    rw [if_pos hmac]
    by_cases hqc : keyType k = fullFactoryQcTest
    · rw [if_neg fun h => h.2.1 hqc]
      by_cases hfull : rest.length = 11
      · rw [if_pos ⟨hqc, hfull⟩, fullParseFactoryMac_reads_qc hqc hfull]
      · rw [if_neg fun h => hfull h.2, if_neg fun h => hnomac h.1,
          if_neg fun h => hbig h.1, fullParseFactoryMac_of_length
            (by rw [hs]; omega) hp (by rw [hs, if_pos hqc]; omega)]
    · by_cases hfull : rest.length = 6
      · rw [if_pos ⟨hmac, hqc, hfull⟩, fullParseFactoryMac_reads hqc hfull]
      · rw [if_neg fun h => hfull h.2.2, if_neg fun h => hqc h.1,
          if_neg fun h => hnomac h.1, if_neg fun h => hbig h.1,
          fullParseFactoryMac_of_length (by rw [hs]; omega) hp
            (by rw [hs, if_neg hqc]; omega)]
  · have hqc : keyType k ≠ fullFactoryQcTest := by
      intro heq
      rw [heq] at hmac
      exact hmac (by decide)
    have hno6 : ¬ (keyType k < fullFactoryNomacDeviceIdConfirmation ∧
        keyType k ≠ fullFactoryQcTest ∧ rest.length = 6) :=
      fun h => hmac h.1
    have hno11 : ¬ (keyType k = fullFactoryQcTest ∧ rest.length = 11) :=
      fun h => hqc h.1
    rw [if_neg hmac, if_neg hno6, if_neg hno11]
    by_cases hnomac : keyType k = fullFactoryNomacDeviceIdConfirmation
    · rw [if_pos hnomac]
      by_cases hfull : 8 ≤ rest.length ∧ rest.length ≤ 10
      · rw [if_pos ⟨hnomac, hfull⟩, fullParseNomacDeviceId_reads hfull]
      · have hbig : ¬ fullPassthroughCommand < keyType k := by
          rw [hnomac]
          decide
        rw [if_neg fun h => hfull h.2, if_neg fun h => hbig h.1,
          fullParseNomacDeviceId_of_length (by rw [hs]; omega)
            (by rw [hs]; omega) hp (by rw [hs]; omega)]
    · have hno8 : ¬ (keyType k = fullFactoryNomacDeviceIdConfirmation ∧
          8 ≤ rest.length ∧ rest.length ≤ 10) := fun h => hnomac h.1
      rw [if_neg hnomac, if_neg hno8]
      by_cases hcommand : keyType k = fullPassthroughCommand
      · -- too short to be passed through
        have hshort : ¬ (rest.length + 1 > 2 ∧ rest.length + 1 ≠ 14) :=
          fun h => hpass ⟨h.1, h.2, hcommand⟩
        rw [if_pos hcommand, hs, if_neg hshort,
          if_neg fun h => UInt8.ne_of_lt h.1 hcommand.symm]
      · have hbig : fullPassthroughCommand < keyType k := by
          rw [UInt8.lt_iff_toNat_lt, not_lt] at hmac
          rw [← UInt8.toNat_inj] at hnomac hcommand
          rw [UInt8.lt_iff_toNat_lt]
          change 7 ≤ _ at hmac
          change _ ≠ 7 at hnomac
          change _ ≠ 8 at hcommand
          show 8 < _
          omega
        rw [if_neg hcommand, hs, hp]
        by_cases hnil : rest = []
        · rw [if_pos ⟨rfl, by rw [hnil]; rfl⟩, if_pos ⟨hbig, hnil⟩]
        · have hne : rest.length ≠ 0 := by
            rw [ne_eq, List.length_eq_zero_iff]
            exact hnil
          rw [if_neg fun h => hne (Nat.succ.inj h.2),
            if_neg fun h => hnil h.2]

/-- What it makes of the others. -/
theorem fullParseFactoryAndPassthrough_passes (hlen : rest.length < 30)
    (hpass : IsPassthrough (k :: rest)) :
    m.fullParseFactoryAndPassthrough env (k :: rest)
      = (if env.passthroughKeycode rest = .none then
            some ⟨0, fullPassthroughCommand, 0, 0⟩
          else none,
        m.emit (.passthrough rest)) := by
  have hlength : (k :: rest).length = rest.length + 1 := List.length_cons
  have hpull := @tryPullUint32_streamAt (k :: rest) env.stack.digitChars 0 1
    (by omega) (by omega)
  have hfirst : keysValue (((k :: rest).drop 0).take 1) = k - 48 :=
    keysValue_singleton k
  have hinit : digitsInit (k :: rest) env.stack.digitChars
    = streamAt (k :: rest) env.stack.digitChars 0 := rfl
  have htype : keyType k = fullPassthroughCommand := hpass.2.2
  have hlong : (streamAt (k :: rest) env.stack.digitChars (0 + 1)).length > 2 ∧
      (streamAt (k :: rest) env.stack.digitChars (0 + 1)).length ≠ 14 :=
    ⟨hpass.1, hpass.2.1⟩
  have hrest : (k :: rest).drop (streamAt (k :: rest) env.stack.digitChars
    (0 + 1)).position = rest := rfl
  rw [hfirst] at hpull
  rw [Machine.fullParseFactoryAndPassthrough, if_neg (by omega), hinit, hpull]
  dsimp only
  rw [← keyType, htype, if_neg (by decide), if_neg (by decide), if_pos rfl,
    if_pos hlong, hrest]

theorem fullParse_reads {frame : Frame} (hne : frame.keys ≠ [])
    (hlen : frame.keys.length ≠ 14) (hpass : ¬ IsPassthrough frame.keys) :
    m.fullParse env frame = (factoryReading frame.keys, m) := by
  obtain ⟨k, rest, hkeys⟩ := List.exists_cons_of_ne_nil hne
  have hle := frame.length_le
  rw [hkeys] at hpass hle ⊢
  rw [Machine.fullParse, if_neg hlen, hkeys]
  exact fullParseFactoryAndPassthrough_reads
    (Nat.lt_of_succ_le hle) hpass

/-! ## Device ids -/

/-- A frame that spells a device id is answered VALID_APPLIED for the device's
own id and for no other. -/
def ConfirmsExactly (m : Machine) (cfg : Config) (env : Env) (frame : Frame)
    (deviceId : ℕ) : Prop :=
  (m.fullParseAndApply cfg env frame).1 = .validApplied ↔
    deviceId = env.userFacingId.toNat

/-- The device id messages have no check. -/
theorem fullApply_deviceId {message : FullMessage} {cfg : Config}
    (htype : message.typeCode = fullFactoryNomacDeviceIdConfirmation) :
    m.fullApply cfg env message
      = if message.body = env.userFacingId then (.validApplied, m)
        else (.validDuplicate, m) := by
  have hmac : ¬ message.typeCode < fullFactoryNomacDeviceIdConfirmation := by
    rw [htype]; decide
  have hactivation : ¬ message.typeCode < fullFactoryAllowTest := by
    rw [htype]; decide
  have hallow : message.typeCode ≠ fullFactoryAllowTest := by
    rw [htype]; decide
  have hqc : message.typeCode ≠ fullFactoryQcTest := by
    rw [htype]; decide
  have hdisplay : message.typeCode ≠ fullFactoryDeviceIdDisplay := by
    rw [htype]; decide
  rw [Machine.fullApply, if_neg fun h => hmac h.2, if_neg hactivation,
    Machine.fullApplyFactory, if_neg hallow, if_neg hqc, if_neg hdisplay,
    if_pos htype]

theorem factoryReading_deviceId {digits : List ℕ}
    (hlen : 8 ≤ digits.length ∧ digits.length ≤ 10) :
    factoryReading (ascii (7 :: digits))
      = some ⟨0, fullFactoryNomacDeviceIdConfirmation,
        UInt32.ofInt (ofDigits 10 digits), 0⟩ := by
  have hkeys : ascii (7 :: digits) = 55 :: ascii digits := rfl
  have htype : keyType 55 = fullFactoryNomacDeviceIdConfirmation := by decide
  have hlen' : 8 ≤ (ascii digits).length ∧ (ascii digits).length ≤ 10 := by
    rw [length_ascii]
    exact hlen
  rw [hkeys, factoryReading, htype,
    if_neg fun h => absurd h.1 (UInt8.lt_irrefl _),
    if_neg fun h => absurd h.1 (by decide), if_pos ⟨rfl, hlen'⟩,
    keysValue_ascii]

/-- The 32 bits of the entered number are compared with the id. -/
theorem fullParseAndApply_deviceId {frame : Frame} {digits : List ℕ}
    (hkeys : frame.keys = ascii (7 :: digits))
    (hlen : 8 ≤ digits.length ∧ digits.length ≤ 10) (cfg : Config) :
    (m.fullParseAndApply cfg env frame).1 = .validApplied ↔
      ofDigits 10 digits % 2 ^ 32 = env.userFacingId.toNat := by
  have hlength : frame.keys.length = digits.length + 1 := by
    rw [hkeys, length_ascii, List.length_cons]
  have hpass : ¬ IsPassthrough frame.keys := by
    intro h
    rw [hkeys] at h
    have htype : keyType 55 = fullPassthroughCommand := h.2.2
    exact absurd htype (by decide)
  have hparse := @fullParse_reads m env frame
    (by rw [hkeys]; exact List.cons_ne_nil _ _) (by omega) hpass
  rw [hkeys, factoryReading_deviceId hlen] at hparse
  have hid : UInt32.ofInt (ofDigits 10 digits) = env.userFacingId ↔
      ofDigits 10 digits % 2 ^ 32 = env.userFacingId.toNat := by
    rw [← UInt32.toNat_inj, UInt32.ofInt, UInt32.toNat_ofNat']
    omega
  have htype : fullFactoryNomacDeviceIdConfirmation
      ≠ fullPassthroughCommand := by decide
  rw [fullParseAndApply_of_parse (by rw [hparse]) htype,
    fullApply_deviceId rfl, ← hid]
  by_cases heq : UInt32.ofInt (ofDigits 10 digits) = env.userFacingId
  · rw [if_pos heq]
    exact iff_of_true rfl heq
  · rw [if_neg heq]
    exact iff_of_false (by simp) heq

/-- A device id is confirmed exactly, unless the number entered is too large
for 32 bits and what is left of it is the device's id. -/
theorem confirmsExactly_iff (m : Machine) (cfg : Config) (env : Env)
    (frame : Frame) (digits : List ℕ)
    (hkeys : frame.keys = ascii (7 :: digits))
    (hlen : 8 ≤ digits.length ∧ digits.length ≤ 10) :
    ConfirmsExactly m cfg env frame (ofDigits 10 digits) ↔
      ¬ (2 ^ 32 ≤ ofDigits 10 digits ∧
        ofDigits 10 digits % 2 ^ 32 = env.userFacingId.toNat) := by
  have hid := env.userFacingId.toNat_lt
  rw [ConfirmsExactly, fullParseAndApply_deviceId hkeys hlen]
  constructor
  · rintro hiff ⟨hbig, hmod⟩
    have := hiff.mp hmod
    omega
  · intro hno
    constructor
    · intro hmod
      by_cases hbig : 2 ^ 32 ≤ ofDigits 10 digits
      · exact absurd ⟨hbig, hmod⟩ hno
      · omega
    · intro heq
      omega

end

/-- The id of the test device, entered as it is. -/
def labelFrame : Frame :=
  ⟨ascii [7, 1, 2, 3, 4, 5, 6, 7, 8], by decide⟩

theorem confirmsExactly_label :
    ConfirmsExactly (.ofStored .factory) (.default .full) (testEnv .enabled)
      labelFrame 12345678 := by
  have hlen : 8 ≤ [1, 2, 3, 4, 5, 6, 7, 8].length ∧
      [1, 2, 3, 4, 5, 6, 7, 8].length ≤ 10 := by decide
  exact (confirmsExactly_iff _ _ (testEnv .enabled) labelFrame
    [1, 2, 3, 4, 5, 6, 7, 8] rfl hlen).mpr fun h => absurd h.1 (by decide)

/-- 4307312974, which is that id and 2 ^ 32. -/
def wrappedFrame : Frame :=
  ⟨ascii [7, 4, 3, 0, 7, 3, 1, 2, 9, 7, 4], by decide⟩

/-- It is confirmed as well. -/
theorem wrapped_id_confirmed :
    (Machine.ofStored .factory |>.fullParseAndApply (.default .full)
        (testEnv .enabled) wrappedFrame).1 = .validApplied ∧
      ¬ ConfirmsExactly (.ofStored .factory) (.default .full) (testEnv .enabled)
        wrappedFrame 4307312974 := by
  have happlied : (Machine.ofStored .factory |>.fullParseAndApply
      (.default .full) (testEnv .enabled) wrappedFrame).1 = .validApplied := by
    decide +kernel
  refine ⟨happlied, ?_⟩
  intro hexact
  exact absurd (hexact.mp happlied) (by decide)

end Nexus.Keycode
