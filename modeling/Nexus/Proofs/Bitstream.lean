import Nexus.Keycode.Small
import Nexus.Lib.Positional

/-!
# What a bit stream holds

A stream is a buffer of bytes, a length and a position; what it is meant to be
is a list of bits. `Holds` relates the two and says nothing about the bits of
the buffer past that list, so a stream over an uninitialised buffer holds the
empty list, each push appends to it, and each pull reads a field out of it.
-/

namespace Nexus.Util

open Nexus.Lib

namespace Bitstream

/-- Bit `i` of the buffer. -/
def bit (s : Bitstream) (i : ℕ) : Bool :=
  (s.data.getD (i / 8) 0).toNat.testBit (7 - i % 8)

/-- The `n` bits of the buffer from `p` on. -/
def field (s : Bitstream) (p n : ℕ) : List Bool :=
  (List.range n).map fun i => s.bit (p + i)

/-- The stream's bits are these. -/
structure Holds (s : Bitstream) (bits : List Bool) : Prop where
  length : s.length = bits.length
  fits : bits.length ≤ 8 * s.data.length
  bit : ∀ (i : ℕ) (h : i < bits.length), s.bit i = bits[i]

/-- They are, and the next push goes behind them. -/
structure Written (s : Bitstream) (bits : List Bool) : Prop
    extends Holds s bits where
  position : s.position = bits.length

end Bitstream

open Bitstream

/-! ## One byte -/

theorem bitstreamShift_eq (p : ℕ) :
    bitstreamShift p = UInt8.ofNat (7 - p % 8) := by
  unfold bitstreamShift
  congr 1
  omega

theorem shiftRight_and_one (b : UInt8) {k : ℕ} (hk : k < 8) :
    (((b >>> UInt8.ofNat k) &&& 0x01) != 0) = b.toNat.testBit k := by
  revert b
  interval_cases k <;> decide +kernel

/-- The byte a push writes: its own bit, and those above as they were. -/
theorem testBit_pushed (b : UInt8) (pushed : Bool) {k j : ℕ} (hk : k < 8)
    (hj : j < 8) (hkj : k ≤ j) :
    (((((b >>> UInt8.ofNat k) &&& 0xfe) ||| pushed.toUInt8)
        <<< UInt8.ofNat k).toNat).testBit j
      = if j = k then pushed else b.toNat.testBit j := by
  revert b pushed
  interval_cases k <;> interval_cases j <;> decide +kernel

theorem toNat_pull (b : Bool) {pulled : UInt8} (h : pulled.toNat < 128) :
    ((pulled <<< 1) ||| b.toUInt8).toNat = 2 * pulled.toNat + b.toNat := by
  revert b
  obtain ⟨n, hn, rfl⟩ : ∃ n, n < 128 ∧ pulled = UInt8.ofNat n :=
    ⟨pulled.toNat, h, UInt8.ofNat_toNat.symm⟩
  revert n
  decide +kernel

/-! ## Pulling -/

theorem bitstreamPullBit_fst (s : Bitstream) :
    (bitstreamPullBit s).1 = s.bit s.position := by
  unfold bitstreamPullBit
  simp only [bitstreamShift_eq]
  exact shiftRight_and_one _ (by omega)

theorem field_succ (s : Bitstream) (p n : ℕ) :
    s.field p (n + 1) = s.bit p :: s.field (p + 1) n := by
  simp only [field, List.range_succ_eq_map, List.map_cons, Nat.add_zero,
    List.map_map, List.cons.injEq, true_and]
  refine List.map_congr_left fun i _ => ?_
  show s.bit (p + (i + 1)) = s.bit (p + 1 + i)
  congr 1
  omega

@[simp] theorem length_field (s : Bitstream) (p n : ℕ) :
    (s.field p n).length = n := by
  simp [field]

theorem bitstreamPullUint8Loop_eq {n : ℕ} {s : Bitstream} {pulled : UInt8}
    (h : (pulled.toNat + 1) * 2 ^ n ≤ 256) :
    (bitstreamPullUint8Loop n s pulled).1.toNat
        = pulled.toNat * 2 ^ n + ofBits (s.field s.position n) ∧
      (bitstreamPullUint8Loop n s pulled).2
        = { s with position := s.position + n } := by
  induction n generalizing s pulled with
  | zero => simp [bitstreamPullUint8Loop, field, ofBits, ofDigits]
  | succ n ih =>
      have hpow : 1 ≤ 2 ^ n := Nat.one_le_two_pow
      have hdouble : (2 * pulled.toNat + 1 + 1) * 2 ^ n ≤ 256 := by
        calc (2 * pulled.toNat + 1 + 1) * 2 ^ n
            = (pulled.toNat + 1) * 2 ^ (n + 1) := by ring
          _ ≤ 256 := h
      have hlt : pulled.toNat < 128 := by nlinarith
      have hpull := toNat_pull (s.bit s.position) hlt
      have hbit := Bool.toNat_le (s.bit s.position)
      have hacc : (((pulled <<< 1) ||| (s.bit s.position).toUInt8).toNat + 1)
          * 2 ^ n ≤ 256 := by
        rw [hpull]
        exact (Nat.mul_le_mul_right _ (by omega)).trans hdouble
      obtain ⟨h1, h2⟩ := ih (s := (bitstreamPullBit s).2) hacc
      rw [bitstreamPullUint8Loop, bitstreamPullBit_fst]
      refine ⟨?_, ?_⟩
      · rw [h1, hpull, field_succ, ofBits_cons, length_field]
        show _ + ofBits (s.field (s.position + 1) n) = _
        ring
      · rw [h2]
        simp only [bitstreamPullBit, Bitstream.mk.injEq, true_and]
        omega

/-- Pulling up to eight bits reads them as a number. -/
theorem bitstreamPullUint8_eq {n : ℕ} (hn : n ≤ 8) (s : Bitstream) :
    (bitstreamPullUint8 s n).1.toNat = ofBits (s.field s.position n) ∧
      (bitstreamPullUint8 s n).2 = { s with position := s.position + n } := by
  have hz : ((0x00 : UInt8).toNat + 1) * 2 ^ n ≤ 256 := by
    have := Nat.pow_le_pow_right (show 0 < 2 by omega) hn
    simpa using this
  obtain ⟨h1, h2⟩ := bitstreamPullUint8Loop_eq (s := s) hz
  refine ⟨?_, h2⟩
  unfold bitstreamPullUint8
  rw [h1]
  simp

theorem bitstreamPullUint8_lt {n : ℕ} (hn : n ≤ 8) (s : Bitstream) :
    (bitstreamPullUint8 s n).1.toNat < 2 ^ n := by
  have hlt := ofBits_lt (s.field s.position n)
  rwa [length_field, ← (bitstreamPullUint8_eq hn s).1] at hlt

/-- The two halves of a pull of up to sixteen bits, put together. -/
theorem toNat_halves {hi lo : UInt8} {k : ℕ} (hk : k ≤ 8)
    (hlo : lo.toNat < 2 ^ k) :
    ((hi.toUInt16 <<< UInt16.ofNat k) ||| lo.toUInt16).toNat
      = hi.toNat * 2 ^ k + lo.toNat := by
  have hshift : (UInt16.ofNat k).toNat = k := by
    rw [UInt16.toNat_ofNat']
    omega
  have hpow : 2 ^ k ≤ 2 ^ 8 := Nat.pow_le_pow_right (by omega) hk
  have hhi := hi.toNat_lt
  have hbound : hi.toNat * 2 ^ k < 2 ^ 16 := by
    calc hi.toNat * 2 ^ k
        ≤ 255 * 2 ^ 8 := Nat.mul_le_mul (by omega) hpow
      _ < 2 ^ 16 := by decide
  rw [UInt16.toNat_or, UInt16.toNat_shiftLeft, UInt8.toNat_toUInt16,
    UInt8.toNat_toUInt16, hshift, Nat.mod_eq_of_lt (show k < 16 by omega),
    Nat.shiftLeft_eq, Nat.mod_eq_of_lt hbound, ← Nat.shiftLeft_eq,
    ← Nat.shiftLeft_add_eq_or_of_lt hlo, Nat.shiftLeft_eq]

theorem field_add (s : Bitstream) (p m n : ℕ) :
    s.field p (m + n) = s.field p m ++ s.field (p + m) n := by
  simp [field, List.range_add, Nat.add_assoc, Function.comp_def]

/-- Pulling up to sixteen bits does too, most significant byte first. -/
theorem bitstreamPullUint16Be_eq {n : ℕ} (hn : n ≤ 16) (s : Bitstream) :
    (bitstreamPullUint16Be s n).1.toNat = ofBits (s.field s.position n) ∧
      (bitstreamPullUint16Be s n).2
        = { s with position := s.position + n } := by
  have hhalves {m k : ℕ} (hm : m ≤ 8) (hk : k ≤ 8) :
      let hi := bitstreamPullUint8 s m
      let lo := bitstreamPullUint8 hi.2 k
      ((hi.1.toUInt16 <<< UInt16.ofNat k) ||| lo.1.toUInt16).toNat
          = ofBits (s.field s.position (m + k)) ∧
        lo.2 = { s with position := s.position + (m + k) } := by
    intro hi lo
    obtain ⟨hhi, hpos⟩ := bitstreamPullUint8_eq hm s
    obtain ⟨hlo, hpos'⟩ := bitstreamPullUint8_eq hk hi.2
    constructor
    · rw [toNat_halves hk (bitstreamPullUint8_lt hk hi.2), hhi, hlo, hpos,
        field_add, ofBits_append, length_field]
      rfl
    · show (bitstreamPullUint8 hi.2 k).2 = _
      rw [hpos', hpos]
      simp only [Bitstream.mk.injEq, true_and]
      omega
  rw [bitstreamPullUint16Be]
  by_cases h : n > 8
  · have hsum : 8 + (n - 8) = n := by omega
    have hpull := hhalves (le_refl 8) (show n - 8 ≤ 8 by omega)
    rw [hsum] at hpull
    simpa only [if_pos h] using hpull
  · have hpull := hhalves (not_lt.mp h) (Nat.zero_le 8)
    rw [Nat.add_zero] at hpull
    simpa only [if_neg h] using hpull

/-! ## Pushing -/

theorem bitstreamPushBit_bit {s : Bitstream} {b : Bool} {i : ℕ}
    (hfits : s.position < 8 * s.data.length) (hi : i ≤ s.position) :
    (bitstreamPushBit s b).bit i = if i = s.position then b else s.bit i := by
  unfold bitstreamPushBit Bitstream.bit
  simp only [bitstreamShift_eq, List.getD_eq_getElem?_getD,
    List.getElem?_set]
  by_cases hbyte : s.position / 8 = i / 8
  · rw [if_pos hbyte, if_pos (by omega), Option.getD_some,
      testBit_pushed _ _ (by omega) (by omega) (by omega), hbyte]
    by_cases hip : i = s.position
    · rw [if_pos hip, if_pos (by rw [hip])]
    · rw [if_neg hip, if_neg (by omega)]
  · rw [if_neg hbyte, if_neg (by rintro rfl; exact hbyte rfl)]

/-- A push appends a bit. -/
theorem Bitstream.Written.pushBit {s : Bitstream} {bits : List Bool}
    (h : s.Written bits) (hfits : bits.length < 8 * s.data.length)
    (b : Bool) : (bitstreamPushBit s b).Written (bits ++ [b]) where
  length := by
    simp [bitstreamPushBit, h.position, h.length]
  fits := by
    simpa [bitstreamPushBit] using hfits
  position := by
    simp [bitstreamPushBit, h.position]
  bit := by
    intro i hi
    have hpos := h.position
    rw [List.length_append, List.length_singleton] at hi
    rw [bitstreamPushBit_bit (by omega) (by omega), List.getElem_append]
    by_cases hip : i = s.position
    · rw [if_pos hip, dif_neg (by omega)]
      simp
    · rw [if_neg hip, dif_pos (by omega)]
      exact h.bit i (by omega)

theorem length_data_pushBit (s : Bitstream) (b : Bool) :
    (bitstreamPushBit s b).data.length = s.data.length := by
  simp [bitstreamPushBit]

/-- The bits a push of `left` bits out of the `n` low ones of a byte sends. -/
theorem bitstreamPushUint8Loop_written {n : ℕ} (hn : n ≤ 8) {left : ℕ}
    (hleft : left ≤ n) {s : Bitstream} {bits : List Bool} (pushed : UInt8)
    (h : s.Written bits) (hfits : bits.length + left ≤ 8 * s.data.length) :
    (bitstreamPushUint8Loop n left s pushed).Written
        (bits ++ (List.range left).map
          fun i => pushed.toNat.testBit (n - 1 - i)) ∧
      (bitstreamPushUint8Loop n left s pushed).data.length
        = s.data.length := by
  induction left generalizing s bits pushed with
  | zero => simpa [bitstreamPushUint8Loop] using h
  | succ left ih =>
      have hbit : (((pushed >>> UInt8.ofNat (n - 1)) &&& 0x01) != 0)
          = pushed.toNat.testBit (n - 1) :=
        shiftRight_and_one pushed (by omega)
      obtain ⟨h1, h2⟩ := ih (by omega) (pushed <<< 1)
        (h.pushBit (by omega) (pushed.toNat.testBit (n - 1)))
        (by rw [length_data_pushBit]; simp; omega)
      rw [bitstreamPushUint8Loop, hbit]
      refine ⟨?_, by rw [h2, length_data_pushBit]⟩
      convert h1 using 1
      rw [List.range_succ_eq_map, List.map_cons, List.map_map,
        List.append_assoc]
      congr 2
      refine List.map_congr_left fun i hi => ?_
      rw [List.mem_range] at hi
      -- the byte has moved up by one since bit `i` was due
      show pushed.toNat.testBit (n - 1 - (i + 1))
        = (pushed <<< 1).toNat.testBit (n - 1 - i)
      rw [UInt8.toNat_shiftLeft, Nat.testBit_mod_two_pow,
        Nat.testBit_shiftLeft]
      simp only [UInt8.reduceToNat, Nat.reduceMod, ge_iff_le,
        show n - 1 - i < 8 by omega, show 1 ≤ n - 1 - i by omega,
        decide_true, Bool.true_and]
      congr 1

/-- `nexus_bitstream_push_uint8` appends a field. -/
theorem Bitstream.Written.pushUint8 {n : ℕ} (hn : n ≤ 8) {s : Bitstream}
    {bits : List Bool} (h : s.Written bits)
    (hfits : bits.length + n ≤ 8 * s.data.length) (pushed : UInt8) :
    (bitstreamPushUint8 s pushed n).Written (bits ++ toBits n pushed.toNat) ∧
      (bitstreamPushUint8 s pushed n).data.length = s.data.length := by
  rw [toBits_eq_map]
  exact bitstreamPushUint8Loop_written hn (le_refl n) _ h hfits

/-! ## Reading what is held -/

theorem Bitstream.Holds.field {s : Bitstream} {bits : List Bool}
    (h : s.Holds bits) {p n : ℕ} (hle : p + n ≤ bits.length) :
    s.field p n = (bits.drop p).take n := by
  refine List.ext_getElem (by simp; omega) fun i h1 h2 => ?_
  rw [length_field] at h1
  simp only [Bitstream.field, List.getElem_map, List.getElem_range,
    List.getElem_take, List.getElem_drop]
  exact h.bit (p + i) (by omega)

theorem Bitstream.Holds.move {s : Bitstream} {bits : List Bool}
    (h : s.Holds bits) (p : ℕ) :
    Holds (bitstreamSetBitPosition s p) bits :=
  ⟨h.length, h.fits, h.bit⟩

/-- A field of up to eight bits. -/
theorem Bitstream.Holds.pullUint8 {s : Bitstream} {bits : List Bool}
    (h : s.Holds bits) {n : ℕ} (hn : n ≤ 8)
    (hle : s.position + n ≤ bits.length) :
    (bitstreamPullUint8 s n).1
        = UInt8.ofNat (ofBits ((bits.drop s.position).take n)) ∧
      (bitstreamPullUint8 s n).2 = { s with position := s.position + n } := by
  obtain ⟨hvalue, hmoved⟩ := bitstreamPullUint8_eq hn s
  refine ⟨?_, hmoved⟩
  rw [← h.field hle, ← hvalue, UInt8.ofNat_toNat]

/-- A field of twelve bits. -/
theorem Bitstream.Holds.pullUint16Be {s : Bitstream} {bits : List Bool}
    (h : s.Holds bits) (hle : s.position + 12 ≤ bits.length) :
    (bitstreamPullUint16Be s 12).1
      = UInt16.ofNat (ofBits ((bits.drop s.position).take 12)) := by
  rw [← h.field hle, ← (bitstreamPullUint16Be_eq (by decide) s).1,
    UInt16.ofNat_toNat]

theorem Bitstream.Holds.pullBit {s : Bitstream} {bits : List Bool}
    (h : s.Holds bits) (hlt : s.position < bits.length) :
    bitstreamPullBit s
      = (bits[s.position], { s with position := s.position + 1 }) :=
  Prod.ext ((bitstreamPullBit_fst s).trans (h.bit _ hlt)) rfl

/-! ## Whole buffers -/

/-- The bits of some bytes, most significant bit of each first. -/
def bytesBits (bytes : List UInt8) : List Bool :=
  (List.range (8 * bytes.length)).map
    fun i => (bytes.getD (i / 8) 0).toNat.testBit (7 - i % 8)

@[simp] theorem length_bytesBits (bytes : List UInt8) :
    (bytesBits bytes).length = 8 * bytes.length := by
  simp [bytesBits]

theorem bitstreamInit_holds (bytes : List UInt8) (capacity : ℕ) :
    (bitstreamInit bytes capacity (8 * bytes.length)).Holds
      (bytesBits bytes) where
  length := (length_bytesBits bytes).symm
  fits := (length_bytesBits bytes).le
  bit := by
    intro i hi
    simp [bytesBits, Bitstream.bit, bitstreamInit]

/-- A fresh stream holds nothing, whatever its buffer contains. -/
theorem bitstreamInit_written (bytes : List UInt8) (capacity : ℕ) :
    (bitstreamInit bytes capacity 0).Written [] where
  length := rfl
  fits := by simp
  bit := by simp
  position := rfl

end Nexus.Util

namespace Nexus.Keycode

open Nexus.Util Nexus.Util.Bitstream

/-! ## From stream to stream -/

theorem take_succ_drop {bits : List Bool} {p n : ℕ} (h : p < bits.length) :
    (bits.drop p).take (n + 1) = bits[p] :: (bits.drop (p + 1)).take n := by
  rw [List.drop_eq_getElem_cons h, List.take_succ_cons]

/-- `copyLoop` appends what it reads. -/
theorem copyLoop_written {n : ℕ} {input output : Bitstream}
    {bits out : List Bool} (hin : input.Holds bits)
    (hle : input.position + n ≤ bits.length) (hout : output.Written out)
    (hfits : out.length + n ≤ 8 * output.data.length) :
    (copyLoop n (input, output)).1
        = { input with position := input.position + n } ∧
      (copyLoop n (input, output)).2.Written
        (out ++ (bits.drop input.position).take n) ∧
      (copyLoop n (input, output)).2.data.length = output.data.length := by
  induction n generalizing input output out with
  | zero => simpa [copyLoop] using hout
  | succ n ih =>
      have hlt : input.position < bits.length := by omega
      have hnext : { input with position := input.position + 1 }.Holds bits :=
        hin.move _
      obtain ⟨h1, h2, h3⟩ := ih hnext
        (by show input.position + 1 + n ≤ _; omega)
        (hout.pushBit (by omega) bits[input.position])
        (by rw [length_data_pushBit]; simp; omega)
      simp only [copyLoop, hin.pullBit hlt]
      refine ⟨?_, ?_, by rw [h3, length_data_pushBit]⟩
      · rw [h1]
        simp only [Bitstream.mk.injEq, true_and]
        omega
      · rw [take_succ_drop hlt, List.append_cons]
        exact h2

/-- `obfuscateLoop` appends the exclusive or of what it reads. -/
theorem obfuscateLoop_written {n : ℕ} {input output prng : Bitstream}
    {bits mask out : List Bool} (hin : input.Holds bits)
    (hle : input.position + n ≤ bits.length) (hprng : prng.Holds mask)
    (hle' : prng.position + n ≤ mask.length) (hout : output.Written out)
    (hfits : out.length + n ≤ 8 * output.data.length) :
    (obfuscateLoop n (input, output, prng)).1
        = { input with position := input.position + n } ∧
      (obfuscateLoop n (input, output, prng)).2.1.Written
        (out ++ List.zipWith xor ((bits.drop input.position).take n)
          ((mask.drop prng.position).take n)) ∧
      (obfuscateLoop n (input, output, prng)).2.1.data.length
        = output.data.length := by
  induction n generalizing input output prng out with
  | zero => simpa [obfuscateLoop] using hout
  | succ n ih =>
      have hlt : input.position < bits.length := by omega
      have hlt' : prng.position < mask.length := by omega
      have hnext : { input with position := input.position + 1 }.Holds bits :=
        hin.move _
      have hnext' : { prng with position := prng.position + 1 }.Holds mask :=
        hprng.move _
      obtain ⟨h1, h2, h3⟩ := ih hnext
        (by show input.position + 1 + n ≤ _; omega) hnext'
        (by show prng.position + 1 + n ≤ _; omega)
        (hout.pushBit (by omega) (bits[input.position]
          ^^ mask[prng.position]))
        (by rw [length_data_pushBit]; simp; omega)
      simp only [obfuscateLoop, hin.pullBit hlt, hprng.pullBit hlt']
      refine ⟨?_, ?_, by rw [h3, length_data_pushBit]⟩
      · rw [h1]
        simp only [Bitstream.mk.injEq, true_and]
        omega
      · rw [take_succ_drop hlt, take_succ_drop hlt', List.zipWith_cons_cons,
          List.append_cons]
        exact h2

/-- `nexus_keycode_pro_small_reversibly_obfuscate` masks the first bits and
copies the rest. -/
theorem smallReversiblyObfuscate_written {c : ℕ}
    {input output prng : Bitstream} {bits mask : List Bool}
    (hin : input.Holds bits) (hc : c ≤ bits.length) (hprng : prng.Holds mask)
    (hc' : c ≤ mask.length) (hout : output.Written [])
    (hfits : bits.length ≤ 8 * output.data.length) :
    (smallReversiblyObfuscate input output prng c).Written
        (List.zipWith xor (bits.take c) (mask.take c) ++ bits.drop c) ∧
      (smallReversiblyObfuscate input output prng c).data.length
        = output.data.length := by
  have hpos : bitstreamSetBitPosition output 0 = output := by
    have hzero := hout.position
    cases output
    simp only [bitstreamSetBitPosition, Bitstream.mk.injEq, true_and]
    exact hzero.symm
  obtain ⟨hinput, hmasked, hdata⟩ := obfuscateLoop_written (n := c)
    (hin.move 0) (by show 0 + c ≤ _; omega) (hprng.move 0)
    (by show 0 + c ≤ _; omega) hout
    (by show 0 + c ≤ _; omega)
  have hlen : (List.zipWith xor (bits.take c) (mask.take c)).length = c := by
    simp [hc, hc']
  obtain ⟨-, hcopied, hdata'⟩ := copyLoop_written (n := bits.length - c)
    (hin.move (0 + c)) (by show 0 + c + (bits.length - c) ≤ _; omega) hmasked
    (by
      show ([] ++ List.zipWith xor (bits.take c) (mask.take c)).length + _ ≤ _
      rw [hdata, List.nil_append, hlen]
      omega)
  have hleft : input.length - (0 + c) = bits.length - c := by
    rw [hin.length, Nat.zero_add]
  have hrest : (bits.drop (0 + c)).take (bits.length - c) = bits.drop c := by
    rw [Nat.zero_add]
    exact List.take_of_length_le (List.length_drop.le)
  rw [smallReversiblyObfuscate, hpos]
  constructor
  · simp only [hinput]
    show (copyLoop (input.length - (0 + c)) _).2.Written _
    rw [hleft, ← hrest]
    exact hcopied
  · simp only [hinput]
    show (copyLoop (input.length - (0 + c)) _).2.data.length = _
    rw [hleft, ← hdata]
    exact hdata'

end Nexus.Keycode
