import Nexus.Proofs.Bitstream

/-!
# What goes into a stream comes out

Fields of up to eight bits, pushed one behind the other into a fresh stream,
come back when the same widths are pulled from the start: a push appends the
low bits of its value, whatever lay in the buffer, and a pull reads as many
bits as a number. Where the fields begin in their bytes plays no part.

Obfuscation is the other way round: it takes the bits out of one stream and
puts them into another with a mask on the first few. The mask on top of itself
is no mask, so the second time gives the input back.
-/

namespace Nexus.Util

open Nexus.Lib Bitstream

/-! ## Fields -/

/-- Push values with their widths, in order. -/
def pushFields (stream : Bitstream) (fields : List (UInt8 × ℕ)) : Bitstream :=
  fields.foldl (fun stream field => bitstreamPushUint8 stream field.1 field.2)
    stream

/-- Pull values of these widths, in order. -/
def pullFields : List ℕ → Bitstream → List UInt8
  | [], _ => []
  | bits :: widths, stream =>
      let pulled := bitstreamPullUint8 stream bits
      pulled.1 :: pullFields widths pulled.2

/-- Pull bits one at a time. -/
def pullBits : ℕ → Bitstream → List Bool × Bitstream
  | 0, stream => ([], stream)
  | bits + 1, stream =>
      let pulled := bitstreamPullBit stream
      let rest := pullBits bits pulled.2
      (pulled.1 :: rest.1, rest.2)

/-- The bits of all fields. -/
def fieldsBits (fields : List (UInt8 × ℕ)) : List Bool :=
  fields.flatMap fun field => toBits field.2 field.1.toNat

theorem length_fieldsBits (fields : List (UInt8 × ℕ)) :
    (fieldsBits fields).length = (fields.map Prod.snd).sum := by
  induction fields with
  | nil => rfl
  | cons field fields ih =>
      rw [fieldsBits, List.flatMap_cons, List.length_append, length_toBits,
        List.map_cons, List.sum_cons, ← ih, fieldsBits]

/-- The pushes append the fields. -/
theorem pushFields_written {fields : List (UInt8 × ℕ)}
    (hbits : ∀ field ∈ fields, field.2 ≤ 8) {s : Bitstream}
    {bits : List Bool} (h : s.Written bits)
    (hfits : bits.length + (fields.map Prod.snd).sum ≤ 8 * s.data.length) :
    (pushFields s fields).Written (bits ++ fieldsBits fields) := by
  induction fields generalizing s bits with
  | nil => simpa [pushFields, fieldsBits] using h
  | cons field fields ih =>
      rw [List.map_cons, List.sum_cons] at hfits
      obtain ⟨hpushed, hdata⟩ := h.pushUint8
        (hbits field List.mem_cons_self) (by omega) field.1
      have hrest := ih (fun f hf => hbits f (List.mem_cons_of_mem _ hf)) hpushed
        (by rw [hdata, List.length_append, length_toBits]; omega)
      rw [List.append_assoc] at hrest
      exact hrest

/-- The pulls read them, wherever they begin. -/
theorem pullFields_holds {fields : List (UInt8 × ℕ)}
    (hbits : ∀ field ∈ fields, field.2 ≤ 8) {s : Bitstream}
    {before : List Bool} (h : s.Holds (before ++ fieldsBits fields))
    (hpos : s.position = before.length) :
    pullFields (fields.map Prod.snd) s
      = fields.map fun field =>
          UInt8.ofNat (field.1.toNat % 2 ^ field.2) := by
  induction fields generalizing s before with
  | nil => rfl
  | cons field fields ih =>
      have hcons : fieldsBits (field :: fields)
          = toBits field.2 field.1.toNat ++ fieldsBits fields := rfl
      have hlen : (toBits field.2 field.1.toNat).length = field.2 :=
        length_toBits _ _
      have hread : ((before ++ fieldsBits (field :: fields)).drop
          s.position).take field.2 = toBits field.2 field.1.toNat := by
        rw [hpos, List.drop_left, hcons, List.take_left' hlen]
      obtain ⟨hvalue, hmoved⟩ := h.pullUint8 (hbits field List.mem_cons_self)
        (by rw [hpos, List.length_append, hcons, List.length_append, hlen]
            omega)
      rw [hread, ofBits, map_toBits, ofDigits_toDigits_mod] at hvalue
      have hnext : { s with position := s.position + field.2 }.Holds
          ((before ++ toBits field.2 field.1.toNat) ++ fieldsBits fields) := by
        rw [List.append_assoc, ← hcons]
        exact h.move _
      have hrest := ih (fun f hf => hbits f (List.mem_cons_of_mem _ hf)) hnext
        (by
          show s.position + field.2 = _
          rw [List.length_append, hlen, hpos])
      rw [List.map_cons, List.map_cons, pullFields, hmoved, hvalue, hrest]

/-- Pulled bits are the bits of the buffer. -/
theorem pullBits_eq (n : ℕ) (s : Bitstream) :
    pullBits n s
      = (s.field s.position n, { s with position := s.position + n }) := by
  induction n generalizing s with
  | zero => rfl
  | succ n ih =>
      have hnext : (bitstreamPullBit s).2
          = { s with position := s.position + 1 } := rfl
      rw [pullBits, ih, bitstreamPullBit_fst, hnext, field_succ]
      simp only [Prod.mk.injEq, Bitstream.mk.injEq, true_and]
      refine ⟨rfl, ?_⟩
      omega

/-- Fields come back, and up to sixteen bits are read as the number they
spell. -/
theorem pullFields_pushFields {fields : List (UInt8 × ℕ)} {bytes : List UInt8}
    {capacity : ℕ} (hbits : ∀ field ∈ fields, 1 ≤ field.2 ∧ field.2 ≤ 8)
    (htotal : (fields.map Prod.snd).sum ≤ capacity)
    (hcapacity : capacity ≤ 8 * bytes.length) :
    let stream := pushFields (bitstreamInit bytes capacity 0) fields
    stream.length = (fields.map Prod.snd).sum ∧
      pullFields (fields.map Prod.snd) (bitstreamSetBitPosition stream 0)
        = fields.map (fun field =>
            UInt8.ofNat (field.1.toNat % 2 ^ field.2)) ∧
      ∀ (s : Bitstream) (n : ℕ), n ≤ 16 →
        (bitstreamPullUint16Be s n).1.toNat = ofBits (pullBits n s).1 ∧
          (bitstreamPullUint16Be s n).2 = (pullBits n s).2 := by
  intro stream
  have hwidths : ∀ field ∈ fields, field.2 ≤ 8 := by
    intro field hfield
    exact (hbits field hfield).2
  have hwritten : stream.Written (fieldsBits fields) :=
    pushFields_written hwidths (bitstreamInit_written bytes capacity)
      (by
        show 0 + _ ≤ 8 * bytes.length
        omega)
  refine ⟨?_, ?_, ?_⟩
  · rw [hwritten.length, length_fieldsBits]
  · have hstart : (bitstreamSetBitPosition stream 0).Holds
        ([] ++ fieldsBits fields) := hwritten.toHolds.move 0
    exact pullFields_holds hwidths hstart rfl
  · intro s n hn
    rw [pullBits_eq]
    exact bitstreamPullUint16Be_eq hn s

/-- Three fields over two bytes of rubbish. -/
theorem pullFields_pushFields_three :
    pullFields [3, 8, 5] (bitstreamSetBitPosition
        (pushFields (bitstreamInit [0xff, 0xa5] 16 0)
          [(0x0a, 3), (0xc3, 8), (0x3f, 5)]) 0)
      = [0x02, 0xc3, 0x1f] :=
  (@pullFields_pushFields [(0x0a, 3), (0xc3, 8), (0x3f, 5)] [0xff, 0xa5] 16
    (by decide) (by decide) (by decide)).2.1

/-! ## Whole streams -/

/-- The bits in a stream. -/
def Bitstream.contents (s : Bitstream) : List Bool := s.field 0 s.length

theorem Bitstream.Holds.contents {s : Bitstream} {bits : List Bool}
    (h : s.Holds bits) : s.contents = bits := by
  rw [Bitstream.contents, h.length, h.field (by omega), List.drop_zero,
    List.take_length]

/-- A stream that does not overrun its buffer holds its bits. -/
theorem Bitstream.holds_contents {s : Bitstream}
    (h : s.length ≤ 8 * s.data.length) : s.Holds s.contents where
  length := (length_field s 0 s.length).symm
  fits := by
    rw [Bitstream.contents, length_field]
    exact h
  bit := by
    intro i hi
    simp [Bitstream.contents, Bitstream.field]

end Nexus.Util

namespace Nexus.Keycode

open Nexus.Util Nexus.Util.Bitstream

/-! ## Obfuscation -/

/-- The same mask twice is no mask. -/
theorem zipWith_xor_twice {bits mask : List Bool}
    (h : bits.length ≤ mask.length) :
    List.zipWith xor (List.zipWith xor bits mask) mask = bits := by
  induction bits generalizing mask with
  | nil => rfl
  | cons b bits ih =>
      cases mask with
      | nil => cases h
      | cons m mask =>
          have hrest := ih (Nat.le_of_succ_le_succ h)
          rw [List.zipWith_cons_cons, List.zipWith_cons_cons, hrest,
            Bool.xor_assoc, Bool.xor_self, Bool.xor_false]

/-- Masked and copied bits, masked and copied again. -/
theorem masked_twice {bits mask : List Bool} {c : ℕ} (hc : c ≤ bits.length)
    (hc' : c ≤ mask.length) :
    let masked := List.zipWith xor (bits.take c) (mask.take c) ++ bits.drop c
    List.zipWith xor (masked.take c) (mask.take c) ++ masked.drop c
      = bits := by
  intro masked
  have hlen : (List.zipWith xor (bits.take c) (mask.take c)).length = c := by
    simp [hc, hc']
  have hfirst : masked.take c
      = List.zipWith xor (bits.take c) (mask.take c) := List.take_left' hlen
  have hrest : masked.drop c = bits.drop c := List.drop_left' hlen
  rw [hfirst, hrest, zipWith_xor_twice (by simp [hc, hc']),
    List.take_append_drop]

/-- Obfuscation is reversible. -/
theorem smallReversiblyObfuscate_twice {input prng : Bitstream} {c : UInt8}
    {bytes bytes' : List UInt8} {capacity capacity' : ℕ}
    (hinput : input.length ≤ 8 * input.data.length)
    (hprng : prng.length ≤ 8 * prng.data.length)
    (hc : c.toNat ≤ min input.length prng.length)
    (hcapacity : input.length ≤ capacity)
    (hbytes : capacity ≤ 8 * bytes.length)
    (hcapacity' : input.length ≤ capacity')
    (hbytes' : capacity' ≤ 8 * bytes'.length) :
    let obfuscated := smallReversiblyObfuscate input
      (bitstreamInit bytes capacity 0) prng c.toNat
    let restored := smallReversiblyObfuscate obfuscated
      (bitstreamInit bytes' capacity' 0) prng c.toNat
    obfuscated.contents
        = List.zipWith xor (input.contents.take c.toNat)
            (prng.contents.take c.toNat)
          ++ input.contents.drop c.toNat ∧
      restored.length = input.length ∧
      restored.contents = input.contents := by
  intro obfuscated restored
  have hlen : input.contents.length = input.length := length_field _ _ _
  have hlen' : prng.contents.length = prng.length := length_field _ _ _
  have hbits : c.toNat ≤ input.contents.length := by omega
  have hmask : c.toNat ≤ prng.contents.length := by omega
  have honce : obfuscated.Written
      (List.zipWith xor (input.contents.take c.toNat)
          (prng.contents.take c.toNat)
        ++ input.contents.drop c.toNat) :=
    (smallReversiblyObfuscate_written (holds_contents hinput) hbits
      (holds_contents hprng) hmask (bitstreamInit_written bytes capacity)
      (by
        show _ ≤ 8 * bytes.length
        omega)).1
  have hmasked : (List.zipWith xor (input.contents.take c.toNat)
      (prng.contents.take c.toNat)
        ++ input.contents.drop c.toNat).length = input.length := by
    simp
    omega
  have htwice := (smallReversiblyObfuscate_written honce.toHolds
    (by omega) (holds_contents hprng) hmask
    (bitstreamInit_written bytes' capacity')
    (by
      show _ ≤ 8 * bytes'.length
      omega)).1
  rw [masked_twice hbits hmask] at htwice
  refine ⟨honce.toHolds.contents, ?_, htwice.toHolds.contents⟩
  rw [htwice.length, hlen]

/-- Ten bits under a mask of six, over buffers of rubbish. -/
theorem smallReversiblyObfuscate_twice_ten :
    (smallReversiblyObfuscate
        (smallReversiblyObfuscate (bitstreamInit [0x5a, 0xc0] 16 10)
          (bitstreamInit [0xff, 0xff] 16 0) (bitstreamInit [0xe7] 8 8) 6)
        (bitstreamInit [0x33, 0x99] 16 0) (bitstreamInit [0xe7] 8 8)
        6).contents
      = (bitstreamInit [0x5a, 0xc0] 16 10).contents :=
  (@smallReversiblyObfuscate_twice (bitstreamInit [0x5a, 0xc0] 16 10)
    (bitstreamInit [0xe7] 8 8) 6 [0xff, 0xff] [0x33, 0x99] 16 16 (by decide)
    (by decide) (by decide) (by decide) (by decide) (by decide)
    (by decide)).2.2

end Nexus.Keycode
