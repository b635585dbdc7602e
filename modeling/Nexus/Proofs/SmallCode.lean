import Nexus.Proofs.Bitstream
import Nexus.Proofs.Carried

/-!
# Small-protocol codes

A code is twenty-eight bits: six of id, two of type, eight of body and twelve
of check, the first sixteen masked with pseudorandom bits drawn from the check,
two bits a key. Five bit streams carry them through the parser, each over a
buffer of its own, and three of the buffers are never initialised; each stream
holds its list of bits all the same, so the parser is a function of the keys.
-/

namespace Nexus.Keycode

open Nexus.Util Nexus.Util.Bitstream Nexus.Lib

/-! ## Keys to bits -/

/-- Two bits for each key, its place in the alphabet. -/
def smallFrameBits (alphabet keys : List Key) : List Bool :=
  keys.flatMap fun key => toBits 2 (alphabet.idxOf key)

theorem length_smallFrameBits (alphabet keys : List Key) :
    (smallFrameBits alphabet keys).length = 2 * keys.length := by
  induction keys with
  | nil => rfl
  | cons key keys ih =>
      rw [smallFrameBits, List.flatMap_cons, List.length_append,
        length_toBits, List.length_cons]
      rw [smallFrameBits] at ih
      omega

/-- A place in the alphabet is cut to the two bits pushed for it. -/
theorem toBits_ofNat (j : ℕ) :
    toBits 2 (UInt8.ofNat j).toNat = toBits 2 j := by
  have hbit (i : ℕ) (hi : i < 8) :
      (UInt8.ofNat j).toNat.testBit i = j.testBit i := by
    rw [UInt8.toNat_ofNat', Nat.testBit_mod_two_pow]
    simp [hi]
  simp only [toBits, hbit 1 (by omega), hbit 0 (by omega)]

theorem idxOf?_of_mem {alphabet : List Key} {key : Key}
    (h : key ∈ alphabet) :
    alphabet.idxOf? key = some (alphabet.idxOf key) := by
  induction alphabet with
  | nil => cases h
  | cons first alphabet ih =>
      rw [List.idxOf?_cons, List.idxOf_cons]
      by_cases hfirst : first = key
      · simp [hfirst]
      · have hmem : key ∈ alphabet := by
          rcases List.mem_cons.mp h with rfl | h
          · exact absurd rfl hfirst
          · exact h
        simp [beq_eq_false_iff_ne.mpr hfirst, ih hmem]

section

variable (alphabet keys : List Key) {i : ℕ} {s : Bitstream}
  {bits : List Bool}

/-- The key loop, over keys of the alphabet. -/
theorem smallPushKeys_written (h : s.Written bits)
    (hlen : bits.length = 2 * i)
    (hfits : bits.length + 2 * keys.length ≤ 8 * s.data.length)
    (hkeys : ∀ key ∈ keys, key ∈ alphabet) :
    ∃ s', smallPushKeys alphabet i keys s = some s' ∧
      s'.Written (bits ++ smallFrameBits alphabet keys) := by
  induction keys generalizing i s bits with
  | nil => exact ⟨s, rfl, by simpa [smallFrameBits] using h⟩
  | cons key keys ih =>
      rw [List.length_cons] at hfits
      have hkey : alphabet.idxOf? key = some (alphabet.idxOf key) :=
        idxOf?_of_mem (hkeys key (by simp))
      obtain ⟨hpush, hdata⟩ := h.pushUint8 (n := 2) (by omega) (by omega)
        (UInt8.ofNat (alphabet.idxOf key))
      rw [toBits_ofNat] at hpush
      have hlen' : (bits ++ toBits 2 (alphabet.idxOf key)).length
          = 2 * (i + 1) := by
        rw [List.length_append, length_toBits]
        omega
      obtain ⟨s', hs', hwritten⟩ := ih hpush hlen' (by rw [hdata]; omega)
        fun key' hkey' => hkeys key' (by simp [hkey'])
      refine ⟨s', ?_, ?_⟩
      · rw [smallPushKeys, hkey]
        simp only []
        rw [if_neg (by rw [hpush.length, hlen']; omega), hs']
      · rw [smallFrameBits, List.flatMap_cons, ← List.append_assoc]
        exact hwritten

/-- It stops at the first key of another kind, which pushes nothing. -/
theorem smallPushKeys_none (h : s.Written bits) (hlen : bits.length = 2 * i)
    (hfits : bits.length + 2 * keys.length ≤ 8 * s.data.length)
    (hkeys : ∃ key ∈ keys, key ∉ alphabet) :
    smallPushKeys alphabet i keys s = none := by
  induction keys generalizing i s bits with
  | nil => simp at hkeys
  | cons key keys ih =>
      rw [List.length_cons] at hfits
      rw [smallPushKeys]
      by_cases hkey : key ∈ alphabet
      · obtain ⟨hpush, hdata⟩ := h.pushUint8 (n := 2) (by omega) (by omega)
          (UInt8.ofNat (alphabet.idxOf key))
        have hlen' : (bits ++ toBits 2
            (UInt8.ofNat (alphabet.idxOf key)).toNat).length
              = 2 * (i + 1) := by
          rw [List.length_append, length_toBits]
          omega
        rw [idxOf?_of_mem hkey]
        simp only []
        rw [if_neg (by rw [hpush.length, hlen']; omega)]
        refine ih hpush hlen' (by rw [hdata]; omega) ?_
        obtain ⟨key', hmem, hno⟩ := hkeys
        rcases List.mem_cons.mp hmem with rfl | hmem
        · exact absurd hkey hno
        · exact ⟨key', hmem, hno⟩
      · rw [List.idxOf?_eq_none_iff.mpr hkey]
        simp only []
        rw [if_pos (by rw [h.length, hlen]; omega)]

end

/-! ## Bits to fields -/

/-- The check a frame of these bits carries. -/
def smallCheckOf (bits : List Bool) : UInt16 :=
  UInt16.ofNat (ofBits (bits.drop 16))

/-- The bits that mask the first sixteen. -/
def smallMask (check : UInt16) : List Bool :=
  (bytesBits (smallPrngBytes check)).take 16

/-- The bits with the mask taken off. -/
def smallClearOf (bits : List Bool) : List Bool :=
  List.zipWith xor (bits.take 16) (smallMask (smallCheckOf bits))
    ++ bits.drop 16

/-- The message in clear bits, read with the window at `pd`. -/
def smallMessageOf (check : UInt16) (clear : List Bool) (pd : UInt32) :
    SmallMessage :=
  let received := UInt8.ofNat (ofBits (clear.take 6))
  let typeCode := UInt8.ofNat (ofBits ((clear.drop 6).take 2))
  { fullMessageId :=
      if typeCode = smallActivationAddCreditType
          ∨ typeCode = smallActivationSetCreditType then
        inferFullMessageId received pd
      else received.toUInt32
    typeCode := typeCode
    body := UInt8.ofNat (ofBits ((clear.drop 8).take 8))
    check := check }

/-- The passthrough bits among clear bits: all but the type. -/
def smallPassthroughOf (clear : List Bool) : List Bool :=
  clear.take 6 ++ clear.drop 8

/-- The extended message in passthrough bits, past the first of them. -/
def extendedMessageOf (bits : List Bool) : Option ExtendedSmallMessage :=
  if UInt8.ofNat (ofBits ((bits.drop 1).take 3))
      ≠ extendedSmallTypeSetCreditAndWipeFlag then none
  else
    some ⟨0, UInt8.ofNat (ofBits ((bits.drop 1).take 3)),
      UInt8.ofNat (ofBits ((bits.drop 4).take 2)),
      UInt8.ofNat (ofBits ((bits.drop 6).take 8)),
      UInt16.ofNat (ofBits ((bits.drop 14).take 12))⟩

theorem length_smallMask (check : UInt16) : (smallMask check).length = 16 := by
  have hlen : (smallPrngBytes check).length = 4 :=
    length_checkComputePseudorandomBytes _ _ (by omega)
  simp [smallMask, hlen]

theorem length_smallClearOf {bits : List Bool} (h : bits.length = 28) :
    (smallClearOf bits).length = 28 := by
  simp [smallClearOf, length_smallMask, h]

theorem length_smallPassthroughOf {clear : List Bool}
    (h : clear.length = 28) : (smallPassthroughOf clear).length = 26 := by
  simp [smallPassthroughOf, h]

theorem toNat_endianHtobe16 (v : UInt16) :
    (endianHtobe16 v).toNat = v.toNat / 256 + 256 * (v.toNat % 256) := by
  have hv := v.toNat_lt
  rw [endianHtobe16, UInt16.toNat_or, UInt16.toNat_shiftRight,
    UInt16.toNat_shiftLeft]
  show v.toNat >>> 8 ||| (v.toNat <<< 8) % 2 ^ 16 = _
  rw [Nat.shiftRight_eq_div_pow, Nat.shiftLeft_eq,
    show v.toNat * 2 ^ 8 % 2 ^ 16 = (v.toNat % 256) <<< 8 by
      rw [Nat.shiftLeft_eq]; omega,
    Nat.or_comm, ← Nat.shiftLeft_add_eq_or_of_lt (by omega),
    Nat.shiftLeft_eq]
  omega

/-- The swap of a little-endian host is undone. -/
theorem endianBe16toh_endianHtobe16 (v : UInt16) :
    endianBe16toh (endianHtobe16 v) = v := by
  have hv := v.toNat_lt
  rw [← UInt16.toNat_inj]
  show ((((endianHtobe16 v).toUInt8).toUInt16 <<< 8)
    ||| (((endianHtobe16 v) >>> 8).toUInt8).toUInt16).toNat = v.toNat
  rw [UInt16.toNat_or, UInt16.toNat_shiftLeft, UInt8.toNat_toUInt16,
    UInt8.toNat_toUInt16, UInt16.toNat_toUInt8, UInt16.toNat_toUInt8,
    UInt16.toNat_shiftRight, toNat_endianHtobe16]
  show ((v.toNat / 256 + 256 * (v.toNat % 256)) % 2 ^ 8) <<< 8 % 2 ^ 16
    ||| (v.toNat / 256 + 256 * (v.toNat % 256)) >>> 8 % 2 ^ 8 = v.toNat
  have hlow : (v.toNat / 256 + 256 * (v.toNat % 256)) % 2 ^ 8
      = v.toNat / 256 := by omega
  have hhigh : (v.toNat / 256 + 256 * (v.toNat % 256)) / 2 ^ 8 % 2 ^ 8
      = v.toNat % 256 := by omega
  rw [Nat.shiftRight_eq_div_pow, hlow, hhigh, Nat.mod_eq_of_lt (by
    rw [Nat.shiftLeft_eq]; omega),
    ← Nat.shiftLeft_add_eq_or_of_lt (by omega), Nat.shiftLeft_eq]
  omega

section

variable {alphabet : List Key} {stack : Stack} {frame : Frame}
  {s : Bitstream}

/-- The first half of the parser, on keys of the alphabet. -/
theorem smallDeobfuscate_of_mem (stack : Stack) (hlen : frame.keys.length = 14)
    (hkeys : ∀ key ∈ frame.keys, key ∈ alphabet) :
    ∃ s, smallDeobfuscate alphabet stack frame
        = some (smallCheckOf (smallFrameBits alphabet frame.keys), s) ∧
      s.Holds (smallClearOf (smallFrameBits alphabet frame.keys)) := by
  have hbits := length_smallFrameBits alphabet frame.keys
  rw [hlen] at hbits
  obtain ⟨pushed, hpushed, hwritten⟩ := smallPushKeys_written
    alphabet frame.keys (i := 0)
    (bitstreamInit_written stack.messageBytes.toList 32) rfl
    (by rw [hlen]; show 0 + 28 ≤ 8 * stack.messageBytes.toList.length; simp)
    hkeys
  rw [List.nil_append] at hwritten
  generalize smallFrameBits alphabet frame.keys = bits at hbits hwritten
  have hcheck : (bitstreamPullUint16Be
      (bitstreamSetBitPosition pushed 16) 12).1 = smallCheckOf bits := by
    rw [(hwritten.toHolds.move 16).pullUint16Be
      (by show 16 + 12 ≤ _; omega), smallCheckOf]
    show UInt16.ofNat (ofBits ((bits.drop 16).take 12)) = _
    rw [List.take_of_length_le (by rw [List.length_drop]; omega)]
  have hbytes : (smallPrngBytes (smallCheckOf bits)).length = 4 :=
    length_checkComputePseudorandomBytes _ _ (by omega)
  refine ⟨smallReversiblyObfuscate pushed
    (bitstreamInit stack.deobfuscatedBytes.toList 32 0)
    (bitstreamInit (smallPrngBytes (smallCheckOf bits)) 32 32) 16, ?_, ?_⟩
  · unfold smallDeobfuscate
    rw [if_neg (not_not.mpr hlen), hpushed]
    simp only [hcheck, endianBe16toh_endianHtobe16]
  · have hprng : (bitstreamInit (smallPrngBytes (smallCheckOf bits)) 32
        32).Holds (bytesBits (smallPrngBytes (smallCheckOf bits))) := by
      have := bitstreamInit_holds (smallPrngBytes (smallCheckOf bits)) 32
      rwa [hbytes] at this
    exact (smallReversiblyObfuscate_written hwritten.toHolds
      (by rw [hbits]; decide) hprng
      (by rw [length_bytesBits, hbytes]; decide)
      (bitstreamInit_written _ _) (by
        show bits.length ≤ 8 * stack.deobfuscatedBytes.toList.length
        rw [hbits]
        simp)).1.toHolds

/-- Any other frame is rejected. -/
theorem smallDeobfuscate_eq_none
    (h : frame.keys.length ≠ 14 ∨ ∃ key ∈ frame.keys, key ∉ alphabet) :
    smallDeobfuscate alphabet stack frame = none := by
  unfold smallDeobfuscate
  by_cases hlen : frame.keys.length = 14
  · have hkeys := h.resolve_left (not_not.mpr hlen)
    have hnone := smallPushKeys_none alphabet
      frame.keys (i := 0)
      (bitstreamInit_written stack.messageBytes.toList 32) rfl
      (by rw [hlen]; show 0 + 28 ≤ 8 * stack.messageBytes.toList.length; simp)
      hkeys
    rw [if_neg (not_not.mpr hlen), hnone]
  · rw [if_pos hlen]

theorem smallFields_eq {clear : List Bool} (h : s.Holds clear)
    (hlen : clear.length = 28) (check : UInt16) (pd : UInt32) :
    smallFields check s pd = smallMessageOf check clear pd := by
  obtain ⟨hid, hmoved⟩ := (h.move 0).pullUint8 (n := 6) (by omega)
    (by show 0 + 6 ≤ _; omega)
  obtain ⟨htype, hmoved'⟩ := (h.move 6).pullUint8 (n := 2) (by omega)
    (by show 6 + 2 ≤ _; omega)
  obtain ⟨hbody, -⟩ := (h.move 8).pullUint8 (n := 8) (by omega)
    (by show 8 + 8 ≤ _; omega)
  have hat6 : (bitstreamPullUint8 (bitstreamSetBitPosition s 0) 6).2
      = bitstreamSetBitPosition s 6 := hmoved
  have hat8 : (bitstreamPullUint8 (bitstreamSetBitPosition s 6) 2).2
      = bitstreamSetBitPosition s 8 := hmoved'
  unfold smallFields smallMessageOf
  simp only [hid, hat6, htype, hat8, hbody]
  rfl

/-- The stream handed to the passthrough handler. -/
theorem smallPassthroughBits_holds (stack : Stack) {clear : List Bool} (h : s.Holds clear)
    (hlen : clear.length = 28) :
    (smallPassthroughBits stack s).Holds (smallPassthroughOf clear) ∧
      (smallPassthroughBits stack s).position = 0 := by
  refine ⟨?_, rfl⟩
  have hout := bitstreamInit_written stack.passthroughBytes.toList 32
  have hdata : (bitstreamInit stack.passthroughBytes.toList 32 0).data.length
      = 4 := by
    show stack.passthroughBytes.toList.length = 4
    simp
  obtain ⟨hinput, hwritten, hdata'⟩ := copyLoop_written (n := 6) (h.move 0)
    (by show 0 + 6 ≤ _; omega) hout (by rw [hdata]; decide)
  obtain ⟨-, hwritten', -⟩ := copyLoop_written (n := 20) (h.move 8)
    (by show 8 + 20 ≤ _; omega) hwritten (by
      rw [hdata', hdata]
      simp)
  have hat8 : bitstreamSetBitPosition (copyLoop 6
      (bitstreamSetBitPosition s 0,
        bitstreamInit stack.passthroughBytes.toList 32 0)).1 8
      = bitstreamSetBitPosition s 8 := by
    rw [hinput]
    rfl
  rw [← hat8] at hwritten'
  refine hwritten'.toHolds.move 0 |> Eq.mp ?_
  congr 1
  show [] ++ (clear.drop 0).take 6 ++ (clear.drop 8).take 20 = _
  rw [List.take_of_length_le (l := clear.drop 8)
    (by rw [List.length_drop]; omega)]
  rfl

theorem extendedSmallParse_eq {bits : List Bool} (h : s.Holds bits)
    (hlen : bits.length = 26) (hpos : s.position = 1) :
    extendedSmallParse s = extendedMessageOf bits := by
  obtain ⟨htype, hmoved⟩ := h.pullUint8 (n := 3) (by omega) (by omega)
  obtain ⟨htrunc, hmoved'⟩ := (h.move 4).pullUint8 (n := 2) (by omega)
    (by show 4 + 2 ≤ _; omega)
  obtain ⟨hinc, hmoved''⟩ := (h.move 6).pullUint8 (n := 8) (by omega)
    (by show 6 + 8 ≤ _; omega)
  have hcheck := (h.move 14).pullUint16Be (by show 14 + 12 ≤ _; omega)
  rw [hpos] at htype hmoved
  have hat4 : (bitstreamPullUint8 s 3).2 = bitstreamSetBitPosition s 4 :=
    hmoved
  have hat6 : (bitstreamPullUint8 (bitstreamSetBitPosition s 4) 2).2
      = bitstreamSetBitPosition s 6 := hmoved'
  have hat14 : (bitstreamPullUint8 (bitstreamSetBitPosition s 6) 8).2
      = bitstreamSetBitPosition s 14 := hmoved''
  unfold extendedSmallParse extendedMessageOf
  simp only [htype, hat4, htrunc, hat6, hinc, hat14, hcheck]
  rfl

end

/-! ## The parser as a function of bits -/

namespace Machine

/-- What becomes of passthrough bits. -/
def smallPassthroughTo (m : Machine) (env : Env) (bits : List Bool) :
    PassthroughError × Machine :=
  if bits.getD 0 false = false then (.dataUnrecognized, m)
  else
    (.none,
      match extendedMessageOf bits with
      | none => m.emit (.feedbackStart .messageInvalid)
      | some message => (m.extendedSmallApply env message).2)

/-- What becomes of a frame of these bits. -/
def smallParseOf (m : Machine) (env : Env) (bits : List Bool) :
    Option SmallMessage × Machine :=
  let clear := smallClearOf bits
  let message := smallMessageOf (smallCheckOf bits) clear m.pdIndex
  if message.typeCode = smallTypePassthrough then
    let r := m.smallPassthroughTo env (smallPassthroughOf clear)
    (if r.1 = .none then some message else none, r.2)
  else (some message, m)

end Machine

section

variable {m : Machine} {cfg : Config} {env : Env} {frame : Frame}

theorem smallInternalBitstreamPassthrough_eq (m : Machine) (env : Env)
    {s : Bitstream}
    {bits : List Bool} (h : s.Holds bits) (hlen : bits.length = 26)
    (hpos : s.position = 0) :
    m.smallInternalBitstreamPassthrough env s
      = m.smallPassthroughTo env bits := by
  have hlt : s.position < bits.length := by omega
  have hparse := extendedSmallParse_eq (h.move 1) hlen rfl
  have hfirst : bits[s.position] = bits.getD 0 false := by
    rw [List.getD_eq_getElem _ _ (by omega)]
    simp only [hpos]
  unfold Machine.smallInternalBitstreamPassthrough
    Machine.smallPassthroughTo Machine.extendedSmallParseAndApplyKeycode
  rw [h.pullBit hlt, hfirst, hpos]
  change extendedSmallParse { s with position := 0 + 1 } = _ at hparse
  simp only [hparse]
  cases extendedMessageOf bits <;> rfl

/-- Fourteen keys of the alphabet, and nothing else, are read. -/
theorem smallParse_of_mem (hlen : frame.keys.length = 14)
    (hkeys : ∀ key ∈ frame.keys, key ∈ cfg.alphabet) :
    m.smallParse cfg env frame
      = m.smallParseOf env (smallFrameBits cfg.alphabet frame.keys) := by
  obtain ⟨s, hs, hholds⟩ := smallDeobfuscate_of_mem env.stack hlen hkeys
  have hbits := length_smallFrameBits cfg.alphabet frame.keys
  rw [hlen] at hbits
  have hclear := length_smallClearOf hbits
  obtain ⟨hpass, hpos⟩ := smallPassthroughBits_holds env.stack
    hholds hclear
  have hpassthrough := smallInternalBitstreamPassthrough_eq m env
    hpass (length_smallPassthroughOf hclear) hpos
  unfold Machine.smallParse Machine.smallParseOf
  rw [hs]
  simp only [smallFields_eq hholds hclear]
  unfold smallPassthroughBits at hpassthrough
  rw [hpassthrough]

theorem smallParse_eq_none
    (h : frame.keys.length ≠ 14 ∨ ∃ key ∈ frame.keys, key ∉ cfg.alphabet) :
    m.smallParse cfg env frame = (none, m) := by
  unfold Machine.smallParse
  rw [smallDeobfuscate_eq_none h]

/-- What the buffers hold at the start does not matter. -/
theorem smallParse_stack (m : Machine) (cfg : Config) (env : Env)
    (stack : Stack) (frame : Frame) :
    m.smallParse cfg { env with stack := stack } frame
      = m.smallParse cfg env frame := by
  by_cases hread : frame.keys.length = 14 ∧
      ∀ key ∈ frame.keys, key ∈ cfg.alphabet
  · obtain ⟨hlen, hkeys⟩ := hread
    rw [smallParse_of_mem hlen hkeys, smallParse_of_mem hlen hkeys]
    rfl
  · have hbad : frame.keys.length ≠ 14 ∨
        ∃ key ∈ frame.keys, key ∉ cfg.alphabet := by
      by_contra hno
      push Not at hno
      exact hread hno
    rw [smallParse_eq_none hbad, smallParse_eq_none hbad]

end

/-! ## Codes -/

/-- The fields of a 28-bit message. -/
structure SmallCode where
  receivedMessageId : UInt8
  typeCode : UInt8
  body : UInt8
  check : UInt16
  id_lt : receivedMessageId.toNat < 64
  typeCode_lt : typeCode.toNat < 4
  check_lt : check.toNat < 4096

/-- Two bits a key. -/
def bitKeys (alphabet : List Key) : List Bool → List Key
  | b :: b' :: bits =>
      alphabet.getD (ofBits [b, b']) 0 :: bitKeys alphabet bits
  | _ => []

namespace SmallCode

variable (c : SmallCode)

/-- The sixteen bits in front of the check. -/
def clearBits : List Bool :=
  toBits 6 c.receivedMessageId.toNat ++ toBits 2 c.typeCode.toNat
    ++ toBits 8 c.body.toNat

/-- The bits that travel. -/
def bits : List Bool :=
  List.zipWith xor c.clearBits (smallMask c.check)
    ++ toBits 12 c.check.toNat

/-- The bits of a passthrough code that are not its type. -/
def passthroughBits : List Bool :=
  toBits 6 c.receivedMessageId.toNat ++ toBits 8 c.body.toNat
    ++ toBits 12 c.check.toNat

/-- The code as keys. -/
def keys (alphabet : List Key) : List Key := bitKeys alphabet c.bits

/-- The message the code stands for, with the id it is read as. -/
def message (id : UInt32) : SmallMessage := ⟨id, c.typeCode, c.body, c.check⟩

theorem length_clearBits : c.clearBits.length = 16 := by
  simp [clearBits]

theorem length_bits : c.bits.length = 28 := by
  simp [bits, length_clearBits, length_smallMask]

theorem smallCheckOf_bits : smallCheckOf c.bits = c.check := by
  have hmasked : (List.zipWith xor c.clearBits
      (smallMask c.check)).length = 16 := by
    simp [length_clearBits, length_smallMask]
  rw [smallCheckOf, bits, List.drop_left' hmasked,
    ofBits_toBits (by have := c.check_lt; omega), UInt16.ofNat_toNat]

/-- The mask is its own inverse. -/
theorem smallClearOf_bits :
    smallClearOf c.bits = c.clearBits ++ toBits 12 c.check.toNat := by
  have hmasked : (List.zipWith xor c.clearBits
      (smallMask c.check)).length = 16 := by
    simp [length_clearBits, length_smallMask]
  rw [smallClearOf, smallCheckOf_bits, bits, List.drop_left' hmasked,
    List.take_left' hmasked]
  congr 1
  refine List.ext_getElem ?_ fun i h1 h2 => ?_
  · simp [length_clearBits, length_smallMask]
  · simp

/-- The fields stand where the parser looks for them. -/
theorem smallMessageOf_bits (pd : UInt32) :
    smallMessageOf (smallCheckOf c.bits) (smallClearOf c.bits) pd
      = c.message (if c.typeCode = smallActivationAddCreditType
            ∨ c.typeCode = smallActivationSetCreditType then
          inferFullMessageId c.receivedMessageId pd
        else c.receivedMessageId.toUInt32) := by
  have hid : UInt8.ofNat (ofBits ((smallClearOf c.bits).take 6))
      = c.receivedMessageId := by
    rw [smallClearOf_bits, clearBits, List.append_assoc, List.append_assoc,
      List.take_left' (length_toBits _ _),
      ofBits_toBits (by have := c.id_lt; omega), UInt8.ofNat_toNat]
  have htype : UInt8.ofNat (ofBits (((smallClearOf c.bits).drop 6).take 2))
      = c.typeCode := by
    rw [smallClearOf_bits, clearBits, List.append_assoc, List.append_assoc,
      List.drop_left' (length_toBits _ _),
      List.take_left' (length_toBits _ _),
      ofBits_toBits (by have := c.typeCode_lt; omega), UInt8.ofNat_toNat]
  have hbody : UInt8.ofNat (ofBits (((smallClearOf c.bits).drop 8).take 8))
      = c.body := by
    rw [smallClearOf_bits, clearBits, List.append_assoc _ (toBits 8 _),
      List.drop_left' (by simp), List.take_left' (length_toBits _ _),
      ofBits_toBits (by have := c.body.toNat_lt; omega), UInt8.ofNat_toNat]
  unfold smallMessageOf message
  simp only [hid, htype, hbody, smallCheckOf_bits]

theorem smallPassthroughOf_bits :
    smallPassthroughOf (smallClearOf c.bits) = c.passthroughBits := by
  rw [smallPassthroughOf, smallClearOf_bits, clearBits, passthroughBits,
    List.append_assoc _ (toBits 8 _), List.append_assoc (toBits 6 _),
    List.take_left' (length_toBits _ _), ← List.append_assoc (toBits 6 _),
    List.drop_left' (by simp), List.append_assoc]

end SmallCode

section

variable {alphabet : List Key}

theorem ofBits_pair_lt (b b' : Bool) : ofBits [b, b'] < 4 := ofBits_lt [b, b']

theorem toBits_ofBits_pair (b b' : Bool) :
    toBits 2 (ofBits [b, b']) = [b, b'] := by
  cases b <;> cases b' <;> rfl

theorem getD_mem (hlen : alphabet.length = 4) {k : ℕ} (hk : k < 4) :
    alphabet.getD k 0 ∈ alphabet := by
  rw [List.getD_eq_getElem _ _ (by omega)]
  exact List.getElem_mem _

theorem bitKeys_mem (hlen : alphabet.length = 4) (bits : List Bool) :
    ∀ key ∈ bitKeys alphabet bits, key ∈ alphabet := by
  induction bits using bitKeys.induct with
  | case1 b b' bits ih =>
      intro key hkey
      rcases List.mem_cons.mp hkey with rfl | hkey
      · exact getD_mem hlen (ofBits_pair_lt b b')
      · exact ih key hkey
  | case2 bits hno =>
      rw [bitKeys.eq_def]
      split
      · next b b' bits => exact absurd rfl (hno b b' bits)
      · simp

theorem length_bitKeys (alphabet : List Key) {n : ℕ} {bits : List Bool}
    (h : bits.length = 2 * n) : (bitKeys alphabet bits).length = n := by
  induction n generalizing bits with
  | zero =>
      rw [List.length_eq_zero_iff.mp h]
      rfl
  | succ n ih =>
      match bits, h with
      | b :: b' :: bits, h =>
          rw [bitKeys, List.length_cons, ih (by
            simp only [List.length_cons] at h; omega)]

/-- Every key is read back as the two bits it was chosen by. -/
theorem smallFrameBits_bitKeys (hlen : alphabet.length = 4)
    (hnodup : alphabet.Nodup) {n : ℕ} {bits : List Bool}
    (h : bits.length = 2 * n) :
    smallFrameBits alphabet (bitKeys alphabet bits) = bits := by
  induction n generalizing bits with
  | zero =>
      rw [List.length_eq_zero_iff.mp h]
      rfl
  | succ n ih =>
      match bits, h with
      | b :: b' :: bits, h =>
          have hlt := ofBits_pair_lt b b'
          have hrest := @ih bits (by
            simp only [List.length_cons] at h; omega)
          rw [smallFrameBits] at hrest
          rw [bitKeys, smallFrameBits, List.flatMap_cons, hrest,
            List.getD_eq_getElem _ _ (by omega), hnodup.idxOf_getElem,
            toBits_ofBits_pair]
          rfl

end

namespace SmallCode

theorem length_keys (alphabet : List Key) (c : SmallCode) :
    (c.keys alphabet).length = 14 := length_bitKeys alphabet (n := 14) c.length_bits

theorem length_keys_le (alphabet : List Key) (c : SmallCode) :
    (c.keys alphabet).length ≤ 30 := by
  rw [length_keys]
  omega

/-- The frame that carries a code. -/
def frame (alphabet : List Key) (c : SmallCode) : Frame :=
  ⟨c.keys alphabet, c.length_keys_le alphabet⟩

end SmallCode

section

variable {m : Machine} {cfg : Config}

theorem smallParse_frame (halphabet : cfg.alphabet.length = 4)
    (hnodup : cfg.alphabet.Nodup) (env : Env) (c : SmallCode) :
    m.smallParse cfg env (c.frame cfg.alphabet)
      = m.smallParseOf env c.bits := by
  have hbits : smallFrameBits cfg.alphabet (c.frame cfg.alphabet).keys
      = c.bits := smallFrameBits_bitKeys halphabet hnodup (n := 14) c.length_bits
  rw [smallParse_of_mem (c.length_keys cfg.alphabet)
    (bitKeys_mem halphabet c.bits), hbits]

/-- A message that is not a passthrough message. -/
theorem smallParse_frame_message (halphabet : cfg.alphabet.length = 4)
    (hnodup : cfg.alphabet.Nodup) (env : Env) {c : SmallCode}
    (htype : c.typeCode ≠ smallTypePassthrough) :
    m.smallParse cfg env (c.frame cfg.alphabet)
      = (some (c.message (if c.typeCode = smallActivationAddCreditType
            ∨ c.typeCode = smallActivationSetCreditType then
          inferFullMessageId c.receivedMessageId m.pdIndex
        else c.receivedMessageId.toUInt32)), m) := by
  rw [smallParse_frame halphabet hnodup, Machine.smallParseOf]
  simp only [c.smallMessageOf_bits]
  exact if_neg htype

/-- A passthrough message: the stream handed on holds the other 26 bits. -/
theorem smallParse_frame_passthrough (halphabet : cfg.alphabet.length = 4)
    (hnodup : cfg.alphabet.Nodup) (env : Env) {c : SmallCode}
    (htype : c.typeCode = smallTypePassthrough) :
    ∃ stream : Bitstream, stream.Holds c.passthroughBits ∧
      stream.position = 0 ∧
      m.smallParse cfg env (c.frame cfg.alphabet)
        = (if (m.smallInternalBitstreamPassthrough env stream).1 = .none
            then some (c.message c.receivedMessageId.toUInt32) else none,
          (m.smallInternalBitstreamPassthrough env stream).2) := by
  have hlen : (smallClearOf c.bits).length = 28 :=
    length_smallClearOf c.length_bits
  have hkeys : ∀ key ∈ (c.frame cfg.alphabet).keys, key ∈ cfg.alphabet :=
    bitKeys_mem halphabet c.bits
  obtain ⟨s, -, hholds⟩ := smallDeobfuscate_of_mem env.stack
    (c.length_keys cfg.alphabet) hkeys
  have hbits : smallFrameBits cfg.alphabet (c.frame cfg.alphabet).keys
      = c.bits := smallFrameBits_bitKeys halphabet hnodup (n := 14) c.length_bits
  rw [hbits] at hholds
  obtain ⟨hpass, hpos⟩ := smallPassthroughBits_holds env.stack
    hholds hlen
  rw [c.smallPassthroughOf_bits] at hpass
  refine ⟨_, hpass, hpos, ?_⟩
  have hlen' : c.passthroughBits.length = 26 := by
    rw [← c.smallPassthroughOf_bits, length_smallPassthroughOf hlen]
  rw [smallInternalBitstreamPassthrough_eq _ _ hpass hlen' hpos,
    smallParse_frame halphabet hnodup, Machine.smallParseOf]
  have hid : ¬ (c.typeCode = smallActivationAddCreditType ∨
      c.typeCode = smallActivationSetCreditType) := by
    rw [htype]; decide
  simp only [c.smallMessageOf_bits, c.smallPassthroughOf_bits, if_neg hid]
  exact if_pos htype

/-- An extended message among passthrough bits. -/
theorem extendedSmallParse_passthrough {stream : Bitstream}
    {truncated increment : UInt8} {check : UInt16}
    (htruncated : truncated.toNat < 4) (hcheck : check.toNat < 4096)
    (h : stream.Holds (true :: (toBits 3 0 ++ toBits 2 truncated.toNat
      ++ toBits 8 increment.toNat ++ toBits 12 check.toNat)))
    (hpos : stream.position = 0) :
    extendedSmallParse (bitstreamPullBit stream).2
      = some ⟨0, extendedSmallTypeSetCreditAndWipeFlag, truncated, increment,
        check⟩ := by
  have hat1 : (bitstreamPullBit stream).2
      = bitstreamSetBitPosition stream 1 := by
    rw [bitstreamPullBit, hpos]
    rfl
  rw [hat1, extendedSmallParse_eq (h.move 1) (by simp) rfl,
    extendedMessageOf]
  simp only [List.append_assoc, List.drop_succ_cons, List.drop_zero]
  rw [List.take_left' (length_toBits 3 0),
    List.drop_left' (length_toBits 3 0),
    List.take_left' (length_toBits 2 _), ← List.append_assoc (toBits 3 0),
    List.drop_left' (by simp), List.take_left' (length_toBits 8 _),
    ← List.append_assoc _ (toBits 8 _), List.drop_left' (by simp),
    List.take_of_length_le (by simp), ofBits_toBits (by omega),
    ofBits_toBits (by omega), ofBits_toBits
      (by have := increment.toNat_lt; omega), ofBits_toBits (by omega)]
  simp only [UInt8.ofNat_toNat, UInt16.ofNat_toNat]
  rfl

/-- Every code is decoded to its fields, whatever the buffers hold, and nothing
but fourteen keys of the alphabet is. -/
theorem smallCode_round_trip (halphabet : cfg.alphabet.length = 4)
    (hnodup : cfg.alphabet.Nodup) (m : Machine)
    (hpd : 23 ≤ m.pdIndex.toNat)
    (hpd' : m.pdIndex.toNat ≤ 4294967295 - 40) (env : Env) :
    (∀ c : SmallCode,
      (c.keys cfg.alphabet).length = 14 ∧
      (c.typeCode = smallActivationAddCreditType ∨
          c.typeCode = smallActivationSetCreditType →
        ∀ id : UInt32, m.pdIndex.toNat ≤ id.toNat + 23 →
          id.toNat ≤ m.pdIndex.toNat + 40 →
          id.toNat % 64 = c.receivedMessageId.toNat →
          m.smallParse cfg env (c.frame cfg.alphabet)
            = (some (c.message id), m)) ∧
      (c.typeCode = smallMaintenanceOrTestType →
        m.smallParse cfg env (c.frame cfg.alphabet)
          = (some (c.message c.receivedMessageId.toUInt32), m)) ∧
      (c.typeCode = smallTypePassthrough →
        ∃ stream : Bitstream, stream.Holds c.passthroughBits ∧
          stream.position = 0 ∧
          m.smallParse cfg env (c.frame cfg.alphabet)
            = (if (m.smallInternalBitstreamPassthrough env stream).1 = .none
                then some (c.message c.receivedMessageId.toUInt32) else none,
              (m.smallInternalBitstreamPassthrough env stream).2) ∧
          ∀ (truncated increment : UInt8) (check : UInt16),
            truncated.toNat < 4 → check.toNat < 4096 →
            c.passthroughBits
              = true :: (toBits 3 0 ++ toBits 2 truncated.toNat
                ++ toBits 8 increment.toNat ++ toBits 12 check.toNat) →
            extendedSmallParse (bitstreamPullBit stream).2
              = some ⟨0, extendedSmallTypeSetCreditAndWipeFlag, truncated,
                increment, check⟩)) ∧
    (∀ frame : Frame, frame.keys.length ≠ 14 ∨
        (∃ key ∈ frame.keys, key ∉ cfg.alphabet) →
      m.smallParse cfg env frame = (none, m)) ∧
    ∀ (frame : Frame) (stack : Stack),
      m.smallParse cfg { env with stack := stack } frame
        = m.smallParse cfg env frame := by
  refine ⟨fun c => ⟨c.length_keys cfg.alphabet, ?_, ?_, ?_⟩,
    fun frame => smallParse_eq_none,
    fun frame stack => smallParse_stack m cfg env stack frame⟩
  · intro htype id hlo hhi hid
    have hne : c.typeCode ≠ smallTypePassthrough := by
      rcases htype with h | h <;> rw [h] <;> decide
    rw [smallParse_frame_message halphabet hnodup env hne, if_pos htype,
      inferFullMessageId_eq hpd (by omega) hlo hhi hid]
  · intro htype
    rw [smallParse_frame_message halphabet hnodup env (by rw [htype]; decide),
      if_neg (by rw [htype]; decide)]
  · intro htype
    obtain ⟨stream, hholds, hpos, hparse⟩ := smallParse_frame_passthrough
      (m := m) halphabet hnodup env htype
    refine ⟨stream, hholds, hpos, hparse, ?_⟩
    intro truncated increment check htruncated hcheck hbits
    rw [hbits] at hholds
    exact extendedSmallParse_passthrough htruncated hcheck hholds hpos

end

/-- ADD_CREDIT with id 24, at the factory window. -/
def addCreditCode : SmallCode :=
  ⟨24, smallActivationAddCreditType, 7, 1234, by decide, by decide,
    by decide⟩

/-- SET_CREDIT_AND_WIPE_FLAG with an id that ends in 10. -/
def extendedCode : SmallCode :=
  ⟨34, smallTypePassthrough, 9, 1234, by decide, by decide, by decide⟩

theorem smallCode_round_trip_codes :
    (Machine.ofStored .factory).smallParse (.default .small)
        (testEnv .enabled) (addCreditCode.frame [50, 51, 52, 53])
      = (some ⟨24, smallActivationAddCreditType, 7, 1234⟩,
        .ofStored .factory) ∧
    ∃ stream : Bitstream, stream.Holds extendedCode.passthroughBits ∧
      extendedSmallParse (bitstreamPullBit stream).2
        = some ⟨0, extendedSmallTypeSetCreditAndWipeFlag, 2, 9, 1234⟩ := by
  obtain ⟨hcodes, -⟩ := @smallCode_round_trip (.default .small)
    (by decide) (by decide) (.ofStored .factory) (by decide) (by decide)
    (testEnv .enabled)
  refine ⟨(hcodes addCreditCode).2.1 (Or.inl rfl) 24 (by decide) (by decide)
    (by decide), ?_⟩
  obtain ⟨stream, hholds, -, -, hextended⟩ :=
    (hcodes extendedCode).2.2.2 rfl
  exact ⟨stream, hholds, hextended 2 9 1234 (by decide) (by decide)
    (by decide)⟩

end Nexus.Keycode
