import Nexus.Proofs.Cose
import Nexus.Proofs.SmallCode
import Nexus.Util.Endian

/-!
# What the byte order of the host changes

Two wire formats go through a byte order routine on their way. A small-protocol
check is swapped before its memory seeds the mask, which puts the high byte
first on a little-endian host and last on the other kind, and swapped back only
where the memory is read in the order it was not written in. The nonce of a
protected header is laid out lowest byte first and then handed, as a value, to
an encoder that knows nothing of memory. The little-endian case of both is the
model used everywhere else; here it is compared with the other one.
-/

namespace Nexus.Util.ByteOrder

/-! ## Two bytes -/

/-- A swap changes nothing in a value of two equal bytes, and only there. -/
theorem endianHtobe16_eq_self_iff (v : UInt16) :
    Keycode.endianHtobe16 v = v ↔ v.toNat / 256 = v.toNat % 256 := by
  have hv := v.toNat_lt
  rw [← UInt16.toNat_inj, Keycode.toNat_endianHtobe16]
  constructor
  · intro h
    omega
  · intro h
    omega

theorem endianBe16toh_little (v : UInt16) :
    little.endianBe16toh v = Keycode.endianBe16toh v := rfl

/-- A big-endian host reads back what it holds. -/
theorem endianBe16toh_big (v : UInt16) : big.endianBe16toh v = v := by
  have hv := v.toNat_lt
  rw [← UInt16.toNat_inj]
  show (((v >>> 8).toUInt8.toUInt16 <<< 8) ||| v.toUInt8.toUInt16).toNat = _
  rw [UInt16.toNat_or, UInt16.toNat_shiftLeft, UInt8.toNat_toUInt16,
    UInt8.toNat_toUInt16, UInt16.toNat_toUInt8, UInt16.toNat_toUInt8,
    UInt16.toNat_shiftRight]
  show (v.toNat >>> 8 % 2 ^ 8) <<< 8 % 2 ^ 16 ||| v.toNat % 2 ^ 8 = _
  rw [Nat.shiftRight_eq_div_pow, Nat.shiftLeft_eq,
    Nat.mod_eq_of_lt (by omega), ← Nat.shiftLeft_eq,
    ← Nat.shiftLeft_add_eq_or_of_lt (by omega), Nat.shiftLeft_eq]
  omega

/-- The memory of a value of two equal bytes is the same on every host. -/
theorem memory16_of_equal_bytes {v : UInt16}
    (h : v.toNat / 256 = v.toNat % 256) (order : ByteOrder) :
    order.memory16 v = [v.toUInt8, v.toUInt8] := by
  have hv := v.toNat_lt
  have hhigh : (v >>> 8).toUInt8 = v.toUInt8 := by
    rw [← UInt8.toNat_inj, UInt16.toNat_toUInt8, UInt16.toNat_toUInt8,
      UInt16.toNat_shiftRight]
    show v.toNat >>> 8 % 2 ^ 8 = _
    rw [Nat.shiftRight_eq_div_pow]
    omega
  cases order with
  | little => rw [memory16, le16, hhigh]
  | big => rw [memory16, le16, hhigh]; rfl

/-! ## Four bytes -/

theorem masked_byte (n k : ℕ) :
    ((n &&& 255 <<< k) >>> k) % 2 ^ 8 = (n >>> k) % 2 ^ 8 := by
  rw [Nat.shiftRight_and_distrib, Nat.shiftLeft_shiftRight,
    Nat.and_two_pow_sub_one_eq_mod (n >>> k) 8, Nat.mod_mod]

/-- The masks of the routine leave every byte as it is. -/
theorem endianHtole32_eq (order : ByteOrder) (v : UInt32) :
    order.endianHtole32 v = order.ofMemory32 v.toUInt8 (v >>> 8).toUInt8
      (v >>> 16).toUInt8 (v >>> 24).toUInt8 := by
  have hbyte0 : (v &&& 0xFF).toUInt8 = v.toUInt8 := by
    rw [← UInt8.toNat_inj, UInt32.toNat_toUInt8, UInt32.toNat_toUInt8,
      UInt32.toNat_and]
    exact masked_byte v.toNat 0
  have hbyte1 : ((v &&& 0x0000FF00) >>> 8).toUInt8 = (v >>> 8).toUInt8 := by
    rw [← UInt8.toNat_inj, UInt32.toNat_toUInt8, UInt32.toNat_toUInt8,
      UInt32.toNat_shiftRight, UInt32.toNat_shiftRight, UInt32.toNat_and]
    exact masked_byte v.toNat 8
  have hbyte2 : ((v &&& 0x00FF0000) >>> 16).toUInt8
      = (v >>> 16).toUInt8 := by
    rw [← UInt8.toNat_inj, UInt32.toNat_toUInt8, UInt32.toNat_toUInt8,
      UInt32.toNat_shiftRight, UInt32.toNat_shiftRight, UInt32.toNat_and]
    exact masked_byte v.toNat 16
  rw [endianHtole32, hbyte0, hbyte1, hbyte2]

theorem endianHtole32_little (v : UInt32) : little.endianHtole32 v = v := by
  rw [endianHtole32_eq]
  exact ofLe32_le32 v

/-- The memory of the value reads the same from either end. -/
def Mirrored (v : UInt32) : Prop := le32 v = (le32 v).reverse

instance (v : UInt32) : Decidable (Mirrored v) :=
  inferInstanceAs (Decidable (_ = _))

theorem toNat_endianHtole32_big (v : UInt32) :
    (big.endianHtole32 v).toNat
      = (v >>> 24).toUInt8.toNat + 256 * (v >>> 16).toUInt8.toNat
        + 65536 * (v >>> 8).toUInt8.toNat + 16777216 * v.toUInt8.toNat := by
  have h0 := v.toUInt8.toNat_lt
  have h1 := (v >>> 8).toUInt8.toNat_lt
  have h2 := (v >>> 16).toUInt8.toNat_lt
  have h3 := (v >>> 24).toUInt8.toNat_lt
  rw [endianHtole32_eq, ofMemory32, ofLe32, UInt32.toNat_ofNat']
  omega

/-- On a big-endian host the bytes change places. -/
theorem endianHtole32_big_iff (v : UInt32) :
    big.endianHtole32 v = v ↔ Mirrored v := by
  have hbig := toNat_endianHtole32_big v
  have hlittle := congrArg UInt32.toNat (ofLe32_le32 v)
  have h0 := v.toUInt8.toNat_lt
  have h1 := (v >>> 8).toUInt8.toNat_lt
  have h2 := (v >>> 16).toUInt8.toNat_lt
  have h3 := (v >>> 24).toUInt8.toNat_lt
  rw [ofLe32, UInt32.toNat_ofNat'] at hlittle
  rw [← UInt32.toNat_inj, hbig, Mirrored, le32]
  simp only [List.reverse_cons, List.reverse_nil, List.nil_append,
    List.cons_append, List.cons.injEq, and_true, ← UInt8.toNat_inj]
  omega

end Nexus.Util.ByteOrder

namespace Nexus.Keycode

open Nexus.Util Nexus.Lib

/-! ## Small-protocol frames -/

/-- `smallPrngBytes` on a host: the seed is the memory of the swapped check. -/
def smallPrngBytesOn (order : ByteOrder) (check : UInt16) : List UInt8 :=
  checkComputePseudorandomBytes integrityCheckFixed00Key
    (order.memory16 (endianHtobe16 check)) 4

/-- `smallDeobfuscate` on a host. -/
def smallDeobfuscateOn (order : ByteOrder) (alphabet : List Key)
    (stack : Stack) (frame : Frame) : Option (UInt16 × Bitstream) :=
  if frame.keys.length ≠ 14 then none
  else
    match smallPushKeys alphabet 0 frame.keys
        (bitstreamInit stack.messageBytes.toList 32 0) with
    | none => none
    | some messageBitstream =>
        let check := (bitstreamPullUint16Be
          (bitstreamSetBitPosition messageBitstream 16) 12).1
        let prngBitstream := bitstreamInit (smallPrngBytesOn order check) 32 32
        some (order.endianBe16toh (endianHtobe16 check),
          smallReversiblyObfuscate messageBitstream
            (bitstreamInit stack.deobfuscatedBytes.toList 32 0)
            prngBitstream 16)

/-- `nexus_keycode_pro_small_parse` on a host, as the message it fills in and
what it returns; `none` when it returns before it has filled in anything. Only
the first bit of a passthrough frame decides whether it is taken. -/
def smallParseOn (order : ByteOrder) (alphabet : List Key) (stack : Stack)
    (pdIndex : UInt32) (frame : Frame) : Option (SmallMessage × Bool) :=
  match smallDeobfuscateOn order alphabet stack frame with
  | none => none
  | some (check, deobfuscated) =>
      let message := smallFields check deobfuscated pdIndex
      some (message,
        if message.typeCode = smallTypePassthrough then
          (bitstreamPullBit (smallPassthroughBits stack deobfuscated)).1
        else true)

/-- On a little-endian host this is the parser. -/
theorem smallParseOn_little (m : Machine) (cfg : Config) (env : Env)
    (frame : Frame) :
    (m.smallParse cfg env frame).1
      = (smallParseOn .little cfg.alphabet env.stack m.pdIndex frame).bind
        fun r => if r.2 then some r.1 else none := by
  have hlittle : smallDeobfuscateOn .little cfg.alphabet env.stack frame
      = smallDeobfuscate cfg.alphabet env.stack frame := rfl
  rw [smallParseOn, hlittle, Machine.smallParse]
  cases smallDeobfuscate cfg.alphabet env.stack frame with
  | none => rfl
  | some r =>
      obtain ⟨check, deobfuscated⟩ := r
      dsimp only [Option.bind_some]
      generalize smallFields check deobfuscated m.pdIndex = message
      by_cases hpass : message.typeCode = smallTypePassthrough
      · rw [if_pos hpass, if_pos hpass, smallPassthroughBits]
        generalize bitstreamSetBitPosition
          (smallInternalExtractPassthroughMessage _ deobfuscated) 0 = bits
        rw [Machine.smallInternalBitstreamPassthrough]
        cases (bitstreamPullBit bits).1 <;> rfl
      · rw [if_neg hpass, if_neg hpass, if_pos rfl]

/-- Fourteen keys of the alphabet. -/
def SmallReadable (alphabet : List Key) (frame : Frame) : Prop :=
  frame.keys.length = 14 ∧ ∀ key ∈ frame.keys, key ∈ alphabet

/-- The last six keys, which carry the check, are two keys, the first symbol
of the alphabet twice, and the same two keys. -/
def RepeatedCheck (alphabet : List Key) (frame : Frame) : Prop :=
  ∃ a b zero, alphabet.head? = some zero ∧
    frame.keys.drop 8 = [a, b, zero, zero, a, b]

section

variable {alphabet : List Key} {frame : Frame} {order : ByteOrder}
  {stack : Stack}

theorem idxOf_lt_four (halphabet : alphabet.length = 4) {key : Key}
    (hkey : key ∈ alphabet) : alphabet.idxOf key < 4 := by
  rw [← halphabet]
  exact List.idxOf_lt_length_of_mem hkey

/-- Keys are digits of base four. -/
theorem ofBits_smallFrameBits (halphabet : alphabet.length = 4)
    {keys : List Key} (hkeys : ∀ key ∈ keys, key ∈ alphabet) :
    ofBits (smallFrameBits alphabet keys)
      = ofDigits 4 (keys.map alphabet.idxOf) := by
  induction keys with
  | nil => rfl
  | cons key keys ih =>
      have hkey := idxOf_lt_four halphabet (hkeys key List.mem_cons_self)
      have hrest := ih fun k hk => hkeys k (List.mem_cons_of_mem key hk)
      rw [smallFrameBits] at hrest
      rw [smallFrameBits, List.flatMap_cons, ofBits_append, hrest,
        ofBits_toBits (show _ < 2 ^ 2 from hkey), List.map_cons,
        ofDigits_cons, List.length_map, ← smallFrameBits,
        length_smallFrameBits, pow_mul]
      rfl

theorem drop_smallFrameBits (hlen : frame.keys.length = 14) :
    (smallFrameBits alphabet frame.keys).drop 16
      = smallFrameBits alphabet (frame.keys.drop 8) := by
  have hsplit : smallFrameBits alphabet frame.keys
      = smallFrameBits alphabet (frame.keys.take 8)
        ++ smallFrameBits alphabet (frame.keys.drop 8) := by
    rw [smallFrameBits, smallFrameBits, smallFrameBits,
      ← List.flatMap_append, List.take_append_drop]
  have hfirst : (smallFrameBits alphabet (frame.keys.take 8)).length
      = 16 := by
    rw [length_smallFrameBits, List.length_take, hlen]
    rfl
  rw [hsplit, List.drop_left' hfirst]

theorem toNat_smallCheckOf (halphabet : alphabet.length = 4)
    (hread : SmallReadable alphabet frame) :
    (smallCheckOf (smallFrameBits alphabet frame.keys)).toNat
      = ofDigits 4 ((frame.keys.drop 8).map alphabet.idxOf) := by
  have hmem : ∀ key ∈ frame.keys.drop 8, key ∈ alphabet := by
    intro key hkey
    exact hread.2 key (List.mem_of_mem_drop hkey)
  have hlen : (smallFrameBits alphabet (frame.keys.drop 8)).length = 12 := by
    rw [length_smallFrameBits, List.length_drop, hread.1]
  have hlt := ofBits_lt (smallFrameBits alphabet (frame.keys.drop 8))
  rw [hlen, ofBits_smallFrameBits halphabet hmem] at hlt
  rw [smallCheckOf, drop_smallFrameBits hread.1,
    ofBits_smallFrameBits halphabet hmem, UInt16.toNat_ofNat']
  exact Nat.mod_eq_of_lt (by omega)

/-- Six digits of base four whose first two are the number of the last
four. -/
theorem equal_halves_iff {a b c d e f : ℕ} (ha : a < 4) (hb : b < 4)
    (hd : d < 4) (he : e < 4) (hf : f < 4) (hc : c < 4) :
    ofDigits 4 [a, b, c, d, e, f] / 256 = ofDigits 4 [a, b, c, d, e, f] % 256
      ↔ c = 0 ∧ d = 0 ∧ e = a ∧ f = b := by
  have hvalue : ofDigits 4 [a, b, c, d, e, f]
      = 256 * (4 * a + b) + (64 * c + 16 * d + 4 * e + f) := by
    simp only [ofDigits, List.foldl_cons, List.foldl_nil]
    ring
  have hhigh : ofDigits 4 [a, b, c, d, e, f] / 256 = 4 * a + b := by omega
  have hlow : ofDigits 4 [a, b, c, d, e, f] % 256
      = 64 * c + 16 * d + 4 * e + f := by omega
  rw [hhigh, hlow]
  constructor
  · intro h
    have hc0 : c = 0 := by omega
    have hd0 : d = 0 := by omega
    omega
  · intro h
    omega

/-- The two bytes of the check are equal in repeated checks, and only
there. -/
theorem equal_bytes_iff (halphabet : alphabet.length = 4)
    (hread : SmallReadable alphabet frame) :
    (smallCheckOf (smallFrameBits alphabet frame.keys)).toNat / 256
        = (smallCheckOf (smallFrameBits alphabet frame.keys)).toNat % 256
      ↔ RepeatedCheck alphabet frame := by
  obtain ⟨zero, hzero⟩ : ∃ zero, alphabet.head? = some zero := by
    cases alphabet with
    | nil => cases halphabet
    | cons zero alphabet => exact ⟨zero, rfl⟩
  obtain ⟨a, b, c, d, e, f, hkeys⟩ : ∃ a b c d e f,
      frame.keys.drop 8 = [a, b, c, d, e, f] := by
    have hlen : (frame.keys.drop 8).length = 6 := by
      rw [List.length_drop, hread.1]
    match hdrop : frame.keys.drop 8 with
    | [a, b, c, d, e, f] => exact ⟨a, b, c, d, e, f, rfl⟩
    | [] | [_] | [_, _] | [_, _, _] | [_, _, _, _] | [_, _, _, _, _]
    | _ :: _ :: _ :: _ :: _ :: _ :: _ :: _ =>
        rw [hdrop] at hlen
        simp at hlen
  have hmem (key : Key) (hkey : key ∈ frame.keys.drop 8) :
      key ∈ alphabet := hread.2 key (List.mem_of_mem_drop hkey)
  rw [hkeys] at hmem
  simp only [List.mem_cons, List.not_mem_nil, or_false, forall_eq_or_imp,
    forall_eq] at hmem
  obtain ⟨ha, hb, hc, hd, he, hf⟩ := hmem
  have hlta := idxOf_lt_four halphabet ha
  have hltb := idxOf_lt_four halphabet hb
  have hltc := idxOf_lt_four halphabet hc
  have hltd := idxOf_lt_four halphabet hd
  have hlte := idxOf_lt_four halphabet he
  have hltf := idxOf_lt_four halphabet hf
  have hdigits : RepeatedCheck alphabet frame ↔
      alphabet.idxOf c = 0 ∧ alphabet.idxOf d = 0 ∧
        alphabet.idxOf e = alphabet.idxOf a ∧
        alphabet.idxOf f = alphabet.idxOf b := by
    rw [RepeatedCheck, hkeys, List.idxOf_eq_zero_iff_eq_nil_or_head_eq,
      List.idxOf_eq_zero_iff_eq_nil_or_head_eq, List.idxOf_inj he,
      List.idxOf_inj hf, hzero]
    have hne : alphabet ≠ [] := List.ne_nil_of_mem ha
    simp [hne, eq_comm]
  rw [hdigits, toNat_smallCheckOf halphabet hread, hkeys]
  exact equal_halves_iff hlta hltb hltd hlte hltf hltc

/-- The first half of the parser on either host. -/
theorem smallDeobfuscateOn_of_mem (stack : Stack)
    (hread : SmallReadable alphabet frame) :
    ∃ pushed, ∀ order, smallDeobfuscateOn order alphabet stack frame
      = some (order.endianBe16toh (endianHtobe16
          (smallCheckOf (smallFrameBits alphabet frame.keys))),
        smallReversiblyObfuscate pushed
          (bitstreamInit stack.deobfuscatedBytes.toList 32 0)
          (bitstreamInit (smallPrngBytesOn order
            (smallCheckOf (smallFrameBits alphabet frame.keys))) 32 32)
          16) := by
  obtain ⟨s, hs, -⟩ := smallDeobfuscate_of_mem stack hread.1 hread.2
  rw [smallDeobfuscate, if_neg (not_not.mpr hread.1)] at hs
  cases hpushed : smallPushKeys alphabet 0 frame.keys
      (bitstreamInit stack.messageBytes.toList 32 0) with
  | none =>
      rw [hpushed] at hs
      cases hs
  | some pushed =>
      rw [hpushed] at hs
      injection hs with hs
      injection hs with hcheck
      rw [endianBe16toh_endianHtobe16] at hcheck
      refine ⟨pushed, ?_⟩
      intro order
      rw [smallDeobfuscateOn, if_neg (not_not.mpr hread.1), hpushed]
      dsimp only
      rw [hcheck]

theorem smallDeobfuscateOn_eq_none
    (hread : ¬ SmallReadable alphabet frame) :
    smallDeobfuscateOn order alphabet stack frame = none := by
  have hnone : smallDeobfuscate alphabet stack frame = none := by
    refine smallDeobfuscate_eq_none ?_
    by_contra hno
    push Not at hno
    exact hread hno
  rw [smallDeobfuscateOn]
  rw [smallDeobfuscate] at hnone
  by_cases hlen : frame.keys.length ≠ 14
  · rw [if_pos hlen]
  · rw [if_neg hlen] at hnone ⊢
    cases hpushed : smallPushKeys alphabet 0 frame.keys
        (bitstreamInit stack.messageBytes.toList 32 0) with
    | none => rfl
    | some pushed =>
        rw [hpushed] at hnone
        cases hnone

/-- Both kinds of host read a frame alike when its check is repeated, and
otherwise already the check comes out swapped. -/
theorem smallParseOn_agree_iff (halphabet : alphabet.length = 4)
    (stack : Stack) (pdIndex : UInt32) (frame : Frame) :
    smallParseOn .little alphabet stack pdIndex frame
        = smallParseOn .big alphabet stack pdIndex frame
      ↔ (SmallReadable alphabet frame → RepeatedCheck alphabet frame) := by
  by_cases hread : SmallReadable alphabet frame
  · obtain ⟨pushed, hpushed⟩ := smallDeobfuscateOn_of_mem stack hread
    rw [← equal_bytes_iff halphabet hread]
    generalize smallCheckOf (smallFrameBits alphabet frame.keys) = check
      at hpushed ⊢
    rw [smallParseOn, smallParseOn, hpushed, hpushed]
    constructor
    · intro h _
      injection h with h
      injection h with h _
      have hcheck : ByteOrder.little.endianBe16toh (endianHtobe16 check)
          = ByteOrder.big.endianBe16toh (endianHtobe16 check) :=
        congrArg SmallMessage.check h
      rw [ByteOrder.endianBe16toh_little, ByteOrder.endianBe16toh_big,
        endianBe16toh_endianHtobe16] at hcheck
      exact (ByteOrder.endianHtobe16_eq_self_iff check).mp hcheck.symm
    · intro h
      have hbytes := h hread
      have hself := (ByteOrder.endianHtobe16_eq_self_iff check).mpr hbytes
      have hprng : smallPrngBytesOn .little check
          = smallPrngBytesOn .big check := by
        rw [smallPrngBytesOn, smallPrngBytesOn, hself,
          ByteOrder.memory16_of_equal_bytes hbytes,
          ByteOrder.memory16_of_equal_bytes hbytes]
      have hcheck : ByteOrder.little.endianBe16toh (endianHtobe16 check)
          = ByteOrder.big.endianBe16toh (endianHtobe16 check) := by
        rw [ByteOrder.endianBe16toh_little, ByteOrder.endianBe16toh_big,
          endianBe16toh_endianHtobe16, hself]
      rw [hprng, hcheck]
  · rw [smallParseOn, smallParseOn, smallDeobfuscateOn_eq_none hread,
      smallDeobfuscateOn_eq_none hread]
    exact iff_of_true rfl fun h => absurd h hread

end

end Nexus.Keycode

namespace Nexus.Channel

open Nexus.Util

/-! ## Protected headers -/

/-- `nexus_cose_mac0_encode_protected_header_map` on a host. -/
def encodeProtectedHeaderMapOn (order : ByteOrder) (nonce : UInt32) :
    List UInt8 :=
  Cbor.encodeMap [(Cbor.encodeUint 5,
    Cbor.encodeUint (order.endianHtole32 nonce).toUInt64)]

/-- The map `{5: nonce}`. -/
def nonceMap (nonce : UInt32) : List UInt8 :=
  Cbor.encodeMap [(Cbor.encodeUint 5, Cbor.encodeUint nonce.toUInt64)]

/-- On a little-endian host this is the header of the model, and the map it is
meant to be. -/
theorem encodeProtectedHeaderMapOn_little (nonce : UInt32) :
    encodeProtectedHeaderMapOn .little nonce
      = encodeProtectedHeaderMap nonce := by
  rw [encodeProtectedHeaderMapOn, ByteOrder.endianHtole32_little]
  rfl

theorem encodeProtectedHeaderMapOn_big (nonce : UInt32) :
    encodeProtectedHeaderMapOn .big nonce
      = encodeProtectedHeaderMap (ByteOrder.big.endianHtole32 nonce) := rfl

/-- Both kinds of host write the map of the nonce, and the verifier reads the
nonce back, when the bytes of the nonce are mirrored. -/
theorem encodeProtectedHeaderMapOn_agree_iff (nonce : UInt32) :
    (∀ order, encodeProtectedHeaderMapOn order nonce = nonceMap nonce ∧
        deserializeProtectedHeader (encodeProtectedHeaderMapOn order nonce)
          = .ok nonce)
      ↔ ByteOrder.Mirrored nonce := by
  rw [← ByteOrder.endianHtole32_big_iff]
  constructor
  · intro h
    obtain ⟨hbytes, -⟩ := h .big
    rw [encodeProtectedHeaderMapOn_big] at hbytes
    exact encodeProtectedHeaderMap_inj hbytes
  · intro h order
    cases order with
    | little =>
        rw [encodeProtectedHeaderMapOn_little]
        exact ⟨rfl, deserializeProtectedHeader_encode nonce⟩
    | big =>
        rw [encodeProtectedHeaderMapOn_big, h]
        exact ⟨rfl, deserializeProtectedHeader_encode nonce⟩

end Nexus.Channel

namespace Nexus

open Nexus.Util Nexus.Keycode Nexus.Channel

/-- A frame and a nonce mean the same on both kinds of host. -/
def HostIndependent (alphabet : List Key) (stack : Stack) (pdIndex : UInt32)
    (frame : Frame) (nonce : UInt32) : Prop :=
  smallParseOn .little alphabet stack pdIndex frame
      = smallParseOn .big alphabet stack pdIndex frame ∧
    ∀ order, encodeProtectedHeaderMapOn order nonce = nonceMap nonce ∧
      deserializeProtectedHeader (encodeProtectedHeaderMapOn order nonce)
        = .ok nonce

theorem hostIndependent_iff {alphabet : List Key}
    (halphabet : alphabet.length = 4) (stack : Stack) (pdIndex : UInt32)
    (frame : Frame) (nonce : UInt32) :
    HostIndependent alphabet stack pdIndex frame nonce ↔
      (SmallReadable alphabet frame → RepeatedCheck alphabet frame) ∧
        ByteOrder.Mirrored nonce :=
  and_congr (smallParseOn_agree_iff halphabet stack pdIndex frame)
    (encodeProtectedHeaderMapOn_agree_iff nonce)

/-- Buffers of zeros. -/
def blankStack : Stack :=
  ⟨Vector.replicate 4 0, Vector.replicate 4 0, Vector.replicate 4 0,
    fun _ => 0⟩

/-- The keys `22222222` and then `342234`, and a nonce of four equal bytes. -/
theorem hostIndependent_repeated :
    HostIndependent Protocol.small.alphabet blankStack 0
      ⟨[50, 50, 50, 50, 50, 50, 50, 50, 51, 52, 50, 50, 51, 52], by decide⟩
      0x07070707 := by
  refine (hostIndependent_iff rfl _ _ _ _).mpr ⟨?_, by decide⟩
  intro _
  exact ⟨51, 52, 50, rfl, rfl⟩

/-- Fourteen keys of which only the last is not the first symbol, and the
nonce one. -/
theorem host_dependent_formats :
    let frame : Frame :=
      ⟨[50, 50, 50, 50, 50, 50, 50, 50, 50, 50, 50, 50, 50, 51], by decide⟩
    ((smallParseOn .little Protocol.small.alphabet blankStack 0 frame).map
        fun r => r.1.check) = some 0x001 ∧
      ((smallParseOn .big Protocol.small.alphabet blankStack 0 frame).map
        fun r => r.1.check) = some 0x100 ∧
      encodeProtectedHeaderMapOn .little 1 = [0xA1, 0x05, 0x01] ∧
      encodeProtectedHeaderMapOn .big 1
        = [0xA1, 0x05, 0x1A, 0x01, 0x00, 0x00, 0x00] ∧
      deserializeProtectedHeader (encodeProtectedHeaderMapOn .big 1)
        = .ok 0x01000000 ∧
      ¬ HostIndependent Protocol.small.alphabet blankStack 0 frame 1 := by
  intro frame
  have hlittle : ((smallParseOn .little Protocol.small.alphabet blankStack 0
      frame).map fun r => r.1.check) = some 0x001 := by decide +kernel
  have hbig : ((smallParseOn .big Protocol.small.alphabet blankStack 0
      frame).map fun r => r.1.check) = some 0x100 := by decide +kernel
  refine ⟨hlittle, hbig, by decide, by decide, by decide +kernel, ?_⟩
  intro h
  rw [h.1, hbig] at hlittle
  exact absurd hlittle (by decide)

end Nexus
