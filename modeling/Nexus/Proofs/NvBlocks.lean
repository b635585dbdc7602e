import Nexus.Lib.Positional
import Nexus.Lib.ShiftRegister
import Nexus.Nv

/-!
# Blocks that read back, and blocks that do not

A block is valid when its id and its CRC are. The CRC is a shift register of
sixteen bits with the polynomial `x^16 + x^12 + x^5 + 1`, fed with the block id
and the inner data, highest bit of each byte first; so a valid block never
becomes another one by an odd number of flipped bits, nor by a burst that the
register holds.

`nexus_nv_read` asks for a valid block and `nexus_nv_update` does not: it is
content with any stored block that has the right inner data.
-/

namespace Nexus.Nv

open Nexus.Util Nexus.Lib

/-! ## Updates -/

/-- `nexus_nv_update` with what it returns; `written` is the answer of
`nxp_common_nv_write`, should it be asked. -/
def nvUpdateReturning (nv : Store) (blockMeta : BlockMeta)
    (inner : List UInt8) (written : Bool) : Bool × Store :=
  match updateWrites nv blockMeta inner with
  | none => (true, nv)
  | some block =>
      if written then (true, nxpCommonNvWrite nv blockMeta block)
      else (false, nv)

/-- An update that succeeds can be read back. -/
def ReadableAfterUpdate (nv : Store) (blockMeta : BlockMeta)
    (inner : List UInt8) (written : Bool) : Prop :=
  (nvUpdateReturning nv blockMeta inner written).1 = true →
    nvRead (nvUpdateReturning nv blockMeta inner written).2 blockMeta
      = some inner

section

variable {nv : Store} {blockMeta : BlockMeta} {inner : List UInt8}

/-- A stored block with this inner data stays, valid or not. -/
theorem nvUpdateReturning_same {existing : List UInt8} {written : Bool}
    (hnv : nv blockMeta.blockId = some existing)
    (hinner : innerData blockMeta existing = inner) :
    nvUpdateReturning nv blockMeta inner written = (true, nv) := by
  have hwrites : updateWrites nv blockMeta inner = none := by
    rw [updateWrites, hnv]
    exact if_pos (beq_iff_eq.mpr hinner)
  rw [nvUpdateReturning, hwrites]

/-- In all other cases the new block is written. -/
theorem nvUpdateReturning_other {written : Bool}
    (h : ∀ existing, nv blockMeta.blockId = some existing →
      innerData blockMeta existing ≠ inner) :
    nvUpdateReturning nv blockMeta inner written
      = if written then
          (true, nxpCommonNvWrite nv blockMeta (newBlock blockMeta inner))
        else (false, nv) := by
  have hwrites : updateWrites nv blockMeta inner
      = some (newBlock blockMeta inner) := by
    rw [updateWrites]
    cases hnv : nv blockMeta.blockId with
    | none => rfl
    | some existing =>
        exact if_neg fun heq => h existing hnv (beq_iff_eq.mp heq)
  rw [nvUpdateReturning, hwrites]

end

/-- The two notions of being up to date agree unless an invalid block is
stored with the very inner data of the update. -/
theorem readableAfterUpdate_iff (nv : Store) (blockMeta : BlockMeta)
    (inner : List UInt8) (written : Bool)
    (hlen : inner.length + 4 = blockMeta.length) :
    ReadableAfterUpdate nv blockMeta inner written ↔
      ∀ existing, nv blockMeta.blockId = some existing →
        innerData blockMeta existing = inner →
        blockValid blockMeta existing = true := by
  rw [ReadableAfterUpdate]
  by_cases hsame : ∃ existing, nv blockMeta.blockId = some existing ∧
      innerData blockMeta existing = inner
  · obtain ⟨existing, hnv, hinner⟩ := hsame
    have hread : nvRead nv blockMeta
        = if blockValid blockMeta existing then some inner else none := by
      rw [nvRead, hnv, Option.getD_some, hinner]
    rw [nvUpdateReturning_same hnv hinner, hread, hnv]
    constructor
    · rintro h _ ⟨rfl⟩ _
      by_contra hinvalid
      rw [if_neg hinvalid] at h
      cases h rfl
    · intro h _
      exact if_pos (h existing rfl hinner)
  · have hother : ∀ existing, nv blockMeta.blockId = some existing →
        innerData blockMeta existing ≠ inner := by
      intro existing hnv hinner
      exact hsame ⟨existing, hnv, hinner⟩
    refine iff_of_true ?_ fun existing hnv hinner =>
      absurd hinner (hother existing hnv)
    rw [nvUpdateReturning_other hother]
    cases written with
    | false =>
        intro h
        cases h
    | true =>
        intro _
        exact nvRead_of_newBlock hlen (Function.update_self _ _ _)

/-- An update of a block that was never written. -/
theorem readableAfterUpdate_blank :
    ReadableAfterUpdate (fun _ => none) blockKeycodePro
      (List.replicate 12 0x00) true :=
  (readableAfterUpdate_iff _ _ _ _ rfl).mpr fun _ h => nomatch h

/-- Storage of zeros and an update with zeros: nothing is written, and there is
nothing to read. -/
theorem zeroed_block_not_readable :
    let nv : Store := fun _ => some (List.replicate 16 0x00)
    let inner : List UInt8 := List.replicate 12 0x00
    (nvUpdateReturning nv blockKeycodePro inner true).1 = true ∧
      nvRead (nvUpdateReturning nv blockKeycodePro inner true).2
        blockKeycodePro = none ∧
      ¬ ReadableAfterUpdate nv blockKeycodePro inner true := by
  intro nv inner
  have hreturns : (nvUpdateReturning nv blockKeycodePro inner true).1
      = true := by decide
  have hread : nvRead (nvUpdateReturning nv blockKeycodePro inner true).2
      blockKeycodePro = none := by decide +kernel
  refine ⟨hreturns, hread, ?_⟩
  intro h
  have hsome := h hreturns
  rw [hread] at hsome
  cases hsome

/-! ## The CRC as a register -/

/-- The polynomial without its highest term. -/
def crcPoly : BitVec 16 := 0x1021#16

/-- The bits of a block as the register takes them in. -/
def messageBits (bytes : List UInt8) : List Bool :=
  bytes.flatMap fun b => toBits 8 b.toNat

/-- `_crc_ccitt_update` on bit vectors. -/
def crcUpdateBits (crc : BitVec 16) (byte : BitVec 8) : BitVec 16 :=
  let new : BitVec 32 :=
    ((crc >>> 8).setWidth 8).setWidth 32 ||| (crc.setWidth 32 <<< 8)
  let new := new ^^^ byte.setWidth 32
  let new := new ^^^ ((new &&& 0xff#32) >>> 4)
  let new := new ^^^ (new <<< 12)
  let new := new ^^^ ((new &&& 0xff#32) <<< 5)
  new.setWidth 16

theorem toBitVec_crcCcittUpdate (crc : UInt16) (byte : UInt8) :
    (crcCcittUpdate crc byte).toBitVec
      = crcUpdateBits crc.toBitVec byte.toBitVec := rfl

/-- The low byte moves up, and the high byte meets the message. -/
theorem crcUpdateBits_split (crc : BitVec 16) (byte : BitVec 8) :
    crcUpdateBits crc byte
      = (crc <<< 8) ^^^ crcUpdateBits 0#16 ((crc >>> 8).setWidth 8 ^^^ byte) := by
  apply BitVec.eq_of_getLsbD_eq
  intro i hi
  simp only [crcUpdateBits]
  interval_cases i <;> simp

/-- Eight shifts of a high byte, for all 256 of them. -/
theorem iterate_shift_high (h : UInt8) :
    (shift crcPoly)^[8] (h.toBitVec.setWidth 16 <<< 8)
      = crcUpdateBits 0#16 h.toBitVec := by
  revert h
  decide +kernel

theorem iterate_shift_low (l : UInt8) :
    (shift crcPoly)^[8] (l.toBitVec.setWidth 16)
      = l.toBitVec.setWidth 16 <<< 8 := by
  revert l
  decide +kernel

/-- The bits of a byte, put into the register at once. -/
theorem place_toBits (byte : UInt8) :
    (place 0 (toBits 8 byte.toNat) : BitVec 16)
      = byte.toBitVec.setWidth 16 <<< 8 := by
  revert byte
  decide +kernel

/-- A register and a byte, taken apart into what is shifted out and what
stays. -/
theorem xor_byte_split (crc : BitVec 16) (byte : BitVec 8) :
    crc ^^^ (byte.setWidth 16 <<< 8)
      = (((crc >>> 8).setWidth 8 ^^^ byte).setWidth 16 <<< 8)
        ^^^ (crc.setWidth 8).setWidth 16 := by
  apply BitVec.eq_of_getLsbD_eq
  intro i hi
  interval_cases i <;> simp

theorem shiftLeft_low_byte (crc : BitVec 16) :
    crc <<< 8 = (crc.setWidth 8).setWidth 16 <<< 8 := by
  apply BitVec.eq_of_getLsbD_eq
  intro i hi
  interval_cases i <;> simp

/-- The update is eight bits of the register. -/
theorem crcCcittUpdate_eq_feedAll (crc : UInt16) (byte : UInt8) :
    (crcCcittUpdate crc byte).toBitVec
      = feedAll crcPoly crc.toBitVec (toBits 8 byte.toNat) := by
  have hlow : (shift crcPoly)^[8] ((crc.toBitVec.setWidth 8).setWidth 16)
      = (crc.toBitVec.setWidth 8).setWidth 16 <<< 8 :=
    iterate_shift_low crc.toUInt8
  have hhigh : (shift crcPoly)^[8]
        (((crc.toBitVec >>> 8).setWidth 8 ^^^ byte.toBitVec).setWidth 16 <<< 8)
      = crcUpdateBits 0#16
        ((crc.toBitVec >>> 8).setWidth 8 ^^^ byte.toBitVec) :=
    iterate_shift_high ((crc >>> 8).toUInt8 ^^^ byte)
  have hfeed : feedAll crcPoly crc.toBitVec (toBits 8 byte.toNat)
      = (shift crcPoly)^[8] (crc.toBitVec ^^^ place 0 (toBits 8 byte.toNat)) :=
    feedAll_iterate_shift (k := 0) (by rw [length_toBits]; decide) crc.toBitVec
  rw [hfeed, place_toBits, xor_byte_split, iterate_shift_xor, hhigh, hlow,
    ← shiftLeft_low_byte, toBitVec_crcCcittUpdate, crcUpdateBits_split]
  exact BitVec.xor_comm _ _

theorem toBitVec_computeCrcCcitt (bytes : List UInt8) :
    (computeCrcCcitt bytes).toBitVec
      = feedAll crcPoly 0xffff#16 (messageBits bytes) := by
  have hrun (crc : UInt16) : (bytes.foldl crcCcittUpdate crc).toBitVec
      = feedAll crcPoly crc.toBitVec (messageBits bytes) := by
    induction bytes generalizing crc with
    | nil => rfl
    | cons byte bytes ih =>
        rw [List.foldl_cons, ih, crcCcittUpdate_eq_feedAll, messageBits,
          messageBits, List.flatMap_cons, feedAll_append]
  exact hrun 0xffff

/-! ## Errors -/

/-- A block with some of its bits flipped. -/
def flipped (block error : List UInt8) : List UInt8 :=
  List.zipWith (· ^^^ ·) block error

theorem messageBits_append (bytes bytes' : List UInt8) :
    messageBits (bytes ++ bytes') = messageBits bytes ++ messageBits bytes' :=
  List.flatMap_append

theorem length_messageBits (bytes : List UInt8) :
    (messageBits bytes).length = 8 * bytes.length := by
  induction bytes with
  | nil => rfl
  | cons b bytes ih =>
      rw [messageBits] at ih
      rw [messageBits, List.flatMap_cons, List.length_append, length_toBits,
        ih, List.length_cons]
      omega

theorem toBits_xor (n a b : ℕ) :
    toBits n (a ^^^ b) = List.zipWith xor (toBits n a) (toBits n b) := by
  induction n with
  | zero => rfl
  | succ n ih =>
      rw [toBits, toBits, toBits, List.zipWith_cons_cons, ih,
        Nat.testBit_xor]

theorem messageBits_flipped {block error : List UInt8}
    (h : block.length = error.length) :
    messageBits (flipped block error)
      = List.zipWith xor (messageBits block) (messageBits error) := by
  induction block generalizing error with
  | nil => rfl
  | cons b block ih =>
      cases error with
      | nil => cases h
      | cons e error =>
          have hrest := ih (Nat.succ.inj h)
          rw [flipped, messageBits] at hrest
          rw [flipped, List.zipWith_cons_cons, messageBits,
            List.flatMap_cons, hrest, UInt8.toNat_xor, toBits_xor,
            ← List.zipWith_append (by rw [length_toBits, length_toBits])]
          rfl

theorem parity_toBits (n v : ℕ) :
    parity (toBits n v) = parity ((List.range n).map v.testBit) := by
  induction n with
  | zero => rfl
  | succ n ih =>
      rw [toBits, parity_cons, ih, List.range_succ, List.map_append,
        parity_append, List.map_singleton, parity_cons, parity_nil,
        Bool.xor_false, Bool.xor_comm]

theorem parity_messageBits_le16 (v : UInt16) :
    parity (messageBits (le16 v)) = parityOf v.toBitVec := by
  have hlow : (List.range 8).map v.toUInt8.toNat.testBit
      = (List.range 8).map v.toBitVec.getLsbD := by
    refine List.map_congr_left fun i hi => ?_
    have hi := List.mem_range.mp hi
    rw [UInt16.toNat_toUInt8, Nat.testBit_mod_two_pow]
    simp [hi, BitVec.getLsbD]
  have hhigh : (List.range 8).map (v >>> 8).toUInt8.toNat.testBit
      = (List.range 8).map fun i => v.toBitVec.getLsbD (8 + i) := by
    refine List.map_congr_left fun i hi => ?_
    have hi := List.mem_range.mp hi
    rw [UInt16.toNat_toUInt8, Nat.testBit_mod_two_pow,
      UInt16.toNat_shiftRight]
    show (decide (i < 8) && (v.toNat >>> 8).testBit i) = _
    rw [Nat.testBit_shiftRight]
    simp [hi, BitVec.getLsbD]
  have hbits : parity (messageBits (le16 v))
      = (parity (toBits 8 v.toUInt8.toNat)
        ^^ parity (toBits 8 (v >>> 8).toUInt8.toNat)) := by
    rw [messageBits, le16, List.flatMap_cons, List.flatMap_cons,
      List.flatMap_nil, List.append_nil, parity_append]
  have hrange : List.range 16
      = List.range 8 ++ (List.range 8).map (8 + ·) := rfl
  rw [hbits, parity_toBits, parity_toBits, hlow, hhigh, ← parity_append,
    parityOf, hrange, List.map_append, List.map_map]
  rfl

section

variable {blockMeta : BlockMeta} {block error : List UInt8}

theorem le16_inj {v v' : UInt16} (h : le16 v = le16 v') : v = v' := by
  have hv := v.toNat_lt
  have hv' := v'.toNat_lt
  rw [le16, le16, List.cons.injEq, List.cons.injEq] at h
  obtain ⟨hlow, hhigh, -⟩ := h
  have hlow := congrArg UInt8.toNat hlow
  have hhigh := congrArg UInt8.toNat hhigh
  rw [UInt16.toNat_toUInt8, UInt16.toNat_toUInt8] at hlow hhigh
  rw [UInt16.toNat_shiftRight, UInt16.toNat_shiftRight] at hhigh
  have hhigh : v.toNat >>> 8 % 2 ^ 8 = v'.toNat >>> 8 % 2 ^ 8 := hhigh
  rw [Nat.shiftRight_eq_div_pow, Nat.shiftRight_eq_div_pow] at hhigh
  apply UInt16.toNat_inj.mp
  omega

/-- What a valid block is made of. -/
theorem blockValid_iff (hlen : block.length = blockMeta.length)
    (hsize : 2 ≤ blockMeta.length) :
    blockValid blockMeta block = true ↔
      block.take 2 = le16 blockMeta.blockId ∧
        block.drop (blockMeta.length - 2)
          = le16 (computeCrcCcitt (block.take (blockMeta.length - 2))) := by
  have hcrc : (block.drop (blockMeta.length - 2)).take 2
      = block.drop (blockMeta.length - 2) := by
    refine List.take_of_length_le ?_
    rw [List.length_drop]
    omega
  rw [blockValid, hcrc, Bool.and_eq_true, beq_iff_eq, beq_iff_eq]

/-- A valid block has an even number of ones. -/
theorem parity_of_blockValid (hlen : block.length = blockMeta.length)
    (hsize : 2 ≤ blockMeta.length) (h : blockValid blockMeta block = true) :
    parity (messageBits block) = false := by
  obtain ⟨-, hcrc⟩ := (blockValid_iff hlen hsize).mp h
  have hregister := @parityOf_feedAll 16 crcPoly (by decide) (by decide)
    0xffff#16 (messageBits (block.take (blockMeta.length - 2)))
  have hstart : parityOf 0xffff#16 = false := by decide
  rw [← toBitVec_computeCrcCcitt, hstart, Bool.false_xor] at hregister
  rw [← List.take_append_drop (blockMeta.length - 2) block,
    messageBits_append, parity_append, hcrc, parity_messageBits_le16]
  rw [hregister, Bool.xor_self]

theorem length_flipped (h : block.length = error.length) :
    (flipped block error).length = block.length := by
  rw [flipped, List.length_zipWith, ← h, Nat.min_self]

/-- An odd number of flipped bits is found. -/
theorem not_blockValid_of_odd (hlen : block.length = blockMeta.length)
    (hsize : 2 ≤ blockMeta.length) (herror : error.length = block.length)
    (hvalid : blockValid blockMeta block = true)
    (hodd : Odd ((messageBits error).count true)) :
    blockValid blockMeta (flipped block error) = false := by
  rw [← Bool.not_eq_true]
  intro hflipped
  have hlen' : (flipped block error).length = blockMeta.length :=
    (length_flipped herror.symm).trans hlen
  have heven := parity_of_blockValid hlen' hsize hflipped
  have hbits : (messageBits block).length = (messageBits error).length := by
    rw [length_messageBits, length_messageBits, herror]
  rw [messageBits_flipped herror.symm, parity_zipWith_xor hbits,
    parity_of_blockValid hlen hsize hvalid, Bool.false_xor] at heven
  rw [← parity_eq_true_iff, heven] at hodd
  cases hodd

/-- Bytes without a one are zero. -/
theorem eq_replicate_of_messageBits {bytes : List UInt8} {n : ℕ}
    (h : messageBits bytes = List.replicate n false) :
    bytes = List.replicate bytes.length 0 := by
  rw [List.eq_replicate_iff]
  refine ⟨rfl, ?_⟩
  intro b hb
  have hbits : ∀ bit ∈ toBits 8 b.toNat, bit = false := by
    intro bit hbit
    have hmem : bit ∈ messageBits bytes :=
      List.mem_flatMap.mpr ⟨b, hb, hbit⟩
    rw [h] at hmem
    exact List.eq_of_mem_replicate hmem
  have hvalue := ofBits_toBits (n := 8) b.toNat_lt
  have hzeros : toBits 8 b.toNat = List.replicate 8 false := by
    rw [List.eq_replicate_iff]
    exact ⟨length_toBits 8 _, hbits⟩
  rw [hzeros] at hvalue
  apply UInt8.toNat_inj.mp
  exact hvalue.symm

/-- A burst in front of the CRC is found. -/
theorem not_blockValid_of_burst (hlen : block.length = blockMeta.length)
    (hsize : 2 ≤ blockMeta.length) (herror : error.length = block.length)
    (hvalid : blockValid blockMeta block = true) {before behind : ℕ}
    {burst : List Bool} (hburst : burst.length ≤ 16) (hne : true ∈ burst)
    (hbehind : 16 ≤ behind)
    (hbits : messageBits error = List.replicate before false ++ burst
      ++ List.replicate behind false) :
    blockValid blockMeta (flipped block error) = false := by
  obtain ⟨-, hcrc⟩ := (blockValid_iff hlen hsize).mp hvalid
  have hlen' : (flipped block error).length = blockMeta.length :=
    (length_flipped herror.symm).trans hlen
  have htotal : before + burst.length + behind = 8 * blockMeta.length := by
    have := congrArg List.length hbits
    rw [length_messageBits, List.length_append, List.length_append,
      List.length_replicate, List.length_replicate, herror, hlen] at this
    omega
  -- the error in front of the CRC, and the one in it
  obtain ⟨front, hfront⟩ : ∃ front, error.take (blockMeta.length - 2) = front :=
    ⟨_, rfl⟩
  obtain ⟨last, hlast⟩ : ∃ last, error.drop (blockMeta.length - 2) = last :=
    ⟨_, rfl⟩
  have hsplit : messageBits error = messageBits front ++ messageBits last := by
    rw [← messageBits_append, ← hfront, ← hlast, List.take_append_drop]
  have hfrontLength : front.length = blockMeta.length - 2 := by
    rw [← hfront, List.length_take, herror, hlen]
    omega
  have hbehind' : List.replicate behind false
      = List.replicate (behind - 16) false ++ List.replicate 16 false := by
    rw [List.replicate_append_replicate]
    congr 1
    omega
  rw [hsplit, hbehind', ← List.append_assoc] at hbits
  obtain ⟨hfrontBits, hlastBits⟩ := List.append_inj hbits (by
    rw [length_messageBits, hfrontLength, List.length_append,
      List.length_append, List.length_replicate, List.length_replicate]
    omega)
  have hzero : last = List.replicate last.length 0 :=
    eq_replicate_of_messageBits hlastBits
  have hstored : (flipped block error).drop (blockMeta.length - 2)
      = block.drop (blockMeta.length - 2) := by
    rw [flipped, List.drop_zipWith, hlast, hzero]
    refine List.ext_getElem ?_ ?_
    · rw [List.length_zipWith, List.length_replicate, List.length_drop,
        ← hlast, List.length_drop, herror, Nat.min_self]
    · intro i h _
      rw [List.getElem_zipWith, List.getElem_replicate, UInt8.xor_zero]
  have hcomputed : computeCrcCcitt
      ((flipped block error).take (blockMeta.length - 2))
      ≠ computeCrcCcitt (block.take (blockMeta.length - 2)) := by
    intro heq
    have hregister := congrArg UInt16.toBitVec heq
    have hlenFront : (block.take (blockMeta.length - 2)).length
        = front.length := by
      rw [hfrontLength, List.length_take, hlen]
      omega
    have hlenBits : (messageBits (block.take (blockMeta.length - 2))).length
        = (messageBits front).length := by
      rw [length_messageBits, length_messageBits, hlenFront]
    have htake : (flipped block error).take (blockMeta.length - 2)
        = flipped (block.take (blockMeta.length - 2)) front := by
      rw [flipped, flipped, List.take_zipWith, hfront]
    have hxor := @feedAll_xor 16 crcPoly 0xffff#16 0#16 _ _ hlenBits
    rw [htake, toBitVec_computeCrcCcitt, toBitVec_computeCrcCcitt,
      messageBits_flipped hlenFront] at hregister
    rw [BitVec.xor_zero, hregister] at hxor
    refine @feedAll_burst_ne_zero 16 crcPoly _ rfl hburst hne before
      (behind - 16) ?_
    rw [← hfrontBits, ← BitVec.xor_right_inj, ← hxor, BitVec.xor_zero]
  rw [← Bool.not_eq_true, blockValid_iff hlen' hsize, hstored, hcrc]
  rintro ⟨-, hequal⟩
  exact hcomputed (le16_inj hequal).symm

end

/-- The differences a CRC of sixteen bits has to find: an odd number of bits
anywhere in the block, or some bits within sixteen in a row of what the CRC is
computed over. -/
def Detectable (error : List UInt8) : Prop :=
  Odd ((messageBits error).count true) ∨
    ∃ before burst behind, messageBits error
        = List.replicate before false ++ burst
          ++ List.replicate behind false ∧
      burst.length ≤ 16 ∧ true ∈ burst ∧ 16 ≤ behind

/-- No valid block turns into another valid one by a detectable error. -/
theorem blockValid_detects (blockMeta : BlockMeta) (block error : List UInt8)
    (hsize : 6 ≤ blockMeta.length ∧ blockMeta.length ≤ 40)
    (hlen : block.length = blockMeta.length)
    (herror : error.length = block.length)
    (hvalid : blockValid blockMeta block = true)
    (hdetectable : Detectable error) :
    blockValid blockMeta (flipped block error) = false := by
  have htwo : 2 ≤ blockMeta.length := by omega
  rcases hdetectable with hodd | ⟨before, burst, behind, hbits, hburst, hne,
    hbehind⟩
  · exact not_blockValid_of_odd hlen htwo herror hvalid hodd
  · exact not_blockValid_of_burst hlen htwo herror hvalid hburst hne hbehind
      hbits

/-- A block of four inner bytes, and a burst across two of them. -/
theorem blockValid_detects_burst :
    let block := newBlock ⟨0, 8⟩ [0x12, 0x34, 0x56, 0x78]
    let error : List UInt8 := [0, 0, 0, 0x0F, 0xF0, 0, 0, 0]
    blockValid ⟨0, 8⟩ block = true ∧
      blockValid ⟨0, 8⟩ (flipped block error) = false := by
  intro block error
  have hvalid : blockValid ⟨0, 8⟩ block = true := by decide +kernel
  refine ⟨hvalid, blockValid_detects ⟨0, 8⟩ block error (by decide) rfl rfl
    hvalid (Or.inr ⟨28, List.replicate 8 true, 28, ?_, ?_, ?_, ?_⟩)⟩
  · decide
  · decide
  · decide
  · decide

end Nexus.Nv
