import Nexus.Lib.Remainder
import Nexus.Proofs.NvBlocks

/-!
# The byte-wise CRC and the bit-serial one

The specification of CRC-16/CCITT takes a message bit by bit, most significant
bit of each byte first: the bit is compared with the highest bit of the
register, the register moves up by one, and where the two bits differed the
polynomial `x^16 + x^12 + x^5 + 1` is subtracted. `_crc_ccitt_update` does
eight such steps at once by folding a temporary of 32 bits. Both start from
`0xffff` and end in the same place, which is the remainder of a division by
that polynomial.
-/

namespace Nexus.Nv

open Nexus.Util Nexus.Lib
open Polynomial

/-- One bit of the message. -/
def bitSerialStep (crc : BitVec 16) (bit : Bool) : BitVec 16 :=
  if crc.msb ≠ bit then (crc <<< 1) ^^^ 0x1021#16 else crc <<< 1

/-- The bit-serial algorithm, which does nothing to its result at the end. -/
def bitSerialCrc (bytes : List UInt8) : BitVec 16 :=
  (messageBits bytes).foldl bitSerialStep 0xffff#16

/-- Adding a bit at the top and shifting it out again leaves the comparison. -/
theorem bitSerialStep_eq_feed (crc : BitVec 16) (bit : Bool) :
    bitSerialStep crc bit = feed crcPoly crc bit := by
  have htop : (crc ^^^ placed bit 15) <<< 1 = crc <<< 1 := by
    cases bit with
    | false => simp [placed]
    | true =>
        rw [BitVec.shiftLeft_xor_distrib]
        exact BitVec.xor_zero
  have hmsb : (crc ^^^ placed bit 15).msb = (crc.msb ^^ bit) := by
    rw [BitVec.msb_xor]
    cases bit with
    | false => rfl
    | true => rfl
  rw [bitSerialStep, feed, shift, htop, hmsb, crcPoly]
  cases crc.msb <;> cases bit <;> simp

theorem bitSerialCrc_eq_feedAll (bytes : List UInt8) :
    bitSerialCrc bytes = feedAll crcPoly 0xffff#16 (messageBits bytes) := by
  have hstep : bitSerialStep = feed crcPoly := by
    funext crc bit
    exact bitSerialStep_eq_feed crc bit
  rw [bitSerialCrc, hstep, feedAll]

theorem generator_crcPoly :
    generator crcPoly = X ^ 16 + X ^ 12 + X ^ 5 + 1 := by
  have hsplit : crcPoly
      = placed true 12 ^^^ placed true 5 ^^^ placed true 0 := by
    decide
  rw [generator, hsplit, toPoly_xor, toPoly_xor, toPoly_placed (by decide),
    toPoly_placed (by decide), toPoly_placed (by decide)]
  simp only [coefficient_true, map_one, one_mul, pow_zero]
  ring

/-- The byte-wise CRC is the bit-serial one, and a remainder. -/
theorem computeCrcCcitt_bitSerial (bytes : List UInt8) :
    (computeCrcCcitt bytes).toBitVec = bitSerialCrc bytes ∧
      toPoly (computeCrcCcitt bytes).toBitVec
        = (X ^ (8 * bytes.length) * toPoly (0xffff#16)
            + X ^ 16 * messagePoly (messageBits bytes))
          %ₘ (X ^ 16 + X ^ 12 + X ^ 5 + 1) := by
  have hregister := toBitVec_computeCrcCcitt bytes
  constructor
  · rw [hregister, bitSerialCrc_eq_feedAll]
  · rw [hregister, toPoly_feedAll (by decide), generator_crcPoly,
      length_messageBits]

/-- The check value of this CRC. -/
example : (computeCrcCcitt [0x31, 0x32, 0x33, 0x34, 0x35, 0x36, 0x37, 0x38,
    0x39]) = 0x29b1 := by decide

end Nexus.Nv
