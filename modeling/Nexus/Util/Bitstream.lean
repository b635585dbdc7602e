import Nexus.Util.Bytes

/-!
# Bit streams

`struct nexus_bitstream` and the functions that push into and pull out of it,
most significant bit of each byte first. The buffer behind a stream is often an
uninitialised stack array; a push keeps the bits above its position in the byte,
writes its own, and leaves zeros below, whatever was there.
-/

namespace Nexus.Util

/-- `struct nexus_bitstream`; capacity, length and position are in bits. -/
structure Bitstream where
  data : List UInt8
  capacity : Nat
  length : Nat
  position : Nat
deriving DecidableEq

/-- `nexus_bitstream_init`. -/
def bitstreamInit (bytes : List UInt8) (capacity length : Nat) : Bitstream :=
  ⟨bytes, capacity, length, 0⟩

/-- `nexus_bitstream_set_bit_position`. -/
def bitstreamSetBitPosition (stream : Bitstream) (position : Nat) : Bitstream :=
  { stream with position := position }

/-- How far the bit at `position` sits above the lowest bit of its byte. -/
def bitstreamShift (position : Nat) : UInt8 :=
  UInt8.ofNat ((position / 8 + 1) * 8 - position - 1)

/-- `nexus_bitstream_push_bit`. -/
def bitstreamPushBit (stream : Bitstream) (pushed : Bool) : Bitstream :=
  let bytePosition := stream.position / 8
  let shift := bitstreamShift stream.position
  let byte := stream.data.getD bytePosition 0
  let byte := (((byte >>> shift) &&& 0xfe) ||| pushed.toUInt8) <<< shift
  { stream with
    data := stream.data.set bytePosition byte
    position := stream.position + 1
    length := if stream.position + 1 > stream.length then stream.length + 1
      else stream.length }

/-- The loop of `nexus_bitstream_push_uint8`: `left` of the `bits` pushes are
still to come, and `pushed` has moved up by one for each one done. -/
def bitstreamPushUint8Loop (bits : Nat) :
    Nat → Bitstream → UInt8 → Bitstream
  | 0, stream, _ => stream
  | left + 1, stream, pushed =>
      let bit := (pushed >>> UInt8.ofNat (bits - 1)) &&& 0x01
      bitstreamPushUint8Loop bits left (bitstreamPushBit stream (bit != 0))
        (pushed <<< 1)

/-- `nexus_bitstream_push_uint8`. -/
def bitstreamPushUint8 (stream : Bitstream) (pushed : UInt8) (bits : Nat) :
    Bitstream :=
  bitstreamPushUint8Loop bits bits stream pushed

/-- `nexus_bitstream_pull_bit`. -/
def bitstreamPullBit (stream : Bitstream) : Bool × Bitstream :=
  let byte := stream.data.getD (stream.position / 8) 0
  (((byte >>> bitstreamShift stream.position) &&& 0x01) != 0,
    { stream with position := stream.position + 1 })

/-- The loop of `nexus_bitstream_pull_uint8`. -/
def bitstreamPullUint8Loop :
    Nat → Bitstream → UInt8 → UInt8 × Bitstream
  | 0, stream, pulled => (pulled, stream)
  | left + 1, stream, pulled =>
      let r := bitstreamPullBit stream
      bitstreamPullUint8Loop left r.2 ((pulled <<< 1) ||| r.1.toUInt8)

/-- `nexus_bitstream_pull_uint8`. -/
def bitstreamPullUint8 (stream : Bitstream) (bits : Nat) :
    UInt8 × Bitstream :=
  bitstreamPullUint8Loop bits stream 0x00

/-- `nexus_bitstream_pull_uint16_be`. -/
def bitstreamPullUint16Be (stream : Bitstream) (bits : Nat) :
    UInt16 × Bitstream :=
  let msbyteBits := if bits > 8 then 8 else bits
  let lsbyteBits := if bits > 8 then bits - 8 else 0
  let hi := bitstreamPullUint8 stream msbyteBits
  let lo := bitstreamPullUint8 hi.2 lsbyteBits
  ((hi.1.toUInt16 <<< UInt16.ofNat lsbyteBits) ||| lo.1.toUInt16, lo.2)

end Nexus.Util
