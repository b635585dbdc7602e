import Nexus.Util.Bytes

/-!
# SipHash-2-4

`utils/siphash_24.c`, word for word: the four lanes, the compression of each
eight-byte word, the last word that carries the length in its top byte, and the
four finishing rounds. Every keycode check value and every pseudorandom byte of
the two protocols comes out of this function, so the concrete runs of this
development evaluate it.
-/

namespace Nexus.Util

/-- The four static lanes `v0` to `v3`. -/
structure SipState where
  v0 : UInt64
  v1 : UInt64
  v2 : UInt64
  v3 : UInt64

/-- `ROTL`. -/
def rotl (x b : UInt64) : UInt64 :=
  (x <<< b) ||| (x >>> (64 - b))

/-- `SIPROUND`. -/
def sipround (s : SipState) : SipState :=
  let v0 := s.v0 + s.v1
  let v1 := rotl s.v1 13
  let v1 := v1 ^^^ v0
  let v0 := rotl v0 32
  let v2 := s.v2 + s.v3
  let v3 := rotl s.v3 16
  let v3 := v3 ^^^ v2
  let v0 := v0 + v3
  let v3 := rotl v3 21
  let v3 := v3 ^^^ v0
  let v2 := v2 + v1
  let v1 := rotl v1 17
  let v1 := v1 ^^^ v2
  let v2 := rotl v2 32
  ⟨v0, v1, v2, v3⟩

/-- `U8TO64_LE` on however many of the eight bytes are there: the last word of
a message is assembled by the same shifts, from one to seven bytes. -/
def u8to64Le : List UInt8 → UInt64
  | [] => 0
  | b :: rest => b.toUInt64 ||| (u8to64Le rest <<< 8)

/-- One message word: two rounds between the two exclusive ors. -/
def sipCompress (s : SipState) (m : UInt64) : SipState :=
  let s := sipround (sipround { s with v3 := s.v3 ^^^ m })
  { s with v0 := s.v0 ^^^ m }

/-- The loop over whole words; the at most seven bytes left over come back. -/
def sipWords : SipState → List UInt8 → SipState × List UInt8
  | s, b0 :: b1 :: b2 :: b3 :: b4 :: b5 :: b6 :: b7 :: rest =>
      sipWords (sipCompress s (u8to64Le [b0, b1, b2, b3, b4, b5, b6, b7])) rest
  | s, left => (s, left)

/-- `U64TO8_LE`. -/
def u64to8Le (v : UInt64) : Vector UInt8 8 :=
  #v[v.toUInt8, (v >>> 8).toUInt8, (v >>> 16).toUInt8, (v >>> 24).toUInt8,
    (v >>> 32).toUInt8, (v >>> 40).toUInt8, (v >>> 48).toUInt8,
    (v >>> 56).toUInt8]

/-- `siphash24_compute`: the eight output bytes for a message under a
sixteen-byte key. -/
def siphash24Compute (input : List UInt8) (k : Vector UInt8 16) :
    Vector UInt8 8 :=
  let k0 := u8to64Le (k.toList.take 8)
  let k1 := u8to64Le (k.toList.drop 8)
  let start : SipState :=
    ⟨0x736f6d6570736575 ^^^ k0, 0x646f72616e646f6d ^^^ k1,
      0x6c7967656e657261 ^^^ k0, 0x7465646279746573 ^^^ k1⟩
  let (s, left) := sipWords start input
  let b := (UInt64.ofNat input.length <<< 56) ||| u8to64Le left
  let s := sipCompress s b
  let s := { s with v2 := s.v2 ^^^ 0xff }
  let s := sipround (sipround (sipround (sipround s)))
  u64to8Le (s.v0 ^^^ s.v1 ^^^ s.v2 ^^^ s.v3)

end Nexus.Util
