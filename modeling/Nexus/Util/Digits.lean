import Nexus.Util.Bytes

/-!
# Digit streams

`struct nexus_digits`: a run of ASCII keys pulled a few at a time as decimal
numbers. The digits live in a stack array of which only the first `length`
entries are initialised; `chars` is that whole array, and a pull past the
length reads whatever it finds there. The two positions are `uint16_t`, so what
remains is a difference modulo `2 ^ 16`.
-/

namespace Nexus.Util

/-- `nx_keycode_key`, a `char`. Whether a `char` is signed is the platform's
choice, so a key is its value as an `int`, which is how every use of it begins. -/
abbrev Key := Int

/-- `struct nexus_digits`. -/
structure Digits where
  chars : Nat → Key
  length : Nat
  position : Nat

/-- `nexus_digits_init` on a copy of `keys` in an array that held `stale`. -/
def digitsInit (keys : List Key) (stale : Nat → Key) : Digits :=
  ⟨fun i => keys.getD i (stale i), keys.length, 0⟩

/-- `nexus_digits_remaining`. -/
def digitsRemaining (digits : Digits) : Nat :=
  (digits.length + 65536 - digits.position) % 65536

/-- `_chars_to_uint32`, the keys from `start` on. -/
def charsToUint32 (chars : Nat → Key) (start : Nat) : Nat → UInt32
  | 0 => 0
  | count + 1 =>
      charsToUint32 chars start count * 10
        + UInt32.ofInt (chars (start + count) - 48)

/-- `nexus_digits_pull_uint32`. -/
def digitsPullUint32 (digits : Digits) (count : Nat) : UInt32 × Digits :=
  (charsToUint32 digits.chars digits.position count,
    { digits with position := (count + digits.position) % 65536 })

/-- `nexus_digits_try_pull_uint32`; the flag is `underrun`, in and out. -/
def digitsTryPullUint32 (digits : Digits) (count : Nat) (underrun : Bool) :
    UInt32 × Bool × Digits :=
  if underrun ∨ digitsRemaining digits < count then
    (UInt32.ofNat (2 ^ 32 - 1), true, digits)
  else
    let r := digitsPullUint32 digits count
    (r.1, false, r.2)

/-- `nexus_digits_pull_uint8`: `UINT8_MAX` when too few digits remain or their
value does not fit. -/
def digitsPullUint8 (digits : Digits) (count : Nat) : UInt8 × Digits :=
  if digitsRemaining digits < count then (255, digits)
  else
    let r := digitsPullUint32 digits count
    if r.1 > 255 then (255, r.2) else (r.1.toUInt8, r.2)

end Nexus.Util
