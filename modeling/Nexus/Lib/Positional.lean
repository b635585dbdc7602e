import Mathlib

/-!
# Fixed-width numerals

Numerals of a fixed number of digits in any base, most significant digit
first, the order in which a format sends them. `toDigits` cuts a number to a
field of `n` digits, `ofDigits` reads a field back, and a number that fits its
field survives the round trip. Fields of bits are the case of base two.
-/

namespace Nexus.Lib

/-- The number a list of digits spells. -/
def ofDigits (b : ℕ) (digits : List ℕ) : ℕ :=
  digits.foldl (fun n d => b * n + d) 0

/-- The `n` low digits of a number. -/
def toDigits (b : ℕ) : ℕ → ℕ → List ℕ
  | 0, _ => []
  | n + 1, v => v / b ^ n % b :: toDigits b n v

section

variable {b : ℕ}

@[simp] theorem length_toDigits (n v : ℕ) : (toDigits b n v).length = n := by
  induction n with
  | zero => rfl
  | succ n ih => simp [toDigits, ih]

theorem lt_of_mem_toDigits (hb : 0 < b) {n v d : ℕ}
    (h : d ∈ toDigits b n v) : d < b := by
  induction n with
  | zero => cases h
  | succ n ih =>
      rcases List.mem_cons.mp h with rfl | h
      · exact Nat.mod_lt _ hb
      · exact ih h

/-- Reading digits onto a number already read. -/
theorem foldl_digits (acc : ℕ) (digits : List ℕ) :
    digits.foldl (fun n d => b * n + d) acc
      = acc * b ^ digits.length + ofDigits b digits := by
  induction digits generalizing acc with
  | nil => simp [ofDigits]
  | cons d digits ih =>
      have hrest := ih (b * 0 + d)
      rw [ofDigits, List.foldl_cons, List.foldl_cons, ih, hrest,
        List.length_cons, pow_succ]
      ring

theorem ofDigits_append (digits digits' : List ℕ) :
    ofDigits b (digits ++ digits')
      = ofDigits b digits * b ^ digits'.length + ofDigits b digits' := by
  rw [ofDigits, List.foldl_append]
  exact foldl_digits _ digits'

theorem ofDigits_cons (d : ℕ) (digits : List ℕ) :
    ofDigits b (d :: digits)
      = d * b ^ digits.length + ofDigits b digits := by
  rw [ofDigits, List.foldl_cons, foldl_digits]
  simp

theorem ofDigits_lt {digits : List ℕ} (h : ∀ d ∈ digits, d < b) :
    ofDigits b digits < b ^ digits.length := by
  induction digits with
  | nil => simp [ofDigits]
  | cons d digits ih =>
      have hrest := ih fun d' hd' => h d' (by simp [hd'])
      have hd : (d + 1) * b ^ digits.length ≤ b * b ^ digits.length :=
        Nat.mul_le_mul_right _ (h d (by simp))
      rw [ofDigits_cons, List.length_cons, pow_succ, mul_comm (b ^ _) b]
      calc d * b ^ digits.length + ofDigits b digits
          < d * b ^ digits.length + b ^ digits.length := by omega
        _ = (d + 1) * b ^ digits.length := by ring
        _ ≤ b * b ^ digits.length := hd

theorem ofDigits_toDigits_mod (n v : ℕ) :
    ofDigits b (toDigits b n v) = v % b ^ n := by
  induction n with
  | zero => simp [toDigits, ofDigits, Nat.mod_one]
  | succ n ih =>
      rw [toDigits, ofDigits_cons, length_toDigits, ih, Nat.mod_pow_succ]
      ring

/-- A number that fits its field is read back. -/
theorem ofDigits_toDigits {n v : ℕ} (h : v < b ^ n) :
    ofDigits b (toDigits b n v) = v := by
  rw [ofDigits_toDigits_mod, Nat.mod_eq_of_lt h]

end

/-! ## Bits -/

/-- The number a list of bits spells. -/
def ofBits (bits : List Bool) : ℕ := ofDigits 2 (bits.map Bool.toNat)

/-- The `n` low bits of a number. -/
def toBits : ℕ → ℕ → List Bool
  | 0, _ => []
  | n + 1, v => v.testBit n :: toBits n v

theorem map_toBits (n v : ℕ) :
    (toBits n v).map Bool.toNat = toDigits 2 n v := by
  induction n with
  | zero => rfl
  | succ n ih => rw [toBits, List.map_cons, ih, toDigits, Nat.toNat_testBit]

@[simp] theorem length_toBits (n v : ℕ) : (toBits n v).length = n := by
  rw [← List.length_map (f := Bool.toNat), map_toBits, length_toDigits]

theorem toBits_eq_map (n v : ℕ) :
    toBits n v = (List.range n).map fun i => v.testBit (n - 1 - i) := by
  induction n with
  | zero => rfl
  | succ n ih =>
      rw [toBits, ih, List.range_succ_eq_map, List.map_cons, List.map_map]
      congr 1
      refine List.map_congr_left fun i _ => ?_
      show v.testBit (n - 1 - i) = v.testBit (n + 1 - 1 - (i + 1))
      congr 1
      omega

theorem ofBits_append (bits bits' : List Bool) :
    ofBits (bits ++ bits')
      = ofBits bits * 2 ^ bits'.length + ofBits bits' := by
  rw [ofBits, List.map_append, ofDigits_append, List.length_map]
  rfl

theorem ofBits_cons (b : Bool) (bits : List Bool) :
    ofBits (b :: bits) = b.toNat * 2 ^ bits.length + ofBits bits := by
  rw [ofBits, List.map_cons, ofDigits_cons, List.length_map]
  rfl

theorem ofBits_lt (bits : List Bool) : ofBits bits < 2 ^ bits.length := by
  rw [← List.length_map (f := Bool.toNat)]
  refine ofDigits_lt fun d hd => ?_
  obtain ⟨b, -, rfl⟩ := List.mem_map.mp hd
  exact Bool.toNat_lt b

/-- A number that fits its field is read back. -/
theorem ofBits_toBits {n v : ℕ} (h : v < 2 ^ n) : ofBits (toBits n v) = v := by
  rw [ofBits, map_toBits, ofDigits_toDigits h]

end Nexus.Lib
