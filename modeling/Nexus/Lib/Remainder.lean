import Nexus.Lib.ShiftRegister

/-!
# The register as a remainder

Read the bits of a register as the coefficients of a polynomial over the field
of two elements, highest power first. Then a shift multiplies by the variable
and takes the generator away once if the result is too long for the register,
which is one step of a long division. So a register fed with a message ends as
the remainder of a division by the generator: of the message, moved up by the
width of the register, and of what the register held at the start, moved up by
the length of the message.
-/

namespace Nexus.Lib

open Polynomial

variable {w : ℕ} {poly : BitVec w}

/-- A bit as a coefficient. -/
def coefficient (b : Bool) : ZMod 2 := if b then 1 else 0

@[simp] theorem coefficient_false : coefficient false = 0 := rfl

@[simp] theorem coefficient_true : coefficient true = 1 := rfl

theorem coefficient_xor (a b : Bool) :
    coefficient (a ^^ b) = coefficient a + coefficient b := by
  cases a <;> cases b <;> decide

/-- The polynomial in a register. -/
noncomputable def toPoly (x : BitVec w) : (ZMod 2)[X] :=
  ∑ i ∈ Finset.range w, C (coefficient (x.getLsbD i)) * X ^ i

/-- The polynomial of a message, highest power first. -/
noncomputable def messagePoly : List Bool → (ZMod 2)[X]
  | [] => 0
  | b :: bits => C (coefficient b) * X ^ bits.length + messagePoly bits

/-- What a register with this feedback divides by. -/
noncomputable def generator (poly : BitVec w) : (ZMod 2)[X] :=
  X ^ w + toPoly poly

theorem coeff_toPoly (x : BitVec w) (i : ℕ) :
    (toPoly x).coeff i = coefficient (x.getLsbD i) := by
  simp only [toPoly, finsetSum_coeff, coeff_C_mul, coeff_X_pow]
  by_cases hi : i < w
  · rw [Finset.sum_eq_single i]
    · simp
    · intro j hj hji
      simp [hji.symm]
    · intro hi'
      simp [hi] at hi'
  · rw [BitVec.getLsbD_of_ge x i (not_lt.mp hi), coefficient_false]
    refine Finset.sum_eq_zero ?_
    intro j hj
    have hj := Finset.mem_range.mp hj
    simp [show i ≠ j by omega]

theorem toPoly_zero : toPoly (0#w) = 0 := by
  simp [toPoly]

theorem toPoly_xor (x y : BitVec w) :
    toPoly (x ^^^ y) = toPoly x + toPoly y := by
  ext i
  rw [coeff_add, coeff_toPoly, coeff_toPoly, coeff_toPoly,
    BitVec.getLsbD_xor, coefficient_xor]

theorem degree_toPoly_lt (x : BitVec w) : (toPoly x).degree < w := by
  rw [degree_lt_iff_coeff_zero]
  intro i hi
  rw [coeff_toPoly, BitVec.getLsbD_of_ge x i hi, coefficient_false]

theorem generator_monic (poly : BitVec w) : (generator poly).Monic :=
  monic_X_pow_add (degree_toPoly_lt poly)

theorem degree_generator (poly : BitVec w) : (generator poly).degree = w := by
  have hlt : (toPoly poly).degree < (X ^ w : (ZMod 2)[X]).degree := by
    rw [degree_X_pow]
    exact degree_toPoly_lt poly
  rw [generator, degree_add_eq_left_of_degree_lt hlt, degree_X_pow]

/-! ## One step of the division -/

/-- A bit falls out at the top. -/
theorem toPoly_shiftLeft (x : BitVec w) :
    toPoly (x <<< 1) = X * toPoly x + C (coefficient x.msb) * X ^ w := by
  ext i
  rw [coeff_add, coeff_C_mul, coeff_X_pow, coeff_toPoly,
    BitVec.getLsbD_shiftLeft]
  cases i with
  | zero =>
      cases w with
      | zero => simp [BitVec.msb, BitVec.getMsbD]
      | succ n => simp
  | succ i =>
      rw [coeff_X_mul, coeff_toPoly]
      rcases lt_trichotomy (i + 1) w with hlt | heq | hgt
      · simp [hlt, hlt.ne]
      · subst heq
        have htwo (a : ZMod 2) : a + a = 0 := CharTwo.add_self_eq_zero a
        rw [BitVec.msb_eq_getLsbD_last]
        simp [htwo]
      · rw [BitVec.getLsbD_of_ge x i (by omega)]
        simp [show ¬ i + 1 < w by omega, hgt.ne']

theorem toPoly_shift (x : BitVec w) :
    toPoly (shift poly x)
      = X * toPoly x + C (coefficient x.msb) * generator poly := by
  have hback : toPoly (if x.msb then poly else 0#w)
      = C (coefficient x.msb) * toPoly poly := by
    cases x.msb with
    | false => simp [toPoly_zero]
    | true => simp
  rw [shift, toPoly_xor, hback, toPoly_shiftLeft, generator]
  ring

theorem toPoly_placed {i : ℕ} (hi : i < w) (b : Bool) :
    toPoly (placed b i : BitVec w) = C (coefficient b) * X ^ i := by
  cases b with
  | false => simp [placed, toPoly_zero]
  | true =>
      ext j
      rw [coeff_toPoly, coeff_C_mul, coeff_X_pow, placed, if_pos rfl,
        BitVec.getLsbD_twoPow]
      by_cases hj : j = i
      · simp [hj, hi]
      · simp [hj, show i ≠ j from fun h => hj h.symm]

/-- Up to multiples of the generator, a bit goes in behind what was there. -/
theorem exists_toPoly_feed (hw : 0 < w) (poly x : BitVec w) (b : Bool) :
    ∃ q, toPoly (feed poly x b)
      = X * toPoly x + C (coefficient b) * X ^ w + q * generator poly := by
  have htop : (X : (ZMod 2)[X]) * X ^ (w - 1) = X ^ w := by
    rw [← pow_succ', Nat.sub_add_cancel hw]
  refine ⟨C (coefficient (x ^^^ placed b (w - 1)).msb), ?_⟩
  rw [feed, toPoly_shift, toPoly_xor, toPoly_placed (by omega), ← htop]
  ring

theorem exists_toPoly_feedAll (hw : 0 < w) (poly x : BitVec w)
    (bits : List Bool) :
    ∃ q, toPoly (feedAll poly x bits)
      = X ^ bits.length * toPoly x + X ^ w * messagePoly bits
        + q * generator poly := by
  induction bits generalizing x with
  | nil => exact ⟨0, by simp [feedAll, messagePoly]⟩
  | cons b bits ih =>
      obtain ⟨q, hq⟩ := exists_toPoly_feed hw poly x b
      obtain ⟨q', hq'⟩ := ih (feed poly x b)
      refine ⟨X ^ bits.length * q + q', ?_⟩
      rw [feedAll_cons, hq', hq, messagePoly, List.length_cons]
      ring

/-- The register ends as the remainder. -/
theorem toPoly_feedAll (hw : 0 < w) (x : BitVec w) (bits : List Bool) :
    toPoly (feedAll poly x bits)
      = (X ^ bits.length * toPoly x + X ^ w * messagePoly bits)
        %ₘ generator poly := by
  obtain ⟨q, hq⟩ := exists_toPoly_feedAll hw poly x bits
  have hdivision := div_modByMonic_unique (-q) (toPoly (feedAll poly x bits))
    (generator_monic poly)
    (f := X ^ bits.length * toPoly x + X ^ w * messagePoly bits)
    ⟨by rw [hq]; ring, by
      rw [degree_generator]
      exact degree_toPoly_lt _⟩
  exact hdivision.2.symm

end Nexus.Lib
