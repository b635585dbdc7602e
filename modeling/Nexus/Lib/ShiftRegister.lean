import Mathlib

/-!
# Feedback shift registers

A register of `w` bits takes in a message bit by bit: the bit is added to the
highest place, everything moves up by one, and what falls out at the top comes
back as a polynomial. Addition is exclusive or, so two messages fed to the same
register differ by what their difference alone would have left in it. With a
constant term in the polynomial no shift loses anything, and a difference of at
most `w` bits in a row never vanishes; with an odd number of terms the register
carries the parity of all it was fed.
-/

namespace Nexus.Lib

/-! ## Parity -/

/-- Whether a list of bits holds an odd number of ones. -/
def parity (bits : List Bool) : Bool := bits.foldr xor false

@[simp] theorem parity_nil : parity [] = false := rfl

@[simp] theorem parity_cons (b : Bool) (bits : List Bool) :
    parity (b :: bits) = (b ^^ parity bits) := rfl

theorem parity_append (bits bits' : List Bool) :
    parity (bits ++ bits') = (parity bits ^^ parity bits') := by
  induction bits with
  | nil => simp
  | cons b bits ih => simp [ih]

theorem parity_eq_true_iff (bits : List Bool) :
    parity bits = true ↔ Odd (bits.count true) := by
  induction bits with
  | nil => simp
  | cons b bits ih =>
      cases b with
      | false => simpa using ih
      | true =>
          rw [parity_cons, Bool.true_xor, List.count_cons_self,
            Nat.odd_add_one, ← ih, Bool.not_eq_true', Bool.not_eq_true]

theorem parity_zipWith_xor {bits bits' : List Bool}
    (h : bits.length = bits'.length) :
    parity (List.zipWith xor bits bits') = (parity bits ^^ parity bits') := by
  induction bits generalizing bits' with
  | nil =>
      cases bits' with
      | nil => rfl
      | cons b' bits' => cases h
  | cons b bits ih =>
      cases bits' with
      | nil => cases h
      | cons b' bits' =>
          rw [List.zipWith_cons_cons, parity_cons, parity_cons, parity_cons,
            ih (Nat.succ.inj h)]
          cases b <;> cases b' <;> simp

/-! ## The register -/

section

variable {w : ℕ} (poly : BitVec w)

/-- A place of the register, or nothing. -/
def placed (b : Bool) (i : ℕ) : BitVec w :=
  if b then BitVec.twoPow w i else 0#w

/-- All bits move up, and the highest comes back as the polynomial. -/
def shift (x : BitVec w) : BitVec w :=
  (x <<< 1) ^^^ (if x.msb then poly else 0#w)

/-- One bit of a message. -/
def feed (x : BitVec w) (b : Bool) : BitVec w :=
  shift poly (x ^^^ placed b (w - 1))

/-- A message. -/
def feedAll (x : BitVec w) (bits : List Bool) : BitVec w :=
  bits.foldl (feed poly) x

variable {poly} {x y : BitVec w} {bits bits' : List Bool}

theorem feedAll_cons (x : BitVec w) (b : Bool) (bits : List Bool) :
    feedAll poly x (b :: bits) = feedAll poly (feed poly x b) bits := rfl

theorem feedAll_append (x : BitVec w) (bits bits' : List Bool) :
    feedAll poly x (bits ++ bits')
      = feedAll poly (feedAll poly x bits) bits' :=
  List.foldl_append

/-! ## Addition -/

theorem xor_xor_xor_comm (a b c d : BitVec w) :
    (a ^^^ b) ^^^ (c ^^^ d) = (a ^^^ c) ^^^ (b ^^^ d) := by
  ac_rfl

theorem shift_xor (x y : BitVec w) :
    shift poly (x ^^^ y) = shift poly x ^^^ shift poly y := by
  have hback : (if (x ^^^ y).msb then poly else 0#w)
      = (if x.msb then poly else 0#w) ^^^ (if y.msb then poly else 0#w) := by
    rw [BitVec.msb_xor]
    cases x.msb <;> cases y.msb <;> simp
  rw [shift, shift, shift, hback, BitVec.shiftLeft_xor_distrib,
    xor_xor_xor_comm]

theorem placed_xor (b b' : Bool) (i : ℕ) :
    (placed (b ^^ b') i : BitVec w) = placed b i ^^^ placed b' i := by
  cases b <;> cases b' <;> simp [placed]

theorem feed_xor (x y : BitVec w) (b b' : Bool) :
    feed poly (x ^^^ y) (b ^^ b') = feed poly x b ^^^ feed poly y b' := by
  rw [feed, feed, feed, ← shift_xor, placed_xor, xor_xor_xor_comm]

theorem feedAll_xor (h : bits.length = bits'.length) :
    feedAll poly (x ^^^ y) (List.zipWith xor bits bits')
      = feedAll poly x bits ^^^ feedAll poly y bits' := by
  induction bits generalizing bits' x y with
  | nil =>
      cases bits' with
      | nil => rfl
      | cons b' bits' => cases h
  | cons b bits ih =>
      cases bits' with
      | nil => cases h
      | cons b' bits' =>
          rw [List.zipWith_cons_cons, feedAll_cons, feedAll_cons,
            feedAll_cons, feed_xor, ih (Nat.succ.inj h)]

theorem iterate_shift_xor (n : ℕ) (x y : BitVec w) :
    (shift poly)^[n] (x ^^^ y) = (shift poly)^[n] x ^^^ (shift poly)^[n] y := by
  induction n generalizing x y with
  | zero => rfl
  | succ n ih =>
      rw [Function.iterate_succ_apply, Function.iterate_succ_apply,
        Function.iterate_succ_apply, shift_xor, ih]

/-! ## Bursts -/

/-- With a constant term, no shift loses anything. -/
theorem eq_zero_of_shift (hodd : poly.getLsbD 0 = true)
    (h : shift poly x = 0#w) : x = 0#w := by
  have hbit (i : ℕ) : (shift poly x).getLsbD i = false := by
    rw [h]
    exact BitVec.getLsbD_zero
  have hmsb : x.msb = false := by
    have hlow := hbit 0
    rw [shift, BitVec.getLsbD_xor] at hlow
    cases hx : x.msb with
    | false => rfl
    | true => simp [hx, hodd] at hlow
  apply BitVec.eq_of_getLsbD_eq
  intro i hi
  rw [BitVec.getLsbD_zero]
  by_cases htop : i = w - 1
  · rw [htop, ← BitVec.msb_eq_getLsbD_last]
    exact hmsb
  · have hnext := hbit (i + 1)
    have hlt : i + 1 < w := by omega
    rw [shift, hmsb, BitVec.getLsbD_xor] at hnext
    rw [BitVec.getLsbD_shiftLeft] at hnext
    simpa [hlt] using hnext

theorem eq_zero_of_iterate_shift (hodd : poly.getLsbD 0 = true) {n : ℕ}
    (h : (shift poly)^[n] x = 0#w) : x = 0#w := by
  induction n with
  | zero => exact h
  | succ n ih =>
      rw [Function.iterate_succ_apply'] at h
      exact ih (eq_zero_of_shift hodd h)

theorem shift_zero : shift poly 0#w = 0#w := by
  simp [shift]

theorem iterate_shift_zero (n : ℕ) : (shift poly)^[n] 0#w = 0#w :=
  Function.iterate_fixed shift_zero n

theorem feedAll_replicate_false (x : BitVec w) (n : ℕ) :
    feedAll poly x (List.replicate n false) = (shift poly)^[n] x := by
  induction n generalizing x with
  | zero => rfl
  | succ n ih =>
      have hfeed : feed poly x false = shift poly x := by
        rw [feed, placed, if_neg Bool.false_ne_true]
        simp
      rw [List.replicate_succ, feedAll_cons, ih, hfeed,
        Function.iterate_succ_apply]

theorem msb_twoPow_of_lt {i : ℕ} (hi : i + 1 < w) :
    (BitVec.twoPow w i).msb = false := by
  rw [BitVec.msb_eq_getLsbD_last, BitVec.getLsbD_twoPow]
  simp only [Bool.and_eq_false_iff, decide_eq_false_iff_not]
  omega

/-- A single bit below the top moves up. -/
theorem shift_twoPow {i : ℕ} (hi : i + 1 < w) :
    shift poly (BitVec.twoPow w i) = BitVec.twoPow w (i + 1) := by
  rw [shift, msb_twoPow_of_lt hi, if_neg Bool.false_ne_true, BitVec.twoPow_eq,
    BitVec.twoPow_eq, BitVec.xor_zero, ← BitVec.shiftLeft_add]

theorem iterate_shift_placed {k : ℕ} (hk : k < w) (b : Bool) :
    (shift poly)^[k] (placed b (w - 1 - k)) = placed b (w - 1) := by
  cases b with
  | false => exact iterate_shift_zero k
  | true =>
      show (shift poly)^[k] (BitVec.twoPow w (w - 1 - k)) = BitVec.twoPow w _
      induction k with
      | zero => rfl
      | succ k ih =>
          have hnext : w - 1 - (k + 1) + 1 = w - 1 - k := by omega
          rw [Function.iterate_succ_apply, shift_twoPow (by omega), hnext,
            ih (by omega)]

/-- The bits of a message from place `k` below the top on down. -/
def place : ℕ → List Bool → BitVec w
  | _, [] => 0#w
  | k, b :: bits => placed b (w - 1 - k) ^^^ place (k + 1) bits

/-- Up to `w` bits may be put into the register all at once, as long as it is
shifted as often. -/
theorem feedAll_iterate_shift {k : ℕ} (h : k + bits.length ≤ w)
    (x : BitVec w) :
    feedAll poly ((shift poly)^[k] x) bits
      = (shift poly)^[k + bits.length] (x ^^^ place k bits) := by
  induction bits generalizing k x with
  | nil =>
      rw [place, List.length_nil, Nat.add_zero]
      simp [feedAll]
  | cons b bits ih =>
      rw [List.length_cons] at h
      have hfeed : feed poly ((shift poly)^[k] x) b
          = (shift poly)^[k + 1] (x ^^^ placed b (w - 1 - k)) := by
        rw [feed, ← iterate_shift_placed (show k < w by omega),
          ← iterate_shift_xor, Function.iterate_succ_apply']
      rw [feedAll_cons, hfeed, ih (by omega), place, List.length_cons,
        BitVec.xor_assoc, Nat.add_right_comm, Nat.add_assoc]

/-- Nothing is placed above. -/
theorem getLsbD_place_of_le {k i : ℕ} (h : k + bits.length ≤ w)
    (hi : w - k ≤ i) : (place k bits : BitVec w).getLsbD i = false := by
  induction bits generalizing k with
  | nil => exact BitVec.getLsbD_zero
  | cons b bits ih =>
      rw [List.length_cons] at h
      rw [place, BitVec.getLsbD_xor, ih (by omega) (by omega),
        Bool.xor_false]
      cases b with
      | false => exact BitVec.getLsbD_zero
      | true =>
          show (BitVec.twoPow w (w - 1 - k)).getLsbD i = false
          rw [BitVec.getLsbD_twoPow]
          simp only [Bool.and_eq_false_iff, decide_eq_false_iff_not]
          omega

theorem not_mem_of_place_eq_zero {k : ℕ} (h : k + bits.length ≤ w)
    (hzero : (place k bits : BitVec w) = 0#w) : true ∉ bits := by
  induction bits generalizing k with
  | nil => exact List.not_mem_nil
  | cons b bits ih =>
      rw [List.length_cons] at h
      have hb : b = false := by
        have hbit : (place k (b :: bits) : BitVec w).getLsbD (w - 1 - k)
            = false := by
          rw [hzero]
          exact BitVec.getLsbD_zero
        rw [place, BitVec.getLsbD_xor, getLsbD_place_of_le (by omega)
          (by omega), Bool.xor_false] at hbit
        cases b with
        | false => rfl
        | true =>
            have htop : (BitVec.twoPow w (w - 1 - k)).getLsbD (w - 1 - k)
                = false := hbit
            rw [BitVec.getLsbD_twoPow] at htop
            simp only [decide_true, Bool.and_true,
              decide_eq_false_iff_not] at htop
            omega
      subst hb
      have hrest : (place (k + 1) bits : BitVec w) = 0#w := by
        rw [place, placed, if_neg Bool.false_ne_true] at hzero
        simpa using hzero
      rw [List.mem_cons]
      rintro (h' | h')
      · cases h'
      · exact ih (by omega) hrest h'

/-- A burst that fits the register leaves something in it, however long a
message goes on without another difference. -/
theorem feedAll_burst_ne_zero (hodd : poly.getLsbD 0 = true)
    (hlen : bits.length ≤ w) (hburst : true ∈ bits) (before behind : ℕ) :
    feedAll poly 0#w (List.replicate before false ++ bits
      ++ List.replicate behind false) ≠ 0#w := by
  intro h
  have hbits : feedAll poly ((shift poly)^[0] 0#w) bits
      = (shift poly)^[0 + bits.length] (0#w ^^^ place 0 bits) :=
    feedAll_iterate_shift (by rw [Nat.zero_add]; exact hlen) 0#w
  rw [feedAll_append, feedAll_append, feedAll_replicate_false 0#w,
    iterate_shift_zero, feedAll_replicate_false] at h
  have hplaced := eq_zero_of_iterate_shift hodd
    (hbits ▸ eq_zero_of_iterate_shift hodd h)
  rw [BitVec.zero_xor] at hplaced
  exact not_mem_of_place_eq_zero (by rw [Nat.zero_add]; exact hlen) hplaced
    hburst

/-! ## The parity of the register -/

/-- The parity of the bits in the register. -/
def parityOf (x : BitVec w) : Bool := parity ((List.range w).map x.getLsbD)

theorem map_getLsbD_xor (x y : BitVec w) (n : ℕ) :
    (List.range n).map (x ^^^ y).getLsbD
      = List.zipWith xor ((List.range n).map x.getLsbD)
        ((List.range n).map y.getLsbD) := by
  rw [List.zipWith_map, List.zipWith_self]
  refine List.map_congr_left fun i _ => ?_
  exact BitVec.getLsbD_xor

theorem parityOf_xor (x y : BitVec w) :
    parityOf (x ^^^ y) = (parityOf x ^^ parityOf y) := by
  rw [parityOf, map_getLsbD_xor, parity_zipWith_xor]
  · rfl
  · rw [List.length_map, List.length_map]

theorem parityOf_zero : parityOf 0#w = false := by
  have h := parityOf_xor 0#w 0#w
  rw [BitVec.xor_self, Bool.xor_self] at h
  exact h

/-- What falls out at the top is missing below. -/
theorem parityOf_shiftLeft (x : BitVec w) :
    parityOf (x <<< 1) = (parityOf x ^^ x.msb) := by
  cases w with
  | zero => rfl
  | succ n =>
      have hlow : (List.range n).map (fun i => (x <<< 1).getLsbD (i + 1))
          = (List.range n).map x.getLsbD := by
        refine List.map_congr_left fun i hi => ?_
        have hlt : i < n := List.mem_range.mp hi
        rw [BitVec.getLsbD_shiftLeft]
        simp [hlt]
      have hzero : (x <<< 1).getLsbD 0 = false := by
        rw [BitVec.getLsbD_shiftLeft]
        simp
      have hleft : parityOf (x <<< 1)
          = parity ((List.range n).map x.getLsbD) := by
        rw [parityOf, List.range_succ_eq_map, List.map_cons, List.map_map,
          parity_cons, hzero, Bool.false_xor]
        exact congrArg parity hlow
      have hright : parityOf x
          = (parity ((List.range n).map x.getLsbD) ^^ x.msb) := by
        rw [parityOf, List.range_succ, List.map_append, parity_append,
          BitVec.msb_eq_getLsbD_last]
        simp
      rw [hleft, hright, Bool.xor_assoc, Bool.xor_self, Bool.xor_false]

/-- With an odd number of terms below the highest, a shift keeps the
parity. -/
theorem parityOf_shift (hterms : parityOf poly = true) (x : BitVec w) :
    parityOf (shift poly x) = parityOf x := by
  rw [shift, parityOf_xor, parityOf_shiftLeft]
  cases x.msb with
  | false => simp [parityOf_zero]
  | true => simp [hterms]

theorem parityOf_one (hw : 0 < w) : parityOf 1#w = true := by
  obtain ⟨n, rfl⟩ := Nat.exists_eq_succ_of_ne_zero hw.ne'
  have hrest : (List.range n).map (fun i => (1#(n + 1)).getLsbD (i + 1))
      = List.replicate n false := by
    rw [List.eq_replicate_iff]
    refine ⟨by rw [List.length_map, List.length_range], ?_⟩
    intro b hb
    obtain ⟨i, -, rfl⟩ := List.mem_map.mp hb
    simp
  have hzeros (n : ℕ) : parity (List.replicate n false) = false := by
    induction n with
    | zero => rfl
    | succ n ih => rw [List.replicate_succ, parity_cons, ih, Bool.xor_false]
  rw [parityOf, List.range_succ_eq_map, List.map_cons, List.map_map,
    parity_cons]
  exact (congrArg _ ((congrArg parity hrest).trans (hzeros n))).trans (by simp)

theorem parityOf_placed {i : ℕ} (hi : i < w) (b : Bool) :
    parityOf (placed b i : BitVec w) = b := by
  cases b with
  | false => exact parityOf_zero
  | true =>
      show parityOf (BitVec.twoPow w i) = true
      induction i with
      | zero =>
          rw [BitVec.twoPow_zero]
          exact parityOf_one hi
      | succ i ih =>
          rw [BitVec.twoPow_eq, BitVec.shiftLeft_add, ← BitVec.twoPow_eq,
            parityOf_shiftLeft, msb_twoPow_of_lt hi, ih (by omega)]
          rfl

/-- The register carries the parity of the message. -/
theorem parityOf_feedAll (hw : 0 < w) (hterms : parityOf poly = true)
    (x : BitVec w) (bits : List Bool) :
    parityOf (feedAll poly x bits) = (parityOf x ^^ parity bits) := by
  induction bits generalizing x with
  | nil => simp [feedAll]
  | cons b bits ih =>
      rw [feedAll_cons, ih, feed, parityOf_shift hterms, parityOf_xor,
        parityOf_placed (by omega), parity_cons, Bool.xor_assoc]

end

end Nexus.Lib
