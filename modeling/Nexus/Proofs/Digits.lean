import Nexus.Keycode.Full
import Nexus.Lib.Positional

/-!
# Reading digit streams

A digit stream over a frame of decimal keys, at a position that has not run
past the end, pulls the numbers its digits spell. The two `uint16_t` positions
of the source do not come near their limits: a frame has at most thirty keys.
-/

namespace Nexus.Util

open Nexus.Lib

section

variable {s : Digits} {n : ℕ}

/-- Where a pull within the keys leaves the stream. -/
theorem digitsPullUint32_position (hshort : s.length < 65536)
    (hle : s.position + n ≤ s.length) :
    (digitsPullUint32 s n).2 = { s with position := s.position + n } := by
  simp only [digitsPullUint32, Digits.mk.injEq, true_and]
  omega

theorem digitsPullUint8_position (hshort : s.length < 65536)
    (hle : s.position + n ≤ s.length) :
    (digitsPullUint8 s n).2 = { s with position := s.position + n } := by
  unfold digitsPullUint8
  rw [if_neg (by rw [digitsRemaining]; omega)]
  simp only []
  split <;> exact digitsPullUint32_position hshort hle

/-- A pull of a byte, when the number it reads is one. -/
theorem digitsPullUint8_value (hshort : s.length < 65536)
    (hle : s.position + n ≤ s.length) {v : ℕ} (hv : v ≤ 255)
    (hvalue : (charsToUint32 s.chars s.position n).toNat = v) :
    (digitsPullUint8 s n).1.toNat = v := by
  have hgt : ¬ charsToUint32 s.chars s.position n > 255 := by
    rw [gt_iff_lt, UInt32.lt_iff_toNat_lt, hvalue]
    show ¬ 255 < _
    omega
  rw [digitsPullUint8, if_neg (by rw [digitsRemaining]; omega)]
  dsimp only [digitsPullUint32]
  rw [if_neg hgt, UInt32.toNat_toUInt8, hvalue]
  omega

theorem skipDigits_position (hshort : s.length < 65536)
    (hle : s.position + n ≤ s.length) :
    Keycode.skipDigits n s = { s with position := s.position + n } := by
  induction n generalizing s with
  | zero => rfl
  | succ n ih =>
      rw [Keycode.skipDigits, digitsPullUint8_position hshort (by omega),
        ih (s := { s with position := s.position + 1 }) hshort
          (by show s.position + 1 + n ≤ s.length; omega)]
      show { s with position := s.position + 1 + n } = _
      congr 1
      omega

end

/-- Decimal digits as keys. -/
def ascii (digits : List ℕ) : List Key := digits.map fun d : ℕ => 48 + (d : ℤ)

@[simp] theorem length_ascii (digits : List ℕ) :
    (ascii digits).length = digits.length := by
  simp [ascii]

/-- The stream's keys are these digits. -/
structure Digits.Holds (s : Digits) (digits : List ℕ) : Prop where
  length : s.length = digits.length
  short : digits.length < 65536
  lt : ∀ d ∈ digits, d < 10
  chars : ∀ (i : ℕ) (h : i < digits.length), s.chars i = 48 + (digits[i] : ℤ)

theorem digitsInit_holds (digits : List ℕ) (hshort : digits.length < 65536)
    (hlt : ∀ d ∈ digits, d < 10) (stale : ℕ → Key) :
    (digitsInit (ascii digits) stale).Holds digits where
  length := length_ascii digits
  short := hshort
  lt := hlt
  chars := by
    intro i hi
    show (ascii digits).getD i (stale i) = _
    rw [List.getD_eq_getElem _ _ (by simpa using hi)]
    simp only [ascii, List.getElem_map]

/-- `_chars_to_uint32` on digits: their value, as much of it as 32 bits hold. -/
theorem charsToUint32_mod (chars : ℕ → Key) (start : ℕ) (digits : List ℕ)
    (hlt : ∀ d ∈ digits, d < 10)
    (hchars : ∀ (i : ℕ) (h : i < digits.length),
      chars (start + i) = 48 + (digits[i] : ℤ)) :
    (charsToUint32 chars start digits.length).toNat
      = ofDigits 10 digits % 2 ^ 32 := by
  induction digits using List.reverseRecOn with
  | nil => rfl
  | append_singleton digits d ih =>
      have hinit := ih (fun d' hd' => hlt d' (by simp [hd'])) fun i hi => by
        have := hchars i (by simp; omega)
        rwa [List.getElem_append_left hi] at this
      have hlast : chars (start + digits.length) = 48 + (d : ℤ) := by
        have := hchars digits.length (by simp)
        simpa using this
      have hd : d < 10 := hlt d (by simp)
      have hdigit : (UInt32.ofInt (48 + (d : ℤ) - 48)).toNat = d := by
        rw [add_sub_cancel_left]
        rw [UInt32.ofInt, UInt32.toNat_ofNat']
        omega
      rw [List.length_append, List.length_singleton, charsToUint32, hlast,
        UInt32.toNat_add, UInt32.toNat_mul, hinit, hdigit, ofDigits_append]
      show (ofDigits 10 digits % 2 ^ 32 * 10 % 2 ^ 32 + d) % 2 ^ 32
        = (ofDigits 10 digits * 10 ^ 1 + (10 * 0 + d)) % 2 ^ 32
      omega

section

variable {s : Digits} {digits : List ℕ} {n : ℕ}

namespace Digits.Holds

theorem move (h : s.Holds digits) (p : ℕ) :
    Holds { s with position := p } digits :=
  ⟨h.length, h.short, h.lt, h.chars⟩

theorem remaining (h : s.Holds digits) (hpos : s.position ≤ digits.length) :
    digitsRemaining s = digits.length - s.position := by
  have := h.short
  rw [digitsRemaining, h.length]
  omega

/-- The number in the next `n` digits, modulo the width of the result. -/
theorem value_mod (h : s.Holds digits)
    (hfits : s.position + n ≤ digits.length) :
    (charsToUint32 s.chars s.position n).toNat
      = ofDigits 10 ((digits.drop s.position).take n) % 2 ^ 32 := by
  have hlen : ((digits.drop s.position).take n).length = n := by
    simp; omega
  rw [← charsToUint32_mod s.chars s.position
    ((digits.drop s.position).take n), hlen]
  · intro d hd
    exact h.lt d (List.mem_of_mem_drop (List.mem_of_mem_take hd))
  · intro i hi
    rw [hlen] at hi
    simp only [List.getElem_take, List.getElem_drop]
    exact h.chars (s.position + i) (by omega)

/-- The number in the next `n` digits, when it cannot be too large. -/
theorem value (h : s.Holds digits) (hn : n ≤ 9)
    (hfits : s.position + n ≤ digits.length) :
    (charsToUint32 s.chars s.position n).toNat
      = ofDigits 10 ((digits.drop s.position).take n) := by
  have hbound : ofDigits 10 ((digits.drop s.position).take n) < 10 ^ 9 := by
    refine (ofDigits_lt fun d hd =>
      h.lt d (List.mem_of_mem_drop (List.mem_of_mem_take hd))).trans_le ?_
    exact Nat.pow_le_pow_right (by omega) (by simp; omega)
  rw [h.value_mod hfits]
  exact Nat.mod_eq_of_lt (hbound.trans (by norm_num))

theorem pullUint32 (h : s.Holds digits) (hn : n ≤ 9)
    (hfits : s.position + n ≤ digits.length) :
    (digitsPullUint32 s n).1.toNat
        = ofDigits 10 ((digits.drop s.position).take n) ∧
      (digitsPullUint32 s n).2 = { s with position := s.position + n } := by
  have hshort := h.short
  rw [← h.length] at hfits hshort
  exact ⟨h.value hn (h.length ▸ hfits),
    digitsPullUint32_position hshort hfits⟩

theorem pullUint8 (h : s.Holds digits) (hn : n ≤ 2)
    (hfits : s.position + n ≤ digits.length) :
    (digitsPullUint8 s n).1.toNat
        = ofDigits 10 ((digits.drop s.position).take n) ∧
      (digitsPullUint8 s n).2 = { s with position := s.position + n } := by
  have hlt : ofDigits 10 ((digits.drop s.position).take n) < 10 ^ 2 := by
    refine (ofDigits_lt fun d hd =>
      h.lt d (List.mem_of_mem_drop (List.mem_of_mem_take hd))).trans_le ?_
    exact Nat.pow_le_pow_right (by omega) (by simp; omega)
  have hvalue := h.value (n := n) (by omega) hfits
  have hshort := h.short
  rw [← h.length] at hfits hshort
  exact ⟨digitsPullUint8_value hshort hfits (by omega) hvalue,
    digitsPullUint8_position hshort hfits⟩

/-- Skipping digits one at a time. -/
theorem skip (h : s.Holds digits)
    (hfits : s.position + n ≤ digits.length) :
    Keycode.skipDigits n s = { s with position := s.position + n } := by
  have hshort := h.short
  rw [← h.length] at hfits hshort
  exact skipDigits_position hshort hfits

end Digits.Holds

end

/-! ## Stale entries -/

/-- Two streams over the same keys, whatever lies behind the keys. -/
structure Digits.Agree (s s' : Digits) : Prop where
  length : s'.length = s.length
  position : s'.position = s.position
  chars : ∀ i < s.length, s'.chars i = s.chars i

theorem digitsInit_agree (keys : List Key) (stale stale' : ℕ → Key) :
    (digitsInit keys stale).Agree (digitsInit keys stale') where
  length := rfl
  position := rfl
  chars := by
    intro i hi
    show keys.getD i (stale' i) = keys.getD i (stale i)
    rw [List.getD_eq_getElem _ _ hi, List.getD_eq_getElem _ _ hi]

theorem charsToUint32_congr {chars chars' : ℕ → Key} {start count : ℕ}
    (h : ∀ i < count, chars' (start + i) = chars (start + i)) :
    charsToUint32 chars' start count = charsToUint32 chars start count := by
  induction count with
  | zero => rfl
  | succ count ih =>
      rw [charsToUint32, charsToUint32, h count (by omega),
        ih fun i hi => h i (by omega)]

namespace Digits.Agree

variable {s s' : Digits} {n : ℕ}

theorem remaining (h : s.Agree s') :
    digitsRemaining s' = digitsRemaining s := by
  rw [digitsRemaining, digitsRemaining, h.length, h.position]

/-- Pulling from within the keys. -/
theorem pullUint32 (h : s.Agree s') (hle : s.position + n ≤ s.length) :
    (digitsPullUint32 s' n).1 = (digitsPullUint32 s n).1 ∧
      (digitsPullUint32 s n).2.Agree (digitsPullUint32 s' n).2 := by
  refine ⟨?_, h.length, ?_, h.chars⟩
  · simp only [digitsPullUint32, h.position]
    exact charsToUint32_congr fun i hi => h.chars _ (by omega)
  · simp only [digitsPullUint32, h.position]

/-- A checked pull stays within the keys by itself. -/
theorem pullUint8 (h : s.Agree s') (hshort : s.length < 65536)
    (hpos : s.position ≤ s.length) :
    (digitsPullUint8 s' n).1 = (digitsPullUint8 s n).1 ∧
      (digitsPullUint8 s n).2.Agree (digitsPullUint8 s' n).2 := by
  unfold digitsPullUint8
  rw [h.remaining]
  by_cases hunder : digitsRemaining s < n
  · rw [if_pos hunder, if_pos hunder]
    exact ⟨rfl, h⟩
  · have hle : s.position + n ≤ s.length := by
      rw [digitsRemaining] at hunder
      omega
    obtain ⟨hvalue, hrest⟩ := h.pullUint32 hle
    rw [if_neg hunder, if_neg hunder]
    simp only [hvalue]
    split <;> exact ⟨rfl, hrest⟩

/-- The same pulls, with where they leave the streams. -/
theorem pullUint32_within (h : s.Agree s') (hshort : s.length < 65536)
    (hle : s.position + n ≤ s.length) :
    (digitsPullUint32 s' n).1 = (digitsPullUint32 s n).1 ∧
      (digitsPullUint32 s n).2.Agree (digitsPullUint32 s' n).2 ∧
      (digitsPullUint32 s n).2.length = s.length ∧
      (digitsPullUint32 s n).2.position = s.position + n := by
  obtain ⟨hvalue, hrest⟩ := h.pullUint32 hle
  refine ⟨hvalue, hrest, ?_, ?_⟩ <;>
    rw [digitsPullUint32_position hshort hle]

theorem pullUint8_within (h : s.Agree s') (hshort : s.length < 65536)
    (hle : s.position + n ≤ s.length) :
    (digitsPullUint8 s' n).1 = (digitsPullUint8 s n).1 ∧
      (digitsPullUint8 s n).2.Agree (digitsPullUint8 s' n).2 ∧
      (digitsPullUint8 s n).2.length = s.length ∧
      (digitsPullUint8 s n).2.position = s.position + n := by
  obtain ⟨hvalue, hrest⟩ := h.pullUint8 (n := n) hshort (by omega)
  refine ⟨hvalue, hrest, ?_, ?_⟩ <;>
    rw [digitsPullUint8_position hshort hle]

theorem tryPullUint32 (h : s.Agree s') (hshort : s.length < 65536)
    (hpos : s.position ≤ s.length) (underrun : Bool) :
    (digitsTryPullUint32 s' n underrun).1
        = (digitsTryPullUint32 s n underrun).1 ∧
      (digitsTryPullUint32 s' n underrun).2.1
        = (digitsTryPullUint32 s n underrun).2.1 ∧
      (digitsTryPullUint32 s n underrun).2.2.Agree
        (digitsTryPullUint32 s' n underrun).2.2 ∧
      (digitsTryPullUint32 s n underrun).2.2.length = s.length ∧
      (digitsTryPullUint32 s n underrun).2.2.position ≤ s.length := by
  unfold digitsTryPullUint32
  rw [h.remaining]
  by_cases hunder : underrun = true ∨ digitsRemaining s < n
  · rw [if_pos hunder, if_pos hunder]
    exact ⟨rfl, rfl, h, rfl, hpos⟩
  · have hle : s.position + n ≤ s.length := by
      have hrem := (not_or.mp hunder).2
      rw [digitsRemaining] at hrem
      omega
    obtain ⟨hvalue, hrest, hlen, hpos'⟩ := h.pullUint32_within hshort hle
    rw [if_neg hunder, if_neg hunder]
    exact ⟨hvalue, rfl, hrest, hlen, hpos'.trans_le hle⟩

end Digits.Agree

/-- Skipping one digit after the other. -/
theorem skipDigits_agree {s s' : Digits} {n : ℕ} (h : s.Agree s')
    (hshort : s.length < 65536) (hle : s.position + n ≤ s.length) :
    (Keycode.skipDigits n s).Agree (Keycode.skipDigits n s') := by
  have hle' : s'.position + n ≤ s'.length := by
    rw [h.position, h.length]
    exact hle
  rw [skipDigits_position hshort hle,
    skipDigits_position (by rw [h.length]; exact hshort) hle', h.position]
  exact ⟨h.length, rfl, h.chars⟩

end Nexus.Util
