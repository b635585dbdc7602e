import Mathlib

/-!
# Memory as cells

A memory is what its cells hold, by address. Reading takes a slice of it;
writing puts a list there. What was put at one place is read back there, and
every slice that lies aside is read as before. Two writes one behind the other
are one write.

`memcpy` and `memmove` are a slice that is put somewhere else: the slice is read
before anything is written.
-/

namespace Nexus.Lib.Memory

variable {α : Type*}

/-- The `n` cells from `a` on. -/
def slice (m : ℕ → α) (a n : ℕ) : List α :=
  (List.range n).map fun i => m (a + i)

/-- The memory with `xs` written from `a` on. -/
def put (m : ℕ → α) (a : ℕ) (xs : List α) : ℕ → α :=
  fun i => if a ≤ i then (xs[i - a]?).getD (m i) else m i

/-- `n` cells moved from `a` to `b`. -/
def move (m : ℕ → α) (b a n : ℕ) : ℕ → α := put m b (slice m a n)

variable {m m' : ℕ → α} {a b n k : ℕ} {xs ys : List α}

/-! ## Slices -/

@[simp] theorem length_slice : (slice m a n).length = n := by
  simp [slice]

@[simp] theorem slice_zero : slice m a 0 = [] := rfl

theorem getElem_slice {i : ℕ} (h : i < (slice m a n).length) :
    (slice m a n)[i] = m (a + i) := by
  simp [slice]

theorem slice_add : slice m a (n + k) = slice m a n ++ slice m (a + n) k := by
  simp [slice, List.range_add, Nat.add_assoc]

theorem slice_succ : slice m a (n + 1) = m a :: slice m (a + 1) n := by
  rw [Nat.add_comm, slice_add]
  rfl

theorem slice_concat : slice m a (n + 1) = slice m a n ++ [m (a + n)] :=
  slice_add

theorem slice_congr (h : ∀ i < n, m (a + i) = m' (a + i)) :
    slice m a n = slice m' a n := by
  refine List.map_congr_left ?_
  intro i hi
  exact h i (List.mem_range.mp hi)

theorem slice_inj (h : slice m a n = slice m' a n) {i : ℕ} (hi : i < n) :
    m (a + i) = m' (a + i) := by
  have hget : (slice m a n)[i]? = (slice m' a n)[i]? := by
    rw [h]
  simpa [slice, hi] using hget

theorem slice_drop {i : ℕ} : (slice m a n).drop i = slice m (a + i) (n - i) := by
  refine List.ext_getElem (by simp) ?_
  intro j hj hj'
  rw [List.getElem_drop, getElem_slice, getElem_slice, Nat.add_assoc]

/-- A slice of a slice. -/
theorem slice_drop_take {i j : ℕ} (h : i + j ≤ n) :
    ((slice m a n).drop i).take j = slice m (a + i) j := by
  have hn : n - i = j + (n - i - j) := by omega
  rw [slice_drop, hn, slice_add, List.take_left' length_slice]

/-! ## Writing -/

theorem put_of_lt {i : ℕ} (h : i < a) : put m a xs i = m i :=
  if_neg (by omega)

theorem put_of_le {i : ℕ} (h : a + xs.length ≤ i) : put m a xs i = m i := by
  have hnone : xs[i - a]? = none := by
    rw [List.getElem?_eq_none_iff]
    omega
  simp [put, hnone]

theorem put_within {i : ℕ} (h : i < xs.length) :
    put m a xs (a + i) = xs[i] := by
  simp [put, h]

@[simp] theorem put_nil : put m a [] = m := by
  funext i
  simp [put]

@[simp] theorem slice_put_self : slice (put m a xs) a xs.length = xs := by
  refine List.ext_getElem length_slice ?_
  intro i hi hi'
  rw [getElem_slice, put_within hi']

theorem slice_put_of_before (h : a + n ≤ b) :
    slice (put m b xs) a n = slice m a n := by
  refine slice_congr ?_
  intro i hi
  exact put_of_lt (by omega)

theorem slice_put_of_behind (h : b + xs.length ≤ a) :
    slice (put m b xs) a n = slice m a n := by
  refine slice_congr ?_
  intro i hi
  exact put_of_le (by omega)

theorem put_append : put m a (xs ++ ys) = put (put m a xs) (a + xs.length) ys := by
  funext i
  rcases Nat.lt_or_ge i a with hlt | hle
  · rw [put_of_lt hlt, put_of_lt (by omega), put_of_lt hlt]
  rcases Nat.lt_or_ge i (a + xs.length) with hin | hbehind
  · rw [put_of_lt hin]
    simp [put, hle, List.getElem?_append_left (show i - a < xs.length by omega)]
  · have hsub : i - a - xs.length = i - (a + xs.length) := by omega
    rw [put, if_pos hle, List.getElem?_append_right (by omega), hsub, put,
      if_pos hbehind, put_of_le (by omega)]

/-- What a memory holds anyway changes nothing. -/
theorem put_slice : put m a (slice m a n) = m := by
  funext i
  rcases Nat.lt_or_ge i a with hlt | hle
  · exact put_of_lt hlt
  rcases Nat.lt_or_ge i (a + n) with hin | hbehind
  · obtain ⟨j, rfl⟩ := Nat.exists_eq_add_of_le hle
    have hj : j < (slice m a n).length := by
      rw [length_slice]
      omega
    rw [put_within hj, getElem_slice]
  · exact put_of_le (by simpa using hbehind)

/-- A slice that a write begins. -/
theorem slice_put_append (h : n = xs.length + k) :
    slice (put m a xs) a n = xs ++ slice m (a + xs.length) k := by
  rw [h, slice_add, slice_put_self, slice_put_of_behind le_rfl]

/-- A slice that a write prolongs. -/
theorem slice_put_behind : slice (put m (a + n) xs) a (n + xs.length)
    = slice m a n ++ xs := by
  rw [slice_add, slice_put_of_before le_rfl, slice_put_self]

theorem put_congr_of_lt {i : ℕ} (h : m i = m' i) :
    put m a xs i = put m' a xs i := by
  simp [put, h]

end Nexus.Lib.Memory
