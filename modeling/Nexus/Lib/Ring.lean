import Mathlib

/-!
# Queues in a ring

So many cells, the first that is in use, and how many are. A new element goes
into the cell behind the last, counted around the ring; the first is taken out
by moving the first cell on. So the ring is a queue of at most so many elements:
posting puts an element at its end, or fails where it is full, and taking takes
the front.
-/

namespace Nexus.Lib

/-- A queue in a ring of `n` cells. -/
structure Ring (n : ℕ) (α : Type*) where
  cells : Fin n → α
  first : Fin n
  number : ℕ
  number_le : number ≤ n

namespace Ring

variable {n : ℕ} [NeZero n] {α : Type*}

/-- The cell so far behind the first. -/
def cell (r : Ring n α) (i : ℕ) : Fin n := r.first + Fin.ofNat n i

/-- The elements, in order. -/
def toList (r : Ring n α) : List α :=
  (List.range r.number).map fun i => r.cells (r.cell i)

/-- Nothing is in the ring. -/
def empty (x : α) : Ring n α := ⟨fun _ => x, 0, 0, Nat.zero_le _⟩

/-- Another element at the end, unless the ring is full. -/
def post (r : Ring n α) (x : α) : Option (Ring n α) :=
  if h : r.number < n then
    some
      { cells := Function.update r.cells (r.cell r.number) x
        first := r.first
        number := r.number + 1
        number_le := h }
  else none

/-- The first element, and the ring without it. -/
def take (r : Ring n α) : Option (α × Ring n α) :=
  if 0 < r.number then
    some (r.cells r.first,
      { r with
        first := r.first + 1
        number := r.number - 1
        number_le := (Nat.sub_le _ _).trans r.number_le })
  else none

variable {r r' : Ring n α} {x : α}

@[simp] theorem length_toList : r.toList.length = r.number := by
  simp [toList]

@[simp] theorem toList_empty : (empty x : Ring n α).toList = [] := rfl

theorem length_le (r : Ring n α) : r.toList.length ≤ n := by
  rw [length_toList]
  exact r.number_le

theorem cell_ne {i j : ℕ} (h : i < j) (hj : j < n) : r.cell i ≠ r.cell j := by
  intro heq
  have hval := congrArg Fin.val (add_left_cancel heq)
  rw [Fin.val_ofNat, Fin.val_ofNat, Nat.mod_eq_of_lt (h.trans hj),
    Nat.mod_eq_of_lt hj] at hval
  omega

/-- Posting puts an element at the end. -/
theorem toList_post (h : r.post x = some r') :
    r'.toList = r.toList ++ [x] := by
  simp only [post] at h
  split at h
  next hlt =>
    obtain rfl := Option.some.inj h
    rw [toList, toList, List.range_succ, List.map_append]
    congr 1
    · refine List.map_congr_left ?_
      intro i hi
      exact Function.update_of_ne (cell_ne (List.mem_range.mp hi) hlt) _ _
    · simp [cell]
  next => cases h

/-- Posting fails exactly where the ring is full. -/
theorem post_eq_none_iff : r.post x = none ↔ r.toList.length = n := by
  have hle := r.number_le
  simp only [post, length_toList]
  split
  next hlt => simp [hlt.ne]
  next hge => exact iff_of_true rfl (by omega)

/-- Taking takes the front. -/
theorem toList_take (h : r.take = some (x, r')) : r.toList = x :: r'.toList := by
  simp only [take] at h
  split at h
  next hpos =>
    obtain ⟨rfl, rfl⟩ := Prod.mk.inj (Option.some.inj h)
    have hrange : List.range r.number
        = 0 :: (List.range (r.number - 1)).map Nat.succ := by
      rw [← List.range_succ_eq_map, Nat.sub_add_cancel hpos]
    rw [toList, hrange, List.map_cons, List.map_map]
    congr 1
    · simp [cell]
    · refine List.map_congr_left ?_
      intro i _
      have hsucc : Fin.ofNat n (i + 1) = 1 + Fin.ofNat n i := by
        refine Fin.ext ?_
        simp [Fin.val_add, Nat.add_comm]
      have hcell : r.first + Fin.ofNat n (i + 1)
          = r.first + 1 + Fin.ofNat n i := by
        rw [hsucc, add_assoc]
      exact congrArg r.cells hcell
  next => cases h

/-- There is nothing to take exactly from an empty ring. -/
theorem take_eq_none_iff : r.take = none ↔ r.toList = [] := by
  rw [← List.length_eq_zero_iff, length_toList, take]
  split
  next hpos => exact iff_of_false (Option.some_ne_none _) (by omega)
  next hzero => exact iff_of_true rfl (by omega)

end Ring

end Nexus.Lib
