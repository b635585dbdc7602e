import Mathlib

/-!
# Sliding windows of received ids

A receiver that must refuse every id it has seen, and remembers only so many,
keeps a window: a center, one flag for each of the `below` ids under it and for
the center itself, and the rule that whatever lies under the window counts as
received. Moving the window up forgets flags, and forgetting is safe because
the ids that lose their flag fall under the window.

The set `received` is what a window stands for. Each operation is given by what
it does to that set, and none ever takes an id out of it.
-/

namespace Nexus.Lib

/-- A center and the flags below it; flag `k` belongs to the id
`center - below + k`. -/
structure FlagWindow (below : ℕ) where
  center : ℕ
  flag : ℕ → Bool

namespace FlagWindow

variable {below : ℕ} (w : FlagWindow below)

/-- The ids a window refuses: those under it, and those flagged in it. -/
def received : Set ℕ :=
  {i | i + below < w.center ∨
    (i ≤ w.center ∧ w.flag (i + below - w.center) = true)}

/-- Move the center up by `d`. -/
def slide (d : ℕ) : FlagWindow below where
  center := w.center + d
  flag k := decide (k + d ≤ below) && w.flag (k + d)

/-- Flag one index. -/
def mark (k : ℕ) : FlagWindow below where
  center := w.center
  flag j := decide (k = j) || w.flag j

/-- Flag every index up to and including `k`. -/
def markUpTo (k : ℕ) : FlagWindow below where
  center := w.center
  flag j := decide (j ≤ k) || w.flag j

/-- Move the center up to `i` if it is lower. -/
def advance (i : ℕ) : FlagWindow below := w.slide (i - w.center)

/-- Receive the id `i`. -/
def take (i : ℕ) : FlagWindow below :=
  (w.advance i).mark (i + below - (w.advance i).center)

/-- Receive the id `i` and give up every id under it. -/
def takeUpTo (i : ℕ) : FlagWindow below :=
  (w.advance i).markUpTo (i + below - (w.advance i).center)

variable {w}

theorem mem_received_of_lt {i : ℕ} (h : i + below < w.center) :
    i ∈ w.received := Or.inl h

theorem mem_received_iff {i : ℕ} (hlo : w.center ≤ i + below)
    (hhi : i ≤ w.center) :
    i ∈ w.received ↔ w.flag (i + below - w.center) = true := by
  constructor
  · rintro (h | ⟨-, h⟩)
    · omega
    · exact h
  · exact fun h => Or.inr ⟨hhi, h⟩

theorem not_mem_received_of_gt {i : ℕ} (h : w.center < i) :
    i ∉ w.received := by
  rintro (h' | ⟨h', -⟩) <;> omega

/-- Sliding keeps every received id and adds those that drop out below. -/
theorem received_slide (d : ℕ) :
    (w.slide d).received = w.received ∪ {i | i + below < w.center + d} := by
  ext i
  simp only [received, slide, Set.mem_ofPred_eq, Set.mem_union,
    Bool.and_eq_true, decide_eq_true_eq]
  constructor
  · rintro (h | ⟨h1, h2, h3⟩)
    · exact Or.inr h
    · by_cases hlow : i + below < w.center + d
      · exact Or.inr hlow
      · refine Or.inl (Or.inr ⟨by omega, ?_⟩)
        rwa [show i + below - (w.center + d) + d = i + below - w.center by
          omega] at h3
  · rintro ((h | ⟨h1, h2⟩) | h)
    · exact Or.inl (by omega)
    · by_cases hlow : i + below < w.center + d
      · exact Or.inl hlow
      · refine Or.inr ⟨by omega, by omega, ?_⟩
        rwa [show i + below - (w.center + d) + d = i + below - w.center by
          omega]
    · exact Or.inl h

/-- Marking an index of the window adds the id it belongs to. -/
theorem received_mark {i : ℕ} (hlo : w.center ≤ i + below)
    (hhi : i ≤ w.center) :
    (w.mark (i + below - w.center)).received = w.received ∪ {i} := by
  ext j
  simp only [received, mark, Set.mem_ofPred_eq, Set.mem_union,
    Set.mem_singleton_iff, Bool.or_eq_true, decide_eq_true_eq]
  constructor
  · rintro (h | ⟨h1, h2 | h2⟩)
    · exact Or.inl (Or.inl h)
    · by_cases hj : j + below < w.center
      · exact Or.inl (Or.inl hj)
      · exact Or.inr (by omega)
    · exact Or.inl (Or.inr ⟨h1, h2⟩)
  · rintro ((h | ⟨h1, h2⟩) | rfl)
    · exact Or.inl h
    · exact Or.inr ⟨h1, Or.inr h2⟩
    · exact Or.inr ⟨hhi, Or.inl rfl⟩

/-- Marking up to an index of the window adds every id up to its own. -/
theorem received_markUpTo {i : ℕ} (hlo : w.center ≤ i + below)
    (hhi : i ≤ w.center) :
    (w.markUpTo (i + below - w.center)).received
      = w.received ∪ {j | j ≤ i} := by
  ext j
  simp only [received, markUpTo, Set.mem_ofPred_eq, Set.mem_union,
    Bool.or_eq_true, decide_eq_true_eq]
  constructor
  · rintro (h | ⟨h1, h2 | h2⟩)
    · exact Or.inl (Or.inl h)
    · by_cases hj : j + below < w.center
      · exact Or.inl (Or.inl hj)
      · exact Or.inr (by omega)
    · exact Or.inl (Or.inr ⟨h1, h2⟩)
  · rintro ((h | ⟨h1, h2⟩) | h)
    · exact Or.inl h
    · exact Or.inr ⟨h1, Or.inr h2⟩
    · exact Or.inr ⟨by omega, Or.inl (by omega)⟩

theorem center_advance (i : ℕ) : (w.advance i).center = max w.center i := by
  simp only [advance, slide]
  omega

@[simp] theorem center_take (i : ℕ) :
    (w.take i).center = max w.center i := center_advance i

@[simp] theorem center_takeUpTo (i : ℕ) :
    (w.takeUpTo i).center = max w.center i := center_advance i

/-- What lies under the old window was received already, so only an id above
the center costs the ids that leave the window. -/
theorem received_advance (i : ℕ) :
    (w.advance i).received = w.received ∪ {j | j + below < i} := by
  rw [advance, received_slide]
  ext j
  simp only [Set.mem_union, Set.mem_ofPred_eq]
  constructor
  · rintro (h | h)
    · exact Or.inl h
    · by_cases hj : j + below < w.center
      · exact Or.inl (mem_received_of_lt hj)
      · exact Or.inr (by omega)
  · rintro (h | h)
    · exact Or.inl h
    · exact Or.inr (by omega)

theorem received_take {i : ℕ} (h : w.center ≤ i + below) :
    (w.take i).received = w.received ∪ {j | j + below < i} ∪ {i} := by
  have hc := center_advance (w := w) i
  rw [take, received_mark (by omega) (by omega), received_advance]

/-- Receiving a flagged id again changes nothing, if no flag is kept past the
center. -/
theorem take_of_flag {i : ℕ} (hlo : w.center ≤ i + below)
    (hhi : i ≤ w.center) (hflag : w.flag (i + below - w.center) = true)
    (hpast : ∀ k, below < k → w.flag k = false) : w.take i = w := by
  obtain ⟨center, flag⟩ := w
  simp only at hlo hhi hflag hpast
  have hzero : i - center = 0 := by omega
  simp only [take, advance, slide, mark, hzero, Nat.add_zero,
    FlagWindow.mk.injEq, true_and]
  funext k
  by_cases hk : i + below - center = k
  · rw [← hk, hflag]
    simp
  · by_cases hpast' : k ≤ below
    · simp [hk, hpast']
    · simp [hk, hpast', hpast k (by omega)]

/-- Receiving an id keeps no flag past the center. -/
theorem flag_take_of_past {i k : ℕ} (hk : below < k) :
    (w.take i).flag k = false := by
  have hmark : i + below - (w.advance i).center ≠ k := by
    rw [center_advance]
    omega
  have hslide : ¬ k + (i - w.center) ≤ below := by omega
  simp only [take, mark, hmark]
  simp [advance, slide, hslide]

/-- Receiving an id twice is receiving it once. -/
theorem take_take {i : ℕ} (h : w.center ≤ i + below) :
    (w.take i).take i = w.take i := by
  have hcenter := center_take (w := w) i
  have hmem : i ∈ (w.take i).received := by
    rw [received_take h]
    exact Or.inr rfl
  have hflag := (mem_received_iff (by omega) (by omega)).mp hmem
  exact take_of_flag (by omega) (by omega) hflag
    fun k hk => flag_take_of_past hk

theorem received_takeUpTo {i : ℕ} (h : w.center ≤ i + below) :
    (w.takeUpTo i).received = w.received ∪ {j | j ≤ i} := by
  have hc := center_advance (w := w) i
  rw [takeUpTo, received_markUpTo (by omega) (by omega), received_advance]
  ext j
  simp only [Set.mem_union, Set.mem_ofPred_eq]
  constructor
  · rintro ((h | h) | h)
    · exact Or.inl h
    · exact Or.inr (by omega)
    · exact Or.inr h
  · rintro (h | h)
    · exact Or.inl (Or.inl h)
    · exact Or.inr h

end FlagWindow

end Nexus.Lib
