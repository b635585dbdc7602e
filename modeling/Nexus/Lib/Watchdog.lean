import Nexus.Lib.Run

/-!
# A watchdog that is fed late

A counter adds up the time that each call reports; when it reaches a limit the
watchdog fires and the counter is cleared. Feeding clears it as well. A call may
feed first and add its time afterwards, and that time has passed before the
call. So the counter holds the time reported since the call that fed, and the
time of that call besides.

The watchdog fires only when the time since has reached the limit by itself,
exactly if the time that was carried never makes up the difference. The counter
may be a machine number, as long as it has room for twice the limit.
-/

namespace Nexus.Lib

variable {σ α : Type*}

/-- A counter with its limit, and beside it the time reported since the call
that fed last, and the time of that call. -/
structure Watchdog (σ α : Type*) where
  step : σ → α → σ
  fed : σ → α → Prop
  elapsed : α → ℕ
  fires : σ → α → Prop
  counter : σ → ℕ
  carried : σ → ℕ
  since : σ → ℕ
  limit : ℕ
  modulus : ℕ

namespace Watchdog

variable (w : Watchdog σ α)

/-- What the calls do that meet the guard. -/
structure Lawful (guard : σ → α → Prop) : Prop where
  elapsed_lt : ∀ a, w.elapsed a < w.modulus
  limit_le : 2 * w.limit ≤ w.modulus
  fed_ghosts : ∀ s a, guard s a → w.fed s a →
    w.carried (w.step s a) = w.elapsed a ∧ w.since (w.step s a) = 0
  unfed_ghosts : ∀ s a, guard s a → ¬ w.fed s a →
    w.carried (w.step s a) = w.carried s ∧
      w.since (w.step s a) = w.since s + w.elapsed a
  fed_fires : ∀ s a, guard s a → w.fed s a →
    (w.fires s a ∧ w.limit ≤ w.elapsed a ∧ w.counter (w.step s a) = 0) ∨
      (¬ w.fires s a ∧ w.elapsed a < w.limit ∧
        w.counter (w.step s a) = w.elapsed a)
  unfed_fires : ∀ s a, guard s a → ¬ w.fed s a →
    w.counter s + w.elapsed a < w.modulus →
    (w.fires s a ∧ w.limit ≤ w.counter s + w.elapsed a ∧
        w.counter (w.step s a) = 0) ∨
      (¬ w.fires s a ∧ w.counter s + w.elapsed a < w.limit ∧
        w.counter (w.step s a) = w.counter s + w.elapsed a)

/-- The counter holds what has been reported, or enough has been reported. -/
def Exact (s : σ) : Prop :=
  (w.counter s = w.carried s + w.since s ∧ w.counter s < w.limit) ∨
    w.limit ≤ w.since s

/-- The watchdog fires only after its time. -/
def FiresLate (s : σ) (a : α) : Prop :=
  w.fires s a → w.limit ≤ w.since (w.step s a)

/-- What is carried does not make up the difference. -/
def CarriesLittle (s : σ) (a : α) : Prop :=
  w.limit ≤ w.carried (w.step s a) + w.since (w.step s a) →
    w.limit ≤ w.since (w.step s a)

variable {w} {guard : σ → α → Prop} (h : w.Lawful guard)

include h

/-- One call: it is late exactly if little is carried, and then the counter is
exact again. -/
theorem Lawful.step {s : σ} {a : α} (hs : w.Exact s) (hguard : guard s a) :
    (w.FiresLate s a ↔ w.CarriesLittle s a) ∧
      (w.CarriesLittle s a → w.Exact (w.step s a)) := by
  have hroom := h.limit_le
  simp only [FiresLate, CarriesLittle, Exact] at hs ⊢
  by_cases hfed : w.fed s a
  · obtain ⟨hcarried, hsince⟩ := h.fed_ghosts s a hguard hfed
    rcases h.fed_fires s a hguard hfed with
      ⟨hfires, hlimit, hcounter⟩ | ⟨hquiet, hlimit, hcounter⟩
    · simp only [hfires, true_implies, hcarried, hsince]
      omega
    · simp only [hquiet, false_implies, true_iff, hcarried, hsince, hcounter]
      omega
  · obtain ⟨hcarried, hsince⟩ := h.unfed_ghosts s a hguard hfed
    by_cases hlate : w.limit ≤ w.since s + w.elapsed a
    · simp only [hsince, hlate, implies_true, or_true, and_self]
    · rcases hs with ⟨hexact, hlt⟩ | henough
      · rcases h.unfed_fires s a hguard hfed (by omega) with
          ⟨hfires, hlimit, hcounter⟩ | ⟨hquiet, hlimit, hcounter⟩
        · simp only [hfires, true_implies, hcarried, hsince]
          omega
        · simp only [hquiet, false_implies, true_iff, hcarried, hsince, hcounter]
          omega
      · omega

/-- A whole run fires late exactly if it carries little. -/
theorem Lawful.firesLate_iff {s : σ} {ops : List α} (hs : w.Exact s)
    (hops : Along w.step guard s ops) :
    Along w.step w.FiresLate s ops ↔ Along w.step w.CarriesLittle s ops := by
  induction ops generalizing s with
  | nil => exact Iff.rfl
  | cons a ops ih =>
      obtain ⟨hiff, hnext⟩ := h.step hs hops.1
      simp only [Along]
      constructor
      · intro hlate
        have hlittle := hiff.mp hlate.1
        exact ⟨hlittle, (ih (hnext hlittle) hops.2).mp hlate.2⟩
      · intro hlittle
        exact ⟨hiff.mpr hlittle.1,
          (ih (hnext hlittle.1) hops.2).mpr hlittle.2⟩

end Watchdog

end Nexus.Lib
