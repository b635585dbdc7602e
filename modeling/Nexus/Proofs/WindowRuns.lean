import Nexus.Lib.Run
import Nexus.Proofs.IdWindow

/-!
# A window in use is a set of received ids

Along any sequence of `nexus_util_window_set_id_flag` a window is the set of the
ids that were flagged to begin with and of those set since, as far as it still
reaches down: an id is accepted exactly inside the window, a refused one
changes nothing, and the center never moves down.

That holds as long as the upper end of the window fits in 32 bits, and the
function does not see to that. An id close to the top becomes the center; from
then on the upper end wraps around, which is what the assertion in
`nexus_util_window_id_within_window` calls an invalid window, and every id is
refused and none is flagged, the one just set included.
-/

namespace Nexus.Util

open Nexus.Lib

variable {n : ℕ}

/-- One call. -/
def windowSetStep (w : Window n) (id : UInt32) : Window n :=
  (windowSetIdFlag w id).2

/-- The id of a call that succeeds. -/
def windowSetLabel (w : Window n) (id : UInt32) : Option UInt32 :=
  if (windowSetIdFlag w id).1 then some id else none

/-- The window after some calls. -/
def Window.setAll (w : Window n) (ids : List UInt32) : Window n :=
  run windowSetStep w ids

/-- The ids that some calls set successfully. -/
def Window.setIds (w : Window n) (ids : List UInt32) : List UInt32 :=
  events windowSetStep windowSetLabel w ids

/-- The id lies in the window, as numbers that do not wrap. -/
def Window.Within (w : Window n) (below above : ℕ) (id : UInt32) : Prop :=
  w.centerIndex.toNat ≤ id.toNat + below ∧
    id.toNat ≤ w.centerIndex.toNat + above

instance (w : Window n) (below above : ℕ) (id : UInt32) :
    Decidable (w.Within below above id) :=
  inferInstanceAs (Decidable (_ ∧ _))

/-- After these calls the window is the set of what has been received. -/
structure IsReceivedSet (start : Window n) (below above : ℕ)
    (calls : List UInt32) : Prop where
  accepts : ∀ id, (windowSetIdFlag (start.setAll calls) id).1 = true ↔
    (start.setAll calls).Within below above id
  refuses : ∀ id, ¬ (start.setAll calls).Within below above id →
    (windowSetIdFlag (start.setAll calls) id).2 = start.setAll calls
  flagged : ∀ id, (start.setAll calls).Within below above id →
    (windowIdFlagAlreadySet (start.setAll calls) id = true ↔
      (windowIdFlagAlreadySet start id = true ∨ id ∈ start.setIds calls) ∧
        (start.setAll calls).centerIndex.toNat ≤ id.toNat + below)
  twice : ∀ id,
    windowSetStep (windowSetStep (start.setAll calls) id) id
      = windowSetStep (start.setAll calls) id
  rises : ∀ id, (start.setAll calls).centerIndex
    ≤ (windowSetStep (start.setAll calls) id).centerIndex

/-- A window whose lower end does not wrap. -/
structure Window.Grounded (w : Window n) (below above : ℕ) : Prop where
  sized : w.Sized below above
  center : below ≤ w.centerIndex.toNat

/-- The upper end does not either. -/
def Window.Roomy (w : Window n) (above : ℕ) : Prop :=
  w.centerIndex.toNat + above < 2 ^ 32

variable {w start : Window n} {below above : ℕ} {id : UInt32}
  {calls : List UInt32}

/-! ## One call -/

theorem Window.Grounded.holds_iff (hw : w.Grounded below above) :
    w.Holds below above id ↔
      w.Within below above id ∧ w.Roomy above := by
  constructor
  · intro h
    exact ⟨⟨h.low, h.high⟩, h.room⟩
  · intro h
    obtain ⟨⟨hlow, hhigh⟩, hroom⟩ := h
    exact ⟨hw.center, hroom, hlow, hhigh⟩

theorem Window.Grounded.windowSetIdFlag_fst (hw : w.Grounded below above) :
    (windowSetIdFlag w id).1 = true ↔ w.Holds below above id := by
  by_cases h : w.Holds below above id
  · have hset := (setIdFlag_of_holds hw.sized h).1
    simp [h, hset]
  · rw [setIdFlag_of_not_holds hw.sized hw.center h]
    simp [h]

theorem Window.Grounded.step_of_not_holds (hw : w.Grounded below above)
    (h : ¬ w.Holds below above id) : windowSetStep w id = w := by
  rw [windowSetStep, setIdFlag_of_not_holds hw.sized hw.center h]

/-- A call that succeeds moves the center up to its id. -/
theorem Window.Grounded.center_step (hw : w.Grounded below above)
    (h : w.Holds below above id) :
    (windowSetStep w id).centerIndex.toNat
      = max w.centerIndex.toNat id.toNat := by
  obtain ⟨-, -, hids⟩ := setIdFlag_of_holds hw.sized h
  have hcenter := congrArg FlagWindow.center hids
  rw [FlagWindow.center_take] at hcenter
  exact hcenter

theorem Window.Grounded.center_le_step (hw : w.Grounded below above) :
    w.centerIndex.toNat ≤ (windowSetStep w id).centerIndex.toNat := by
  by_cases h : w.Holds below above id
  · rw [hw.center_step h]
    exact le_max_left _ _
  · rw [hw.step_of_not_holds h]

theorem Window.Grounded.step (hw : w.Grounded below above) (id : UInt32) :
    (windowSetStep w id).Grounded below above := by
  by_cases h : w.Holds below above id
  · obtain ⟨-, hsized, -⟩ := setIdFlag_of_holds hw.sized h
    exact ⟨hsized, hw.center.trans hw.center_le_step⟩
  · rw [hw.step_of_not_holds h]
    exact hw

/-- The second call with the same id finds it set, or the window wrapped. -/
theorem Window.Grounded.step_twice (hw : w.Grounded below above) :
    windowSetStep (windowSetStep w id) id = windowSetStep w id := by
  by_cases h : w.Holds below above id
  · obtain ⟨-, hsized, hids⟩ := setIdFlag_of_holds hw.sized h
    have hnext := hw.step id
    by_cases h' : (windowSetStep w id).Holds below above id
    · obtain ⟨-, hsized', hids'⟩ := setIdFlag_of_holds hnext.sized h'
      refine hsized'.ext hsized ?_
      calc (windowSetIdFlag (windowSetStep w id) id).2.ids below
          = ((w.ids below).take id.toNat).take id.toNat := by
            rw [hids', windowSetStep, hids]
        _ = (w.ids below).take id.toNat := FlagWindow.take_take h.low
        _ = (windowSetIdFlag w id).2.ids below := hids.symm
    · exact hnext.step_of_not_holds h'
  · rw [hw.step_of_not_holds h, hw.step_of_not_holds h]

/-! ## A sequence of calls -/

/-- What a sequence of calls preserves: inside the window, the received ids are
those of the start and those set since. -/
structure Remembers (start : Window n) (below above : ℕ)
    (calls : List UInt32) : Prop where
  grounded : (start.setAll calls).Grounded below above
  risen : start.centerIndex.toNat
    ≤ (start.setAll calls).centerIndex.toNat
  received : ∀ id : UInt32,
    (start.setAll calls).centerIndex.toNat ≤ id.toNat + below →
    (id.toNat ∈ ((start.setAll calls).ids below).received ↔
      id.toNat ∈ (start.ids below).received ∨ id ∈ start.setIds calls)

theorem setAll_concat (start : Window n) (calls : List UInt32) (id : UInt32) :
    start.setAll (calls ++ [id])
      = windowSetStep (start.setAll calls) id := by
  rw [Window.setAll, run_append, run_cons, run_nil, ← Window.setAll]

theorem setIds_concat (start : Window n) (calls : List UInt32)
    (id : UInt32) :
    start.setIds (calls ++ [id])
      = start.setIds calls
        ++ (windowSetLabel (start.setAll calls) id).toList := by
  rw [Window.setIds, events_append, events, events, List.append_nil]
  rfl

/-- One more call. -/
theorem Remembers.concat (h : Remembers start below above calls)
    (id : UInt32) : Remembers start below above (calls ++ [id]) := by
  have hw := h.grounded
  have hrisen : start.centerIndex.toNat
      ≤ (windowSetStep (start.setAll calls) id).centerIndex.toNat :=
    h.risen.trans hw.center_le_step
  by_cases hin : (start.setAll calls).Holds below above id
  · obtain ⟨hset, -, hids⟩ := setIdFlag_of_holds hw.sized hin
    have hlabel : windowSetLabel (start.setAll calls) id = some id :=
      if_pos hset
    have hcenter := hw.center_step hin
    refine ⟨?_, ?_, ?_⟩
    · rw [setAll_concat]
      exact hw.step id
    · rw [setAll_concat]
      exact hrisen
    · intro other hother
      rw [setAll_concat, hcenter] at hother
      have hkept := h.received other (by omega)
      rw [setAll_concat, setIds_concat, hlabel, windowSetStep, hids,
        FlagWindow.received_take hin.low, List.mem_append,
        ← or_assoc, ← hkept]
      simp only [Set.mem_union, Set.mem_ofPred_eq, Set.mem_singleton_iff,
        Option.toList_some, List.mem_singleton, UInt32.toNat_inj]
      have hnot : ¬ other.toNat + below < id.toNat := by omega
      simp [hnot]
  · have hsame := hw.step_of_not_holds hin
    have hlabel : windowSetLabel (start.setAll calls) id = none := by
      rw [windowSetLabel, if_neg (mt hw.windowSetIdFlag_fst.mp hin)]
    refine ⟨?_, ?_, ?_⟩
    · rw [setAll_concat, hsame]
      exact hw
    · rw [setAll_concat]
      exact hrisen
    · intro other
      rw [setAll_concat, setIds_concat, hlabel, hsame]
      simpa using h.received other

/-- Every sequence. -/
theorem Window.Grounded.remembers (hw : start.Grounded below above)
    (calls : List UInt32) : Remembers start below above calls := by
  induction calls using List.reverseRecOn with
  | nil =>
      refine ⟨hw, le_refl _, ?_⟩
      intro id _
      simp [Window.setAll, Window.setIds, events]
  | append_singleton calls id ih => exact ih.concat id

/-- What the start flags inside the later window is what it has received. -/
theorem Window.Grounded.received_iff (hw : start.Grounded below above)
    (hroom : start.Roomy above)
    (hlow : start.centerIndex.toNat ≤ id.toNat + below) :
    windowIdFlagAlreadySet start id = true ↔
      id.toNat ∈ (start.ids below).received := by
  by_cases hgt : start.centerIndex.toNat < id.toNat
  · have hfree : id.toNat ∉ (start.ids below).received :=
      FlagWindow.not_mem_received_of_gt hgt
    simp [flagAlreadySet_of_gt hgt, hfree]
  · exact flagAlreadySet_iff hw.sized
      ⟨hw.center, hroom, hlow, by omega⟩

/-- As long as the upper end does not wrap, the window is the received set. -/
theorem Window.Grounded.isReceivedSet (hw : start.Grounded below above)
    (hroom : start.Roomy above)
    (hroom' : (start.setAll calls).Roomy above) :
    IsReceivedSet start below above calls := by
  have h := hw.remembers calls
  have hiff (id : UInt32) : (start.setAll calls).Holds below above id ↔
      (start.setAll calls).Within below above id := by
    rw [h.grounded.holds_iff]
    exact and_iff_left hroom'
  refine ⟨?_, ?_, ?_, ?_, ?_⟩
  · intro id
    rw [h.grounded.windowSetIdFlag_fst, hiff]
  · intro id hid
    exact h.grounded.step_of_not_holds (mt (hiff id).mp hid)
  · intro id hid
    have hlow := hid.1
    have hstart := hw.received_iff hroom (h.risen.trans hlow)
    rw [flagAlreadySet_iff h.grounded.sized ((hiff id).mpr hid),
      h.received id hlow, hstart]
    exact (and_iff_left hlow).symm
  · intro id
    exact h.grounded.step_twice
  · intro id
    rw [UInt32.le_iff_toNat_le]
    exact h.grounded.center_le_step

/-- Once it wraps, the center is refused although it lies inside. -/
theorem IsReceivedSet.roomy (h : IsReceivedSet start below above calls)
    (hw : start.Grounded below above) :
    (start.setAll calls).Roomy above := by
  have hgrounded := (hw.remembers calls).grounded
  have hwithin : (start.setAll calls).Within below above
      (start.setAll calls).centerIndex :=
    ⟨Nat.le_add_right _ _, Nat.le_add_right _ _⟩
  have hset := (h.accepts _).mpr hwithin
  rw [hgrounded.windowSetIdFlag_fst, hgrounded.holds_iff] at hset
  exact hset.2

/-- A call keeps clear of the top: an id inside the window leaves room above
itself. -/
def KeepsRoom (below above : ℕ) (w : Window n) (id : UInt32) : Prop :=
  w.Within below above id → id.toNat + above < 2 ^ 32

instance (below above : ℕ) (w : Window n) (id : UInt32) :
    Decidable (KeepsRoom below above w id) :=
  inferInstanceAs (Decidable (_ → _))

theorem KeepsRoom.roomy_step (h : KeepsRoom below above w id)
    (hw : w.Grounded below above) (hroom : w.Roomy above) :
    (windowSetStep w id).Roomy above := by
  by_cases hin : w.Holds below above id
  · have hid := h (hw.holds_iff.mp hin).1
    rw [Window.Roomy] at hroom ⊢
    rw [hw.center_step hin]
    omega
  · rw [hw.step_of_not_holds hin]
    exact hroom

/-- If the window has room after every call, no call came close to the top. -/
theorem along_keepsRoom (hw : start.Grounded below above)
    (h : ∀ pre, pre <+: calls → (start.setAll pre).Roomy above) :
    Along windowSetStep (KeepsRoom below above) start calls := by
  induction calls generalizing start with
  | nil => trivial
  | cons id calls ih =>
      have hroom : start.Roomy above := h [] List.nil_prefix
      constructor
      · intro hwithin
        have hin := hw.holds_iff.mpr ⟨hwithin, hroom⟩
        have hnext : (windowSetStep start id).Roomy above :=
          h [id] (List.prefix_append [id] calls)
        rw [Window.Roomy, hw.center_step hin] at hnext
        omega
      · refine ih (hw.step id) ?_
        intro pre hpre
        exact h (id :: pre) (List.cons_prefix_cons.mpr ⟨rfl, hpre⟩)

/-- The window is the received set at every moment of a sequence of calls
exactly if none of the calls comes close to the top. -/
theorem isReceivedSet_iff (hw : start.Sized below above)
    (hcenter : below ≤ start.centerIndex.toNat)
    (hroom : start.centerIndex.toNat + above < 2 ^ 32)
    (calls : List UInt32) :
    (∀ pre, pre <+: calls → IsReceivedSet start below above pre) ↔
      Along windowSetStep (KeepsRoom below above) start calls := by
  have hgrounded : start.Grounded below above := ⟨hw, hcenter⟩
  constructor
  · intro h
    refine along_keepsRoom hgrounded ?_
    intro pre hpre
    exact (h pre hpre).roomy hgrounded
  · intro h pre hpre
    obtain ⟨rest, hrest⟩ := hpre
    rw [← hrest] at h
    have hkept : (start.setAll pre).Grounded below above ∧
        (start.setAll pre).Roomy above := by
      refine run_invariant
        (P := fun w => w.Grounded below above ∧ w.Roomy above) ?_
        ⟨hgrounded, hroom⟩ (along_append.mp h).1
      intro w id hkept hkeeps
      obtain ⟨hw, hroom⟩ := hkept
      exact ⟨hw.step id, hkeeps.roomy_step hw hroom⟩
    exact hgrounded.isReceivedSet hroom hkept.2

/-- Three bytes of flags: a move, an older id, and an id far above. -/
theorem isReceivedSet_iff_three :
    IsReceivedSet (⟨23, #v[0x01, 0, 0x80], 23, 40⟩ : Window 3) 23 40
      [26, 20, 99] :=
  (isReceivedSet_iff ⟨by decide, by decide, by decide, by decide⟩ (by decide)
    (by decide) _).mpr (by decide +kernel) _ (List.prefix_refl _)

/-- Two ids below the top the next one is set, and then it is not. -/
theorem top_id_set_and_refused :
    let start : Window 1 := ⟨0xfffffffe, #v[0], 7, 1⟩
    (start.Sized 7 1 ∧ 7 ≤ start.centerIndex.toNat ∧
        start.centerIndex.toNat + 1 < 2 ^ 32) ∧
      (windowSetIdFlag start 0xffffffff).1 = true ∧
      windowIdFlagAlreadySet (start.setAll [0xffffffff]) 0xffffffff
        = false ∧
      (windowSetIdFlag (start.setAll [0xffffffff]) 0xffffffff).1 = false ∧
      ¬ ∀ pre, pre <+: [0xffffffff] → IsReceivedSet start 7 1 pre := by
  intro start
  have hset : (windowSetIdFlag start 0xffffffff).1 = true := by
    decide +kernel
  have hflag : windowIdFlagAlreadySet (start.setAll [0xffffffff])
      0xffffffff = false := by decide +kernel
  have hrefused : (windowSetIdFlag (start.setAll [0xffffffff])
      0xffffffff).1 = false := by decide +kernel
  refine ⟨⟨⟨by decide, by decide, by decide, by decide⟩, by decide,
    by decide⟩, hset, hflag, hrefused, ?_⟩
  intro h
  have haccepts := (h [0xffffffff] (List.prefix_refl _)).accepts 0xffffffff
  have hwithin : (start.setAll [0xffffffff]).Within 7 1 0xffffffff := by
    decide +kernel
  rw [haccepts.mpr hwithin] at hrefused
  cases hrefused

end Nexus.Util
