import Mathlib

/-!
# Runs of a step function

A deterministic system is a step function on states, driven by a list of
operations. Five rules cover what this development needs of whole runs: an
invariant carried along the steps that meet a guard, a potential that no step
raises by more than its cost, tokens that are spent for good once a step has
consumed them, counters that tell how often something has happened since
they were last put back, and numbers that grow until the numbering restarts.

Last comes the loop over an array whose rounds each touch their own cell only.
-/

namespace Nexus.Lib

variable {σ α τ : Type*} (step : σ → α → σ)

/-- The state after a list of operations. -/
def run (s : σ) (ops : List α) : σ := ops.foldl step s

/-- Every step of the run meets the guard in the state it starts from. -/
def Along (guard : σ → α → Prop) : σ → List α → Prop
  | _, [] => True
  | s, a :: ops => guard s a ∧ Along guard (step s a) ops

instance Along.decidable (guard : σ → α → Prop)
    [∀ s a, Decidable (guard s a)] :
    ∀ s ops, Decidable (Along step guard s ops)
  | _, [] => .isTrue trivial
  | s, a :: ops =>
      have := Along.decidable guard (step s a) ops
      inferInstanceAs (Decidable (guard s a ∧ Along step guard (step s a) ops))

variable {step}

@[simp] theorem run_nil (s : σ) : run step s [] = s := rfl

@[simp] theorem run_cons (s : σ) (a : α) (ops : List α) :
    run step s (a :: ops) = run step (step s a) ops := rfl

theorem run_append (s : σ) (ops ops' : List α) :
    run step s (ops ++ ops') = run step (run step s ops) ops' :=
  List.foldl_append

variable {guard : σ → α → Prop}

theorem along_append {s : σ} {ops ops' : List α} :
    Along step guard s (ops ++ ops') ↔
      Along step guard s ops ∧ Along step guard (run step s ops) ops' := by
  induction ops generalizing s with
  | nil => simp [Along]
  | cons a ops ih => simp [Along, ih, and_assoc]

/-- A run every operation of which is admissible on its own. -/
theorem along_true (s : σ) (ops : List α) :
    Along step (fun _ _ => True) s ops := by
  induction ops generalizing s with
  | nil => trivial
  | cons a ops ih => exact ⟨trivial, ih _⟩

theorem along_of_forall {P : α → Prop} {s : σ} {ops : List α}
    (h : ∀ a ∈ ops, P a) : Along step (fun _ a => P a) s ops := by
  induction ops generalizing s with
  | nil => trivial
  | cons a ops ih =>
      exact ⟨h a List.mem_cons_self,
        ih fun b hb => h b (List.mem_cons_of_mem a hb)⟩

/-- What every guarded step preserves, a guarded run preserves. -/
theorem run_invariant {P : σ → Prop}
    (hstep : ∀ s a, P s → guard s a → P (step s a)) {s : σ} {ops : List α}
    (hs : P s) (hops : Along step guard s ops) : P (run step s ops) := by
  induction ops generalizing s with
  | nil => exact hs
  | cons a ops ih => exact ih (hstep s a hs hops.1) hops.2

/-- What an invariant and the guard say about a step holds at every step of a
guarded run. -/
theorem along_of_invariant {P : σ → Prop} {Q : σ → α → Prop}
    (hstep : ∀ s a, P s → guard s a → P (step s a))
    (hQ : ∀ s a, P s → guard s a → Q s a) {s : σ} {ops : List α}
    (hs : P s) (hops : Along step guard s ops) : Along step Q s ops := by
  induction ops generalizing s with
  | nil => trivial
  | cons a ops ih =>
      exact ⟨hQ s a hs hops.1, ih (hstep s a hs hops.1) hops.2⟩

/-- A potential that no step raises by more than the step's cost is raised by
no more than the costs of a run. -/
theorem run_potential {P : σ → Prop} (Φ : σ → ℕ) (cost : α → ℕ)
    (hP : ∀ s a, P s → P (step s a))
    (hΦ : ∀ s a, P s → Φ (step s a) ≤ Φ s + cost a) {s : σ} (hs : P s)
    (ops : List α) : Φ (run step s ops) ≤ Φ s + (ops.map cost).sum := by
  induction ops generalizing s with
  | nil => simp
  | cons a ops ih =>
      have h1 := hΦ s a hs
      have h2 := ih (hP s a hs)
      simp only [run_cons, List.map_cons, List.sum_cons]
      omega

section Tokens

variable {P : σ → Prop} {spent : σ → Set τ}
  (hP : ∀ s a, P s → guard s a → P (step s a))
  (hmono : ∀ s a, P s → guard s a → spent s ⊆ spent (step s a))

include hP hmono

/-- Spent tokens stay spent. -/
theorem spent_mono {s : σ} {ops : List α} (hs : P s)
    (hops : Along step guard s ops) : spent s ⊆ spent (run step s ops) := by
  induction ops generalizing s with
  | nil => exact subset_rfl
  | cons a ops ih =>
      exact (hmono s a hs hops.1).trans (ih (hP s a hs hops.1) hops.2)

/-- Once a step has put a set of tokens among the spent ones, they are spent
before every later step of the run. -/
theorem spent_later {s : σ} {pre mid post : List α} {a b : α} {T : Set τ}
    (hs : P s) (hops : Along step guard s (pre ++ a :: (mid ++ b :: post)))
    (hspend : P (run step s pre) → guard (run step s pre) a →
      T ⊆ spent (step (run step s pre) a)) :
    T ⊆ spent (run step s (pre ++ a :: mid)) := by
  obtain ⟨hpre, ha, hrest⟩ := along_append.mp hops
  have hs1 := run_invariant hP hs hpre
  obtain ⟨hmid, -⟩ := along_append.mp hrest
  have h := spent_mono hP hmono (hP _ _ hs1 ha) hmid
  rw [run_append, run_cons]
  exact (hspend hs1 ha).trans h

end Tokens

section Events

variable {ε : Type*} (step) (label : σ → α → Option ε)

/-- What happens along a run: each step is labelled with at most one event. -/
def events : σ → List α → List ε
  | _, [] => []
  | s, a :: ops => (label s a).toList ++ events (step s a) ops

variable {step label}

theorem events_append (s : σ) (ops ops' : List α) :
    events step label s (ops ++ ops') =
      events step label s ops ++ events step label (run step s ops) ops' := by
  induction ops generalizing s with
  | nil => rfl
  | cons a ops ih => simp only [List.cons_append, events, run_cons, ih,
      List.append_assoc]

/-- A run and a run of another system with the same operations show the same
events, when related states do at every step and stay related. -/
theorem events_simulates {ρ : Type*} {step' : ρ → α → ρ}
    {label' : ρ → α → Option ε} {R : σ → ρ → Prop}
    (hstep : ∀ s r a, R s r → guard s a →
      label s a = label' r a ∧ R (step s a) (step' r a))
    {s : σ} {r : ρ} {ops : List α} (hs : R s r)
    (hops : Along step guard s ops) :
    events step label s ops = events step' label' r ops ∧
      R (run step s ops) (run step' r ops) := by
  induction ops generalizing s r with
  | nil => exact ⟨rfl, hs⟩
  | cons a ops ih =>
      obtain ⟨hlabel, hnext⟩ := hstep s r a hs hops.1
      obtain ⟨hevents, hend⟩ := ih hnext hops.2
      exact ⟨by rw [events, events, hlabel, hevents], hend⟩

/-- Whatever has happened up to some point is what a shorter run does. -/
theorem events_split {s : σ} {ops : List α} {es es' : List ε}
    (h : events step label s ops = es ++ es') :
    ∃ ops₁ ops₂, ops = ops₁ ++ ops₂ ∧ events step label s ops₁ = es := by
  induction ops generalizing s es with
  | nil =>
      obtain ⟨rfl, -⟩ := List.append_eq_nil_iff.mp h.symm
      exact ⟨[], [], rfl, rfl⟩
  | cons a ops ih =>
      cases es with
      | nil => exact ⟨[], a :: ops, rfl, rfl⟩
      | cons e es =>
          cases hl : label s a with
          | none =>
              rw [events, hl] at h
              obtain ⟨ops₁, ops₂, hops, hes⟩ := ih h
              refine ⟨a :: ops₁, ops₂, by rw [hops]; rfl, ?_⟩
              rw [events, hl, hes]
              rfl
          | some e' =>
              rw [events, hl] at h
              simp only [Option.toList_some, List.cons_append,
                List.nil_append, List.cons.injEq] at h
              obtain ⟨ops₁, ops₂, hops, hes⟩ := ih h.2
              refine ⟨a :: ops₁, ops₂, by rw [hops]; rfl, ?_⟩
              rw [events, hl, hes, h.1]
              rfl

/-- If every event spends a token that was not spent before, no two events of
a run spend the same. -/
theorem events_nodup {P : σ → Prop} {spent : σ → Set τ} {token : ε → τ}
    (hP : ∀ s a, P s → guard s a → P (step s a))
    (hmono : ∀ s a, P s → guard s a → spent s ⊆ spent (step s a))
    (hspend : ∀ s a e, P s → guard s a → label s a = some e →
      token e ∉ spent s ∧ token e ∈ spent (step s a))
    {s : σ} {ops : List α} (hs : P s) (hops : Along step guard s ops) :
    ((events step label s ops).map token).Nodup ∧
      ∀ e ∈ events step label s ops, token e ∉ spent s := by
  induction ops generalizing s with
  | nil => simp [events]
  | cons a ops ih =>
      obtain ⟨hnodup, hfresh⟩ := ih (hP s a hs hops.1) hops.2
      have hlater : ∀ e ∈ events step label (step s a) ops,
          token e ∉ spent s :=
        fun e he hmem => hfresh e he (hmono s a hs hops.1 hmem)
      rw [events]
      cases hl : label s a with
      | none => exact ⟨hnodup, hlater⟩
      | some e =>
          obtain ⟨hnew, hspent⟩ := hspend s a e hs hops.1 hl
          constructor
          · refine List.nodup_cons.mpr ⟨fun hmem => ?_, hnodup⟩
            obtain ⟨e', he', heq⟩ := List.mem_map.mp hmem
            exact hfresh e' he' (heq ▸ hspent)
          · intro e' he'
            rcases List.mem_cons.mp he' with rfl | he'
            · exact hnew
            · exact hlater e' he'

/-- What holds of every event of a step holds of every event of a run. -/
theorem events_forall {P : σ → Prop} {Q : ε → Prop}
    (hP : ∀ s a, P s → guard s a → P (step s a))
    (hQ : ∀ s a e, P s → guard s a → label s a = some e → Q e)
    {s : σ} {ops : List α} (hs : P s) (hops : Along step guard s ops) :
    ∀ e ∈ events step label s ops, Q e := by
  induction ops generalizing s with
  | nil => simp [events]
  | cons a ops ih =>
      intro e he
      rcases List.mem_append.mp he with he | he
      · exact hQ s a e hs hops.1 (Option.mem_toList.mp he)
      · exact ih (hP s a hs hops.1) hops.2 e he

variable [DecidableEq ε]

/-- The events after the last reset. -/
def since (reset : ε) (es : List ε) : List ε :=
  es.rtakeWhile (fun e => decide (e ≠ reset))

theorem since_concat (reset : ε) (es : List ε) (e : ε) :
    since reset (es ++ [e])
      = if e = reset then [] else since reset es ++ [e] := by
  unfold since
  split
  · next h => exact List.rtakeWhile_concat_neg _ _ _ (by simp [h])
  · next h => exact List.rtakeWhile_concat_pos _ _ _ (by simp [h])

/-- A stretch without a reset is among the events since the last one. -/
theorem suffix_since {reset : ε} {es es' : List ε} (h : reset ∉ es') :
    es' <:+ since reset (es ++ es') := by
  induction es' using List.reverseRecOn with
  | nil => exact List.nil_suffix
  | append_singleton es' e ih =>
      have hne : e ≠ reset := by
        intro he
        exact h (by simp [he])
      rw [← List.append_assoc, since_concat, if_neg hne]
      obtain ⟨pre, hpre⟩ := ih fun hmem => h (List.mem_append_left _ hmem)
      exact ⟨pre, by rw [← hpre, List.append_assoc]⟩

/-- A counter that a reset clears, that one event raises and that everything
else leaves alone holds the number of these events since the last reset. -/
theorem run_count {P : σ → Prop} {reset e : ε} (count : σ → ℕ)
    (hne : e ≠ reset) (hP : ∀ s a, P s → P (step s a))
    (hcount : ∀ s a, P s → count (step s a) =
      if label s a = some reset then 0
      else if label s a = some e then count s + 1 else count s)
    {s : σ} (hs : P s) (hzero : count s = 0) (ops : List α) :
    count (run step s ops)
      = (since reset (events step label s ops)).count e := by
  induction ops using List.reverseRecOn with
  | nil => exact hzero
  | append_singleton ops a ih =>
      have hP' : P (run step s ops) :=
        run_invariant (fun s a h _ => hP s a h) hs (along_true s ops)
      rw [run_append, events_append, run_cons, run_nil, hcount _ a hP', ih]
      cases hl : label (run step s ops) a with
      | none => simp [events, hl]
      | some e' =>
          rw [events, hl]
          show _ = (since reset (events step label s ops ++ [e'])).count e
          rw [since_concat]
          by_cases he : e' = reset
          · simp [he]
          · by_cases he' : e' = e
            · simp [he', hne]
            · simp [he, he']

end Events

section Numbering

/-- An event that has a number, or the restart of the numbering. -/
inductive Numbered (β : Type*)
  | number (n : β)
  | restart
deriving DecidableEq

/-- The number of an event. -/
def Numbered.value? {β : Type*} : Numbered β → Option β
  | number n => some n
  | restart => none

variable {β : Type*} [Preorder β]

/-- The numbers lie above a bound and grow; a restart lifts the bound. -/
inductive Increasing : WithBot β → List (Numbered β) → Prop
  | nil {b : WithBot β} : Increasing b []
  | number {b : WithBot β} {n : β} {es : List (Numbered β)} :
      b < n → Increasing n es → Increasing b (.number n :: es)
  | restart {b : WithBot β} {es : List (Numbered β)} :
      Increasing ⊥ es → Increasing b (.restart :: es)

theorem Increasing.mono {b c : WithBot β} {es : List (Numbered β)}
    (h : Increasing c es) (hbc : b ≤ c) : Increasing b es := by
  cases h with
  | nil => exact .nil
  | number hn hes => exact .number (hbc.trans_lt hn) hes
  | restart hes => exact .restart hes

theorem Increasing.of_append {b : WithBot β} {pre es : List (Numbered β)}
    (h : Increasing b (pre ++ es)) : Increasing ⊥ es := by
  induction pre generalizing b with
  | nil => exact h.mono bot_le
  | cons e pre ih =>
      cases h with
      | number _ hes => exact ih hes
      | restart hes => exact ih hes

/-- Up to the next restart, every number lies above the bound and the numbers
before it. -/
theorem Increasing.pairwise {b : WithBot β} {es post : List (Numbered β)}
    (h : Increasing b (es ++ post)) (hes : .restart ∉ es) :
    (∀ n ∈ es.filterMap Numbered.value?, b < n) ∧
      (es.filterMap Numbered.value?).Pairwise (· < ·) := by
  induction es generalizing b with
  | nil => simp
  | cons e es ih =>
      have hrest : .restart ∉ es := fun hmem => hes (List.mem_cons_of_mem _ hmem)
      cases h with
      | restart _ => exact absurd List.mem_cons_self hes
      | @number _ n _ hn htail =>
          obtain ⟨habove, hpair⟩ := ih htail hrest
          have hlist : (Numbered.number n :: es).filterMap Numbered.value?
              = n :: es.filterMap Numbered.value? := rfl
          rw [hlist]
          constructor
          · intro k hk
            rcases List.mem_cons.mp hk with rfl | hk
            · exact hn
            · exact hn.trans (habove k hk)
          · refine List.pairwise_cons.mpr ⟨fun k hk => ?_, hpair⟩
            exact WithBot.coe_lt_coe.mp (habove k hk)

variable {label : σ → α → Option (Numbered β)}

/-- A level that every number exceeds and then becomes, and that nothing but a
restart lowers, makes the numbers of a guarded run grow between restarts. -/
theorem run_increasing {P : σ → Prop} (level : σ → β)
    (hP : ∀ s a, P s → guard s a → P (step s a))
    (hnone : ∀ s a, P s → guard s a → label s a = none →
      level s ≤ level (step s a))
    (hnumber : ∀ s a n, P s → guard s a → label s a = some (.number n) →
      level s < n ∧ n ≤ level (step s a))
    {s : σ} {ops : List α} (hs : P s) (hops : Along step guard s ops) :
    Increasing (level s) (events step label s ops) := by
  induction ops generalizing s with
  | nil => exact .nil
  | cons a ops ih =>
      have htail := ih (hP s a hs hops.1) hops.2
      rw [events]
      cases hl : label s a with
      | none =>
          exact htail.mono (WithBot.coe_le_coe.mpr (hnone s a hs hops.1 hl))
      | some e =>
          cases e with
          | restart => exact .restart (htail.mono bot_le)
          | number n =>
              obtain ⟨hlt, hle⟩ := hnumber s a n hs hops.1 hl
              exact .number (WithBot.coe_lt_coe.mpr hlt)
                (htail.mono (WithBot.coe_le_coe.mpr hle))

end Numbering

/-- What no round of a loop changes, the loop does not change. -/
theorem foldl_unchanged {γ : Type*} {f : σ → α → σ} (p : σ → γ)
    (h : ∀ s a, p (f s a) = p s) (s : σ) (as : List α) :
    p (as.foldl f s) = p s := by
  induction as generalizing s with
  | nil => rfl
  | cons a as ih => rw [List.foldl_cons, ih, h]

/-- After a loop over all indices, each round of which changes the cell of its
own index only, every cell has been changed once. -/
theorem foldl_finRange_cell {n : ℕ} {γ : Type*} {f : σ → Fin n → σ}
    {cell : σ → Fin n → γ} {g : Fin n → γ → γ}
    (hself : ∀ s i, cell (f s i) i = g i (cell s i))
    (hother : ∀ s i j, j ≠ i → cell (f s i) j = cell s j) (s : σ) (j : Fin n) :
    cell ((List.finRange n).foldl f s) j = g j (cell s j) := by
  have hloop : ∀ (is : List (Fin n)) (s : σ), is.Nodup →
      cell (is.foldl f s) j = if j ∈ is then g j (cell s j) else cell s j := by
    intro is
    induction is with
    | nil => simp
    | cons i is ih =>
        intro s hnodup
        obtain ⟨hi, his⟩ := List.nodup_cons.mp hnodup
        rw [List.foldl_cons, ih (f s i) his]
        by_cases hj : j = i
        · subst hj
          rw [if_neg hi, if_pos List.mem_cons_self, hself]
        · simp only [hother s i j hj, List.mem_cons, hj, false_or]
  rw [hloop _ s (List.nodup_finRange n), if_pos (List.mem_finRange j)]

/-- The cells of an array from `p` on, where the array holds the list and
something else behind it. -/
theorem map_range_getD {l : List α} {behind : ℕ → α} {p n : ℕ}
    (hle : p + n ≤ l.length) :
    ((List.range n).map fun i => l.getD (p + i) (behind (p + i)))
      = (l.drop p).take n := by
  refine List.ext_getElem (by simp; omega) fun i h1 h2 => ?_
  have hi : p + i < l.length := by
    rw [List.length_map, List.length_range] at h1
    omega
  rw [List.getElem_map, List.getElem_range, List.getElem_take,
    List.getElem_drop]
  exact List.getD_eq_getElem _ _ hi

end Nexus.Lib
