import Nexus.Channel.LinkHandshake
import Nexus.Lib.Run

/-!
# Controller handshakes and time

`nexus_channel_res_link_hs_process` is told how many seconds have passed, in 32
bits, and counts them in 16. A handshake is given up after an hour and its POST
is sent again every five seconds; both hold as long as no single call takes the
count past the hour and around its 65536 values to a count within the hour
again. The source asserts that no call is that long, where assertions are
compiled in.
-/

namespace Nexus.Channel

open Nexus.Lib

namespace LinkHsClients

/-- The seconds of a sequence of calls. -/
def total (calls : List UInt32) : ℕ := (calls.map UInt32.toNat).sum

/-- The handshakes after a sequence of calls of `process`. -/
def afterCalls (clients : LinkHsClients) (calls : List UInt32) :
    LinkHsClients :=
  run process clients calls

/-- The seconds since the last POST of a handshake, if `seconds` had passed
before the calls. -/
def secondsSincePost (i : Fin simultaneousLinkHandshakes) :
    LinkHsClients → ℕ → List UInt32 → ℕ
  | _, seconds, [] => seconds
  | clients, seconds, elapsed :: calls =>
      secondsSincePost i (clients.process elapsed)
        (if i ∈ clients.posts elapsed then 0 else seconds + elapsed.toNat)
        calls

/-- At every moment of the calls, with so many seconds since the start of the
handshake and since its last POST before them: once more than an hour has
passed since the start, the handshake is idle and all zero; and before that the
next call sends its POST if five seconds have passed since the last one. -/
def TimesOut (i : Fin simultaneousLinkHandshakes) (clients : LinkHsClients)
    (seconds sincePost : ℕ) (calls : List UInt32) : Prop :=
  ∀ before after, calls = before ++ after →
    (3600 < seconds + total before →
      clients.afterCalls before i = .zero) ∧
    ∀ elapsed, after.head? = some elapsed →
      seconds + total (before ++ [elapsed]) ≤ 3600 →
      5 ≤ secondsSincePost i clients sincePost before + elapsed.toNat →
      i ∈ (clients.afterCalls before).posts elapsed

/-- A call that takes the count of an active handshake past the hour does not
take it around to a count within the hour. -/
def StaysPast (i : Fin simultaneousLinkHandshakes) (clients : LinkHsClients)
    (elapsed : UInt32) : Prop :=
  (clients i).state = .active →
    ¬ (3600 < (clients i).secondsSinceInit.toNat + elapsed.toNat ∧
      ((clients i).secondsSinceInit.toNat + elapsed.toNat) % 65536 ≤ 3600)

/-! ## One call -/

/-- A handshake whose two counts are the seconds that have passed. -/
structure Counts (client : LinkHsController) (seconds sincePost : ℕ) :
    Prop where
  active : client.state = .active
  secondsSinceInit : client.secondsSinceInit.toNat = seconds
  within : seconds ≤ 3600
  lastPost : client.lastPostSeconds.toNat + sincePost = seconds

section

variable {clients : LinkHsClients} {i : Fin simultaneousLinkHandshakes}
  {client : LinkHsController} {seconds sincePost : ℕ} {elapsed : UInt32}

theorem mem_posts_iff :
    i ∈ clients.posts elapsed ↔ ((clients i).process elapsed).1 = true := by
  rw [posts, List.mem_filter]
  exact and_iff_right (List.mem_finRange i)

/-- The sum as the code computes it. -/
theorem toNat_sum (count : UInt16) (elapsed : UInt32) :
    (count.toUInt32 + elapsed).toUInt16.toNat
      = (count.toNat + elapsed.toNat) % 65536 := by
  rw [UInt32.toNat_toUInt16, UInt32.toNat_add, UInt16.toNat_toUInt32]
  omega

/-- A call within the hour. -/
theorem Counts.process_within (h : Counts client seconds sincePost)
    (hwithin : seconds + elapsed.toNat ≤ 3600) :
    ((client.process elapsed).1 = true ↔ 5 ≤ sincePost + elapsed.toNat) ∧
      Counts (client.process elapsed).2 (seconds + elapsed.toNat)
        (if (client.process elapsed).1 = true then 0
          else sincePost + elapsed.toNat) := by
  have hlast := h.lastPost
  have hsum : (client.secondsSinceInit.toUInt32 + elapsed).toUInt16.toNat
      = seconds + elapsed.toNat := by
    rw [toNat_sum, h.secondsSinceInit]
    omega
  have htimeout : ¬ (client.secondsSinceInit.toUInt32 + elapsed).toUInt16
      > linkHandshakeControllerTimeoutSeconds := by
    rw [gt_iff_lt, UInt16.lt_iff_toNat_lt, hsum]
    show ¬ 3600 < _
    omega
  have hretry : (client.secondsSinceInit.toUInt32 + elapsed).toUInt16
        - client.lastPostSeconds ≥ linkHandshakeControllerRetrySeconds
      ↔ 5 ≤ sincePost + elapsed.toNat := by
    rw [ge_iff_le, UInt16.le_iff_toNat_le, UInt16.toNat_sub, hsum]
    show 5 ≤ _ ↔ _
    omega
  rw [LinkHsController.process, if_neg (by rw [h.active]; decide)]
  dsimp only
  rw [if_neg htimeout]
  by_cases hpost : 5 ≤ sincePost + elapsed.toNat
  · rw [if_pos ⟨h.active, hretry.mpr hpost⟩]
    refine ⟨iff_of_true rfl hpost, h.active, hsum, hwithin, ?_⟩
    rw [if_pos rfl, Nat.add_zero]
    exact hsum
  · rw [if_neg fun hboth => hpost (hretry.mp hboth.2)]
    refine ⟨iff_of_false Bool.false_ne_true hpost, h.active, hsum, hwithin,
      ?_⟩
    rw [if_neg Bool.false_ne_true]
    show client.lastPostSeconds.toNat + _ = _
    omega

/-- A call past the hour. -/
theorem Counts.process_past (h : Counts client seconds sincePost)
    (hpast : 3600 < seconds + elapsed.toNat) :
    (client.process elapsed).2 = .zero ↔
      3600 < (seconds + elapsed.toNat) % 65536 := by
  have hsum : (client.secondsSinceInit.toUInt32 + elapsed).toUInt16.toNat
      = (seconds + elapsed.toNat) % 65536 := by
    rw [toNat_sum, h.secondsSinceInit]
  have htimeout : (client.secondsSinceInit.toUInt32 + elapsed).toUInt16
        > linkHandshakeControllerTimeoutSeconds
      ↔ 3600 < (seconds + elapsed.toNat) % 65536 := by
    rw [gt_iff_lt, UInt16.lt_iff_toNat_lt, hsum]
    rfl
  rw [LinkHsController.process, if_neg (by rw [h.active]; decide)]
  dsimp only
  by_cases hpast' : 3600 < (seconds + elapsed.toNat) % 65536
  · rw [if_pos (htimeout.mpr hpast')]
    exact iff_of_true rfl hpast'
  · rw [if_neg fun htime => hpast' (htimeout.mp htime)]
    refine iff_of_false ?_ hpast'
    intro hzero
    have hidle : LinkHandshakeState.active = .idle := by
      split at hzero
      · exact h.active.symm.trans (congrArg LinkHsController.state hzero)
      · exact h.active.symm.trans (congrArg LinkHsController.state hzero)
    cases hidle

theorem process_zero (elapsed : UInt32) :
    LinkHsController.zero.process elapsed = (false, .zero) := rfl

/-! ## All calls -/

theorem total_cons (elapsed : UInt32) (calls : List UInt32) :
    total (elapsed :: calls) = elapsed.toNat + total calls := by
  rw [total, total, List.map_cons, List.sum_cons]

variable {calls : List UInt32}

theorem timesOut_cons :
    TimesOut i clients seconds sincePost (elapsed :: calls) ↔
      (3600 < seconds → clients i = .zero) ∧
      (seconds + elapsed.toNat ≤ 3600 → 5 ≤ sincePost + elapsed.toNat →
        i ∈ clients.posts elapsed) ∧
      TimesOut i (clients.process elapsed) (seconds + elapsed.toNat)
        (if i ∈ clients.posts elapsed then 0 else sincePost + elapsed.toNat)
        calls := by
  constructor
  · intro h
    refine ⟨(h [] _ rfl).1, ?_, ?_⟩
    · intro hwithin
      refine (h [] _ rfl).2 elapsed rfl ?_
      rw [List.nil_append, total_cons]
      exact hwithin
    · intro before after hcalls
      obtain ⟨hzero, hpost⟩ := h (elapsed :: before) after
        (by rw [hcalls]; rfl)
      rw [total_cons, ← Nat.add_assoc] at hzero
      refine ⟨hzero, ?_⟩
      intro next hnext hwithin
      refine hpost next hnext ?_
      rw [List.cons_append, total_cons, ← Nat.add_assoc]
      exact hwithin
  · rintro ⟨hzero, hpost, hrest⟩ before after hcalls
    cases before with
    | nil =>
        refine ⟨hzero, ?_⟩
        intro next hnext hwithin
        rw [List.nil_append] at hcalls
        rw [← hcalls] at hnext
        injection hnext with hnext
        subst hnext
        rw [List.nil_append, total_cons] at hwithin
        exact hpost hwithin
    | cons first before =>
        injection hcalls with hfirst hcalls
        subst hfirst
        obtain ⟨hzero, hpost⟩ := hrest before after hcalls
        rw [total_cons, ← Nat.add_assoc]
        refine ⟨hzero, ?_⟩
        intro next hnext hwithin
        refine hpost next hnext ?_
        rw [List.cons_append, total_cons, ← Nat.add_assoc] at hwithin
        exact hwithin

/-- Nothing happens any more to a handshake that was given up. -/
theorem timesOut_of_zero (hzero : clients i = .zero)
    (hpast : 3600 < seconds) :
    TimesOut i clients seconds sincePost calls ∧
      Along process (StaysPast i) clients calls := by
  induction calls generalizing clients seconds sincePost with
  | nil =>
      refine ⟨?_, trivial⟩
      intro before after hcalls
      obtain ⟨rfl, rfl⟩ := List.append_eq_nil_iff.mp hcalls.symm
      exact ⟨fun _ => hzero, fun _ h => nomatch h⟩
  | cons elapsed calls ih =>
      have hnext : clients.process elapsed i = .zero := by
        show ((clients i).process elapsed).2 = .zero
        rw [hzero, process_zero]
      obtain ⟨hrest, halong⟩ := @ih (clients.process elapsed)
        (seconds + elapsed.toNat)
        (if i ∈ clients.posts elapsed then 0 else sincePost + elapsed.toNat)
        hnext (by omega)
      refine ⟨timesOut_cons.mpr ⟨fun _ => hzero, ?_, hrest⟩, ?_, halong⟩
      · intro hwithin
        omega
      · intro hactive
        rw [hzero] at hactive
        cases hactive

/-- As long as the counts are right, everything depends on the calls that go
past the hour. -/
theorem Counts.timesOut_of_counts (h : Counts (clients i) seconds sincePost) :
    TimesOut i clients seconds sincePost calls ↔
      Along process (StaysPast i) clients calls := by
  induction calls generalizing clients seconds sincePost with
  | nil =>
      refine iff_of_true ?_ trivial
      intro before after hcalls
      obtain ⟨rfl, rfl⟩ := List.append_eq_nil_iff.mp hcalls.symm
      refine ⟨?_, fun _ h => nomatch h⟩
      intro hpast
      have := h.within
      rw [total, List.map_nil, List.sum_nil] at hpast
      omega
  | cons elapsed calls ih =>
      have hwithin := h.within
      rw [timesOut_cons]
      by_cases hcall : seconds + elapsed.toNat ≤ 3600
      · obtain ⟨hpost, hcounts⟩ := h.process_within hcall
        rw [← mem_posts_iff] at hpost
        have hsincePost : (if ((clients i).process elapsed).1 = true then 0
            else sincePost + elapsed.toNat)
            = if i ∈ clients.posts elapsed then 0
              else sincePost + elapsed.toNat := by
          simp only [mem_posts_iff]
        rw [hsincePost] at hcounts
        have hstays : StaysPast i clients elapsed := by
          rintro - ⟨hpast, -⟩
          rw [h.secondsSinceInit] at hpast
          omega
        rw [ih hcounts]
        constructor
        · rintro ⟨-, -, halong⟩
          exact ⟨hstays, halong⟩
        · rintro ⟨-, halong⟩
          refine ⟨?_, fun _ => hpost.mpr, halong⟩
          intro hpast
          omega
      · have hpast := h.process_past (not_le.mp hcall)
        by_cases hmod : 3600 < (seconds + elapsed.toNat) % 65536
        · have hzero : clients.process elapsed i = .zero := hpast.mpr hmod
          obtain ⟨hrest, halong⟩ := @timesOut_of_zero
            (clients.process elapsed) i (seconds + elapsed.toNat)
            (if i ∈ clients.posts elapsed then 0
              else sincePost + elapsed.toNat) calls hzero (by omega)
          refine iff_of_true ⟨?_, ?_, hrest⟩ ⟨?_, halong⟩
          · intro hpast
            omega
          · intro hwithin
            exact absurd hwithin hcall
          · rintro - ⟨-, hback⟩
            rw [h.secondsSinceInit] at hback
            omega
        · refine iff_of_false ?_ ?_
          · rintro ⟨-, -, hrest⟩
            have hzero : clients.process elapsed i = .zero :=
              (hrest [] calls rfl).1 (by
                rw [total, List.map_nil, List.sum_nil]
                omega)
            exact hmod (hpast.mp hzero)
          · rintro ⟨hstays, -⟩
            refine hstays h.active ⟨?_, ?_⟩
            · rw [h.secondsSinceInit]
              omega
            · rw [h.secondsSinceInit]
              omega

end

end LinkHsClients

end Nexus.Channel
