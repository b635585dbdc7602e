import Mathlib

/-!
# Turns on a ring

Places are numbered around a ring and some of them are marked. Searching from
behind a marked place, once around, finds the next marked one; so does the
numbering of the marked places by themselves, modulo their number. From there
on the places do not matter: whoever goes round a list meets each of its
members once and is back.
-/

namespace Nexus.Lib

/-! ## Searching a ring -/

section Ring

variable {n : ℕ}

/-- The marked places, in order. -/
def marked (p : Fin n → Bool) : List (Fin n) := (List.finRange n).filter p

theorem nodup_marked (p : Fin n → Bool) : (marked p).Nodup :=
  (List.nodup_finRange n).filter p

theorem mem_marked {p : Fin n → Bool} {i : Fin n} :
    i ∈ marked p ↔ p i = true := by
  rw [marked, List.mem_filter]
  exact and_iff_right (List.mem_finRange i)

/-- All places but one, from the one behind it, are the places behind it and
then the places before it. -/
theorem map_wrap_range' (hn : 0 < n) (i : Fin n) :
    (List.range' (i + 1) (n - 1)).map
        (fun j => (⟨j % n, Nat.mod_lt j hn⟩ : Fin n))
      = (List.finRange n).drop (i + 1) ++ (List.finRange n).take i := by
  have hi := i.isLt
  refine List.ext_getElem ?_ ?_
  · simp only [List.length_map, List.length_range', List.length_append,
      List.length_drop, List.length_take, List.length_finRange]
    omega
  · intro d hd hd'
    rw [List.getElem_map, List.getElem_range', Fin.ext_iff]
    rw [List.length_map, List.length_range'] at hd
    by_cases hwrap : d < n - (i + 1)
    · have hlt : d < ((List.finRange n).drop (i + 1)).length := by
        rw [List.length_drop, List.length_finRange]
        exact hwrap
      rw [List.getElem_append_left hlt, List.getElem_drop,
        List.getElem_finRange]
      show (i + 1 + 1 * d) % n = i + 1 + d
      rw [one_mul]
      exact Nat.mod_eq_of_lt (by omega)
    · have hle : ((List.finRange n).drop (i + 1)).length ≤ d := by
        rw [List.length_drop, List.length_finRange]
        omega
      rw [List.getElem_append_right hle, List.getElem_take,
        List.getElem_finRange]
      show (i + 1 + 1 * d) % n = d - ((List.finRange n).drop (i + 1)).length
      rw [one_mul, List.length_drop, List.length_finRange,
        Nat.mod_eq_sub_mod (by omega), Nat.mod_eq_of_lt (by omega)]
      omega

/-- The places before and behind a place. -/
theorem finRange_split (i : Fin n) :
    List.finRange n = (List.finRange n).take i
      ++ i :: (List.finRange n).drop (i + 1) := by
  have hlt : (i : ℕ) < (List.finRange n).length := by
    rw [List.length_finRange]
    exact i.isLt
  have hget : (List.finRange n)[(i : ℕ)] = i := by
    rw [List.getElem_finRange]
    rfl
  calc List.finRange n
    _ = (List.finRange n).take i ++ (List.finRange n).drop i :=
        (List.take_append_drop i (List.finRange n)).symm
    _ = (List.finRange n).take i ++ i :: (List.finRange n).drop (i + 1) := by
        rw [List.drop_eq_getElem_cons hlt, hget]

/-- Every other place is met on the way round. -/
theorem mem_map_wrap_range' (hn : 0 < n) {i j : Fin n} (h : j ≠ i) :
    j ∈ (List.range' (i + 1) (n - 1)).map
      (fun k => (⟨k % n, Nat.mod_lt k hn⟩ : Fin n)) := by
  have hmem : j ∈ List.finRange n := List.mem_finRange j
  rw [finRange_split i, List.mem_append, List.mem_cons] at hmem
  rw [map_wrap_range' hn, List.mem_append]
  rcases hmem with hbefore | heq | hbehind
  · exact Or.inr hbefore
  · exact absurd heq h
  · exact Or.inl hbehind

/-- The marked places before and behind a marked place. -/
theorem marked_split {p : Fin n → Bool} {i : Fin n} (hi : p i = true) :
    marked p = ((List.finRange n).take i).filter p
      ++ i :: ((List.finRange n).drop (i + 1)).filter p := by
  rw [marked, ← List.filter_cons_of_pos hi, ← List.filter_append,
    ← finRange_split i]

/-- Whoever is first in what lies behind a member and then before it is next,
counted around the list. -/
theorem head?_append_eq_next {α : Type*} {l before behind : List α} {x : α}
    (hl : l = before ++ x :: behind) (hnodup : l.Nodup) {j : ℕ}
    (hx : l[j]? = some x) (hlen : 1 < l.length) :
    (behind ++ before).head? = l[(j + 1) % l.length]? := by
  subst hl
  have hj : j < (before ++ x :: behind).length :=
    (List.getElem?_eq_some_iff.mp hx).1
  have hindex : j = before.length := by
    refine (List.getElem?_inj hj hnodup).mp ?_
    rw [hx, List.getElem?_append_right le_rfl, Nat.sub_self]
    rfl
  subst hindex
  rw [List.length_append, List.length_cons] at hlen ⊢
  cases behind with
  | nil =>
      -- it was the last one, and the first is next
      rw [List.length_nil, Nat.mod_self, List.nil_append, List.head?_eq_getElem?,
        List.getElem?_append_left]
      rw [List.length_nil] at hlen
      omega
  | cons y behind =>
      rw [List.length_cons, Nat.mod_eq_of_lt (by omega),
        List.getElem?_append_right (by omega), Nat.add_sub_cancel_left]
      rfl

/-- The search from behind a marked place finds the next marked place. -/
theorem find?_ring {p : Fin n → Bool} (hn : 0 < n) {i : Fin n} {j : ℕ}
    (hi : (marked p)[j]? = some i) (hlen : 1 < (marked p).length) :
    ((List.range' (i + 1) (n - 1)).map
        (fun j => (⟨j % n, Nat.mod_lt j hn⟩ : Fin n))).find? p
      = (marked p)[(j + 1) % (marked p).length]? := by
  have hp : p i = true := mem_marked.mp (List.mem_of_getElem? hi)
  rw [map_wrap_range' hn, ← List.head?_filter, List.filter_append]
  exact head?_append_eq_next (marked_split hp) (nodup_marked p) hi hlen

end Ring

/-! ## Going round a list -/

section Round

variable {α : Type*} {l : List α} {next : α → Option α}
  (hnext : ∀ (j : ℕ) (x : α), l[j]? = some x →
    next x = l[(j + 1) % l.length]?)

include hnext

/-- So many steps further, so many members on. -/
theorem iterate_next {j : ℕ} {x : α} (hx : l[j]? = some x) (t : ℕ) :
    (fun o : Option α => o.bind next)^[t] (some x)
      = l[(j + t) % l.length]? := by
  have hj : j < l.length := (List.getElem?_eq_some_iff.mp hx).1
  induction t with
  | zero =>
      rw [Function.iterate_zero, Nat.add_zero, Nat.mod_eq_of_lt hj, hx]
      rfl
  | succ t ih =>
      have hlt : (j + t) % l.length < l.length := Nat.mod_lt _ (by omega)
      have hsome : l[(j + t) % l.length]? = some l[(j + t) % l.length] :=
        List.getElem?_eq_getElem hlt
      rw [Function.iterate_succ_apply', ih, hsome, Option.bind_some,
        hnext _ _ hsome, Nat.mod_add_mod, Nat.add_assoc]

/-- Once round, and back. -/
theorem iterate_length {j : ℕ} {x : α} (hx : l[j]? = some x) :
    (fun o : Option α => o.bind next)^[l.length] (some x) = some x := by
  have hj : j < l.length := (List.getElem?_eq_some_iff.mp hx).1
  rw [iterate_next hnext hx, Nat.add_mod_right, Nat.mod_eq_of_lt hj, hx]

/-- The members are met one after the other, from the next one on. -/
theorem map_iterate_range {j : ℕ} {x : α} (hx : l[j]? = some x) :
    (List.range l.length).map (fun t =>
      (fun o : Option α => o.bind next)^[t + 1] (some x))
      = (l.rotate (j + 1)).map some := by
  refine List.ext_getElem? ?_
  intro t
  by_cases ht : t < l.length
  · have hrotate : (l.rotate (j + 1))[t]? = l[(j + (t + 1)) % l.length]? := by
      rw [List.getElem?_rotate ht]
      congr 2
      omega
    have hlt : (j + (t + 1)) % l.length < l.length := Nat.mod_lt _ (by omega)
    rw [List.getElem?_map, List.getElem?_range ht, List.getElem?_map, hrotate,
      Option.map_some, iterate_next hnext hx, List.getElem?_eq_getElem hlt]
    rfl
  · rw [List.getElem?_eq_none (by simpa using ht),
      List.getElem?_eq_none (by simpa using ht)]

end Round

end Nexus.Lib
