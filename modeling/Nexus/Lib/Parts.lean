import Mathlib

/-!
# Lists cut at a separator

A list is cut wherever a separator is seen, and the element behind a cut is
taken unseen: it begins the next part, even if it is a separator. So a run of
separators gives a cut for every second of them, and no part but the first is
empty.

Joined again the parts give the list back, unless it begins with a separator, or
a cut is the last thing in it. The second happens exactly if an odd number of
separators ends the list.
-/

namespace Nexus.Lib.Parts

variable {α : Type*} (c : α)

/-- One more part; an empty beginning is forgotten. -/
def join (joined part : List α) : List α :=
  if joined.length > 0 then joined ++ c :: part else part

/-- All parts. -/
def joinAll (joined : List α) (parts : List (List α)) : List α :=
  parts.foldl (join c) joined

/-- What may stand behind a list: nothing more, or one element that is no
separator. -/
def Followed (last : List (List α)) : Prop :=
  last = [] ∨ ∃ z, last = [[z]] ∧ z ≠ c

variable {c} {last : List (List α)} {joined part xs : List α}

theorem join_append (ys : List α) :
    join c joined (part ++ ys) = join c joined part ++ ys := by
  simp only [join]
  split
  · rw [List.append_assoc, List.cons_append]
  · rfl

theorem join_of_ne_nil (h : joined ≠ []) :
    join c joined part = joined ++ c :: part :=
  if_pos (List.length_pos_of_ne_nil h)

theorem join_ne_nil (h : joined ≠ [] ∨ part ≠ []) : join c joined part ≠ [] := by
  rcases eq_or_ne joined [] with rfl | hne
  · simpa [join] using h
  · rw [join_of_ne_nil hne]
    simp

/-- What a last cut leaves is not the list. -/
theorem joinAll_last_ne (hlast : Followed c last) (hjoined : joined ≠ [])
    (hxs : xs ≠ []) : joinAll c (joined ++ xs.dropLast) last ≠ joined ++ xs := by
  have hpos := List.length_pos_of_ne_nil hxs
  intro heq
  have hlength := congrArg List.length heq
  rcases hlast with rfl | ⟨z, rfl, -⟩
  · simp [joinAll] at hlength
    omega
  · have hne : joined ++ xs.dropLast ≠ [] := by simp [hjoined]
    simp [joinAll, join_of_ne_nil hne] at hlength
    omega

variable [DecidableEq α] (c) (last)

/-- The parts of a list behind the elements of the part that is begun; `last` is
what follows a cut at the very end. -/
def cut : List α → List α → List (List α)
  | part, [] => [part]
  | part, [x] => if x = c then part :: last else [part ++ [x]]
  | part, x :: y :: xs =>
      if x = c then part :: cut [y] xs else cut (part ++ [x]) (y :: xs)

/-- A cut is the last thing in the list. -/
def endsCut : List α → Bool
  | [] => false
  | [x] => x = c
  | x :: y :: xs => if x = c then endsCut xs else endsCut (y :: xs)

variable {c} {last}

theorem cut_ne_nil : cut c last part xs ≠ [] := by
  induction xs using endsCut.induct c generalizing part with
  | case1 => simp [cut]
  | case2 x =>
      rw [cut]
      split <;> simp
  | case3 y xs ih => simp [cut]
  | case4 x y xs hx ih =>
      rw [cut, if_neg hx]
      exact ih

/-- What follows a cut at the very end is nothing to a list no cut ends. -/
theorem cut_congr_last {last' : List (List α)} (h : endsCut c xs = false) :
    cut c last part xs = cut c last' part xs := by
  induction xs using endsCut.induct c generalizing part with
  | case1 => rfl
  | case2 x =>
      have hx : x ≠ c := by simpa [endsCut] using h
      rw [cut, cut, if_neg hx, if_neg hx]
  | case3 y xs ih =>
      rw [endsCut, if_pos rfl] at h
      rw [cut, cut, if_pos rfl, if_pos rfl, ih h]
  | case4 x y xs hx ih =>
      rw [endsCut, if_neg hx] at h
      rw [cut, cut, if_neg hx, if_neg hx, ih h]

/-- The first part prolongs the part that is begun. -/
theorem cut_eq_cons (last : List (List α)) (part xs : List α) :
    ∃ ys parts, cut c last part xs = (part ++ ys) :: parts := by
  induction xs using endsCut.induct c generalizing part with
  | case1 => exact ⟨[], [], by simp [cut]⟩
  | case2 x =>
      by_cases hx : x = c
      · exact ⟨[], last, by simp [cut, hx]⟩
      · exact ⟨[x], [], by simp [cut, hx]⟩
  | case3 y xs ih => exact ⟨[], cut c last [y] xs, by simp [cut]⟩
  | case4 x y xs hx ih =>
      obtain ⟨ys, parts, hparts⟩ := ih (part ++ [x])
      exact ⟨x :: ys, parts, by simp [cut, hx, hparts]⟩

/-- The first part is empty only if there is nothing else, or the list begins
with a separator. -/
theorem cut_first (last : List (List α)) (h : xs.head? ≠ some c) :
    ∃ first parts, cut c last [] xs = first :: parts
      ∧ (first ≠ [] ∨ parts = []) := by
  match xs with
  | [] => exact ⟨[], [], rfl, .inr rfl⟩
  | [x] =>
      have hx : x ≠ c := by simpa using h
      exact ⟨[x], [], by simp [cut, hx], .inr rfl⟩
  | x :: y :: xs =>
      have hx : x ≠ c := by simpa using h
      obtain ⟨ys, parts, hparts⟩ :=
        cut_eq_cons (c := c) last [x] (y :: xs)
      refine ⟨[x] ++ ys, parts, ?_, .inl (by simp)⟩
      rw [cut, if_neg hx]
      exact hparts

/-- From a beginning that is not empty, joining gives the list back, up to a cut
that ends it. -/
theorem joinAll_cut (h : join c joined part ≠ []) :
    joinAll c joined (cut c last part xs)
      = if endsCut c xs = true then
          joinAll c (join c joined part ++ xs.dropLast) last
        else join c joined part ++ xs := by
  induction xs using endsCut.induct c generalizing joined part with
  | case1 => simp [cut, endsCut, joinAll]
  | case2 x =>
      by_cases hx : x = c
      · simp [cut, endsCut, hx, joinAll]
      · simp [cut, endsCut, hx, joinAll, join_append]
  | case3 y xs ih =>
      have hne : join c (join c joined part) [y] ≠ [] := join_ne_nil (.inl h)
      have hstep := ih hne
      rw [join_of_ne_nil h] at hstep
      simp only [cut, if_true, endsCut, joinAll, List.foldl_cons] at hstep ⊢
      rw [hstep]
      split
      next hends =>
        have hne : xs ≠ [] := by
          rintro rfl
          simp [endsCut] at hends
        simp [List.dropLast_cons_of_ne_nil hne]
      next => simp
  | case4 x y xs hx ih =>
      have hne : join c joined (part ++ [x]) ≠ [] :=
        join_ne_nil (.inr (by simp))
      have hstep := ih hne
      simp only [cut, if_neg hx, endsCut, join_append] at hstep ⊢
      rw [hstep]
      simp

theorem endsCut_ne_nil (h : endsCut c xs = true) : xs ≠ [] := by
  rintro rfl
  simp [endsCut] at h

theorem getLast_of_endsCut (h : endsCut c xs = true) :
    xs.getLast? = some c := by
  induction xs using endsCut.induct c with
  | case1 => simp [endsCut] at h
  | case2 x => simpa [endsCut] using h
  | case3 y xs ih =>
      simp only [endsCut, if_true] at h
      cases xs with
      | nil => simp [endsCut] at h
      | cons z xs =>
          rw [List.getLast?_cons_cons, List.getLast?_cons_cons]
          exact ih h
  | case4 x y xs hx ih =>
      simp only [endsCut, if_neg hx] at h
      rw [List.getLast?_cons_cons]
      exact ih h

/-- Joining the parts of a list gives it back exactly if the list does not begin
with a separator and no cut ends it. -/
theorem joinAll_cut_eq_iff (hlast : Followed c last) :
    joinAll c [] (cut c last [] xs) = xs
      ↔ xs.head? ≠ some c ∧ endsCut c xs = false := by
  match xs with
  | [] => simp [cut, joinAll, join, endsCut]
  | [x] =>
      by_cases hx : x = c
      · subst hx
        rcases hlast with rfl | ⟨z, rfl, hz⟩
        · simp [cut, joinAll, join]
        · simpa [cut, joinAll, join] using hz
      · simp [cut, hx, joinAll, join, endsCut]
  | x :: y :: xs =>
      by_cases hx : x = c
      · subst hx
        refine iff_of_false ?_ (by simp)
        have hjoin : join x (join x [] []) [y] = [y] := by simp [join]
        have hall : joinAll x [] (cut x last [] (x :: y :: xs))
            = joinAll x (join x [] []) (cut x last [y] xs) := by
          simp [cut, joinAll]
        rw [hall, joinAll_cut (by simp [hjoin]), hjoin]
        split
        next hends =>
          have hne := endsCut_ne_nil hends
          have hpos := List.length_pos_of_ne_nil hne
          rcases hlast with rfl | ⟨z, rfl, hz⟩
          · intro heq
            have := congrArg List.length heq
            simp [joinAll] at this
          · intro heq
            have hget := congrArg List.getLast? heq
            have hxs : (x :: y :: xs).getLast? = some x := by
              refine getLast_of_endsCut ?_
              simpa [endsCut] using hends
            have hjoined : joinAll x ([y] ++ xs.dropLast) [[z]]
                = ([y] ++ xs.dropLast ++ [x]) ++ [z] := by
              simp [joinAll, join]
            rw [hjoined, hxs, List.getLast?_concat] at hget
            exact hz (Option.some.inj hget)
        next =>
          intro heq
          have := congrArg List.length heq
          simp at this
      · have hne : join c [] [x] ≠ [] := by simp [join]
        have hcut : cut c last [] (x :: y :: xs)
            = cut c last [x] (y :: xs) := by simp [cut, hx]
        have hends : endsCut c (x :: y :: xs) = endsCut c (y :: xs) := by
          simp [endsCut, hx]
        rw [hcut, joinAll_cut hne, hends]
        have hjoin : join c [] [x] = [x] := by simp [join]
        rw [hjoin]
        split
        next h =>
          refine iff_of_false ?_ (by simp [h])
          exact joinAll_last_ne hlast (List.cons_ne_nil x [])
            (endsCut_ne_nil h)
        next h => simp [hx, h]

/-- The separators that end a list. -/
def trailing (c : α) (xs : List α) : ℕ :=
  (xs.reverse.takeWhile (· == c)).length

theorem trailing_cons (x : α) :
    trailing c (x :: xs)
      = if trailing c xs = xs.length then
          xs.length + if x = c then 1 else 0
        else trailing c xs := by
  simp only [trailing, List.reverse_cons, List.takeWhile_append,
    List.length_reverse]
  by_cases hall : (xs.reverse.takeWhile (· == c)).length = xs.length
  · by_cases hx : x = c <;> simp [hall, hx]
  · simp only [hall, if_false]

/-- A cut ends a list exactly if an odd number of separators does. -/
theorem endsCut_iff : endsCut c xs = true ↔ trailing c xs % 2 = 1 := by
  induction xs using endsCut.induct c with
  | case1 => simp [endsCut, trailing]
  | case2 x =>
      by_cases hx : x = c
      · simp [endsCut, hx, trailing]
      · simp [endsCut, hx, trailing]
  | case3 y xs ih =>
      rw [endsCut, if_pos rfl, ih, trailing_cons, trailing_cons]
      by_cases hall : trailing c xs = xs.length
      · by_cases hy : y = c
        · simp [hall, hy]
          omega
        · simp [hall, hy]
      · have hlt : trailing c xs < xs.length + 1 := by
          have hle : trailing c xs ≤ xs.length := by
            have hsub := (List.takeWhile_sublist (l := xs.reverse)
              (· == c)).length_le
            rwa [List.length_reverse] at hsub
          omega
        simp [hall, hlt.ne]
  | case4 x y xs hx ih =>
      rw [endsCut, if_neg hx, ih, trailing_cons x]
      split
      next hall => simp [hall]
      next => rfl

end Nexus.Lib.Parts
