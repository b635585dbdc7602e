import Mathlib

/-!
# Tagged values

Values that carry numbers, in an order in which the numbers never fall. On the
wire each stands behind a header that holds the difference between its number
and the one before, and its length; a cell no header begins with ends them.

A code for headers is a writer and a reader, and the reader takes back what the
writer wrote, whatever follows. Nothing more is needed to read a list of tagged
values back.
-/

namespace Nexus.Lib.Tagged

variable {α : Type*}

/-- A code for headers. -/
structure HeaderCode (α : Type*) where
  /-- the header of a difference and a length -/
  write : ℕ → ℕ → List α
  /-- the difference, the length, and the cells they took -/
  read : List α → Option (ℕ × ℕ × ℕ)
  /-- no header begins with this cell -/
  stops : α → Bool
  /-- what the writer can write -/
  inRange : ℕ → Prop
  read_pos : ∀ {xs d n k}, read xs = some (d, n, k) → 0 < k
  read_write : ∀ {d n}, inRange d → inRange n → ∀ rest,
    read (write d n ++ rest) = some (d, n, (write d n).length)
  write_stops : ∀ {d n x xs}, inRange d → inRange n →
    write d n = x :: xs → stops x = false

variable (c : HeaderCode α)

/-- Tagged values on the wire, behind the number before. -/
def encode : ℕ → List (ℕ × List α) → List α
  | _, [] => []
  | number, (n, value) :: values =>
      c.write (n - number) value.length ++ value ++ encode n values

/-- The tagged values a list begins with, and what is left of it. -/
def decode : ℕ → ℕ → List α → List (ℕ × List α) × List α
  | 0, _, xs => ([], xs)
  | _ + 1, _, [] => ([], [])
  | fuel + 1, number, x :: xs =>
      if c.stops x then ([], x :: xs)
      else
        match c.read (x :: xs) with
        | none => ([], x :: xs)
        | some (d, n, k) =>
            if k + n ≤ (x :: xs).length then
              let (values, rest) :=
                decode fuel (number + d) ((x :: xs).drop (k + n))
              ((number + d, ((x :: xs).drop k).take n) :: values, rest)
            else ([], x :: xs)

/-- Numbers that never fall, by differences a header can hold, and lengths it
can hold. -/
def Ordered : ℕ → List (ℕ × List α) → Prop
  | _, [] => True
  | number, (n, value) :: values =>
      number ≤ n ∧ c.inRange (n - number) ∧ c.inRange value.length
        ∧ Ordered n values

variable {c} {number : ℕ} {values : List (ℕ × List α)} {rest : List α}

/-- The number of the last value, if there is one. -/
def lastNumber (number : ℕ) (values : List (ℕ × List α)) : ℕ :=
  (values.getLast?.map Prod.fst).getD number

@[simp] theorem lastNumber_nil : lastNumber number ([] : List (ℕ × List α))
    = number := rfl

theorem lastNumber_cons (v : ℕ × List α) (values : List (ℕ × List α)) :
    lastNumber number (v :: values) = lastNumber v.1 values := by
  cases values with
  | nil => rfl
  | cons v' values => simp [lastNumber, List.getLast?_cons]

theorem lastNumber_append (values values' : List (ℕ × List α)) :
    lastNumber number (values ++ values')
      = lastNumber (lastNumber number values) values' := by
  induction values generalizing number with
  | nil => rfl
  | cons v values ih => rw [List.cons_append, lastNumber_cons, ih,
      lastNumber_cons]

theorem encode_append (values values' : List (ℕ × List α)) :
    encode c number (values ++ values')
      = encode c number values
        ++ encode c (lastNumber number values) values' := by
  induction values generalizing number with
  | nil => rfl
  | cons v values ih =>
      obtain ⟨n, value⟩ := v
      simp only [List.cons_append, encode, ih, lastNumber_cons,
        List.append_assoc]

theorem length_write_pos {d n : ℕ} (hd : c.inRange d) (hn : c.inRange n) :
    0 < (c.write d n).length :=
  c.read_pos (c.read_write hd hn [])

/-- Nothing follows that could be taken for another value. -/
def Ends (c : HeaderCode α) : List α → Prop
  | [] => True
  | x :: _ => c.stops x = true

theorem decode_ends (h : Ends c rest) (fuel : ℕ) :
    decode c fuel number rest = ([], rest) := by
  cases fuel with
  | zero => rfl
  | succ fuel =>
      cases rest with
      | nil => rfl
      | cons x xs =>
          have hstops : c.stops x = true := h
          simp [decode, hstops]

@[simp] theorem decode_nil (fuel : ℕ) :
    decode c fuel number [] = ([], []) := by
  cases fuel <;> rfl

/-- Fuel for every cell is enough. -/
theorem decode_fuel {xs : List α} {fuel fuel' : ℕ} (h : xs.length ≤ fuel)
    (h' : xs.length ≤ fuel') :
    decode c fuel number xs = decode c fuel' number xs := by
  induction fuel generalizing number xs fuel' with
  | zero =>
      rw [List.eq_nil_of_length_eq_zero (Nat.le_zero.mp h)]
      rw [decode_nil, decode_nil]
  | succ fuel ih =>
      cases xs with
      | nil => rw [decode_nil, decode_nil]
      | cons x xs =>
          obtain ⟨fuel', rfl⟩ : ∃ k, fuel' = k + 1 :=
            ⟨fuel' - 1, (Nat.sub_add_cancel (by simp at h'; omega)).symm⟩
          simp only [decode]
          split
          · rfl
          split
          · rfl
          next d n k hread =>
            split
            · have hpos := c.read_pos hread
              have hlt : ((x :: xs).drop (k + n)).length ≤ xs.length := by
                simp only [List.length_drop, List.length_cons]
                omega
              rw [ih (hlt.trans (Nat.le_of_succ_le_succ h))
                (hlt.trans (Nat.le_of_succ_le_succ h'))]
            · rfl

/-- One value in front. -/
theorem decode_write {d : ℕ} {value xs : List α} (hd : c.inRange d)
    (hn : c.inRange value.length) (fuel : ℕ) :
    decode c (fuel + 1) number (c.write d value.length ++ value ++ xs)
      = ((number + d, value) :: (decode c fuel (number + d) xs).1,
          (decode c fuel (number + d) xs).2) := by
  have hread := c.read_write hd hn (value ++ xs)
  have hpos := length_write_pos hd hn
  rw [List.append_assoc]
  cases hwrite : c.write d value.length with
  | nil => simp [hwrite] at hpos
  | cons x header =>
      have hstops := c.write_stops hd hn hwrite
      rw [hwrite] at hread
      rw [List.cons_append] at hread ⊢
      have hle : (x :: header).length + value.length
          ≤ (x :: (header ++ (value ++ xs))).length := by
        simp only [List.length_cons, List.length_append]
        omega
      have hdrop : (x :: (header ++ (value ++ xs))).drop (x :: header).length
          = value ++ xs := by
        rw [← List.cons_append, List.drop_left]
      simp only [decode, hstops, Bool.false_eq_true, if_false, hread,
        if_pos hle, ← List.drop_drop, hdrop, List.take_left, List.drop_left]

/-- What was written is read back, and what follows is left alone. -/
theorem decode_encode (h : Ordered c number values) (hrest : Ends c rest)
    {fuel : ℕ} (hfuel : values.length ≤ fuel) :
    decode c fuel number (encode c number values ++ rest) = (values, rest) := by
  induction values generalizing number fuel with
  | nil => exact decode_ends hrest fuel
  | cons v values ih =>
      obtain ⟨n, value⟩ := v
      obtain ⟨hle, hd, hn, hvalues⟩ := h
      obtain ⟨fuel, rfl⟩ : ∃ k, fuel = k + 1 :=
        ⟨fuel - 1, (Nat.sub_add_cancel (by simp at hfuel; omega)).symm⟩
      have hstep : number + (n - number) = n := Nat.add_sub_of_le hle
      rw [encode, List.append_assoc, decode_write hd hn, hstep,
        ih hvalues (by simpa using hfuel)]

theorem ordered_append {values' : List (ℕ × List α)} :
    Ordered c number (values ++ values')
      ↔ Ordered c number values
        ∧ Ordered c (lastNumber number values) values' := by
  induction values generalizing number with
  | nil => simp [Ordered]
  | cons v values ih =>
      obtain ⟨n, value⟩ := v
      rw [List.cons_append, Ordered, ih, lastNumber_cons, Ordered]
      simp only [and_assoc]

/-- A value is within its encoding. -/
theorem length_le_of_mem {v : ℕ × List α} (h : v ∈ values) :
    v.2.length ≤ (encode c number values).length := by
  induction values generalizing number with
  | nil => cases h
  | cons v' values ih =>
      obtain ⟨n, value⟩ := v'
      simp only [encode, List.length_append]
      rcases List.mem_cons.mp h with rfl | hmem
      · show value.length ≤ _
        omega
      · exact (ih hmem).trans (Nat.le_add_left _ _)

/-- A value and its header are within the encoding. -/
theorem length_lt_of_mem (h : Ordered c number values) {v : ℕ × List α}
    (hv : v ∈ values) : v.2.length < (encode c number values).length := by
  induction values generalizing number with
  | nil => cases hv
  | cons v' values ih =>
      obtain ⟨n, value⟩ := v'
      obtain ⟨-, hd, hn, hvalues⟩ := h
      have hpos := length_write_pos hd hn
      simp only [encode, List.length_append]
      rcases List.mem_cons.mp hv with rfl | hmem
      · show value.length < _
        omega
      · exact (ih hvalues hmem).trans_le (Nat.le_add_left _ _)

/-- A value takes at least one cell. -/
theorem length_le_length_encode (h : Ordered c number values) :
    values.length ≤ (encode c number values).length := by
  induction values generalizing number with
  | nil => exact le_rfl
  | cons v values ih =>
      obtain ⟨n, value⟩ := v
      obtain ⟨-, hd, hn, hvalues⟩ := h
      have hpos := length_write_pos hd hn
      have := ih hvalues
      simp only [encode, List.length_append, List.length_cons]
      omega

end Nexus.Lib.Tagged
