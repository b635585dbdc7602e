import Nexus.Channel.Coap
import Nexus.Lib.Tagged

/-!
# The headers of options

A header is four bits each for a delta and a length, and what does not fit four
bits goes behind. `headerOf` reads one off a list of bytes and fails where they
end; the parser reads it out of memory and never looks where they end, but it
finds afterwards that it has gone too far. The two agree, and together with the
serialiser they are a code for the headers of tagged values.
-/

namespace Nexus.Channel.Coap

open Nexus.Lib

/-! ## Headers of bytes -/

/-- A delta or a length that starts with these four bits, and how many of the
bytes behind them it takes. -/
def extensionOf (value : Nat) (bytes : List UInt8) : Option (Nat × Nat) :=
  if value = 13 then (bytes[0]?).map fun b => (13 + b.toNat, 1)
  else if value = 14 then
    match bytes with
    | b :: b' :: _ => some (269 + b.toNat * 256 + b'.toNat, 2)
    | _ => none
  else some (value, 0)

/-- The delta, the length and the size of the header that bytes begin with. -/
def headerOf : List UInt8 → Option (Nat × Nat × Nat)
  | [] => none
  | b :: bytes =>
      match extensionOf (b >>> 4).toNat bytes with
      | none => none
      | some (delta, k) =>
          match extensionOf (b &&& 0x0F).toNat (bytes.drop k) with
          | none => none
          | some (length, k') => some (delta, length, 1 + k + k')

/-- The payload marker; only its upper half is looked at. -/
def isMarker (b : UInt8) : Bool := b &&& 0xF0 == 0xF0

/-! ## What the serialiser writes -/

theorem nibbles : ∀ a < 16, ∀ b < 16,
    ((UInt8.ofNat a <<< 4 ||| UInt8.ofNat b) >>> 4).toNat = a
      ∧ ((UInt8.ofNat a <<< 4 ||| UInt8.ofNat b) &&& 0x0F).toNat = b := by
  decide +kernel

theorem isMarker_nibbles : ∀ a < 15, ∀ b < 16,
    isMarker (UInt8.ofNat a <<< 4 ||| UInt8.ofNat b) = false := by
  decide +kernel

/-- The four bits of a value. -/
def nibble (value : Nat) : Nat :=
  if value < 13 then value else if value ≤ 268 then 13 else 14

theorem coapOptionNibble_eq (value : Nat) :
    coapOptionNibble value = UInt8.ofNat (nibble value) := by
  simp only [coapOptionNibble, nibble]
  split
  · rfl
  · split <;> rfl

theorem nibble_lt (value : Nat) : nibble value < 15 := by
  simp only [nibble]
  split
  · omega
  · split <;> omega

/-- The values a header can hold. -/
def inRange (value : Nat) : Prop := value < 65805

theorem extensionOf_write {value : Nat} (h : inRange value)
    (rest : List UInt8) :
    extensionOf (nibble value) (optionExtension value ++ rest)
      = some (value, (optionExtension value).length) := by
  simp only [inRange] at h
  simp only [extensionOf, nibble, optionExtension]
  rcases Nat.lt_or_ge value 13 with hsmall | hbig
  · have hne : ¬ value = 13 ∧ ¬ value = 14 ∧ ¬ value > 268 ∧ ¬ value > 12 := by
      omega
    simp [hsmall, hne]
  rcases Nat.lt_or_ge value 269 with hmid | hwide
  · have hlo : ¬ value < 13 ∧ value ≤ 268 ∧ ¬ value > 268 ∧ value > 12 := by
      omega
    have hbyte : 13 + (value - 13) % 256 = value := by omega
    simp [hlo, hbyte]
  · have hlo : ¬ value < 13 ∧ ¬ value ≤ 268 ∧ value > 268 := by omega
    have hbytes : 269 + (value - 269) / 256 % 256 * 256
        + (value - 269) % 256 = value := by omega
    simp [hlo, hbytes]

/-- The headers of options, as a code for the headers of tagged values. -/
def optionCode : Tagged.HeaderCode UInt8 where
  write := coapSetOptionHeader
  read := headerOf
  stops := isMarker
  inRange := inRange
  read_pos := by
    intro xs d n k h
    cases xs with
    | nil => cases h
    | cons b bytes =>
        simp only [headerOf] at h
        split at h
        · cases h
        · split at h
          · cases h
          · simp only [Option.some.injEq, Prod.mk.injEq] at h
            omega
  read_write := by
    intro d n hd hn rest
    have hnib := nibbles _ (Nat.lt_succ_of_lt (nibble_lt d)) _
      (Nat.lt_succ_of_lt (nibble_lt n))
    have hdrop : (optionExtension d ++ (optionExtension n ++ rest)).drop
        (optionExtension d).length = optionExtension n ++ rest :=
      List.drop_left
    simp only [coapSetOptionHeader, coapOptionNibble_eq, headerOf,
      List.cons_append, List.append_assoc, hnib.1, hnib.2,
      extensionOf_write hd, extensionOf_write hn, hdrop, List.length_cons,
      List.length_append, Option.some.injEq, Prod.mk.injEq, true_and]
    omega
  write_stops := by
    intro d n x xs _ _ h
    simp only [coapSetOptionHeader, coapOptionNibble_eq,
      List.cons.injEq] at h
    rw [← h.1]
    exact isMarker_nibbles _ (nibble_lt d) _ (Nat.lt_succ_of_lt (nibble_lt n))

/-! ## What the parser reads -/

variable {m : Mem} {value current stop : Nat}

/-- What is left of a message. -/
def remaining (m : Mem) (current stop : Nat) : List UInt8 :=
  Memory.slice m current (stop - current)

@[simp] theorem length_remaining :
    (remaining m current stop).length = stop - current :=
  Memory.length_slice

theorem remaining_cons (h : current < stop) :
    remaining m current stop = m current :: remaining m (current + 1) stop := by
  have hsub : stop - current = stop - (current + 1) + 1 := by omega
  rw [remaining, hsub, Memory.slice_succ, remaining]

theorem remaining_nil (h : stop ≤ current) : remaining m current stop = [] := by
  rw [remaining, Nat.sub_eq_zero_of_le h, Memory.slice_zero]

theorem drop_remaining (k : Nat) :
    (remaining m current stop).drop k = remaining m (current + k) stop := by
  rw [remaining, Memory.slice_drop, remaining, Nat.sub_sub]

theorem le_readExtension : current ≤ (readExtension m value current).2 := by
  simp only [readExtension]
  split
  · exact Nat.le_succ current
  · split
    · exact Nat.le_add_right current 2
    · exact le_rfl

theorem readExtension_of_some {v k : Nat} (hle : current ≤ stop)
    (h : extensionOf value (remaining m current stop) = some (v, k)) :
    readExtension m value current = (v, current + k) ∧ current + k ≤ stop := by
  simp only [extensionOf] at h
  simp only [readExtension]
  split at h
  next hv =>
    rcases Nat.lt_or_ge current stop with hlt | hge
    · rw [remaining_cons hlt] at h
      simp only [List.getElem?_cons_zero, Option.map_some, Option.some.injEq,
        Prod.mk.injEq] at h
      obtain ⟨rfl, rfl⟩ := h
      exact ⟨by simp [hv], hlt⟩
    · simp [remaining_nil hge] at h
  next hv =>
    split at h
    next hv' =>
      rcases Nat.lt_or_ge (current + 1) stop with hlt | hge
      · rw [remaining_cons (by omega), remaining_cons hlt] at h
        simp only [Option.some.injEq, Prod.mk.injEq] at h
        obtain ⟨rfl, rfl⟩ := h
        exact ⟨by simp [hv'], hlt⟩
      · rcases Nat.lt_or_ge current stop with hlt | hge'
        · simp [remaining_cons hlt, remaining_nil hge] at h
        · simp [remaining_nil hge'] at h
    next hv' =>
      simp only [Option.some.injEq, Prod.mk.injEq] at h
      obtain ⟨rfl, rfl⟩ := h
      exact ⟨by simp [hv, hv'], hle⟩

theorem readExtension_of_none
    (h : extensionOf value (remaining m current stop) = none) :
    stop < (readExtension m value current).2 := by
  simp only [extensionOf] at h
  simp only [readExtension]
  split at h
  next hv =>
    rcases Nat.lt_or_ge current stop with hlt | hge
    · simp [remaining_cons hlt] at h
    · simp only [hv, if_true]
      omega
  next hv =>
    split at h
    next hv' =>
      rcases Nat.lt_or_ge (current + 1) stop with hlt | hge
      · rw [remaining_cons (by omega), remaining_cons hlt] at h
        cases h
      · simp only [hv', if_true]
        simp only [show ¬ (14 : Nat) = 13 by decide, if_false]
        omega
    next => cases h

/-- A header that is all there is read as it stands. -/
theorem readOptionHeader_of_some {d n k : Nat} (hlt : current < stop)
    (h : headerOf (remaining m current stop) = some (d, n, k)) :
    readOptionHeader m current = (d, n, current + k)
      ∧ current + k ≤ stop := by
  rw [remaining_cons hlt] at h
  simp only [headerOf] at h
  split at h
  · cases h
  next delta k₁ hdelta =>
    obtain ⟨hread, hle⟩ := readExtension_of_some hlt hdelta
    rw [drop_remaining] at h
    split at h
    · cases h
    next length k₂ hlength =>
      obtain ⟨hread', hle'⟩ := readExtension_of_some hle hlength
      simp only [Option.some.injEq, Prod.mk.injEq] at h
      obtain ⟨rfl, rfl, rfl⟩ := h
      have hnext : current.succ + k₁ + k₂ = current + (1 + k₁ + k₂) := by
        omega
      rw [hnext] at hread' hle'
      simp only [readOptionHeader, hread, hread']
      exact ⟨trivial, hle'⟩

/-- Of one that is cut short, the parser reads more than there is. -/
theorem readOptionHeader_of_none (hlt : current < stop)
    (h : headerOf (remaining m current stop) = none) :
    stop < (readOptionHeader m current).2.2 := by
  rw [remaining_cons hlt] at h
  simp only [headerOf] at h
  simp only [readOptionHeader]
  split at h
  next hdelta =>
    exact Nat.lt_of_lt_of_le (readExtension_of_none hdelta) le_readExtension
  next delta k₁ hdelta =>
    obtain ⟨hread, -⟩ := readExtension_of_some hlt hdelta
    rw [drop_remaining] at h
    split at h
    next hlength =>
      rw [hread]
      exact readExtension_of_none hlength
    next => cases h

theorem lt_readOptionHeader (m : Mem) (current : Nat) : current < (readOptionHeader m current).2.2 := by
  simp only [readOptionHeader]
  exact Nat.lt_of_lt_of_le le_readExtension le_readExtension

end Nexus.Channel.Coap
