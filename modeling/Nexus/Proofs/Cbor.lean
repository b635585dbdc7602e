import Nexus.Util.Cbor

/-!
# CBOR reads back what it wrote

Numbers first: the head of an item, with the bytes behind it, is read back as
the number it was written for, whatever follows. So encodings of strings are
told apart by their bytes, and a cursor on a string that was written sees its
length, its content and, behind it, the next item.
-/

namespace Nexus.Cbor

open Nexus.Util

/-! ## Heads -/

/-- The upper three bits of a byte, alone. -/
def IsMajorType (t : UInt8) : Prop := t &&& 0x1F = 0

instance (t : UInt8) : Decidable (IsMajorType t) :=
  inferInstanceAs (Decidable (t &&& 0x1F = 0))

theorem head_parts : ∀ (k : Fin 8) (b : Fin 32),
    (UInt8.ofNat b + UInt8.ofNat (32 * k)) &&& 0x1F = UInt8.ofNat b ∧
    (UInt8.ofNat b + UInt8.ofNat (32 * k)) &&& 0xE0 = UInt8.ofNat (32 * k) := by
  decide +kernel

theorem IsMajorType.eq_ofNat {t : UInt8} (h : IsMajorType t) :
    ∃ k : Fin 8, t = UInt8.ofNat (32 * k) := by
  have hmod : t.toNat % 32 = 0 := by
    have hnat := congrArg UInt8.toNat h
    rw [UInt8.toNat_and] at hnat
    have hand := Nat.and_two_pow_sub_one_eq_mod t.toNat 5
    exact hand.symm.trans hnat
  have hlt := t.toNat_lt
  refine ⟨⟨t.toNat / 32, by omega⟩, ?_⟩
  apply UInt8.toNat_inj.mp
  rw [UInt8.toNat_ofNat', Nat.mod_eq_of_lt (by dsimp only; omega)]
  dsimp only
  omega

theorem head_and {t b : UInt8} (ht : IsMajorType t) (hb : b < 32) :
    (b + t) &&& 0x1F = b ∧ (b + t) &&& 0xE0 = t := by
  obtain ⟨k, rfl⟩ := ht.eq_ofNat
  have hlt := UInt8.lt_iff_toNat_lt.mp hb
  have hparts := head_parts k ⟨b.toNat, hlt⟩
  rwa [show UInt8.ofNat (⟨b.toNat, hlt⟩ : Fin 32).val = b by simp] at hparts

/-! ## Numbers -/

theorem toNat_shiftLeft_or {n : UInt64} (hn : n.toNat < 2 ^ 56) (b : UInt8) :
    (n <<< 8 ||| b.toUInt64).toNat = n.toNat * 256 + b.toNat := by
  have hb := b.toNat_lt
  have hor := Nat.two_pow_add_eq_or_of_lt hb n.toNat
  rw [UInt64.toNat_or, UInt64.toNat_shiftLeft, UInt8.toNat_toUInt64]
  simp only [UInt64.reduceToNat, Nat.reduceMod, Nat.shiftLeft_eq]
  rw [Nat.mod_eq_of_lt (by omega), Nat.mul_comm, ← hor]

theorem getBigEndian_concat (bytes : List UInt8) (b : UInt8) :
    getBigEndian (bytes ++ [b]) = getBigEndian bytes <<< 8 ||| b.toUInt64 := by
  unfold getBigEndian
  rw [List.foldl_append]
  rfl

theorem getBigEndian_lt {bytes : List UInt8} (h : bytes.length ≤ 7) :
    (getBigEndian bytes).toNat < 256 ^ bytes.length := by
  induction bytes using List.reverseRecOn with
  | nil => decide
  | append_singleton bytes b ih =>
      rw [List.length_append, List.length_singleton] at h ⊢
      have hlt := ih (by omega)
      have hpow : 256 ^ bytes.length ≤ 256 ^ 6 :=
        Nat.pow_le_pow_right (by decide) (by omega)
      have hb := b.toNat_lt
      rw [getBigEndian_concat, toNat_shiftLeft_or (by omega), Nat.pow_succ]
      omega

theorem toNat_getBigEndian_concat {bytes : List UInt8} (h : bytes.length ≤ 7)
    (b : UInt8) : (getBigEndian (bytes ++ [b])).toNat
      = (getBigEndian bytes).toNat * 256 + b.toNat := by
  have hlt := getBigEndian_lt h
  have hpow : 256 ^ bytes.length ≤ 256 ^ 7 :=
    Nat.pow_le_pow_right (by decide) h
  rw [getBigEndian_concat, toNat_shiftLeft_or (by omega)]

/-- The byte of a number at a place. -/
def byteAt (n : UInt64) (i : UInt64) : UInt8 := (n >>> (8 * i)).toUInt8

theorem toNat_byteAt (n : UInt64) {i : UInt64} (hi : i < 8) :
    (byteAt n i).toNat = n.toNat / 256 ^ i.toNat % 256 := by
  have hlt := UInt64.lt_iff_toNat_lt.mp hi
  have hlt' : i.toNat < 8 := hlt
  have hshift : (8 * i).toNat = 8 * i.toNat := by
    rw [UInt64.toNat_mul]
    exact Nat.mod_eq_of_lt (by simpa using by omega)
  unfold byteAt
  rw [UInt64.toNat_toUInt8, UInt64.toNat_shiftRight, hshift,
    Nat.mod_eq_of_lt (show 8 * i.toNat < 64 by omega),
    Nat.shiftRight_eq_div_pow, Nat.pow_mul]

/-- The bytes of a number, from place `count - 1` down to place 0. -/
def bytesBelow (n : UInt64) : Nat → List UInt8
  | 0 => []
  | count + 1 => byteAt n (UInt64.ofNat count) :: bytesBelow n count

theorem length_bytesBelow (n : UInt64) (count : Nat) :
    (bytesBelow n count).length = count := by
  induction count with
  | zero => rfl
  | succ count ih => rw [bytesBelow, List.length_cons, ih]

theorem toNat_getBigEndian_cons {bytes : List UInt8} (h : bytes.length ≤ 7)
    (b : UInt8) : (getBigEndian (b :: bytes)).toNat
      = b.toNat * 256 ^ bytes.length + (getBigEndian bytes).toNat := by
  induction bytes using List.reverseRecOn with
  | nil => simp [getBigEndian]
  | append_singleton bytes c ih =>
      rw [List.length_append, List.length_singleton] at h ⊢
      rw [← List.cons_append, toNat_getBigEndian_concat
        (by rw [List.length_cons]; omega), ih (by omega),
        toNat_getBigEndian_concat (by omega), Nat.pow_succ]
      ring

/-- The lower bytes of a number give its remainder. -/
theorem toNat_getBigEndian_bytesBelow (n : UInt64) {count : Nat}
    (h : count ≤ 8) :
    (getBigEndian (bytesBelow n count)).toNat = n.toNat % 256 ^ count := by
  induction count with
  | zero => simp [bytesBelow, getBigEndian, Nat.mod_one]
  | succ count ih =>
      have hplace : (UInt64.ofNat count).toNat = count := by
        rw [UInt64.toNat_ofNat']
        exact Nat.mod_eq_of_lt (by omega)
      have hlt : UInt64.ofNat count < 8 :=
        UInt64.lt_iff_toNat_lt.mpr (by rw [hplace]; exact h)
      rw [bytesBelow, toNat_getBigEndian_cons
        (by rw [length_bytesBelow]; omega), length_bytesBelow, ih (by omega),
        toNat_byteAt n hlt, hplace, Nat.pow_succ, Nat.mod_mul]
      ring

/-- A head for numbers below 24, or one of the four that say how many bytes
follow. -/
theorem encodeNumber_cases (n : UInt64) (t : UInt8) :
    (n < 24 ∧ encodeNumber n t = [n.toUInt8 + t]) ∨
    ∃ (additional : UInt8) (count : Nat), 24 ≤ additional ∧ additional ≤ 27 ∧
      bytesNeeded additional = count ∧ count ≤ 8 ∧ n.toNat < 256 ^ count ∧
      24 ≤ n.toNat ∧
      encodeNumber n t = (additional + t) :: bytesBelow n count := by
  have hbyte : byteAt n 0 = n.toUInt8 := by
    simp [byteAt]
  unfold encodeNumber
  by_cases h1 : n < 24
  · refine .inl ⟨h1, ?_⟩
    simp only [if_pos h1]
    exact congrArg (fun b => [b + t]) hbyte
  have hge : 24 ≤ n.toNat := UInt64.le_iff_toNat_le.mp (UInt64.not_lt.mp h1)
  refine .inr ?_
  by_cases h2 : n ≤ 0xFF
  · refine ⟨24, 1, by decide, by decide, by decide, by decide, ?_, hge, ?_⟩
    · exact Nat.lt_succ_of_le (UInt64.le_iff_toNat_le.mp h2)
    · simp only [if_neg h1, if_pos h2, UInt8.add_comm t]
      rfl
  by_cases h3 : n ≤ 0xFFFF
  · refine ⟨25, 2, by decide, by decide, by decide, by decide, ?_, hge, ?_⟩
    · exact Nat.lt_succ_of_le (UInt64.le_iff_toNat_le.mp h3)
    · simp only [if_neg h1, if_neg h2, if_pos h3, UInt8.add_comm t]
      rfl
  by_cases h4 : n ≤ 0xFFFFFFFF
  · refine ⟨26, 4, by decide, by decide, by decide, by decide, ?_, hge, ?_⟩
    · exact Nat.lt_succ_of_le (UInt64.le_iff_toNat_le.mp h4)
    · simp only [if_neg h1, if_neg h2, if_neg h3, if_pos h4,
        UInt8.add_comm t]
      rfl
  · refine ⟨27, 8, by decide, by decide, by decide, by decide,
      n.toNat_lt, hge, ?_⟩
    simp only [if_neg h1, if_neg h2, if_neg h3, if_neg h4, UInt8.add_comm t]
    rfl

/-- The first byte shows the type. -/
theorem encodeNumber_eq_cons (n : UInt64) {t : UInt8} (ht : IsMajorType t) :
    ∃ b tail, encodeNumber n t = b :: tail ∧ b &&& 0xE0 = t := by
  rcases encodeNumber_cases n t with ⟨hn, heq⟩ |
    ⟨additional, count, -, h27, -, -, -, -, heq⟩
  · have hsmall : n.toUInt8 < 32 := by
      have hn' : n.toNat < 24 := UInt64.lt_iff_toNat_lt.mp hn
      apply UInt8.lt_iff_toNat_lt.mpr
      rw [UInt64.toNat_toUInt8, Nat.mod_eq_of_lt (by omega)]
      exact hn'.trans (by decide)
    exact ⟨_, _, heq, (head_and ht hsmall).2⟩
  · have hsmall : additional < 32 := UInt8.lt_iff_toNat_lt.mpr
      ((UInt8.le_iff_toNat_le.mp h27).trans_lt (by decide))
    exact ⟨_, _, heq, (head_and ht hsmall).2⟩

/-- The number in a head of one byte. -/
theorem extractNumber_small {t b : UInt8} (ht : IsMajorType t) (hb : b < 24)
    (rest : List UInt8) :
    extractNumber ((b + t) :: rest) = .ok (b.toUInt64, rest) := by
  have hhead := (head_and ht (b := b) (UInt8.lt_iff_toNat_lt.mpr
    ((UInt8.lt_iff_toNat_lt.mp hb).trans (by decide)))).1
  rw [extractNumber]
  simp only [hhead, if_pos hb]

/-- The number behind a head. -/
theorem extractNumber_wide {t additional : UInt8} (ht : IsMajorType t)
    (h24 : 24 ≤ additional) (h27 : additional ≤ 27) {digits : List UInt8}
    (hcount : digits.length = bytesNeeded additional) (rest : List UInt8) :
    extractNumber ((additional + t) :: (digits ++ rest))
      = .ok (getBigEndian digits, rest) := by
  have hadd : additional < 32 :=
    UInt8.lt_iff_toNat_lt.mpr
      ((UInt8.le_iff_toNat_le.mp h27).trans_lt (by decide))
  have hhead := (head_and ht hadd).1
  rw [extractNumber]
  simp only [hhead]
  rw [if_neg (UInt8.not_lt.mpr h24), if_neg (UInt8.not_lt.mpr h27),
    if_neg (by rw [← hcount, List.length_append]; omega), ← hcount,
    List.take_left' rfl, List.drop_left' rfl]

/-- A number is read back from its head, whatever follows. -/
theorem extractNumber_encodeNumber (n : UInt64) {t : UInt8}
    (ht : IsMajorType t) (rest : List UInt8) :
    extractNumber (encodeNumber n t ++ rest) = .ok (n, rest) := by
  rcases encodeNumber_cases n t with ⟨hn, heq⟩ |
    ⟨additional, count, h24, h27, hcount, hle, hlt, -, heq⟩
  · have hn' : n.toNat < 24 := UInt64.lt_iff_toNat_lt.mp hn
    have hb : n.toUInt8.toNat = n.toNat := by
      rw [UInt64.toNat_toUInt8]
      exact Nat.mod_eq_of_lt (by omega)
    have hsmall : n.toUInt8 < 24 :=
      UInt8.lt_iff_toNat_lt.mpr (by rw [hb]; exact hn')
    have hvalue : n.toUInt8.toUInt64 = n := by
      apply UInt64.toNat_inj.mp
      rw [UInt8.toNat_toUInt64, hb]
    rw [heq, List.singleton_append, extractNumber_small ht hsmall, hvalue]
  · have hvalue : getBigEndian (bytesBelow n count) = n := by
      apply UInt64.toNat_inj.mp
      rw [toNat_getBigEndian_bytesBelow n hle, Nat.mod_eq_of_lt hlt]
    rw [heq, List.cons_append, extractNumber_wide ht h24 h27
      (by rw [length_bytesBelow, hcount]), hvalue]

/-- Numbers are told apart by their bytes. -/
theorem encodeNumber_append_inj {n n' : UInt64} {t : UInt8}
    (ht : IsMajorType t) {rest rest' : List UInt8}
    (h : encodeNumber n t ++ rest = encodeNumber n' t ++ rest') :
    n = n' ∧ rest = rest' := by
  have hread := extractNumber_encodeNumber n ht rest
  rw [h, extractNumber_encodeNumber n' ht rest'] at hread
  cases hread
  exact ⟨rfl, rfl⟩

/-! ## Strings -/

theorem encodeByteString_append_inj {s s' rest rest' : List UInt8}
    (hs : s.length < 2 ^ 64) (hs' : s'.length < 2 ^ 64)
    (h : encodeByteString s ++ rest = encodeByteString s' ++ rest') :
    s = s' ∧ rest = rest' := by
  unfold encodeByteString at h
  rw [List.append_assoc, List.append_assoc] at h
  obtain ⟨hlen, hbytes⟩ := encodeNumber_append_inj (by decide) h
  have hlen' : s.length = s'.length := by
    have hnat := congrArg UInt64.toNat hlen
    rw [UInt64.toNat_ofNat', UInt64.toNat_ofNat', Nat.mod_eq_of_lt hs,
      Nat.mod_eq_of_lt hs'] at hnat
    exact hnat
  exact List.append_inj hbytes hlen'

/-! ## The cursor on what was written -/

namespace Value

/-- The cursor stands on the head of an item that was written with a number,
and has read it. -/
structure At (v : Value) (t : UInt8) (n : UInt64) (rest : List UInt8) :
    Prop where
  ptr : v.ptr = encodeNumber n t ++ rest
  type : v.type = t
  number : v.extractInt64 = n
  known : v.flags.unknownLength = false
  whole : v.flags.iteratingStringChunks = false

/-- What reading a head leaves alone. -/
def place (v : Value) : UInt32 × Bool := (v.remaining, v.flags.containerIsMap)

/-- The types of the items that carry a number and nothing else in their
head. -/
def IsCounted (t : UInt8) : Prop :=
  t = integerType ∨ t = byteStringType ∨ t = arrayType ∨ t = mapType

instance (t : UInt8) : Decidable (IsCounted t) :=
  inferInstanceAs (Decidable (_ ∨ _ ∨ _ ∨ _))

theorem IsCounted.isMajorType {t : UInt8} (h : IsCounted t) :
    IsMajorType t := by
  rcases h with rfl | rfl | rfl | rfl <;> decide

/-- The cursor with the plain parts of a head read. -/
def withHead (it : Value) (t b : UInt8) : Value :=
  { it with
    type := t
    extra := b.toUInt16
    flags := ⟨false, false, false, false, it.flags.containerIsMap,
      it.flags.nextIsMapKey⟩ }

theorem preparse_cons {it : Value} {t b : UInt8} (ht : IsCounted t)
    (hb : b ≤ 27) {tail : List UInt8} (hptr : it.ptr = (b + t) :: tail)
    (hlen : bytesNeeded b ≤ tail.length) :
    it.preparse = .ok
      (if b < 24 then it.withHead t b
      else if b = 24 then
        { it.withHead t b with extra := (tail.getD 0 0).toUInt16 }
      else if b = 25 then
        { it.withHead t b with extra := (getBigEndian (tail.take 2)).toUInt16 }
      else { it.withHead t b with
        flags := { (it.withHead t b).flags with
          integerValueTooLarge := true } }) := by
  have hb' : b < 32 := UInt8.lt_iff_toNat_lt.mpr
    ((UInt8.le_iff_toNat_le.mp hb).trans_lt (by decide))
  obtain ⟨hlow, hhigh⟩ := head_and ht.isMajorType hb'
  have hsimple : t ≠ simpleType := by
    rcases ht with rfl | rfl | rfl | rfl <;> decide
  have hnegative : t ≠ 0x20 := by
    rcases ht with rfl | rfl | rfl | rfl <;> decide
  obtain ⟨ptr, remaining, extra, type, flags⟩ := it
  simp only at hptr
  subst hptr
  simp only [preparse, hlow, hhigh, gt_iff_lt, UInt8.not_lt.mpr hb, if_false,
    List.length_cons, hsimple, hnegative, withHead]
  rw [if_neg (by omega)]
  simp only [List.getD_cons_succ, List.drop_succ_cons, List.drop_zero]
  split
  · rfl
  · split
    · rfl
    · split <;> rfl

theorem additional_cases {b : UInt8} (h24 : 24 ≤ b) (h27 : b ≤ 27) :
    b = 24 ∨ b = 25 ∨ b = 26 ∨ b = 27 := by
  have h1 : 24 ≤ b.toNat := UInt8.le_iff_toNat_le.mp h24
  have h2 : b.toNat ≤ 27 := UInt8.le_iff_toNat_le.mp h27
  simp only [← UInt8.toNat_inj]
  show b.toNat = 24 ∨ b.toNat = 25 ∨ b.toNat = 26 ∨ b.toNat = 27
  omega

/-- Reading the head that was written. -/
theorem preparse_at {it : Value} {t : UInt8} (ht : IsCounted t) {n : UInt64}
    {rest : List UInt8} (h : it.ptr = encodeNumber n t ++ rest) :
    ∃ v, it.preparse = .ok v ∧ v.At t n rest ∧ v.place = it.place := by
  rcases encodeNumber_cases n t with ⟨hn, heq⟩ |
    ⟨additional, count, h24, h27, hcount, hle, hlt, hge, heq⟩
  · have hn' : n.toNat < 24 := UInt64.lt_iff_toNat_lt.mp hn
    have hb : n.toUInt8.toNat = n.toNat := by
      rw [UInt64.toNat_toUInt8]
      exact Nat.mod_eq_of_lt (by omega)
    have hsmall : n.toUInt8 < 24 :=
      UInt8.lt_iff_toNat_lt.mpr (by rw [hb]; exact hn')
    have h27 : n.toUInt8 ≤ 27 := UInt8.le_iff_toNat_le.mpr
      (by rw [hb]; exact hn'.le.trans (by decide))
    have hptr : it.ptr = (n.toUInt8 + t) :: rest := by
      rw [h, heq, List.singleton_append]
    have hneeded : bytesNeeded n.toUInt8 ≤ rest.length := by
      unfold bytesNeeded
      rw [if_pos hsmall]
      exact Nat.zero_le _
    refine ⟨_, preparse_cons ht h27 hptr hneeded, ?_⟩
    rw [if_pos hsmall]
    refine ⟨⟨h, rfl, ?_, rfl, rfl⟩, rfl⟩
    show n.toUInt8.toUInt16.toUInt64 = n
    apply UInt64.toNat_inj.mp
    rw [UInt16.toNat_toUInt64, UInt8.toNat_toUInt16, hb]
  · have hptr : it.ptr = (additional + t) :: (bytesBelow n count ++ rest) := by
      rw [h, heq, List.cons_append]
    have hlen := length_bytesBelow n count
    have hneeded : bytesNeeded additional
        ≤ (bytesBelow n count ++ rest).length := by
      rw [hcount, List.length_append, hlen]
      exact Nat.le_add_right _ _
    have hvalue := toNat_getBigEndian_bytesBelow n hle
    rw [Nat.mod_eq_of_lt hlt] at hvalue
    refine ⟨_, preparse_cons ht h27 hptr hneeded, ?_⟩
    rw [if_neg (UInt8.not_lt.mpr h24)]
    rcases additional_cases h24 h27 with rfl | rfl | rfl | rfl
    · obtain rfl : count = 1 := hcount.symm
      refine ⟨⟨h, rfl, ?_, rfl, rfl⟩, rfl⟩
      show (byteAt n (UInt64.ofNat 0)).toUInt16.toUInt64 = n
      apply UInt64.toNat_inj.mp
      rw [UInt16.toNat_toUInt64, UInt8.toNat_toUInt16,
        toNat_byteAt n (by decide)]
      simpa using hlt
    · obtain rfl : count = 2 := hcount.symm
      refine ⟨⟨h, rfl, ?_, rfl, rfl⟩, rfl⟩
      show (getBigEndian (bytesBelow n 2)).toUInt16.toUInt64 = n
      apply UInt64.toNat_inj.mp
      rw [UInt16.toNat_toUInt64, UInt64.toNat_toUInt16, hvalue]
      exact Nat.mod_eq_of_lt hlt
    · obtain rfl : count = 4 := hcount.symm
      refine ⟨⟨h, rfl, ?_, rfl, rfl⟩, rfl⟩
      have hhead : (26 + t) &&& 1 = 0 := by
        rcases ht with rfl | rfl | rfl | rfl <;> decide
      show (if (it.ptr.headD 0) &&& 1 = 0 then
        getBigEndian ((it.ptr.drop 1).take 4)
        else getBigEndian ((it.ptr.drop 1).take 8)) = n
      rw [hptr]
      simp only [List.headD_cons, hhead, if_true]
      exact UInt64.toNat_inj.mp hvalue
    · obtain rfl : count = 8 := hcount.symm
      refine ⟨⟨h, rfl, ?_, rfl, rfl⟩, rfl⟩
      have hhead : (27 + t) &&& 1 ≠ 0 := by
        rcases ht with rfl | rfl | rfl | rfl <;> decide
      show (if (it.ptr.headD 0) &&& 1 = 0 then
        getBigEndian ((it.ptr.drop 1).take 4)
        else getBigEndian ((it.ptr.drop 1).take 8)) = n
      rw [hptr]
      simp only [List.headD_cons, hhead, if_false]
      exact UInt64.toNat_inj.mp hvalue

theorem place_eq {v : Value} {remaining : UInt32} {isMap : Bool}
    (h : v.place = (remaining, isMap)) :
    v.remaining = remaining ∧ v.flags.containerIsMap = isMap :=
  ⟨congrArg Prod.fst h, congrArg Prod.snd h⟩

/-- On to the next item of a container that was written. -/
theorem preparseNext_at {it : Value} (htag : it.type ≠ tagType)
    (hmax : it.remaining ≠ uint32Max) (hmore : it.remaining - 1 ≠ 0)
    (hmax' : it.remaining - 1 ≠ uint32Max) {t : UInt8} (ht : IsCounted t)
    {n : UInt64} {rest : List UInt8}
    (h : it.ptr = encodeNumber n t ++ rest) :
    ∃ v, it.preparseNext = .ok v ∧ v.At t n rest ∧
      v.place = (it.remaining - 1, it.flags.containerIsMap) := by
  have hcounts : (it.type != tagType) = true := by simpa using htag
  obtain ⟨v, hv, hat, hplace⟩ := @preparse_at { it with
    remaining := it.remaining - 1
    flags := { it.flags with nextIsMapKey := !it.flags.nextIsMapKey } }
    t ht n rest h
  refine ⟨v, ?_, hat, hplace⟩
  rw [← hv]
  unfold preparseNext
  simp only [hcounts, ne_eq, hmax, not_false_eq_true, and_self, if_true,
    hmore, false_and, if_false]
  unfold preparseNextNodecrement
  simp only [hmax', false_and, if_false]

/-- Behind the last item. -/
theorem preparseNext_last {it : Value} (htag : it.type ≠ tagType)
    (hlast : it.remaining = 1) :
    it.preparseNext
      = .ok { it with remaining := 0, type := invalidType } := by
  have hcounts : (it.type != tagType) = true := by simpa using htag
  have hmax : ¬ (1 : UInt32) = uint32Max := by decide
  unfold preparseNext
  simp only [hcounts, hlast, ne_eq, hmax, not_false_eq_true, and_self, if_true,
    UInt32.sub_self]

/-- How many items a container has, keys and values apart. -/
def itemCount (t : UInt8) (n : UInt64) : UInt32 :=
  if t = mapType then n.toUInt32 * 2 else n.toUInt32

theorem enterContainer_eq {v : Value} {t : UInt8} {n : UInt64}
    {rest : List UInt8} (hv : v.At t n rest) (ht : IsMajorType t)
    (hlarge : ¬ n ≥ uint32Max.toUInt64)
    (hhalf : ¬ (t = mapType ∧ n.toUInt32 > uint32Max / 2)) :
    v.enterContainer
      = if n = 0 then .ok { v with
          ptr := rest, remaining := itemCount t n, type := invalidType }
        else preparseNextNodecrement { v with
          ptr := rest
          remaining := itemCount t n
          flags := ⟨false, false, false, false, t == mapType, false⟩ } := by
  have hnumber : extractNumber v.ptr = .ok (n, rest) := by
    rw [hv.ptr]
    exact extractNumber_encodeNumber n ht rest
  unfold enterContainer
  simp only [hv.known, Bool.false_eq_true, if_false, hnumber, hv.type, hlarge,
    hhalf]
  rfl

/-- Into a container that was written, to its first item. -/
theorem enterContainer_at {v : Value} {t : UInt8} {n : UInt64}
    {rest : List UInt8} (hv : v.At t n rest) (ht : IsMajorType t) (hn : n ≠ 0)
    (hlarge : ¬ n ≥ uint32Max.toUInt64)
    (hhalf : ¬ (t = mapType ∧ n.toUInt32 > uint32Max / 2))
    (hmax : itemCount t n ≠ uint32Max) {t' : UInt8} (ht' : IsCounted t')
    {n' : UInt64} {rest' : List UInt8}
    (hrest : rest = encodeNumber n' t' ++ rest') :
    ∃ r, v.enterContainer = .ok r ∧ r.At t' n' rest' ∧
      r.place = (itemCount t n, t == mapType) := by
  obtain ⟨r, hr, hat, hplace⟩ := @preparse_at { v with
    ptr := rest
    remaining := itemCount t n
    flags := ⟨false, false, false, false, t == mapType, false⟩ }
    t' ht' n' rest' hrest
  refine ⟨r, ?_, hat, hplace⟩
  rw [enterContainer_eq hv ht hlarge hhalf, if_neg hn, ← hr]
  unfold preparseNextNodecrement
  simp only [hmax, false_and, if_false]

/-- The cursor stands on a byte string of known length, however its head was
written. -/
structure OnString (v : Value) (s rest : List UInt8) : Prop where
  head : ∃ b tail, v.ptr = b :: tail ∧ b &&& 0xE0 = byteStringType
  number : ∃ n, extractNumber v.ptr = .ok (n, s ++ rest) ∧
    n.toNat = s.length
  type : v.type = byteStringType
  known : v.flags.unknownLength = false
  whole : v.flags.iteratingStringChunks = false

theorem At.onString {v : Value} {s rest : List UInt8}
    (hs : s.length < 2 ^ 64)
    (hv : v.At byteStringType (UInt64.ofNat s.length) (s ++ rest)) :
    v.OnString s rest where
  head := by
    obtain ⟨b, tail, hhead, htype⟩ := encodeNumber_eq_cons
      (UInt64.ofNat s.length) (t := byteStringType) (by decide)
    exact ⟨b, tail ++ (s ++ rest), by rw [hv.ptr, hhead, List.cons_append],
      htype⟩
  number := by
    refine ⟨UInt64.ofNat s.length, ?_, ?_⟩
    · rw [hv.ptr]
      exact extractNumber_encodeNumber _ (by decide) _
    · rw [UInt64.toNat_ofNat']
      exact Nat.mod_eq_of_lt hs
  type := hv.type
  known := hv.known
  whole := hv.whole

/-- A string is one chunk. -/
theorem OnString.getStringChunk {v : Value} {s rest : List UInt8}
    (hv : v.OnString s rest) :
    v.getStringChunk = .ok (some s, { v with
      ptr := rest
      flags := { v.flags with iteratingStringChunks := true } }) := by
  obtain ⟨n, hnumber, hlen⟩ := hv.number
  obtain ⟨b, tail, hptr, htype⟩ := hv.head
  have hbreak : b ≠ breakByte := by
    intro heq
    rw [heq] at htype
    exact absurd htype (by decide)
  unfold Value.getStringChunk
  simp only [hv.whole, hv.known, Bool.false_eq_true, false_and, and_false,
    if_false]
  rw [hptr] at hnumber ⊢
  simp only [hbreak, htype, hv.type, hnumber, hlen, if_false, if_true]
  rw [if_neg (by rw [List.length_append]; omega)]
  simp

/-- A string, and the cursor behind it. -/
theorem OnString.string {v : Value} {s rest : List UInt8}
    (hv : v.OnString s rest) :
    v.string = (preparseNext { v with
      ptr := rest
      flags := { v.flags with iteratingStringChunks := true } }).map
        fun next => (s, next) := by
  have hfirst := hv.getStringChunk
  have hsecond : Value.getStringChunk { v with
      ptr := rest
      flags := { v.flags with iteratingStringChunks := true } }
      = (preparseNext { v with
        ptr := rest
        flags := { v.flags with iteratingStringChunks := true } }).map
          fun next => (none, next) := by
    unfold Value.getStringChunk
    simp only [hv.known, and_self, if_true]
  unfold Value.string
  rw [stringChunks, hfirst]
  simp only
  rw [stringChunks, hsecond]
  cases preparseNext { v with
      ptr := rest
      flags := { v.flags with iteratingStringChunks := true } } with
  | error e => rfl
  | ok next => simp [Except.map]

/-- Past a number. -/
theorem advance_integer {v : Value} {n : UInt64} {rest : List UInt8}
    (hv : v.At integerType n rest) (hmore : v.remaining ≠ 0) :
    v.advance = preparseNext { v with ptr := rest } := by
  have hnumber : extractNumber v.ptr = .ok (n, rest) := by
    rw [hv.ptr]
    exact extractNumber_encodeNumber n (by decide) rest
  unfold advance
  rw [if_neg hmore]
  unfold advanceRecursive
  rw [if_pos (by rw [hv.type]; decide)]
  unfold advanceInternal
  rw [hnumber]

/-- Past a string. -/
theorem advance_string {v : Value} {s rest : List UInt8}
    (hs : s.length < 2 ^ 64)
    (hv : v.At byteStringType (UInt64.ofNat s.length) (s ++ rest))
    (hmore : v.remaining ≠ 0) :
    v.advance = preparseNext { v with
      ptr := rest
      flags := { v.flags with iteratingStringChunks := true } } := by
  unfold advance
  rw [if_neg hmore]
  unfold advanceRecursive
  rw [if_neg (by rw [hv.type]; decide),
    if_pos (by unfold isArray isMap; rw [hv.type]; decide), (hv.onString hs).string]
  cases preparseNext { v with
      ptr := rest
      flags := { v.flags with iteratingStringChunks := true } } with
  | error e => rfl
  | ok next => rfl

/-- Past a map with nothing in it. -/
theorem advance_emptyMap {v : Value} {rest : List UInt8}
    (hv : v.At mapType 0 rest) (hmore : v.remaining ≠ 0) :
    v.advance = preparseNext { v with ptr := rest } := by
  have henter : v.enterContainer = .ok { v with
      ptr := rest, remaining := 0, type := invalidType } :=
    (enterContainer_eq hv (by decide) (by decide) (by decide)).trans
      (if_pos rfl)
  have helements : advanceElements (advanceRecursive 1023) rest.length
      { v with ptr := rest, remaining := 0, type := invalidType }
      = .ok { v with ptr := rest, remaining := 0, type := invalidType } := by
    cases rest.length <;> rfl
  unfold advance
  rw [if_neg hmore]
  unfold advanceRecursive
  rw [if_neg (by rw [hv.type]; decide),
    if_neg (by unfold isArray isMap; rw [hv.type]; decide)]
  simp only [henter, helements]
  rfl

/-! A cursor inside a container of known length, with `more` items to come
behind the one it is on. -/

section Next

variable {v : Value} {more : UInt32} (hleft : v.remaining = more + 1)
  (hmore : more ≠ 0) (hmax : more ≠ uint32Max) (hmax' : more + 1 ≠ uint32Max)
  {t : UInt8} (ht : IsCounted t) {n : UInt64}

include hleft hmore hmax hmax' ht

theorem string_next {s rest : List UInt8} (hs : s.length < 2 ^ 64)
    (hv : v.At byteStringType (UInt64.ofNat s.length)
      (s ++ (encodeNumber n t ++ rest))) :
    ∃ next, v.string = .ok (s, next) ∧ v.advance = .ok next ∧
      next.At t n rest ∧ next.remaining = more := by
  have hpred : v.remaining - 1 = more := by
    rw [hleft]
    exact UInt32.add_sub_cancel more 1
  have hnonzero : v.remaining ≠ 0 := by
    intro hzero
    rw [hzero] at hpred
    exact hmax hpred.symm
  obtain ⟨next, hnext, hnextAt, hplace⟩ := @preparseNext_at { v with
    ptr := encodeNumber n t ++ rest
    flags := { v.flags with iteratingStringChunks := true } }
    (by simp only [hv.type]; decide) (by simpa only [hleft] using hmax')
    (by simpa only [hpred] using hmore) (by simpa only [hpred] using hmax)
    t ht n rest rfl
  refine ⟨next, ?_, ?_, hnextAt, ?_⟩
  · rw [(hv.onString hs).string, hnext]
    rfl
  · rw [advance_string hs hv hnonzero, hnext]
  · rw [(place_eq hplace).1]
    exact hpred

theorem emptyMap_next {rest : List UInt8}
    (hv : v.At mapType 0 (encodeNumber n t ++ rest)) :
    ∃ next, v.advance = .ok next ∧ next.At t n rest ∧
      next.remaining = more := by
  have hpred : v.remaining - 1 = more := by
    rw [hleft]
    exact UInt32.add_sub_cancel more 1
  have hnonzero : v.remaining ≠ 0 := by
    intro hzero
    rw [hzero] at hpred
    exact hmax hpred.symm
  obtain ⟨next, hnext, hnextAt, hplace⟩ := @preparseNext_at { v with
    ptr := encodeNumber n t ++ rest }
    (by simp only [hv.type]; decide) (by simpa only [hleft] using hmax')
    (by simpa only [hpred] using hmore) (by simpa only [hpred] using hmax)
    t ht n rest rfl
  refine ⟨next, ?_, hnextAt, ?_⟩
  · rw [advance_emptyMap hv hnonzero, hnext]
  · rw [(place_eq hplace).1]
    exact hpred

end Next

/-- The last string of a container. -/
theorem string_last {v : Value} {s rest : List UInt8} (hs : s.length < 2 ^ 64)
    (hv : v.At byteStringType (UInt64.ofNat s.length) (s ++ rest))
    (hlast : v.remaining = 1) :
    ∃ next, v.string = .ok (s, next) := by
  have hend := @preparseNext_last { v with
    ptr := rest
    flags := { v.flags with iteratingStringChunks := true } }
    (by simp only [hv.type]; decide) hlast
  rw [(hv.onString hs).string, hend]
  exact ⟨_, rfl⟩

end Value

end Nexus.Cbor
