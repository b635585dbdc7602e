import Nexus.Lib.Positional
import Nexus.Proofs.Cose

/-!
# Where the payload of a message begins

A CBOR head need not be the shortest one: a length of five may be written in
the head byte itself or in one, two, four or eight bytes behind it. The parser
reads all of them, and header and tag are copied by it. The payload is not:
`nexus_cose_mac0_verify_deserialize_protected_message` asks for the length of
the content and takes the head to be as short as that length allows. Behind a
longer head it hands on the surplus bytes of the head and as many bytes of the
content fewer.

So the payload is right if the head is the shortest, and otherwise only if the
content happens to go on as the surplus bytes began.
-/

namespace Nexus.Channel

open Nexus.Util Nexus.Lib Nexus.Cbor

/-! ## A list moved along itself -/

section

variable {α : Type*} {front content rest : List α}

/-- The content is the front over and over. -/
def Repeats (front content : List α) : Prop :=
  ∀ i < content.length, content[i]? = front[i % front.length]?

theorem Repeats.of_take (h : (front ++ content).take content.length = content)
    (hpos : 0 < front.length) : Repeats front content := by
  intro i
  induction i using Nat.strongRecOn with
  | ind i ih =>
      intro hi
      have hself : content[i]? = (front ++ content)[i]? :=
        calc content[i]? = ((front ++ content).take content.length)[i]? := by
              rw [h]
          _ = (front ++ content)[i]? := List.getElem?_take_of_lt hi
      by_cases hfront : i < front.length
      · rw [hself, List.getElem?_append_left hfront, Nat.mod_eq_of_lt hfront]
      · have hback := ih (i - front.length) (by omega) (by omega)
        rw [hself, List.getElem?_append_right (by omega), hback,
          ← Nat.mod_eq_sub_mod (not_lt.mp hfront)]

theorem Repeats.take_append (h : Repeats front content)
    (hpos : 0 < front.length) :
    (front ++ content).take content.length = content := by
  apply List.ext_getElem?
  intro i
  by_cases hi : i < content.length
  · rw [List.getElem?_take_of_lt hi, h i hi]
    by_cases hfront : i < front.length
    · rw [List.getElem?_append_left hfront, Nat.mod_eq_of_lt hfront]
    · rw [List.getElem?_append_right (by omega), h _ (by omega),
        ← Nat.mod_eq_sub_mod (not_lt.mp hfront)]
  · rw [List.getElem?_eq_none (by simp; omega),
      List.getElem?_eq_none (by omega)]

/-- As many elements as the content has, from the front on, are the content
exactly if there is no front or the content repeats it. -/
theorem take_front_iff :
    (front ++ content ++ rest).take content.length = content ↔
      front.length = 0 ∨ Repeats front content := by
  rw [List.take_append_of_le_length (by simp)]
  rcases Nat.eq_zero_or_pos front.length with hzero | hpos
  · have hnil : front = [] := List.eq_nil_of_length_eq_zero hzero
    simp [hnil]
  · constructor
    · intro h
      exact Or.inr (.of_take h hpos)
    · intro h
      rcases h with hzero | hrepeats
      · omega
      · exact hrepeats.take_append hpos

end

end Nexus.Channel

namespace Nexus.Cbor

open Nexus.Util Nexus.Lib

/-! ## Heads in every form -/

/-- A head with a number, which is in the head byte or in one, two, four or
eight bytes behind it. -/
inductive IsHead (majorType : UInt8) : List UInt8 → ℕ → Prop
  | small {b : UInt8} (h : b < 24) : IsHead majorType [b + majorType] b.toNat
  | wide {additional : UInt8} {digits : List UInt8} (h24 : 24 ≤ additional)
      (h27 : additional ≤ 27)
      (hcount : digits.length = 2 ^ (additional.toNat - 24)) :
      IsHead majorType ((additional + majorType) :: digits)
        (ofDigits 256 (digits.map UInt8.toNat))

theorem toNat_getBigEndian {bytes : List UInt8} (h : bytes.length ≤ 8) :
    (getBigEndian bytes).toNat = ofDigits 256 (bytes.map UInt8.toNat) := by
  induction bytes with
  | nil => rfl
  | cons b bytes ih =>
      rw [List.length_cons] at h
      rw [toNat_getBigEndian_cons (by omega), ih (by omega), List.map_cons,
        ofDigits_cons, List.length_map]

theorem bytesNeeded_of_le {additional : UInt8} (h24 : 24 ≤ additional) :
    bytesNeeded additional = 2 ^ (additional.toNat - 24) := by
  rw [bytesNeeded, if_neg (UInt8.not_lt.mpr h24)]

theorem IsHead.digits_le {additional : UInt8} {digits : List UInt8}
    (h27 : additional ≤ 27)
    (hcount : digits.length = 2 ^ (additional.toNat - 24)) :
    digits.length ≤ 8 := by
  have hle : additional.toNat ≤ 27 := UInt8.le_iff_toNat_le.mp h27
  calc digits.length = 2 ^ (additional.toNat - 24) := hcount
    _ ≤ 2 ^ 3 := Nat.pow_le_pow_right (by decide) (by omega)

/-- The parser reads all of them. -/
theorem IsHead.extractNumber {t : UInt8} (ht : IsMajorType t)
    {head : List UInt8} {number : ℕ} (h : IsHead t head number)
    (rest : List UInt8) :
    ∃ n, Cbor.extractNumber (head ++ rest) = .ok (n, rest) ∧
      n.toNat = number := by
  cases h with
  | @small b hb =>
      exact ⟨b.toUInt64, extractNumber_small ht hb rest,
        UInt8.toNat_toUInt64 b⟩
  | @wide additional digits h24 h27 hcount =>
      have hneeded : digits.length = bytesNeeded additional := by
        rw [hcount, bytesNeeded_of_le h24]
      exact ⟨getBigEndian digits, extractNumber_wide ht h24 h27 hneeded rest,
        toNat_getBigEndian (IsHead.digits_le h27 hcount)⟩

/-- The head byte of each has the type and says that the length is known. -/
theorem IsHead.cons {t : UInt8} (ht : IsMajorType t) {head : List UInt8}
    {number : ℕ} (h : IsHead t head number) :
    ∃ b tail, head = b :: tail ∧ b &&& 0xE0 = t ∧ b &&& 0x1F ≠ 31 := by
  have hbyte {b : UInt8} (hb : b ≤ 27) :
      (b + t) &&& 0xE0 = t ∧ (b + t) &&& 0x1F ≠ 31 := by
    have hb' := UInt8.le_iff_toNat_le.mp hb
    obtain ⟨hlow, hhigh⟩ := head_and ht (b := b)
      (UInt8.lt_iff_toNat_lt.mpr (hb'.trans_lt (by decide)))
    refine ⟨hhigh, ?_⟩
    rw [hlow]
    intro heq
    rw [heq] at hb'
    exact absurd hb' (by decide)
  cases h with
  | @small b hb =>
      obtain ⟨hhigh, hlow⟩ := hbyte (b := b) (UInt8.le_iff_toNat_le.mpr
        ((UInt8.lt_iff_toNat_lt.mp hb).le.trans (by decide)))
      exact ⟨_, _, rfl, hhigh, hlow⟩
  | wide h24 h27 hcount =>
      obtain ⟨hhigh, hlow⟩ := hbyte h27
      exact ⟨_, _, rfl, hhigh, hlow⟩

/-- A head has a byte at least, and two for numbers from 24 on. -/
theorem IsHead.le_length {t : UInt8} {head : List UInt8} {number : ℕ}
    (h : IsHead t head number) :
    (if number < 24 then 1 else 2) ≤ head.length := by
  cases h with
  | @small b hb =>
      have hlt : b.toNat < 24 := UInt8.lt_iff_toNat_lt.mp hb
      rw [if_pos hlt]
      exact le_refl 1
  | @wide additional digits h24 h27 hcount =>
      have hpos : 1 ≤ digits.length := by
        rw [hcount]
        exact Nat.one_le_two_pow
      rw [List.length_cons]
      split <;> omega

/-! ## The cursor behind a step -/

namespace Value

/-- The cursor has read the head it stands on, if it stands on one. -/
structure Fresh (v : Value) : Prop where
  whole : v.flags.iteratingStringChunks = false
  open_ : v.flags.unknownLength = true →
    ∃ b tail, v.ptr = b :: tail ∧ b &&& 0x1F = 31

theorem fresh_preparse {it v : Value} (h : it.preparse = .ok v) :
    v.Fresh := by
  rw [preparse.eq_def] at h
  split at h
  · cases h
  · next b tail hptr =>
      simp only [preparseSimple, gt_iff_lt] at h
      by_cases hdescriptor : 27 < b &&& 0x1F
      · simp only [if_pos hdescriptor] at h
        by_cases hopen : b &&& 0x1F = 31
        · simp only [hopen, ne_eq, not_true_eq_false, if_false] at h
          split at h
          · cases h
            exact ⟨rfl, fun _ => ⟨b, tail, hptr, hopen⟩⟩
          · cases h
        · simp only [ne_eq, hopen, not_false_eq_true, if_true] at h
          cases h
      · simp only [if_neg hdescriptor] at h
        repeat' split at h
        all_goals
          cases h
          try exact ⟨rfl, fun hopen => by cases hopen⟩

/-- Behind a step stands the end of a container or a head that was read. -/
theorem fresh_preparseNextNodecrement {it v : Value}
    (h : it.preparseNextNodecrement = .ok v) :
    v.type = invalidType ∨ v.Fresh := by
  rw [preparseNextNodecrement] at h
  by_cases hbreak : it.remaining = uint32Max ∧ it.ptr.head? = some breakByte
  · rw [if_pos hbreak] at h
    split at h
    · cases h
    · cases h
      exact Or.inl rfl
  · rw [if_neg hbreak] at h
    exact Or.inr (fresh_preparse h)

theorem fresh_preparseNext {it v : Value} (h : it.preparseNext = .ok v) :
    v.type = invalidType ∨ v.Fresh := by
  simp only [preparseNext] at h
  repeat' split at h
  all_goals first
    | exact fresh_preparseNextNodecrement h
    | (cases h; exact Or.inl rfl)

theorem fresh_getStringChunk {it v : Value}
    (h : it.getStringChunk = .ok (none, v)) :
    v.type = invalidType ∨ v.Fresh := by
  have hmap {it' : Value} (h : it'.preparseNext.map
      (fun it => ((none : Option (List UInt8)), it)) = .ok (none, v)) :
      v.type = invalidType ∨ v.Fresh := by
    cases hnext : it'.preparseNext with
    | error e =>
        rw [hnext] at h
        cases h
    | ok next =>
        rw [hnext] at h
        cases h
        exact fresh_preparseNext hnext
  rw [getStringChunk] at h
  split at h
  · exact hmap h
  · -- the cursor inside the string, with its first chunk begun or not
    dsimp only at h
    generalize (if it.flags.iteratingStringChunks = false
      ∧ it.flags.unknownLength = true then _ else it) = inside at h
    cases hptr : inside.ptr with
    | nil =>
        rw [hptr] at h
        cases h
    | cons b tail =>
        rw [hptr] at h
        dsimp only at h
        repeat' split at h
        all_goals first
          | exact hmap h
          | cases h

theorem fresh_stringChunks {fuel : ℕ} {it v : Value} {s : List UInt8}
    (h : it.stringChunks fuel = .ok (s, v)) :
    v.type = invalidType ∨ v.Fresh := by
  induction fuel generalizing it s with
  | zero => cases h
  | succ fuel ih =>
      rw [stringChunks] at h
      cases hchunk : it.getStringChunk with
      | error e =>
          rw [hchunk] at h
          cases h
      | ok read =>
          obtain ⟨chunk, next⟩ := read
          rw [hchunk] at h
          cases chunk with
          | none =>
              cases h
              exact fresh_getStringChunk hchunk
          | some chunk =>
              simp only at h
              cases hrest : next.stringChunks fuel with
              | error e =>
                  rw [hrest] at h
                  cases h
              | ok rest =>
                  obtain ⟨more, behind⟩ := rest
                  rw [hrest] at h
                  cases h
                  exact ih hrest

theorem fresh_advance {it v : Value} (h : it.advance = .ok v) :
    v.type = invalidType ∨ v.Fresh := by
  rw [advance] at h
  split at h
  · cases h
  · rw [advanceRecursive] at h
    split at h
    · rw [advanceInternal] at h
      split at h
      · cases h
      · exact fresh_preparseNext h
    · split at h
      · cases hstring : it.string with
        | error e =>
            rw [hstring] at h
            cases h
        | ok read =>
            rw [hstring] at h
            cases h
            exact fresh_stringChunks hstring
      · split at h
        · cases h
        · split at h
          · cases h
          · rw [leaveContainer] at h
            exact fresh_preparseNext h

/-- A cursor on a byte string with a head in any form. -/
theorem Fresh.onString {v : Value} {head s rest : List UInt8}
    (hfresh : v.Fresh) (htype : v.type = byteStringType)
    (hptr : v.ptr = head ++ s ++ rest)
    (hhead : IsHead byteStringType head s.length) : v.OnString s rest := by
  have hmajor : IsMajorType byteStringType := by decide
  obtain ⟨b, tail, hcons, hhigh, hlow⟩ := hhead.cons hmajor
  have hptr' : v.ptr = b :: (tail ++ s ++ rest) := by
    rw [hptr, hcons]
    rfl
  refine ⟨⟨b, _, hptr', hhigh⟩, ?_, htype, ?_, hfresh.whole⟩
  · rw [hptr, List.append_assoc]
    exact hhead.extractNumber hmajor (s ++ rest)
  · rw [Bool.eq_false_iff]
    intro hopen
    obtain ⟨b', tail', hptr'', hbyte⟩ := hfresh.open_ hopen
    rw [hptr'] at hptr''
    cases hptr''
    exact hlow hbyte

theorem OnString.calculateStringLength {v : Value} {s rest : List UInt8}
    (hv : v.OnString s rest) {len : ℕ}
    (h : v.calculateStringLength = .ok len) : len = s.length := by
  rw [Value.calculateStringLength, hv.string] at h
  generalize preparseNext _ = next at h
  cases next with
  | error e => cases h
  | ok next =>
      cases h
      rfl

end Value

end Nexus.Cbor

namespace Nexus.Channel

open Nexus.Util Nexus.Lib Nexus.Cbor

/-! ## The third element -/

/-- The cursor on the third element of the array, behind the header and the
map. -/
def payloadElement (data : List UInt8) : Except Cbor.Error Value := do
  let root ← parserInit data
  let header ← root.enterContainer
  let (_, unprotected) ← header.string
  unprotected.advance

/-- The length of the shortest head for a string shorter than 256 bytes. -/
def shortestHead (length : ℕ) : ℕ := if length < 24 then 1 else 2

theorem bind_eq_ok {ε α β : Type} {x : Except ε α} {f : α → Except ε β} {b : β}
    (h : (x >>= f) = .ok b) : ∃ a, x = .ok a ∧ f a = .ok b := by
  cases x with
  | error e => cases h
  | ok a => exact ⟨a, rfl, h⟩

/-- What an accepted message says about its third element. -/
theorem accepted_payload {data : List UInt8} {staleTag : Vector UInt8 8}
    {result : ExtractedCoseParams}
    (h : deserializeProtectedMessage data staleTag = .ok result) :
    ∃ third len, payloadElement data = .ok third ∧
      third.type = byteStringType ∧ third.Fresh ∧
      third.calculateStringLength = .ok len ∧
      payloadAt third.ptr len = .ok result.payload := by
  rw [deserializeProtectedMessage] at h
  obtain ⟨root, hroot, h⟩ := bind_eq_ok h
  obtain ⟨_, -, h⟩ := bind_eq_ok h
  obtain ⟨_, -, h⟩ := bind_eq_ok h
  obtain ⟨_, -, h⟩ := bind_eq_ok h
  obtain ⟨header, hheader, h⟩ := bind_eq_ok h
  obtain ⟨_, -, h⟩ := bind_eq_ok h
  obtain ⟨_, -, h⟩ := bind_eq_ok h
  obtain ⟨_, -, h⟩ := bind_eq_ok h
  obtain ⟨⟨bytes, count, unprotected⟩, hcopied, h⟩ := bind_eq_ok h
  obtain ⟨nonce, -, h⟩ := bind_eq_ok h
  obtain ⟨_, -, h⟩ := bind_eq_ok h
  obtain ⟨third, hthird, h⟩ := bind_eq_ok h
  obtain ⟨_, hstring, h⟩ := bind_eq_ok h
  obtain ⟨len, hlen, h⟩ := bind_eq_ok h
  obtain ⟨payload, hpayload, h⟩ := bind_eq_ok h
  obtain ⟨tag, -, h⟩ := bind_eq_ok h
  obtain ⟨_, -, h⟩ := bind_eq_ok h
  obtain ⟨_, -, h⟩ := bind_eq_ok h
  obtain ⟨_, -, h⟩ := bind_eq_ok h
  obtain ⟨_, -, h⟩ := bind_eq_ok h
  obtain ⟨_, -, h⟩ := bind_eq_ok h
  cases h
  obtain ⟨content, hread, -⟩ := copyByteString_ok (orFail_eq_ok hcopied)
  have hadvance := orFail_eq_ok hthird
  have htype : third.type = byteStringType := by
    have hbytes := require_eq_ok hstring
    rwa [Value.isByteString, beq_iff_eq] at hbytes
  refine ⟨third, len, ?_, htype, ?_, orFail_eq_ok hlen, hpayload⟩
  · simp only [payloadElement, orFail_eq_ok hroot, orFail_eq_ok hheader,
      hread, ok_bind, hadvance]
  · rcases Value.fresh_advance hadvance with hinvalid | hfresh
    · rw [htype] at hinvalid
      exact absurd hinvalid (by decide)
    · exact hfresh

theorem payloadAt_ok {ptr payload : List UInt8} {len : ℕ}
    (h : payloadAt ptr len = .ok payload) :
    payload = (ptr.drop (shortestHead len)).take len := by
  rw [payloadAt] at h
  rw [shortestHead]
  by_cases hshort : len < 24
  · rw [if_pos hshort] at h ⊢
    cases h
    rfl
  · rw [if_neg hshort] at h ⊢
    by_cases hlong : len < 255
    · rw [if_pos hlong] at h
      cases h
      rfl
    · rw [if_neg hlong] at h
      cases h

/-- The payload handed on is the content of the third element exactly if its
head is the shortest, or the content repeats what is surplus of the head. -/
theorem payload_eq_content_iff {data : List UInt8}
    {staleTag : Vector UInt8 8} {result : ExtractedCoseParams}
    {third : Value} {head content rest : List UInt8}
    (haccepted : deserializeProtectedMessage data staleTag = .ok result)
    (hthird : payloadElement data = .ok third)
    (hptr : third.ptr = head ++ content ++ rest)
    (hhead : IsHead byteStringType head content.length) :
    result.payload = content ↔
      head.length = shortestHead content.length ∨
        Repeats (head.drop (shortestHead content.length)) content := by
  obtain ⟨third', len, hthird', htype, hfresh, hlen, hpayload⟩ :=
    accepted_payload haccepted
  rw [hthird] at hthird'
  cases hthird'
  have hcontent := (hfresh.onString htype hptr hhead).calculateStringLength hlen
  have hle : shortestHead content.length ≤ head.length := hhead.le_length
  have hsurplus : (head.drop (shortestHead content.length)).length = 0 ↔
      head.length = shortestHead content.length := by
    rw [List.length_drop]
    omega
  rw [payloadAt_ok hpayload, hcontent, hptr, List.append_assoc,
    List.drop_append_of_le_length hle, ← List.append_assoc, take_front_iff,
    hsurplus]

/-- A message with nonce 1, this third element and a tag of zeros. -/
def messageAround (third : List UInt8) : List UInt8 :=
  [0x84, 0x43, 0xA1, 0x05, 0x01, 0xA0] ++ third
    ++ (0x48 :: List.replicate 8 0)

/-- Five bytes behind the shortest head. -/
theorem payload_eq_content_iff_shortest :
    (deserializeProtectedMessage
        (messageAround [0x45, 0x68, 0x65, 0x6C, 0x6C, 0x6F])
        (Vector.replicate 8 0)).toOption.map ExtractedCoseParams.payload
      = some [0x68, 0x65, 0x6C, 0x6C, 0x6F] := by
  have haccepted : deserializeProtectedMessage
      (messageAround [0x45, 0x68, 0x65, 0x6C, 0x6C, 0x6F])
      (Vector.replicate 8 0)
      = .ok ⟨1, [0x68, 0x65, 0x6C, 0x6C, 0x6F], List.replicate 8 0⟩ := by
    decide +kernel
  have hthird : payloadElement
      (messageAround [0x45, 0x68, 0x65, 0x6C, 0x6C, 0x6F])
      = .ok ⟨[0x45, 0x68, 0x65, 0x6C, 0x6C, 0x6F] ++ 0x48 :: List.replicate 8 0,
        2, 5, byteStringType, ⟨false, false, false, false, false, false⟩⟩ := by
    decide +kernel
  have hhead : IsHead byteStringType [5 + byteStringType]
      (5 : UInt8).toNat := .small (by decide)
  have hpayload := (@payload_eq_content_iff _ _ _ _ [0x45]
    [0x68, 0x65, 0x6C, 0x6C, 0x6F] (0x48 :: List.replicate 8 0) haccepted hthird (by simp)
    hhead).mpr (Or.inl rfl)
  rw [haccepted]
  exact congrArg some hpayload

/-- The same five bytes with their length in a byte of its own: the payload is
that byte and the first four. -/
theorem wide_head_shifts_payload :
    deserializeProtectedMessage
        (messageAround [0x58, 0x05, 0x68, 0x65, 0x6C, 0x6C, 0x6F])
        (Vector.replicate 8 0)
        = .ok ⟨1, [0x05, 0x68, 0x65, 0x6C, 0x6C], List.replicate 8 0⟩ ∧
      (payloadElement (messageAround
          [0x58, 0x05, 0x68, 0x65, 0x6C, 0x6C, 0x6F])).toOption.map Value.ptr
        = some ([0x58, 0x05] ++ [0x68, 0x65, 0x6C, 0x6C, 0x6F]
          ++ 0x48 :: List.replicate 8 0) ∧
      IsHead byteStringType [0x58, 0x05]
        [(0x68 : UInt8), 0x65, 0x6C, 0x6C, 0x6F].length ∧
      [(0x05 : UInt8), 0x68, 0x65, 0x6C, 0x6C]
        ≠ [0x68, 0x65, 0x6C, 0x6C, 0x6F] := by
  have hhead : IsHead byteStringType [24 + byteStringType, 5]
      (ofDigits 256 ([(5 : UInt8)].map UInt8.toNat)) :=
    .wide (by decide) (by decide) rfl
  exact ⟨by decide +kernel, by decide +kernel, hhead, by decide⟩

end Nexus.Channel
