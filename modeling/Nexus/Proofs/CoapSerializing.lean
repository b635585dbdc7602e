import Nexus.Lib.Parts
import Nexus.Proofs.CoapParsing

/-!
# What the serialiser writes

The serialiser copies its strings part by part out of memory while it fills the
buffer. Where the parts that are still to come are never written over, it writes
what a copy of the strings would have given: the options of the packet as tagged
values. This is so when the strings lie aside of the buffer, and also when they
lie in it, as long as each part has room for its header in front of it.

A path is cut into parts the way the general account of parts says, with what
lies behind it in memory as the element behind a last cut.
-/

namespace Nexus.Channel.Coap

open Nexus.Lib

variable {m m' : Mem} {number current array length buffer rounds j : Nat}
  {partStart : Nat} {c : UInt8}

/-! ## Parts in memory -/

/-- The parts the loop of `coap_serialize_array_option` finds. -/
def partsLoop (m : Mem) (array length : Nat) (c : UInt8) :
    Nat → Nat → Nat → List Span
  | 0, _, _ => []
  | rounds + 1, j, partStart =>
      if j ≤ length + 1 then
        if m (array + j) = c ∨ j = length then
          ⟨array + partStart, j - partStart⟩
            :: partsLoop m array length c rounds (j + 2) (j + 1)
        else partsLoop m array length c rounds (j + 1) partStart
      else []

/-- The parts of a string. -/
def partsOf (m : Mem) (s : Span) (c : UInt8) : List Span :=
  partsLoop m s.start s.length c (s.length + 2) 0 0

/-- What follows a cut at the very end of a string: nothing, unless the second
byte behind it is a separator. -/
def lastPart (m : Mem) (array length : Nat) (c : UInt8) : List (List UInt8) :=
  if m (array + length + 1) = c then [[m (array + length)]] else []

theorem partsLoop_end (h : length + 1 < j) :
    partsLoop m array length c rounds j partStart = [] := by
  cases rounds with
  | zero => rfl
  | succ rounds => rw [partsLoop, if_neg (by omega)]

/-- Behind a cut at the very end. -/
theorem partsLoop_last :
    (partsLoop m array length c (rounds + 1) (length + 1) length).map
      (Span.bytes · m) = lastPart m array length c := by
  have hne : ¬ length + 1 = length := by omega
  have haddress : array + (length + 1) = array + length + 1 := rfl
  rw [partsLoop, if_pos le_rfl]
  simp only [hne, or_false, haddress, lastPart]
  split
  · rw [partsLoop_end (by omega)]
    simp [Span.bytes, Memory.slice]
  · rw [partsLoop_end (by omega)]
    rfl

/-- The loop cuts the string. -/
theorem map_partsLoop (hj : j ≤ length) (hpart : partStart ≤ j)
    (hrounds : length + 2 - j ≤ rounds) :
    (partsLoop m array length c rounds j partStart).map (Span.bytes · m)
      = Parts.cut c (lastPart m array length c)
          (Memory.slice m (array + partStart) (j - partStart))
          (Memory.slice m (array + j) (length - j)) := by
  induction rounds using Nat.strong_induction_on generalizing j partStart with
  | _ rounds ih =>
      obtain ⟨rounds, rfl⟩ : ∃ k, rounds = k + 1 := ⟨rounds - 1, by omega⟩
      rw [partsLoop, if_pos (by omega)]
      rcases Nat.eq_or_lt_of_le hj with rfl | hlt
      · rw [if_pos (.inr rfl), partsLoop_end (by omega), Nat.sub_self,
          Memory.slice_zero, Parts.cut]
        rfl
      have hsub : length - j = length - (j + 1) + 1 := by omega
      have hne : ¬ j = length := by omega
      have hbytes : (⟨array + partStart, j - partStart⟩ : Span).bytes m
          = Memory.slice m (array + partStart) (j - partStart) := rfl
      rw [hsub, Memory.slice_succ]
      simp only [hne, or_false]
      rcases Nat.eq_or_lt_of_le (Nat.succ_le_of_lt hlt) with hlast | hmore
      · -- the last byte
        have hnil : length - (j + 1) = 0 := by omega
        rw [hnil, Memory.slice_zero, Parts.cut]
        split
        · obtain rfl : j + 1 = length := hlast
          obtain ⟨rounds, rfl⟩ : ∃ k, rounds = k + 1 := ⟨rounds - 1, by omega⟩
          rw [List.map_cons, partsLoop_last, hbytes]
        · rw [ih rounds (by omega) (j := j + 1) (by omega) (by omega)
            (by omega), hnil, Memory.slice_zero, Parts.cut]
          have hgrow : j + 1 - partStart = j - partStart + 1 := by omega
          have haddress : array + partStart + (j - partStart) = array + j := by
            omega
          rw [hgrow, Memory.slice_concat, haddress]
      · have hsub' : length - (j + 1) = length - (j + 2) + 1 := by omega
        rw [hsub', Memory.slice_succ, Parts.cut]
        split
        · rw [List.map_cons, ih rounds (by omega) (j := j + 2) (by omega)
            (by omega) (by omega), hbytes]
          have hone : j + 2 - (j + 1) = 1 := by omega
          rw [hone]
          rfl
        · rw [ih rounds (by omega) (j := j + 1) (by omega) (by omega)
            (by omega), hsub', Memory.slice_succ]
          have hgrow : j + 1 - partStart = j - partStart + 1 := by omega
          have haddress : array + partStart + (j - partStart) = array + j := by
            omega
          rw [hgrow, Memory.slice_concat, haddress]
          rfl

/-- The parts of a string are what cutting its bytes gives. -/
theorem map_partsOf (m : Mem) (s : Span) (c : UInt8) :
    (partsOf m s c).map (Span.bytes · m)
      = Parts.cut c (lastPart m s.start s.length c) [] (s.bytes m) := by
  rw [partsOf, map_partsLoop (Nat.zero_le _) le_rfl (by omega)]
  rfl

theorem partsOf_ne_nil (m : Mem) (s : Span) (c : UInt8) :
    partsOf m s c ≠ [] := by
  intro h
  have hcut := map_partsOf m s c
  rw [h] at hcut
  exact Parts.cut_ne_nil hcut.symm

/-! ## Writing parts -/

/-- Parts as tagged values. -/
def tagged (m : Mem) (number : Nat) (parts : List Span) :
    List (Nat × List UInt8) :=
  parts.map fun part => (number, part.bytes m)

/-- What a string option takes on the wire. -/
def encodeParts (m : Mem) (number current : Nat) (parts : List Span) :
    List UInt8 :=
  Tagged.encode optionCode current (tagged m number parts)

theorem encodeParts_cons (part : Span) (parts : List Span) :
    encodeParts m number current (part :: parts)
      = coapSetOptionHeader (number - current) part.length
        ++ part.bytes m ++ encodeParts m number number parts := by
  simp only [encodeParts, tagged, List.map_cons, Tagged.encode,
    Span.length_bytes]
  rfl

/-- No part is written over before it has been copied: it has room for its
header in front of it, or else the whole string ends before the buffer. -/
def Safe (number base last : Nat) : Nat → Nat → List Span → Prop
  | _, _, [] => True
  | w, current, part :: parts =>
      let header := coapSetOptionHeader (number - current) part.length
      (w + header.length ≤ part.start ∨ last < base)
        ∧ Safe number base last (w + header.length + part.length) number parts

/-- A string that ends before the buffer is safe. -/
theorem safe_of_before {base last w : Nat} (h : last < base)
    (parts : List Span) : Safe number base last w current parts := by
  induction parts generalizing w current with
  | nil => trivial
  | cons part parts ih => exact ⟨.inr h, ih⟩

/-- From here to the second byte behind it, a string is still what it was. -/
def Unread (m m' : Mem) (start last : Nat) : Prop :=
  ∀ i, start ≤ i → i ≤ last → m' i = m i

theorem Unread.put {start last w : Nat} {xs : List UInt8}
    (h : Unread m m' start last) (hw : w + xs.length ≤ start ∨ last < w) :
    Unread m (Memory.put m' w xs) start last := by
  intro i hlo hhi
  rw [← h i hlo hhi]
  rcases hw with hle | hlt
  · exact Memory.put_of_le (by omega)
  · exact Memory.put_of_lt (by omega)

theorem Unread.slice {start last a n : Nat} (h : Unread m m' start last)
    (hlo : start ≤ a) (hhi : a + n ≤ last + 1) :
    Memory.slice m' a n = Memory.slice m a n := by
  refine Memory.slice_congr ?_
  intro i hi
  exact h _ (by omega) (by omega)

/-- Counting leaves memory alone. -/
theorem serializeArrayLoop_none (number array length : Nat) (c : UInt8)
    (rounds j : Nat) (s : ArrayLoop) :
    let r := serializeArrayLoop number array length c none rounds j s
    let parts := partsLoop s.mem array length c rounds j s.partStart
    r.mem = s.mem ∧ r.i = s.i
      + (encodeParts s.mem number s.currentNumber parts).length := by
  induction rounds generalizing j s with
  | zero => exact ⟨rfl, rfl⟩
  | succ rounds ih =>
      simp only [serializeArrayLoop, partsLoop]
      split
      next =>
        split
        next =>
          obtain ⟨hmem, hi⟩ := ih (j + 2) (s.writePart number array none j)
          refine ⟨hmem, hi.trans ?_⟩
          rw [encodeParts_cons]
          simp only [ArrayLoop.writePart, List.length_append, Span.length_bytes]
          omega
        next => exact ih (j + 1) s
      next => exact ⟨rfl, rfl⟩

/-- One part goes into the buffer. -/
theorem writePart_some {s : ArrayLoop} {base last : Nat} (hpart : s.partStart ≤ j)
    (hlast : array + j ≤ last)
    (hunread : Unread m s.mem (array + s.partStart) last)
    (hbase : base ≤ buffer + s.i)
    (hsafe : buffer + s.i + (coapSetOptionHeader (number - s.currentNumber)
        (j - s.partStart)).length ≤ array + s.partStart ∨ last < base) :
    let written := coapSetOptionHeader (number - s.currentNumber)
        (j - s.partStart)
      ++ (⟨array + s.partStart, j - s.partStart⟩ : Span).bytes m
    let s' := s.writePart number array (some buffer) j
    s'.mem = Memory.put s.mem (buffer + s.i) written
      ∧ s'.i = s.i + written.length
      ∧ Unread m s'.mem (array + (j + 1)) last := by
  have hheader : Unread m (Memory.put s.mem (buffer + s.i)
      (coapSetOptionHeader (number - s.currentNumber) (j - s.partStart)))
      (array + s.partStart) last :=
    hunread.put (hsafe.imp_right fun h => by omega)
  have hbytes := hheader.slice (a := array + s.partStart)
    (n := j - s.partStart) le_rfl (by omega)
  have hmem : (s.writePart number array (some buffer) j).mem
      = Memory.put s.mem (buffer + s.i)
        (coapSetOptionHeader (number - s.currentNumber) (j - s.partStart)
          ++ (⟨array + s.partStart, j - s.partStart⟩ : Span).bytes m) := by
    simp only [ArrayLoop.writePart, Memory.move, hbytes, Memory.put_append]
    rfl
  refine ⟨hmem, ?_, ?_⟩
  · simp only [ArrayLoop.writePart, List.length_append, Span.length_bytes]
    omega
  · rw [hmem]
    have hbehind : Unread m s.mem (array + (j + 1)) last :=
      fun i hlo hhi => hunread i (by omega) hhi
    refine hbehind.put ?_
    simp only [List.length_append, Span.length_bytes]
    omega

/-- Where the parts are safe, writing them is writing what they were. -/
theorem serializeArrayLoop_some (number array length : Nat) (c : UInt8)
    (buffer : Nat) {base : Nat} (rounds j : Nat) (s : ArrayLoop)
    (hpart : s.partStart ≤ j) (hbase : base ≤ buffer + s.i)
    (hunread : Unread m s.mem (array + s.partStart) (array + length + 1))
    (hsafe : Safe number base (array + length + 1) (buffer + s.i)
      s.currentNumber (partsLoop m array length c rounds j s.partStart)) :
    let r := serializeArrayLoop number array length c (some buffer) rounds j s
    let bytes := encodeParts m number s.currentNumber
      (partsLoop m array length c rounds j s.partStart)
    r.mem = Memory.put s.mem (buffer + s.i) bytes
      ∧ r.i = s.i + bytes.length := by
  induction rounds generalizing j s with
  | zero => exact ⟨Memory.put_nil.symm, rfl⟩
  | succ rounds ih =>
      simp only [serializeArrayLoop, partsLoop] at hsafe ⊢
      by_cases hj : j ≤ length + 1
      · have hread : s.mem (array + j) = m (array + j) :=
          hunread _ (by omega) (by omega)
        simp only [hj, if_true, hread] at hsafe ⊢
        by_cases hend : m (array + j) = c ∨ j = length
        · simp only [hend, if_true, Safe] at hsafe ⊢
          obtain ⟨hfirst, hrest⟩ := hsafe
          obtain ⟨hmem, hi, hunread'⟩ := writePart_some hpart
            (by omega) hunread hbase hfirst
          have hpos : buffer + (s.writePart number array (some buffer) j).i
              = buffer + s.i + (coapSetOptionHeader (number - s.currentNumber)
                (j - s.partStart)).length + (j - s.partStart) := by
            rw [hi]
            simp only [List.length_append, Span.length_bytes]
            omega
          have hloop := ih (j + 2)
            (s.writePart number array (some buffer) j)
            (by simp [ArrayLoop.writePart]) (by omega) hunread'
            (by rw [hpos]; exact hrest)
          obtain ⟨hmem', hi'⟩ := hloop
          rw [encodeParts_cons]
          refine ⟨?_, ?_⟩
          · rw [hmem', hmem, hi, ← Nat.add_assoc, ← Memory.put_append]
            rfl
          · rw [hi', hi]
            simp only [List.length_append]
            exact Nat.add_assoc _ _ _
        · simp only [hend, if_false] at hsafe ⊢
          exact ih (j + 1) s (by omega) hbase hunread hsafe
      · simp only [hj, if_false]
        exact ⟨Memory.put_nil.symm, rfl⟩

/-! ## All options -/

/-- A string option, if it is set. -/
def stringOption (m : Mem) (pkt : Packet) (number : Nat) (field : Span)
    (c : UInt8) : List (Nat × List UInt8) :=
  if number ∈ pkt.options then tagged m number (partsOf m field c) else []

/-- The content format, if it is set. -/
def formatOption (pkt : Packet) : List (Nat × List UInt8) :=
  if optionContentFormat ∈ pkt.options then
    [(optionContentFormat, intOptionBytes pkt.contentFormat.toUInt32)]
  else []

/-- The options in front of the query. -/
def headOptions (m : Mem) (pkt : Packet) : List (Nat × List UInt8) :=
  stringOption m pkt optionUriPath pkt.uriPath pathSeparator
    ++ formatOption pkt

/-- The options of a packet, as tagged values. -/
def optionsOf (m : Mem) (pkt : Packet) : List (Nat × List UInt8) :=
  headOptions m pkt
    ++ stringOption m pkt optionUriQuery pkt.uriQuery querySeparator

/-- What these options take on the wire. -/
def encodeOptions (values : List (Nat × List UInt8)) : List UInt8 :=
  Tagged.encode optionCode 0 values

/-- The loop over the options has got ahead by some values. -/
structure OptionLoop.Ahead (option : Option Nat) (s s' : OptionLoop)
    (values : List (Nat × List UInt8)) : Prop where
  mem : s'.mem =
    match option with
    | none => s.mem
    | some option => Memory.put s.mem (option + s.optionLength)
        (Tagged.encode optionCode s.currentNumber values)
  optionLength : s'.optionLength = s.optionLength
    + (Tagged.encode optionCode s.currentNumber values).length
  currentNumber : s'.currentNumber
    = Tagged.lastNumber s.currentNumber values

variable {option : Option Nat} {s s' s'' : OptionLoop} {pkt : Packet}
  {field : Span} {values values' : List (Nat × List UInt8)}

theorem OptionLoop.Ahead.refl : s.Ahead option s [] where
  mem := by
    cases option with
    | none => rfl
    | some option => exact Memory.put_nil.symm
  optionLength := rfl
  currentNumber := rfl

theorem OptionLoop.Ahead.trans (h : s.Ahead option s' values)
    (h' : s'.Ahead option s'' values') :
    s.Ahead option s'' (values ++ values') where
  mem := by
    rw [h'.mem]
    cases option with
    | none => exact h.mem
    | some option =>
        have hmem := h.mem
        simp only at hmem ⊢
        rw [Tagged.encode_append, Memory.put_append, hmem, h.optionLength,
          h.currentNumber, Nat.add_assoc]
  optionLength := by
    rw [h'.optionLength, h.optionLength, h.currentNumber,
      Tagged.encode_append, List.length_append, Nat.add_assoc]
  currentNumber := by
    rw [h'.currentNumber, h.currentNumber, Tagged.lastNumber_append]

theorem lastNumber_tagged {parts : List Span} (h : parts ≠ []) :
    Tagged.lastNumber current (tagged m number parts) = number := by
  have hlast : (tagged m number parts).getLast?
      = some (number, (parts.getLast h).bytes m) := by
    simp [tagged, List.getLast?_map, List.getLast?_eq_some_getLast h]
  simp [Tagged.lastNumber, hlast]

theorem ahead_string_none (pkt : Packet) (number : Nat) (s : OptionLoop)
    (field : Span) (c : UInt8) :
    s.Ahead none (s.string pkt none number field c)
      (stringOption s.mem pkt number field c) := by
  simp only [OptionLoop.string, stringOption]
  split
  next =>
    obtain ⟨hmem, hi⟩ := serializeArrayLoop_none number field.start
      field.length c (field.length + 2) 0 ⟨s.mem, 0, s.currentNumber, 0⟩
    refine ⟨hmem, ?_, (lastNumber_tagged (partsOf_ne_nil _ _ _)).symm⟩
    simp only [coapSerializeArrayOption, Option.map_none, hi, Nat.zero_add]
    rfl
  next => exact .refl

/-- The string of an option can be copied from where it is. -/
def SafeString (m : Mem) (number base w current : Nat) (field : Span)
    (c : UInt8) : Prop :=
  Safe number base (field.start + field.length + 1) w current
    (partsOf m field c)

theorem ahead_string_some {o base : Nat}
    (hunread : number ∈ pkt.options →
      Unread m s.mem field.start (field.start + field.length + 1))
    (hbase : base ≤ o)
    (hsafe : number ∈ pkt.options → SafeString m number base
      (o + s.optionLength) s.currentNumber field c) :
    s.Ahead (some o) (s.string pkt (some o) number field c)
      (stringOption m pkt number field c) := by
  simp only [OptionLoop.string, stringOption]
  split
  next hset =>
    obtain ⟨hmem, hi⟩ := serializeArrayLoop_some number field.start
      field.length c (o + s.optionLength) (field.length + 2) 0
      ⟨s.mem, 0, s.currentNumber, 0⟩ le_rfl (by omega) (hunread hset)
      (hsafe hset)
    refine ⟨hmem, ?_, (lastNumber_tagged (partsOf_ne_nil _ _ _)).symm⟩
    simp only [coapSerializeArrayOption, Option.map_some, hi, Nat.zero_add]
    rfl
  next => exact .refl

theorem ahead_int (pkt : Packet) (s : OptionLoop) (option : Option Nat) :
    s.Ahead option (s.int pkt option optionContentFormat pkt.contentFormat)
      (formatOption pkt) := by
  simp only [OptionLoop.int, formatOption]
  split
  next =>
    have hencode : Tagged.encode optionCode s.currentNumber
        [(optionContentFormat, intOptionBytes pkt.contentFormat.toUInt32)]
        = coapSerializeIntOption optionContentFormat s.currentNumber
          pkt.contentFormat.toUInt32 := by
      simp only [Tagged.encode, List.append_nil]
      rfl
    refine ⟨?_, by rw [hencode], rfl⟩
    cases option <;> rw [hencode]
  next => exact .refl

/-- Counting the options. -/
theorem coapSerializeOptions_none (m : Mem) (pkt : Packet) :
    coapSerializeOptions m pkt none
      = (m, (encodeOptions (optionsOf m pkt)).length) := by
  have hpath := ahead_string_none pkt optionUriPath ⟨m, 0, 0⟩ pkt.uriPath
    pathSeparator
  have hhead := hpath.trans (ahead_int pkt _ none)
  have hall := hhead.trans (ahead_string_none pkt optionUriQuery _ pkt.uriQuery
    querySeparator)
  rw [hhead.mem] at hall
  refine Prod.ext hall.mem ?_
  exact hall.optionLength.trans (Nat.zero_add _)

/-- The strings of a packet can be copied from where they are into a buffer at
`base`, with the options from `o` on. -/
structure SafeOptions (m : Mem) (pkt : Packet) (base o : Nat) : Prop where
  base_le : base ≤ o
  path : optionUriPath ∈ pkt.options →
    SafeString m optionUriPath base o 0 pkt.uriPath pathSeparator
  query : optionUriQuery ∈ pkt.options →
    SafeString m optionUriQuery base
      (o + (encodeOptions (headOptions m pkt)).length)
      (Tagged.lastNumber 0 (headOptions m pkt)) pkt.uriQuery querySeparator

/-- In front of its first part there is room for a header. -/
theorem Safe.first {base last w : Nat} {part : Span} {parts : List Span}
    (h : Safe number base last w current (part :: parts)) :
    w + 1 ≤ part.start ∨ last < base := by
  obtain ⟨hfirst, -⟩ := h
  refine hfirst.imp_left ?_
  intro hle
  simp only [coapSetOptionHeader, List.length_cons] at hle
  omega

theorem partsOf_cons (m : Mem) (s : Span) (c : UInt8) :
    ∃ n parts, partsOf m s c = ⟨s.start, n⟩ :: parts := by
  have hstart (rounds j : Nat) (hj : j ≤ s.length)
      (hrounds : s.length < rounds + j) :
      ∃ n parts, partsLoop m s.start s.length c rounds j 0
        = ⟨s.start, n⟩ :: parts := by
    induction rounds generalizing j with
    | zero => omega
    | succ rounds ih =>
        rw [partsLoop, if_pos (by omega)]
        split
        · exact ⟨_, _, rfl⟩
        next hnot =>
          have hne : j ≠ s.length := fun h => hnot (.inr h)
          exact ih (j + 1) (by omega) (by omega)
  exact hstart _ 0 (Nat.zero_le _) (by omega)

theorem SafeString.first {base w : Nat}
    (h : SafeString m number base w current field c) :
    w + 1 ≤ field.start ∨ field.start + field.length + 1 < base := by
  obtain ⟨n, parts, hparts⟩ := partsOf_cons m field c
  rw [SafeString, hparts] at h
  have hfirst := Safe.first h
  exact hfirst

/-- The options go into the buffer as what they were. -/
theorem coapSerializeOptions_some {base o : Nat}
    (h : SafeOptions m pkt base o)
    (hpath : optionUriPath ∈ pkt.options → Unread m m' pkt.uriPath.start
      (pkt.uriPath.start + pkt.uriPath.length + 1))
    (hquery : optionUriQuery ∈ pkt.options → Unread m m' pkt.uriQuery.start
      (pkt.uriQuery.start + pkt.uriQuery.length + 1)) :
    coapSerializeOptions m' pkt (some o)
      = (Memory.put m' o (encodeOptions (optionsOf m pkt)),
          (encodeOptions (optionsOf m pkt)).length) := by
  have hfirst : OptionLoop.Ahead (some o) ⟨m', 0, 0⟩ _
      (stringOption m pkt optionUriPath pkt.uriPath pathSeparator) :=
    ahead_string_some hpath h.base_le h.path
  have hhead := hfirst.trans (ahead_int pkt _ (some o))
  have hlength := hhead.optionLength
  have hnumber := hhead.currentNumber
  have hmem := hhead.mem
  simp only [Nat.zero_add] at hlength
  simp only [Nat.add_zero] at hmem
  have hall := hhead.trans (ahead_string_some (o := o) (c := querySeparator)
    (by
      intro hset
      rw [hmem]
      refine (hquery hset).put ?_
      rcases (h.query hset).first with hroom | haside
      · left
        simp only [headOptions, encodeOptions] at hroom
        omega
      · have := h.base_le
        omega) h.base_le (by
      intro hset
      rw [hlength, hnumber]
      exact h.query hset))
  refine Prod.ext hall.mem ?_
  exact hall.optionLength.trans (Nat.zero_add _)

end Nexus.Channel.Coap
