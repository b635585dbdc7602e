import Nexus.Proofs.CoapOptions

/-!
# Parsing where the message lies

The parser joins the parts of a path in the buffer the message came in, over
headers it has read already. `readBody` is the same reading of a list of bytes,
which copies: the options as tagged values, one after the other, and then the
payload.

The two agree because of where things are. A part is moved down, to right behind
the parts before it, so nothing that has not been read yet is written over. And
the numbers of options never fall, so by the time a query starts the path is
complete, and all of it lies before the query.
-/

namespace Nexus.Channel.Coap

open Nexus.Lib

/-! ## Reading bytes -/

/-- The fields of a packet that options and payload fill in, written out. -/
structure Fields where
  contentFormat : UInt16
  uriPath : List UInt8
  uriQuery : List UInt8
  payload : List UInt8
deriving DecidableEq

/-- The fields of a packet in memory. -/
def Packet.fields (pkt : Packet) (m : Mem) : Fields where
  contentFormat := pkt.contentFormat
  uriPath := pkt.uriPath.bytes m
  uriQuery := pkt.uriQuery.bytes m
  payload := pkt.payload.bytes m

/-- Another part of a path or a query. -/
def joinPart (dst option : List UInt8) (separator : UInt8) : List UInt8 :=
  if dst.length > 0 then dst ++ separator :: option else option

namespace Fields

/-- The fields of a message without options. -/
def none : Fields := ⟨0, [], [], []⟩

/-- An option is taken over. -/
def take (f : Fields) (number : Nat) (value : List UInt8) :
    ParseStatus × Fields :=
  if number = optionContentFormat then
    let format := (coapParseIntOption value).toUInt16
    (if format ≠ applicationVndOcfCbor ∧ format ≠ applicationCoseMac0 then
        .unsupportedMediaType415
      else .noError,
      { f with contentFormat := format })
  else if number = optionUriPath then
    (.noError, { f with uriPath := joinPart f.uriPath value pathSeparator })
  else if number = optionUriQuery then
    (.noError, { f with uriQuery := joinPart f.uriQuery value querySeparator })
  else (if number % 2 = 1 then .badOption402 else .noError, f)

/-- All options, up to one that is refused. -/
def takeAll (f : Fields) : List (Nat × List UInt8) → ParseStatus × Fields
  | [] => (.noError, f)
  | (number, value) :: values =>
      match f.take number value with
      | (.noError, f) => f.takeAll values
      | failed => failed

/-- The numbers of all options, up to one that is refused. -/
def visited (f : Fields) : List (Nat × List UInt8) → List Nat
  | [] => []
  | (number, value) :: values =>
      number ::
        match f.take number value with
        | (.noError, f) => f.visited values
        | _ => []

/-- What follows the options: nothing, a payload, or an option that is cut
short. -/
def finish (f : Fields) : List UInt8 → ParseStatus × Fields
  | [] => (.noError, f)
  | b :: payload =>
      if isMarker b then
        (.noError, { f with payload := payload.take maxCborPayloadSize })
      else (.badOption402, f)

end Fields

/-- The options of a message and what follows them, behind an option number. -/
def bodyOf (number : Nat) (bytes : List UInt8) :
    List (Nat × List UInt8) × List UInt8 :=
  Tagged.decode optionCode bytes.length number bytes

/-- Options and payload. -/
def readBody (number : Nat) (f : Fields) (bytes : List UInt8) :
    ParseStatus × Fields :=
  match f.takeAll (bodyOf number bytes).1 with
  | (.noError, f) => f.finish (bodyOf number bytes).2
  | failed => failed

/-! ## One option at a time -/

section Bytes

variable {number : Nat} {f : Fields} {b : UInt8} {bytes : List UInt8}
  {d n k : Nat}

theorem bodyOf_marker (h : isMarker b = true) :
    bodyOf number (b :: bytes) = ([], b :: bytes) := by
  have hends : Tagged.Ends optionCode (b :: bytes) := h
  exact Tagged.decode_ends hends _

theorem bodyOf_none (h : isMarker b = false)
    (hread : headerOf (b :: bytes) = none) :
    bodyOf number (b :: bytes) = ([], b :: bytes) := by
  have hstops : optionCode.stops b = false := h
  have hcode : optionCode.read (b :: bytes) = none := hread
  simp [bodyOf, Tagged.decode, hstops, hcode]

theorem bodyOf_cut (h : isMarker b = false)
    (hread : headerOf (b :: bytes) = some (d, n, k))
    (hcut : (b :: bytes).length < k + n) :
    bodyOf number (b :: bytes) = ([], b :: bytes) := by
  have hstops : optionCode.stops b = false := h
  have hcode : optionCode.read (b :: bytes) = some (d, n, k) := hread
  have hle : ¬ k + n ≤ bytes.length + 1 := by
    simpa using hcut
  simp [bodyOf, Tagged.decode, hstops, hcode, hle]

theorem bodyOf_option (number : Nat) (h : isMarker b = false)
    (hread : headerOf (b :: bytes) = some (d, n, k))
    (hle : k + n ≤ (b :: bytes).length) :
    bodyOf number (b :: bytes)
      = ((number + d, ((b :: bytes).drop k).take n)
            :: (bodyOf (number + d) ((b :: bytes).drop (k + n))).1,
          (bodyOf (number + d) ((b :: bytes).drop (k + n))).2) := by
  have hstops : optionCode.stops b = false := h
  have hcode : optionCode.read (b :: bytes) = some (d, n, k) := hread
  have hpos : 0 < k := optionCode.read_pos hcode
  have hlt : ((b :: bytes).drop (k + n)).length ≤ bytes.length := by
    simp only [List.length_drop, List.length_cons]
    omega
  rw [bodyOf, bodyOf, List.length_cons, Tagged.decode]
  simp only [hstops, Bool.false_eq_true, if_false, hcode, if_pos hle,
    Tagged.decode_fuel (c := optionCode) hlt le_rfl]

theorem readBody_nil : readBody number f [] = (.noError, f) := rfl

theorem readBody_marker (h : isMarker b = true) :
    readBody number f (b :: bytes)
      = (.noError, { f with payload := bytes.take maxCborPayloadSize }) := by
  simp [readBody, bodyOf_marker h, Fields.takeAll, Fields.finish, h]

theorem bodyOf_short (h : isMarker b = false)
    (hshort : ∀ d n k, headerOf (b :: bytes) = some (d, n, k) →
      (b :: bytes).length < k + n) :
    bodyOf number (b :: bytes) = ([], b :: bytes) := by
  cases hread : headerOf (b :: bytes) with
  | none => exact bodyOf_none h hread
  | some r => exact bodyOf_cut h hread (hshort _ _ _ hread)

theorem readBody_short (h : isMarker b = false)
    (hshort : ∀ d n k, headerOf (b :: bytes) = some (d, n, k) →
      (b :: bytes).length < k + n) :
    readBody number f (b :: bytes) = (.badOption402, f) := by
  simp [readBody, bodyOf_short h hshort, Fields.takeAll, Fields.finish, h]

theorem readBody_option (h : isMarker b = false)
    (hread : headerOf (b :: bytes) = some (d, n, k))
    (hle : k + n ≤ (b :: bytes).length) :
    readBody number f (b :: bytes)
      = match f.take (number + d) (((b :: bytes).drop k).take n) with
        | (.noError, f) =>
            readBody (number + d) f ((b :: bytes).drop (k + n))
        | failed => failed := by
  rw [readBody, bodyOf_option number h hread hle, Fields.takeAll]
  rcases f.take (number + d) (((b :: bytes).drop k).take n) with ⟨status, f'⟩
  cases status <;> rfl

end Bytes

/-! ## Joining in place -/

section Joining

variable {m : Mem} {dst option : Span} {separator : UInt8}

theorem Span.bytes_of_length_zero {s : Span} (h : s.length = 0) :
    s.bytes m = [] := by
  rw [Span.bytes, h, Memory.slice_zero]

@[simp] theorem Span.length_bytes {s : Span} : (s.bytes m).length = s.length :=
  Memory.length_slice

/-- What joining writes: a separator and the new part, behind the parts there
are. -/
theorem mem_coapMergeMultiOption
    (h : 0 < dst.length → dst.start + dst.length < option.start) :
    (coapMergeMultiOption m dst option separator).1
      = if 0 < dst.length then
          Memory.put m (dst.start + dst.length)
            (separator :: option.bytes m)
        else m := by
  simp only [coapMergeMultiOption]
  by_cases hpos : 0 < dst.length
  · have hkept : Memory.slice (Memory.put m (dst.start + dst.length)
        [separator]) option.start option.length = option.bytes m :=
      Memory.slice_put_of_behind (h hpos)
    have happend : separator :: option.bytes m
        = [separator] ++ option.bytes m := rfl
    simp only [hpos, if_true, Memory.move, hkept, happend, Memory.put_append,
      List.length_singleton]
  · simp only [hpos, if_false]

theorem coapMergeMultiOption_of_lt {i : Nat} (hi : i < dst.start + dst.length) :
    (coapMergeMultiOption m dst option separator).1 i = m i := by
  simp only [coapMergeMultiOption]
  split
  · exact (Memory.put_of_lt (by omega)).trans (Memory.put_of_lt hi)
  · rfl

theorem coapMergeMultiOption_of_le
    (h : 0 < dst.length → dst.start + dst.length < option.start) {i : Nat}
    (hi : option.start + option.length ≤ i) :
    (coapMergeMultiOption m dst option separator).1 i = m i := by
  rw [mem_coapMergeMultiOption h]
  split
  next hpos =>
    refine Memory.put_of_le ?_
    have := h hpos
    simp only [List.length_cons, Span.length_bytes]
    omega
  · rfl

theorem bytes_coapMergeMultiOption
    (h : 0 < dst.length → dst.start + dst.length < option.start) :
    (coapMergeMultiOption m dst option separator).2.bytes
        (coapMergeMultiOption m dst option separator).1
      = joinPart (dst.bytes m) (option.bytes m) separator := by
  rw [mem_coapMergeMultiOption h]
  simp only [coapMergeMultiOption, joinPart, Span.length_bytes]
  split
  next hpos =>
    have hlength : dst.length + 1 + option.length
        = dst.length + (separator :: option.bytes m).length := by
      simp only [List.length_cons, Span.length_bytes]
      omega
    simp only [hlength, Span.bytes, Memory.slice_put_behind]
  · rfl

end Joining

/-! ## One option in place -/

/-- Where the strings of a packet are while its options are read: behind `lo`,
in front of `current`, the path in front of the query, and a query only from the
number of queries on. -/
structure Packet.Placed (lo current number : Nat) (pkt : Packet) : Prop where
  path : 0 < pkt.uriPath.length →
    lo ≤ pkt.uriPath.start
      ∧ pkt.uriPath.start + pkt.uriPath.length ≤ current
  query : 0 < pkt.uriQuery.length →
    lo ≤ pkt.uriQuery.start
      ∧ pkt.uriQuery.start + pkt.uriQuery.length ≤ current
      ∧ optionUriQuery ≤ number
      ∧ (0 < pkt.uriPath.length →
          pkt.uriPath.start + pkt.uriPath.length ≤ pkt.uriQuery.start)
  payload : pkt.payload.length = 0

/-- The header of a packet and the options that were set do not change. -/
def Packet.SameHeader (pkt pkt' : Packet) : Prop :=
  pkt'.type = pkt.type ∧ pkt'.code = pkt.code ∧ pkt'.mid = pkt.mid
    ∧ pkt'.tokenLen = pkt.tokenLen ∧ pkt'.token = pkt.token

theorem Packet.SameHeader.refl (pkt : Packet) : pkt.SameHeader pkt :=
  ⟨rfl, rfl, rfl, rfl, rfl⟩

theorem Packet.SameHeader.trans {pkt₁ pkt₂ pkt₃ : Packet}
    (h : pkt₁.SameHeader pkt₂) (h' : pkt₂.SameHeader pkt₃) :
    pkt₁.SameHeader pkt₃ := by
  obtain ⟨htype, hcode, hmid, hlen, htoken⟩ := h
  obtain ⟨htype', hcode', hmid', hlen', htoken'⟩ := h'
  exact ⟨htype'.trans htype, hcode'.trans hcode, hmid'.trans hmid,
    hlen'.trans hlen, htoken'.trans htoken⟩

section InPlace

variable {m : Mem} {pkt : Packet} {lo current number number' : Nat}
  {option : Span}

theorem bytes_congr {m' : Mem} {s : Span}
    (h : 0 < s.length → ∀ i, s.start ≤ i → i < s.start + s.length →
      m' i = m i) :
    s.bytes m' = s.bytes m := by
  refine Memory.slice_congr ?_
  intro i hi
  exact h (by omega) _ (Nat.le_add_right _ _) (by omega)

/-- What taking an option over does to memory and packet. -/
structure TakesOption (m : Mem) (pkt : Packet) (lo number : Nat) (option : Span)
    (r : ParseStatus × Mem × Packet) : Prop where
  status : r.1 = ((pkt.fields m).take number (option.bytes m)).1
  fields : r.2.2.fields r.2.1
    = ((pkt.fields m).take number (option.bytes m)).2
  placed : r.2.2.Placed lo (option.start + option.length) number
  before : ∀ i < lo, r.2.1 i = m i
  behind : ∀ i, option.start + option.length ≤ i → r.2.1 i = m i
  header : pkt.SameHeader r.2.2
  options : r.2.2.options = pkt.options

/-- Reading on moves every bound up. -/
theorem Packet.Placed.mono (h : pkt.Placed lo current number) (current' : Nat)
    (hcurrent : current ≤ current') (hnumber : number ≤ number') :
    pkt.Placed lo current' number' where
  path hpos := ⟨(h.path hpos).1, (h.path hpos).2.trans hcurrent⟩
  query hpos := by
    obtain ⟨hlo, hend, hnum, hpath⟩ := h.query hpos
    exact ⟨hlo, hend.trans hcurrent, hnum.trans hnumber, hpath⟩
  payload := h.payload

/-- An option that changes nothing but perhaps the content format. -/
theorem takesOption_format (h : pkt.Placed lo current number)
    (hnumber : number ≤ number') (hstart : current < option.start)
    (format : UInt16) (status : ParseStatus)
    (htake : (pkt.fields m).take number' (option.bytes m)
      = (status, { pkt.fields m with contentFormat := format })) :
    TakesOption m pkt lo number' option
      (status, m, { pkt with contentFormat := format }) where
  status := by rw [htake]
  fields := by
    rw [htake]
    rfl
  placed := by
    have hmono := h.mono (option.start + option.length) (by omega) hnumber
    exact ⟨hmono.path, hmono.query, hmono.payload⟩
  before _ _ := rfl
  behind _ _ := rfl
  header := .refl _
  options := rfl

theorem takesOption_path (h : pkt.Placed lo current number)
    (hnumber : number ≤ optionUriPath) (hlo : lo ≤ current)
    (hstart : current < option.start) :
    TakesOption m pkt lo optionUriPath option
      (.noError,
        (coapMergeMultiOption m pkt.uriPath option pathSeparator).1,
        { pkt with uriPath :=
          (coapMergeMultiOption m pkt.uriPath option pathSeparator).2 }) := by
  have hbehind (hpos : 0 < pkt.uriPath.length) :
      pkt.uriPath.start + pkt.uriPath.length < option.start :=
    Nat.lt_of_le_of_lt (h.path hpos).2 hstart
  -- there is no query before the last part of a path
  have hquery : pkt.uriQuery.length = 0 := by
    rcases Nat.eq_zero_or_pos pkt.uriQuery.length with hzero | hpos
    · exact hzero
    · have := (h.query hpos).2.2.1
      simp only [optionUriQuery, optionUriPath] at this hnumber
      omega
  refine ⟨rfl, ?_, ⟨?_, ?_, h.payload⟩, ?_, ?_, .refl _, rfl⟩
  · simp only [Packet.fields, Fields.take, bytes_coapMergeMultiOption hbehind,
      Span.bytes_of_length_zero hquery, Span.bytes_of_length_zero h.payload]
    rfl
  · intro hpos
    simp only [coapMergeMultiOption] at hpos ⊢
    split
    next hdst =>
      have := h.path hdst
      have := hbehind hdst
      exact ⟨(h.path hdst).1, by simp only; omega⟩
    · exact ⟨hlo.trans hstart.le, le_rfl⟩
  · intro hpos
    simp [hquery] at hpos
  · intro i hi
    rcases Nat.eq_zero_or_pos pkt.uriPath.length with hzero | hpos
    · simp [coapMergeMultiOption, hzero]
    · exact coapMergeMultiOption_of_lt
        (Nat.lt_of_lt_of_le hi ((h.path hpos).1.trans (Nat.le_add_right _ _)))
  · intro i hi
    exact coapMergeMultiOption_of_le hbehind hi

theorem takesOption_query (h : pkt.Placed lo current number)
    (hlo : lo ≤ current) (hstart : current < option.start) :
    TakesOption m pkt lo optionUriQuery option
      (.noError,
        (coapMergeMultiOption m pkt.uriQuery option querySeparator).1,
        { pkt with uriQuery :=
          (coapMergeMultiOption m pkt.uriQuery option querySeparator).2 }) := by
  have hbehind (hpos : 0 < pkt.uriQuery.length) :
      pkt.uriQuery.start + pkt.uriQuery.length < option.start :=
    Nat.lt_of_le_of_lt (h.query hpos).2.1 hstart
  have hpath : pkt.uriPath.bytes
      (coapMergeMultiOption m pkt.uriQuery option querySeparator).1
      = pkt.uriPath.bytes m := by
    refine bytes_congr ?_
    intro hpos i _ hi
    rcases Nat.eq_zero_or_pos pkt.uriQuery.length with hzero | hquery
    · simp [coapMergeMultiOption, hzero]
    · have := (h.query hquery).2.2.2 hpos
      exact coapMergeMultiOption_of_lt (by omega)
  refine ⟨rfl, ?_, ⟨?_, ?_, h.payload⟩, ?_, ?_, .refl _, rfl⟩
  · simp only [Packet.fields, Fields.take, bytes_coapMergeMultiOption hbehind,
      hpath, Span.bytes_of_length_zero h.payload]
    rfl
  · intro hpos
    exact ⟨(h.path hpos).1, (h.path hpos).2.trans (by omega)⟩
  · intro hpos
    simp only [coapMergeMultiOption] at hpos ⊢
    split
    next hdst =>
      obtain ⟨hle, hend, -, hbefore⟩ := h.query hdst
      have := hbehind hdst
      exact ⟨hle, by simp only; omega, le_rfl, hbefore⟩
    · refine ⟨hlo.trans hstart.le, le_rfl, le_rfl, ?_⟩
      intro hpos
      have := (h.path hpos).2
      show pkt.uriPath.start + pkt.uriPath.length ≤ option.start
      omega
  · intro i hi
    rcases Nat.eq_zero_or_pos pkt.uriQuery.length with hzero | hpos
    · simp [coapMergeMultiOption, hzero]
    · exact coapMergeMultiOption_of_lt
        (Nat.lt_of_lt_of_le hi ((h.query hpos).1.trans (Nat.le_add_right _ _)))
  · intro i hi
    exact coapMergeMultiOption_of_le hbehind hi

theorem takesOption (h : pkt.Placed lo current number)
    (hnumber : number ≤ number') (hlo : lo ≤ current)
    (hstart : current < option.start) :
    TakesOption m pkt lo number' option (takeOption m pkt number' option) := by
  simp only [takeOption]
  by_cases hformat : number' = optionContentFormat
  · subst hformat
    simp only [if_true]
    split
    next hbad =>
      refine takesOption_format h hnumber hstart _ _ ?_
      simp [Fields.take, hbad]
    next hgood =>
      refine takesOption_format h hnumber hstart _ _ ?_
      simp [Fields.take, hgood]
  by_cases hpath : number' = optionUriPath
  · subst hpath
    simp only [hformat, if_false, if_true]
    exact takesOption_path h hnumber hlo hstart
  by_cases hquery : number' = optionUriQuery
  · subst hquery
    simp only [hformat, hpath, if_false, if_true]
    exact takesOption_query h hlo hstart
  simp only [hformat, hpath, hquery, if_false]
  split
  next hodd =>
    refine takesOption_format h hnumber hstart pkt.contentFormat _ ?_
    simp [Fields.take, hformat, hpath, hquery, hodd, Packet.fields]
  next heven =>
    refine takesOption_format h hnumber hstart pkt.contentFormat _ ?_
    simp [Fields.take, hformat, hpath, hquery, heven, Packet.fields]

/-! ## All options in place -/

variable {stop rounds : Nat} {bytes : List UInt8}

/-- What reading options and payload does to memory and packet. The only byte
that may change behind the message is the one right behind it: it gets the zero
behind a payload that is not cut. -/
structure ReadsBody (m : Mem) (pkt : Packet) (lo stop number : Nat)
    (bytes : List UInt8) (r : ParseStatus × Mem × Packet) : Prop where
  status : r.1 = (readBody number (pkt.fields m) bytes).1
  fields : r.2.2.fields r.2.1 = (readBody number (pkt.fields m) bytes).2
  before : ∀ i < lo, r.2.1 i = m i
  behind : ∀ i, stop < i → r.2.1 i = m i
  zeroed : r.1 = .noError → ∀ b payload,
    (bodyOf number bytes).2 = b :: payload →
      payload.length ≤ maxCborPayloadSize → r.2.1 stop = 0
  kept : (r.1 = .noError → ∀ b payload,
    (bodyOf number bytes).2 = b :: payload →
      maxCborPayloadSize < payload.length) → r.2.1 stop = m stop
  header : pkt.SameHeader r.2.2
  options : Tagged.Ends optionCode (bodyOf number bytes).2 →
    r.2.2.options
      = pkt.options ++ (pkt.fields m).visited (bodyOf number bytes).1

@[simp] theorem Packet.fields_setOption :
    (pkt.setOption number).fields m = pkt.fields m := rfl

theorem readsBody_nil (lo stop : Nat) :
    ReadsBody m pkt lo stop number [] (.noError, m, pkt) where
  status := rfl
  fields := rfl
  before _ _ := rfl
  behind _ _ := rfl
  zeroed _ b payload h := by cases h
  kept _ := rfl
  header := .refl _
  options _ := (List.append_nil _).symm

/-- The payload, where it begins. -/
theorem readsBody_marker (h : pkt.Placed lo current number) (hlo : lo ≤ current)
    (hlt : current < stop) (hmarker : isMarker (m current) = true) :
    ReadsBody m pkt lo stop number (remaining m current stop)
      (.noError, takePayload m pkt (current + 1) stop) := by
  have hpath : pkt.uriPath.bytes (takePayload m pkt (current + 1) stop).1
      = pkt.uriPath.bytes m := by
    refine bytes_congr ?_
    intro hpos i _ hi
    have := (h.path hpos).2
    exact Memory.put_of_lt (by omega)
  have hquery : pkt.uriQuery.bytes (takePayload m pkt (current + 1) stop).1
      = pkt.uriQuery.bytes m := by
    refine bytes_congr ?_
    intro hpos i _ hi
    have := (h.query hpos).2.1
    exact Memory.put_of_lt (by omega)
  have hpayload : Memory.slice (takePayload m pkt (current + 1) stop).1
      (current + 1) (min (stop - (current + 1)) maxCborPayloadSize)
      = (remaining m (current + 1) stop).take maxCborPayloadSize := by
    rw [takePayload, Memory.slice_put_of_before le_rfl, remaining,
      ← Memory.slice_drop_take (i := 0) (j := min _ _)
        (n := stop - (current + 1)) (by omega)]
    rw [List.drop_zero, Nat.min_comm, ← List.take_take, List.take_of_length_le
      (l := Memory.slice m (current + 1) (stop - (current + 1))) (by simp)]
  rw [remaining_cons hlt]
  refine ⟨by rw [readBody_marker hmarker], ?_, ?_, ?_, ?_, ?_,
    .refl _, ?_⟩
  · rw [readBody_marker hmarker]
    simp only [Packet.fields, Fields.mk.injEq]
    exact ⟨rfl, hpath, hquery, hpayload⟩
  · intro i hi
    exact Memory.put_of_lt (by omega)
  · intro i hi
    refine Memory.put_of_le ?_
    simp only [List.length_singleton]
    omega
  · intro _ b payload hbody hle
    rw [bodyOf_marker hmarker] at hbody
    obtain ⟨-, rfl⟩ := List.cons.inj hbody
    rw [length_remaining] at hle
    have hstop : current + 1
        + min (stop - (current + 1)) maxCborPayloadSize = stop := by omega
    simp only [takePayload, hstop]
    simp [Memory.put]
  · intro hlong
    have hlt := hlong rfl (m current) (remaining m (current + 1) stop)
      (by rw [bodyOf_marker hmarker])
    rw [length_remaining] at hlt
    refine Memory.put_of_le ?_
    simp only [List.length_singleton]
    omega
  · intro _
    rw [bodyOf_marker hmarker]
    exact (List.append_nil _).symm

/-- An option that is cut short. -/
theorem readsBody_short (hlt : current < stop)
    (hmarker : isMarker (m current) = false)
    (hshort : ∀ d n k, headerOf (remaining m current stop) = some (d, n, k) →
      (remaining m current stop).length < k + n) (number' : Nat) :
    ReadsBody m pkt lo stop number (remaining m current stop)
      (.badOption402, m, pkt.setOption number') := by
  rw [remaining_cons hlt] at hshort ⊢
  have hread : readBody number (pkt.fields m)
      (m current :: remaining m (current + 1) stop)
      = (.badOption402, pkt.fields m) := readBody_short hmarker hshort
  refine ⟨by rw [hread], by rw [hread]; rfl, fun _ _ => rfl, fun _ _ => rfl,
    nofun, fun _ => rfl, .refl _, ?_⟩
  intro hends
  rw [bodyOf_short hmarker hshort] at hends
  have hmark : isMarker (m current) = true := hends
  rw [hmarker] at hmark
  cases hmark

/-- One option, and then the rest. -/
theorem readsBody_option {d n k : Nat} {r : ParseStatus × Mem × Packet}
    {m' : Mem} {pkt' : Packet} (hlt : current < stop)
    (hmarker : isMarker (m current) = false)
    (hread : headerOf (remaining m current stop) = some (d, n, k))
    (hle : k + n ≤ (remaining m current stop).length)
    (htakes : TakesOption m (pkt.setOption (number + d)) lo (number + d)
      ⟨current + k, n⟩ (.noError, m', pkt'))
    (hrest : ReadsBody m' pkt' lo stop (number + d)
      (remaining m' (current + k + n) stop) r) :
    ReadsBody m pkt lo stop number (remaining m current stop) r := by
  have hkept : remaining m' (current + k + n) stop
      = (remaining m current stop).drop (k + n) := by
    rw [drop_remaining, ← Nat.add_assoc, remaining, remaining]
    refine Memory.slice_congr ?_
    intro i _
    exact htakes.behind _ (Nat.le_add_right _ _)
  have hvalue : ((remaining m current stop).drop k).take n
      = (⟨current + k, n⟩ : Span).bytes m := by
    rw [length_remaining] at hle
    exact Memory.slice_drop_take hle
  rw [hkept] at hrest
  have hstatus := htakes.status
  have hfields := htakes.fields
  simp only [Packet.fields_setOption] at hstatus hfields
  rw [← hvalue] at hstatus hfields
  have hstop : m' stop = m stop := by
    refine htakes.behind _ ?_
    rw [length_remaining] at hle
    show current + k + n ≤ stop
    omega
  rw [remaining_cons hlt] at hread hle hrest hstatus hfields ⊢
  have hbody := bodyOf_option number hmarker hread hle
  have htake : (pkt.fields m).take (number + d)
      (((m current :: remaining m (current + 1) stop).drop k).take n)
      = (.noError, pkt'.fields m') := Prod.ext hstatus.symm hfields.symm
  have hpure : readBody number (pkt.fields m)
        (m current :: remaining m (current + 1) stop)
      = readBody (number + d) (pkt'.fields m')
        ((m current :: remaining m (current + 1) stop).drop (k + n)) := by
    rw [readBody_option hmarker hread hle, htake]
  refine ⟨by rw [hpure]; exact hrest.status, by rw [hpure]; exact hrest.fields,
    ?_, ?_, ?_, ?_, htakes.header.trans hrest.header, ?_⟩
  · intro i hi
    exact (hrest.before i hi).trans (htakes.before i hi)
  · intro i hi
    refine (hrest.behind i hi).trans (htakes.behind i ?_)
    simp only [List.length_cons, length_remaining] at hle
    show current + k + n ≤ i
    omega
  · intro hno b payload htail
    rw [hbody] at htail
    exact hrest.zeroed hno b payload htail
  · intro hlong
    refine (hrest.kept ?_).trans hstop
    intro hno b payload htail
    exact hlong hno b payload (by rw [hbody]; exact htail)
  · intro hends
    rw [hbody] at hends ⊢
    rw [hrest.options hends, htakes.options, Fields.visited, htake]
    simp [Packet.setOption]

/-- An option that is refused ends the reading. -/
theorem readsBody_refused {d n k : Nat} {status : ParseStatus} {m' : Mem}
    {pkt' : Packet} (hlt : current < stop)
    (hmarker : isMarker (m current) = false)
    (hread : headerOf (remaining m current stop) = some (d, n, k))
    (hle : k + n ≤ (remaining m current stop).length)
    (hstatus : status ≠ .noError)
    (htakes : TakesOption m (pkt.setOption (number + d)) lo (number + d)
      ⟨current + k, n⟩ (status, m', pkt')) :
    ReadsBody m pkt lo stop number (remaining m current stop)
      (status, m', pkt') := by
  have hvalue : ((remaining m current stop).drop k).take n
      = (⟨current + k, n⟩ : Span).bytes m := by
    rw [length_remaining] at hle
    exact Memory.slice_drop_take hle
  have hst := htakes.status
  have hfields := htakes.fields
  simp only [Packet.fields_setOption] at hst hfields
  rw [← hvalue] at hst hfields
  have hend : current + k + n ≤ stop := by
    rw [length_remaining] at hle
    omega
  rw [remaining_cons hlt] at hread hle hst hfields ⊢
  have htake : (pkt.fields m).take (number + d)
      (((m current :: remaining m (current + 1) stop).drop k).take n)
      = (status, pkt'.fields m') := Prod.ext hst.symm hfields.symm
  have hpure : readBody number (pkt.fields m)
        (m current :: remaining m (current + 1) stop)
      = (status, pkt'.fields m') := by
    rw [readBody_option hmarker hread hle, htake]
    cases status with
    | noError => exact absurd rfl hstatus
    | badRequest400 => rfl
    | badOption402 => rfl
    | unsupportedMediaType415 => rfl
  refine ⟨by rw [hpure], by rw [hpure], ?_, ?_, ?_, ?_, htakes.header, ?_⟩
  · exact htakes.before
  · intro i hi
    exact htakes.behind i (by show current + k + n ≤ i; omega)
  · intro hno
    exact absurd hno hstatus
  · intro _
    exact htakes.behind stop hend
  · intro _
    rw [bodyOf_option number hmarker hread hle, htakes.options, Fields.visited, htake]
    cases status with
    | noError => exact absurd rfl hstatus
    | badRequest400 => rfl
    | badOption402 => rfl
    | unsupportedMediaType415 => rfl

/-- The loop reads options and payload, where they lie. -/
theorem readsBody_loop (hrounds : stop - current ≤ rounds)
    (h : pkt.Placed lo current number) (hlo : lo ≤ current) :
    ReadsBody m pkt lo stop number (remaining m current stop)
      (parseOptionsLoop stop rounds current number m pkt) := by
  induction rounds generalizing current number m pkt with
  | zero =>
      rw [remaining_nil (by omega)]
      exact readsBody_nil lo stop
  | succ rounds ih =>
      simp only [parseOptionsLoop]
      split
      next hlt =>
        split
        next hmarker =>
          exact readsBody_marker h hlo hlt (by simp [isMarker, hmarker])
        next hmarker =>
          have hmark : isMarker (m current) = false := by
            simp [isMarker, hmarker]
          cases hread : headerOf (remaining m current stop) with
          | none =>
              have hnext := readOptionHeader_of_none hlt hread
              rw [if_pos (Nat.lt_of_lt_of_le hnext (Nat.le_add_right _ _))]
              refine readsBody_short hlt hmark ?_ _
              intro d n k hsome
              rw [hread] at hsome
              cases hsome
          | some r =>
              obtain ⟨d, n, k⟩ := r
              obtain ⟨hheader, hk⟩ := readOptionHeader_of_some hlt hread
              have hpos : current < current + k := by
                have := lt_readOptionHeader m current
                rwa [hheader] at this
              simp only [hheader]
              split
              next hcut =>
                refine readsBody_short hlt hmark ?_ _
                intro d' n' k' hsome
                rw [hread] at hsome
                cases hsome
                rw [length_remaining]
                omega
              next hfits =>
                have hle : k + n ≤ (remaining m current stop).length := by
                  rw [length_remaining]
                  omega
                have hplaced : (pkt.setOption (number + d)).Placed lo current
                    number := ⟨h.path, h.query, h.payload⟩
                have htakes : TakesOption m (pkt.setOption (number + d)) lo
                    (number + d) ⟨current + k, n⟩ _ :=
                  takesOption hplaced (Nat.le_add_right number d) hlo hpos
                rcases htake : takeOption m (pkt.setOption (number + d))
                  (number + d) ⟨current + k, n⟩ with ⟨status, m', pkt'⟩
                rw [htake] at htakes
                cases status with
                | noError =>
                    refine readsBody_option hlt hmark hread hle htakes ?_
                    exact ih (by omega) htakes.placed (by omega)
                | badRequest400 =>
                    exact readsBody_refused hlt hmark hread hle nofun htakes
                | badOption402 =>
                    exact readsBody_refused hlt hmark hread hle nofun htakes
                | unsupportedMediaType415 =>
                    exact readsBody_refused hlt hmark hread hle nofun htakes
      next hge =>
        rw [remaining_nil (by omega)]
        exact readsBody_nil lo stop

end InPlace

end Nexus.Channel.Coap
