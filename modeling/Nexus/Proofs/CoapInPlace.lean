import Nexus.Proofs.CoapRoundTrip

/-!
# A message sent again where it lies

To send a request again, the message that was kept is parsed where it lies, the
packet gets another payload, and it is serialised into the very buffer that
holds its path and its query. Parsing has joined their parts over the headers
between them; serialising takes them apart and writes the headers back.

This works because of where the strings are. A string begins where its first
part was, just behind the header that is going to be written there. No message
with a secured payload has room for a further part of 13 bytes, so each header
behind the first takes one byte, the one the separator is in.
-/

namespace Nexus.Channel.Coap

open Nexus.Lib

variable {m m' m'' : Mem} {pkt : Packet} {buffer data current number : Nat}
  {target : Nat} {values values' : List (Nat × List UInt8)}
  {rest : List UInt8} {s : Span} {c : UInt8}

/-! ## Where strings come to lie -/

/-- Another part of a string; a part behind nothing is the string. -/
def joinSpan (dst option : Span) : Span :=
  if dst.length > 0 then ⟨dst.start, dst.length + 1 + option.length⟩ else option

/-- Where the string of an option comes to lie while options are read. -/
def placeOf (target : Nat) : Nat → Nat → Span → List (Nat × List UInt8) → Span
  | _, _, s, [] => s
  | current, number, s, (n, value) :: values =>
      let header := coapSetOptionHeader (n - number) value.length
      let option : Span := ⟨current + header.length, value.length⟩
      placeOf target (current + header.length + value.length) n
        (if n = target then joinSpan s option else s) values

theorem placeOf_of_ne (h : ∀ v ∈ values, v.1 ≠ target) :
    placeOf target current number s values = s := by
  induction values generalizing current number s with
  | nil => rfl
  | cons v values ih =>
      obtain ⟨n, value⟩ := v
      rw [List.forall_mem_cons] at h
      rw [placeOf, ih h.2, if_neg h.1]

theorem placeOf_append (values values' : List (Nat × List UInt8)) :
    placeOf target current number s (values ++ values')
      = placeOf target
          (current + (Tagged.encode optionCode number values).length)
          (Tagged.lastNumber number values)
          (placeOf target current number s values) values' := by
  induction values generalizing current number s with
  | nil => rfl
  | cons v values ih =>
      obtain ⟨n, value⟩ := v
      have hlength : (Tagged.encode optionCode number
          ((n, value) :: values)).length
          = (coapSetOptionHeader (n - number) value.length).length
            + value.length + (Tagged.encode optionCode n values).length := by
        simp only [Tagged.encode, List.length_append]
        rfl
      rw [List.cons_append, placeOf, placeOf, ih, Tagged.lastNumber_cons,
        hlength]
      simp only [Nat.add_assoc]

/-- A string with something in it stays where it begins. -/
theorem placeOf_start (h : 0 < s.length) :
    (placeOf target current number s values).start = s.start := by
  induction values generalizing current number s with
  | nil => rfl
  | cons v values ih =>
      obtain ⟨n, value⟩ := v
      rw [placeOf]
      split
      next =>
        simp only [joinSpan, if_pos h]
        exact ih (by simp only; omega)
      next => exact ih h

/-- A string begins at its first part, unless that is empty and not the only
one. -/
theorem placeOf_tagged {part : Span} {parts : List Span} (hs : s.length = 0)
    (h : 0 < part.length ∨ parts = []) :
    (placeOf target current number s (tagged m target (part :: parts))).start
      = current + (coapSetOptionHeader (target - number) part.length).length := by
  have hjoin (option : Span) : joinSpan s option = option :=
    if_neg (by omega)
  rw [tagged, List.map_cons, placeOf, if_pos rfl, hjoin, Span.length_bytes]
  rcases h with hpos | rfl
  · exact placeOf_start hpos
  · rfl

theorem coapMergeMultiOption_snd (dst option : Span) (separator : UInt8) :
    (coapMergeMultiOption m dst option separator).2 = joinSpan dst option := by
  simp only [coapMergeMultiOption, joinSpan]
  split <;> rfl

theorem uriPath_takeOption (m : Mem) (pkt : Packet) (n : Nat) (option : Span) :
    (takeOption m pkt n option).2.2.uriPath
      = if n = optionUriPath then joinSpan pkt.uriPath option
        else pkt.uriPath := by
  simp only [takeOption]
  by_cases hformat : n = optionContentFormat
  · subst hformat
    simp only [if_true]
    split <;> rfl
  by_cases hpath : n = optionUriPath
  · subst hpath
    simp only [hformat, if_false, if_true, coapMergeMultiOption_snd]
  simp only [hformat, hpath, if_false]
  split
  · rfl
  · split <;> rfl

theorem uriQuery_takeOption (m : Mem) (pkt : Packet) (n : Nat) (option : Span) :
    (takeOption m pkt n option).2.2.uriQuery
      = if n = optionUriQuery then joinSpan pkt.uriQuery option
        else pkt.uriQuery := by
  simp only [takeOption]
  by_cases hformat : n = optionContentFormat
  · subst hformat
    simp only [if_true]
    split <;> rfl
  by_cases hpath : n = optionUriPath
  · subst hpath
    simp only [hformat, if_false, if_true]
    rfl
  by_cases hquery : n = optionUriQuery
  · subst hquery
    simp only [hformat, hpath, if_false, if_true, coapMergeMultiOption_snd]
  simp only [hformat, hpath, hquery, if_false]
  split <;> rfl

/-! ## Reading what was written -/

section Loop

variable {stop rounds lo : Nat} {n : Nat} {value : List UInt8}

/-- One value in front of a message. -/
theorem loop_value (rounds : Nat) (pkt : Packet) (hd : inRange (n - number)) (hn : inRange value.length)
    (hle : number ≤ n)
    (hbytes : remaining m current stop
      = coapSetOptionHeader (n - number) value.length ++ value ++ rest) :
    let start := current
      + (coapSetOptionHeader (n - number) value.length).length
    (⟨start, value.length⟩ : Span).bytes m = value
      ∧ start + value.length ≤ stop
      ∧ parseOptionsLoop stop (rounds + 1) current number m pkt
        = match takeOption m (pkt.setOption n) n ⟨start, value.length⟩ with
          | (.noError, m, pkt) =>
              parseOptionsLoop stop rounds (start + value.length) n m pkt
          | failed => failed := by
  obtain ⟨header, hheader⟩ : ∃ header,
      coapSetOptionHeader (n - number) value.length = header := ⟨_, rfl⟩
  have hread : headerOf (remaining m current stop)
      = some (n - number, value.length, header.length) := by
    have hcode := optionCode.read_write hd hn (value ++ rest)
    rw [hbytes, List.append_assoc, ← hheader]
    exact hcode
  have hpos : 0 < header.length := optionCode.read_pos hread
  have hlength := congrArg List.length hbytes
  simp only [length_remaining, hheader, List.length_append] at hlength
  have hlt : current < stop := by omega
  obtain ⟨hoption, -⟩ := readOptionHeader_of_some hlt hread
  have hmark : ¬ m current &&& 0xF0 = 0xF0 := by
    obtain ⟨b, bytes, hcons⟩ := List.exists_cons_of_length_pos hpos
    have hstops : isMarker b = false := by
      have hwrite : optionCode.write (n - number) value.length = b :: bytes :=
        hheader.trans hcons
      exact optionCode.write_stops hd hn hwrite
    rw [remaining_cons hlt, hheader, hcons] at hbytes
    have hb : m current = b := (List.cons.inj hbytes).1
    simpa [isMarker, hb] using hstops
  have hvalue : Memory.slice m (current + header.length) value.length
      = value := by
    rw [← Memory.slice_drop_take (n := stop - current) (by omega)]
    have hdrop : (remaining m current stop).drop header.length
        = value ++ rest := by
      rw [hbytes, hheader, List.append_assoc, List.drop_left]
    rw [remaining] at hdrop
    rw [hdrop, List.take_left]
  rw [hheader]
  refine ⟨hvalue, by omega, ?_⟩
  have hstep : number + (n - number) = n := Nat.add_sub_of_le hle
  have hfits : ¬ current + header.length + value.length > stop := by omega
  simp only [parseOptionsLoop, hlt, if_true, hmark, if_false, hoption, hstep,
    hfits] <;> rfl

/-- What ends the options leaves the strings alone. -/
theorem loop_ends (rounds number : Nat) (pkt : Packet)
    (hrest : Tagged.Ends optionCode (remaining m current stop)) :
    let r := parseOptionsLoop stop rounds current number m pkt
    r.2.2.uriPath = pkt.uriPath ∧ r.2.2.uriQuery = pkt.uriQuery
      ∧ r.2.2.options = pkt.options := by
  cases rounds with
  | zero => exact ⟨rfl, rfl, rfl⟩
  | succ rounds =>
      simp only [parseOptionsLoop]
      by_cases hlt : current < stop
      · rw [remaining_cons hlt] at hrest
        have hstops : isMarker (m current) = true := hrest
        have hmark : m current &&& 0xF0 = 0xF0 := by
          simpa [isMarker] using hstops
        simp only [hlt, hmark, if_true]
        exact ⟨rfl, rfl, rfl⟩
      · simp only [hlt, if_false, and_self]

/-- Options that are taken over, one after the other, leave the strings where
`placeOf` says, and every number set. -/
theorem loop_values (h : pkt.Placed lo current number) (hlo : lo ≤ current)
    (hordered : Tagged.Ordered optionCode number values)
    (hrest : Tagged.Ends optionCode rest)
    (hbytes : remaining m current stop
      = Tagged.encode optionCode number values ++ rest)
    (htaken : ((pkt.fields m).takeAll values).1 = .noError)
    (hrounds : stop - current ≤ rounds) :
    let r := parseOptionsLoop stop rounds current number m pkt
    r.2.2.uriPath = placeOf optionUriPath current number pkt.uriPath values
      ∧ r.2.2.uriQuery
        = placeOf optionUriQuery current number pkt.uriQuery values
      ∧ r.2.2.options = pkt.options ++ values.map Prod.fst := by
  induction values generalizing rounds current number m pkt with
  | nil =>
      have hends : Tagged.Ends optionCode (remaining m current stop) := by
        rw [hbytes]
        exact hrest
      obtain ⟨hpath, hquery, hoptions⟩ := loop_ends rounds number pkt hends
      exact ⟨hpath, hquery, hoptions.trans (List.append_nil _).symm⟩
  | cons v values ih =>
      obtain ⟨n, value⟩ := v
      obtain ⟨hle, hd, hn, hvalues⟩ := hordered
      have hbytes' : remaining m current stop
          = coapSetOptionHeader (n - number) value.length ++ value
            ++ (Tagged.encode optionCode n values ++ rest) := by
        rw [hbytes, Tagged.encode, List.append_assoc]
        rfl
      obtain ⟨hvalue, hend, hloop⟩ := loop_value (rounds - 1) pkt hd hn hle
        hbytes'
      obtain ⟨header, hheader⟩ : ∃ header,
          coapSetOptionHeader (n - number) value.length = header := ⟨_, rfl⟩
      have hpos : 0 < header.length := by
        rw [← hheader]
        exact Nat.succ_pos _
      simp only [hheader] at hvalue hend hloop
      have hplaced : (pkt.setOption n).Placed lo current number :=
        ⟨h.path, h.query, h.payload⟩
      have htakes : TakesOption m (pkt.setOption n) lo n
          ⟨current + header.length, value.length⟩ _ :=
        takesOption hplaced hle hlo (by simp only; omega)
      have hpath := uriPath_takeOption m (pkt.setOption n) n
        ⟨current + header.length, value.length⟩
      have hquery := uriQuery_takeOption m (pkt.setOption n) n
        ⟨current + header.length, value.length⟩
      rcases htake : takeOption m (pkt.setOption n) n
        ⟨current + header.length, value.length⟩ with ⟨status, m', pkt'⟩
      rw [htake] at htakes hloop hpath hquery
      have hstatus := htakes.status
      have hfields := htakes.fields
      simp only [Packet.fields_setOption, hvalue] at hstatus hfields
      rw [Fields.takeAll] at htaken
      have htake' : (pkt.fields m).take n value = (status, pkt'.fields m') :=
        Prod.ext hstatus.symm hfields.symm
      rw [htake'] at htaken
      cases status with
      | badRequest400 => cases htaken
      | badOption402 => cases htaken
      | unsupportedMediaType415 => cases htaken
      | noError =>
          have hone : rounds = rounds - 1 + 1 := by
            have hlength := congrArg List.length hbytes'
            simp only [length_remaining, hheader, List.length_append] at hlength
            omega
          have hdrop : remaining m' (current + header.length + value.length)
              stop = Tagged.encode optionCode n values ++ rest := by
            have hkept : remaining m'
                (current + header.length + value.length) stop
                = remaining m (current + header.length + value.length) stop :=
              Memory.slice_congr fun i _ =>
                htakes.behind _ (Nat.le_add_right _ _)
            rw [hkept, Nat.add_assoc, ← drop_remaining, hbytes', hheader,
              ← List.length_append, List.drop_left]
          have hlo' : lo ≤ current + header.length + value.length := by omega
          have hrounds' : stop - (current + header.length + value.length)
              ≤ rounds - 1 := by omega
          obtain ⟨hpath', hquery', hoptions'⟩ :=
            ih htakes.placed hlo' hvalues hdrop htaken hrounds'
          rw [hone, hloop]
          refine ⟨hpath'.trans ?_, hquery'.trans ?_, hoptions'.trans ?_⟩
          · rw [placeOf, hheader, hpath]
            rfl
          · rw [placeOf, hheader, hquery]
            rfl
          · rw [htakes.options]
            simp [Packet.setOption]

end Loop

/-- A string lies within the options that were read. -/
theorem placeOf_within {lo : Nat} (hlo : lo ≤ current)
    (h : 0 < s.length → lo ≤ s.start ∧ s.start + s.length ≤ current) :
    0 < (placeOf target current number s values).length →
      lo ≤ (placeOf target current number s values).start
        ∧ (placeOf target current number s values).start
            + (placeOf target current number s values).length
          ≤ current + (Tagged.encode optionCode number values).length := by
  induction values generalizing current number s with
  | nil => exact fun hpos => ⟨(h hpos).1, (h hpos).2.trans (Nat.le_add_right _ _)⟩
  | cons v values ih =>
      obtain ⟨n, value⟩ := v
      intro hpos
      have hlength : (Tagged.encode optionCode number
          ((n, value) :: values)).length
          = (coapSetOptionHeader (n - number) value.length).length
            + value.length + (Tagged.encode optionCode n values).length := by
        simp only [Tagged.encode, List.length_append]
        rfl
      have hheader : 1 ≤ (coapSetOptionHeader (n - number)
          value.length).length := Nat.succ_pos _
      rw [placeOf] at hpos ⊢
      refine (ih (by omega) ?_ hpos).imp_right (·.trans (by omega))
      intro hs
      by_cases hn : n = target
      · rw [if_pos hn] at hs ⊢
        simp only [joinSpan]
        split
        next hlong =>
          have := h hlong
          simp only
          omega
        next =>
          simp only
          omega
      · rw [if_neg hn] at hs ⊢
        have := h hs
        omega

/-! ## Writing a string where it lies -/

/-- A part has room for its header in front of it if the first has, and no
further part is long. -/
theorem safe_partsLoop {array length rounds j partStart w base last : Nat}
    (hpart : partStart ≤ j)
    (hfirst : ∀ part parts,
      partsLoop m array length c rounds j partStart = part :: parts →
        w + (coapSetOptionHeader (number - current) part.length).length
          ≤ array + partStart)
    (hshort : ∀ part ∈ (partsLoop m array length c rounds j partStart).tail,
      part.length < 13) :
    Safe number base last w current
      (partsLoop m array length c rounds j partStart) := by
  induction rounds generalizing j partStart w current with
  | zero => trivial
  | succ rounds ih =>
      rw [partsLoop] at hfirst hshort ⊢
      by_cases hj : j ≤ length + 1
      swap
      · rw [if_neg hj]
        trivial
      rw [if_pos hj] at hfirst hshort ⊢
      by_cases hend : m (array + j) = c ∨ j = length
      swap
      · rw [if_neg hend] at hfirst hshort ⊢
        exact ih (by omega) hfirst hshort
      rw [if_pos hend] at hfirst hshort ⊢
      have hroom := hfirst _ _ rfl
      refine ⟨.inl hroom, ih (by omega) ?_ ?_⟩
      · intro part parts hparts
        have hlt : part.length < 13 := by
          refine hshort part ?_
          rw [List.tail_cons, hparts]
          exact List.mem_cons_self
        have hone : (coapSetOptionHeader (number - number)
            part.length).length = 1 := by
          have hsmall : ¬ part.length > 268 ∧ ¬ part.length > 12 := by omega
          simp [coapSetOptionHeader, optionExtension, hsmall]
        simp only at hroom ⊢
        omega
      · intro part hmem
        exact hshort part (List.mem_of_mem_tail hmem)

/-- A string is safe where it lies if there is room in front of it for the
header of its first part, and no further part is long. -/
theorem safeString_in_place {field : Span} {first : List UInt8}
    {others : List (List UInt8)} {w : Nat} (base : Nat)
    (hcut : Parts.cut c (lastPart m field.start field.length c) []
      (field.bytes m) = first :: others)
    (hstart : w + (coapSetOptionHeader (number - current)
      first.length).length ≤ field.start)
    (hshort : ∀ part ∈ others, part.length < 13) :
    SafeString m number base w current field c := by
  have hparts := map_partsOf m field c
  rw [hcut] at hparts
  refine safe_partsLoop le_rfl ?_ ?_
  · intro part parts heq
    rw [partsOf, heq, List.map_cons] at hparts
    rw [← Span.length_bytes (m := m), (List.cons.inj hparts).1]
    exact hstart
  · intro part hmem
    have hbytes : part.bytes m ∈ others := by
      have htail : ((partsOf m field c).map (Span.bytes · m)).tail = others := by
        rw [hparts, List.tail_cons]
      rw [← htail, ← List.map_tail]
      exact List.mem_map_of_mem hmem
    have hlt := hshort _ hbytes
    rwa [Span.length_bytes] at hlt

theorem tagged_partsOf (m : Mem) (number : Nat) (field : Span) (c : UInt8) :
    tagged m number (partsOf m field c)
      = (Parts.cut c (lastPart m field.start field.length c) []
          (field.bytes m)).map (number, ·) := by
  rw [← map_partsOf, List.map_map]
  rfl

/-- A string that survives is cut alike wherever it lies. -/
theorem cut_congr {field field' : Span}
    (hbytes : field'.bytes m' = field.bytes m)
    (h : Survives c (field.bytes m)) :
    Parts.cut c (lastPart m' field'.start field'.length c) []
        (field'.bytes m')
      = Parts.cut c (lastPart m field.start field.length c) []
        (field.bytes m) := by
  have hends : Parts.endsCut c (field.bytes m) = false := by
    rw [← Bool.not_eq_true, Parts.endsCut_iff, h.2]
    decide
  rw [hbytes, Parts.cut_congr_last hends]

/-- Behind a first part that is not empty there is no room for a long one. -/
theorem short_of_length_le {first : List UInt8} {others : List (List UInt8)}
    (hfirst : first ≠ [] ∨ others = [])
    (hordered : Tagged.Ordered optionCode current
      ((first :: others).map (number, ·)))
    (hle : (Tagged.encode optionCode current
      ((first :: others).map (number, ·))).length ≤ 15) :
    ∀ part ∈ others, part.length < 13 := by
  intro part hmem
  have hne : first ≠ [] := by
    refine hfirst.resolve_right ?_
    rintro rfl
    cases hmem
  have hpos := List.length_pos_of_ne_nil hne
  rw [List.map_cons] at hordered hle
  obtain ⟨-, hd, hn, hothers⟩ := hordered
  have hheader := Tagged.length_write_pos hd hn
  have hlt := Tagged.length_lt_of_mem hothers
    (List.mem_map_of_mem (f := (number, ·)) hmem)
  simp only [Tagged.encode, List.length_append] at hle
  simp only at hlt
  omega

/-- The string of an option begins behind the header of its first part. -/
theorem placeOf_string {field : Span} {first : List UInt8}
    {others : List (List UInt8)}
    (hcut : Parts.cut c (lastPart m field.start field.length c) []
      (field.bytes m) = first :: others)
    (hfirst : first ≠ [] ∨ others = [])
    (hbefore : ∀ v ∈ values, v.1 ≠ target)
    (hbehind : ∀ v ∈ values', v.1 ≠ target) :
    (placeOf target current number ⟨0, 0⟩
        (values ++ (tagged m target (partsOf m field c) ++ values'))).start
      = current + (Tagged.encode optionCode number values).length
        + (coapSetOptionHeader (target - Tagged.lastNumber number values)
            first.length).length := by
  have hmap := map_partsOf m field c
  rw [hcut] at hmap
  cases hparts : partsOf m field c with
  | nil => exact absurd hparts (partsOf_ne_nil m field c)
  | cons part parts =>
      rw [hparts, List.map_cons] at hmap
      obtain ⟨hpart, hrest⟩ := List.cons.inj hmap
      have hlength : part.length = first.length := by
        rw [← hpart, Span.length_bytes]
      have hlong : 0 < part.length ∨ parts = [] := by
        rcases hfirst with hne | hnil
        · left
          rw [hlength]
          exact List.length_pos_of_ne_nil hne
        · right
          rw [hnil] at hrest
          exact List.map_eq_nil_iff.mp hrest
      rw [placeOf_append, placeOf_append, placeOf_of_ne hbefore,
        placeOf_of_ne hbehind, placeOf_tagged rfl hlong, hlength]

theorem fst_of_mem_stringOption {field : Span} {v : Nat × List UInt8}
    (h : v ∈ stringOption m pkt number field c) : v.1 = number := by
  simp only [stringOption] at h
  split at h
  · obtain ⟨_, -, rfl⟩ := List.mem_map.mp h
    rfl
  · cases h

theorem fst_of_mem_formatOption {v : Nat × List UInt8}
    (h : v ∈ formatOption pkt) : v.1 = optionContentFormat := by
  simp only [formatOption] at h
  split at h
  · rw [List.mem_singleton.mp h]
  · cases h

/-! ## A message that was kept -/

/-- A message lies at `data` as it was serialised: a request with a secured
payload, whose strings survive. -/
structure Kept (m : Mem) (pkt : Packet) (m' : Mem) (data : Nat) : Prop where
  sendable : Sendable m pkt
  fits : HeaderFits m pkt
  bytes : Memory.slice m' data (messageBytes m pkt).length = messageBytes m pkt
  path : Survives pathSeparator (pkt.uriPath.bytes m)
  query : Survives querySeparator (pkt.uriQuery.bytes m)
  format : optionContentFormat ∈ pkt.options
  secured : pkt.contentFormat = applicationCoseMac0
  payload : 0 < pkt.payload.length

/-- A token of length zero is read as an empty option. -/
def tokenOption (pkt : Packet) : List (Nat × List UInt8) :=
  if pkt.tokenLen = 0 then [(0, [])] else []

namespace Kept

/-- The header of the message. -/
theorem header (h : Kept m pkt m' data) :
    Accepted (m' data) ∧ m' data &&& 0x0F = pkt.tokenLen
      ∧ m' (data + 4) = pkt.token
      ∧ remaining m' (data + 4) (data + (messageBytes m pkt).length)
        = pkt.token
          :: (encodeOptions (optionsOf m pkt) ++ payloadBytes m pkt) := by
  obtain ⟨hb, -, -, -, -, hbody⟩ := slice_header h.bytes
  have hlen : pkt.tokenLen = 0 ∨ pkt.tokenLen = 1 :=
    h.sendable.token.symm.imp_left And.left
  obtain ⟨haccepted, htoken, -⟩ := header_byte pkt.type hlen
  have hlt : data + 4 < data + (messageBytes m pkt).length := by
    rw [length_messageBytes]
    omega
  refine ⟨by rw [hb]; exact haccepted, by rw [hb]; exact htoken, ?_,
    hbody.symm⟩
  rw [remaining_cons hlt] at hbody
  exact (List.cons.inj hbody).1.symm

theorem remaining_options (h : Kept m pkt m' data) :
    remaining m' (data + 4 + pkt.tokenLen.toNat)
        (data + (messageBytes m pkt).length)
      = encodeOptions (tokenOption pkt ++ optionsOf m pkt)
        ++ payloadBytes m pkt := by
  obtain ⟨-, -, -, hremaining⟩ := h.header
  rw [← drop_remaining, hremaining, tokenOption]
  rcases h.sendable.token with hone | ⟨hzero, hnone⟩
  · rw [hone, if_neg (by decide)]
    rfl
  · have hempty : coapSetOptionHeader 0 0 = [0] := by decide
    have hencode : encodeOptions ((0, []) :: optionsOf m pkt)
        = coapSetOptionHeader 0 0 ++ [] ++ encodeOptions (optionsOf m pkt) :=
      rfl
    rw [hzero, hnone, if_pos rfl, List.singleton_append, hencode, hempty]
    rfl

theorem ordered (h : Kept m pkt m' data) :
    Tagged.Ordered optionCode 0 (tokenOption pkt ++ optionsOf m pkt) := by
  have hoptions := ordered_optionsOf (inRange_optionsOf h.fits)
  rw [tokenOption]
  split
  · have hzero : inRange 0 := by
      show (0 : Nat) < 65805
      decide
    exact ⟨le_rfl, hzero, hzero, hoptions⟩
  · exact hoptions

theorem takeAll (h : Kept m pkt m' data) :
    (Fields.none.takeAll (tokenOption pkt ++ optionsOf m pkt)).1
      = .noError := by
  have hoptions := takeAll_optionsOf h.sendable
  have htoken : Fields.none.takeAll (tokenOption pkt) = (.noError, .none) := by
    rw [tokenOption]
    split <;> rfl
  rw [Fields.takeAll_append, htoken]
  exact congrArg Prod.fst hoptions

theorem placeOf_tokenOption (h : Kept m pkt m' data) (htarget : target ≠ 0) :
    placeOf target (data + 4 + pkt.tokenLen.toNat) 0 s
        (tokenOption pkt ++ values)
      = placeOf target (data + 5) 0 s values := by
  rw [tokenOption]
  rcases h.sendable.token with hone | ⟨hzero, -⟩
  · rw [hone, if_neg (by decide)]
    rfl
  · rw [hzero, if_pos rfl, List.singleton_append, placeOf,
      if_neg htarget.symm]
    rfl

/-- Where the parser finds the strings, and what options it sets. -/
theorem places (h : Kept m pkt m' data) :
    let r := coapUdpParseMessage m' data (messageBytes m pkt).length
    r.2.2.uriPath = placeOf optionUriPath (data + 5) 0 ⟨0, 0⟩ (optionsOf m pkt)
      ∧ r.2.2.uriQuery
        = placeOf optionUriQuery (data + 5) 0 ⟨0, 0⟩ (optionsOf m pkt)
      ∧ r.2.2.options
        = (tokenOption pkt ++ optionsOf m pkt).map Prod.fst := by
  obtain ⟨haccepted, hlen, -, -⟩ := h.header
  have hstart : (startPacket m' data).uriPath = ⟨0, 0⟩
      ∧ (startPacket m' data).uriQuery = ⟨0, 0⟩ := by
    simp only [startPacket]
    split <;> exact ⟨rfl, rfl⟩
  have hbytes := h.remaining_options
  have htaken : (((startPacket m' data).fields m').takeAll
      (tokenOption pkt ++ optionsOf m pkt)).1 = .noError := by
    rw [startPacket_fields]
    exact h.takeAll
  have hrounds : data + (messageBytes m pkt).length
      - (data + 4 + pkt.tokenLen.toNat) ≤ (messageBytes m pkt).length := by
    omega
  have hloop := loop_values (startPacket_placed (data + 4) _)
    (Nat.le_add_right _ _) h.ordered ends_payloadBytes hbytes htaken hrounds
  rw [hstart.1, hstart.2, startPacket_options, List.nil_append,
    h.placeOf_tokenOption (by decide), h.placeOf_tokenOption (by decide)]
    at hloop
  rw [parse_accepted haccepted, hlen]
  exact hloop

theorem length_formatOption (h : Kept m pkt m' data)
    (hle : current ≤ optionContentFormat) :
    (Tagged.encode optionCode current (formatOption pkt)).length = 2 := by
  have hvalue : intOptionBytes applicationCoseMac0.toUInt32 = [17] := by decide
  have hsmall : ¬ optionContentFormat - current > 268
      ∧ ¬ optionContentFormat - current > 12 := by
    simp only [optionContentFormat] at hle ⊢
    omega
  have hencode : Tagged.encode optionCode current (formatOption pkt)
      = coapSetOptionHeader (optionContentFormat - current) 1 ++ [17] := by
    rw [formatOption, if_pos h.format, h.secured, hvalue, Tagged.encode,
      Tagged.encode, List.append_nil]
    rfl
  simp [hencode, coapSetOptionHeader, optionExtension, hsmall]

/-- There is little room for either string. -/
theorem length_strings (h : Kept m pkt m' data) :
    (Tagged.encode optionCode 0
        (stringOption m pkt optionUriPath pkt.uriPath pathSeparator)).length ≤ 15
      ∧ (Tagged.encode optionCode (Tagged.lastNumber 0 (headOptions m pkt))
        (stringOption m pkt optionUriQuery pkt.uriQuery querySeparator)).length
          ≤ 15 := by
  have hfits := h.fits
  have hlast : Tagged.lastNumber 0
      (stringOption m pkt optionUriPath pkt.uriPath pathSeparator)
        ≤ optionContentFormat :=
    (lastNumber_stringOption_le (Nat.zero_le _)).trans (by decide)
  have hformat := h.length_formatOption hlast
  simp only [HeaderFits, if_pos h.payload, maxHeaderSize, encodeOptions,
    optionsOf, Tagged.encode_append, List.length_append] at hfits
  rw [headOptions, Tagged.encode_append, List.length_append] at hfits
  rw [headOptions]
  omega

/-- Where the path is, and that its further parts are short. -/
theorem path_place (h : Kept m pkt m' data)
    (hset : optionUriPath ∈ pkt.options) :
    ∃ first others,
      Parts.cut pathSeparator (lastPart m pkt.uriPath.start pkt.uriPath.length
        pathSeparator) [] (pkt.uriPath.bytes m) = first :: others
      ∧ (placeOf optionUriPath (data + 5) 0 ⟨0, 0⟩ (optionsOf m pkt)).start
        = data + 5 + (coapSetOptionHeader optionUriPath first.length).length
      ∧ ∀ part ∈ others, part.length < 13 := by
  obtain ⟨first, others, hcut, hfirst⟩ := Parts.cut_first
    (lastPart m pkt.uriPath.start pkt.uriPath.length pathSeparator) h.path.1
  have hstring : stringOption m pkt optionUriPath pkt.uriPath pathSeparator
      = tagged m optionUriPath (partsOf m pkt.uriPath pathSeparator) :=
    if_pos hset
  have hbefore : ∀ v ∈ ([] : List (Nat × List UInt8)), v.1 ≠ optionUriPath :=
    nofun
  have hbehind : ∀ v ∈ formatOption pkt
      ++ stringOption m pkt optionUriQuery pkt.uriQuery querySeparator,
      v.1 ≠ optionUriPath := by
    intro v hv
    rcases List.mem_append.mp hv with hformat | hquery
    · rw [fst_of_mem_formatOption hformat]
      decide
    · rw [fst_of_mem_stringOption hquery]
      decide
  refine ⟨first, others, hcut, ?_, ?_⟩
  · rw [optionsOf, headOptions, List.append_assoc, hstring]
    exact placeOf_string hcut hfirst hbefore hbehind
  · have hordered := ordered_optionsOf (inRange_optionsOf h.fits)
    have hle := h.length_strings.1
    rw [optionsOf, headOptions, Tagged.ordered_append, Tagged.ordered_append,
      hstring, tagged_partsOf, hcut] at hordered
    rw [hstring, tagged_partsOf, hcut] at hle
    exact short_of_length_le hfirst hordered.1.1 hle

/-- Where the query is, and that its further parts are short. -/
theorem query_place (h : Kept m pkt m' data)
    (hset : optionUriQuery ∈ pkt.options) :
    ∃ first others,
      Parts.cut querySeparator (lastPart m pkt.uriQuery.start
        pkt.uriQuery.length querySeparator) [] (pkt.uriQuery.bytes m)
        = first :: others
      ∧ (placeOf optionUriQuery (data + 5) 0 ⟨0, 0⟩ (optionsOf m pkt)).start
        = data + 5 + (encodeOptions (headOptions m pkt)).length
          + (coapSetOptionHeader (optionUriQuery
              - Tagged.lastNumber 0 (headOptions m pkt)) first.length).length
      ∧ ∀ part ∈ others, part.length < 13 := by
  obtain ⟨first, others, hcut, hfirst⟩ := Parts.cut_first
    (lastPart m pkt.uriQuery.start pkt.uriQuery.length querySeparator)
    h.query.1
  have hstring : stringOption m pkt optionUriQuery pkt.uriQuery querySeparator
      = tagged m optionUriQuery (partsOf m pkt.uriQuery querySeparator) :=
    if_pos hset
  have hbefore : ∀ v ∈ headOptions m pkt, v.1 ≠ optionUriQuery := by
    intro v hv
    rcases List.mem_append.mp hv with hpath | hformat
    · rw [fst_of_mem_stringOption hpath]
      decide
    · rw [fst_of_mem_formatOption hformat]
      decide
  have hbehind : ∀ v ∈ ([] : List (Nat × List UInt8)), v.1 ≠ optionUriQuery :=
    nofun
  refine ⟨first, others, hcut, ?_, ?_⟩
  · rw [optionsOf, hstring, ← List.append_nil
      (tagged m optionUriQuery (partsOf m pkt.uriQuery querySeparator))]
    exact placeOf_string hcut hfirst hbefore hbehind
  · have hordered := ordered_optionsOf (inRange_optionsOf h.fits)
    have hle := h.length_strings.2
    rw [optionsOf, Tagged.ordered_append, hstring, tagged_partsOf, hcut]
      at hordered
    rw [hstring, tagged_partsOf, hcut] at hle
    exact short_of_length_le hfirst hordered.2 hle

/-- What was kept is parsed as what was sent. -/
theorem parsed (h : Kept m pkt m' data) :
    let r := coapUdpParseMessage m' data (messageBytes m pkt).length
    r.2.2.message r.2.1 = pkt.message m := by
  have hread := readMessage_messageBytes h.sendable h.fits
  rw [(carried_eq_iff h.sendable.path).mpr h.path,
    (carried_eq_iff h.sendable.query).mpr h.query, ← h.bytes] at hread
  exact (parsed_in_place hread).2.1

theorem sameHeader (h : Kept m pkt m' data) :
    pkt.SameHeader
      (coapUdpParseMessage m' data (messageBytes m pkt).length).2.2 := by
  obtain ⟨haccepted, hlen, htoken, -⟩ := h.header
  have hsame := (readsBody_parse (messageBytes m pkt).length haccepted).header
  obtain ⟨-, -, -, hsameLen, hsameToken⟩ := hsame
  have hparsed := h.parsed
  refine ⟨congrArg Message.type hparsed, congrArg Message.code hparsed,
    congrArg Message.mid hparsed, ?_, ?_⟩
  · rw [hsameLen, ← hlen, startPacket]
    split <;> rfl
  · rw [hsameToken, startPacket, hlen]
    rcases h.sendable.token with hone | ⟨hzero, hnone⟩
    · rw [hone, if_neg (by decide)]
      exact htoken
    · rw [hzero, if_pos rfl, hnone]
      rfl

/-- The parser sets the options of the packet. -/
theorem mem_options (h : Kept m pkt m' data) :
    let options :=
      (coapUdpParseMessage m' data (messageBytes m pkt).length).2.2.options
    (optionUriPath ∈ options ↔ optionUriPath ∈ pkt.options)
      ∧ (optionUriQuery ∈ options ↔ optionUriQuery ∈ pkt.options) := by
  have htoken (n : Nat) (hn : n ≠ 0) : n ∉ (tokenOption pkt).map Prod.fst := by
    rw [tokenOption]
    split
    · simp [hn]
    · simp
  have hformat (n : Nat) (hn : n ≠ optionContentFormat) :
      n ∉ (formatOption pkt).map Prod.fst := by
    intro hmem
    obtain ⟨v, hv, rfl⟩ := List.mem_map.mp hmem
    exact hn (fst_of_mem_formatOption hv)
  have hother (n n' : Nat) (field : Span) (c : UInt8) (hn : n ≠ n') :
      n ∉ (stringOption m pkt n' field c).map Prod.fst := by
    intro hmem
    obtain ⟨v, hv, rfl⟩ := List.mem_map.mp hmem
    exact hn (fst_of_mem_stringOption hv)
  have hown (n : Nat) (field : Span) (c : UInt8) :
      n ∈ (stringOption m pkt n field c).map Prod.fst ↔ n ∈ pkt.options := by
    simp only [stringOption]
    split
    next hset =>
      refine iff_of_true ?_ hset
      obtain ⟨k, parts, hparts⟩ := partsOf_cons m field c
      rw [hparts]
      exact List.mem_cons_self
    next hnone => exact iff_of_false List.not_mem_nil hnone
  have hall := h.places.2.2
  simp only [optionsOf, headOptions, List.map_append] at hall
  simp only [hall, List.mem_append]
  refine ⟨?_, ?_⟩
  · have h₀ := htoken optionUriPath (by decide)
    have h₁ := hformat optionUriPath (by decide)
    have h₂ := hother optionUriPath optionUriQuery pkt.uriQuery querySeparator
      (by decide)
    simp only [h₀, h₁, h₂, false_or, or_false]
    exact hown _ _ _
  · have h₀ := htoken optionUriQuery (by decide)
    have h₁ := hformat optionUriQuery (by decide)
    have h₂ := hother optionUriQuery optionUriPath pkt.uriPath pathSeparator
      (by decide)
    simp only [h₀, h₁, h₂, false_or]
    exact hown _ _ _

end Kept

/-! ## Sending it again -/

/-- The packet that is sent again: what was parsed, with another payload, which
is secured. -/
def repacked (pkt : Packet) (payload : Span) : Packet :=
  { pkt with payload }.setHeaderContentFormat applicationCoseMac0

/-- What is parsed of a message that was kept. -/
abbrev reparsed (m : Mem) (pkt : Packet) (m' : Mem) (data : Nat) :
    ParseStatus × Mem × Packet :=
  coapUdpParseMessage m' data (messageBytes m pkt).length

/-- Memory holds the message that was kept as the parser left it. -/
structure Parsed (m : Mem) (pkt : Packet) (m' : Mem) (data : Nat) (m'' : Mem) :
    Prop where
  kept : Kept m pkt m' data
  same : ∀ i, data ≤ i → i < data + (messageBytes m pkt).length →
    m'' i = (reparsed m pkt m' data).2.1 i

namespace Parsed

variable {payload : Span}

/-- A string that lies where `placeOf` says is still there. -/
theorem bytes_placeOf (h : Parsed m pkt m' data m'') (target : Nat) :
    let place := placeOf target (data + 5) 0 ⟨0, 0⟩ (optionsOf m pkt)
    place.bytes m'' = place.bytes (reparsed m pkt m' data).2.1 := by
  refine bytes_congr ?_
  intro hpos i hlo hhi
  have hwithin := placeOf_within (Nat.le_add_right data 5)
    (fun hzero => absurd hzero (Nat.lt_irrefl 0)) hpos
  have hlength : (messageBytes m pkt).length
      = 5 + (encodeOptions (optionsOf m pkt)).length
        + (payloadBytes m pkt).length := length_messageBytes
  simp only [encodeOptions] at hlength
  exact h.same i (by omega) (by omega)

theorem bytes_uriPath (h : Parsed m pkt m' data m'') :
    (reparsed m pkt m' data).2.2.uriPath.bytes m'' = pkt.uriPath.bytes m := by
  have hkept := h.bytes_placeOf optionUriPath
  simp only [← h.kept.places.1] at hkept
  exact hkept.trans (congrArg (fun message => message.fields.uriPath)
    h.kept.parsed)

theorem bytes_uriQuery (h : Parsed m pkt m' data m'') :
    (reparsed m pkt m' data).2.2.uriQuery.bytes m'' = pkt.uriQuery.bytes m := by
  have hkept := h.bytes_placeOf optionUriQuery
  simp only [← h.kept.places.2.1] at hkept
  exact hkept.trans (congrArg (fun message => message.fields.uriQuery)
    h.kept.parsed)

theorem mem_repacked {n : Nat} (hn : n ≠ optionContentFormat) :
    n ∈ (repacked (reparsed m pkt m' data).2.2 payload).options
      ↔ n ∈ (reparsed m pkt m' data).2.2.options := by
  simp [repacked, Packet.setHeaderContentFormat, Packet.setOption, hn]

theorem mem_uriPath (h : Parsed m pkt m' data m'') :
    optionUriPath ∈ (repacked (reparsed m pkt m' data).2.2 payload).options
      ↔ optionUriPath ∈ pkt.options :=
  (mem_repacked (by decide)).trans h.kept.mem_options.1

theorem mem_uriQuery (h : Parsed m pkt m' data m'') :
    optionUriQuery ∈ (repacked (reparsed m pkt m' data).2.2 payload).options
      ↔ optionUriQuery ∈ pkt.options :=
  (mem_repacked (by decide)).trans h.kept.mem_options.2

theorem headOptions_repacked (h : Parsed m pkt m' data m'') :
    headOptions m'' (repacked (reparsed m pkt m' data).2.2 payload)
      = headOptions m pkt := by
  have hpath : tagged m'' optionUriPath (partsOf m''
      (repacked (reparsed m pkt m' data).2.2 payload).uriPath pathSeparator)
      = tagged m optionUriPath (partsOf m pkt.uriPath pathSeparator) := by
    rw [tagged_partsOf, tagged_partsOf]
    exact congrArg _ (cut_congr h.bytes_uriPath h.kept.path)
  have hformat : optionContentFormat
      ∈ (repacked (reparsed m pkt m' data).2.2 payload).options :=
    List.mem_append_right _ List.mem_cons_self
  simp only [headOptions, stringOption, formatOption, h.mem_uriPath, hpath,
    if_pos hformat, if_pos h.kept.format, h.kept.secured]
  rfl

/-- The options of the packet that is sent again are those it was sent with. -/
theorem optionsOf_repacked (h : Parsed m pkt m' data m'') :
    optionsOf m'' (repacked (reparsed m pkt m' data).2.2 payload)
      = optionsOf m pkt := by
  have hquery : tagged m'' optionUriQuery (partsOf m''
      (repacked (reparsed m pkt m' data).2.2 payload).uriQuery querySeparator)
      = tagged m optionUriQuery (partsOf m pkt.uriQuery querySeparator) := by
    rw [tagged_partsOf, tagged_partsOf]
    exact congrArg _ (cut_congr h.bytes_uriQuery h.kept.query)
  simp only [optionsOf, h.headOptions_repacked, stringOption, h.mem_uriQuery,
    hquery]

/-- There is room for every header, and a payload aside of the message. -/
theorem safe_repacked (h : Parsed m pkt m' data m'')
    (haside : data + maxHeaderSize + 1 ≤ payload.start
      ∨ payload.start + payload.length ≤ data) :
    SafeMessage m'' (repacked (reparsed m pkt m' data).2.2 payload) data := by
  obtain ⟨hpathPlace, hqueryPlace, -⟩ := h.kept.places
  refine ⟨⟨Nat.le_add_right _ _, ?_, ?_⟩, ?_⟩
  · intro hset
    obtain ⟨first, others, hcut, hstart, hshort⟩ :=
      h.kept.path_place (h.mem_uriPath.mp hset)
    rw [← hpathPlace] at hstart
    refine safeString_in_place data ?_ hstart.ge hshort
    exact (cut_congr h.bytes_uriPath h.kept.path).trans hcut
  · intro hset
    obtain ⟨first, others, hcut, hstart, hshort⟩ :=
      h.kept.query_place (h.mem_uriQuery.mp hset)
    rw [← hqueryPlace] at hstart
    rw [h.headOptions_repacked]
    refine safeString_in_place data ?_ hstart.ge hshort
    exact (cut_congr h.bytes_uriQuery h.kept.query).trans hcut
  · intro _
    have hfits := h.kept.fits
    rw [HeaderFits, if_pos h.kept.payload] at hfits
    rw [h.optionsOf_repacked]
    refine haside.imp_left ?_
    intro hbehind
    show _ ≤ payload.start
    omega

/-- Header, token and options, up to the marker of the payload. -/
theorem messageBytes_repacked (h : Parsed m pkt m' data m'')
    (hpos : 0 < payload.length) :
    messageBytes m'' (repacked (reparsed m pkt m' data).2.2 payload)
      = (messageBytes m pkt).take
          ((messageBytes m pkt).length - pkt.payload.length)
        ++ payload.bytes m'' := by
  obtain ⟨htype, hcode, hmid, hlen, htoken⟩ := h.kept.sameHeader
  obtain ⟨head, hhead⟩ : ∃ head, head = coapUdpSetHeaderFields pkt
      ++ pkt.token :: (encodeOptions (optionsOf m pkt) ++ [0xFF]) := ⟨_, rfl⟩
  have hold : messageBytes m pkt = head ++ pkt.payload.bytes m := by
    simp [messageBytes, payloadBytes, h.kept.payload, hhead]
  have hheader : coapUdpSetHeaderFields
      (repacked (reparsed m pkt m' data).2.2 payload)
      = coapUdpSetHeaderFields pkt := by
    simp only [coapUdpSetHeaderFields]
    rw [← htype, ← hcode, ← hmid, ← hlen]
    rfl
  have hbehind : payloadBytes m''
      (repacked (reparsed m pkt m' data).2.2 payload)
      = 0xFF :: payload.bytes m'' := if_pos hpos
  have hnew : messageBytes m'' (repacked (reparsed m pkt m' data).2.2 payload)
      = head ++ payload.bytes m'' := by
    rw [messageBytes, hheader, h.optionsOf_repacked, hbehind, hhead, ← htoken]
    simp only [List.append_assoc, List.cons_append, List.nil_append]
    rfl
  rw [hnew, hold, List.length_append, Span.length_bytes, Nat.add_sub_cancel,
    List.take_left]

/-- What is serialised over the message. -/
theorem serialize_repacked (h : Parsed m pkt m' data m'') (hpos : 0 < payload.length)
    (haside : data + maxHeaderSize + 1 ≤ payload.start
      ∨ payload.start + payload.length ≤ data) :
    let old := messageBytes m pkt
    let new := old.take (old.length - pkt.payload.length) ++ payload.bytes m''
    coapSerializeMessage m'' (repacked (reparsed m pkt m' data).2.2 payload) data
      = (Memory.put m'' data new, new.length) := by
  obtain ⟨-, hcode, -, hlen, -⟩ := h.kept.sameHeader
  have hcode' : (repacked (reparsed m pkt m' data).2.2 payload).code ≠ 0 := by
    have hne := h.kept.sendable.code
    rwa [← hcode] at hne
  have hfits := h.kept.fits
  rw [HeaderFits, if_pos h.kept.payload] at hfits
  have hfits' : HeaderFits m''
      (repacked (reparsed m pkt m' data).2.2 payload) := by
    have hmarker : (repacked (reparsed m pkt m' data).2.2
        payload).payload.length > 0 := hpos
    have htoken : (repacked (reparsed m pkt m' data).2.2 payload).tokenLen
        = pkt.tokenLen := hlen
    rw [HeaderFits, h.optionsOf_repacked, if_pos hmarker, htoken]
    exact hfits
  have hle : 5 + (encodeOptions (optionsOf m''
      (repacked (reparsed m pkt m' data).2.2 payload))).length
        ≤ maxHeaderSize := by
    rw [h.optionsOf_repacked]
    omega
  have hall := coapSerializeMessage_of_fits hcode' (h.safe_repacked haside)
    hfits' hle
  rw [h.messageBytes_repacked hpos] at hall
  exact hall

end Parsed

/-- A request with a secured payload, whose strings survive, was serialised, and
the message was kept at `data`. -/
structure Cached (m : Mem) (pkt : Packet) (buffer : Nat) (m' : Mem)
    (data : Nat) : Prop where
  sendable : Sendable m pkt
  safe : SafeMessage m pkt buffer
  sent : (coapSerializeMessage m pkt buffer).2 ≠ 0
  copied : Memory.slice m' data (coapSerializeMessage m pkt buffer).2
    = Memory.slice (coapSerializeMessage m pkt buffer).1 buffer
        (coapSerializeMessage m pkt buffer).2
  path : Survives pathSeparator (pkt.uriPath.bytes m)
  query : Survives querySeparator (pkt.uriQuery.bytes m)
  format : optionContentFormat ∈ pkt.options
  secured : pkt.contentFormat = applicationCoseMac0
  payload : 0 < pkt.payload.length

theorem Cached.kept (h : Cached m pkt buffer m' data) :
    Kept m pkt m' data
      ∧ (coapSerializeMessage m pkt buffer).2 = (messageBytes m pkt).length := by
  obtain ⟨hfits, heq⟩ := coapSerializeMessage_eq h.sendable.code h.safe h.sent
  have hcopied := h.copied
  rw [heq, Memory.slice_put_self] at hcopied
  exact ⟨⟨h.sendable, hfits, hcopied, h.path, h.query, h.format, h.secured,
    h.payload⟩, congrArg Prod.snd heq⟩

theorem requestPacket_cached :
    Cached requestMemory requestPacket 100
      (coapSerializeMessage requestMemory requestPacket 100).1 100 where
  sendable := requestPacket_sendable
  safe := requestPacket_safe
  sent := by decide +kernel
  copied := rfl
  path := by decide +kernel
  query := by decide +kernel
  format := by decide
  secured := rfl
  payload := by decide

end Nexus.Channel.Coap
