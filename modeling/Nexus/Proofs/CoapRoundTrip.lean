import Nexus.Proofs.CoapMessage
import Nexus.Proofs.CoapSerializing

/-!
# There and back

A message that was serialised in one memory is parsed in another. What comes out
is what went in, with an exact exception: a path that begins with a separator
loses it, and so does a path that an odd number of separators ends. The same
goes for a query.
-/

namespace Nexus.Channel.Coap

open Nexus.Lib

variable {m m' : Mem} {pkt : Packet} {buffer data : Nat}

/-! ## Serialised messages -/

/-- The payload behind its marker. -/
def payloadBytes (m : Mem) (pkt : Packet) : List UInt8 :=
  if 0 < pkt.payload.length then 0xFF :: pkt.payload.bytes m else []

/-- A message with a code. -/
def messageBytes (m : Mem) (pkt : Packet) : List UInt8 :=
  coapUdpSetHeaderFields pkt
    ++ pkt.token :: (encodeOptions (optionsOf m pkt) ++ payloadBytes m pkt)

/-- Strings and payload can be copied from where they are. -/
structure SafeMessage (m : Mem) (pkt : Packet) (buffer : Nat) : Prop where
  options : SafeOptions m pkt buffer (buffer + 5)
  payload : 0 < pkt.payload.length →
    buffer + 5 + (encodeOptions (optionsOf m pkt)).length + 1
        ≤ pkt.payload.start
      ∨ pkt.payload.start + pkt.payload.length ≤ buffer

@[simp] theorem length_coapUdpSetHeaderFields :
    (coapUdpSetHeaderFields pkt).length = 4 := rfl

theorem length_messageBytes : (messageBytes m pkt).length
    = 5 + (encodeOptions (optionsOf m pkt)).length
      + (payloadBytes m pkt).length := by
  simp only [messageBytes, List.length_append, List.length_cons,
    length_coapUdpSetHeaderFields]
  omega

/-- Header and token leave the strings alone. -/
theorem unread_start {start last : Nat}
    (h : buffer + 5 + 1 ≤ start ∨ last < buffer) (token : UInt8) :
    Unread m (Memory.put (Memory.put m buffer (coapUdpSetHeaderFields pkt))
      (buffer + 4) [token]) start last := by
  have hheader : Unread m (Memory.put m buffer (coapUdpSetHeaderFields pkt))
      start last := by
    refine Unread.put (fun _ _ _ => rfl) (h.imp ?_ id)
    intro hle
    rw [length_coapUdpSetHeaderFields]
    omega
  refine hheader.put (h.imp ?_ ?_)
  · intro hle
    rw [List.length_singleton]
    omega
  · intro hlt
    omega

/-- A header that fits. -/
def HeaderFits (m : Mem) (pkt : Packet) : Prop :=
  (encodeOptions (optionsOf m pkt)).length
      + (if pkt.payload.length > 0 then 1 else 0) + pkt.tokenLen.toNat + 4
    ≤ maxHeaderSize

/-- The payload is copied behind its marker from where it is. -/
theorem payload_kept {written : Mem} (buffer n : Nat)
    (hbehind : ∀ i, buffer + n ≤ i → written i = m i)
    (hbefore : ∀ i < buffer, written i = m i)
    (h : buffer + n ≤ pkt.payload.start
      ∨ pkt.payload.start + pkt.payload.length ≤ buffer) :
    Memory.slice written pkt.payload.start pkt.payload.length
      = pkt.payload.bytes m := by
  refine Memory.slice_congr ?_
  intro i hi
  rcases h with hle | hle
  · exact hbehind _ (by omega)
  · exact hbefore _ (by omega)

/-- The options behind header and token. -/
theorem coapSerializeOptions_message
    (h : SafeOptions m pkt buffer (buffer + 5)) :
    coapSerializeOptions (Memory.put (Memory.put m buffer
        (coapUdpSetHeaderFields pkt)) (buffer + 4) [pkt.token]) pkt
        (some (buffer + 5))
      = (Memory.put (Memory.put (Memory.put m buffer
          (coapUdpSetHeaderFields pkt)) (buffer + 4) [pkt.token]) (buffer + 5)
          (encodeOptions (optionsOf m pkt)),
        (encodeOptions (optionsOf m pkt)).length) := by
  refine coapSerializeOptions_some h ?_ ?_
  · intro hset
    exact unread_start (h.path hset).first pkt.token
  · intro hset
    refine unread_start ?_ pkt.token
    have hfirst := (h.query hset).first
    exact hfirst.imp_left fun h => by omega

/-- What the serialiser writes of a message that fits. -/
theorem coapSerializeMessage_of_fits (hcode : pkt.code ≠ 0)
    (hsafe : SafeMessage m pkt buffer) (hfits : HeaderFits m pkt)
    (hle : 5 + (encodeOptions (optionsOf m pkt)).length ≤ maxHeaderSize) :
    coapSerializeMessage m pkt buffer
      = (Memory.put m buffer (messageBytes m pkt),
          (messageBytes m pkt).length) := by
  have hoptions := coapSerializeOptions_message hsafe.options
  -- header, token, and options
  obtain ⟨head, hdef⟩ : ∃ head, head = coapUdpSetHeaderFields pkt
      ++ pkt.token :: encodeOptions (optionsOf m pkt) := ⟨_, rfl⟩
  have hheadLength : head.length
      = 5 + (encodeOptions (optionsOf m pkt)).length := by
    simp only [hdef, List.length_append, List.length_cons,
      length_coapUdpSetHeaderFields]
    omega
  have hbytes : messageBytes m pkt = head ++ payloadBytes m pkt := by
    simp [messageBytes, hdef]
  have hhead : Memory.put (Memory.put (Memory.put m buffer
      (coapUdpSetHeaderFields pkt)) (buffer + 4) [pkt.token]) (buffer + 5)
      (encodeOptions (optionsOf m pkt)) = Memory.put m buffer head := by
    have happend : head = (coapUdpSetHeaderFields pkt ++ [pkt.token])
        ++ encodeOptions (optionsOf m pkt) := by simp [hdef]
    rw [happend, Memory.put_append, Memory.put_append]
    rfl
  have hunfold : coapSerializeMessage m pkt buffer
      = if pkt.payload.length > 0 then
          (Memory.move (Memory.put (Memory.put m buffer head)
              (buffer + head.length) [0xFF])
            (buffer + head.length + 1)
            pkt.payload.start pkt.payload.length,
            head.length + 1 + pkt.payload.length)
        else (Memory.put m buffer head, head.length) := by
    simp only [coapSerializeMessage, coapSerializeOptions_none, hcode, if_false,
      hoptions, hheadLength, hhead, hle, if_true]
    exact if_neg (Nat.not_lt.mpr hfits)
  rw [hunfold, hbytes]
  by_cases hpos : pkt.payload.length > 0
  · have hpayload : payloadBytes m pkt = [0xFF] ++ pkt.payload.bytes m :=
      if_pos hpos
    have hkept : Memory.slice (Memory.put (Memory.put m buffer head)
        (buffer + head.length) [0xFF]) pkt.payload.start pkt.payload.length
        = pkt.payload.bytes m := by
      refine payload_kept buffer (head.length + 1) ?_ ?_ ?_
      · intro i hi
        rw [Memory.put_of_le (by simp only [List.length_singleton]; omega),
          Memory.put_of_le (by omega)]
      · intro i hi
        rw [Memory.put_of_lt (by omega), Memory.put_of_lt hi]
      · refine (hsafe.payload hpos).imp_left ?_
        intro hroom
        omega
    have hlength : (head ++ [0xFF]).length = head.length + 1 := by simp
    have hwritten : Memory.put m buffer ((head ++ [0xFF]) ++ pkt.payload.bytes m)
        = Memory.put (Memory.put (Memory.put m buffer head)
            (buffer + head.length) [0xFF]) (buffer + head.length + 1)
            (pkt.payload.bytes m) := by
      rw [Memory.put_append, Memory.put_append, hlength]
      rfl
    rw [if_pos hpos, Memory.move, hkept, hpayload, ← List.append_assoc,
      hwritten, List.length_append, hlength, Span.length_bytes]
  · have hpayload : payloadBytes m pkt = [] := if_neg hpos
    rw [if_neg hpos, hpayload, List.append_nil]

/-- What the serialiser writes, if it writes anything. -/
theorem coapSerializeMessage_eq (hcode : pkt.code ≠ 0)
    (hsafe : SafeMessage m pkt buffer)
    (hlen : (coapSerializeMessage m pkt buffer).2 ≠ 0) :
    HeaderFits m pkt
      ∧ coapSerializeMessage m pkt buffer
        = (Memory.put m buffer (messageBytes m pkt),
            (messageBytes m pkt).length) := by
  have hfits : HeaderFits m pkt := by
    by_contra hlong
    refine hlen ?_
    simp only [coapSerializeMessage, coapSerializeOptions_none]
    rw [if_pos (Nat.lt_of_not_le hlong)]
  have hle : 5 + (encodeOptions (optionsOf m pkt)).length ≤ maxHeaderSize := by
    by_contra hlong
    refine hlen ?_
    simp only [coapSerializeMessage, coapSerializeOptions_none, hcode, if_false,
      coapSerializeOptions_message hsafe.options, hlong]
    exact congrArg Prod.snd (if_neg (Nat.not_lt.mpr hfits))
  exact ⟨hfits, coapSerializeMessage_of_fits hcode hsafe hfits hle⟩

/-! ## Reading the options back -/

variable {number current : Nat} {f : Fields} {values : List (Nat × List UInt8)}
  {field : Span} {c : UInt8}

namespace Fields

theorem takeAll_append (f : Fields) (values values' : List (Nat × List UInt8)) :
    f.takeAll (values ++ values')
      = match f.takeAll values with
        | (.noError, f) => f.takeAll values'
        | failed => failed := by
  induction values generalizing f with
  | nil => rfl
  | cons v values ih =>
      obtain ⟨n, value⟩ := v
      rw [List.cons_append, takeAll, takeAll]
      rcases f.take n value with ⟨status, f'⟩
      cases status with
      | noError => exact ih f'
      | badRequest400 => rfl
      | badOption402 => rfl
      | unsupportedMediaType415 => rfl

theorem takeAll_path (f : Fields) (m : Mem) (parts : List Span) :
    f.takeAll (tagged m optionUriPath parts)
      = (.noError,
          { f with
            uriPath := Parts.joinAll pathSeparator f.uriPath
              (parts.map (Span.bytes · m)) }) := by
  induction parts generalizing f with
  | nil => rfl
  | cons part parts ih => exact ih _

theorem takeAll_query (f : Fields) (m : Mem) (parts : List Span) :
    f.takeAll (tagged m optionUriQuery parts)
      = (.noError,
          { f with
            uriQuery := Parts.joinAll querySeparator f.uriQuery
              (parts.map (Span.bytes · m)) }) := by
  induction parts generalizing f with
  | nil => rfl
  | cons part parts ih => exact ih _

theorem take_format (f : Fields) {format : UInt16}
    (h : format = applicationVndOcfCbor ∨ format = applicationCoseMac0) :
    f.take optionContentFormat (intOptionBytes format.toUInt32)
      = (.noError, { f with contentFormat := format }) := by
  have hread : (coapParseIntOption
      (intOptionBytes format.toUInt32)).toUInt16 = format := by
    rcases h with rfl | rfl
    · decide
    · decide
  simp only [take, if_true, hread]
  rcases h with rfl | rfl
  · simp
  · simp

end Fields

/-- What a string becomes on the way. -/
def carried (m : Mem) (pkt : Packet) (number : Nat) (field : Span) (c : UInt8) :
    List UInt8 :=
  if number ∈ pkt.options then
    Parts.joinAll c []
      (Parts.cut c (lastPart m field.start field.length c) [] (field.bytes m))
  else []

/-- A packet that the channel can send: it has a code, a token or none, a
content format the receiver knows, no string that is not announced, and behind
each string something other than its separator. -/
structure Sendable (m : Mem) (pkt : Packet) : Prop where
  code : pkt.code ≠ 0
  token : pkt.tokenLen = 1 ∨ pkt.tokenLen = 0 ∧ pkt.token = 0
  format :
    if optionContentFormat ∈ pkt.options then
      pkt.contentFormat = applicationVndOcfCbor
        ∨ pkt.contentFormat = applicationCoseMac0
    else pkt.contentFormat = 0
  path :
    if optionUriPath ∈ pkt.options then
      m (pkt.uriPath.start + pkt.uriPath.length) ≠ pathSeparator
    else pkt.uriPath.length = 0
  query :
    if optionUriQuery ∈ pkt.options then
      m (pkt.uriQuery.start + pkt.uriQuery.length) ≠ querySeparator
    else pkt.uriQuery.length = 0
  payload : pkt.payload.length ≤ maxCborPayloadSize

theorem takeAll_optionsOf (h : Sendable m pkt) :
    Fields.none.takeAll (optionsOf m pkt)
      = (.noError,
          ⟨pkt.contentFormat,
            carried m pkt optionUriPath pkt.uriPath pathSeparator,
            carried m pkt optionUriQuery pkt.uriQuery querySeparator, []⟩) := by
  have hpath : Fields.none.takeAll
      (stringOption m pkt optionUriPath pkt.uriPath pathSeparator)
      = (.noError,
          { Fields.none with
            uriPath :=
              carried m pkt optionUriPath pkt.uriPath pathSeparator }) := by
    simp only [stringOption, carried]
    split
    · rw [Fields.takeAll_path, map_partsOf]
      rfl
    · rfl
  have hformat (f : Fields) (hf : f.contentFormat = 0) :
      f.takeAll (formatOption pkt)
        = (.noError, { f with contentFormat := pkt.contentFormat }) := by
    have hknown := h.format
    simp only [formatOption]
    split
    next hset =>
      rw [if_pos hset] at hknown
      rw [Fields.takeAll, Fields.take_format f hknown]
      rfl
    next hnone =>
      rw [if_neg hnone] at hknown
      rw [hknown, ← hf]
      rfl
  have hquery (f : Fields) (hf : f.uriQuery = []) :
      f.takeAll
        (stringOption m pkt optionUriQuery pkt.uriQuery querySeparator)
      = (.noError,
          { f with
            uriQuery :=
              carried m pkt optionUriQuery pkt.uriQuery querySeparator }) := by
    simp only [stringOption, carried]
    split
    · rw [Fields.takeAll_query, map_partsOf, hf]
    · rw [← hf]
      rfl
  rw [optionsOf, headOptions, Fields.takeAll_append, Fields.takeAll_append,
    hpath]
  simp only
  rw [hformat _ rfl]
  simp only
  rw [hquery _ rfl]
  rfl

/-! ## The order of the options -/

theorem ordered_tagged {parts : List Span} (hle : current ≤ number)
    (hnumber : inRange number)
    (h : ∀ v ∈ tagged m number parts, inRange v.2.length) :
    Tagged.Ordered optionCode current (tagged m number parts) := by
  induction parts generalizing current with
  | nil => trivial
  | cons part parts ih =>
      rw [tagged, List.map_cons, ← tagged] at h ⊢
      rw [List.forall_mem_cons] at h
      refine ⟨hle, ?_, h.1, ih le_rfl h.2⟩
      exact Nat.lt_of_le_of_lt (Nat.sub_le _ _) hnumber

theorem ordered_stringOption (hle : current ≤ number) (hnumber : inRange number)
    (h : ∀ v ∈ stringOption m pkt number field c, inRange v.2.length) :
    Tagged.Ordered optionCode current (stringOption m pkt number field c) := by
  simp only [stringOption] at h ⊢
  split at h
  next hset =>
    rw [if_pos hset]
    exact ordered_tagged hle hnumber h
  next hnone =>
    rw [if_neg hnone]
    trivial

theorem lastNumber_stringOption_le (hle : current ≤ number) :
    Tagged.lastNumber current (stringOption m pkt number field c) ≤ number := by
  simp only [stringOption]
  split
  · exact (lastNumber_tagged (partsOf_ne_nil _ _ _)).le
  · exact hle

theorem lastNumber_formatOption_le (hle : current ≤ optionContentFormat) :
    Tagged.lastNumber current (formatOption pkt) ≤ optionContentFormat := by
  simp only [formatOption]
  split
  · exact le_rfl
  · exact hle

theorem length_intOptionBytes_le (value : UInt32) :
    (intOptionBytes value).length ≤ 4 := by
  have hone (p : Prop) [Decidable p] (b : UInt8) :
      (if p then [b] else []).length ≤ 1 := by
    split <;> simp
  simp only [intOptionBytes, List.length_append]
  have h₁ := hone (value &&& 0xFF000000 ≠ 0) (value >>> 24).toUInt8
  have h₂ := hone (value &&& 0xFFFF0000 ≠ 0) (value >>> 16).toUInt8
  have h₃ := hone (value &&& 0xFFFFFF00 ≠ 0) (value >>> 8).toUInt8
  have h₄ := hone (value ≠ 0) value.toUInt8
  omega

theorem ordered_optionsOf (h : ∀ v ∈ optionsOf m pkt, inRange v.2.length) :
    Tagged.Ordered optionCode 0 (optionsOf m pkt) := by
  have hpath : inRange optionUriPath := by
    show (11 : Nat) < 65805
    decide
  have hquery : inRange optionUriQuery := by
    show (15 : Nat) < 65805
    decide
  have hlast : Tagged.lastNumber 0
      (stringOption m pkt optionUriPath pkt.uriPath pathSeparator)
        ≤ optionUriPath := lastNumber_stringOption_le (Nat.zero_le _)
  rw [optionsOf, List.forall_mem_append, headOptions, List.forall_mem_append]
    at h
  obtain ⟨⟨hfirst, -⟩, hsecond⟩ := h
  rw [optionsOf, headOptions, Tagged.ordered_append, Tagged.ordered_append,
    Tagged.lastNumber_append]
  refine ⟨⟨ordered_stringOption (Nat.zero_le _) hpath hfirst, ?_⟩,
    ordered_stringOption ?_ hquery hsecond⟩
  · simp only [formatOption]
    split
    · refine ⟨hlast.trans (by decide), ?_, ?_, trivial⟩
      · exact Nat.lt_of_le_of_lt (Nat.sub_le _ _) (by decide)
      · exact Nat.lt_of_le_of_lt (length_intOptionBytes_le _) (by decide)
    · trivial
  · exact (lastNumber_formatOption_le (hlast.trans (by decide))).trans
      (by decide)

/-- A header that fits has only short options. -/
theorem inRange_optionsOf (h : HeaderFits m pkt) :
    ∀ v ∈ optionsOf m pkt, inRange v.2.length := by
  intro v hv
  have hle : v.2.length ≤ (encodeOptions (optionsOf m pkt)).length :=
    Tagged.length_le_of_mem hv
  have hbound : (22 : Nat) < 65805 := by decide
  simp only [HeaderFits, maxHeaderSize] at h
  simp only [inRange]
  omega

theorem ends_payloadBytes : Tagged.Ends optionCode (payloadBytes m pkt) := by
  simp only [payloadBytes]
  split
  · show isMarker 0xFF = true
    decide
  · trivial

theorem finish_payloadBytes (h : Sendable m pkt) (hf : f.payload = []) :
    f.finish (payloadBytes m pkt)
      = (.noError, { f with payload := pkt.payload.bytes m }) := by
  simp only [payloadBytes]
  split
  next hpos =>
    have htake : (pkt.payload.bytes m).take maxCborPayloadSize
        = pkt.payload.bytes m :=
      List.take_of_length_le (by rw [Span.length_bytes]; exact h.payload)
    have hmark : isMarker 0xFF = true := by decide
    simp only [Fields.finish, hmark, if_true, htake]
  next hzero =>
    rw [Span.bytes_of_length_zero (Nat.eq_zero_of_not_pos hzero), Fields.finish,
      ← hf]

/-- Options and payload, read back. -/
theorem readBody_body (h : Sendable m pkt) (hfits : HeaderFits m pkt) :
    readBody 0 .none (encodeOptions (optionsOf m pkt) ++ payloadBytes m pkt)
      = (.noError,
          ⟨pkt.contentFormat,
            carried m pkt optionUriPath pkt.uriPath pathSeparator,
            carried m pkt optionUriQuery pkt.uriQuery querySeparator,
            pkt.payload.bytes m⟩) := by
  have hordered := ordered_optionsOf (inRange_optionsOf hfits)
  have hbody : bodyOf 0
      (encodeOptions (optionsOf m pkt) ++ payloadBytes m pkt)
      = (optionsOf m pkt, payloadBytes m pkt) := by
    refine Tagged.decode_encode hordered ends_payloadBytes ?_
    have hle : (optionsOf m pkt).length
        ≤ (encodeOptions (optionsOf m pkt)).length :=
      Tagged.length_le_length_encode hordered
    rw [List.length_append]
    omega
  rw [readBody, hbody, takeAll_optionsOf h]
  exact finish_payloadBytes h rfl

/-! ## The header read back -/

theorem header_byte (type : CoapType) {tokenLen : UInt8}
    (h : tokenLen = 0 ∨ tokenLen = 1) :
    let b := (1 : UInt8) <<< 6 ||| typeBits type <<< 4 ||| tokenLen &&& 0x0F
    Accepted b ∧ b &&& 0x0F = tokenLen
      ∧ typeOfBits ((b &&& 0x30) >>> 4) = type := by
  rcases h with rfl | rfl
  · cases type <;> decide
  · cases type <;> decide

theorem mid_bytes (mid : UInt16) :
    (mid >>> 8).toUInt8.toUInt16 <<< 8 ||| mid.toUInt8.toUInt16 = mid := by
  have hlt : mid.toNat < 65536 := mid.toNat_lt
  have hhigh : ((mid >>> 8).toUInt8.toUInt16 <<< 8).toNat
      = (mid.toNat / 256) <<< 8 := by
    simp [Nat.shiftRight_eq_div_pow, Nat.shiftLeft_eq]
    omega
  have hlow : mid.toUInt8.toUInt16.toNat = mid.toNat % 256 := by simp
  refine UInt16.toNat_inj.mp ?_
  rw [UInt16.toNat_or, hhigh, hlow,
    ← Nat.shiftLeft_add_eq_or_of_lt (Nat.mod_lt _ (by decide)),
    Nat.shiftLeft_eq]
  omega

/-- An empty option of number zero in front, which nobody has to understand. -/
theorem readBody_zero (bytes : List UInt8) :
    readBody 0 .none (0 :: bytes) = readBody 0 .none bytes := by
  have hread : headerOf (0 :: bytes) = some (0, 0, 1) := by
    simp [headerOf, extensionOf]
  have hmark : isMarker 0 = false := by decide
  rw [readBody_option hmark hread (by simp)]
  rfl

/-- A serialised message, read off its bytes. -/
theorem readMessage_messageBytes (h : Sendable m pkt) (hfits : HeaderFits m pkt) :
    readMessage (messageBytes m pkt)
      = some (.noError, ⟨pkt.type, pkt.code, pkt.mid, pkt.tokenBytes,
          ⟨pkt.contentFormat,
            carried m pkt optionUriPath pkt.uriPath pathSeparator,
            carried m pkt optionUriQuery pkt.uriQuery querySeparator,
            pkt.payload.bytes m⟩⟩) := by
  have hlen : pkt.tokenLen = 0 ∨ pkt.tokenLen = 1 :=
    h.token.symm.imp_left And.left
  obtain ⟨haccepted, htoken, htype⟩ := header_byte pkt.type hlen
  have hlong : ¬ pkt.tokenLen > 1 := by
    rcases hlen with hzero | hone
    · simp [hzero]
    · simp [hone]
  have hbody := readBody_body h hfits
  simp only [messageBytes, coapUdpSetHeaderFields, List.cons_append,
    List.nil_append, readMessage, haccepted.1, ne_eq, not_true_eq_false, htoken,
    hlong, or_self, if_false, htype, mid_bytes, Packet.tokenBytes]
  rcases h.token with hone | ⟨hzero, hnone⟩
  · rw [hone, if_neg (by decide), if_neg (by decide), hbody]
  · rw [hzero, if_pos rfl, if_pos rfl, hnone, readBody_zero, hbody]

/-! ## There and back -/

/-- A string that comes out as it went in. -/
def Survives (c : UInt8) (bytes : List UInt8) : Prop :=
  bytes.head? ≠ some c ∧ Parts.trailing c bytes % 2 = 0

instance (c : UInt8) (bytes : List UInt8) : Decidable (Survives c bytes) :=
  inferInstanceAs (Decidable (_ ∧ _))

theorem followed_lastPart {array length : Nat} (h : m (array + length) ≠ c) :
    Parts.Followed c (lastPart m array length c) := by
  simp only [lastPart]
  split
  · exact .inr ⟨_, rfl, h⟩
  · exact .inl rfl

theorem carried_eq_iff
    (h : if number ∈ pkt.options then m (field.start + field.length) ≠ c
      else field.length = 0) :
    carried m pkt number field c = field.bytes m
      ↔ Survives c (field.bytes m) := by
  simp only [carried]
  split
  next hset =>
    rw [if_pos hset] at h
    rw [Parts.joinAll_cut_eq_iff (followed_lastPart h), Survives,
      ← Bool.not_eq_true, Parts.endsCut_iff, ← ne_eq, Nat.mod_two_ne_one]
  next hnone =>
    rw [if_neg hnone] at h
    rw [Span.bytes_of_length_zero h]
    simp [Survives, Parts.trailing]

/-- A message that was serialised and copied to another memory is parsed there
without an error; and it says what the packet said exactly if neither its path
nor its query begins with the separator, or ends in an odd number of them. -/
theorem parsed_as_sent_iff (h : Sendable m pkt) (hsafe : SafeMessage m pkt buffer)
    (hlen : (coapSerializeMessage m pkt buffer).2 ≠ 0)
    (hcopied : Memory.slice m' data (coapSerializeMessage m pkt buffer).2
      = Memory.slice (coapSerializeMessage m pkt buffer).1 buffer
          (coapSerializeMessage m pkt buffer).2) :
    let r := coapUdpParseMessage m' data (coapSerializeMessage m pkt buffer).2
    r.1 = .noError
      ∧ (r.2.2.message r.2.1 = pkt.message m
        ↔ Survives pathSeparator (pkt.uriPath.bytes m)
          ∧ Survives querySeparator (pkt.uriQuery.bytes m)) := by
  obtain ⟨hfits, heq⟩ := coapSerializeMessage_eq h.code hsafe hlen
  rw [heq, Memory.slice_put_self] at hcopied
  rw [heq]
  have hread := readMessage_messageBytes h hfits
  rw [← hcopied] at hread
  obtain ⟨hstatus, hmessage, -, -⟩ := parsed_in_place hread
  refine ⟨hstatus, ?_⟩
  rw [hmessage, ← carried_eq_iff h.path, ← carried_eq_iff h.query]
  simp [Packet.message, Packet.fields]

/-- A memory with a path at 20 and a payload at 40. -/
def requestMemory : Mem :=
  Memory.put (Memory.put (fun _ => 0) 20 [0x6E, 0x78, 0x2F, 0x70, 0x63]) 40
    [0xA0]

/-- A request of `nx/pc`. -/
def requestPacket : Packet where
  type := .non
  code := 2
  mid := 0x1234
  tokenLen := 1
  token := 7
  options := [optionUriPath, optionContentFormat]
  contentFormat := applicationCoseMac0
  uriPath := ⟨20, 5⟩
  uriQuery := ⟨0, 0⟩
  payload := ⟨40, 1⟩

theorem requestPacket_sendable : Sendable requestMemory requestPacket where
  code := by decide
  token := .inl rfl
  format := by decide
  path := by decide
  query := by decide
  payload := by decide

theorem requestPacket_safe : SafeMessage requestMemory requestPacket 100 where
  options :=
    { base_le := by decide
      path := fun _ => safe_of_before (by decide) _
      query := fun _ => safe_of_before (by decide) _ }
  payload := fun _ => .inr (by decide)

/-- It survives, and arrives as it was sent. -/
theorem parsed_as_sent_iff_request :
    let sent := coapSerializeMessage requestMemory requestPacket 100
    let received := coapUdpParseMessage
      (Memory.put (fun _ => 0xEE) 7 (Memory.slice sent.1 100 sent.2)) 7 sent.2
    received.1 = .noError
      ∧ received.2.2.message received.2.1
        = requestPacket.message requestMemory := by
  have hlen : (coapSerializeMessage requestMemory requestPacket 100).2 ≠ 0 := by
    decide +kernel
  have hcopied : Memory.slice (Memory.put (fun _ => 0xEE) 7 (Memory.slice
        (coapSerializeMessage requestMemory requestPacket 100).1 100
        (coapSerializeMessage requestMemory requestPacket 100).2)) 7
        (coapSerializeMessage requestMemory requestPacket 100).2
      = Memory.slice (coapSerializeMessage requestMemory requestPacket 100).1
        100 (coapSerializeMessage requestMemory requestPacket 100).2 := by
    decide +kernel
  have hparsed := parsed_as_sent_iff requestPacket_sendable requestPacket_safe
    hlen hcopied
  exact ⟨hparsed.1, hparsed.2.mpr (by decide +kernel)⟩

end Nexus.Channel.Coap
