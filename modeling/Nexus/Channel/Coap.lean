import Nexus.Channel.Engine
import Nexus.Lib.Memory

/-!
# CoAP messages in memory

`coap.c`: a packet is serialised into the buffer of a message, and a message
that was received is parsed where it lies. The strings of a packet are not
copied: a packet says where in memory its path, its query and its payload are,
and the parser joins the parts of a path in the buffer they came in.

Memory is the bytes by address, without an end, so a read past a message finds
what is there. An option number is set in a bitmap of 80 bits; a packet lists
the numbers that were set, in order, wherever their bits ended up.

Assertions and logging are compiled out, and the only transport is UDP.
-/

namespace Nexus.Channel.Coap

open Nexus.Lib

/-- The memory a device works on. -/
abbrev Mem := Nat → UInt8

/-! ## Packets -/

/-- `COAP_OPTION_URI_PATH`. -/
def optionUriPath : Nat := 11
/-- `COAP_OPTION_CONTENT_FORMAT`. -/
def optionContentFormat : Nat := 12
/-- `COAP_OPTION_URI_QUERY`. -/
def optionUriQuery : Nat := 15

/-- `COAP_MAX_HEADER_SIZE`. -/
def maxHeaderSize : Nat := 22

/-- The bits of `options` in a packet, `sizeof(options) * OPTION_MAP_SIZE`. -/
def optionBits : Nat := 80

/-- The character between the parts of a path. -/
def pathSeparator : UInt8 := 0x2F
/-- The character between the parts of a query. -/
def querySeparator : UInt8 := 0x26

/-- The bits of a message type in the header. -/
def typeBits : CoapType → UInt8
  | .con => 0
  | .non => 1
  | .ack => 2
  | .rst => 3

/-- The message type of two bits. -/
def typeOfBits (bits : UInt8) : CoapType :=
  if bits = 0 then .con
  else if bits = 1 then .non
  else if bits = 2 then .ack
  else .rst

/-- A string of a packet: where it starts, and its length. -/
structure Span where
  start : Nat
  length : Nat
deriving DecidableEq

/-- The bytes of a string. -/
def Span.bytes (s : Span) (m : Mem) : List UInt8 :=
  Memory.slice m s.start s.length

/-- `coap_packet_t`. -/
structure Packet where
  type : CoapType
  code : UInt8
  mid : UInt16
  tokenLen : UInt8
  /-- `token[COAP_TOKEN_LEN]` -/
  token : UInt8
  /-- the numbers `SET_OPTION` was called with -/
  options : List Nat
  contentFormat : UInt16
  uriPath : Span
  uriQuery : Span
  payload : Span
deriving DecidableEq

namespace Packet

/-- `SET_OPTION`. -/
def setOption (pkt : Packet) (number : Nat) : Packet :=
  { pkt with options := pkt.options ++ [number] }

/-- `coap_udp_init_message`. -/
def init (type : CoapType) (code : UInt8) (mid : UInt16) : Packet where
  type
  code
  mid
  tokenLen := 0
  token := 0
  options := []
  contentFormat := 0
  uriPath := ⟨0, 0⟩
  uriQuery := ⟨0, 0⟩
  payload := ⟨0, 0⟩

/-- `coap_set_token`. -/
def setToken (pkt : Packet) (token : List UInt8) : Packet :=
  match token with
  | [] => { pkt with tokenLen := 0 }
  | byte :: _ => { pkt with tokenLen := 1, token := byte }

/-- `coap_set_header_content_format`. -/
def setHeaderContentFormat (pkt : Packet) (format : UInt16) : Packet :=
  { pkt with contentFormat := format }.setOption optionContentFormat

/-- Where a string goes on behind so many characters `c`, and what is left of
its length. -/
def stripLeading (m : Mem) (c : UInt8) : Nat → Nat → Span
  | start, 0 => ⟨start, 0⟩
  | start, length + 1 =>
      if m start = c then stripLeading m c (start + 1) length
      else ⟨start, length + 1⟩

/-- `coap_set_header_uri_path`, of a string that is followed by a zero. -/
def setHeaderUriPath (pkt : Packet) (m : Mem) (path : Span) : Packet :=
  { pkt with uriPath := stripLeading m pathSeparator path.start path.length
    }.setOption optionUriPath

/-- `coap_set_header_uri_query`, of a string that is followed by a zero. -/
def setHeaderUriQuery (pkt : Packet) (m : Mem) (query : Span) : Packet :=
  -- '?'
  { pkt with uriQuery := stripLeading m 0x3F query.start query.length
    }.setOption optionUriQuery

/-- `coap_set_payload`. -/
def setPayload (pkt : Packet) (payload : Span) : Packet :=
  { pkt with payload := ⟨payload.start, min maxCborPayloadSize payload.length⟩ }

end Packet

/-! ## Serialising -/

/-- `coap_option_nibble`. -/
def coapOptionNibble (value : Nat) : UInt8 :=
  if value < 13 then UInt8.ofNat value
  else if value ≤ 0xFF + 13 then 13
  else 14

/-- What `coap_set_option_header` writes behind the first byte for a delta or a
length. -/
def optionExtension (value : Nat) : List UInt8 :=
  if value > 268 then [UInt8.ofNat ((value - 269) / 256), UInt8.ofNat (value - 269)]
  else if value > 12 then [UInt8.ofNat (value - 13)]
  else []

/-- `coap_set_option_header`, as the bytes it writes. -/
def coapSetOptionHeader (delta length : Nat) : List UInt8 :=
  (coapOptionNibble delta <<< 4 ||| coapOptionNibble length)
    :: (optionExtension delta ++ optionExtension length)

/-- The bytes of an integer option. -/
def intOptionBytes (value : UInt32) : List UInt8 :=
  (if value &&& 0xFF000000 ≠ 0 then [(value >>> 24).toUInt8] else [])
    ++ (if value &&& 0xFFFF0000 ≠ 0 then [(value >>> 16).toUInt8] else [])
    ++ (if value &&& 0xFFFFFF00 ≠ 0 then [(value >>> 8).toUInt8] else [])
    ++ (if value ≠ 0 then [value.toUInt8] else [])

/-- `coap_serialize_int_option`, as the bytes it writes. -/
def coapSerializeIntOption (number currentNumber : Nat) (value : UInt32) :
    List UInt8 :=
  let bytes := intOptionBytes value
  coapSetOptionHeader (number - currentNumber) bytes.length ++ bytes

/-- The variables of `coap_serialize_array_option`: the memory, `i`,
`current_number`, and `part_start` counted from the array. -/
structure ArrayLoop where
  mem : Mem
  i : Nat
  currentNumber : Nat
  partStart : Nat

/-- One part goes out: its header, and its bytes. Nothing is written without a
buffer. -/
def ArrayLoop.writePart (s : ArrayLoop) (number array : Nat)
    (buffer : Option Nat) (j : Nat) : ArrayLoop :=
  let tempLength := j - s.partStart
  let header := coapSetOptionHeader (number - s.currentNumber) tempLength
  let mem :=
    match buffer with
    | none => s.mem
    | some buffer =>
        Memory.move (Memory.put s.mem (buffer + s.i) header)
          (buffer + s.i + header.length) (array + s.partStart) tempLength
  { mem
    i := s.i + header.length + tempLength
    currentNumber := number
    partStart := j + 1 }

/-- The loop of `coap_serialize_array_option`, with the rounds that are left at
most. Behind a part the next character is skipped unseen. -/
def serializeArrayLoop (number array length : Nat) (splitChar : UInt8)
    (buffer : Option Nat) : Nat → Nat → ArrayLoop → ArrayLoop
  | 0, _, s => s
  | rounds + 1, j, s =>
      if j ≤ length + 1 then
        if s.mem (array + j) = splitChar ∨ j = length then
          serializeArrayLoop number array length splitChar buffer rounds (j + 2)
            (s.writePart number array buffer j)
        else
          serializeArrayLoop number array length splitChar buffer rounds (j + 1)
            s
      else s

/-- `coap_serialize_array_option`, with a character to split at: the memory, and
how many bytes the option takes. -/
def coapSerializeArrayOption (m : Mem) (number currentNumber : Nat)
    (buffer : Option Nat) (array : Span) (splitChar : UInt8) : Mem × Nat :=
  let s := serializeArrayLoop number array.start array.length splitChar buffer
    (array.length + 2) 0 ⟨m, 0, currentNumber, 0⟩
  (s.mem, s.i)

/-- The variables of `coap_serialize_options`. -/
structure OptionLoop where
  mem : Mem
  optionLength : Nat
  currentNumber : Nat

/-- `COAP_SERIALIZE_STRING_OPTION`. -/
def OptionLoop.string (s : OptionLoop) (pkt : Packet) (option : Option Nat)
    (number : Nat) (field : Span) (splitter : UInt8) : OptionLoop :=
  if number ∈ pkt.options then
    let (mem, length) := coapSerializeArrayOption s.mem number s.currentNumber
      (option.map (· + s.optionLength)) field splitter
    ⟨mem, s.optionLength + length, number⟩
  else s

/-- `COAP_SERIALIZE_INT_OPTION`. -/
def OptionLoop.int (s : OptionLoop) (pkt : Packet) (option : Option Nat)
    (number : Nat) (field : UInt16) : OptionLoop :=
  if number ∈ pkt.options then
    let bytes := coapSerializeIntOption number s.currentNumber field.toUInt32
    let mem :=
      match option with
      | none => s.mem
      | some option => Memory.put s.mem (option + s.optionLength) bytes
    ⟨mem, s.optionLength + bytes.length, number⟩
  else s

/-- `coap_serialize_options`; without an `option` it only counts. -/
def coapSerializeOptions (m : Mem) (pkt : Packet) (option : Option Nat) :
    Mem × Nat :=
  let s : OptionLoop := ⟨m, 0, 0⟩
  let s := s.string pkt option optionUriPath pkt.uriPath pathSeparator
  let s := s.int pkt option optionContentFormat pkt.contentFormat
  let s := s.string pkt option optionUriQuery pkt.uriQuery querySeparator
  (s.mem, s.optionLength)

/-- `coap_udp_set_header_fields`, as the bytes it writes. -/
def coapUdpSetHeaderFields (pkt : Packet) : List UInt8 :=
  [(1 : UInt8) <<< 6 ||| typeBits pkt.type <<< 4 ||| pkt.tokenLen &&& 0x0F,
    pkt.code,
    (pkt.mid >>> 8).toUInt8, pkt.mid.toUInt8]

/-- `coap_serialize_message`: the memory, and the length of the message, zero if
its header is too long. -/
def coapSerializeMessage (m : Mem) (pkt : Packet) (buffer : Nat) : Mem × Nat :=
  let headerLengthCalculation := (coapSerializeOptions m pkt none).2
    + (if pkt.payload.length > 0 then 1 else 0) + pkt.tokenLen.toNat + 4
  if headerLengthCalculation > maxHeaderSize then (m, 0)
  else
    let m := Memory.put m buffer (coapUdpSetHeaderFields pkt)
    if pkt.code = 0 then (m, 4)
    else
      -- a token takes a byte, even one of length zero
      let m := Memory.put m (buffer + 4) [pkt.token]
      let (m, optionLength) := coapSerializeOptions m pkt (some (buffer + 5))
      let option := 5 + optionLength
      if option ≤ maxHeaderSize then
        if pkt.payload.length > 0 then
          let m := Memory.put m (buffer + option) [0xFF]
          (Memory.move m (buffer + option + 1) pkt.payload.start
              pkt.payload.length,
            option + 1 + pkt.payload.length)
        else (m, option)
      else (m, 0)

/-! ## Parsing -/

/-- What `coap_udp_parse_message` returns. -/
inductive ParseStatus
  | noError
  | badRequest400
  | badOption402
  | unsupportedMediaType415
deriving DecidableEq

def ParseStatus.code : ParseStatus → UInt8
  | noError => 0
  | badRequest400 => 128
  | badOption402 => 130
  | unsupportedMediaType415 => 143

/-- `coap_parse_int_option`. -/
def coapParseIntOption (bytes : List UInt8) : UInt32 :=
  bytes.foldl (fun var byte => var <<< 8 ||| byte.toUInt32) 0

/-- `coap_merge_multi_option`. -/
def coapMergeMultiOption (m : Mem) (dst option : Span) (separator : UInt8) :
    Mem × Span :=
  if dst.length > 0 then
    let stop := dst.start + dst.length
    let m := Memory.put m stop [separator]
    (Memory.move m (stop + 1) option.start option.length,
      ⟨dst.start, dst.length + 1 + option.length⟩)
  else (m, option)

/-- The rest of a delta or a length, behind the four bits it starts with, and
where reading goes on. -/
def readExtension (m : Mem) (value current : Nat) : Nat × Nat :=
  if value = 13 then (value + (m current).toNat, current + 1)
  else if value = 14 then
    (value + 255 + (m current).toNat * 256 + (m (current + 1)).toNat,
      current + 2)
  else (value, current)

/-- The header of an option: its delta, its length, and where its value is. -/
def readOptionHeader (m : Mem) (current : Nat) : Nat × Nat × Nat :=
  let (delta, next) :=
    readExtension m (m current >>> 4).toNat (current + 1)
  let (length, next) := readExtension m (m current &&& 0x0F).toNat next
  (delta, length, next)

/-- The switch of `coap_parse_token_option`. -/
def takeOption (m : Mem) (pkt : Packet) (number : Nat) (option : Span) :
    ParseStatus × Mem × Packet :=
  if number = optionContentFormat then
    let format := (coapParseIntOption (option.bytes m)).toUInt16
    let pkt := { pkt with contentFormat := format }
    if format ≠ applicationVndOcfCbor ∧ format ≠ applicationCoseMac0 then
      (.unsupportedMediaType415, m, pkt)
    else (.noError, m, pkt)
  else if number = optionUriPath then
    let (m, uriPath) :=
      coapMergeMultiOption m pkt.uriPath option pathSeparator
    (.noError, m, { pkt with uriPath })
  else if number = optionUriQuery then
    let (m, uriQuery) :=
      coapMergeMultiOption m pkt.uriQuery option querySeparator
    (.noError, m, { pkt with uriQuery })
  -- a critical option has an odd number
  else if number % 2 = 1 then (.badOption402, m, pkt)
  else (.noError, m, pkt)

/-- The payload behind its marker, cut to its greatest length, and a zero behind
it. -/
def takePayload (m : Mem) (pkt : Packet) (payload stop : Nat) : Mem × Packet :=
  let length := min (stop - payload) maxCborPayloadSize
  (Memory.put m (payload + length) [0],
    { pkt with payload := ⟨payload, length⟩ })

/-- The loop of `coap_parse_token_option`, with the rounds that are left at
most. -/
def parseOptionsLoop (stop : Nat) :
    Nat → Nat → Nat → Mem → Packet → ParseStatus × Mem × Packet
  | 0, _, _, m, pkt => (.noError, m, pkt)
  | rounds + 1, current, optionNumber, m, pkt =>
      if current < stop then
        if m current &&& 0xF0 = 0xF0 then
          let (m, pkt) := takePayload m pkt (current + 1) stop
          (.noError, m, pkt)
        else
          let (delta, length, next) := readOptionHeader m current
          let number := optionNumber + delta
          let pkt := pkt.setOption number
          if next + length > stop then (.badOption402, m, pkt)
          else
            match takeOption m pkt number ⟨next, length⟩ with
            | (.noError, m, pkt) =>
                parseOptionsLoop stop rounds (next + length) number m pkt
            | failed => failed
      else (.noError, m, pkt)

/-- `coap_parse_token_option`. -/
def coapParseTokenOption (m : Mem) (data dataLen currentOption : Nat)
    (pkt : Packet) : ParseStatus × Mem × Packet :=
  let pkt :=
    if pkt.tokenLen = 0 then pkt else { pkt with token := m currentOption }
  parseOptionsLoop (data + dataLen) dataLen
    (currentOption + pkt.tokenLen.toNat) 0 m { pkt with options := [] }

/-- The fields of the header, as `coap_udp_parse_message` reads them. -/
def parseHeaderFields (m : Mem) (data : Nat) : Packet :=
  { Packet.init (typeOfBits ((m data &&& 0x30) >>> 4)) (m (data + 1))
      ((m (data + 2)).toUInt16 <<< 8 ||| (m (data + 3)).toUInt16) with
    tokenLen := m data &&& 0x0F }

/-- `coap_udp_parse_message`: its status, the memory, and the packet. -/
def coapUdpParseMessage (m : Mem) (data dataLen : Nat) :
    ParseStatus × Mem × Packet :=
  let pkt := parseHeaderFields m data
  if (m data &&& 0xC0) >>> 6 ≠ 1 then (.badRequest400, m, pkt)
  else if pkt.tokenLen > 1 then (.badRequest400, m, pkt)
  else coapParseTokenOption m data dataLen (data + 4) pkt

end Nexus.Channel.Coap
