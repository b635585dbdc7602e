import Nexus.Util.Bytes

/-!
# CBOR

The part of tinycbor the COSE code calls. The encoder is the bytes it appends:
heads are shortest, lengths definite, and a buffer overflows exactly when all
the bytes together do not fit. The parser is a cursor, and a cursor is the
bytes from its pointer to the end of the buffer with what has been read off the
head there.

Errors end every caller at once, so a cursor after an error is not modelled.
Assertions are compiled out.
-/

namespace Nexus.Cbor

open Nexus.Util

/-- `CborError`, as far as it is returned here. -/
inductive Error
  | unexpectedEof
  | unexpectedBreak
  | unknownType
  | illegalType
  | illegalNumber
  | illegalSimpleType
  | unknownLength
  | advancePastEof
  | outOfMemory
  | dataTooLarge
  | nestingTooDeep
deriving DecidableEq

/-! ## Types

`CborType` is a byte: the three bits of the major type, or the whole head of a
simple value. -/

def integerType : UInt8 := 0x00
def byteStringType : UInt8 := 0x40
def textStringType : UInt8 := 0x60
def arrayType : UInt8 := 0x80
def mapType : UInt8 := 0xA0
def tagType : UInt8 := 0xC0
def simpleType : UInt8 := 0xE0
def booleanType : UInt8 := 0xF5
def invalidType : UInt8 := 0xFF

def breakByte : UInt8 := 0xFF

/-! ## Encoding -/

/-- `encode_number_no_update`, as the bytes appended. -/
def encodeNumber (ui : UInt64) (shiftedMajorType : UInt8) : List UInt8 :=
  let byte (i : UInt64) : UInt8 := (ui >>> (8 * i)).toUInt8
  if ui < 24 then [byte 0 + shiftedMajorType]
  else if ui ≤ 0xFF then [shiftedMajorType + 24, byte 0]
  else if ui ≤ 0xFFFF then [shiftedMajorType + 25, byte 1, byte 0]
  else if ui ≤ 0xFFFFFFFF then
    [shiftedMajorType + 26, byte 3, byte 2, byte 1, byte 0]
  else
    [shiftedMajorType + 27, byte 7, byte 6, byte 5, byte 4, byte 3, byte 2,
      byte 1, byte 0]

/-- `cbor_encode_uint`. -/
def encodeUint (value : UInt64) : List UInt8 := encodeNumber value 0x00

/-- `cbor_encode_byte_string`. -/
def encodeByteString (string : List UInt8) : List UInt8 :=
  encodeNumber (UInt64.ofNat string.length) 0x40 ++ string

/-- `cbor_encode_text_string`. -/
def encodeTextString (string : List UInt8) : List UInt8 :=
  encodeNumber (UInt64.ofNat string.length) 0x60 ++ string

/-- `cbor_encoder_create_array`, around its elements. -/
def encodeArray (elements : List (List UInt8)) : List UInt8 :=
  encodeNumber (UInt64.ofNat elements.length) 0x80 ++ elements.flatten

/-- `cbor_encoder_create_map`, around its keys and values. -/
def encodeMap (pairs : List (List UInt8 × List UInt8)) : List UInt8 :=
  encodeNumber (UInt64.ofNat pairs.length) 0xA0
    ++ (pairs.map fun p => p.1 ++ p.2).flatten

/-! ## The cursor -/

/-- The bits of `CborParserIteratorFlags`. -/
structure Flags where
  integerValueTooLarge : Bool
  negativeInteger : Bool
  iteratingStringChunks : Bool
  unknownLength : Bool
  containerIsMap : Bool
  nextIsMapKey : Bool
deriving DecidableEq

/-- `CborValue`. -/
structure Value where
  /-- what lies between `ptr` and the parser's `end` -/
  ptr : List UInt8
  remaining : UInt32
  extra : UInt16
  type : UInt8
  flags : Flags
deriving DecidableEq

def uint32Max : UInt32 := 0xFFFFFFFF

/-- `get16`, `get32` and `get64`: the number of so many bytes, the most
significant first. -/
def getBigEndian (bytes : List UInt8) : UInt64 :=
  bytes.foldl (fun n b => n <<< 8 ||| b.toUInt64) 0

/-- The bytes that follow a head with this additional information. -/
def bytesNeeded (additionalInformation : UInt8) : Nat :=
  if additionalInformation < 24 then 0
  else 2 ^ (additionalInformation.toNat - 24)

/-- `_cbor_value_extract_number`: the number of a head and the pointer behind
it. -/
def extractNumber (ptr : List UInt8) : Except Error (UInt64 × List UInt8) :=
  match ptr with
  | [] => .error .unexpectedEof
  | head :: rest =>
      let additionalInformation := head &&& 0x1F
      if additionalInformation < 24 then
        .ok (additionalInformation.toUInt64, rest)
      else if additionalInformation > 27 then .error .illegalNumber
      else if bytesNeeded additionalInformation > rest.length then
        .error .unexpectedEof
      else
        .ok (getBigEndian (rest.take (bytesNeeded additionalInformation)),
          rest.drop (bytesNeeded additionalInformation))

/-- `is_fixed_type`. -/
def isFixedType (type : UInt8) : Bool :=
  type != textStringType && type != byteStringType && type != arrayType
    && type != mapType

namespace Value

/-- The simple values of `preparse_value`. -/
def preparseSimple (it : Value) (head descriptor : UInt8) :
    Except Error Value :=
  if descriptor = 20 then .ok { it with extra := 0, type := booleanType }
  else if descriptor = 26 ∨ descriptor = 27 then
    .ok { it with
      type := head
      flags := { it.flags with integerValueTooLarge := true } }
  else if descriptor = 21 ∨ descriptor = 22 ∨ descriptor = 23
      ∨ descriptor = 25 then
    .ok { it with type := head }
  else if descriptor = 24 then
    let extra := (it.ptr.getD 1 0).toUInt16
    if extra < 32 then .error .illegalSimpleType
    else .ok { it with extra := extra }
  else .error .unexpectedBreak

/-- `preparse_value`: read the head at the pointer. -/
def preparse (it : Value) : Except Error Value :=
  match it.ptr with
  | [] => .error .unexpectedEof
  | head :: _ =>
      let type := head &&& 0xE0
      let descriptor := head &&& 0x1F
      let it := { it with
        type := type
        extra := descriptor.toUInt16
        flags := { it.flags with
          integerValueTooLarge := false
          negativeInteger := false
          iteratingStringChunks := false
          unknownLength := false } }
      if descriptor > 27 then
        if descriptor ≠ 31 then
          .error (if type = simpleType then .unknownType else .illegalNumber)
        else if isFixedType type = false then
          .ok { it with flags := { it.flags with unknownLength := true } }
        else
          .error (if type = simpleType then .unexpectedBreak
            else .illegalNumber)
      else if bytesNeeded descriptor + 1 > it.ptr.length then
        .error .unexpectedEof
      else if type = simpleType then it.preparseSimple head descriptor
      else
        let it :=
          if type = 0x20 then
            { it with
              type := integerType
              flags := { it.flags with negativeInteger := true } }
          else it
        if descriptor < 24 then .ok it
        else if descriptor = 24 then
          .ok { it with extra := (it.ptr.getD 1 0).toUInt16 }
        else if descriptor = 25 then
          .ok { it with
            extra := (getBigEndian ((it.ptr.drop 1).take 2)).toUInt16 }
        else
          .ok { it with
            flags := { it.flags with integerValueTooLarge := true } }

/-- `preparse_next_value_nodecrement`. -/
def preparseNextNodecrement (it : Value) : Except Error Value :=
  if it.remaining = uint32Max ∧ it.ptr.head? = some breakByte then
    if (it.flags.containerIsMap ∧ it.flags.nextIsMapKey) ∨ it.type = tagType
    then .error .unexpectedBreak
    else
      .ok { it with ptr := it.ptr.drop 1, type := invalidType, remaining := 0 }
  else it.preparse

/-- `preparse_next_value`. -/
def preparseNext (it : Value) : Except Error Value :=
  let itemCounts := it.type != tagType
  let it :=
    if it.remaining ≠ uint32Max ∧ itemCounts then
      { it with remaining := it.remaining - 1 }
    else it
  -- the last element of a container of known length
  if it.remaining = 0 ∧ itemCounts then .ok { it with type := invalidType }
  else
    let it :=
      if itemCounts then
        { it with flags := { it.flags with
            nextIsMapKey := !it.flags.nextIsMapKey } }
      else it
    it.preparseNextNodecrement

/-- `_cbor_value_extract_int64_helper`: the number in the head. -/
def extractInt64 (value : Value) : UInt64 :=
  if value.flags.integerValueTooLarge then
    if (value.ptr.headD 0) &&& 1 = 0 then
      getBigEndian ((value.ptr.drop 1).take 4)
    else getBigEndian ((value.ptr.drop 1).take 8)
  else value.extra.toUInt64

/-- `cbor_value_get_array_length`, `cbor_value_get_map_length` and
`cbor_value_get_string_length`. -/
def getLength (value : Value) : Except Error Nat :=
  if value.flags.unknownLength then .error .unknownLength
  else .ok value.extractInt64.toNat

def isArray (value : Value) : Bool := value.type == arrayType
def isMap (value : Value) : Bool := value.type == mapType
def isByteString (value : Value) : Bool := value.type == byteStringType
def isInteger (value : Value) : Bool := value.type == integerType
def atEnd (value : Value) : Bool := value.remaining == 0

/-! ## Strings -/

/-- `get_string_chunk`: the next chunk, or nothing behind the last one, where
the cursor has moved on to the next value. -/
def getStringChunk (it : Value) : Except Error (Option (List UInt8) × Value) :=
  if it.flags.iteratingStringChunks ∧ it.flags.unknownLength = false then
    it.preparseNext.map fun it => (none, it)
  else
    let it :=
      if it.flags.iteratingStringChunks = false
          ∧ it.flags.unknownLength then
        { it with
          ptr := it.ptr.drop 1
          flags := { it.flags with iteratingStringChunks := true } }
      else it
    match it.ptr with
    | [] => .error .unexpectedEof
    | head :: rest =>
        if head = breakByte then
          preparseNext { it with ptr := rest } |>.map fun it => (none, it)
        else if head &&& 0xE0 = it.type then
          match extractNumber it.ptr with
          | .error e => .error e
          | .ok (len, ptr) =>
              if len.toNat > ptr.length then .error .unexpectedEof
              else
                .ok (some (ptr.take len.toNat), { it with
                  ptr := ptr.drop len.toNat
                  flags := { it.flags with iteratingStringChunks := true } })
        else .error .illegalType

/-- The loop of `iterate_string_chunks`: all the chunks, and the cursor behind
the string. A chunk takes a byte at least, which bounds the rounds. -/
def stringChunks : Nat → Value → Except Error (List UInt8 × Value)
  | 0, _ => .error .unexpectedEof
  | fuel + 1, it =>
      match it.getStringChunk with
      | .error e => .error e
      | .ok (none, it) => .ok ([], it)
      | .ok (some chunk, it) =>
          (stringChunks fuel it).map fun r => (chunk ++ r.1, r.2)

/-- The content of a string and the cursor behind it. -/
def string (value : Value) : Except Error (List UInt8 × Value) :=
  value.stringChunks (value.ptr.length + 2)

/-- `cbor_value_calculate_string_length`. -/
def calculateStringLength (value : Value) : Except Error Nat :=
  value.string.map fun r => r.1.length

/-- `cbor_value_copy_byte_string` into a buffer: what the buffer holds
afterwards, the length of the string and the cursor behind it. Where there is
room, a zero byte follows the string. -/
def copyByteString (value : Value) (buffer : List UInt8) :
    Except Error (List UInt8 × Nat × Value) :=
  match value.string with
  | .error e => .error e
  | .ok (content, next) =>
      if buffer.length < content.length then .error .outOfMemory
      else
        .ok ((content ++ [0] ++ buffer.drop (content.length + 1)).take
          buffer.length, content.length, next)

/-! ## Containers -/

/-- `cbor_value_enter_container`. -/
def enterContainer (it : Value) : Except Error Value :=
  let inside (recursed : Value) : Except Error Value :=
    preparseNextNodecrement { recursed with
      flags := ⟨false, false, false, false, recursed.type == mapType, false⟩ }
  if it.flags.unknownLength then
    inside { it with ptr := it.ptr.drop 1, remaining := uint32Max }
  else
    match extractNumber it.ptr with
    | .error e => .error e
    | .ok (len, ptr) =>
        if len ≥ uint32Max.toUInt64 then .error .dataTooLarge
        else if it.type = mapType ∧ len.toUInt32 > uint32Max / 2 then
          .error .dataTooLarge
        else
          let recursed := { it with
            ptr := ptr
            remaining := if it.type = mapType then len.toUInt32 * 2
              else len.toUInt32 }
          if len = 0 then .ok { recursed with type := invalidType }
          else inside recursed

/-- `cbor_value_leave_container`. -/
def leaveContainer (it recursed : Value) : Except Error Value :=
  preparseNext { it with ptr := recursed.ptr }

/-- `advance_internal`, which sees no strings. -/
def advanceInternal (it : Value) : Except Error Value :=
  match extractNumber it.ptr with
  | .error e => .error e
  | .ok (_, ptr) => preparseNext { it with ptr := ptr }

/-- The loop of `advance_recursive` over the elements of a container. An
element takes a byte at least, which bounds the rounds. -/
def advanceElements (advance : Value → Except Error Value) :
    Nat → Value → Except Error Value
  | 0, it => if it.atEnd then .ok it else .error .unexpectedEof
  | fuel + 1, it =>
      if it.atEnd then .ok it
      else
        match advance it with
        | .error e => .error e
        | .ok it => advanceElements advance fuel it

/-- `advance_recursive`. -/
def advanceRecursive : Nat → Value → Except Error Value
  | nestingLevel, it =>
      if isFixedType it.type then it.advanceInternal
      else if it.isArray = false ∧ it.isMap = false then
        it.string.map Prod.snd
      else
        match nestingLevel with
        | 0 => .error .nestingTooDeep
        | nestingLevel + 1 =>
            match it.enterContainer with
            | .error e => .error e
            | .ok recursed =>
                match advanceElements (advanceRecursive nestingLevel)
                    recursed.ptr.length recursed with
                | .error e => .error e
                | .ok recursed => it.leaveContainer recursed

/-- `cbor_value_advance`, at `CBOR_PARSER_MAX_RECURSIONS`. -/
def advance (it : Value) : Except Error Value :=
  if it.remaining = 0 then .error .advancePastEof
  else advanceRecursive 1024 it

end Value

/-- `cbor_parser_init`. -/
def parserInit (buffer : List UInt8) : Except Error Value :=
  Value.preparse ⟨buffer, 1, 0, invalidType,
    ⟨false, false, false, false, false, false⟩⟩

end Nexus.Cbor
