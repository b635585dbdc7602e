import Nexus.Channel.Cose
import Nexus.Proofs.Cbor

/-!
# Secured payloads

Two facts about `COSE_MAC0` as it is used here. The bytes a tag is computed
over determine the nonce, the code, the URI and the payload, so a tag speaks
for exactly one message. And what was signed verifies, with the nonce and the
payload it was signed with, whatever the memory of the receiver held before.
-/

namespace Nexus.Channel

open Nexus.Util Nexus.Cbor

/-! ## What a tag speaks for -/

theorem encodeProtectedHeaderMap_eq (nonce : UInt32) :
    encodeProtectedHeaderMap nonce = 0xA1 :: 0x05
      :: encodeNumber nonce.toUInt64 integerType := by
  simp [encodeProtectedHeaderMap, encodeMap, encodeUint, endianHtole32,
    encodeNumber, integerType]

theorem encodeProtectedHeaderMap_inj {nonce nonce' : UInt32}
    (h : encodeProtectedHeaderMap nonce = encodeProtectedHeaderMap nonce') :
    nonce = nonce' := by
  rw [encodeProtectedHeaderMap_eq, encodeProtectedHeaderMap_eq] at h
  simp only [List.cons.injEq, true_and] at h
  have happend : encodeNumber nonce.toUInt64 integerType ++ []
      = encodeNumber nonce'.toUInt64 integerType ++ [] := by rw [h]
  obtain ⟨hnonce, -⟩ := encodeNumber_append_inj (by decide) happend
  apply UInt32.toNat_inj.mp
  have hnat := congrArg UInt64.toNat hnonce
  rwa [UInt32.toNat_toUInt64, UInt32.toNat_toUInt64] at hnat

/-- The protected header has up to seven bytes. -/
theorem length_encodeProtectedHeaderMap (nonce : UInt32) :
    0 < (encodeProtectedHeaderMap nonce).length ∧
      (encodeProtectedHeaderMap nonce).length
        ≤ maxProtectedHeaderBstrSize := by
  rw [encodeProtectedHeaderMap_eq]
  have hlt : nonce.toUInt64 ≤ 0xFFFFFFFF := by
    apply UInt64.le_iff_toNat_le.mpr
    rw [UInt32.toNat_toUInt64]
    exact Nat.le_of_lt_succ nonce.toNat_lt
  unfold encodeNumber
  simp only [List.length_cons, maxProtectedHeaderBstrSize]
  split
  · simp
  · split
    · simp
    · split
      · simp
      · simp

theorem macStructureBytes_eq (nonce : UInt32) (aad : ExternalAad)
    (payload : List UInt8) :
    macStructureBytes nonce aad payload
      = (encodeNumber 4 0x80 ++ encodeTextString mac0ContextString)
        ++ (encodeByteString (encodeProtectedHeaderMap nonce)
        ++ (encodeByteString (aad.coapMethod :: aad.coapUri)
        ++ (encodeByteString payload ++ []))) := by
  simp [macStructureBytes, encodeArray]

/-- The bytes under a tag determine the message, for any message short enough
to be counted. -/
theorem macStructureBytes_inj {nonce nonce' : UInt32} {aad aad' : ExternalAad}
    {payload payload' : List UInt8}
    (huri : aad.coapUri.length < 2 ^ 63) (huri' : aad'.coapUri.length < 2 ^ 63)
    (hlen : payload.length < 2 ^ 64) (hlen' : payload'.length < 2 ^ 64)
    (h : macStructureBytes nonce aad payload
      = macStructureBytes nonce' aad' payload') :
    nonce = nonce' ∧ aad = aad' ∧ payload = payload' := by
  have hheader := fun nonce => (length_encodeProtectedHeaderMap nonce).2
  have hshort : maxProtectedHeaderBstrSize < 2 ^ 64 := by decide
  rw [macStructureBytes_eq, macStructureBytes_eq] at h
  obtain ⟨hnonce, h⟩ := encodeByteString_append_inj
    ((hheader nonce).trans_lt hshort) ((hheader nonce').trans_lt hshort)
    (List.append_cancel_left h)
  obtain ⟨haad, h⟩ := encodeByteString_append_inj
    (by rw [List.length_cons]; omega) (by rw [List.length_cons]; omega) h
  obtain ⟨hpayload, -⟩ := encodeByteString_append_inj hlen hlen' h
  obtain ⟨method, uri⟩ := aad
  obtain ⟨method', uri'⟩ := aad'
  simp only [List.cons.injEq] at haad
  obtain ⟨rfl, rfl⟩ := haad
  exact ⟨encodeProtectedHeaderMap_inj hnonce, rfl, hpayload⟩

/-! ## What was signed verifies -/

@[simp] theorem orFail_ok {α : Type} (a : α) (error : CoseError) :
    orFail (.ok a) error = .ok a := rfl

@[simp] theorem require_true (error : CoseError) :
    require true error = .ok () := rfl

@[simp] theorem ok_bind {ε α β : Type} (a : α) (f : α → Except ε β) :
    ((.ok a : Except ε α) >>= f) = f a := rfl

theorem deserializeProtectedHeader_encode (nonce : UInt32) :
    deserializeProtectedHeader (encodeProtectedHeaderMap nonce)
      = .ok nonce := by
  have hbytes : encodeProtectedHeaderMap nonce
      = encodeNumber 1 mapType ++ (encodeNumber 5 integerType
        ++ (encodeNumber nonce.toUInt64 integerType ++ [])) := by
    rw [encodeProtectedHeaderMap_eq]
    simp [encodeNumber, mapType, integerType]
  obtain ⟨root, hroot, hrootAt, hrootPlace⟩ := @Value.preparse_at
    ⟨encodeProtectedHeaderMap nonce, 1, 0, invalidType,
      ⟨false, false, false, false, false, false⟩⟩ mapType (by decide) 1 _ hbytes
  obtain ⟨hrootLeft, -⟩ := Value.place_eq hrootPlace
  obtain ⟨key, hkey, hkeyAt, hkeyPlace⟩ := @Value.enterContainer_at root mapType
    1 _ hrootAt (by decide) (by decide) (by decide) (by decide) (by decide)
    integerType (by decide) 5 _ rfl
  obtain ⟨hkeyLeft, -⟩ := Value.place_eq hkeyPlace
  have hkeyLeft' : key.remaining = 2 := hkeyLeft
  obtain ⟨value, hvalue, hvalueAt, hvaluePlace⟩ := @Value.preparseNext_at
    { key with ptr := encodeNumber nonce.toUInt64 integerType ++ [] }
    (by simp only [hkeyAt.type]; decide) (by simp only [hkeyLeft']; decide)
    (by simp only [hkeyLeft']; decide) (by simp only [hkeyLeft']; decide)
    integerType (by decide) nonce.toUInt64 [] rfl
  have hvalueLeft : value.remaining = 1 := by
    rw [(Value.place_eq hvaluePlace).1]
    simp only [hkeyLeft']
    decide
  have hinit : parserInit (encodeProtectedHeaderMap nonce) = .ok root := hroot
  have hisMap : root.isMap = true := by
    unfold Value.isMap
    rw [hrootAt.type]
    rfl
  have hlength : root.getLength = .ok 1 := by
    unfold Value.getLength
    rw [hrootAt.known, hrootAt.number]
    rfl
  have hkeyInteger : key.isInteger = true := by
    unfold Value.isInteger
    rw [hkeyAt.type]
    rfl
  have hkeyNext : key.advance = .ok value := by
    rw [Value.advance_integer hkeyAt (by rw [hkeyLeft']; decide)]
    exact hvalue
  have hvalueInteger : value.isInteger = true := by
    unfold Value.isInteger
    rw [hvalueAt.type]
    rfl
  have hsmall : value.extractInt64 ≤ 0xFFFFFFFF := by
    rw [hvalueAt.number]
    apply UInt64.le_iff_toNat_le.mpr
    rw [UInt32.toNat_toUInt64]
    exact Nat.le_of_lt_succ nonce.toNat_lt
  have hend : value.advance = .ok { value with
      ptr := [], remaining := 0, type := invalidType } := by
    rw [Value.advance_integer hvalueAt (by rw [hvalueLeft]; decide)]
    exact Value.preparseNext_last
      (by simp only [hvalueAt.type]; decide) hvalueLeft
  have hleave : root.leaveContainer { value with
      ptr := [], remaining := 0, type := invalidType }
      = .ok { root with ptr := [], remaining := 0, type := invalidType } :=
    Value.preparseNext_last (by simp only [hrootAt.type]; decide) hrootLeft
  unfold deserializeProtectedHeader
  simp only [hinit, hisMap, hlength, hkey, hkeyInteger, hkeyNext,
    hvalueInteger, hend, hleave, orFail_ok, ok_bind, require_true,
    decide_eq_true hsmall]
  rw [hvalueAt.number]
  simp [pure, Except.pure]

/-- What a copy leaves in its buffer: the string, a zero byte where there is
room, and behind it what was there before. -/
def filled (content buffer : List UInt8) : List UInt8 :=
  (content ++ [0] ++ buffer.drop (content.length + 1)).take buffer.length

theorem copyByteString_eq {v next : Value} {content : List UInt8}
    (h : v.string = .ok (content, next)) {buffer : List UInt8}
    (hlen : content.length ≤ buffer.length) :
    v.copyByteString buffer
      = .ok (filled content buffer, content.length, next) := by
  unfold Value.copyByteString
  simp only [h, Nat.not_lt.mpr hlen, if_false]
  rfl

theorem filled_of_length_eq {content buffer : List UInt8}
    (h : content.length = buffer.length) : filled content buffer = content := by
  unfold filled
  rw [List.append_assoc, List.take_append_of_le_length (by omega),
    List.take_of_length_le (by omega)]

theorem take_filled {content buffer : List UInt8}
    (h : content.length ≤ buffer.length) :
    (filled content buffer).take content.length = content := by
  unfold filled
  rw [List.take_take, Nat.min_eq_left h, List.append_assoc,
    List.take_append_of_le_length (by omega), List.take_of_length_le (by omega)]

/-- The payload lies behind a head of one byte or two. -/
theorem payloadAt_encode {payload rest : List UInt8}
    (h : payload.length < 255) :
    payloadAt (encodeNumber (UInt64.ofNat payload.length) byteStringType
      ++ (payload ++ rest)) payload.length = .ok payload := by
  have hnat : (UInt64.ofNat payload.length).toNat = payload.length := by
    rw [UInt64.toNat_ofNat']
    exact Nat.mod_eq_of_lt (by omega)
  unfold payloadAt encodeNumber
  by_cases hshort : payload.length < 24
  · have hlt : UInt64.ofNat payload.length < 24 :=
      UInt64.lt_iff_toNat_lt.mpr (by rw [hnat]; exact hshort)
    simp only [if_pos hshort, if_pos hlt]
    simp
  · have hge : ¬ UInt64.ofNat payload.length < 24 := by
      intro hlt
      have hlt' := UInt64.lt_iff_toNat_lt.mp hlt
      rw [hnat] at hlt'
      exact hshort hlt'
    have hle : UInt64.ofNat payload.length ≤ 0xFF := by
      apply UInt64.le_iff_toNat_le.mpr
      rw [hnat]
      exact h.le
    simp only [if_neg hshort, if_pos h, if_neg hge, if_pos hle]
    simp

theorem getLength_at {v : Value} {t : UInt8} {n : UInt64} {rest : List UInt8}
    (hv : v.At t n rest) : v.getLength = .ok n.toNat := by
  unfold Value.getLength
  rw [hv.known, hv.number]
  rfl

theorem isByteString_at {v : Value} {n : UInt64} {rest : List UInt8}
    (hv : v.At byteStringType n rest) : v.isByteString = true := by
  unfold Value.isByteString
  rw [hv.type]
  rfl

theorem toNat_ofNat_length {s : List UInt8} (h : s.length < 2 ^ 64) :
    (UInt64.ofNat s.length).toNat = s.length := by
  rw [UInt64.toNat_ofNat']
  exact Nat.mod_eq_of_lt h

theorem mac0MessageBytes_eq (nonce : UInt32) (payload : List UInt8)
    (tag : Vector UInt8 8) :
    mac0MessageBytes nonce payload tag
      = encodeNumber 4 arrayType
        ++ (encodeNumber (UInt64.ofNat (encodeProtectedHeaderMap nonce).length)
          byteStringType ++ (encodeProtectedHeaderMap nonce
        ++ (encodeNumber 0 mapType
        ++ (encodeNumber (UInt64.ofNat payload.length) byteStringType
          ++ (payload
        ++ (encodeNumber (UInt64.ofNat tag.toList.length) byteStringType
          ++ (tag.toList ++ []))))))) := by
  simp [mac0MessageBytes, encodeArray, encodeByteString, encodeMap, arrayType,
    byteStringType, mapType]

/-- The parts of a message are read back as they were written. -/
theorem deserializeProtectedMessage_encode (nonce : UInt32)
    {payload : List UInt8} (hpayload : payload.length < 255)
    (tag staleTag : Vector UInt8 8) :
    deserializeProtectedMessage (mac0MessageBytes nonce payload tag) staleTag
      = .ok ⟨nonce, payload, tag.toList⟩ := by
  obtain ⟨hheaderPos, hheaderLen⟩ := length_encodeProtectedHeaderMap nonce
  have hheaderLen' : (encodeProtectedHeaderMap nonce).length < 2 ^ 64 :=
    hheaderLen.trans_lt (by decide)
  have htagLen : tag.toList.length < 2 ^ 64 := by simp
  have hpayloadLen : payload.length < 2 ^ 64 := hpayload.trans (by decide)
  have hbytes := mac0MessageBytes_eq nonce payload tag
  -- the array, and its four elements in turn
  obtain ⟨root, hroot, hrootAt, hrootPlace⟩ := @Value.preparse_at
    ⟨mac0MessageBytes nonce payload tag, 1, 0, invalidType,
      ⟨false, false, false, false, false, false⟩⟩ arrayType (by decide) 4 _
      hbytes
  obtain ⟨hrootLeft, -⟩ := Value.place_eq hrootPlace
  obtain ⟨header, hheader, hheaderAt, hheaderPlace⟩ :=
    @Value.enterContainer_at root arrayType 4 _ hrootAt (by decide)
    (by decide) (by decide) (by decide) (by decide) byteStringType (by decide)
    _ _ rfl
  have hheaderLeft : header.remaining = 4 := (Value.place_eq hheaderPlace).1
  obtain ⟨map, hheaderRead, -, hmapAt, hmapLeft⟩ := @Value.string_next header 3
    hheaderLeft (by decide) (by decide) (by decide) mapType (by decide) 0 _ _
    hheaderLen' hheaderAt
  obtain ⟨body, hmapNext, hbodyAt, hbodyLeft⟩ := @Value.emptyMap_next map 2
    hmapLeft (by decide) (by decide) (by decide) byteStringType (by decide) _ _
    hmapAt
  obtain ⟨last, hbodyRead, hbodyNext, hlastAt, hlastLeft⟩ :=
    @Value.string_next body 1 hbodyLeft (by decide) (by decide) (by decide)
    byteStringType (by decide) _ _ _ hpayloadLen hbodyAt
  obtain ⟨behind, hlastRead⟩ := Value.string_last htagLen hlastAt hlastLeft
  -- what the code asks of each of them
  have hinit : parserInit (mac0MessageBytes nonce payload tag) = .ok root :=
    hroot
  have hisArray : root.isArray = true := by
    unfold Value.isArray
    rw [hrootAt.type]
    rfl
  have hisMap : map.isMap = true := by
    unfold Value.isMap
    rw [hmapAt.type]
    rfl
  have hrootLength : root.getLength = .ok 4 := getLength_at hrootAt
  have hheaderLength : header.getLength
      = .ok (encodeProtectedHeaderMap nonce).length := by
    rw [getLength_at hheaderAt, toNat_ofNat_length hheaderLen']
  have hlastLength : last.getLength = .ok tag.toList.length := by
    rw [getLength_at hlastAt, toNat_ofNat_length htagLen]
  have hheaderNonzero : ((encodeProtectedHeaderMap nonce).length != 0) = true := by
    simpa using Nat.pos_iff_ne_zero.mp hheaderPos
  have hlastNonzero : (tag.toList.length != 0) = true := by simp
  have hheaderCopy := @copyByteString_eq header map _ hheaderRead
    (List.replicate maxProtectedHeaderBstrSize 0)
    (by rw [List.length_replicate]; exact hheaderLen)
  have hcopied := @take_filled (encodeProtectedHeaderMap nonce)
    (List.replicate maxProtectedHeaderBstrSize 0)
    (by rw [List.length_replicate]; exact hheaderLen)
  have hpayloadCount : body.calculateStringLength = .ok payload.length := by
    unfold Value.calculateStringLength
    rw [hbodyRead]
    rfl
  have hpayloadRead : payloadAt body.ptr payload.length = .ok payload := by
    rw [hbodyAt.ptr]
    exact payloadAt_encode hpayload
  have hlastCopy := @copyByteString_eq last behind _ hlastRead staleTag.toList
    (by simp)
  have htag : filled tag.toList staleTag.toList = tag.toList :=
    filled_of_length_eq (by simp)
  have hleave : root.leaveContainer behind = .ok { root with
      ptr := behind.ptr, remaining := 0, type := invalidType } :=
    Value.preparseNext_last (by simp only [hrootAt.type]; decide) hrootLeft
  unfold deserializeProtectedMessage
  simp only [hinit, hisArray, hrootLength, hheader, isByteString_at hheaderAt,
    hheaderLength, hheaderNonzero, hheaderCopy, hcopied,
    deserializeProtectedHeader_encode, hisMap, hmapNext,
    isByteString_at hbodyAt, hpayloadCount, hpayloadRead, hbodyNext,
    isByteString_at hlastAt, hlastLength, hlastNonzero, hlastCopy, htag, hleave,
    beq_self_eq_true, orFail_ok, ok_bind, require_true]
  rfl

/-! The two buffers: what is signed and what is sent grow together. -/

theorem length_encodeByteString (s : List UInt8) :
    (encodeByteString s).length
      = (encodeNumber (UInt64.ofNat s.length) byteStringType).length
        + s.length := by
  unfold encodeByteString
  rw [List.length_append]
  rfl

theorem length_encodeByteString_short {s : List UInt8} (h : s.length < 24) :
    (encodeByteString s).length = 1 + s.length := by
  have hlt : UInt64.ofNat s.length < 24 := by
    apply UInt64.lt_iff_toNat_lt.mpr
    rw [toNat_ofNat_length (h.trans (by decide))]
    exact h
  rw [length_encodeByteString]
  unfold encodeNumber
  rw [if_pos hlt]
  rfl

theorem length_mac0MessageBytes (nonce : UInt32) (payload : List UInt8)
    (tag : Vector UInt8 8) :
    (mac0MessageBytes nonce payload tag).length
      = 12 + (encodeProtectedHeaderMap nonce).length
        + (encodeByteString payload).length := by
  have hheader := (length_encodeProtectedHeaderMap nonce).2
  have hlt : (encodeProtectedHeaderMap nonce).length < 24 :=
    hheader.trans_lt (by decide)
  have htag : (encodeByteString tag.toList).length = 9 := by
    rw [length_encodeByteString_short (by simp)]
    simp
  simp only [mac0MessageBytes, encodeArray, encodeMap, List.length_append,
    List.flatten_cons, List.flatten_nil, List.length_nil, List.map_nil,
    length_encodeByteString_short hlt, htag]
  simp [encodeNumber]
  omega

theorem length_macStructureBytes (nonce : UInt32) {aad : ExternalAad}
    (huri : aad.coapUri.length ≤ maxHumanReadableUriLength)
    (payload : List UInt8) :
    (macStructureBytes nonce aad payload).length
      = 9 + (encodeProtectedHeaderMap nonce).length + aad.coapUri.length
        + (encodeByteString payload).length := by
  have hheader := (length_encodeProtectedHeaderMap nonce).2
  have hlt : (encodeProtectedHeaderMap nonce).length < 24 :=
    hheader.trans_lt (by decide)
  have haad : (aad.coapMethod :: aad.coapUri).length < 24 := by
    rw [List.length_cons]
    unfold maxHumanReadableUriLength at huri
    omega
  have htext : (encodeTextString mac0ContextString).length = 5 := by decide
  have hhead : (encodeNumber 4 0x80).length = 1 := by decide
  rw [macStructureBytes_eq]
  simp only [List.length_append, List.length_nil,
    length_encodeByteString_short hlt, length_encodeByteString_short haad,
    List.length_cons, htext, hhead]
  omega

/-- A message that fits has a MAC structure that fits, with room to spare. -/
theorem macStructure_fits {nonce : UInt32} {aad : ExternalAad}
    (huri : aad.coapUri.length ≤ maxHumanReadableUriLength)
    {payload : List UInt8} {tag : Vector UInt8 8}
    (h : (mac0MessageBytes nonce payload tag).length ≤ maxCborPayloadSize) :
    (macStructureBytes nonce aad payload).length ≤ macStructureSize := by
  rw [length_mac0MessageBytes] at h
  rw [length_macStructureBytes nonce huri]
  simp only [maxCborPayloadSize, maxHumanReadableUriLength, macStructureSize,
    maxProtectedHeaderBstrSize] at *
  omega

theorem macParamsToMacStructure_ok {macParams : MacParams}
    {macStruct : List UInt8}
    (h : macParamsToMacStructure macParams = .ok macStruct) :
    macParams.aad.coapUri.length ≤ maxHumanReadableUriLength ∧
      macStruct = macStructureBytes macParams.nonceToProtect macParams.aad
        macParams.payload := by
  unfold macParamsToMacStructure at h
  by_cases huri : macParams.aad.coapUri.length > maxHumanReadableUriLength
  · rw [if_pos huri] at h
    cases h
  · rw [if_neg huri] at h
    dsimp only at h
    by_cases hsize : (macStructureBytes macParams.nonceToProtect macParams.aad
        macParams.payload).length > macStructureSize
    · rw [if_pos hsize] at h
      cases h
    · rw [if_neg hsize] at h
      injection h with h
      exact ⟨Nat.le_of_not_lt huri, h.symm⟩

/-- Where there is room, the structure is what is tagged. -/
theorem macParamsToMacStructure_fits {macParams : MacParams}
    (huri : macParams.aad.coapUri.length ≤ maxHumanReadableUriLength)
    (hsize : (macStructureBytes macParams.nonceToProtect macParams.aad
      macParams.payload).length ≤ macStructureSize) :
    macParamsToMacStructure macParams = .ok (macStructureBytes
      macParams.nonceToProtect macParams.aad macParams.payload) := by
  unfold macParamsToMacStructure
  rw [if_neg (Nat.not_lt.mpr huri)]
  dsimp only
  rw [if_neg (Nat.not_lt.mpr hsize)]

/-- The tag over everything a message says. -/
def messageTag (macParams : MacParams) : Vector UInt8 8 :=
  computeTag (macStructureBytes macParams.nonceToProtect macParams.aad
    macParams.payload) macParams.key

theorem signEncodeMessage_ok {macParams : MacParams} {outputSize : Nat}
    {bytes : List UInt8}
    (h : signEncodeMessage macParams outputSize = .ok bytes) :
    macParams.aad.coapUri.length ≤ maxHumanReadableUriLength ∧
      bytes = mac0MessageBytes macParams.nonceToProtect macParams.payload
        (messageTag macParams) ∧ bytes.length ≤ maxCborPayloadSize := by
  unfold signEncodeMessage at h
  by_cases hsmall : outputSize < maxCborPayloadSize
  · rw [if_pos hsmall] at h
    cases h
  · rw [if_neg hsmall] at h
    cases hstruct : macParamsToMacStructure macParams with
    | error e =>
        rw [hstruct] at h
        cases h
    | ok macStruct =>
        obtain ⟨huri, rfl⟩ := macParamsToMacStructure_ok hstruct
        rw [hstruct] at h
        dsimp only at h
        rw [← messageTag] at h
        by_cases hoverflow : (mac0MessageBytes macParams.nonceToProtect
            macParams.payload (messageTag macParams)).length > outputSize
        · rw [if_pos hoverflow] at h
          cases h
        · rw [if_neg hoverflow] at h
          by_cases hlarge : (mac0MessageBytes macParams.nonceToProtect
              macParams.payload (messageTag macParams)).length
                > maxCborPayloadSize
          · rw [if_pos hlarge] at h
            cases h
          · rw [if_neg hlarge] at h
            injection h with h
            subst h
            exact ⟨huri, rfl, Nat.le_of_not_lt hlarge⟩

/-- A message with a short URI that fits is signed. -/
theorem signEncodeMessage_fits {macParams : MacParams} {outputSize : Nat}
    (hsize : maxCborPayloadSize ≤ outputSize)
    (huri : macParams.aad.coapUri.length ≤ maxHumanReadableUriLength)
    (hfits : (mac0MessageBytes macParams.nonceToProtect macParams.payload
      (messageTag macParams)).length ≤ maxCborPayloadSize) :
    signEncodeMessage macParams outputSize = .ok (mac0MessageBytes
      macParams.nonceToProtect macParams.payload (messageTag macParams)) := by
  unfold signEncodeMessage
  rw [if_neg (Nat.not_lt.mpr hsize),
    macParamsToMacStructure_fits huri (macStructure_fits huri hfits)]
  dsimp only
  rw [← messageTag, if_neg (Nat.not_lt.mpr (hfits.trans hsize)),
    if_neg (Nat.not_lt.mpr hfits)]

/-- What was signed verifies. -/
theorem verifyMessage_sign {macParams : MacParams} {outputSize : Nat}
    {bytes : List UInt8}
    (h : signEncodeMessage macParams outputSize = .ok bytes)
    (staleTag : Vector UInt8 8) :
    verifyMessage macParams.key macParams.aad bytes staleTag
      = .ok (macParams.nonceToProtect, macParams.payload) := by
  obtain ⟨huri, rfl, hfits⟩ := signEncodeMessage_ok h
  have hshort : macParams.payload.length < 255 := by
    rw [length_mac0MessageBytes, length_encodeByteString] at hfits
    unfold maxCborPayloadSize at hfits
    omega
  have hstruct := macParamsToMacStructure_fits huri
    (macStructure_fits huri hfits)
  have htag : ((messageTag macParams).toList
      == (messageTag macParams).toList) = true := beq_self_eq_true _
  unfold verifyMessage
  rw [deserializeProtectedMessage_encode _ hshort]
  simp only [ok_bind, hstruct]
  rw [← messageTag, htag]
  rfl

/-- Signing and then verifying gives back the nonce and the payload, whatever
the receiver's memory held; and only a long URI or a message over the size keeps
a message from being signed, since the structure the tag is computed over fits
wherever the message does. -/
theorem sign_then_verify (macParams : MacParams) {outputSize : Nat}
    (hsize : maxCborPayloadSize ≤ outputSize) :
    (∀ bytes, signEncodeMessage macParams outputSize = .ok bytes →
      bytes.length ≤ maxCborPayloadSize ∧
      ∀ staleTag, verifyMessage macParams.key macParams.aad bytes staleTag
        = .ok (macParams.nonceToProtect, macParams.payload)) ∧
    (∀ error, signEncodeMessage macParams outputSize = .error error →
      macParams.aad.coapUri.length > maxHumanReadableUriLength ∨
      ∀ tag, (mac0MessageBytes macParams.nonceToProtect macParams.payload
        tag).length > maxCborPayloadSize) ∧
    (macParams.aad.coapUri.length ≤ maxHumanReadableUriLength →
      ∀ tag, (mac0MessageBytes macParams.nonceToProtect macParams.payload
        tag).length ≤ maxCborPayloadSize →
      (macStructureBytes macParams.nonceToProtect macParams.aad
        macParams.payload).length ≤ macStructureSize ∧
      (macStructureBytes macParams.nonceToProtect macParams.aad
        macParams.payload).length < 2 ^ 8) := by
  refine ⟨?_, ?_, ?_⟩
  · intro bytes hsigned
    exact ⟨(signEncodeMessage_ok hsigned).2.2, verifyMessage_sign hsigned⟩
  · intro error hfailed
    by_cases huri :
        macParams.aad.coapUri.length > maxHumanReadableUriLength
    · exact .inl huri
    · right
      intro tag
      apply Nat.lt_of_not_le
      intro hfits
      rw [length_mac0MessageBytes,
        ← length_mac0MessageBytes _ _ (messageTag macParams)] at hfits
      rw [signEncodeMessage_fits hsize (Nat.le_of_not_lt huri) hfits]
        at hfailed
      cases hfailed
  · intro huri tag hfits
    have hstruct := @macStructure_fits _ _ huri _ _ hfits
    exact ⟨hstruct, hstruct.trans_lt (by decide)⟩

/-- `GET nx/pc` with an empty map. -/
def getRequest : MacParams :=
  ⟨integrityCheckFixedFFKey, 7, ⟨1, [0x6E, 0x78, 0x2F, 0x70, 0x63]⟩, [0xA0]⟩

theorem sign_then_verify_get :
    verifyMessage integrityCheckFixedFFKey
      ⟨1, [0x6E, 0x78, 0x2F, 0x70, 0x63]⟩
      (mac0MessageBytes 7 [0xA0] (messageTag getRequest))
      (Vector.replicate 8 0x55)
      = .ok (7, [0xA0]) := by
  have hsigned := @signEncodeMessage_fits getRequest maxCborPayloadSize
    (Nat.le_refl _) (by decide) (by rw [length_mac0MessageBytes]; decide)
  exact ((sign_then_verify getRequest (Nat.le_refl _)).1 _ hsigned).2 _

/-! ## What verifies was tagged

The tag is copied into memory that was not cleared. A tag of eight bytes fills
it; behind a shorter one the copy puts a zero byte and leaves the rest as it
was, and the comparison is over all eight. -/

/-- The bytes of the fourth element, behind the header, the map and the
payload. -/
def tagElement (data : List UInt8) : Except Cbor.Error (List UInt8) := do
  let root ← parserInit data
  let header ← root.enterContainer
  let (_, unprotected) ← header.string
  let payload ← unprotected.advance
  let tag ← payload.advance
  if tag.isByteString then
    let (content, _) ← tag.string
    return content
  else .error .illegalType

/-- The memory shows in the tag and nowhere else: either reading fails whatever
it holds, or it reads the fourth element into it. -/
def ReadsTag (data : List UInt8)
    (read : Vector UInt8 8 → Except CoseError ExtractedCoseParams) : Prop :=
  (∃ error, ∀ staleTag, read staleTag = .error error) ∨
  ∃ nonce payload content, tagElement data = .ok content ∧
    content.length ≤ 8 ∧ ∀ staleTag, read staleTag
      = .ok ⟨nonce, payload, filled content staleTag.toList⟩

theorem ReadsTag.bind {data : List UInt8} {α : Type} {x : Except CoseError α}
    {f : Vector UInt8 8 → α → Except CoseError ExtractedCoseParams}
    (h : ∀ a, x = .ok a → ReadsTag data fun staleTag => f staleTag a) :
    ReadsTag data fun staleTag => x >>= f staleTag := by
  cases x with
  | error e => exact .inl ⟨e, fun _ => rfl⟩
  | ok a => exact h a rfl

theorem orFail_eq_ok {α : Type} {r : Except Cbor.Error α} {error : CoseError}
    {a : α} (h : orFail r error = .ok a) : r = .ok a := by
  unfold orFail at h
  cases r with
  | error e => cases h
  | ok b =>
      injection h with h
      rw [h]

theorem require_eq_ok {condition : Bool} {error : CoseError} {u : Unit}
    (h : require condition error = .ok u) : condition = true := by
  unfold require at h
  cases condition with
  | false => cases h
  | true => rfl

theorem copyByteString_ok {v next : Value} {buffer copied : List UInt8}
    {len : Nat} (h : v.copyByteString buffer = .ok (copied, len, next)) :
    ∃ content, v.string = .ok (content, next) ∧
      content.length ≤ buffer.length ∧ copied = filled content buffer := by
  unfold Value.copyByteString at h
  cases hstring : v.string with
  | error e =>
      rw [hstring] at h
      cases h
  | ok read =>
      obtain ⟨content, behind⟩ := read
      rw [hstring] at h
      dsimp only at h
      by_cases hlen : buffer.length < content.length
      · rw [if_pos hlen] at h
        cases h
      · rw [if_neg hlen] at h
        injection h with h
        injection h with hcopied h
        injection h with _ hnext
        rw [← hnext]
        exact ⟨content, rfl, Nat.le_of_not_lt hlen, hcopied.symm⟩

theorem readsTag_copy {data : List UInt8} {root tag : Value} {nonce : UInt32}
    {payload : List UInt8}
    (helement : ∀ content behind, tag.string = .ok (content, behind) →
      tagElement data = .ok content) :
    ReadsTag data fun staleTag => do
      let (copied, _, ary) ← orFail (tag.copyByteString staleTag.toList)
        .cborParser
      let _ ← orFail (root.leaveContainer ary) .cborParser
      return ⟨nonce, payload, copied⟩ := by
  cases hread : tag.string with
  | error e =>
      refine .inl ⟨.cborParser, fun staleTag => ?_⟩
      unfold Value.copyByteString
      rw [hread]
      rfl
  | ok read =>
      obtain ⟨content, behind⟩ := read
      by_cases hlong : 8 < content.length
      · refine .inl ⟨.cborParser, fun staleTag => ?_⟩
        unfold Value.copyByteString
        simp only [hread, Vector.length_toList, hlong, if_true]
        rfl
      · have hlen : content.length ≤ 8 := Nat.le_of_not_lt hlong
        have hcopy : ∀ staleTag : Vector UInt8 8,
            tag.copyByteString staleTag.toList
              = .ok (filled content staleTag.toList, content.length, behind) :=
          fun staleTag => copyByteString_eq hread (by simpa using hlen)
        simp only [hcopy, orFail_ok, ok_bind]
        refine ReadsTag.bind fun _ _ => ?_
        exact .inr ⟨nonce, payload, content, helement content behind hread,
          hlen, fun _ => rfl⟩

theorem readsTag_deserialize (data : List UInt8) :
    ReadsTag data (deserializeProtectedMessage data) := by
  unfold deserializeProtectedMessage
  refine ReadsTag.bind fun root hroot => ?_
  refine ReadsTag.bind fun _ _ => ?_
  refine ReadsTag.bind fun _ _ => ?_
  refine ReadsTag.bind fun _ _ => ?_
  refine ReadsTag.bind fun header hheader => ?_
  refine ReadsTag.bind fun _ _ => ?_
  refine ReadsTag.bind fun _ _ => ?_
  refine ReadsTag.bind fun _ _ => ?_
  refine ReadsTag.bind fun copied hcopied => ?_
  obtain ⟨bytes, len, unprotected⟩ := copied
  refine ReadsTag.bind fun _ _ => ?_
  refine ReadsTag.bind fun _ _ => ?_
  refine ReadsTag.bind fun payload hpayload => ?_
  refine ReadsTag.bind fun _ _ => ?_
  refine ReadsTag.bind fun _ _ => ?_
  refine ReadsTag.bind fun _ _ => ?_
  refine ReadsTag.bind fun tag htag => ?_
  refine ReadsTag.bind fun _ hstring => ?_
  refine ReadsTag.bind fun _ _ => ?_
  refine ReadsTag.bind fun _ _ => ?_
  obtain ⟨_, hheaderRead, -⟩ := copyByteString_ok (orFail_eq_ok hcopied)
  refine readsTag_copy fun content behind hread => ?_
  unfold tagElement
  simp only [orFail_eq_ok hroot, orFail_eq_ok hheader, hheaderRead,
    orFail_eq_ok hpayload, orFail_eq_ok htag, require_eq_ok hstring, hread,
    ok_bind, if_true]
  rfl

theorem prefix_filled {content buffer : List UInt8}
    (h : content.length < buffer.length) :
    content ++ [0] <+: filled content buffer := by
  unfold filled
  rw [List.take_append, List.take_of_length_le
    (by rw [List.length_append, List.length_singleton]; omega)]
  exact List.prefix_append _ _

/-- A string the memory already held, with its zero byte, is no change. -/
theorem filled_of_begins {content buffer : List UInt8}
    (h : content ++ [0] <+: buffer) : filled content buffer = buffer := by
  obtain ⟨rest, rfl⟩ := h
  unfold filled
  have hdrop : (content ++ [0] ++ rest).drop (content.length + 1) = rest := by
    rw [List.drop_append_of_le_length (by simp), List.drop_of_length_le
      (by simp), List.nil_append]
  rw [hdrop, List.take_length]

/-- Memory that was cleared. -/
def zeroTag : Vector UInt8 8 := Vector.replicate 8 0

/-- The message can be read, its tag has fewer than eight bytes, and the right
tag begins with them and a zero byte. -/
def ShortTagBegins (key : CheckKey) (aad : ExternalAad) (data : List UInt8) :
    Prop :=
  ∃ extracted macStruct content,
    deserializeProtectedMessage data zeroTag = .ok extracted ∧
    macParamsToMacStructure ⟨key, extracted.nonce, aad, extracted.payload⟩
      = .ok macStruct ∧
    tagElement data = .ok content ∧ content.length < 8 ∧
    content ++ [0] <+: (computeTag macStruct key).toList

/-- What verifies carries the whole tag over what it says. -/
def VerifiesSoundly (key : CheckKey) (aad : ExternalAad)
    (data : List UInt8) : Prop :=
  ∀ staleTag nonce payload,
    verifyMessage key aad data staleTag = .ok (nonce, payload) →
    tagElement data = .ok (messageTag ⟨key, nonce, aad, payload⟩).toList

/-- What the memory held does not decide. -/
def MemoryIndependent (key : CheckKey) (aad : ExternalAad)
    (data : List UInt8) : Prop :=
  ∀ staleTag staleTag', verifyMessage key aad data staleTag
    = verifyMessage key aad data staleTag'

/-- Verification, where the message can be read and its MAC structure built. -/
theorem verifyMessage_eq {key : CheckKey} {aad : ExternalAad}
    {data : List UInt8} {nonce : UInt32} {payload content : List UInt8}
    (hread : ∀ staleTag : Vector UInt8 8,
      deserializeProtectedMessage data staleTag
        = .ok ⟨nonce, payload, filled content staleTag.toList⟩)
    {macStruct : List UInt8}
    (hstruct : macParamsToMacStructure ⟨key, nonce, aad, payload⟩
      = .ok macStruct) (staleTag : Vector UInt8 8) :
    verifyMessage key aad data staleTag
      = if (computeTag macStruct key).toList = filled content staleTag.toList
        then .ok (nonce, payload) else .error .macTagInvalid := by
  unfold verifyMessage
  simp only [hread, ok_bind, hstruct, require, beq_iff_eq]
  by_cases htag : (computeTag macStruct key).toList
      = filled content staleTag.toList
  · rw [if_pos htag, if_pos htag]
    rfl
  · rw [if_neg htag, if_neg htag]
    rfl

theorem verifyMessage_cases (key : CheckKey) (aad : ExternalAad)
    (data : List UInt8) :
    (∃ error, ∀ staleTag, verifyMessage key aad data staleTag
      = .error error) ∨
    ∃ nonce payload content macStruct, tagElement data = .ok content ∧
      content.length ≤ 8 ∧
      (∀ staleTag, deserializeProtectedMessage data staleTag
        = .ok ⟨nonce, payload, filled content staleTag.toList⟩) ∧
      macParamsToMacStructure ⟨key, nonce, aad, payload⟩ = .ok macStruct := by
  rcases readsTag_deserialize data with ⟨error, hread⟩ |
    ⟨nonce, payload, content, helement, hlen, hread⟩
  · refine .inl ⟨error, fun staleTag => ?_⟩
    unfold verifyMessage
    rw [hread]
    rfl
  · cases hstruct : macParamsToMacStructure ⟨key, nonce, aad, payload⟩ with
    | error e =>
        refine .inl ⟨e, fun staleTag => ?_⟩
        unfold verifyMessage
        simp only [hread, ok_bind, hstruct]
        rfl
    | ok macStruct =>
        exact .inr ⟨nonce, payload, content, macStruct, helement, hlen, hread,
          hstruct⟩

/-- A short tag is compared with the memory behind it, so verification is sound
and indifferent to the memory exactly where no short tag begins the right
one. -/
theorem verifies_soundly_iff (key : CheckKey) (aad : ExternalAad)
    (data : List UInt8) :
    (VerifiesSoundly key aad data ∧ MemoryIndependent key aad data) ↔
      ¬ ShortTagBegins key aad data := by
  constructor
  · rintro ⟨hsound, -⟩ ⟨extracted, macStruct, content, hread, hstruct, helement,
      hshort, hbegins⟩
    -- memory that happens to hold the right tag makes the short one whole
    rcases readsTag_deserialize data with ⟨error, hfails⟩ |
      ⟨nonce, payload, content', helement', -, hreads⟩
    · rw [hfails] at hread
      cases hread
    · rw [hreads] at hread
      injection hread with hread
      subst hread
      rw [helement'] at helement
      injection helement with helement
      subst helement
      have hverified := verifyMessage_eq hreads hstruct (computeTag macStruct key)
      rw [if_pos (filled_of_begins hbegins).symm] at hverified
      have hwhole := hsound _ _ _ hverified
      rw [helement'] at hwhole
      injection hwhole with hwhole
      rw [hwhole, Vector.length_toList] at hshort
      exact Nat.lt_irrefl 8 hshort
  · intro hno
    rcases verifyMessage_cases key aad data with ⟨error, hfails⟩ |
      ⟨nonce, payload, content, macStruct, helement, hlen, hreads, hstruct⟩
    · refine ⟨?_, ?_⟩
      · intro staleTag nonce payload hverified
        rw [hfails] at hverified
        cases hverified
      · intro staleTag staleTag'
        rw [hfails, hfails]
    · by_cases hwhole : content.length = 8
      · -- a whole tag covers the memory
        have hfilled : ∀ staleTag : Vector UInt8 8,
            filled content staleTag.toList = content :=
          fun staleTag => filled_of_length_eq (by rw [hwhole]; simp)
        refine ⟨?_, ?_⟩
        · intro staleTag nonce' payload' hverified
          rw [verifyMessage_eq hreads hstruct, hfilled] at hverified
          by_cases htag : (computeTag macStruct key).toList = content
          · rw [if_pos htag] at hverified
            cases hverified
            rw [helement, ← htag, (macParamsToMacStructure_ok hstruct).2]
            rfl
          · rw [if_neg htag] at hverified
            cases hverified
        · intro staleTag staleTag'
          rw [verifyMessage_eq hreads hstruct, verifyMessage_eq hreads hstruct,
            hfilled, hfilled]
      · -- a short one never passes
        have hshort : content.length < 8 := Nat.lt_of_le_of_ne hlen hwhole
        have hdiffers : ∀ staleTag : Vector UInt8 8,
            ¬ (computeTag macStruct key).toList
              = filled content staleTag.toList := by
          intro staleTag htag
          refine hno ⟨_, macStruct, content, hreads zeroTag, hstruct, helement,
            hshort, ?_⟩
          rw [htag]
          exact prefix_filled (by simpa using hshort)
        refine ⟨?_, ?_⟩
        · intro staleTag nonce' payload' hverified
          rw [verifyMessage_eq hreads hstruct,
            if_neg (hdiffers staleTag)] at hverified
          cases hverified
        · intro staleTag staleTag'
          rw [verifyMessage_eq hreads hstruct, if_neg (hdiffers staleTag),
            verifyMessage_eq hreads hstruct, if_neg (hdiffers staleTag')]

/-- `GET nx/pc` under nonce 313 with a tag of one byte. -/
def oneByteTagMessage : List UInt8 :=
  [0x84, 0x45, 0xA1, 0x05, 0x19, 0x01, 0x39, 0xA0, 0x41, 0xA0, 0x41, 0x6C]

/-- One byte is accepted as the tag over memory that holds the rest, and not
over memory that was cleared. -/
theorem one_byte_tag_verifies :
    verifyMessage integrityCheckFixedFFKey ⟨1, [0x6E, 0x78, 0x2F, 0x70, 0x63]⟩
      oneByteTagMessage #v[0, 0, 0x9B, 0x8E, 0x48, 0xB6, 0xFE, 0xF9]
      = .ok (313, [0xA0]) ∧
    verifyMessage integrityCheckFixedFFKey ⟨1, [0x6E, 0x78, 0x2F, 0x70, 0x63]⟩
      oneByteTagMessage zeroTag = .error .macTagInvalid ∧
    tagElement oneByteTagMessage = .ok [0x6C] ∧
    ¬ (VerifiesSoundly integrityCheckFixedFFKey
        ⟨1, [0x6E, 0x78, 0x2F, 0x70, 0x63]⟩ oneByteTagMessage ∧
      MemoryIndependent integrityCheckFixedFFKey
        ⟨1, [0x6E, 0x78, 0x2F, 0x70, 0x63]⟩ oneByteTagMessage) := by
  have haccepted : verifyMessage integrityCheckFixedFFKey
      ⟨1, [0x6E, 0x78, 0x2F, 0x70, 0x63]⟩ oneByteTagMessage
      #v[0, 0, 0x9B, 0x8E, 0x48, 0xB6, 0xFE, 0xF9] = .ok (313, [0xA0]) := by
    decide +kernel
  have hrefused : verifyMessage integrityCheckFixedFFKey
      ⟨1, [0x6E, 0x78, 0x2F, 0x70, 0x63]⟩ oneByteTagMessage zeroTag
      = .error .macTagInvalid := by
    decide +kernel
  refine ⟨haccepted, hrefused, by decide +kernel, ?_⟩
  rintro ⟨-, hindependent⟩
  have hsame := hindependent #v[0, 0, 0x9B, 0x8E, 0x48, 0xB6, 0xFE, 0xF9] zeroTag
  rw [haccepted, hrefused] at hsame
  cases hsame

end Nexus.Channel
