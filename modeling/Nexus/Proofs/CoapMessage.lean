import Nexus.Proofs.CoapParsing

/-!
# Whole messages

`readMessage` reads a message off its bytes: header, token, options, payload. It
has no answer where the header or the token is cut short. Everywhere else the
parser comes to the same answer, and it touches nothing outside of the options
and the payload but the byte behind them.

Where there is no answer the parser reads on past the message, so what it makes
of the message depends on what was there before. And an option number is set in
a map of eighty bits before anybody has looked at it.
-/

namespace Nexus.Channel.Coap

open Nexus.Lib

/-- What a message says. -/
structure Message where
  type : CoapType
  code : UInt8
  mid : UInt16
  token : List UInt8
  fields : Fields
deriving DecidableEq

/-- The token of a packet. -/
def Packet.tokenBytes (pkt : Packet) : List UInt8 :=
  if pkt.tokenLen = 0 then [] else [pkt.token]

/-- What a packet in memory says. -/
def Packet.message (pkt : Packet) (m : Mem) : Message where
  type := pkt.type
  code := pkt.code
  mid := pkt.mid
  token := pkt.tokenBytes
  fields := pkt.fields m

/-- A message off its bytes; none where its header or its token is cut short. A
header that is refused leaves the token zero. -/
def readMessage : List UInt8 → Option (ParseStatus × Message)
  | b :: code :: high :: low :: body =>
      let message : List UInt8 → Fields → Message :=
        .mk (typeOfBits ((b &&& 0x30) >>> 4)) code
          (high.toUInt16 <<< 8 ||| low.toUInt16)
      if (b &&& 0xC0) >>> 6 ≠ 1 ∨ (b &&& 0x0F) > 1 then
        some (.badRequest400,
          message (if b &&& 0x0F = 0 then [] else [0]) .none)
      else if b &&& 0x0F = 0 then
        let (status, fields) := readBody 0 .none body
        some (status, message [] fields)
      else
        match body with
        | [] => none
        | token :: body =>
            let (status, fields) := readBody 0 .none body
            some (status, message [token] fields)
  | _ => none

/-- The options of a message and what follows them. -/
def messageBody : List UInt8 → List (Nat × List UInt8) × List UInt8
  | b :: _ :: _ :: _ :: body => bodyOf 0 (body.drop (b &&& 0x0F).toNat)
  | _ => ([], [])

/-- The header is one the parser goes on from. -/
def Accepted (b : UInt8) : Prop :=
  (b &&& 0xC0) >>> 6 = 1 ∧ (b &&& 0x0F) ≤ 1

instance (b : UInt8) : Decidable (Accepted b) :=
  inferInstanceAs (Decidable (_ ∧ _))

variable {m : Mem} {data dataLen : Nat} {b code high low : UInt8}
  {body : List UInt8}

theorem tokenLen_cases (h : (b &&& 0x0F) ≤ 1) :
    b &&& 0x0F = 0 ∨ b &&& 0x0F = 1 := by
  have h' := UInt8.le_iff_toNat_le.mp h
  rcases Nat.le_one_iff_eq_zero_or_eq_one.mp h' with hzero | hone
  · exact .inl (UInt8.toNat_inj.mp hzero)
  · exact .inr (UInt8.toNat_inj.mp hone)

/-! ## The header -/

/-- A message in memory, its header apart. -/
theorem slice_header (h : Memory.slice m data dataLen
      = b :: code :: high :: low :: body) :
    m data = b ∧ m (data + 1) = code ∧ m (data + 2) = high
      ∧ m (data + 3) = low ∧ dataLen = body.length + 4
      ∧ body = remaining m (data + 4) (data + dataLen) := by
  have hlength : dataLen = body.length + 4 := by
    have := congrArg List.length h
    simpa using this
  have hsub : data + (body.length + 4) - (data + 4) = body.length := by omega
  subst hlength
  rw [Memory.slice_succ, Memory.slice_succ, Memory.slice_succ,
    Memory.slice_succ] at h
  simp only [List.cons.injEq] at h
  obtain ⟨hb, hcode, hhigh, hlow, hbody⟩ := h
  refine ⟨hb, hcode, hhigh, hlow, rfl, ?_⟩
  rw [remaining, hsub]
  exact hbody.symm

theorem parse_refused (h : ¬ Accepted (m data)) :
    coapUdpParseMessage m data dataLen
      = (.badRequest400, m, parseHeaderFields m data) := by
  simp only [coapUdpParseMessage]
  split
  · rfl
  next hversion =>
    have hlong : (parseHeaderFields m data).tokenLen > 1 := by
      by_contra hle
      exact h ⟨not_not.mp hversion, UInt8.not_lt.mp hle⟩
    rw [if_pos hlong]

/-- The packet the options are read into. -/
def startPacket (m : Mem) (data : Nat) : Packet :=
  if m data &&& 0x0F = 0 then parseHeaderFields m data
  else { parseHeaderFields m data with token := m (data + 4) }

theorem startPacket_placed (lo current : Nat) :
    (startPacket m data).Placed lo current 0 := by
  have hpath : (startPacket m data).uriPath.length = 0 := by
    simp only [startPacket]
    split <;> rfl
  have hquery : (startPacket m data).uriQuery.length = 0 := by
    simp only [startPacket]
    split <;> rfl
  refine ⟨?_, ?_, ?_⟩
  · intro hpos
    omega
  · intro hpos
    omega
  · simp only [startPacket]
    split <;> rfl

theorem startPacket_fields : (startPacket m data).fields m = .none := by
  simp only [startPacket]
  split <;> rfl

theorem startPacket_options : (startPacket m data).options = [] := by
  simp only [startPacket]
  split <;> rfl

theorem parse_accepted (h : Accepted (m data)) :
    coapUdpParseMessage m data dataLen
      = parseOptionsLoop (data + dataLen) dataLen
          (data + 4 + (m data &&& 0x0F).toNat) 0 m (startPacket m data) := by
  have hlen : ¬ (parseHeaderFields m data).tokenLen > 1 :=
    UInt8.not_lt.mpr h.2
  simp only [coapUdpParseMessage, h.1, ne_eq, not_true_eq_false, if_false,
    if_neg hlen, coapParseTokenOption, startPacket]
  by_cases hzero : m data &&& 0x0F = 0
  · simp only [hzero, parseHeaderFields, if_true]
    rfl
  · simp only [hzero, parseHeaderFields, if_false]
    rfl

/-- The parser on a header it goes on from. -/
theorem readsBody_parse (dataLen : Nat) (h : Accepted (m data)) :
    ReadsBody m (startPacket m data) (data + 4) (data + dataLen) 0
      (remaining m (data + 4 + (m data &&& 0x0F).toNat) (data + dataLen))
      (coapUdpParseMessage m data dataLen) := by
  rw [parse_accepted h]
  exact readsBody_loop (by omega) (startPacket_placed _ _)
    (Nat.le_add_right _ _)

/-! ## The header of what was parsed -/

/-- Type, code, message id and token of a packet are those of the header. -/
theorem sameHeader_parse :
    (if Accepted (m data) then startPacket m data
      else parseHeaderFields m data).SameHeader
        (coapUdpParseMessage m data dataLen).2.2 := by
  by_cases h : Accepted (m data)
  · rw [if_pos h]
    exact (readsBody_parse _ h).header
  · rw [if_neg h, parse_refused h]
    exact .refl _

theorem mid_parse : (coapUdpParseMessage m data dataLen).2.2.mid
    = (m (data + 2)).toUInt16 <<< 8 ||| (m (data + 3)).toUInt16 := by
  rw [sameHeader_parse.2.2.1]
  by_cases h : Accepted (m data)
  · simp only [if_pos h, startPacket]
    split <;> rfl
  · rw [if_neg h]
    rfl

theorem token_parse (h : Accepted (m data)) (hone : m data &&& 0x0F = 1) :
    (coapUdpParseMessage m data dataLen).2.2.tokenBytes = [m (data + 4)] := by
  have hsame := (readsBody_parse dataLen h).header
  obtain ⟨-, -, -, hlen, htoken⟩ := hsame
  have hstart : startPacket m data
      = { parseHeaderFields m data with token := m (data + 4) } := by
    simp [startPacket, hone]
  rw [hstart] at hlen htoken
  have hlen' : (coapUdpParseMessage m data dataLen).2.2.tokenLen = 1 :=
    hlen.trans hone
  have htoken' : (coapUdpParseMessage m data dataLen).2.2.token
      = m (data + 4) := htoken
  rw [Packet.tokenBytes, hlen', htoken', if_neg (by decide)]

/-! ## In place -/

theorem readMessage_eq_some {bytes : List UInt8} {r : ParseStatus × Message}
    (h : readMessage bytes = some r) :
    ∃ b code high low body, bytes = b :: code :: high :: low :: body := by
  match bytes with
  | b :: code :: high :: low :: body => exact ⟨b, code, high, low, body, rfl⟩
  | [] | [_] | [_, _] | [_, _, _] => cases h

/-- Header, token and the rest of a message that can be read. -/
theorem readMessage_accepted {r : ParseStatus × Message} (h : Accepted b)
    (hread : readMessage (b :: code :: high :: low :: body) = some r) :
    (b &&& 0x0F).toNat ≤ body.length
      ∧ r = ((readBody 0 .none (body.drop (b &&& 0x0F).toNat)).1,
          ⟨typeOfBits ((b &&& 0x30) >>> 4), code,
            high.toUInt16 <<< 8 ||| low.toUInt16,
            body.take (b &&& 0x0F).toNat,
            (readBody 0 .none (body.drop (b &&& 0x0F).toNat)).2⟩) := by
  have hlong : ¬ (b &&& 0x0F) > 1 := UInt8.not_lt.mpr h.2
  simp only [readMessage, h.1, ne_eq, not_true_eq_false, hlong, or_self,
    if_false] at hread
  rcases tokenLen_cases h.2 with hzero | hone
  · simp only [hzero, if_true, Option.some.injEq] at hread ⊢
    exact ⟨Nat.zero_le _, hread.symm⟩
  · simp only [hone, show ¬ (1 : UInt8) = 0 by decide, if_false] at hread ⊢
    cases body with
    | nil => cases hread
    | cons token body =>
        simp only [Option.some.injEq] at hread
        exact ⟨Nat.le_add_left 1 _, hread.symm⟩

theorem readMessage_refused (h : ¬ Accepted b) :
    readMessage (b :: code :: high :: low :: body)
      = some (.badRequest400,
          ⟨typeOfBits ((b &&& 0x30) >>> 4), code,
            high.toUInt16 <<< 8 ||| low.toUInt16,
            if b &&& 0x0F = 0 then [] else [0], .none⟩) := by
  have hcond : (b &&& 0xC0) >>> 6 ≠ 1 ∨ (b &&& 0x0F) > 1 := by
    rw [Accepted, not_and_or] at h
    exact h.imp_right fun hlong => UInt8.not_le.mp hlong
  simp only [readMessage, if_pos hcond]

/-- The message of the packet the options are read into, with its fields. -/
theorem message_of_header {pkt : Packet} {m' : Mem} {f : Fields}
    (hsame : (startPacket m data).SameHeader pkt)
    (hfields : pkt.fields m' = f) (h : Accepted (m data)) :
    pkt.message m' = ⟨typeOfBits ((m data &&& 0x30) >>> 4), m (data + 1),
      (m (data + 2)).toUInt16 <<< 8 ||| (m (data + 3)).toUInt16,
      if m data &&& 0x0F = 0 then [] else [m (data + 4)], f⟩ := by
  obtain ⟨htype, hcode, hmid, hlen, htoken⟩ := hsame
  rcases tokenLen_cases h.2 with hzero | hone
  · have hstart : startPacket m data = parseHeaderFields m data := by
      simp [startPacket, hzero]
    rw [hstart] at htype hcode hmid hlen
    have hlen' : pkt.tokenLen = 0 := hlen.trans hzero
    simp only [Packet.message, Packet.tokenBytes, htype, hcode, hmid, hlen',
      hfields, hzero, if_true]
    rfl
  · have hstart : startPacket m data
        = { parseHeaderFields m data with token := m (data + 4) } := by
      simp [startPacket, hone]
    rw [hstart] at htype hcode hmid hlen htoken
    have hlen' : pkt.tokenLen = 1 := hlen.trans hone
    simp only [Packet.message, Packet.tokenBytes, htype, hcode, hmid, hlen',
      htoken, hfields, hone, show ¬ (1 : UInt8) = 0 by decide, if_false]
    rfl

/-- A payload, behind its marker, that is not cut. -/
def fitsUncut : List UInt8 → Bool
  | [] => false
  | _ :: payload => payload.length ≤ maxCborPayloadSize

/-- There is a payload, and it is not cut. -/
def payloadFits (bytes : List UInt8) : Bool := fitsUncut (messageBody bytes).2

theorem stop_of_readsBody {pkt : Packet} {lo stop : Nat} {bytes : List UInt8}
    {r : ParseStatus × Mem × Packet}
    (h : ReadsBody m pkt lo stop 0 bytes r) :
    r.2.1 stop
      = if r.1 = .noError ∧ fitsUncut (bodyOf 0 bytes).2 = true then 0
        else m stop := by
  cases htail : (bodyOf 0 bytes).2 with
  | nil =>
      rw [if_neg (by simp [fitsUncut])]
      refine h.kept ?_
      intro _ b payload hcons
      rw [htail] at hcons
      cases hcons
  | cons b payload =>
      by_cases hfits : payload.length ≤ maxCborPayloadSize
      · by_cases hno : r.1 = .noError
        · rw [if_pos ⟨hno, by simpa [fitsUncut] using hfits⟩]
          exact h.zeroed hno b payload htail hfits
        · rw [if_neg (by simp [hno])]
          exact h.kept fun hno' => absurd hno' hno
      · rw [if_neg (by simp [fitsUncut, hfits])]
        refine h.kept ?_
        intro _ b' payload' hcons
        rw [htail] at hcons
        obtain ⟨-, rfl⟩ := List.cons.inj hcons
        exact Nat.lt_of_not_le hfits

/-- A message that can be read off its bytes is parsed, where it lies, to just
that. Nothing changes outside of its options and its payload but the byte behind
it, which becomes zero behind a payload that is not cut. -/
theorem parsed_in_place {status : ParseStatus} {message : Message}
    (h : readMessage (Memory.slice m data dataLen) = some (status, message)) :
    let r := coapUdpParseMessage m data dataLen
    r.1 = status ∧ r.2.2.message r.2.1 = message
      ∧ (∀ i, i < data + 4 ∨ data + dataLen < i → r.2.1 i = m i)
      ∧ r.2.1 (data + dataLen)
        = if status = .noError
            ∧ payloadFits (Memory.slice m data dataLen) = true then 0
          else m (data + dataLen) := by
  obtain ⟨b, code, high, low, body, hbytes⟩ := readMessage_eq_some h
  obtain ⟨hb, hcode, hhigh, hlow, -, hbody⟩ := slice_header hbytes
  rw [hbytes] at h ⊢
  by_cases haccepted : Accepted b
  · obtain ⟨hlen, hread⟩ := readMessage_accepted haccepted h
    rw [← hb] at haccepted
    have hreads := readsBody_parse dataLen haccepted
    have hrest : remaining m (data + 4 + (m data &&& 0x0F).toNat)
        (data + dataLen) = body.drop (b &&& 0x0F).toNat := by
      rw [hbody, drop_remaining, hb]
    rw [hrest] at hreads
    have hmessage := message_of_header hreads.header hreads.fields haccepted
    have hstop := stop_of_readsBody hreads
    have hstatus := hreads.status
    rw [startPacket_fields] at hstatus hmessage
    obtain ⟨rfl, rfl⟩ := Prod.mk.inj hread
    refine ⟨hstatus, hmessage.trans ?_, ?_, hstop.trans ?_⟩
    · rw [hb, hcode, hhigh, hlow]
      have htoken : (if b &&& 0x0F = 0 then [] else [m (data + 4)])
          = body.take (b &&& 0x0F).toNat := by
        rw [hb] at haccepted
        rcases tokenLen_cases haccepted.2 with hzero | hone
        · simp [hzero]
        · rw [hone] at hlen ⊢
          have hlt : data + 4 < data + dataLen := by
            have := congrArg List.length hbody
            rw [length_remaining] at this
            simp only [UInt8.reduceToNat] at hlen
            omega
          rw [hbody, remaining_cons hlt]
          rfl
      rw [htoken]
    · intro i hi
      rcases hi with hlo | hhi
      · exact hreads.before i hlo
      · exact hreads.behind i hhi
    · rw [hstatus]
      rfl
  · rw [readMessage_refused haccepted] at h
    obtain ⟨rfl, rfl⟩ := Prod.mk.inj (Option.some.inj h)
    rw [← hb] at haccepted
    rw [parse_refused haccepted]
    refine ⟨rfl, ?_, fun _ _ => rfl, by simp⟩
    simp only [Packet.message, Packet.tokenBytes, parseHeaderFields,
      Packet.init, hb, hcode, hhigh, hlow]
    rfl

/-- A request of `nx/pc` with a payload of one byte. -/
theorem parsed_in_place_request :
    let bytes : List UInt8 := [0x51, 2, 0x12, 0x34, 7, 0xB2, 0x6E, 0x78, 2,
      0x70, 0x63, 0x11, 17, 0xFF, 0xA0]
    let r := coapUdpParseMessage (Memory.put (fun _ => 0xEE) 100 bytes) 100 15
    r.1 = .noError
      ∧ r.2.2.message r.2.1 = ⟨.non, 2, 0x1234, [7],
          ⟨17, [0x6E, 0x78, 0x2F, 0x70, 0x63], [], [0xA0]⟩⟩
      ∧ r.2.1 115 = 0 := by
  have hread : readMessage (Memory.slice
      (Memory.put (fun _ => 0xEE) 100 [0x51, 2, 0x12, 0x34, 7, 0xB2, 0x6E, 0x78,
        2, 0x70, 0x63, 0x11, 17, 0xFF, 0xA0]) 100 15)
      = some (.noError, ⟨.non, 2, 0x1234, [7],
          ⟨17, [0x6E, 0x78, 0x2F, 0x70, 0x63], [], [0xA0]⟩⟩) := by
    decide +kernel
  have hparsed := parsed_in_place hread
  exact ⟨hparsed.1, hparsed.2.1, hparsed.2.2.2.trans (by decide +kernel)⟩

/-! ## Messages that are cut short -/

/-- The header or the token of a message is not all there. -/
def CutShort : List UInt8 → Prop
  | [b, _, _, _] => (b &&& 0xC0) >>> 6 = 1 ∧ b &&& 0x0F = 1
  | _ :: _ :: _ :: _ :: _ => False
  | _ => True

theorem readMessage_none_iff {bytes : List UInt8} :
    readMessage bytes = none ↔ CutShort bytes := by
  rcases bytes with _ | ⟨b, _ | ⟨code, _ | ⟨high, _ | ⟨low, body⟩⟩⟩⟩
  · exact iff_of_true rfl trivial
  · exact iff_of_true rfl trivial
  · exact iff_of_true rfl trivial
  · exact iff_of_true rfl trivial
  by_cases h : Accepted b
  · have hlong : ¬ (b &&& 0x0F) > 1 := UInt8.not_lt.mpr h.2
    rcases body with _ | ⟨token, body⟩
    · rcases tokenLen_cases h.2 with hzero | hone
      · simp [readMessage, CutShort, h.1, hzero]
      · simp [readMessage, CutShort, h.1, hone]
    · simp only [readMessage, CutShort, h.1, hlong, ne_eq, not_true_eq_false,
        or_self, if_false]
      split <;> simp
  · rw [readMessage_refused h]
    refine iff_of_false (Option.some_ne_none _) ?_
    intro hcut
    rcases body with _ | ⟨token, body⟩
    · obtain ⟨hversion, hlen⟩ := hcut
      exact h ⟨hversion, by rw [hlen]; decide⟩
    · exact hcut

/-- What the parser makes of bytes at `data`, whatever lies around them. -/
def ReadsOwnBytes (data : Nat) (bytes : List UInt8) : Prop :=
  ∃ found, ∀ m, Memory.slice m data bytes.length = bytes →
    let r := coapUdpParseMessage m data bytes.length
    (r.1, r.2.2.message r.2.1) = found

theorem mid_low_ne (a a' : UInt8) :
    a.toUInt16 <<< 8 ||| (0 : UInt8).toUInt16
      ≠ a'.toUInt16 <<< 8 ||| (1 : UInt8).toUInt16 := by
  intro h
  have hbit := congrArg (fun x : UInt16 => x.toBitVec.getLsbD 0) h
  simp at hbit

theorem not_readsOwnBytes {bytes : List UInt8} (h : CutShort bytes) :
    ¬ ReadsOwnBytes data bytes := by
  rintro ⟨found, hfound⟩
  have hzero := hfound (Memory.put (fun _ => 0) data bytes)
    Memory.slice_put_self
  have hone := hfound (Memory.put (fun _ => 1) data bytes)
    Memory.slice_put_self
  have hsame := congrArg Prod.snd (hzero.trans hone.symm)
  rcases Nat.lt_or_ge bytes.length 4 with hlt | hge
  · have hmid := congrArg Message.mid hsame
    simp only [Packet.message, mid_parse] at hmid
    rw [Memory.put_of_le (i := data + 3) (by omega),
      Memory.put_of_le (i := data + 3) (by omega)] at hmid
    exact mid_low_ne _ _ hmid
  · match bytes, h with
    | [b, code, high, low], h =>
        have htoken := congrArg Message.token hsame
        have haccepted : Accepted b := ⟨h.1, by rw [h.2]; decide⟩
        have hb (x : UInt8) :
            Memory.put (fun _ => x) data [b, code, high, low] data = b := by
          simp [Memory.put]
        have hx (x : UInt8) :
            Memory.put (fun _ => x) data [b, code, high, low] (data + 4)
              = x := Memory.put_of_le le_rfl
        simp only [Packet.message] at htoken
        rw [token_parse (by rw [hb]; exact haccepted) (by rw [hb]; exact h.2),
          token_parse (by rw [hb]; exact haccepted) (by rw [hb]; exact h.2),
          hx, hx] at htoken
        simp at htoken

/-- The numbers of the options of a message, in order, up to the first that is
refused. -/
def messageNumbers : List UInt8 → List Nat
  | b :: code :: high :: low :: body =>
      if Accepted b then
        Fields.none.visited (messageBody (b :: code :: high :: low :: body)).1
      else []
  | _ => []

/-- The last option of a message is complete. -/
def OptionsComplete (bytes : List UInt8) : Prop :=
  Tagged.Ends optionCode (messageBody bytes).2

/-- A bit is set for every option of a message up to the first that is refused,
that one too, and only the bits below 80 are in the map: the parser stays within
the packet exactly if none of these numbers is greater. -/
theorem options_in_map_iff {bytes : List UInt8} {m : Mem} {data : Nat}
    (hbytes : Memory.slice m data bytes.length = bytes)
    (hcut : ¬ CutShort bytes) (hcomplete : OptionsComplete bytes) :
    (∀ n ∈ (coapUdpParseMessage m data bytes.length).2.2.options,
        n < optionBits)
      ↔ ∀ n ∈ messageNumbers bytes, n < optionBits := by
  rw [← readMessage_none_iff, ← ne_eq, Option.ne_none_iff_exists'] at hcut
  obtain ⟨r, hread⟩ := hcut
  obtain ⟨b, code, high, low, body, rfl⟩ := readMessage_eq_some hread
  obtain ⟨hb, -, -, -, -, hbody⟩ := slice_header hbytes
  by_cases haccepted : Accepted b
  · have haccepted' : Accepted (m data) := by rwa [hb]
    have hreads := readsBody_parse
      (b :: code :: high :: low :: body).length haccepted'
    have hrest : remaining m (data + 4 + (m data &&& 0x0F).toNat)
        (data + (b :: code :: high :: low :: body).length)
        = body.drop (b &&& 0x0F).toNat := by
      rw [← drop_remaining, ← hbody, hb]
    rw [hrest] at hreads
    rw [hreads.options hcomplete, startPacket_options, startPacket_fields,
      messageNumbers, if_pos haccepted]
    rfl
  · have hrefused : ¬ Accepted (m data) := by rwa [hb]
    rw [parse_refused hrefused]
    simp [messageNumbers, haccepted, parseHeaderFields, Packet.init]

/-- Option 2048, which nobody has to understand. -/
theorem options_in_map_iff_elective :
    (coapUdpParseMessage (Memory.put (fun _ => 0) 0
        [0x51, 2, 0x12, 0x34, 7, 0xE0, 6, 0xF3]) 0 8).1 = .noError
      ∧ ¬ ∀ n ∈ (coapUdpParseMessage (Memory.put (fun _ => 0) 0
        [0x51, 2, 0x12, 0x34, 7, 0xE0, 6, 0xF3]) 0 8).2.2.options,
        n < optionBits := by
  have hslice : Memory.slice (Memory.put (fun _ => (0 : UInt8)) 0
      [0x51, 2, 0x12, 0x34, 7, 0xE0, 6, 0xF3]) 0
      ([0x51, 2, 0x12, 0x34, 7, 0xE0, 6, 0xF3] : List UInt8).length
      = [0x51, 2, 0x12, 0x34, 7, 0xE0, 6, 0xF3] := Memory.slice_put_self
  have hcut : ¬ CutShort [0x51, 2, 0x12, 0x34, 7, 0xE0, 6, 0xF3] := id
  have hcomplete : OptionsComplete [0x51, 2, 0x12, 0x34, 7, 0xE0, 6, 0xF3] :=
    trivial
  refine ⟨by decide +kernel,
    (options_in_map_iff hslice hcut hcomplete).not.mpr (by decide +kernel)⟩

end Nexus.Channel.Coap
