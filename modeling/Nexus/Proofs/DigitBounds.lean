import Nexus.Proofs.Again
import Nexus.Proofs.KeyReading

/-!
# Where the digit streams are read

`nexus_digits_pull_uint32` asserts that the digits it is asked for are there,
and reads on into the array when they are not. The other two pulls look at
`nexus_digits_remaining` first, a difference of `uint16_t` that wraps as soon
as the position has passed the length.

To see every access of a parse, the parsers are run once more on streams that
keep a log. That changes no result, and it shows the one place where a frame
is read past its end: the three reserved digits of a QC test are pulled without
a look at what remains.
-/

namespace Nexus.Util

/-- What is done to a stream. -/
inductive DigitAccess
  | remaining (position : ℕ)
  | pull (position count : ℕ)
deriving DecidableEq

/-- The access stays within the digits: no wrap, and no read past the end. -/
def DigitAccess.Within (length : ℕ) : DigitAccess → Prop
  | .remaining position => position ≤ length
  | .pull position count => position + count ≤ length

/-- A digit stream and the accesses made to it so far. -/
structure LoggedDigits where
  digits : Digits
  log : List DigitAccess

namespace LoggedDigits

def init (keys : List Key) (stale : ℕ → Key) : LoggedDigits :=
  ⟨digitsInit keys stale, []⟩

/-- `nexus_digits_remaining`. -/
def remaining (s : LoggedDigits) : ℕ × LoggedDigits :=
  (digitsRemaining s.digits,
    { s with log := s.log ++ [.remaining s.digits.position] })

/-- `nexus_digits_pull_uint32`. -/
def pullUint32 (s : LoggedDigits) (count : ℕ) : UInt32 × LoggedDigits :=
  let r := digitsPullUint32 s.digits count
  (r.1, ⟨r.2, s.log ++ [.pull s.digits.position count]⟩)

/-- `nexus_digits_try_pull_uint32`. -/
def tryPullUint32 (s : LoggedDigits) (count : ℕ) (underrun : Bool) :
    UInt32 × Bool × LoggedDigits :=
  if underrun then (UInt32.ofNat (2 ^ 32 - 1), true, s)
  else
    let left := s.remaining
    if left.1 < count then (UInt32.ofNat (2 ^ 32 - 1), true, left.2)
    else
      let r := left.2.pullUint32 count
      (r.1, false, r.2)

/-- `nexus_digits_pull_uint8`. -/
def pullUint8 (s : LoggedDigits) (count : ℕ) : UInt8 × LoggedDigits :=
  let left := s.remaining
  if left.1 < count then (255, left.2)
  else
    let r := left.2.pullUint32 count
    if r.1 > 255 then (255, r.2) else (r.1.toUInt8, r.2)

section

variable (s : LoggedDigits) (n : ℕ)

@[simp] theorem init_digits (keys : List Key) (stale : ℕ → Key) :
    (init keys stale).digits = digitsInit keys stale := rfl

@[simp] theorem pullUint32_fst :
    (s.pullUint32 n).1 = (digitsPullUint32 s.digits n).1 := rfl

@[simp] theorem pullUint32_digits :
    (s.pullUint32 n).2.digits = (digitsPullUint32 s.digits n).2 := rfl

theorem tryPullUint32_of_lt (hless : digitsRemaining s.digits < n) :
    s.tryPullUint32 n false
      = (UInt32.ofNat (2 ^ 32 - 1), true, s.remaining.2) := by
  have hleft : s.remaining.1 < n := hless
  rw [tryPullUint32, if_neg Bool.false_ne_true]
  exact if_pos hleft

theorem tryPullUint32_of_le (hless : ¬ digitsRemaining s.digits < n) :
    s.tryPullUint32 n false
      = ((digitsPullUint32 s.digits n).1, false,
        (s.remaining.2.pullUint32 n).2) := by
  have hleft : ¬ s.remaining.1 < n := hless
  rw [tryPullUint32, if_neg Bool.false_ne_true]
  exact if_neg hleft

/-- Apart from the log, the pulls are those of the code. -/
theorem tryPullUint32_eq (underrun : Bool) :
    (s.tryPullUint32 n underrun).1
        = (digitsTryPullUint32 s.digits n underrun).1 ∧
      (s.tryPullUint32 n underrun).2.1
        = (digitsTryPullUint32 s.digits n underrun).2.1 ∧
      (s.tryPullUint32 n underrun).2.2.digits
        = (digitsTryPullUint32 s.digits n underrun).2.2 := by
  cases underrun with
  | true =>
      rw [tryPullUint32, digitsTryPullUint32, if_pos rfl,
        if_pos (Or.inl rfl)]
      exact ⟨rfl, rfl, rfl⟩
  | false =>
      rw [digitsTryPullUint32]
      by_cases hless : digitsRemaining s.digits < n
      · rw [s.tryPullUint32_of_lt n hless, if_pos (Or.inr hless)]
        exact ⟨rfl, rfl, rfl⟩
      · rw [s.tryPullUint32_of_le n hless, if_neg (by simp [hless])]
        exact ⟨rfl, rfl, rfl⟩

theorem pullUint8_of_lt (hless : digitsRemaining s.digits < n) :
    s.pullUint8 n = (255, s.remaining.2) := by
  have hleft : s.remaining.1 < n := hless
  rw [pullUint8]
  exact if_pos hleft

theorem pullUint8_of_le (hless : ¬ digitsRemaining s.digits < n) :
    s.pullUint8 n
      = if (digitsPullUint32 s.digits n).1 > 255 then
          (255, (s.remaining.2.pullUint32 n).2)
        else ((digitsPullUint32 s.digits n).1.toUInt8,
          (s.remaining.2.pullUint32 n).2) := by
  have hleft : ¬ s.remaining.1 < n := hless
  rw [pullUint8]
  exact if_neg hleft

theorem pullUint8_eq :
    (s.pullUint8 n).1 = (digitsPullUint8 s.digits n).1 ∧
      (s.pullUint8 n).2.digits = (digitsPullUint8 s.digits n).2 := by
  rw [digitsPullUint8]
  by_cases hless : digitsRemaining s.digits < n
  · rw [s.pullUint8_of_lt n hless, if_pos hless]
    exact ⟨rfl, rfl⟩
  · rw [s.pullUint8_of_le n hless, if_neg hless]
    by_cases hbig : (digitsPullUint32 s.digits n).1 > 255
    · rw [if_pos hbig, if_pos hbig]
      exact ⟨rfl, rfl⟩
    · rw [if_neg hbig, if_neg hbig]
      exact ⟨rfl, rfl⟩

@[simp] theorem tryPullUint32_fst (underrun : Bool) :
    (s.tryPullUint32 n underrun).1
      = (digitsTryPullUint32 s.digits n underrun).1 :=
  (s.tryPullUint32_eq n underrun).1

@[simp] theorem tryPullUint32_underrun (underrun : Bool) :
    (s.tryPullUint32 n underrun).2.1
      = (digitsTryPullUint32 s.digits n underrun).2.1 :=
  (s.tryPullUint32_eq n underrun).2.1

@[simp] theorem tryPullUint32_digits (underrun : Bool) :
    (s.tryPullUint32 n underrun).2.2.digits
      = (digitsTryPullUint32 s.digits n underrun).2.2 :=
  (s.tryPullUint32_eq n underrun).2.2

@[simp] theorem pullUint8_fst :
    (s.pullUint8 n).1 = (digitsPullUint8 s.digits n).1 :=
  (s.pullUint8_eq n).1

@[simp] theorem pullUint8_digits :
    (s.pullUint8 n).2.digits = (digitsPullUint8 s.digits n).2 :=
  (s.pullUint8_eq n).2

end

end LoggedDigits

end Nexus.Util

namespace Nexus.Keycode

open Nexus.Util

/-! ## The parsers on logged streams -/

/-- The skipping loop of `nexus_keycode_pro_full_check_field_from_frame`. -/
def loggedSkipDigits : ℕ → LoggedDigits → LoggedDigits
  | 0, digits => digits
  | left + 1, digits => loggedSkipDigits left (digits.pullUint8 1).2

/-- `nexus_keycode_pro_full_check_field_from_frame`. -/
def loggedCheckFieldFromFrame (keys : List Key) (stale : ℕ → Key) :
    UInt32 × List DigitAccess :=
  if keys.length < 6 then (0, [])
  else
    let r := (loggedSkipDigits (keys.length - 6)
      (.init keys stale)).pullUint32 6
    (r.1, r.2.log)

/-- The body of an activation message. -/
def loggedActivationBody (typeCode : UInt8) (digits : LoggedDigits) :
    Option UInt32 × LoggedDigits :=
  if typeCode = fullActivationAddCredit ∨ typeCode = fullActivationDemoCode
      ∨ typeCode = fullActivationSetCredit then
    let hours := digits.pullUint32 5
    (some hours.1, hours.2)
  else if typeCode = fullActivationWipeState then
    let reserved := digits.pullUint32 4
    let target := reserved.2.pullUint8 1
    (some target.1.toUInt32, target.2)
  else (none, digits)

/-- The second half of `nexus_keycode_pro_full_parse_activation`. -/
def loggedParseActivationBody (pdIndex check : UInt32)
    (typeCode receivedMessageId : UInt8) (digits : LoggedDigits) :
    Option FullMessage × List DigitAccess :=
  if receivedMessageId > 63 then (none, digits.log)
  else
    match loggedActivationBody typeCode digits with
    | (none, digits) => (none, digits.log)
    | (some body, digits) =>
        let digits := (digits.pullUint32 6).2
        (if digits.digits.length = digits.digits.position then
            some ⟨inferFullMessageId receivedMessageId pdIndex, typeCode,
              body, check⟩
          else none,
          digits.log)

/-- `nexus_keycode_pro_full_parse_activation`; the second stream goes on with
the log of the first. -/
def loggedParseActivation (pdIndex : UInt32) (keys : List Key)
    (stale : ℕ → Key) : Option FullMessage × List DigitAccess :=
  let check := loggedCheckFieldFromFrame keys stale
  let digits : LoggedDigits :=
    ⟨digitsInit (fullDeinterleave keys check.1) stale, check.2⟩
  let typeCode := digits.pullUint8 1
  let receivedMessageId := typeCode.2.pullUint8 2
  loggedParseActivationBody pdIndex check.1 typeCode.1 receivedMessageId.1
    receivedMessageId.2

/-- The body of a QC test; the other types with a MAC have none. -/
def loggedQcBody (typeCode : UInt8) (digits : LoggedDigits) :
    UInt32 × LoggedDigits :=
  if typeCode = fullFactoryQcTest then
    let reserved := digits.pullUint32 3
    let minutes := reserved.2.pullUint8 2
    (minutes.1.toUInt32, minutes.2)
  else (0, digits)

/-- The branch of the factory parser for the types with a MAC. -/
def loggedParseFactoryMac (typeCode : UInt8) (underrun : Bool)
    (digits : LoggedDigits) : Option FullMessage × List DigitAccess :=
  let qc := loggedQcBody typeCode digits
  let check := qc.2.tryPullUint32 6 underrun
  (if check.2.1 = false
      ∧ check.2.2.digits.length = check.2.2.digits.position then
      some ⟨0, typeCode, qc.1, check.1⟩
    else none,
    check.2.2.log)

/-- The branch for device ids. -/
def loggedParseNomacDeviceId (typeCode : UInt8) (underrun : Bool)
    (digits : LoggedDigits) : Option FullMessage × List DigitAccess :=
  let serialIdLength := UInt8.ofNat (digits.digits.length + 255)
  if serialIdLength < 8 ∨ serialIdLength > 10 then (none, digits.log)
  else
    let deviceId := digits.tryPullUint32 serialIdLength.toNat underrun
    (if deviceId.2.1 = false
        ∧ deviceId.2.2.digits.length = deviceId.2.2.digits.position then
        some ⟨0, typeCode, deviceId.1, 0⟩
      else none,
      deviceId.2.2.log)

namespace Machine

/-- `nexus_keycode_pro_full_parse_factory_and_passthrough`. -/
def loggedParseFactoryAndPassthrough (m : Machine) (env : Env)
    (keys : List Key) : (Option FullMessage × Machine) × List DigitAccess :=
  if keys.length > 30 then ((none, m), [])
  else
    let r := (LoggedDigits.init keys env.stack.digitChars).tryPullUint32 1
      false
    let typeCode := r.1.toUInt8
    let underrun := r.2.1
    let digits := r.2.2
    if typeCode < fullFactoryNomacDeviceIdConfirmation then
      let parsed := loggedParseFactoryMac typeCode underrun digits
      ((parsed.1, m), parsed.2)
    else if typeCode = fullFactoryNomacDeviceIdConfirmation then
      let parsed := loggedParseNomacDeviceId typeCode underrun digits
      ((parsed.1, m), parsed.2)
    else if typeCode = fullPassthroughCommand then
      if digits.digits.length > 2 ∧ digits.digits.length ≠ 14 then
        let code := keys.drop digits.digits.position
        ((if env.passthroughKeycode code = .none then
              some ⟨0, typeCode, 0, 0⟩
            else none,
            m.emit (.passthrough code)),
          digits.log)
      else ((none, m), digits.log)
    else if underrun = false
        ∧ digits.digits.length = digits.digits.position then
      ((some ⟨0, typeCode, 0, 0⟩, m), digits.log)
    else ((none, m), digits.log)

/-- `nexus_keycode_pro_full_parse`. -/
def loggedParse (m : Machine) (env : Env) (frame : Frame) :
    (Option FullMessage × Machine) × List DigitAccess :=
  if frame.keys.length = 14 then
    let parsed := loggedParseActivation m.pdIndex frame.keys
      env.stack.digitChars
    ((parsed.1, m), parsed.2)
  else m.loggedParseFactoryAndPassthrough env frame.keys

end Machine

/-! ## The log changes nothing -/

theorem loggedSkipDigits_digits (n : ℕ) (s : LoggedDigits) :
    (loggedSkipDigits n s).digits = skipDigits n s.digits := by
  induction n generalizing s with
  | zero => rfl
  | succ n ih =>
      rw [loggedSkipDigits, ih, LoggedDigits.pullUint8_digits, skipDigits]

theorem loggedCheckFieldFromFrame_fst (keys : List Key) (stale : ℕ → Key) :
    (loggedCheckFieldFromFrame keys stale).1
      = fullCheckFieldFromFrame keys stale := by
  rw [loggedCheckFieldFromFrame, fullCheckFieldFromFrame]
  split
  · rfl
  · simp only [LoggedDigits.pullUint32_fst, loggedSkipDigits_digits,
      LoggedDigits.init]

/-- The types whose body is a number of hours. -/
abbrev HasHours (typeCode : UInt8) : Prop :=
  typeCode = fullActivationAddCredit ∨ typeCode = fullActivationDemoCode ∨
    typeCode = fullActivationSetCredit

theorem loggedActivationBody_cases (typeCode : UInt8) (s : LoggedDigits) :
    (HasHours typeCode ∧ loggedActivationBody typeCode s
        = (some (s.pullUint32 5).1, (s.pullUint32 5).2)) ∨
      (¬ HasHours typeCode ∧ typeCode = fullActivationWipeState ∧
        loggedActivationBody typeCode s
          = (some ((s.pullUint32 4).2.pullUint8 1).1.toUInt32,
            ((s.pullUint32 4).2.pullUint8 1).2)) ∨
      (¬ HasHours typeCode ∧ typeCode ≠ fullActivationWipeState ∧
        loggedActivationBody typeCode s = (none, s)) := by
  by_cases hhours : HasHours typeCode
  · exact Or.inl ⟨hhours, if_pos hhours⟩
  · by_cases hwipe : typeCode = fullActivationWipeState
    · exact Or.inr (Or.inl ⟨hhours, hwipe,
        (if_neg hhours).trans (if_pos hwipe)⟩)
    · exact Or.inr (Or.inr ⟨hhours, hwipe,
        (if_neg hhours).trans (if_neg hwipe)⟩)

theorem loggedActivationBody_eq (typeCode : UInt8) (s : LoggedDigits) :
    fullActivationBody typeCode s.digits
      = (loggedActivationBody typeCode s).1.map
        fun body => (body, (loggedActivationBody typeCode s).2.digits) := by
  rw [fullActivationBody]
  rcases loggedActivationBody_cases typeCode s with
    ⟨hhours, hbody⟩ | ⟨hhours, hwipe, hbody⟩ | ⟨hhours, hwipe, hbody⟩
  · rw [hbody, if_pos hhours, Option.map_some, LoggedDigits.pullUint32_digits,
      LoggedDigits.pullUint32_fst]
  · have hvalue := (s.pullUint32 4).2.pullUint8_fst 1
    have hrest := (s.pullUint32 4).2.pullUint8_digits 1
    obtain ⟨target, htarget⟩ :
      ∃ r, (s.pullUint32 4).2.pullUint8 1 = r := ⟨_, rfl⟩
    rw [htarget] at hbody hvalue hrest
    rw [hbody, if_neg hhours, if_pos hwipe, Option.map_some]
    dsimp only
    rw [hvalue, hrest, LoggedDigits.pullUint32_digits]
  · rw [hbody, if_neg hhours, if_neg hwipe, Option.map_none]

theorem loggedParseActivationBody_fst (pd check : UInt32)
    (typeCode received : UInt8) (s : LoggedDigits) :
    (loggedParseActivationBody pd check typeCode received s).1
      = fullParseActivationBody pd check typeCode received s.digits := by
  rw [loggedParseActivationBody, fullParseActivationBody,
    loggedActivationBody_eq]
  by_cases hbig : received > 63
  · rw [if_pos hbig, if_pos hbig]
  · rw [if_neg hbig, if_neg hbig]
    rcases loggedActivationBody typeCode s with ⟨body, rest⟩
    cases body with
    | none => rw [Option.map_none]
    | some body =>
        rw [Option.map_some]
        dsimp only
        rw [LoggedDigits.pullUint32_digits]

theorem loggedParseActivation_fst (pd : UInt32) (keys : List Key)
    (stale : ℕ → Key) :
    (loggedParseActivation pd keys stale).1
      = fullParseActivation pd keys stale := by
  rw [fullParseActivation_of pd (loggedCheckFieldFromFrame_fst keys stale).symm,
    loggedParseActivation, loggedParseActivationBody_fst]
  simp only [LoggedDigits.pullUint8_fst, LoggedDigits.pullUint8_digits]

theorem loggedQcBody_cases (typeCode : UInt8) (s : LoggedDigits) :
    (typeCode = fullFactoryQcTest ∧ loggedQcBody typeCode s
        = (((s.pullUint32 3).2.pullUint8 2).1.toUInt32,
          ((s.pullUint32 3).2.pullUint8 2).2)) ∨
      (typeCode ≠ fullFactoryQcTest ∧ loggedQcBody typeCode s = (0, s)) := by
  by_cases hqc : typeCode = fullFactoryQcTest
  · exact Or.inl ⟨hqc, if_pos hqc⟩
  · exact Or.inr ⟨hqc, if_neg hqc⟩

theorem loggedQcBody_eq (typeCode : UInt8) (s : LoggedDigits) :
    (if typeCode = fullFactoryQcTest then
        ((digitsPullUint8 (digitsPullUint32 s.digits 3).2 2).1.toUInt32,
          (digitsPullUint8 (digitsPullUint32 s.digits 3).2 2).2)
      else (0, s.digits))
      = ((loggedQcBody typeCode s).1, (loggedQcBody typeCode s).2.digits) := by
  rcases loggedQcBody_cases typeCode s with ⟨hqc, hbody⟩ | ⟨hqc, hbody⟩
  · have hvalue := (s.pullUint32 3).2.pullUint8_fst 2
    have hrest := (s.pullUint32 3).2.pullUint8_digits 2
    obtain ⟨minutes, hminutes⟩ :
      ∃ r, (s.pullUint32 3).2.pullUint8 2 = r := ⟨_, rfl⟩
    rw [hminutes] at hbody hvalue hrest
    rw [LoggedDigits.pullUint32_digits] at hvalue hrest
    rw [hbody, if_pos hqc, ← hvalue, ← hrest]
  · rw [hbody, if_neg hqc]

theorem loggedParseFactoryMac_eq (typeCode : UInt8) (underrun : Bool)
    (s : LoggedDigits) :
    loggedParseFactoryMac typeCode underrun s
      = (fullParseFactoryMac typeCode underrun s.digits,
        ((loggedQcBody typeCode s).2.tryPullUint32 6 underrun).2.2.log) := by
  have hbody := loggedQcBody_eq typeCode s
  rw [loggedParseFactoryMac, fullParseFactoryMac]
  dsimp only
  rw [hbody]
  generalize loggedQcBody typeCode s = qc
  rw [LoggedDigits.tryPullUint32_underrun, LoggedDigits.tryPullUint32_digits,
    LoggedDigits.tryPullUint32_fst]

theorem loggedParseNomacDeviceId_fst (typeCode : UInt8) (underrun : Bool)
    (s : LoggedDigits) :
    (loggedParseNomacDeviceId typeCode underrun s).1
      = fullParseNomacDeviceId typeCode underrun s.digits := by
  rw [loggedParseNomacDeviceId, fullParseNomacDeviceId]
  dsimp only
  split
  · rfl
  · simp

theorem loggedParseFactoryAndPassthrough_fst (m : Machine) (env : Env)
    (keys : List Key) :
    (m.loggedParseFactoryAndPassthrough env keys).1
      = m.fullParseFactoryAndPassthrough env keys := by
  rw [Machine.loggedParseFactoryAndPassthrough,
    Machine.fullParseFactoryAndPassthrough]
  by_cases hlen : keys.length > 30
  · rw [if_pos hlen, if_pos hlen]
  · rw [if_neg hlen, if_neg hlen]
    rcases hr : (LoggedDigits.init keys env.stack.digitChars).tryPullUint32 1
      false with ⟨value, underrun, rest⟩
    have hr' : digitsTryPullUint32 (digitsInit keys env.stack.digitChars) 1
        false = (value, underrun, rest.digits) := by
      have heq := (LoggedDigits.init keys
        env.stack.digitChars).tryPullUint32_eq 1 false
      rw [hr, LoggedDigits.init_digits] at heq
      exact Prod.ext heq.1.symm (Prod.ext heq.2.1.symm heq.2.2.symm)
    rw [hr']
    dsimp only
    rw [loggedParseFactoryMac_eq, ← loggedParseNomacDeviceId_fst]
    by_cases hmac : value.toUInt8 < fullFactoryNomacDeviceIdConfirmation
    · rw [if_pos hmac, if_pos hmac]
    · rw [if_neg hmac, if_neg hmac]
      by_cases hnomac : value.toUInt8 = fullFactoryNomacDeviceIdConfirmation
      · rw [if_pos hnomac, if_pos hnomac]
      · rw [if_neg hnomac, if_neg hnomac]
        by_cases hcommand : value.toUInt8 = fullPassthroughCommand
        · rw [if_pos hcommand, if_pos hcommand]
          by_cases hlong : rest.digits.length > 2 ∧ rest.digits.length ≠ 14
          · rw [if_pos hlong, if_pos hlong]
          · rw [if_neg hlong, if_neg hlong]
        · rw [if_neg hcommand, if_neg hcommand]
          by_cases hend : underrun = false ∧
              rest.digits.length = rest.digits.position
          · rw [if_pos hend, if_pos hend]
          · rw [if_neg hend, if_neg hend]

/-- The run on logged streams is the run of the code. -/
theorem loggedParse_fst (m : Machine) (env : Env) (frame : Frame) :
    (m.loggedParse env frame).1 = m.fullParse env frame := by
  rw [Machine.loggedParse, Machine.fullParse]
  split
  · dsimp only
    rw [loggedParseActivation_fst]
  · exact loggedParseFactoryAndPassthrough_fst m env frame.keys

end Nexus.Keycode

/-! ## Accesses within the digits -/

namespace Nexus.Util.LoggedDigits

/-- A stream over so many digits, none of whose accesses left them, at a
position within them. -/
structure Good (length : ℕ) (s : LoggedDigits) : Prop where
  short : length < 65536
  length_eq : s.digits.length = length
  position_le : s.digits.position ≤ length
  within : ∀ a ∈ s.log, a.Within length

variable {s : LoggedDigits} {length n : ℕ}

theorem good_mk {keys : List Key} {stale : ℕ → Key} {log : List DigitAccess}
    (hlength : keys.length = length) (hshort : length < 65536)
    (hlog : ∀ a ∈ log, a.Within length) :
    Good length ⟨digitsInit keys stale, log⟩ :=
  ⟨hshort, hlength, Nat.zero_le _, hlog⟩

namespace Good

theorem remaining (h : s.Good length) : s.remaining.2.Good length := by
  refine ⟨h.short, h.length_eq, h.position_le, ?_⟩
  intro a ha
  rcases List.mem_append.mp ha with ha | ha
  · exact h.within a ha
  · rw [List.mem_singleton.mp ha]
    exact h.position_le

theorem pullUint32_moved (h : s.Good length)
    (hle : s.digits.position + n ≤ length) :
    (s.pullUint32 n).2.digits
      = { s.digits with position := s.digits.position + n } := by
  have hshort := h.short
  rw [← h.length_eq] at hle hshort
  exact digitsPullUint32_position hshort hle

theorem pullUint32_position (h : s.Good length)
    (hle : s.digits.position + n ≤ length) :
    (s.pullUint32 n).2.digits.position = s.digits.position + n := by
  rw [h.pullUint32_moved hle]

/-- The pull that asks nothing needs its digits to be there. -/
theorem pullUint32 (h : s.Good length)
    (hle : s.digits.position + n ≤ length) :
    (s.pullUint32 n).2.Good length := by
  have hmoved := h.pullUint32_moved hle
  refine ⟨h.short, ?_, ?_, ?_⟩
  · rw [hmoved]
    exact h.length_eq
  · rw [hmoved]
    exact hle
  · intro a ha
    rcases List.mem_append.mp ha with ha | ha
    · exact h.within a ha
    · rw [List.mem_singleton.mp ha]
      exact hle

theorem le_of_remaining (h : s.Good length) (hleft : ¬ s.remaining.1 < n) :
    s.digits.position + n ≤ length := by
  have hrem : s.remaining.1 = (s.digits.length + 65536
    - s.digits.position) % 65536 := rfl
  have hlength := h.length_eq
  have hpos := h.position_le
  have hshort := h.short
  omega

/-- The other two look first. -/
theorem pullUint8 (h : s.Good length) : (s.pullUint8 n).2.Good length := by
  by_cases hleft : s.remaining.1 < n
  · rw [s.pullUint8_of_lt n hleft]
    exact h.remaining
  · have hgood := h.remaining.pullUint32 (h.le_of_remaining hleft)
    rw [s.pullUint8_of_le n hleft]
    split <;> exact hgood

theorem pullUint8_moved (h : s.Good length)
    (hle : s.digits.position + n ≤ length) :
    (s.pullUint8 n).2.digits
      = { s.digits with position := s.digits.position + n } := by
  have hshort := h.short
  rw [← h.length_eq] at hle hshort
  rw [pullUint8_digits]
  exact digitsPullUint8_position hshort hle

theorem pullUint8_position (h : s.Good length)
    (hle : s.digits.position + n ≤ length) :
    (s.pullUint8 n).2.digits.position = s.digits.position + n := by
  rw [h.pullUint8_moved hle]

theorem tryPullUint32 (h : s.Good length) (underrun : Bool) :
    (s.tryPullUint32 n underrun).2.2.Good length := by
  cases underrun with
  | true =>
      rw [LoggedDigits.tryPullUint32, if_pos rfl]
      exact h
  | false =>
      by_cases hleft : s.remaining.1 < n
      · rw [s.tryPullUint32_of_lt n hleft]
        exact h.remaining
      · have hgood := h.remaining.pullUint32 (h.le_of_remaining hleft)
        rw [s.tryPullUint32_of_le n hleft]
        exact hgood

end Good

end Nexus.Util.LoggedDigits

namespace Nexus.Keycode

open Nexus.Util

section

variable {keys : List Key} {stale : ℕ → Key} {s : LoggedDigits}

/-! ## Fourteen keys -/

/-- The loop leaves a place for each of the digits it skipped. -/
theorem good_loggedSkipDigits {length n : ℕ} (h : s.Good length)
    (hle : s.digits.position + n ≤ length) :
    (loggedSkipDigits n s).Good length ∧
      (loggedSkipDigits n s).digits.position = s.digits.position + n := by
  induction n generalizing s with
  | zero => exact ⟨h, rfl⟩
  | succ n ih =>
      have hmoved := h.pullUint8_position (n := 1) (by omega)
      obtain ⟨hgood, hpos⟩ := ih (h.pullUint8 (n := 1)) (by omega)
      rw [loggedSkipDigits, hpos, hmoved]
      exact ⟨hgood, by omega⟩

theorem within_loggedCheckFieldFromFrame (hlen : keys.length = 14) :
    ∀ a ∈ (loggedCheckFieldFromFrame keys stale).2, a.Within 14 := by
  have hinit : (LoggedDigits.init keys stale).Good 14 :=
    LoggedDigits.good_mk hlen (by omega) (by simp)
  have hstart : (LoggedDigits.init keys stale).digits.position = 0 := rfl
  obtain ⟨hgood, hpos⟩ := good_loggedSkipDigits (n := keys.length - 6) hinit
    (by omega)
  have hpull := hgood.pullUint32 (n := 6) (by omega)
  rw [loggedCheckFieldFromFrame, if_neg (by omega)]
  exact hpull.within

/-- Whatever the type, the body ends where the check begins. -/
theorem good_loggedActivationBody (h : s.Good 14)
    (hpos : s.digits.position = 3) (typeCode : UInt8) :
    (loggedActivationBody typeCode s).2.Good 14 ∧
      (loggedActivationBody typeCode s).2.digits.position ≤ 8 := by
  rcases loggedActivationBody_cases typeCode s with
    ⟨-, hbody⟩ | ⟨-, -, hbody⟩ | ⟨-, -, hbody⟩
  · have hmoved := h.pullUint32_position (n := 5) (by omega)
    have hgood := h.pullUint32 (n := 5) (by omega)
    rw [hbody]
    exact ⟨hgood, by dsimp only; omega⟩
  · have hreserved := h.pullUint32 (n := 4) (by omega)
    have hmoved := h.pullUint32_position (n := 4) (by omega)
    have hmoved' := hreserved.pullUint8_position (n := 1) (by omega)
    have hgood := hreserved.pullUint8 (n := 1)
    obtain ⟨target, htarget⟩ :
      ∃ r, (s.pullUint32 4).2.pullUint8 1 = r := ⟨_, rfl⟩
    rw [htarget] at hbody hmoved' hgood
    rw [hbody]
    exact ⟨hgood, by dsimp only; omega⟩
  · rw [hbody]
    exact ⟨h, by dsimp only; omega⟩

theorem within_loggedParseActivationBody (h : s.Good 14)
    (hpos : s.digits.position = 3) (pd check : UInt32)
    (typeCode received : UInt8) :
    ∀ a ∈ (loggedParseActivationBody pd check typeCode received s).2,
      a.Within 14 := by
  rw [loggedParseActivationBody]
  split
  · exact h.within
  · have hbody := good_loggedActivationBody h hpos typeCode
    generalize loggedActivationBody typeCode s = r at hbody ⊢
    obtain ⟨body, rest⟩ := r
    cases body with
    | none => exact hbody.1.within
    | some body =>
        have hcheck := hbody.1.pullUint32 (n := 6)
          (Nat.add_le_add_right hbody.2 6)
        exact hcheck.within

theorem within_loggedParseActivation (hlen : keys.length = 14) (pd : UInt32) :
    ∀ a ∈ (loggedParseActivation pd keys stale).2, a.Within 14 := by
  have hclear : (fullDeinterleave keys
      (loggedCheckFieldFromFrame keys stale).1).length = 14 := by
    rw [fullDeinterleave, List.length_mapIdx, hlen]
  have hinit := @LoggedDigits.good_mk 14 _ stale _ hclear (by omega)
    (@within_loggedCheckFieldFromFrame keys stale hlen)
  have hstart : (LoggedDigits.mk (digitsInit (fullDeinterleave keys
      (loggedCheckFieldFromFrame keys stale).1) stale)
      (loggedCheckFieldFromFrame keys stale).2).digits.position = 0 := rfl
  rw [loggedParseActivation]
  generalize LoggedDigits.mk _ _ = s at hinit hstart ⊢
  have htype := hinit.pullUint8 (n := 1)
  have hmoved := hinit.pullUint8_position (n := 1) (by omega)
  have hmoved' := htype.pullUint8_position (n := 2) (by omega)
  exact within_loggedParseActivationBody htype.pullUint8 (by omega) _ _ _ _

/-! ## Every other length -/

/-- A frame that starts with the type of a QC test and ends before its
reserved digits do. -/
def CutQcTest (keys : List Key) : Prop :=
  ∃ k rest, keys = k :: rest ∧ keyType k = fullFactoryQcTest ∧
    rest.length ≤ 2

/-- With a MAC, only the reserved digits of a QC test can be missing. -/
theorem within_loggedParseFactoryMac {length : ℕ} (h : s.Good length)
    {typeCode : UInt8}
    (hqc : typeCode = fullFactoryQcTest → s.digits.position + 3 ≤ length)
    (underrun : Bool) :
    ∀ a ∈ (loggedParseFactoryMac typeCode underrun s).2, a.Within length := by
  rw [loggedParseFactoryMac_eq]
  rcases loggedQcBody_cases typeCode s with ⟨htype, hbody⟩ | ⟨-, hbody⟩
  · have hreserved := h.pullUint32 (hqc htype)
    have hminutes := hreserved.pullUint8 (n := 2)
    obtain ⟨minutes, hr⟩ :
      ∃ r, (s.pullUint32 3).2.pullUint8 2 = r := ⟨_, rfl⟩
    rw [hr] at hbody hminutes
    rw [hbody]
    exact (hminutes.tryPullUint32 underrun).within
  · rw [hbody]
    exact (h.tryPullUint32 underrun).within

theorem within_loggedParseNomacDeviceId {length : ℕ} (h : s.Good length)
    (typeCode : UInt8) (underrun : Bool) :
    ∀ a ∈ (loggedParseNomacDeviceId typeCode underrun s).2,
      a.Within length := by
  rw [loggedParseNomacDeviceId]
  split
  · exact h.within
  · exact (h.tryPullUint32 underrun).within

/-- The first pull of the factory parser. -/
theorem tryPullUint32_first {k : Key} {rest : List Key}
    (hlen : rest.length < 30) :
    ((LoggedDigits.init (k :: rest) stale).tryPullUint32 1 false).1.toUInt8
        = keyType k ∧
      ((LoggedDigits.init (k :: rest) stale).tryPullUint32 1
        false).2.2.digits.position = 1 := by
  have hpull := @tryPullUint32_streamAt (k :: rest) stale 0 1
    (by rw [List.length_cons]; omega)
    (by rw [List.length_cons]; omega)
  have hfirst : keysValue (((k :: rest).drop 0).take 1) = k - 48 :=
    keysValue_singleton k
  have hinit : digitsInit (k :: rest) stale = streamAt (k :: rest) stale 0 :=
    rfl
  rw [hfirst] at hpull
  rw [LoggedDigits.tryPullUint32_fst, LoggedDigits.tryPullUint32_digits,
    LoggedDigits.init_digits, hinit, hpull]
  exact ⟨rfl, rfl⟩

theorem tryPullUint32_empty :
    ((LoggedDigits.init [] stale).tryPullUint32 1 false).1.toUInt8
      ≠ fullFactoryQcTest := by
  have hlast : (4294967295 : UInt32).toUInt8 ≠ fullFactoryQcTest := by decide
  rw [LoggedDigits.tryPullUint32_fst, LoggedDigits.init_digits,
    tryPullUint32_nil]
  exact hlast

theorem within_loggedParseFactoryAndPassthrough (m : Machine) (env : Env)
    (hlen : keys.length ≤ 30) (hcut : ¬ CutQcTest keys) :
    ∀ a ∈ (m.loggedParseFactoryAndPassthrough env keys).2,
      a.Within keys.length := by
  have hinit : (LoggedDigits.init keys env.stack.digitChars).Good
      keys.length := LoggedDigits.good_mk rfl (by omega) (by simp)
  have hfirst := hinit.tryPullUint32 (n := 1) false
  have hqc : ((LoggedDigits.init keys env.stack.digitChars).tryPullUint32 1
      false).1.toUInt8 = fullFactoryQcTest →
      ((LoggedDigits.init keys env.stack.digitChars).tryPullUint32 1
        false).2.2.digits.position + 3 ≤ keys.length := by
    intro htype
    cases keys with
    | nil => exact absurd htype tryPullUint32_empty
    | cons k rest =>
        have hlength : (k :: rest).length = rest.length + 1 := rfl
        obtain ⟨hvalue, hpos⟩ :=
          @tryPullUint32_first env.stack.digitChars k rest
            (Nat.lt_of_succ_le hlen)
        rw [hpos]
        by_contra hshort
        exact hcut ⟨k, rest, rfl, hvalue.symm.trans htype, by omega⟩
  rw [Machine.loggedParseFactoryAndPassthrough, if_neg (by omega)]
  generalize (LoggedDigits.init keys env.stack.digitChars).tryPullUint32 1
    false = r at hfirst hqc ⊢
  obtain ⟨value, underrun, rest⟩ := r
  dsimp only at hfirst hqc ⊢
  split
  · exact within_loggedParseFactoryMac hfirst hqc underrun
  · split
    · exact within_loggedParseNomacDeviceId hfirst _ underrun
    · split
      · split <;> exact hfirst.within
      · split <;> exact hfirst.within

/-- Nothing is taken back from a log. -/
theorem mem_log_pullUint8 {a : DigitAccess} {n : ℕ} (ha : a ∈ s.log) :
    a ∈ (s.pullUint8 n).2.log := by
  rw [LoggedDigits.pullUint8]
  dsimp only
  repeat' split
  · exact List.mem_append_left _ ha
  · exact List.mem_append_left _ (List.mem_append_left _ ha)
  · exact List.mem_append_left _ (List.mem_append_left _ ha)

theorem mem_log_tryPullUint32 {a : DigitAccess} {n : ℕ} {underrun : Bool}
    (ha : a ∈ s.log) : a ∈ (s.tryPullUint32 n underrun).2.2.log := by
  rw [LoggedDigits.tryPullUint32]
  dsimp only
  repeat' split
  · exact ha
  · exact List.mem_append_left _ ha
  · exact List.mem_append_left _ (List.mem_append_left _ ha)

/-- The reserved digits of a cut QC test are pulled all the same. -/
theorem not_within_of_cut (m : Machine) (env : Env) (hcut : CutQcTest keys) :
    ¬ ∀ a ∈ (m.loggedParseFactoryAndPassthrough env keys).2,
      a.Within keys.length := by
  obtain ⟨k, rest, rfl, htype, hshort⟩ := hcut
  obtain ⟨hvalue, hpos⟩ := @tryPullUint32_first env.stack.digitChars k rest
    (show rest.length < 30 by omega)
  rw [Machine.loggedParseFactoryAndPassthrough,
    if_neg (by rw [List.length_cons]; omega)]
  generalize (LoggedDigits.init (k :: rest)
    env.stack.digitChars).tryPullUint32 1 false = r at hvalue hpos ⊢
  obtain ⟨value, underrun, s⟩ := r
  dsimp only at hvalue hpos ⊢
  have hbody := loggedQcBody_cases fullFactoryQcTest s
  rw [hvalue, htype, if_pos (by decide), loggedParseFactoryMac_eq]
  intro hwithin
  have hreserved : DigitAccess.pull 1 3 ∈ (s.pullUint32 3).2.log := by
    rw [← hpos]
    exact List.mem_append_right _ (List.mem_singleton_self _)
  rcases hbody with ⟨-, hbody⟩ | ⟨hne, -⟩
  · have hkept := mem_log_pullUint8 (n := 2) hreserved
    obtain ⟨minutes, hr⟩ :
      ∃ r, (s.pullUint32 3).2.pullUint8 2 = r := ⟨_, rfl⟩
    rw [hr] at hbody hkept
    rw [hbody] at hwithin
    have hfits := hwithin _ (mem_log_tryPullUint32 hkept)
    change 1 + 3 ≤ rest.length + 1 at hfits
    omega
  · exact absurd rfl hne

end

/-! ## Stale digits -/

/-- What the code makes of a frame does not depend on what lies behind its
keys: the reserved digits that may be missing are not kept. -/
theorem fullParse_stale (m : Machine) (env : Env) (frame : Frame)
    (stack : Stack) :
    m.fullParse { env with stack := stack } frame = m.fullParse env frame := by
  have hle := frame.length_le
  rw [Machine.fullParse, Machine.fullParse]
  by_cases hlen : frame.keys.length = 14
  · rw [if_pos hlen, if_pos hlen, fullParseActivation_stale hlen]
  · rw [if_neg hlen, if_neg hlen]
    cases hkeys : frame.keys with
    | nil =>
        rw [fullParseFactoryAndPassthrough_nil,
          fullParseFactoryAndPassthrough_nil]
    | cons k rest =>
        rw [hkeys, List.length_cons] at hle
        by_cases hpass : IsPassthrough (k :: rest)
        · rw [fullParseFactoryAndPassthrough_passes (by omega) hpass,
            fullParseFactoryAndPassthrough_passes (by omega) hpass]
        · rw [fullParseFactoryAndPassthrough_reads (by omega) hpass,
            fullParseFactoryAndPassthrough_reads (by omega) hpass]

/-- Every access of a parse stays within the digits, and the result depends on
nothing else. -/
def ReadsWithin (m : Machine) (env : Env) (frame : Frame) : Prop :=
  (∀ a ∈ (m.loggedParse env frame).2, a.Within frame.keys.length) ∧
    ∀ stack, m.fullParse { env with stack := stack } frame
      = m.fullParse env frame

/-- The log is that of the code, and it stays within the digits of every frame
except a QC test of which not even the reserved digits were entered. -/
theorem readsWithin_iff (m : Machine) (env : Env) (frame : Frame) :
    (m.loggedParse env frame).1 = m.fullParse env frame ∧
      (ReadsWithin m env frame ↔ ¬ CutQcTest frame.keys) := by
  refine ⟨loggedParse_fst m env frame, ?_, ?_⟩
  · rintro ⟨hwithin, -⟩ hcut
    have hlen : frame.keys.length ≠ 14 := by
      obtain ⟨k, rest, hkeys, -, hshort⟩ := hcut
      rw [hkeys, List.length_cons]
      omega
    rw [Machine.loggedParse, if_neg hlen] at hwithin
    exact not_within_of_cut m env hcut hwithin
  · intro hcut
    refine ⟨?_, fullParse_stale m env frame⟩
    by_cases hlen : frame.keys.length = 14
    · have hactivation := @within_loggedParseActivation frame.keys
        env.stack.digitChars hlen m.pdIndex
      obtain ⟨parsed, hr⟩ : ∃ r, loggedParseActivation m.pdIndex frame.keys
        env.stack.digitChars = r := ⟨_, rfl⟩
      rw [hr] at hactivation
      rw [Machine.loggedParse, if_pos hlen, hlen, hr]
      exact hactivation
    · rw [Machine.loggedParse, if_neg hlen]
      exact within_loggedParseFactoryAndPassthrough m env frame.length_le hcut

/-- The digit 5 alone. -/
def lonelyQcFrame : Frame := ⟨[53], by decide⟩

/-- Eleven digits are read past its end. -/
theorem lonely_qc_reads_past :
    ((Machine.ofStored .factory).loggedParse (testEnv .enabled)
        lonelyQcFrame).2
        = [.remaining 0, .pull 0 1, .pull 1 3, .remaining 4, .pull 4 2,
          .remaining 6, .pull 6 6] ∧
      ¬ ReadsWithin (.ofStored .factory) (testEnv .enabled)
        lonelyQcFrame := by
  have hlog : ((Machine.ofStored .factory).loggedParse (testEnv .enabled)
      lonelyQcFrame).2
      = [.remaining 0, .pull 0 1, .pull 1 3, .remaining 4, .pull 4 2,
        .remaining 6, .pull 6 6] := by
    decide +kernel
  refine ⟨hlog, ?_⟩
  rintro ⟨hwithin, -⟩
  rw [hlog] at hwithin
  have hreserved : 1 + 3 ≤ 1 := hwithin (.pull 1 3) (by decide)
  omega

end Nexus.Keycode
