import Nexus.Channel.OriginManager
import Nexus.Keycode.Small

/-!
# The limits of the pseudorandom generator

`nexus_check_compute_pseudorandom_bytes` hashes a seed of at most four bytes
once, and has eight bytes to give. Both limits are assertions. Small frames ask
for four bytes and full activation frames for eight. An origin command asks for
one byte for each digit before the MAC, and its length is limited to twenty:
from fifteen digits on, the bytes behind the eighth come from beyond the check
value.
-/

namespace Nexus

open Nexus.Util Nexus.Keycode Nexus.Channel

/-! ## Calls -/

/-- A call of `nexus_check_compute_pseudorandom_bytes` with
`NEXUS_INTEGRITY_CHECK_FIXED_00_KEY`. -/
structure GeneratorCall where
  seed : List UInt8
  outputSize : ℕ

/-- The eight bytes of the check value. -/
def GeneratorCall.chunk (call : GeneratorCall) : List UInt8 :=
  (checkCompute integrityCheckFixed00Key (0x00 :: call.seed)).toList

/-- What the model has for the output. -/
def GeneratorCall.output (call : GeneratorCall) : List UInt8 :=
  checkComputePseudorandomBytes integrityCheckFixed00Key call.seed
    call.outputSize

/-- In `nexus_keycode_pro_small_parse`. -/
def smallCall (check : UInt16) : GeneratorCall :=
  ⟨le16 (endianHtobe16 check), 4⟩

/-- In `nexus_keycode_pro_full_deinterleave`. -/
def fullCall (checkValue : UInt32) : GeneratorCall := ⟨le32 checkValue, 8⟩

/-- In `_nexus_channel_om_deinterleave_digits`. -/
def omCall (length : ℕ) (checkValue : UInt32) : GeneratorCall :=
  ⟨le32 checkValue, (length - omFixedMacDigitCount) % 256⟩

/-- What makes one of the three callers call the generator. -/
inductive GeneratorInput
  | smallFrame (alphabet : List Key) (stack : Stack) (frame : Frame)
  | fullFrame (frame : Frame) (stale : ℕ → Key)
  | originCommand (stack : OmStack) (commandData : List UInt8)

/-- The digits of an origin command, as they are parsed. -/
def commandDigits (commandData : List UInt8) : Digits :=
  digitsInit (commandData.map fun val => val.toNat) fun _ => 0

/-- The MAC of an origin command. -/
def commandMac (commandData : List UInt8) : UInt32 :=
  (digitsTryPullUint32
    { commandDigits commandData with
      position := (commandDigits commandData).length - omFixedMacDigitCount }
    omFixedMacDigitCount false).1

/-- The length checks for an origin command, and that it consists of digits. -/
def IsCommand (commandData : List UInt8) : Prop :=
  omFixedMacDigitCount < commandData.length ∧
    commandData.length ≤ omCommandAsciiDigitsMaxLength ∧
    ∀ val ∈ commandData, 0x30 ≤ val ∧ val ≤ 0x39

/-- The call, and the bytes that are taken for the mask. -/
inductive Uses : GeneratorInput → GeneratorCall → List UInt8 → Prop
  | smallFrame {alphabet : List Key} {stack : Stack} {frame : Frame}
      {check : UInt16} {deobfuscated : Bitstream}
      (h : smallDeobfuscate alphabet stack frame
        = some (check, deobfuscated)) :
      Uses (.smallFrame alphabet stack frame) (smallCall check)
        (smallCall check).output
  | fullFrame {frame : Frame} {stale : ℕ → Key}
      (h : frame.keys.length = 14) :
      Uses (.fullFrame frame stale)
        (fullCall (fullCheckFieldFromFrame frame.keys stale))
        ((List.range 8).map fun i =>
          (fullCall (fullCheckFieldFromFrame frame.keys stale)).output.getD i
            0)
  | originCommand {stack : OmStack} {commandData : List UInt8}
      (h : IsCommand commandData) :
      Uses (.originCommand stack commandData)
        (omCall commandData.length (commandMac commandData))
        ((List.range (commandData.length - 6)).map fun i =>
          (omCall commandData.length (commandMac commandData)).output.getD i
            (stack.prngBytes i))

/-- Within the limits, every byte of the mask is the byte of the check value in
the same place. -/
def WithinLimits (input : GeneratorInput) : Prop :=
  ∀ call mask, Uses input call mask →
    call.seed.length ≤ 4 ∧ call.outputSize ≤ 8 ∧ mask <+: call.chunk

/-- Frames, and origin commands of at most fourteen digits. -/
def Short : GeneratorInput → Prop
  | .originCommand _ commandData =>
      IsCommand commandData → commandData.length ≤ 14
  | _ => True

/-! ## The callers -/

/-- The bytes of `nexus_keycode_pro_small_parse`. -/
theorem smallPrngBytes_eq (check : UInt16) :
    smallPrngBytes check = (smallCall check).output := rfl

/-- Each digit of a full frame loses the byte of its place. -/
theorem fullDeinterleave_eq (keys : List Key) (checkValue : UInt32) :
    fullDeinterleave keys checkValue = keys.mapIdx fun i bodyChar =>
      if i < 8 then deinterleaveKey bodyChar
        (((List.range 8).map fun i =>
          (fullCall checkValue).output.getD i 0).getD i 0)
      else bodyChar := by
  rw [fullDeinterleave]
  refine List.mapIdx_eq_mapIdx_iff.mpr ?_
  intro i hi
  by_cases h : i < 8
  · have hlt : i < ((List.range 8).map fun i =>
        (fullCall checkValue).output.getD i 0).length := by
      rw [List.length_map, List.length_range]
      exact h
    rw [if_pos h, if_pos h, List.getD_eq_getElem _ _ hlt, List.getElem_map,
      List.getElem_range]
    rfl
  · rw [if_neg h, if_neg h]

/-- So does each digit of an origin command before the MAC. -/
theorem deinterleaveDigits_eq (stack : OmStack) {digits : Digits}
    (hlen : digits.length < 262) (checkValue : UInt32) {i : ℕ}
    (hi : i < digits.length - 6) :
    (deinterleaveDigits stack digits checkValue).chars i
      = deinterleaveKey (digits.chars i)
        (((List.range (digits.length - 6)).map fun i =>
          (omCall digits.length checkValue).output.getD i
            (stack.prngBytes i)).getD i 0) := by
  have hcount : i < (digits.length - omFixedMacDigitCount) % 256 := by
    rw [omFixedMacDigitCount]
    omega
  have hlt : i < ((List.range (digits.length - 6)).map fun i =>
      (omCall digits.length checkValue).output.getD i
        (stack.prngBytes i)).length := by
    rw [List.length_map, List.length_range]
    exact hi
  rw [deinterleaveDigits]
  dsimp only
  rw [if_pos hcount, List.getD_eq_getElem _ _ hlt, List.getElem_map,
    List.getElem_range]
  rfl

/-! ## The limits -/

theorem GeneratorCall.output_eq (call : GeneratorCall) :
    call.output = call.chunk.take call.outputSize := rfl

theorem GeneratorCall.length_chunk (call : GeneratorCall) :
    call.chunk.length = 8 := Vector.length_toList

/-- Bytes that are read one by one from what the generator has given. -/
theorem map_output_isFront (call : GeneratorCall) (h : call.outputSize ≤ 8)
    (behind : ℕ → UInt8) :
    ((List.range call.outputSize).map fun i =>
      call.output.getD i (behind i)) <+: call.chunk := by
  have hlen : call.outputSize ≤ call.chunk.length := by
    rw [call.length_chunk]
    exact h
  have houtput : (List.range call.outputSize).map (fun i =>
      call.output.getD i (behind i)) = call.output := by
    refine List.ext_getElem ?_ ?_
    · rw [List.length_map, List.length_range, call.output_eq,
        List.length_take, min_eq_left hlen]
    · intro i hi hi'
      rw [List.getElem_map, List.getElem_range, List.getD_eq_getElem _ _ hi']
  rw [houtput, call.output_eq]
  exact List.take_prefix _ _

/-- The limits are kept by all but long origin commands. -/
theorem withinLimits_iff (input : GeneratorInput) :
    WithinLimits input ↔ Short input := by
  cases input with
  | smallFrame alphabet stack frame =>
      refine iff_of_true ?_ trivial
      rintro call mask ⟨h⟩
      have hseed : 2 ≤ 4 := by omega
      have houtput : 4 ≤ 8 := by omega
      exact ⟨hseed, houtput, List.take_prefix _ _⟩
  | fullFrame frame stale =>
      refine iff_of_true ?_ trivial
      rintro call mask ⟨h⟩
      exact ⟨le_refl 4, le_refl 8,
        map_output_isFront (fullCall _) (le_refl 8) fun _ => 0⟩
  | originCommand stack commandData =>
      constructor
      · intro hlimits hcommand
        obtain ⟨-, hsize, -⟩ := hlimits _ _ (.originCommand hcommand)
        obtain ⟨hlong, hshort, -⟩ := hcommand
        change (commandData.length - 6) % 256 ≤ 8 at hsize
        change commandData.length ≤ 20 at hshort
        omega
      · intro hshort call mask huses
        cases huses with
        | originCommand hcommand =>
            have hlength := hshort hcommand
            have hsize : (omCall commandData.length
                (commandMac commandData)).outputSize
                  = commandData.length - 6 := by
              show (commandData.length - 6) % 256 = _
              omega
            have hle : (omCall commandData.length
                (commandMac commandData)).outputSize ≤ 8 := by
              rw [hsize]
              omega
            have hfront := map_output_isFront _ hle stack.prngBytes
            rw [hsize] at hfront
            exact ⟨le_refl 4, hle, hfront⟩

/-- Fifteen zeros ask for nine bytes. -/
theorem fifteen_digits_beyond :
    ¬ WithinLimits (.originCommand ⟨fun _ => 0, fun _ => 0⟩
      (List.replicate 15 0x30)) := by
  intro h
  have hcommand : IsCommand (List.replicate 15 0x30) := by
    refine ⟨by decide, by decide, ?_⟩
    intro val hval
    rw [List.eq_of_mem_replicate hval]
    decide
  exact absurd (h _ _ (.originCommand hcommand)).2.1 (by decide)

end Nexus
