import Nexus.Lib.Run

/-!
# Messages between bookends

A stream of keys in which a start key opens a message and an end key, or a
number of keys, closes it. Nothing here is bounded: the open message is the
list of its keys, however long, and its length is looked at only when it is
closed. A message in range is delivered with exactly its keys, any other one is
reported as invalid, and keys outside a message are rejected.
-/

namespace Nexus.Lib

/-- The keys that frame a message and its limits. -/
structure Bookends (α : Type*) where
  start : α
  finish : α
  stopLength : Option ℕ
  maxLength : ℕ

/-- What a key leads to. -/
inductive FramingEvent (α : Type*)
  | keyAccepted
  | keyRejected
  | delivered (keys : List α)
  | messageInvalid
deriving DecidableEq

/-- The events that close a message. -/
def FramingEvent.isMessage {α : Type*} : FramingEvent α → Bool
  | .delivered _ | .messageInvalid => true
  | _ => false

namespace Bookends

variable {α : Type*} [DecidableEq α] (b : Bookends α)

/-- A message is closed. -/
def close (keys : List α) : FramingEvent α :=
  if 0 < keys.length ∧ keys.length ≤ b.maxLength then .delivered keys
  else .messageInvalid

/-- The message has reached its stop length. -/
def Stops (keys : List α) : Prop :=
  ∃ n, b.stopLength = some n ∧ n ≤ keys.length

instance (keys : List α) : Decidable (b.Stops keys) :=
  decidable_of_iff (∃ n ∈ b.stopLength, n ≤ keys.length) (by
    simp [Stops])

/-- The open message, if there is one, after a key. -/
def press (message : Option (List α)) (key : α) : Option (List α) :=
  if key = b.start then some []
  else
    match message with
    | none => none
    | some keys =>
        if key = b.finish ∨ b.Stops (keys ++ [key]) then none
        else some (keys ++ [key])

/-- The event of a key. -/
def event (message : Option (List α)) (key : α) : FramingEvent α :=
  if key = b.start then .keyAccepted
  else
    match message with
    | none => .keyRejected
    | some keys =>
        if key = b.finish then b.close keys
        else if b.Stops (keys ++ [key]) then b.close (keys ++ [key])
        else .keyAccepted

section

variable {b} {message : Option (List α)} {keys : List α} {key : α}

theorem press_start (hstart : key = b.start) :
    b.event message key = .keyAccepted ∧ b.press message key = some [] :=
  ⟨if_pos hstart, if_pos hstart⟩

theorem press_outside (hstart : key ≠ b.start) :
    b.event none key = .keyRejected ∧ b.press none key = none :=
  ⟨if_neg hstart, if_neg hstart⟩

theorem press_finish (hstart : key ≠ b.start) (hend : key = b.finish) :
    b.event (some keys) key = b.close keys ∧
      b.press (some keys) key = none :=
  ⟨(if_neg hstart).trans (if_pos hend),
    (if_neg hstart).trans (if_pos (Or.inl hend))⟩

theorem press_stop (hstart : key ≠ b.start) (hend : key ≠ b.finish)
    (hstop : b.Stops (keys ++ [key])) :
    b.event (some keys) key = b.close (keys ++ [key]) ∧
      b.press (some keys) key = none :=
  ⟨(if_neg hstart).trans ((if_neg hend).trans (if_pos hstop)),
    (if_neg hstart).trans (if_pos (Or.inr hstop))⟩

theorem press_push (hstart : key ≠ b.start) (hend : key ≠ b.finish)
    (hstop : ¬ b.Stops (keys ++ [key])) :
    b.event (some keys) key = .keyAccepted ∧
      b.press (some keys) key = some (keys ++ [key]) :=
  ⟨(if_neg hstart).trans ((if_neg hend).trans (if_neg hstop)),
    (if_neg hstart).trans (if_neg (not_or.mpr ⟨hend, hstop⟩))⟩

end

end Bookends

end Nexus.Lib
