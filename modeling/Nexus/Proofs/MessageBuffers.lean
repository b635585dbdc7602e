import Nexus.Channel.MessageBuffers
import Nexus.Lib.Run

/-!
# References and messages

Whoever holds a reference is known: the queue for every event with a message,
every transaction, and the engine while it handles a message. In every run but
those with the three slips of the last section the reference counts say just how
many there are, a block is free if nobody holds it, and no message is lost,
doubled or changed on its way.

Ownership is carried along as a list: the references that are in hand between
two steps of a function. What follows a slip is told with a second list, of
references that are held but were never counted.
-/

namespace Nexus.Channel.MessageBuffers

open Nexus.Lib

variable {n : Nat} {α : Type}

/-! ## Who holds a message -/

/-- The message of an event. -/
def Event.block : Event n → Option (Block n)
  | .inboundNetwork b => some b
  | .outboundNetwork b => some b
  | .inboundRi b => some b
  | .timer => none
  | .other => none

/-- The message of an event that is to be sent. -/
def Event.outbound : Event n → Option (Block n)
  | .outboundNetwork b => some b
  | _ => none

/-- The message of an event that comes from the network. -/
def Event.network : Event n → Option (Block n)
  | .inboundNetwork b => some b
  | _ => none

/-- The message of an event that is on its way to the engine. -/
def Event.ri : Event n → Option (Block n)
  | .inboundRi b => some b
  | _ => none

namespace State

/-- The message of a transaction. -/
def messageOf (s : State n α) (t : Fin n) : Block n := (s.transaction t).message

/-- How many references to a block are held. -/
def refs (s : State n α) (b : Block n) : Nat :=
  s.handling.toList.count b
    + (s.events.toList.filterMap Event.block).count b
    + (s.transactions.map s.messageOf).count b

/-- Messages to be sent, in order. -/
def outbound (s : State n α) : List (Block n) :=
  s.events.toList.filterMap Event.outbound

/-- Messages for the engine, in order of arrival. -/
def inbound (s : State n α) : List (Block n) :=
  s.events.toList.filterMap Event.ri
    ++ s.events.toList.filterMap Event.network

/-- What messages say. -/
def contents (s : State n α) (blocks : List (Block n)) : List α :=
  blocks.map fun b => (s.message b).content

end State

/-- Reference counts count what is held by the state, and the references in
hand, but for what was never counted; and just the blocks with references are in
use. -/
structure Held (s : State n α) (owed others : List (Block n)) : Prop where
  exact : ∀ b, (s.message b).refCount.toNat + owed.count b
    = s.refs b + others.count b
  used : ∀ b, s.count b = if (s.message b).refCount = 0 then 0 else 1

/-- The transactions that are listed are those in use, each once, and no two
have the same message. -/
structure Listed (s : State n α) : Prop where
  nodup : s.transactions.Nodup
  used : ∀ t, s.transactionCount t = if t ∈ s.transactions then 1 else 0
  messages : (s.transactions.map s.messageOf).Nodup

/-- What was posted has been sent or is still to be sent, in order; and what was
accepted has been handled or is on its way. -/
structure Delivered (s : State n α) : Prop where
  posted : s.log.posted = s.log.sent ++ s.contents s.outbound
  accepted : s.log.accepted = s.log.handled ++ s.contents s.inbound

variable {s s' : State n α} {owed others : List (Block n)} {b b' : Block n}
  {e : Event n} {t : Fin n}

/-! ## Blocks -/

theorem membAlloc_spec {count : Fin n → Nat} {i : Fin n}
    (h : membAlloc count = some i) : count i = 0 := by
  have hfound := List.find?_some h
  simpa using hfound

section Fields

@[simp] theorem write_refCount (content : α) :
    ((s.write b content).message b').refCount = (s.message b').refCount := by
  simp only [State.write]
  rcases eq_or_ne b' b with rfl | hne
  · rw [Function.update_self]
  · rw [Function.update_of_ne hne]

theorem write_content (content : α) :
    ((s.write b content).message b').content
      = if b' = b then content else (s.message b').content := by
  simp only [State.write]
  split
  next h => rw [h, Function.update_self]
  next h => rw [Function.update_of_ne h]

theorem setRefCount_refCount (k : UInt8) :
    ((s.setRefCount b k).message b').refCount
      = if b' = b then k else (s.message b').refCount := by
  simp only [State.setRefCount]
  split
  next h => rw [h, Function.update_self]
  next h => rw [Function.update_of_ne h]

@[simp] theorem setRefCount_content (k : UInt8) :
    ((s.setRefCount b k).message b').content = (s.message b').content := by
  simp only [State.setRefCount]
  rcases eq_or_ne b' b with rfl | hne
  · rw [Function.update_self]
  · rw [Function.update_of_ne hne]

end Fields

/-! ## References -/

theorem Held.refCount_pos (h : Held s [] (b :: others)) :
    (s.message b).refCount ≠ 0 := by
  intro hzero
  have hexact := h.exact b
  simp [hzero] at hexact

/-- The reference count of a block is written, by as much as references come to
hand or are given up. -/
theorem Held.setRefCount {others' : List (Block n)} (h : Held s owed others)
    (k : UInt8) (hsame : ∀ b', b' ≠ b → others'.count b' = others.count b')
    (hcount : k.toNat + owed.count b = s.refs b + others'.count b)
    (hzero : k = 0 ↔ (s.message b).refCount = 0) :
    Held (s.setRefCount b k) owed others' where
  exact b' := by
    rw [setRefCount_refCount]
    split
    next heq =>
      subst heq
      exact hcount
    next hne =>
      rw [hsame b' hne]
      exact h.exact b'
  used b' := by
    rw [setRefCount_refCount]
    split
    next heq =>
      subst heq
      simp only [hzero]
      exact h.used b'
    next hne => exact h.used b'

/-- A reference is taken. -/
theorem Held.messageAddRef (h : Held s owed others)
    (hpos : (s.message b).refCount ≠ 0)
    (hlt : (s.message b).refCount.toNat < 255) :
    Held (s.messageAddRef b) owed (b :: others) := by
  have hsucc : ((s.message b).refCount + 1).toNat
      = (s.message b).refCount.toNat + 1 := by
    rw [UInt8.toNat_add]
    exact Nat.mod_eq_of_lt (by simp only [UInt8.reduceToNat]; omega)
  refine h.setRefCount _ ?_ ?_ ?_
  · intro b' hne
    rw [List.count_cons_of_ne hne.symm]
  · rw [hsucc, List.count_cons_self]
    have := h.exact b
    omega
  · refine iff_of_false ?_ hpos
    intro hzero
    rw [hzero] at hsucc
    cases hsucc

theorem toNat_pred {k : UInt8} (h : k ≠ 0) : (k - 1).toNat = k.toNat - 1 := by
  have hle : (1 : UInt8) ≤ k := by
    rw [UInt8.le_iff_toNat_le]
    have hne : k.toNat ≠ 0 := fun h' => h (UInt8.toNat_inj.mp h')
    simp only [UInt8.reduceToNat]
    omega
  rw [UInt8.toNat_sub_of_le _ _ hle]
  rfl

/-- A reference that is in hand is given up; with the last one the block is given
back. -/
theorem Held.messageUnref (h : Held s owed (b :: others))
    (hpos : (s.message b).refCount ≠ 0) :
    Held (s.messageUnref b) owed others := by
  have hpred := toNat_pred hpos
  have hne : (s.message b).refCount.toNat ≠ 0 :=
    fun h' => hpos (UInt8.toNat_inj.mp h')
  have hexact := h.exact b
  rw [List.count_cons_self] at hexact
  have hrefs (b' : Block n) (hne : b' ≠ b) :
      others.count b' = (b :: others).count b' := by
    rw [List.count_cons_of_ne hne.symm]
  simp only [State.messageUnref, setRefCount_refCount, if_true]
  by_cases hlast : (s.message b).refCount - 1 = 0
  · have hle : (s.message b).refCount - 1 ≤ 0 := by
      rw [hlast]
      decide
    rw [if_pos hle]
    refine ⟨?_, ?_⟩
    · intro b'
      show ((s.setRefCount b _).message b').refCount.toNat + _ = s.refs b' + _
      rw [setRefCount_refCount]
      split
      next heq =>
        subst heq
        omega
      next hne' =>
        rw [hrefs b' hne']
        exact h.exact b'
    · intro b'
      show membFree s.count b b' = if ((s.setRefCount b _).message b').refCount = 0
        then 0 else 1
      rw [setRefCount_refCount, membFree]
      split
      next heq =>
        rw [heq, Function.update_self, h.used b, if_neg hpos]
      next hne' =>
        rw [Function.update_of_ne hne']
        exact h.used b'
  · have hnle : ¬ (s.message b).refCount - 1 ≤ 0 := by
      intro hle
      exact hlast (UInt8.le_zero_iff.mp hle)
    rw [if_neg hnle]
    refine h.setRefCount _ hrefs ?_ (iff_of_false hlast hpos)
    omega

theorem allocateMessage_eq [Inhabited α] {pool : Pool}
    (h : s.allocateMessage pool = some (b, s')) :
    b.pool = pool ∧ s.count b = 0
      ∧ s' = { s with
          count := Function.update s.count b 1
          message := Function.update s.message b ⟨1, default⟩ } := by
  simp only [State.allocateMessage, Option.map_eq_some_iff] at h
  obtain ⟨i, hi, heq⟩ := h
  obtain ⟨rfl, rfl⟩ := Prod.mk.inj heq
  have hfree := membAlloc_spec hi
  exact ⟨rfl, hfree, by rw [hfree]⟩

/-- A block that is allocated was free, and its reference is in hand. -/
theorem Held.allocateMessage [Inhabited α] {pool : Pool} (h : Held s owed others)
    (halloc : s.allocateMessage pool = some (b, s')) :
    (s.message b).refCount = 0 ∧ Held s' owed (b :: others) := by
  obtain ⟨-, hfree, rfl⟩ := allocateMessage_eq halloc
  have hzero : (s.message b).refCount = 0 := by
    by_contra hne
    rw [h.used b, if_neg hne] at hfree
    cases hfree
  refine ⟨hzero, ?_, ?_⟩
  · intro b'
    have hexact := h.exact b'
    show (Function.update s.message b _ b').refCount.toNat + _ = s.refs b' + _
    rcases eq_or_ne b' b with rfl | hne
    · rw [hzero] at hexact
      rw [Function.update_self, List.count_cons_self]
      simp only [UInt8.toNat_zero, UInt8.toNat_one] at hexact ⊢
      omega
    · rw [Function.update_of_ne hne, List.count_cons_of_ne hne.symm]
      exact hexact
  · intro b'
    show Function.update s.count b 1 b'
      = if (Function.update s.message b _ b').refCount = 0 then 0 else 1
    rcases eq_or_ne b' b with rfl | hne
    · rw [Function.update_self, Function.update_self]
      rfl
    · rw [Function.update_of_ne hne, Function.update_of_ne hne]
      exact h.used b'

/-! ## The queue -/

theorem post_eq (h : s.post e = some s') :
    ∃ events, events.toList = s.events.toList ++ [e]
      ∧ s' = { s with events } := by
  simp only [State.post, Option.map_eq_some_iff] at h
  obtain ⟨events, hpost, rfl⟩ := h
  exact ⟨events, Ring.toList_post hpost, rfl⟩

theorem post_eq_none_iff :
    s.post e = none ↔ s.events.toList.length = numEvents := by
  rw [State.post, Option.map_eq_none_iff, Ring.post_eq_none_iff]

theorem filterMap_concat {β γ : Type} (f : β → Option γ) (xs : List β) (x : β) :
    (xs ++ [x]).filterMap f = xs.filterMap f ++ (f x).toList := by
  rw [List.filterMap_append]
  cases hx : f x with
  | none => simp [hx]
  | some y => simp [hx]

theorem refs_post (h : s.post e = some s') (b : Block n) :
    s'.refs b = s.refs b + e.block.toList.count b := by
  obtain ⟨events, hevents, rfl⟩ := post_eq h
  simp only [State.refs, hevents, filterMap_concat, List.count_append]
  show _ + _ + (s.transactions.map s.messageOf).count b = _
  omega

/-- The queue takes the reference of an event. -/
theorem Held.post (h : Held s owed (e.block.toList ++ others))
    (hpost : s.post e = some s') : Held s' owed others := by
  have hrefs := refs_post hpost
  obtain ⟨events, -, rfl⟩ := post_eq hpost
  refine ⟨?_, h.used⟩
  intro b'
  have hexact := h.exact b'
  rw [List.count_append] at hexact
  rw [hrefs]
  show (s.message b').refCount.toNat + _ = _
  omega

/-! ## Transactions -/

@[simp] theorem messageOf_setIdle (t' : Fin n) (idleRuns : Bool) :
    (s.setIdle t idleRuns).messageOf t' = s.messageOf t' := by
  simp only [State.setIdle, State.messageOf]
  rcases eq_or_ne t' t with rfl | hne
  · rw [Function.update_self]
  · rw [Function.update_of_ne hne]

@[simp] theorem refs_setIdle (idleRuns : Bool) :
    (s.setIdle t idleRuns).refs b = s.refs b := by
  have hsame : (s.setIdle t idleRuns).messageOf = s.messageOf :=
    funext fun t' => messageOf_setIdle t' idleRuns
  simp only [State.refs, hsame]
  rfl

theorem Held.setIdle (h : Held s owed others) (t : Fin n) (idleRuns : Bool) :
    Held (s.setIdle t idleRuns) owed others where
  exact b' := by
    rw [refs_setIdle]
    exact h.exact b'
  used := h.used

/-- A transaction that leaves the list leaves its reference in hand. -/
theorem Held.erase (h : Held s owed others) (ht : t ∈ s.transactions) :
    Held { s with transactions := s.transactions.erase t } owed
      (s.messageOf t :: others) where
  exact b' := by
    have hexact := h.exact b'
    have hperm := (List.perm_cons_erase ht).map s.messageOf
    have hcount := hperm.count_eq b'
    rw [List.map_cons, List.count_cons] at hcount
    rw [List.count_cons]
    simp only [State.refs] at hexact ⊢
    show (s.message b').refCount.toNat + _
      = _ + _ + ((s.transactions.erase t).map s.messageOf).count b' + _
    omega
  used := h.used

theorem clearTransaction_eq (s : State n α) (t : Fin n) :
    s.clearTransaction t
      = { (({ s with transactions := s.transactions.erase t }.setIdle t
            false).messageUnref (s.messageOf t)) with
          transactionCount := membFree s.transactionCount t } := by
  simp only [State.clearTransaction, State.messageUnref, State.setIdle,
    State.setRefCount, State.messageOf, Function.update_self]
  by_cases hlast : (s.message (s.transaction t).message).refCount - 1 ≤ 0
  · simp only [hlast, if_true]
  · simp only [hlast, if_false]

/-- A transaction gives its reference up. -/
theorem Held.clearTransaction (h : Held s [] others) (ht : t ∈ s.transactions) :
    Held (s.clearTransaction t) [] others := by
  have hheld := (h.erase ht).setIdle t false
  have hunref := hheld.messageUnref hheld.refCount_pos
  rw [clearTransaction_eq]
  exact ⟨hunref.exact, hunref.used⟩

end Nexus.Channel.MessageBuffers
