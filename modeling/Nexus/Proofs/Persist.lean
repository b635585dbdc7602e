import Nexus.Keycode.Protocol
import Nexus.Lib.Run

/-!
# What reaches NV

Every function of the protocol layer moves the machine along a trace of calls,
and the trace tells the whole story of NV: replaying its writes over the store
before gives the store after, and every write is a whole block 1 around some
stored structure. `Traced` is that statement, one lemma a function.

On top of it sits the invariant the module keeps between operations.
`Persisted` says that NV holds what RAM holds, or that nothing has ever been
written and RAM is as initialisation leaves it; then reading NV back changes
nothing.
-/

namespace Nexus.Keycode

open Nexus.Util

/-- The store after the NV writes of a trace. -/
def nvAfter : Nv.Store → List Effect → Nv.Store
  | nv, [] => nv
  | nv, .nvWrite i block :: es => nvAfter (Function.update nv i (some block)) es
  | nv, _ :: es => nvAfter nv es

theorem nvAfter_append (nv : Nv.Store) (es es' : List Effect) :
    nvAfter nv (es ++ es') = nvAfter (nvAfter nv es) es' := by
  induction es generalizing nv with
  | nil => rfl
  | cons e es ih => cases e <;> simp [nvAfter, ih]

/-- `NX_NV_BLOCK_KEYCODE_PRO` around a stored structure. -/
def Stored.block (s : Stored) : List UInt8 :=
  Nv.newBlock Nv.blockKeycodePro s.toBytes

theorem Stored.block_injective : Function.Injective Stored.block := by
  intro s t h
  have hlen (u : Stored) : u.toBytes.length + 4 = Nv.blockKeycodePro.length :=
    by rw [Stored.length_toBytes]; rfl
  apply Stored.toBytes_injective
  rw [← Nv.innerData_newBlock (hlen s), ← Nv.innerData_newBlock (hlen t)]
  exact congrArg _ h

/-- An NV write. -/
def Effect.isNvWrite : Effect → Bool
  | .nvWrite _ _ => true
  | _ => false

/-- From `m` to `m'` by the calls `es`. -/
structure Traced (m : Machine) (es : List Effect) (m' : Machine) : Prop where
  effects : m'.effects = m.effects ++ es
  nv : m'.nv = nvAfter m.nv es
  writes : ∀ i block, .nvWrite i block ∈ es →
    i = Nv.blockKeycodePro.blockId ∧ ∃ s : Stored, block = s.block

/-- From `m` to `m'` by NV writes alone. -/
def Writes (m m' : Machine) : Prop :=
  ∃ es, Traced m es m' ∧ ∀ e ∈ es, e.isNvWrite = true

namespace Traced

theorem refl (m : Machine) : Traced m [] m :=
  ⟨by simp, rfl, by simp⟩

theorem trans {m m' m'' : Machine} {es es' : List Effect}
    (h : Traced m es m') (h' : Traced m' es' m'') :
    Traced m (es ++ es') m'' where
  effects := by rw [h'.effects, h.effects, List.append_assoc]
  nv := by rw [h'.nv, h.nv, nvAfter_append]
  writes := by
    intro i block hmem
    rcases List.mem_append.mp hmem with hm | hm
    · exact h.writes i block hm
    · exact h'.writes i block hm

/-- A change of RAM alone makes no call. -/
theorem ofStored (m : Machine) (s : Stored) :
    Traced m [] { m with stored := s } :=
  ⟨by simp, rfl, by simp⟩

theorem emit (m : Machine) {e : Effect} (he : e.isNvWrite = false) :
    Traced m [e] (m.emit e) where
  effects := rfl
  nv := by cases e <;> first | rfl | cases he
  writes := by
    intro i block hmem
    rw [List.mem_singleton] at hmem
    subst hmem
    cases he

end Traced

namespace Writes

theorem refl (m : Machine) : Writes m m := ⟨[], .refl m, by simp⟩

theorem trans {m m' m'' : Machine} (h : Writes m m') (h' : Writes m' m'') :
    Writes m m'' := by
  obtain ⟨es, ht, hw⟩ := h
  obtain ⟨es', ht', hw'⟩ := h'
  refine ⟨es ++ es', ht.trans ht', fun e he => ?_⟩
  rcases List.mem_append.mp he with he | he
  · exact hw e he
  · exact hw' e he

theorem ofStored (m : Machine) (s : Stored) :
    Writes m { m with stored := s } :=
  ⟨[], .ofStored m s, by simp⟩

theorem updateNvBlocks (m : Machine) : Writes m m.updateNvBlocks := by
  unfold Machine.updateNvBlocks Machine.nvUpdate
  split
  · next block hblock =>
      refine ⟨[.nvWrite Nv.blockKeycodePro.blockId block],
        ⟨rfl, rfl, ?_⟩, by simp [Effect.isNvWrite]⟩
      intro i b hmem
      simp only [List.mem_singleton, Effect.nvWrite.injEq] at hmem
      obtain ⟨rfl, rfl⟩ := hmem
      exact ⟨rfl, m.stored, Nv.eq_newBlock_of_updateWrites hblock⟩
  · exact .refl m

/-- Change RAM, then persist. -/
theorem ofStored_update (m : Machine) (s : Stored) :
    Writes m (Machine.updateNvBlocks { m with stored := s }) :=
  (ofStored m s).trans (updateNvBlocks _)

theorem readNv (m : Machine) : Writes m m.readNv := by
  unfold Machine.readNv
  split
  · exact ofStored m _
  · exact .refl m

theorem wipeMessageIdsInWindow (m : Machine) :
    Writes m m.wipeMessageIdsInWindow := ofStored_update m _

theorem increasePdAndShiftWindowRight (m : Machine) (pdIncrement : UInt32) :
    Writes m (m.increasePdAndShiftWindowRight pdIncrement) := by
  unfold Machine.increasePdAndShiftWindowRight
  refine Writes.trans ?_ (ofStored_update _ _)
  split
  · exact wipeMessageIdsInWindow m
  · exact ofStored m _

theorem updateWindowAndMessageMaskId (m : Machine) (id : UInt16) :
    Writes m (m.updateWindowAndMessageMaskId id).2 := by
  unfold Machine.updateWindowAndMessageMaskId
  simp only []
  split
  · exact increasePdAndShiftWindowRight m _
  · split
    · split <;> exact .refl m
    · exact .refl m

theorem setFullMessageIdFlag (m : Machine) (id : UInt16) :
    Writes m (m.setFullMessageIdFlag id) := by
  unfold Machine.setFullMessageIdFlag Machine.getFullMessageIdFlag
  simp only []
  split
  · exact readNv m
  · exact (readNv m).trans
      ((updateWindowAndMessageMaskId _ id).trans (ofStored_update _ _))

theorem maskBelowMessageId (m : Machine) (id : UInt16) :
    Writes m (m.maskBelowMessageId id) := by
  unfold Machine.maskBelowMessageId
  split
  · exact .refl m
  · split
    · exact .refl m
    · exact (updateWindowAndMessageMaskId m _).trans (ofStored_update _ _)

theorem incrementLongQcTestMessageCount (m : Machine) (cfg : Config) :
    Writes m (m.incrementLongQcTestMessageCount cfg) := by
  unfold Machine.incrementLongQcTestMessageCount
  simp only []
  split
  · exact .refl m
  · exact ofStored_update m _

theorem incrementShortQcTestMessageCount (m : Machine) (cfg : Config) :
    Writes m (m.incrementShortQcTestMessageCount cfg) := by
  unfold Machine.incrementShortQcTestMessageCount
  simp only []
  split
  · exact .refl m
  · exact ofStored_update m _

theorem wipeMask (m : Machine) : Writes m m.wipeMask := by
  unfold Machine.wipeMask
  exact (ofStored m _).trans ((ofStored _ _).trans (wipeMessageIdsInWindow _))

end Writes

/-! ## The invariant between operations -/

/-- Block 1 of the store holds nothing, or a whole stored structure. -/
def NvSound (nv : Nv.Store) : Prop :=
  nv Nv.blockKeycodePro.blockId = none ∨
    ∃ s : Stored, nv Nv.blockKeycodePro.blockId = some s.block

theorem NvSound.after {nv : Nv.Store} {es : List Effect} (h : NvSound nv)
    (hes : ∀ i block, .nvWrite i block ∈ es →
      i = Nv.blockKeycodePro.blockId ∧ ∃ s : Stored, block = s.block) :
    NvSound (nvAfter nv es) := by
  induction es generalizing nv with
  | nil => exact h
  | cons e es ih =>
      have hrest := fun i block hm => hes i block (List.mem_cons_of_mem e hm)
      cases e with
      | nvWrite i block =>
          obtain ⟨rfl, s, rfl⟩ := hes i block (by simp)
          exact ih (Or.inr ⟨s, by simp⟩) hrest
      | _ => exact ih h hrest

theorem Writes.sound {m m' : Machine} (h : Writes m m') (hm : NvSound m.nv) :
    NvSound m'.nv := by
  obtain ⟨es, ht, -⟩ := h
  rw [ht.nv]
  exact hm.after ht.writes

/-- NV holds what RAM holds, or was never written and RAM is in its initial
state. -/
def Persisted (m : Machine) : Prop :=
  (m.nv Nv.blockKeycodePro.blockId = none ∧ m.stored = Stored.factory) ∨
    m.nv Nv.blockKeycodePro.blockId = some m.stored.block

theorem Persisted.sound {m : Machine} (h : Persisted m) : NvSound m.nv := by
  rcases h with ⟨h, -⟩ | h
  · exact Or.inl h
  · exact Or.inr ⟨m.stored, h⟩

theorem nvRead_block {nv : Nv.Store} {s : Stored}
    (h : nv Nv.blockKeycodePro.blockId = some s.block) :
    Nv.nvRead nv Nv.blockKeycodePro = some s.toBytes :=
  Nv.nvRead_of_newBlock (by rw [Stored.length_toBytes]; rfl) h

theorem nvRead_blank {nv : Nv.Store}
    (h : nv Nv.blockKeycodePro.blockId = none) :
    Nv.nvRead nv Nv.blockKeycodePro = none := by
  have hzero : Nv.blockValid Nv.blockKeycodePro
      (List.replicate Nv.blockKeycodePro.length 0x00) = false := by decide
  simp [Nv.nvRead, h, hzero]

/-- Reading NV back is the identity on a persisted machine. -/
theorem Persisted.readNv {m : Machine} (h : Persisted m) : m.readNv = m := by
  unfold Machine.readNv
  rcases h with ⟨h, -⟩ | h
  · rw [nvRead_blank h]
  · rw [nvRead_block h]
    simp only [Stored.ofBytes_toBytes]

/-- Initialisation is the identity on a persisted machine. -/
theorem Persisted.init {m : Machine} (h : Persisted m) : m.init = m := by
  unfold Machine.init Machine.getFullMessageIdFlag Machine.readNv
  rcases h with ⟨h, hs⟩ | h
  · simp only [nvRead_blank h, ← hs]
  · simp only [nvRead_block h, Stored.ofBytes_toBytes]

@[simp] theorem Machine.updateNvBlocks_stored (m : Machine) :
    m.updateNvBlocks.stored = m.stored := by
  unfold Machine.updateNvBlocks Machine.nvUpdate
  split <;> rfl

/-- `nexus_nv_update` leaves its inner data in NV, over nothing or over a whole
block. -/
theorem nvUpdate_nv {m : Machine} {blockMeta : Nv.BlockMeta}
    {inner : List UInt8}
    (h : m.nv blockMeta.blockId = none ∨
      ∃ old : List UInt8, old.length + 4 = blockMeta.length ∧
        m.nv blockMeta.blockId = some (Nv.newBlock blockMeta old)) :
    (m.nvUpdate blockMeta inner).nv blockMeta.blockId =
      some (Nv.newBlock blockMeta inner) := by
  unfold Machine.nvUpdate
  split
  · next block hblock =>
      rw [Nv.eq_newBlock_of_updateWrites hblock]
      simp [Machine.emit, Nv.nxpCommonNvWrite]
  · next hnone =>
      -- nothing was written, so the block there has the same inner data
      unfold Nv.updateWrites at hnone
      rcases h with h | ⟨old, hold, h⟩
      · rw [h] at hnone
        cases hnone
      · rw [h] at hnone ⊢
        simp only [Nv.innerData_newBlock hold, beq_iff_eq, ite_eq_left_iff,
          reduceCtorEq, imp_false, not_not] at hnone
        rw [hnone]

/-- `_update_keycode_pro_nv_blocks` leaves RAM in NV. -/
theorem updateNvBlocks_nv {m : Machine} (h : NvSound m.nv) :
    m.updateNvBlocks.nv Nv.blockKeycodePro.blockId = some m.stored.block := by
  have hlen (u : Stored) : u.toBytes.length + 4 = Nv.blockKeycodePro.length :=
    by rw [Stored.length_toBytes]; rfl
  apply nvUpdate_nv
  rcases h with h | ⟨s, h⟩
  · exact Or.inl h
  · exact Or.inr ⟨s.toBytes, hlen s, h⟩

theorem persisted_updateNvBlocks {m : Machine} (h : NvSound m.nv) :
    Persisted m.updateNvBlocks := by
  refine Or.inr ?_
  rw [updateNvBlocks_nv h, Machine.updateNvBlocks_stored]

/-- A call that is no NV write keeps the invariant. -/
theorem Persisted.emit {m : Machine} (h : Persisted m) (e : Effect) :
    Persisted (m.emit e) := h

theorem Persisted.quiet {m : Machine} (h : Persisted m) :
    Persisted m.quiet := h

/-- A machine whose NV holds its stored structure. -/
def Machine.ofStored (s : Stored) : Machine :=
  ⟨s, Function.update (fun _ => none) Nv.blockKeycodePro.blockId
    (some s.block), []⟩

theorem Persisted.ofStored (s : Stored) : Persisted (Machine.ofStored s) :=
  Or.inr (by simp [Machine.ofStored])

end Nexus.Keycode
