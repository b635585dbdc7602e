import Nexus.Channel.StoredWindow
import Nexus.Proofs.IdWindow

/-!
# What NV keeps of a window

Between two operations NV holds what RAM holds, or has never been written and
RAM is as initialisation leaves it. Then reading NV changes nothing, be it at
startup or later.
-/

namespace Nexus.Channel

open Nexus.Util Nexus.Nv Nexus.Lib

namespace StoredWindow

variable {n : ℕ} {blockMeta : BlockMeta} {start s : StoredWindow n} {nv : Store}

/-- A block that holds a window, with an id that blank memory does not have. -/
structure Fits (n : ℕ) (blockMeta : BlockMeta) : Prop where
  length : n + 8 = blockMeta.length
  blank : blockValid blockMeta (List.replicate blockMeta.length 0x00) = false

/-- NV holds `s`, or nothing yet and `s` is the start. -/
inductive Kept (blockMeta : BlockMeta) (start : StoredWindow n) (nv : Store)
    (s : StoredWindow n) : Prop
  | written (h : nv blockMeta.blockId = some (newBlock blockMeta s.toBytes))
  | never (h : nv blockMeta.blockId = none) (hs : s = start)

theorem Fits.inner (hfits : Fits n blockMeta) (s : StoredWindow n) :
    s.toBytes.length + 4 = blockMeta.length := by
  rw [length_toBytes, ← hfits.length]

namespace Kept

/-- Reading NV gives the window, whatever RAM holds if something has been
written, and from the start otherwise. -/
theorem readNv_of (hfits : Fits n blockMeta) (h : Kept blockMeta start nv s)
    {t : StoredWindow n} (ht : nv blockMeta.blockId = none → t = start) :
    t.readNv nv blockMeta = s := by
  cases h with
  | written h =>
      unfold readNv
      rw [nvRead_of_newBlock (hfits.inner s) h]
      exact ofBytes_toBytes s
  | never h hs =>
      have hnone : nvRead nv blockMeta = none := by
        unfold nvRead
        simp only [h, Option.getD_none, hfits.blank]
        rfl
      unfold readNv
      rw [hnone, ht h, hs]

theorem readNv_self (hfits : Fits n blockMeta)
    (h : Kept blockMeta start nv s) : s.readNv nv blockMeta = s := by
  refine h.readNv_of hfits fun hnone => ?_
  cases h with
  | written h =>
      rw [hnone] at h
      cases h
  | never _ hs => exact hs

theorem readNv_start (hfits : Fits n blockMeta)
    (h : Kept blockMeta start nv s) : start.readNv nv blockMeta = s :=
  h.readNv_of hfits fun _ => rfl

/-- What is written is kept. -/
theorem update (hfits : Fits n blockMeta) (h : Kept blockMeta start nv s)
    (t : StoredWindow n) :
    Kept blockMeta start (nvUpdate nv blockMeta t.toBytes) t := by
  refine .written ?_
  unfold nvUpdate updateWrites
  cases h with
  | written h =>
      rw [h]
      simp only [innerData_newBlock (hfits.inner s), beq_iff_eq]
      by_cases heq : s.toBytes = t.toBytes
      · rw [if_pos heq, ← heq]
        exact h
      · rw [if_neg heq]
        simp [nxpCommonNvWrite]
  | never h _ =>
      rw [h]
      simp [nxpCommonNvWrite]

end Kept

end StoredWindow

end Nexus.Channel
