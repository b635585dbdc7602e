import Nexus.Util.Crc

/-!
# Nonvolatile blocks

`nexus_nv.c` over a faithful store: `nxp_common_nv_read` hands back the bytes
`nxp_common_nv_write` last stored under a block id, and reports failure, leaving
its zeroed buffer alone, for an id that was never written. A block is its id,
the inner data and the CRC of both.
-/

namespace Nexus.Nv

open Nexus.Util

/-- `struct nx_common_nv_block_meta`. -/
structure BlockMeta where
  blockId : UInt16
  length : Nat
deriving DecidableEq

/-- `NX_NV_BLOCK_KEYCODE_MAS`. -/
def blockKeycodeMas : BlockMeta := ⟨0, 8⟩

/-- `NX_NV_BLOCK_KEYCODE_PRO`. -/
def blockKeycodePro : BlockMeta := ⟨1, 16⟩

/-- The product's storage: what is held under each block id. -/
abbrev Store := UInt16 → Option (List UInt8)

/-- `nxp_common_nv_write`. -/
def nxpCommonNvWrite (nv : Store) (blockMeta : BlockMeta) (block : List UInt8) :
    Store :=
  Function.update nv blockMeta.blockId (some block)

/-- `nx_common_nv_block_valid`: the id in front and the CRC behind. -/
def blockValid (blockMeta : BlockMeta) (block : List UInt8) : Bool :=
  block.take 2 == le16 blockMeta.blockId &&
    (block.drop (blockMeta.length - 2)).take 2
      == le16 (computeCrcCcitt (block.take (blockMeta.length - 2)))

/-- The bytes between the id and the CRC. -/
def innerData (blockMeta : BlockMeta) (block : List UInt8) : List UInt8 :=
  (block.drop 2).take (blockMeta.length - 4)

/-- The block `nexus_nv_update` lays out around its inner data. -/
def newBlock (blockMeta : BlockMeta) (inner : List UInt8) : List UInt8 :=
  le16 blockMeta.blockId ++ inner
    ++ le16 (computeCrcCcitt (le16 blockMeta.blockId ++ inner))

/-- What `nexus_nv_update` writes: nothing when the stored block already has
this inner data (its id and CRC are not looked at), else the new block. -/
def updateWrites (nv : Store) (blockMeta : BlockMeta) (inner : List UInt8) :
    Option (List UInt8) :=
  match nv blockMeta.blockId with
  | some existing =>
      if innerData blockMeta existing == inner then none
      else some (newBlock blockMeta inner)
  | none => some (newBlock blockMeta inner)

/-- `nexus_nv_update`, whole. -/
def nvUpdate (nv : Store) (blockMeta : BlockMeta) (inner : List UInt8) :
    Store :=
  match updateWrites nv blockMeta inner with
  | some block => nxpCommonNvWrite nv blockMeta block
  | none => nv

/-- `nexus_nv_read`: the inner data of a valid block. The result of
`nxp_common_nv_read` is ignored, so an id that was never written is checked as a
block of zeros. -/
def nvRead (nv : Store) (blockMeta : BlockMeta) : Option (List UInt8) :=
  let block := (nv blockMeta.blockId).getD
    (List.replicate blockMeta.length 0x00)
  if blockValid blockMeta block then some (innerData blockMeta block) else none

/-! ## A written block reads back -/

section

variable {blockMeta : BlockMeta} {inner : List UInt8}

theorem innerData_newBlock (h : inner.length + 4 = blockMeta.length) :
    innerData blockMeta (newBlock blockMeta inner) = inner := by
  have hlen : blockMeta.length - 4 = inner.length := by omega
  simp [innerData, newBlock, le16, hlen]

theorem blockValid_newBlock (h : inner.length + 4 = blockMeta.length) :
    blockValid blockMeta (newBlock blockMeta inner) = true := by
  have hlen : blockMeta.length - 2 = inner.length + 2 := by omega
  simp [blockValid, newBlock, le16, hlen]

/-- A write is always the whole new block. -/
theorem eq_newBlock_of_updateWrites {nv : Store} {block : List UInt8}
    (h : updateWrites nv blockMeta inner = some block) :
    block = newBlock blockMeta inner := by
  unfold updateWrites at h
  split at h
  · split at h
    · cases h
    · exact (Option.some.inj h).symm
  · exact (Option.some.inj h).symm

/-- An update looks at its own block only. -/
theorem nvUpdate_self (nv : Store) (blockMeta : BlockMeta)
    (inner : List UInt8) :
    nvUpdate nv blockMeta inner blockMeta.blockId
      = nvUpdate (fun _ => nv blockMeta.blockId) blockMeta inner
          blockMeta.blockId := by
  have hwrites : updateWrites (fun _ => nv blockMeta.blockId) blockMeta inner
      = updateWrites nv blockMeta inner := rfl
  unfold nvUpdate
  rw [hwrites]
  cases updateWrites nv blockMeta inner with
  | none => rfl
  | some block => simp [nxpCommonNvWrite]

theorem nvUpdate_of_ne (nv : Store) (blockMeta : BlockMeta)
    (inner : List UInt8) {id : UInt16} (h : id ≠ blockMeta.blockId) :
    nvUpdate nv blockMeta inner id = nv id := by
  unfold nvUpdate
  cases updateWrites nv blockMeta inner with
  | none => rfl
  | some block => exact Function.update_of_ne h _ _

theorem nvRead_of_newBlock {nv : Store}
    (h : inner.length + 4 = blockMeta.length)
    (hnv : nv blockMeta.blockId = some (newBlock blockMeta inner)) :
    nvRead nv blockMeta = some inner := by
  simp [nvRead, hnv, blockValid_newBlock h, innerData_newBlock h]

end

end Nexus.Nv
