import Nexus.Nv
import Nexus.Util.Bitset

/-!
# Windows kept in NV

Origin commands and link handshakes are both numbered, and both modules keep
the numbers they have received in a packed structure of the same make: the
index at the center of the window, then one flag for each index up to it. The
structure is stored as a whole in a block of its own.
-/

namespace Nexus.Channel

open Nexus.Util Nexus.Nv

variable {n : Nat}

/-- `_nexus_om_stored`, with four bytes of flags, and `_this.stored_accessory`
of the link handshake, with two. -/
structure StoredWindow (n : Nat) where
  index : UInt32
  receivedIds : Vector UInt8 n
deriving DecidableEq

namespace StoredWindow

/-- The packed memory of the structure. -/
def toBytes (s : StoredWindow n) : List UInt8 :=
  le32 s.index ++ s.receivedIds.toList

/-- The structure whose packed memory is `bytes`. -/
def ofBytes (bytes : List UInt8) : StoredWindow n where
  index := ofLe32 (bytes.getD 0 0) (bytes.getD 1 0) (bytes.getD 2 0)
    (bytes.getD 3 0)
  receivedIds := Vector.ofFn fun i => bytes.getD (4 + i) 0

/-- No flag set, and the window reaches down to zero. -/
def start (below : UInt32) : StoredWindow n := ⟨below, Vector.replicate n 0⟩

/-- `nexus_nv_read` into the structure, its result ignored. -/
def readNv (s : StoredWindow n) (nv : Store) (blockMeta : BlockMeta) :
    StoredWindow n :=
  match nvRead nv blockMeta with
  | some inner => ofBytes inner
  | none => s

/-- `nexus_util_window_init` over the flags, centered on the index. The window
has the flags by reference and the center as a copy. -/
def window (s : StoredWindow n) (flagsBelow flagsAbove : UInt8) : Window n :=
  ⟨s.index, s.receivedIds, flagsBelow, flagsAbove⟩

theorem length_toBytes (s : StoredWindow n) : s.toBytes.length = n + 4 := by
  simp [toBytes, le32]

theorem ofBytes_toBytes (s : StoredWindow n) : ofBytes s.toBytes = s := by
  obtain ⟨index, receivedIds⟩ := s
  have hindex := ofLe32_le32 index
  simp only [ofBytes, toBytes, le32, List.cons_append, List.nil_append,
    List.getD_cons_zero, List.getD_cons_succ, hindex, mk.injEq, true_and]
  ext i hi
  simp [Nat.add_comm 4 i, hi]

end StoredWindow

end Nexus.Channel
