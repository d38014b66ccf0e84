import Mathlib.Data.Nat.Basic
import Mathlib.Order.Basic
import Rotshield.Btrfs.Util

/-! Tree objectids, key types, chunk flags, keys and child pointers. -/
namespace Rotshield.Btrfs

namespace ObjectId
def extentTree : UInt64 := 2
def devTree : UInt64 := 4
def fsTree : UInt64 := 5
def csumTree : UInt64 := 7
/-- The objectid under which EXTENT_CSUM items live: -10. -/
def extentCsum : UInt64 := 0xFFFFFFFFFFFFFFF6
end ObjectId

namespace KeyType
def extentCsum : UInt8 := 128
def rootItem : UInt8 := 132
def extentItem : UInt8 := 168
def metadataItem : UInt8 := 169
def devExtent : UInt8 := 204
def chunkItem : UInt8 := 228
end KeyType

namespace BgFlag
def data : UInt64 := (1 : UInt64) <<< 0
def raid0 : UInt64 := (1 : UInt64) <<< 3
def raid1 : UInt64 := (1 : UInt64) <<< 4
def dup : UInt64 := (1 : UInt64) <<< 5
def raid10 : UInt64 := (1 : UInt64) <<< 6
def raid5 : UInt64 := (1 : UInt64) <<< 7
def raid6 : UInt64 := (1 : UInt64) <<< 8
def raid1c3 : UInt64 := (1 : UInt64) <<< 9
def raid1c4 : UInt64 := (1 : UInt64) <<< 10
end BgFlag

/-- A btrfs key, 17 bytes on disk. -/
@[ext] structure Key where
  objectid : UInt64
  ty : UInt8
  offset : UInt64
  deriving DecidableEq, Repr

namespace Key

def parse (buf : Bytes) (pos : Nat) : Exec Key := do
  let objectid ← leU64 buf pos
  let ty ← byteAt buf (pos + 8)
  let offset ← leU64 buf (pos + 9)
  return { objectid, ty, offset }

/-- The key read as one number, most significant field first. -/
def code (k : Key) : Nat := (k.objectid.toNat * 2 ^ 8 + k.ty.toNat) * 2 ^ 64 + k.offset.toNat

theorem code_injective : Function.Injective code := by
  intro a b h
  have ha := a.ty.toNat_lt
  have hb := b.ty.toNat_lt
  have ha' := a.offset.toNat_lt
  have hb' := b.offset.toNat_lt
  unfold code at h
  apply Key.ext
  · exact UInt64.toNat_inj.mp (by omega)
  · exact UInt8.toNat_inj.mp (by omega)
  · exact UInt64.toNat_inj.mp (by omega)

/-- Keys are ordered by objectid, then type, then offset. -/
instance : LinearOrder Key := LinearOrder.lift' code code_injective

theorem le_def (a b : Key) : a ≤ b ↔ a.code ≤ b.code := Iff.rfl

theorem lt_def (a b : Key) : a < b ↔ a.code < b.code := Iff.rfl

end Key

/-- Lexicographic comparison of the three fields. -/
def keyLeq (a b : Key) : Bool :=
  decide (a.objectid < b.objectid) || (a.objectid == b.objectid &&
    (decide (a.ty < b.ty) || (a.ty == b.ty && decide (a.offset ≤ b.offset))))

theorem keyLeq_iff (a b : Key) : keyLeq a b = true ↔ a ≤ b := by
  have ha := a.ty.toNat_lt
  have hb := b.ty.toNat_lt
  have ha' := a.offset.toNat_lt
  have hb' := b.offset.toNat_lt
  simp only [keyLeq, Bool.or_eq_true, Bool.and_eq_true, decide_eq_true_eq, beq_iff_eq,
    UInt64.lt_iff_toNat_lt, UInt8.lt_iff_toNat_lt, UInt64.le_iff_toNat_le, ← UInt64.toNat_inj,
    ← UInt8.toNat_inj, Key.le_def, Key.code]
  omega

/-- A child pointer of an internal node, 33 bytes on disk. -/
structure KeyPtr where
  key : Key
  blockptr : UInt64
  generation : UInt64
  deriving DecidableEq, Repr

def KeyPtr.parse (buf : Bytes) (pos : Nat) : Exec KeyPtr := do
  let key ← Key.parse buf pos
  let blockptr ← leU64 buf (pos + 17)
  let generation ← leU64 buf (pos + 25)
  return { key, blockptr, generation }

end Rotshield.Btrfs
