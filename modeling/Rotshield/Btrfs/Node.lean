import Rotshield.Btrfs.Key

/-! Node and leaf parsing: the header, leaf item slots, and child pointers. -/
namespace Rotshield.Btrfs

def headerSize : Nat := 101
def leafItemSize : Nat := 25
def keyptrSize : Nat := 33

/-- The header fields after the 32-byte checksum. -/
structure Header where
  fsid : Bytes
  bytenr : UInt64
  flags : UInt64
  chunkTreeUuid : Bytes
  generation : UInt64
  owner : UInt64
  nritems : UInt32
  /-- 0 is a leaf. -/
  level : UInt8
  deriving DecidableEq, Repr

def Header.parse (buf : Bytes) : Exec Header := do
  let fsid ← slice buf 32 16
  let bytenr ← leU64 buf 48
  let flags ← leU64 buf 56
  let chunkTreeUuid ← slice buf 64 16
  let generation ← leU64 buf 80
  let owner ← leU64 buf 88
  let nritems ← leU32 buf 96
  let level ← byteAt buf 100
  return { fsid, bytenr, flags, chunkTreeUuid, generation, owner, nritems, level }

/-- One slot of a leaf's item array. -/
structure LeafItemSlot where
  key : Key
  /-- Relative to the end of the header. -/
  dataOffset : UInt32
  dataSize : UInt32
  deriving DecidableEq, Repr

def LeafItemSlot.parse (buf : Bytes) (pos : Nat) : Exec LeafItemSlot := do
  let key ← Key.parse buf pos
  let dataOffset ← leU32 buf (pos + 17)
  let dataSize ← leU32 buf (pos + 21)
  return { key, dataOffset, dataSize }

structure Leaf where
  header : Header
  slots : List LeafItemSlot
  buf : Bytes
  deriving DecidableEq, Repr

namespace Leaf

def dataOf (leaf : Leaf) (slot : LeafItemSlot) : Exec Bytes :=
  slice leaf.buf (headerSize + slot.dataOffset.toNat) slot.dataSize.toNat

def itemData (leaf : Leaf) (i : Nat) : Exec Bytes :=
  match leaf.slots[i]? with
  | none => .error .panic
  | some slot => leaf.dataOf slot

end Leaf

structure InternalNode where
  header : Header
  ptrs : List KeyPtr
  deriving DecidableEq, Repr

inductive Node where
  | leaf (l : Leaf)
  | internal (i : InternalNode)
  deriving DecidableEq, Repr

def Node.parse (buf : Bytes) : Exec Node := do
  let header ← Header.parse buf
  let n := header.nritems.toNat
  if header.level = 0 then
    let slots ← (List.range n).mapM fun i => LeafItemSlot.parse buf (headerSize + i * leafItemSize)
    return .leaf { header, slots, buf }
  else
    let ptrs ← (List.range n).mapM fun i => KeyPtr.parse buf (headerSize + i * keyptrSize)
    return .internal { header, ptrs }

end Rotshield.Btrfs
