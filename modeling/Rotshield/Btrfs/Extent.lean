import Rotshield.Btrfs.Reader
import Rotshield.Fs

/-! Live extent- and csum-tree lookups that re-classify a mismatched sector. -/
namespace Rotshield.Btrfs
open Lib (partitionPoint)

variable {m : Type → Type} [Monad m] [MonadExceptOf Halt m]

namespace ExtentFlag
/-- The extent was written without checksums. -/
def nodatasum : UInt64 := (1 : UInt64) <<< 3
end ExtentFlag

inductive ExtentLive where
  | live
  | hole
  | noDataSum
  | unreadable
  deriving DecidableEq, Repr

inductive CsumLive where
  | some (csum : Bytes)
  | none
  | unreadable
  deriving DecidableEq, Repr

/-- Where the single-path search for a key ends. -/
inductive Descent where
  /-- A node could not be used, or the levels ran out. -/
  | unreadable
  /-- The target lies before the first key of a node. -/
  | before
  | leaf (leaf : Leaf)
  deriving DecidableEq, Repr

/-- The levels a descent goes through at most. -/
def maxDepth : Nat := 16

theorem maxDepth_pos : 0 < maxDepth := by decide

/-- The child a search for the target goes into. -/
def childFor (target : Key) (ptrs : List KeyPtr) : Option KeyPtr :=
  match partitionPoint (fun ptr => keyLeq ptr.key target) ptrs with
  | 0 => none
  | count + 1 => ptrs[count]?

/-- The body of the loop: read a node, and end the search there or go on into a child. -/
def visit (reader : FsReader m) (chunkMap : ChunkMap) (target : Key) (nodeLogical : UInt64) :
    m (Descent ⊕ UInt64) := do
  match ← reader.readNode chunkMap nodeLogical genDontCheck none none with
  | .error _ => return .inl .unreadable
  | .ok res =>
      if res.allMirrorsFailed then return .inl .unreadable
      else match res.node with
        | none => throw .panic
        | some (.leaf leaf) => return .inl (.leaf leaf)
        | some (.internal node) =>
            match childFor target node.ptrs with
            | none => return .inl .before
            | some ptr => return .inr ptr.blockptr

/-- The loop shared by the two searches, over at most so many levels. -/
def descend (reader : FsReader m) (chunkMap : ChunkMap) (target : Key) : Nat → UInt64 → m Descent
  | 0, _ => return .unreadable
  | depth + 1, nodeLogical => do
      match ← visit reader chunkMap target nodeLogical with
      | .inl found => return found
      | .inr child => descend reader chunkMap target depth child

/-- The slots of a leaf at or before the target. -/
def slotsUpTo (target : Key) (leaf : Leaf) : List LeafItemSlot :=
  leaf.slots.take (partitionPoint (fun slot => keyLeq slot.key target) leaf.slots)

def flagsNodatasum (data : Bytes) : Exec Bool :=
  if data.length < 24 then .ok false
  else do
    let flags ← leU64 data 16
    return flags &&& ExtentFlag.nodatasum != 0

def extentIsNodatasum (leaf : Leaf) (slot : LeafItemSlot) : Exec Bool := do
  flagsNodatasum (← leaf.dataOf slot)

def extentTarget (logical : UInt64) : Key :=
  { objectid := logical, ty := KeyType.extentItem, offset := 0xFFFFFFFFFFFFFFFF }

/-- Backwards to the last EXTENT_ITEM at or before the target, in this leaf only. -/
def extentInLeaf (leaf : Leaf) (logical : UInt64) : Exec ExtentLive :=
  match (slotsUpTo (extentTarget logical) leaf).reverse.find? (·.key.ty == KeyType.extentItem) with
  | none => .ok .hole
  | some slot =>
      if logical < slot.key.objectid + slot.key.offset then do
        return if ← extentIsNodatasum leaf slot then .noDataSum else .live
      else .ok .hole

def extentCovers (reader : FsReader m) (chunkMap : ChunkMap) (extentRoot logical : UInt64) :
    m ExtentLive := do
  match ← descend reader chunkMap (extentTarget logical) maxDepth extentRoot with
  | .unreadable => return .unreadable
  | .before => return .hole
  | .leaf leaf => liftExec (extentInLeaf leaf logical)

def csumTarget (sector : UInt64) : Key :=
  { objectid := ObjectId.extentCsum, ty := KeyType.extentCsum, offset := sector }

/-- The hash a csum item holds for the sector, if its run covers it. -/
def csumInItem (runStart : UInt64) (data : Bytes) (sector : UInt64) (hashLen : Nat)
    (sectorSize : UInt64) : Exec CsumLive :=
  if hashLen = 0 then .error .panic
  else if data.length % hashLen = 0 then
    let runEnd := runStart + UInt64.ofNat (data.length / hashLen) * sectorSize
    if runStart ≤ sector ∧ sector < runEnd then do
      let idx := ((sector - runStart) / sectorSize).toNat
      return .some (← slice data (idx * hashLen) hashLen)
    else .ok .none
  else .ok .none

/-- Only the last slot at or before the target is looked at. -/
def csumInLeaf (leaf : Leaf) (sector : UInt64) (hashLen : Nat) (sectorSize : UInt64) :
    Exec CsumLive :=
  match (slotsUpTo (csumTarget sector) leaf).getLast? with
  | none => .ok .none
  | some slot =>
      if slot.key.ty = KeyType.extentCsum then do
        csumInItem slot.key.offset (← leaf.dataOf slot) sector hashLen sectorSize
      else .ok .none

def sectorOf (sectorSize logical : UInt64) : UInt64 := logical / sectorSize * sectorSize

def csumAt (reader : FsReader m) (chunkMap : ChunkMap) (csumRoot logical : UInt64) (hashLen : Nat)
    (sectorSize : UInt64) : m CsumLive := do
  if sectorSize = 0 then throw .panic
  let sector := sectorOf sectorSize logical
  match ← descend reader chunkMap (csumTarget sector) maxDepth csumRoot with
  | .unreadable => return .unreadable
  | .before => return .none
  | .leaf leaf => liftExec (csumInLeaf leaf sector hashLen sectorSize)

/-- Re-check one mismatched sector against live metadata. -/
def reconfirmMismatch (reader : FsReader m) (chunkMap : ChunkMap)
    (extentRoot csumRoot logical : UInt64) (stored : Bytes) (hashLen : Nat)
    (sectorSize : UInt64) : m Reconfirm := do
  match ← extentCovers reader chunkMap extentRoot logical with
  | .hole => return .stale
  | .noDataSum => return .stale
  | .unreadable => return .unverifiable
  | .live =>
      match ← csumAt reader chunkMap csumRoot logical hashLen sectorSize with
      | .none => return .stale
      | .unreadable => return .unverifiable
      | .some live => return if live = stored then .corruption else .stale

end Rotshield.Btrfs
