import Mathlib.Data.List.Sort
import Rotshield.Btrfs.Key
import Rotshield.Lib.BinarySearch

/-! Chunk mapping: chunk items, and the translation of logical addresses to stripes. -/
namespace Rotshield.Btrfs
open Lib (binarySearchBy)

structure Stripe where
  devid : UInt64
  offset : UInt64
  deriving DecidableEq, Repr

structure ChunkItem where
  length : UInt64
  stripeLen : UInt64
  ty : UInt64
  numStripes : UInt16
  stripes : List Stripe
  deriving DecidableEq, Repr

/-- A 48-byte header, then one 32-byte entry for each stripe. -/
def ChunkItem.parse (buf : Bytes) : Exec ChunkItem := do
  let length ← leU64 buf 0
  let _owner ← leU64 buf 8
  let stripeLen ← leU64 buf 16
  let ty ← leU64 buf 24
  let numStripes ← leU16 buf 44
  let _subStripes ← leU16 buf 46
  let stripes ← (List.range numStripes.toNat).mapM fun i => do
    let base := 48 + i * 32
    let devid ← leU64 buf base
    let offset ← leU64 buf (base + 8)
    return { devid, offset : Stripe }
  return { length, stripeLen, ty, numStripes, stripes }

structure ChunkRecord where
  logical : UInt64
  chunk : ChunkItem
  deriving DecidableEq, Repr

def profileMask : UInt64 :=
  BgFlag.raid0 ||| BgFlag.raid1 ||| BgFlag.dup ||| BgFlag.raid10 ||| BgFlag.raid5 |||
    BgFlag.raid6 ||| BgFlag.raid1c3 ||| BgFlag.raid1c4

/-- The records of the system chunk array; `fuel` bounds the records, one for each byte is enough. -/
def parseSysChunksLoop (buf : Bytes) : Nat → Nat → List ChunkRecord → Exec (List ChunkRecord)
  | 0, _, _ => .error .outOfFuel
  | fuel + 1, pos, out =>
      if buf.length < pos + 17 + 48 then .ok out
      else do
        let key ← Key.parse buf pos
        let pos := pos + 17
        if key.ty ≠ KeyType.chunkItem then return out
        let numStripes ← leU16 buf (pos + 44)
        let chunkLen := 48 + numStripes.toNat * 32
        if buf.length < pos + chunkLen then return out
        let chunk ← ChunkItem.parse (← slice buf pos chunkLen)
        parseSysChunksLoop buf fuel (pos + chunkLen) (out ++ [{ logical := key.offset, chunk }])

def parseSysChunks (buf : Bytes) : Exec (List ChunkRecord) :=
  parseSysChunksLoop buf (buf.length + 1) 0 []

structure MapEntry where
  start : UInt64
  stop : UInt64
  ty : UInt64
  stripes : List Stripe
  deriving DecidableEq, Repr

/-- Chunk ranges, sorted by their start. -/
structure ChunkMap where
  entries : List MapEntry
  deriving DecidableEq, Repr

structure ChunkInfo where
  length : UInt64
  flags : UInt64
  deriving DecidableEq, Repr

namespace ChunkMap

def empty : ChunkMap := ⟨[]⟩

/-- Append, then sort by start; the sort is stable. -/
def insert (map : ChunkMap) (record : ChunkRecord) : ChunkMap :=
  let entry : MapEntry :=
    { start := record.logical
      stop := record.logical + record.chunk.length
      ty := record.chunk.ty
      stripes := record.chunk.stripes }
  ⟨(map.entries ++ [entry]).insertionSort fun a b => a.start ≤ b.start⟩

def compareTo (logical : UInt64) (e : MapEntry) : Ordering :=
  if logical < e.start then .gt else if e.stop ≤ logical then .lt else .eq

/-- The entry the three lookups find. -/
def find (map : ChunkMap) (logical : UInt64) : Option MapEntry :=
  match binarySearchBy (compareTo logical) map.entries with
  | .ok idx => map.entries[idx]?
  | .error _ => none

def info (map : ChunkMap) (chunkOffset : UInt64) : Option ChunkInfo :=
  (map.find chunkOffset).map fun e => { length := e.stop - e.start, flags := e.ty }

/-- Device and offset on the first stripe. -/
def lookup (map : ChunkMap) (logical : UInt64) : Exec (Option (UInt64 × UInt64)) :=
  match map.find logical with
  | none => .ok none
  | some e =>
      match e.stripes with
      | [] => .error .panic
      | s :: _ => .ok (some (s.devid, s.offset + (logical - e.start)))

/-- Device and offset on every stripe. -/
def lookupStripes (map : ChunkMap) (logical : UInt64) : Option (List (UInt64 × UInt64)) :=
  (map.find logical).map fun e => e.stripes.map fun s => (s.devid, s.offset + (logical - e.start))

/-- Data chunks must be SINGLE or DUP. -/
def validateDataProfiles (map : ChunkMap) : Except IoError Unit :=
  if map.entries.all fun e =>
      e.ty &&& BgFlag.data == 0 ||
        (e.ty &&& profileMask == 0 || e.ty &&& profileMask == BgFlag.dup)
  then .ok () else .error .invalidData

end ChunkMap
end Rotshield.Btrfs
