import Mathlib.Data.List.Sort
import Rotshield.Btrfs.Tree

/-! Lazy CSUM_TREE walking: the checksums of a logical range, on demand. -/
namespace Rotshield.Btrfs

variable {m : Type → Type} [Monad m] [MonadExceptOf Halt m]

/-- A counter of distinct nodes, with the addresses it has counted. -/
structure Tally where
  count : Nat
  reported : List UInt64
  counted : count = reported.length

namespace Tally

def empty : Tally := ⟨0, [], rfl⟩

/-- Count an address the first time it is reported. -/
def report (t : Tally) (logical : UInt64) : Tally :=
  if logical ∈ t.reported then t
  else ⟨t.count + 1, logical :: t.reported, by rw [t.counted, List.length_cons]⟩

theorem report_pos (t : Tally) (logical : UInt64) : 0 < (t.report logical).count := by
  unfold report
  split
  case isTrue hmem =>
      rw [t.counted]
      exact List.length_pos_of_mem hmem
  case isFalse => exact Nat.succ_pos _

end Tally

/-- The failures a provider has seen, each node once for each kind. -/
structure CsumTallies where
  /-- Every copy failed the header checksum. -/
  metadataErrors : Tally
  /-- Copies disagreed, and a good one existed. -/
  mirrorMismatches : Tally
  metadataReadErrors : Tally
  /-- Skipped as freed or repurposed. -/
  staleBranches : Tally

def CsumTallies.empty : CsumTallies := ⟨.empty, .empty, .empty, .empty⟩

structure CsumEntry where
  logical : UInt64
  csum : Bytes
  deriving DecidableEq, Repr

structure LazyCsumProvider (m : Type → Type) where
  reader : FsReader m
  chunkMap : ChunkMap
  strategy : CsumStrategy
  csumRoot : UInt64
  tallies : CsumTallies

/-- The entries of one csum item inside the range. -/
def itemEntries (strategy : CsumStrategy) (logicalLo logicalHi itemLo : UInt64) (data : Bytes) :
    List CsumEntry :=
  let n := data.length / strategy.hashLen
  let itemHi := itemLo + UInt64.ofNat n * strategy.sectorSize
  if itemHi ≤ logicalLo ∨ logicalHi ≤ itemLo then []
  else (List.range n).filterMap fun s =>
    let logical := itemLo + UInt64.ofNat s * strategy.sectorSize
    if logical < logicalLo ∨ logicalHi ≤ logical then none
    else some { logical, csum := (data.drop (s * strategy.hashLen)).take strategy.hashLen }

/-- The entries of the csum items of a leaf; items are looked for by key type alone. -/
def leafEntries (strategy : CsumStrategy) (logicalLo logicalHi : UInt64) (leaf : Leaf) :
    Exec (List CsumEntry) := do
  let parts ← (leaf.slots.filter (·.key.ty == KeyType.extentCsum)).mapM fun slot => do
    return itemEntries strategy logicalLo logicalHi slot.key.offset (← leaf.dataOf slot)
  return parts.flatten

/-- The callbacks of a range walk: collect entries, tally failures. -/
def rangeCallbacks (strategy : CsumStrategy) (logicalLo logicalHi : UInt64) :
    Callbacks (List CsumEntry × CsumTallies) where
  onLeaf leaf s := do
    let found ← leafEntries strategy logicalLo logicalHi leaf
    return (.ok (), (s.1 ++ found, s.2))
  onMetadataError a s := (s.1, { s.2 with metadataErrors := s.2.metadataErrors.report a })
  onStale a s := (s.1, { s.2 with staleBranches := s.2.staleBranches.report a })
  onMirrorMismatch a s := (s.1, { s.2 with mirrorMismatches := s.2.mirrorMismatches.report a })
  onReadError a s := (s.1, { s.2 with metadataReadErrors := s.2.metadataReadErrors.report a })

def saturatingSub (a b : UInt64) : UInt64 := if a < b then 0 else a - b

/-- The largest span one csum item of a node can cover. -/
def maxItemSpan (nodeSize : Nat) (strategy : CsumStrategy) : UInt64 :=
  UInt64.ofNat nodeSize / UInt64.ofNat strategy.hashLen * strategy.sectorSize

def csumKey (offset : UInt64) : Key :=
  { objectid := ObjectId.extentCsum, ty := KeyType.extentCsum, offset }

namespace LazyCsumProvider

/-- Build a walker with its own reader. -/
def new (pread : UInt64 → Nat → m (Except IoError Bytes)) (nodeSize : Nat) (baseOffset : UInt64)
    (strategy : CsumStrategy) (devid : UInt64) (fsid : Bytes) (chunkMap : ChunkMap)
    (csumRoot : UInt64) : LazyCsumProvider m where
  reader :=
    { config := .checked nodeSize baseOffset strategy devid fsid
      pread }
  chunkMap
  strategy
  csumRoot
  tallies := .empty

/-- The entries of a half-open logical range in ascending order, and the provider with the
failures of the walk counted. -/
def range (p : LazyCsumProvider m) (logicalLo logicalHi : UInt64) :
    m (List CsumEntry × LazyCsumProvider m) := do
  let span := maxItemSpan p.reader.config.nodeSize p.strategy
  let keyLo := csumKey (saturatingSub logicalLo span)
  let keyHi := csumKey logicalHi
  -- A walk error only means fewer entries.
  let (_, entries, tallies) ← walkLeavesRange p.reader p.chunkMap p.csumRoot keyLo keyHi
    (rangeCallbacks p.strategy logicalLo logicalHi) ([], p.tallies)
  return (entries.insertionSort fun a b => a.logical ≤ b.logical, { p with tallies })

end LazyCsumProvider
end Rotshield.Btrfs
