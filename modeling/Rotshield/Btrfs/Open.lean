import Rotshield.Btrfs.Csum
import Rotshield.Btrfs.Superblock
import Rotshield.Status

/-! Opening a filesystem: chunk map, well-known roots and dev extents; and the live roots. -/
namespace Rotshield.Btrfs

variable {m : Type → Type} [Monad m] [MonadExceptOf Halt m]

/-- The failures of the walks at open. -/
structure MetadataErrors where
  /-- Nodes whose every copy failed the header checksum. -/
  headerErrors : Nat := 0
  mirrorMismatches : Nat := 0
  readErrors : Nat := 0
  deriving DecidableEq, Repr

/-- The callbacks of the three walks at open, which differ at a leaf alone. A stale node is
skipped and not counted. -/
def openCallbacks {T : Type} (onLeaf : Leaf → T → Exec (Except IoError Unit × T)) :
    Callbacks (T × MetadataErrors) where
  onLeaf leaf s := do
    let (result, t) ← onLeaf leaf s.1
    return (result, (t, s.2))
  onMetadataError _ s := (s.1, { s.2 with headerErrors := s.2.headerErrors + 1 })
  onStale _ s := s
  onMirrorMismatch _ s := (s.1, { s.2 with mirrorMismatches := s.2.mirrorMismatches + 1 })
  onReadError _ s := (s.1, { s.2 with readErrors := s.2.readErrors + 1 })

/-! ### The chunk tree -/

def chunkLeaf (leaf : Leaf) (records : List ChunkRecord) :
    Exec (Except IoError Unit × List ChunkRecord) := do
  let found ← (leaf.slots.filter (·.key.ty == KeyType.chunkItem)).mapM fun slot => do
    return { logical := slot.key.offset, chunk := ← ChunkItem.parse (← leaf.dataOf slot) : ChunkRecord }
  return (.ok (), records ++ found)

/-! ### The root tree -/

/-- The roots a walk of the root tree has found; the last item of each tree counts. -/
structure FoundRoots where
  fsRoot : Option UInt64 := none
  csumRoot : Option UInt64 := none
  devTreeRoot : Option UInt64 := none
  extentTreeRoot : Option UInt64 := none
  deriving DecidableEq, Repr

def FoundRoots.add (roots : FoundRoots) (objectid bytenr : UInt64) : FoundRoots :=
  if objectid = ObjectId.fsTree then { roots with fsRoot := some bytenr }
  else if objectid = ObjectId.csumTree then { roots with csumRoot := some bytenr }
  else if objectid = ObjectId.devTree then { roots with devTreeRoot := some bytenr }
  else if objectid = ObjectId.extentTree then { roots with extentTreeRoot := some bytenr }
  else roots

def rootLeaf (leaf : Leaf) (roots : FoundRoots) : Exec (Except IoError Unit × FoundRoots) := do
  let roots ← (leaf.slots.filter (·.key.ty == KeyType.rootItem)).foldlM
    (fun roots slot => do
      return roots.add slot.key.objectid (← RootItem.parse (← leaf.dataOf slot)))
    roots
  return (.ok (), roots)

structure TreeRoots where
  fsRoot : UInt64
  csumRoot : UInt64
  devTreeRoot : Option UInt64
  extentTreeRoot : Option UInt64
  deriving DecidableEq, Repr

/-- The FS and the csum tree must be there. -/
def FoundRoots.wellKnown (roots : FoundRoots) : Except IoError TreeRoots :=
  match roots.fsRoot, roots.csumRoot with
  | some fsRoot, some csumRoot =>
      .ok { fsRoot, csumRoot, devTreeRoot := roots.devTreeRoot,
            extentTreeRoot := roots.extentTreeRoot }
  | _, _ => .error .notFound

/-! ### Open -/

/-- A backing file: its positional reads, its size, and whether it can be opened once more. -/
structure Backing (m : Type → Type) where
  pread : UInt64 → Nat → m (Except IoError Bytes)
  size : m (Except IoError UInt64)
  reopen : m (Except IoError Unit)

structure BtrfsContext (m : Type → Type) where
  reader : FsReader m
  chunkMap : ChunkMap
  superblock : Superblock
  roots : TreeRoots
  strategy : CsumStrategy
  errors : MetadataErrors

/-- The chunk map: the system chunks lead to the chunk tree, whose items are added to them. -/
def readChunkMap (reader : FsReader m) (superblock : Superblock) (errors : MetadataErrors) :
    m (Except IoError ChunkMap × MetadataErrors) := do
  let sysChunks ← liftExec (parseSysChunks superblock.sysChunks)
  let chunkMap := sysChunks.foldl ChunkMap.insert ChunkMap.empty
  let (walk, records, errors) ← walkLeaves reader chunkMap superblock.chunkRoot
    (openCallbacks chunkLeaf) ([], errors)
  match walk with
  | .error e => return (.error e, errors)
  | .ok () =>
      let chunkMap := records.foldl ChunkMap.insert chunkMap
      match chunkMap.validateDataProfiles with
      | .error _ => return (.error .invalidData, errors)
      | .ok () => return (.ok chunkMap, errors)

def readRoots (reader : FsReader m) (chunkMap : ChunkMap) (superblock : Superblock)
    (errors : MetadataErrors) : m (Except IoError TreeRoots × MetadataErrors) := do
  let (walk, roots, errors) ← walkLeaves reader chunkMap superblock.root
    (openCallbacks rootLeaf) ({}, errors)
  match walk with
  | .error e => return (.error e, errors)
  | .ok () => return (roots.wellKnown, errors)

/-- Superblock, chunk map, roots. -/
def openFs (crates : HashCrates) (file : Backing m) (baseOffset : UInt64) :
    m (Except IoError (BtrfsContext m)) := do
  match ← Superblock.read crates file.pread baseOffset with
  | .error _ => return .error .invalidData
  | .ok superblock =>
      if superblock.numDevices ≠ 1 then return .error .invalidData
      -- A wiped primary with an intact backup is counted, not fatal.
      let primaryOk := (← Superblock.readPrimary crates file.pread baseOffset).isOk
      let errors : MetadataErrors := { mirrorMismatches := if primaryOk then 0 else 1 }
      let devSize := (← file.size).toOption.getD 0
      if 0 < devSize ∧ devSize < baseOffset + superblock.totalBytes then return .error .invalidData
      match CsumStrategy.fromSuperblock crates superblock.csumType superblock.sectorSize with
      | .error e => return .error e
      | .ok strategy =>
          let reader : FsReader m :=
            { config := .checked superblock.nodeSize.toNat baseOffset strategy superblock.devid
                superblock.fsid
              pread := file.pread }
          match ← readChunkMap reader superblock errors with
          | (.error e, _) => return .error e
          | (.ok chunkMap, errors) =>
              match ← readRoots reader chunkMap superblock errors with
              | (.error e, _) => return .error e
              | (.ok roots, errors) =>
                  return .ok { reader, chunkMap, superblock, roots, strategy, errors }

/-! ### The dev tree -/

/-- Physical space that backs part of a chunk: logical `l` is at
`physStart + (l - chunkOffset)`. -/
structure DevExtent where
  devid : UInt64
  physStart : UInt64
  length : UInt64
  chunkOffset : UInt64
  deriving DecidableEq, Repr

def devExtentSlots (devid : UInt64) (leaf : Leaf) :
    List LeafItemSlot → List DevExtent → Exec (Except IoError Unit × List DevExtent)
  | [], out => return (.ok (), out)
  | slot :: rest, out =>
      if slot.key.ty ≠ KeyType.devExtent ∨ slot.key.objectid ≠ devid then
        devExtentSlots devid leaf rest out
      else do
        let data ← leaf.dataOf slot
        if data.length < 32 then return (.error .invalidData, out)
        let chunkOffset ← leU64 data 16
        let length ← leU64 data 24
        devExtentSlots devid leaf rest
          (out ++ [{ devid, physStart := slot.key.offset, length, chunkOffset }])

/-- Every dev extent of this device. -/
def buildDevExtents (reader : FsReader m) (chunkMap : ChunkMap) (devTreeRoot devid : UInt64)
    (errors : MetadataErrors) : m (Except IoError (List DevExtent) × MetadataErrors) := do
  let (walk, out, errors) ← walkLeaves reader chunkMap devTreeRoot
    (openCallbacks fun leaf => devExtentSlots devid leaf leaf.slots) ([], errors)
  return (walk.map fun _ => out, errors)

/-! ### The live roots -/

/-- The extent and the csum root, as far as found. -/
structure LiveRoots where
  extentRoot : Option UInt64 := none
  csumRoot : Option UInt64 := none
  deriving DecidableEq, Repr

def LiveRoots.add (roots : LiveRoots) (objectid bytenr : UInt64) : LiveRoots :=
  if objectid = ObjectId.extentTree then { roots with extentRoot := some bytenr }
  else if objectid = ObjectId.csumTree then { roots with csumRoot := some bytenr }
  else roots

def LiveRoots.both (roots : LiveRoots) : Option (UInt64 × UInt64) :=
  match roots.extentRoot, roots.csumRoot with
  | some ext, some csum => some (ext, csum)
  | _, _ => none

/-- The walk ends early, by an error, once both are found. -/
def liveRootSlots (leaf : Leaf) :
    List LeafItemSlot → LiveRoots → Exec (Except IoError Unit × LiveRoots)
  | [], roots => return (.ok (), roots)
  | slot :: rest, roots =>
      if slot.key.ty ≠ KeyType.rootItem then liveRootSlots leaf rest roots
      else do
        let roots := roots.add slot.key.objectid (← RootItem.parse (← leaf.dataOf slot))
        if roots.both.isSome then return (.error .other, roots)
        else liveRootSlots leaf rest roots

/-- The shared counters, when there are any. -/
abbrev Counters := Option StatusCounters

namespace Counters

def headerError (c : Counters) : Counters :=
  c.map fun c => { c with metadataHeaderErrors := c.metadataHeaderErrors + 1 }

def mirrorMismatch (c : Counters) : Counters :=
  c.map fun c => { c with metadataMirrorMismatches := c.metadataMirrorMismatches + 1 }

def readError (c : Counters) : Counters :=
  c.map fun c => { c with metadataReadErrors := c.metadataReadErrors + 1 }

end Counters

def liveCallbacks : Callbacks (LiveRoots × Counters) where
  onLeaf leaf s := do
    let (result, roots) ← liveRootSlots leaf leaf.slots s.1
    return (result, (roots, s.2))
  onMetadataError _ s := (s.1, s.2.headerError)
  onStale _ s := s
  onMirrorMismatch _ s := (s.1, s.2.mirrorMismatch)
  onReadError _ s := (s.1, s.2.readError)

/-- Read the superblock once more. -/
def readLiveSuperblock (crates : HashCrates) (reopen : m (Except IoError Unit))
    (reader : FsReader m) (baseOffset : UInt64) (counters : Counters) :
    m (Option Superblock × Counters) := do
  match ← reopen with
  | .error _ => return (none, counters.readError)
  | .ok () =>
      match ← Superblock.read crates reader.pread baseOffset with
      | .ok sb => return (some sb, counters)
      | .error _ => return (none, counters.readError)

def resolveLiveTreeRoots (reader : FsReader m) (chunkMap : ChunkMap) (counters : Counters)
    (sb : Superblock) : m (Option (UInt64 × UInt64) × Counters) := do
  let (walk, roots, counters) ← walkLeaves reader chunkMap sb.root liveCallbacks ({}, counters)
  match roots.both, walk with
  | some found, _ => return (some found, counters)
  | none, .error _ => return (none, counters.readError)
  | none, .ok () => return (none, counters.headerError)

/-- The roots re-confirmation walks. -/
def liveDataTreeRoots (crates : HashCrates) (reopen : m (Except IoError Unit))
    (reader : FsReader m) (chunkMap : ChunkMap) (baseOffset : UInt64) (counters : Counters) :
    m (Option (UInt64 × UInt64) × Counters) := do
  match ← readLiveSuperblock crates reopen reader baseOffset counters with
  | (none, counters) => return (none, counters)
  | (some sb, counters) => resolveLiveTreeRoots reader chunkMap counters sb

end Rotshield.Btrfs
