import Rotshield.Btrfs.Scrub

/-! The btrfs scrub of one device: what opening it prepares, and the counters it seeds. -/
namespace Rotshield.Btrfs

variable {m : Type → Type} [Monad m] [MonadExceptOf Halt m]

/-- A single-device scrub over one backing file. -/
structure BtrfsScrub (m : Type → Type) where
  reader : FsReader m
  chunkMap : ChunkMap
  csumProvider : LazyCsumProvider m
  /-- The physical extents of this device, from the dev tree. -/
  devExtents : List DevExtent
  strategy : CsumStrategy
  superblock : Superblock
  /-- The failures at open; the csum walker adds its own at run time. -/
  errors : MetadataErrors

namespace BtrfsScrub

/-- Open the filesystem and prepare the scrub. -/
def openScrub (crates : HashCrates) (file : Backing m) (baseOffset : UInt64) :
    m (Except IoError (BtrfsScrub m)) := do
  match ← openFs crates file baseOffset with
  | .error e => return .error e
  | .ok ctx =>
      match ← file.reopen with
      | .error e => return .error e
      | .ok () =>
          let scrub (devExtents : List DevExtent) (errors : MetadataErrors) : BtrfsScrub m :=
            { reader := ctx.reader
              chunkMap := ctx.chunkMap
              csumProvider := .new file.pread ctx.superblock.nodeSize.toNat baseOffset ctx.strategy
                ctx.superblock.devid ctx.superblock.fsid ctx.chunkMap ctx.roots.csumRoot
              devExtents
              strategy := ctx.strategy
              superblock := ctx.superblock
              errors }
          match ctx.roots.devTreeRoot with
          -- Nothing to scrub: the run reports it as a metadata failure.
          | none => return .ok (scrub [] { ctx.errors with headerErrors := ctx.errors.headerErrors + 1 })
          | some devTreeRoot =>
              match ← buildDevExtents ctx.reader ctx.chunkMap devTreeRoot ctx.superblock.devid
                  ctx.errors with
              | (.error e, _) => return .error e
              | (.ok devExtents, errors) => return .ok (scrub devExtents errors)

/-- The dev extents of a known chunk that holds data. -/
def dataExtents (scrub : BtrfsScrub m) : List DevExtent :=
  scrub.devExtents.filter fun d =>
    (scrub.chunkMap.info d.chunkOffset).any fun chunk => chunk.flags &&& BgFlag.data != 0

/-- The bytes a whole scrub covers; the sum wraps. -/
def progressTotal (scrub : BtrfsScrub m) : UInt64 :=
  scrub.dataExtents.foldl (fun total d => total + d.length) 0

/-- What attaching the counters stores in them. -/
def setStatus (scrub : BtrfsScrub m) (counters : StatusCounters) : StatusCounters :=
  { counters with
    metadataHeaderErrors := scrub.errors.headerErrors + scrub.csumProvider.tallies.metadataErrors.count
    metadataMirrorMismatches := scrub.errors.mirrorMismatches
    metadataReadErrors :=
      scrub.errors.readErrors + scrub.csumProvider.tallies.metadataReadErrors.count }

/-- What `run` hands to the scrub of the dev tree. -/
def context (scrub : BtrfsScrub m) (reopen : m (Except IoError Unit)) (batch : Bool)
    (isolationLimit : Nat) (isolationLimit_pos : 0 < isolationLimit) : ScrubContext m where
  reader := scrub.reader
  reopen
  chunkMap := scrub.chunkMap
  strategy := scrub.strategy
  batch
  isolationLimit
  isolationLimit_pos

/-- The metadata totals of a run that left the provider so. -/
def metadata (scrub : BtrfsScrub m) (p : LazyCsumProvider m) : MetadataErrors where
  headerErrors := scrub.errors.headerErrors + p.tallies.metadataErrors.count
  mirrorMismatches := scrub.errors.mirrorMismatches + p.tallies.mirrorMismatches.count
  readErrors := scrub.errors.readErrors + p.tallies.metadataReadErrors.count

end BtrfsScrub
end Rotshield.Btrfs
