import Rotshield.Btrfs.ChunkLookup
import Rotshield.Btrfs.ReadableTree
import Rotshield.Btrfs.RunReads
import Rotshield.Btrfs.ScrubDriver
import Rotshield.Btrfs.ScrubRun

/-! A healthy filesystem: what its superblock and its trees hold, and the sectors a scrub of it
checks. -/
namespace Rotshield.Btrfs

/-! ### The items of the three trees -/

def chunkKind : ItemKind ChunkRecord where
  has key := key.ty == KeyType.chunkItem
  parse key data := do return { logical := key.offset, chunk := ← ChunkItem.parse data }

/-- A tree's object id, with its root. -/
def rootKind : ItemKind (UInt64 × UInt64) where
  has key := key.ty == KeyType.rootItem
  parse key data := do return (key.objectid, ← RootItem.parse data)

def devExtentKind (devid : UInt64) : ItemKind DevExtent where
  has key := key.ty == KeyType.devExtent && key.objectid == devid
  parse key data := do
    let chunkOffset ← leU64 data 16
    let length ← leU64 data 24
    return { devid, physStart := key.offset, length, chunkOffset }

theorem devExtentKind_devid {devid : UInt64} {key : Key} {data : Bytes} {d : DevExtent}
    (h : (devExtentKind devid).parse key data = .ok d) : d.devid = devid := by
  unfold devExtentKind at h
  dsimp only [bind, Except.bind] at h
  cases hoffset : leU64 data 16 with
  | error e => rw [hoffset] at h; cases h
  | ok chunkOffset =>
      cases hlength : leU64 data 24 with
      | error e => rw [hoffset, hlength] at h; cases h
      | ok length =>
          rw [hoffset, hlength] at h
          cases h
          rfl

/-- The root of the last item of a tree. -/
def lastRoot (objectid : UInt64) (items : List (UInt64 × UInt64)) : Option UInt64 :=
  ((items.filter fun item => item.1 == objectid).getLast?).map (·.2)

/-- A file whose content does not change, as it is opened. -/
def Image.file (image : Image) (size : Except IoError UInt64) : Backing Exec where
  pread offset n := .ok (image.pread offset n)
  size := .ok size
  reopen := .ok (.ok ())

/-- A device with a state of its own that always answers as the image does. -/
def Image.device (image : Image) (σ : Type) : Device σ where
  byte := image.byte
  fault offset n := pure (image.fault offset n)

/-! ### A healthy filesystem -/

/-- How the trees of a filesystem are read once it is opened. -/
def Superblock.readerConfig (sb : Superblock) (baseOffset : UInt64) (strategy : CsumStrategy) :
    ReaderConfig :=
  .checked sb.nodeSize.toNat baseOffset strategy sb.devid sb.fsid

/-- A single-device filesystem whose superblock, chunk tree, root tree and dev tree are readable and
valid throughout. -/
structure HealthyFs (crates : HashCrates) (image : Image) (size : Except IoError UInt64)
    (baseOffset : UInt64) where
  sb : Superblock
  read : Superblock.read crates (image.file size).pread baseOffset = .ok (.ok sb)
  single : sb.numDevices = 1
  fits : ∀ devSize, size = .ok devSize → 0 < devSize → baseOffset + sb.totalBytes ≤ devSize
  strategy : CsumStrategy
  known : CsumStrategy.fromSuperblock crates sb.csumType sb.sectorSize = .ok strategy
  system : List ChunkRecord
  systemRead : parseSysChunks sb.sysChunks = .ok system
  chunkTree : ReadableTree (image.reader (sb.readerConfig baseOffset strategy))
    (.ofRecords system) sb.chunkRoot
  chunks : chunkTree.Parses chunkKind
  regular : ∀ r ∈ system ++ chunkTree.items chunkKind, r.Regular
  disjoint : Disjoint (system ++ chunkTree.items chunkKind)
  rootTree : ReadableTree (image.reader (sb.readerConfig baseOffset strategy))
    (.ofRecords (system ++ chunkTree.items chunkKind)) sb.root
  roots : rootTree.Parses rootKind
  fsRoot : UInt64
  hasFsRoot : lastRoot ObjectId.fsTree (rootTree.items rootKind) = some fsRoot
  csumRoot : UInt64
  hasCsumRoot : lastRoot ObjectId.csumTree (rootTree.items rootKind) = some csumRoot
  devRoot : UInt64
  hasDevRoot : lastRoot ObjectId.devTree (rootTree.items rootKind) = some devRoot
  devTree : ReadableTree (image.reader (sb.readerConfig baseOffset strategy))
    (.ofRecords (system ++ chunkTree.items chunkKind)) devRoot
  devExtents : devTree.Parses (devExtentKind sb.devid)

namespace HealthyFs
variable {crates : HashCrates} {image : Image} {size : Except IoError UInt64} {baseOffset : UInt64}
  (fs : HealthyFs crates image size baseOffset)

def config : ReaderConfig := fs.sb.readerConfig baseOffset fs.strategy

/-- The chunks: those of the system array, then those of the chunk tree. -/
def records : List ChunkRecord := fs.system ++ fs.chunkTree.items chunkKind

/-- Every chunk with data is SINGLE or DUP. -/
def Supported : Prop :=
  ∀ r ∈ fs.records, r.chunk.ty &&& BgFlag.data ≠ 0 →
    r.chunk.ty &&& profileMask = 0 ∨ r.chunk.ty &&& profileMask = BgFlag.dup

instance : Decidable fs.Supported := inferInstanceAs (Decidable (∀ _ ∈ _, _))

theorem config_strategy : fs.config.strategy = some fs.strategy := rfl

end HealthyFs

/-! ### Its checksums -/

/-- A healthy filesystem with a readable csum tree, whose dev extents end inside the addresses a
file can have. -/
structure ChecksummedFs (crates : HashCrates) (image : Image) (size : Except IoError UInt64)
    (baseOffset : UInt64) extends HealthyFs crates image size baseOffset where
  supported : toHealthyFs.Supported
  csums : RangeTree (image.reader toHealthyFs.config) (.ofRecords toHealthyFs.records)
    toHealthyFs.strategy toHealthyFs.csumRoot
  fitsFile : ∀ d ∈ toHealthyFs.devTree.items (devExtentKind toHealthyFs.sb.devid),
    baseOffset.toNat + d.physStart.toNat + d.length.toNat + toHealthyFs.strategy.sectorSize.toNat <
      2 ^ 64

namespace ChecksummedFs
variable {crates : HashCrates} {image : Image} {size : Except IoError UInt64} {baseOffset : UInt64}
  (fs : ChecksummedFs crates image size baseOffset)

/-- The extent belongs to a chunk with data. -/
def hasData (d : DevExtent) : Bool :=
  fs.records.any fun r => decide (r.Contains d.chunkOffset) && r.chunk.ty &&& BgFlag.data != 0

/-- An extent with its checksummed sectors. -/
def stream (d : DevExtent) : Streamed :=
  (d, fs.csums.pairs.filter (CsumEntry.within d.chunkOffset (d.chunkOffset + d.length)))

def streams : List Streamed :=
  ((fs.devTree.items (devExtentKind fs.sb.devid)).filter fs.hasData).map fs.stream

/-- No read inside an extent with data fails, up to the end of its last sector. -/
def Readable : Prop :=
  ∀ d ∈ (fs.devTree.items (devExtentKind fs.sb.devid)).filter fs.hasData,
    ∀ (offset : UInt64) (n : Nat), baseOffset.toNat + d.physStart.toNat ≤ offset.toNat →
      offset.toNat + n <
        baseOffset.toNat + d.physStart.toNat + d.length.toNat + fs.strategy.sectorSize.toNat →
      image.fault offset n = none

/-- The bytes of the sector have the stored checksum. -/
def Sound (s : DevExtent × CsumEntry) : Prop :=
  fs.strategy.compute ((image.device Unit).bytesAt (baseOffset + s.1.physOf s.2.logical)
    fs.strategy.sectorSize.toNat) = s.2.csum

instance (s : DevExtent × CsumEntry) : Decidable (fs.Sound s) :=
  inferInstanceAs (Decidable (_ = _))

end ChecksummedFs
end Rotshield.Btrfs
