import Rotshield.Btrfs.CsumStrategy
import Rotshield.Btrfs.Reader

/-! Superblock parsing, with fallback to the mirror copies, and root items. -/
namespace Rotshield.Btrfs

variable {m : Type → Type} [Monad m] [MonadExceptOf Halt m]

/-- The primary copy, at 64 KiB. -/
def superblockOffset : UInt64 := 0x10000

/-- The copies, probed in order. -/
def superblockBackupOffsets : List UInt64 := [0x10000, 0x4000000, 0x4000000000, 0x10000000000]

/-- `_BHRfS_M` -/
def btrfsMagic : Bytes := [0x5f, 0x42, 0x48, 0x52, 0x66, 0x53, 0x5f, 0x4d]

def hasMagicAt (buf : Bytes) (offset : Nat) : Bool :=
  decide (offset + btrfsMagic.length ≤ buf.length) &&
    (buf.drop offset).take btrfsMagic.length == btrfsMagic

def offMagic : Nat := 64
def offCsumType : Nat := 196
def offSysChunks : Nat := 811

structure Superblock where
  fsid : Bytes
  generation : UInt64
  /-- The root tree's root node. -/
  root : UInt64
  chunkRoot : UInt64
  totalBytes : UInt64
  numDevices : UInt64
  sectorSize : UInt32
  nodeSize : UInt32
  csumType : UInt16
  devid : UInt64
  /-- The system chunk array, as stored. -/
  sysChunks : Bytes
  deriving DecidableEq, Repr

namespace Superblock

/-- Verify and parse one copy: magic, then the header checksum, which covers its own type. -/
def parse (crates : HashCrates) (buf : Bytes) : Exec (Except IoError Superblock) := do
  if (← slice buf offMagic 8) ≠ btrfsMagic then return .error .invalidData
  let csumType ← leU16 buf offCsumType
  match CsumType.ofU16? csumType with
  | none => return .error .invalidData
  | some ty =>
      if !ty.verifyHeader crates buf then return .error .invalidData
      let fsid ← slice buf 32 16
      let sysChunkArraySize := (← leU32 buf 160).toNat
      if buf.length < offSysChunks + sysChunkArraySize then return .error .invalidData
      let sysChunks ← slice buf offSysChunks sysChunkArraySize
      let generation ← leU64 buf 72
      let root ← leU64 buf 80
      let chunkRoot ← leU64 buf 88
      let totalBytes ← leU64 buf 112
      let numDevices ← leU64 buf 136
      let sectorSize ← leU32 buf 144
      let nodeSize ← leU32 buf 148
      let devid ← leU64 buf 201
      return .ok { fsid, generation, root, chunkRoot, totalBytes, numDevices, sectorSize, nodeSize,
                   csumType, devid, sysChunks }

def readOne (crates : HashCrates) (pread : UInt64 → Nat → m (Except IoError Bytes))
    (absOff : UInt64) : m (Except IoError Superblock) := do
  match ← pread absOff 4096 with
  | .error e => return .error e
  | .ok buf => liftExec (parse crates buf)

def readCopies (crates : HashCrates) (pread : UInt64 → Nat → m (Except IoError Bytes))
    (offset : UInt64) : List UInt64 → Option IoError → m (Except IoError Superblock)
  | [], lastErr => return .error (lastErr.getD .invalidData)
  | sbOff :: rest, lastErr => do
      match ← readOne crates pread (offset + sbOff) with
      | .ok sb => return .ok sb
      -- The copy lies past the device end.
      | .error .unexpectedEof => readCopies crates pread offset rest lastErr
      | .error e => readCopies crates pread offset rest (some e)

/-- The first copy that verifies. -/
def read (crates : HashCrates) (pread : UInt64 → Nat → m (Except IoError Bytes))
    (offset : UInt64) : m (Except IoError Superblock) :=
  readCopies crates pread offset superblockBackupOffsets none

def readPrimary (crates : HashCrates) (pread : UInt64 → Nat → m (Except IoError Bytes))
    (offset : UInt64) : m (Except IoError Superblock) :=
  readOne crates pread (offset + superblockOffset)

end Superblock

/-- A ROOT_ITEM's tree root; the level is read too. -/
def RootItem.parse (buf : Bytes) : Exec UInt64 := do
  let bytenr ← leU64 buf 176
  let _level ← byteAt buf 238
  return bytenr

end Rotshield.Btrfs
