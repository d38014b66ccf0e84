import Rotshield.Btrfs.Chunk
import Rotshield.Btrfs.CsumStrategy
import Rotshield.Btrfs.Node

/-! Node reads: mirror handling and header checks. -/
namespace Rotshield.Btrfs

variable {m : Type → Type} [Monad m] [MonadExceptOf Halt m]

/-- A computation that may panic, in a monad that can. -/
def liftExec {α : Type} : Exec α → m α
  | .ok a => pure a
  | .error h => throw h

/-- `GEN_DONT_CHECK`: skip the generation check. -/
def genDontCheck : UInt64 := 0xFFFFFFFFFFFFFFFF

structure ReadNodeResult where
  node : Option Node
  allMirrorsFailed : Bool
  /-- No copy passed header validation, but one passed the header checksum. -/
  generationMismatch : Bool
  mirrorMismatch : Bool
  deriving DecidableEq, Repr

structure ReaderConfig where
  nodeSize : Nat
  baseOffset : UInt64
  devid : Option UInt64
  strategy : Option CsumStrategy
  fsid : Option Bytes

/-- A reader over one backing file; `pread` is a positional read of exactly so many bytes. -/
structure FsReader (m : Type → Type) where
  config : ReaderConfig
  pread : UInt64 → Nat → m (Except IoError Bytes)

namespace ReaderConfig

/-- `new` with a strategy, then `with_devid` and `with_fsid`. -/
def checked (nodeSize : Nat) (baseOffset : UInt64) (strategy : CsumStrategy) (devid : UInt64)
    (fsid : Bytes) : ReaderConfig where
  nodeSize
  baseOffset
  devid := some devid
  strategy := some strategy
  fsid := some fsid

/-- Every check but the first is optional. -/
def validateHeader (config : ReaderConfig) (hdr : Header) (logical expectedGeneration : UInt64)
    (expectedLevel : Option UInt8) (expectedOwner : Option UInt64) : Bool :=
  hdr.bytenr == logical && config.fsid.all (· == hdr.fsid) && expectedLevel.all (· == hdr.level) &&
    expectedOwner.all (· == hdr.owner) &&
    (expectedGeneration == genDontCheck || hdr.generation == expectedGeneration)

end ReaderConfig

/-- The copies kept while the mirrors are tried: the first of each kind. -/
structure Copies where
  good : Option Bytes
  stale : Option Bytes
  corrupt : Option Bytes
  validCount : Nat
  deriving DecidableEq, Repr

def Copies.none : Copies := ⟨.none, .none, .none, 0⟩

/-- Classify one mirror copy. -/
def scanCopy (strategy : CsumStrategy) (valid : Header → Bool) (acc : Copies) :
    Except IoError Bytes → Exec Copies
  | .error _ => .ok acc
  | .ok buf =>
      if !strategy.verifyNodeHeader buf then .ok { acc with corrupt := acc.corrupt.or (some buf) }
      else do
        let hdr ← Header.parse buf
        if !valid hdr then
          return { acc with validCount := acc.validCount + 1, stale := acc.stale.or (some buf) }
        else return { acc with validCount := acc.validCount + 1, good := acc.good.or (some buf) }

/-- The result over all copies that were tried. -/
def selectCopy (strategy : CsumStrategy) (mirrors : Nat) (acc : Copies) :
    Exec (Except IoError ReadNodeResult) :=
  let generationMismatch := acc.good.isNone && acc.stale.isSome
  let mirrorMismatch := decide (1 < mirrors ∧ 0 < acc.validCount ∧ acc.validCount < mirrors)
  match (acc.good.or acc.stale).or acc.corrupt with
  | none => .ok (.error .notFound)
  | some buf =>
      if !strategy.verifyNodeHeader buf then
        .ok (.ok { node := none, allMirrorsFailed := true, generationMismatch, mirrorMismatch })
      else do
        let node ← Node.parse buf
        return .ok
          { node := some node, allMirrorsFailed := false, generationMismatch, mirrorMismatch }

namespace FsReader

def readLogical (reader : FsReader m) (chunkMap : ChunkMap) (logical : UInt64) (n : Nat) :
    m (Except IoError Bytes) := do
  match ← liftExec (chunkMap.lookup logical) with
  | none => return .error .notFound
  | some (_, phys) => reader.pread (reader.config.baseOffset + phys) n

/-- Reads of another device are rejected. -/
def readPhysical (reader : FsReader m) (devid phys : UInt64) (n : Nat) : m (Except IoError Bytes) :=
  if reader.config.devid.all (· == devid) then reader.pread (reader.config.baseOffset + phys) n
  else return .error .invalidInput

/-- The stripes of a node; an unmapped address gets a fake one, whose copy cannot verify. -/
def nodeStripes (chunkMap : ChunkMap) (logical : UInt64) : List (UInt64 × UInt64) :=
  (chunkMap.lookupStripes logical).getD [(0, 0)]

def readNode (reader : FsReader m) (chunkMap : ChunkMap) (logical expectedGeneration : UInt64)
    (expectedLevel : Option UInt8) (expectedOwner : Option UInt64) :
    m (Except IoError ReadNodeResult) := do
  match reader.config.strategy with
  | none =>
      match ← reader.readLogical chunkMap logical reader.config.nodeSize with
      | .error e => return .error e
      | .ok buf =>
          let node ← liftExec (Node.parse buf)
          return .ok { node := some node, allMirrorsFailed := false, generationMismatch := false,
                       mirrorMismatch := false }
  | some strategy =>
      let stripes := nodeStripes chunkMap logical
      let copies ← stripes.mapM fun s =>
        reader.pread (reader.config.baseOffset + s.2) reader.config.nodeSize
      let valid hdr := reader.config.validateHeader hdr logical expectedGeneration expectedLevel
        expectedOwner
      let acc ← liftExec (copies.foldlM (scanCopy strategy valid) Copies.none)
      liftExec (selectCopy strategy stripes.length acc)

end FsReader

/-- What a positional read gives: an error, or the bytes that are there. -/
def readBytes (byte : Nat → UInt8) (fault : Option IoError) (offset : UInt64) (n : Nat) :
    Except IoError Bytes :=
  match fault with
  | some e => .error e
  | none => .ok ((List.range n).map fun i => byte (offset.toNat + i))

/-- A file that does not change, and the reads of it that fail. -/
structure Image where
  byte : Nat → UInt8
  fault : UInt64 → Nat → Option IoError

def Image.pread (image : Image) (offset : UInt64) (n : Nat) : Except IoError Bytes :=
  readBytes image.byte (image.fault offset n) offset n

def Image.reader (image : Image) (config : ReaderConfig) : FsReader Exec where
  config
  pread offset n := .ok (image.pread offset n)

/-- A file whose content does not change, on a device that may fail any read of it. -/
structure Device (σ : Type) where
  byte : Nat → UInt8
  fault : UInt64 → Nat → StateM σ (Option IoError)

def Device.reader {σ : Type} (device : Device σ) (config : ReaderConfig) :
    FsReader (ExceptT Halt (StateM σ)) where
  config
  pread offset n := do return readBytes device.byte (← device.fault offset n) offset n

end Rotshield.Btrfs
