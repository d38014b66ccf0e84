import Rotshield.DiskArray.Config

/-! Gather and write aligned stripe chunks across the array's disks. -/
namespace Rotshield.DiskArray

variable {m : Type → Type} [Monad m]

/-- The file operations on a raw device. A parameter: their outcomes are the
environment's. -/
structure DeviceIo (m : Type → Type) where
  /-- Open and `device_size`. -/
  size : Path → ExceptT IoError m Nat
  /-- Open, seek and `read_exact`. -/
  readExact : Path → Nat → (len : Nat) → ExceptT IoError m (Vector UInt8 len)
  /-- Open for writing, seek, `write_all`, `flush` and `sync_all`. -/
  writeAll : Path → Nat → Bytes → ExceptT IoError m Unit

/-- The bytes that were read, then zeros up to the block size. -/
def zeroFill {len : Nat} (head : Vector UInt8 len) (blockSize : Nat) : Vector UInt8 blockSize :=
  Vector.ofFn fun i => if h : i.val < len then head[(⟨i.val, h⟩ : Fin len)] else 0

theorem zeroFill_self {n : Nat} (v : Vector UInt8 n) : zeroFill v n = v := by
  apply Vector.ext
  intro i hi
  simp [zeroFill]

/-- Read one block, zero-filled where it lies past the device end. -/
def readBlockOrZeros (io : DeviceIo m) (config : ArrayConfig) (devPath : Path)
    (arrayPhys blockSize : Nat) : ExceptT IoError m (Vector UInt8 blockSize) := do
  let rawPhys := wadd arrayPhys (config.rawOffsetFor devPath)
  let size ← io.size devPath
  if size ≤ rawPhys then return Vector.replicate blockSize 0
  let available := min (size - rawPhys) blockSize
  let head ← io.readExact devPath rawPhys available
  return zeroFill head blockSize

/-- The aligned chunks of one stripe, ready for the recovery engine. -/
structure StripeChunks (blockSize : Nat) where
  otherData : List (Nat × Vector UInt8 blockSize)
  pBlock : Option (Vector UInt8 blockSize)
  qBlock : Option (Vector UInt8 blockSize)

def gatherOther (io : DeviceIo m) (config : ArrayConfig) (failingSlot arrayPhys blockSize : Nat) :
    List (Nat × Path) → ExceptT IoError m (List (Nat × Vector UInt8 blockSize))
  | [] => pure []
  | (slot, path) :: devs =>
      if slot = failingSlot then gatherOther io config failingSlot arrayPhys blockSize devs
      else do
        let block ← readBlockOrZeros io config path arrayPhys blockSize
        let others ← gatherOther io config failingSlot arrayPhys blockSize devs
        return (slot, block) :: others

def gatherParity (io : DeviceIo m) (config : ArrayConfig) (arrayPhys blockSize : Nat) :
    Option Path → ExceptT IoError m (Option (Vector UInt8 blockSize))
  | none => pure none
  | some p => some <$> readBlockOrZeros io config p arrayPhys blockSize

/-- Read the chunk of every data disk but the failing one, plus the P and Q chunks. -/
def gatherStripe (io : DeviceIo m) (config : ArrayConfig) (failingSlot arrayPhys blockSize : Nat) :
    ExceptT IoError m (StripeChunks blockSize) := do
  let otherData ← gatherOther io config failingSlot arrayPhys blockSize config.dataDevs
  let pBlock ← gatherParity io config arrayPhys blockSize config.parityP
  let qBlock ← gatherParity io config arrayPhys blockSize config.parityQ
  return { otherData, pBlock, qBlock }

/-- Write `data` at `arrayPhys`; the disk's rdev offset is added here. -/
def writeBlock (io : DeviceIo m) (config : ArrayConfig) (devPath : Path) (arrayPhys : Nat)
    (data : Bytes) : ExceptT IoError m Unit :=
  io.writeAll devPath (wadd arrayPhys (config.rawOffsetFor devPath)) data

end Rotshield.DiskArray
