import Rotshield.DiskArray.Canary
import Rotshield.DiskArray.Parity

/-! The corruption-crafting tool: corrupt a sector of a file, and restore it from a backup. -/
namespace Rotshield.CraftCorrupt
open DiskArray

/-- The corruption and parity granularity. -/
def block : Nat := 4096

abbrev Block := Vector UInt8 block

/-- Which blocks are corrupted, and whether parity is recomputed from the corrupt data. -/
inductive Targets where
  | data
  | bakeP
  | bakeQ
  | bakeBoth
  /-- The data block and a partner disk's; the parity stays as it is. -/
  | twoDisk
  deriving DecidableEq, Repr

/-- A path that ends in a file name. -/
structure FilePath where
  parent : String
  fileStem : String
  extension : Option String
  deriving DecidableEq, Repr

def FilePath.withExtension (path : FilePath) (extension : String) : FilePath :=
  { path with extension := some extension }

/-- The file a partner's block is saved to, beside the backup. -/
def FilePath.partner (backup : FilePath) : FilePath := backup.withExtension "partner"

structure Opts where
  byteOffset : Nat := 100
  flip : UInt8 := 0x5A
  targets : Targets := .bakeP
  partnerSlot : Option Nat := none
  backup : Option FilePath := none
  deriving DecidableEq, Repr

/-- The disks, and the files backups are saved to. -/
structure World where
  disks : Path → Disk
  files : FilePath → Option Bytes

inductive Abort where
  | io (e : IoError)
  | panic
  deriving DecidableEq, Repr

abbrev Cmd := ExceptT Abort (StateM World)

/-! ### Input and output -/

/-- The disk with these bytes written; a write past its end extends it. -/
def overwrite (disk : Disk) (raw : Nat) (data : Bytes) : Disk where
  size := max disk.size (raw + data.length)
  byte r := if raw ≤ r ∧ r < raw + data.length then data.getD (r - raw) 0 else disk.extended r

def World.write (w : World) (path : Path) (raw : Nat) (data : Bytes) : World :=
  { w with disks := fun p => if p = path then overwrite (w.disks path) raw data else w.disks p }

def World.save (w : World) (path : FilePath) (data : Bytes) : World :=
  { w with files := fun p => if p = path then some data else w.files p }

/-- Disks that answer every read inside them, and take every write. -/
def deviceIo : DeviceIo (StateM World) where
  size path w := (.ok (w.disks path).size, w)
  readExact path raw len w :=
    if raw + len ≤ (w.disks path).size then
      (.ok (Vector.ofFn fun i => (w.disks path).byte (raw + i)), w)
    else (.error .unexpectedEof, w)
  writeAll path raw data w := (.ok (), w.write path raw data)

def liftIo {α : Type} (x : ExceptT IoError (StateM World) α) : Cmd α := ExceptT.adapt Abort.io x

def readBlock (config : ArrayConfig) (path : Path) (arrayPhys : Nat) : Cmd Block :=
  liftIo (readBlockOrZeros deviceIo config path arrayPhys block)

def putBlock (config : ArrayConfig) (path : Path) (arrayPhys : Nat) (data : Bytes) : Cmd Unit :=
  liftIo (writeBlock deviceIo config path arrayPhys data)

def writeFile (path : FilePath) (data : Bytes) : Cmd Unit := modify fun w => w.save path data

def readFile (path : FilePath) : Cmd Bytes := do
  match (← get).files path with
  | none => throw (.io .notFound)
  | some data => return data

def okOr {α : Type} (e : IoError) : Option α → Cmd α
  | none => throw (.io e)
  | some a => pure a

/-! ### Corrupt -/

/-- `buf[i] ^= mask`. -/
def flipByte (buf : Block) (i : Nat) (mask : UInt8) : Cmd Block :=
  if h : i < block then return buf.set i (buf.get ⟨i, h⟩ ^^^ mask) else throw .panic

/-- A flip that leaves the checksum as it is would not be noticed. -/
def rejectSame (crc : Bytes → UInt32) (original corrupt : Block) : Cmd Unit :=
  if crc corrupt.toList = crc original.toList then throw (.io .invalidInput) else return ()

/-- Save a block, where a backup is asked for. -/
def saveTo (data : Block) : Option FilePath → Cmd Unit
  | none => return ()
  | some path => writeFile path data.toList

structure Partner where
  slot : Nat
  path : Path
  corrupt : Block

/-- The partner: the one that is named, else the first other data disk. -/
def chosenSlot (config : ArrayConfig) (devid : Nat) (opts : Opts) : Option Nat :=
  opts.partnerSlot.or (config.slots.find? (· != devid))

/-- Choose and flip a partner, and save its block beside the backup. -/
def choosePartner (crc : Bytes → UInt32) (config : ArrayConfig) (devid arrayPhys : Nat)
    (opts : Opts) : Cmd (Option Partner) :=
  if opts.targets ≠ .twoDisk then return none
  else do
    let slot ← okOr .notFound (chosenSlot config devid opts)
    let path ← okOr .notFound (config.dataDev slot)
    let original ← readBlock config path arrayPhys
    -- Another byte and another mask than the target's.
    let corrupt ← flipByte original (wadd opts.byteOffset 1 % block) (opts.flip ^^^ 1)
    rejectSame crc original corrupt
    saveTo original (opts.backup.map (·.partner))
    return some { slot, path, corrupt }

/-- P and Q after the corruption. -/
def newParity (config : ArrayConfig) (devid arrayPhys : Nat) (corrupt pBefore qBefore : Block) :
    Targets → Cmd (Block × Block)
  | .data => return (pBefore, qBefore)
  | .bakeP => return (← liftIo (computePWithOverride deviceIo config devid corrupt arrayPhys), qBefore)
  | .bakeQ => return (pBefore, ← liftIo (computeQWithOverride deviceIo config devid corrupt arrayPhys))
  | .bakeBoth => do
      let p ← liftIo (computePWithOverride deviceIo config devid corrupt arrayPhys)
      let q ← liftIo (computeQWithOverride deviceIo config devid corrupt arrayPhys)
      return (p, q)
  | .twoDisk => return (pBefore, qBefore)

/-- Parity is rewritten only where it changed. -/
def putChanged (config : ArrayConfig) (path : Path) (arrayPhys : Nat) (before after : Block) :
    Cmd Unit :=
  if after ≠ before then putBlock config path arrayPhys after.toList else return ()

def putPartner (config : ArrayConfig) (arrayPhys : Nat) : Option Partner → Cmd Unit
  | none => return ()
  | some partner => putBlock config partner.path arrayPhys partner.corrupt.toList

/-- Corrupt the block at an array address of a slot, where the file's sector was found. -/
def corruptCmd (crc : Bytes → UInt32) (config : ArrayConfig) (devid arrayPhys : Nat)
    (opts : Opts) : Cmd Unit := do
  let devPath ← okOr .notFound (config.dataDev devid)
  let orig ← readBlock config devPath arrayPhys
  let pPath ← okOr .notFound config.parityP
  let qPath ← okOr .notFound config.parityQ
  let pBefore ← readBlock config pPath arrayPhys
  let qBefore ← readBlock config qPath arrayPhys
  -- Parity that does not match the data is warned about only.
  let _pExpected ← liftIo (computeP deviceIo config arrayPhys block)
  let _qExpected ← liftIo (computeQ deviceIo config arrayPhys block)
  let corrupt ← flipByte orig opts.byteOffset opts.flip
  rejectSame crc orig corrupt
  let partner ← choosePartner crc config devid arrayPhys opts
  saveTo orig opts.backup
  let parity ← newParity config devid arrayPhys corrupt pBefore qBefore opts.targets
  putBlock config devPath arrayPhys corrupt.toList
  putChanged config pPath arrayPhys pBefore parity.1
  putChanged config qPath arrayPhys qBefore parity.2
  putPartner config arrayPhys partner

/-! ### Restore -/

/-- Write the saved block to the first other data disk whose block differs from it; a disk that
cannot be read is passed over. -/
def restorePartner (config : ArrayConfig) (devid arrayPhys : Nat) (saved : Bytes) :
    List (Nat × Path) → Cmd Unit
  | [] => return ()
  | (slot, path) :: rest =>
      if slot = devid then restorePartner config devid arrayPhys saved rest
      else do
        match ← ExceptT.lift (readBlock config path arrayPhys).run with
        | .error _ => restorePartner config devid arrayPhys saved rest
        | .ok cur =>
            if cur.toList ≠ saved then putBlock config path arrayPhys saved
            else restorePartner config devid arrayPhys saved rest

/-- A backup holds one block. -/
def readBackup (path : FilePath) : Cmd Bytes := do
  let data ← readFile path
  if data.length ≠ block then throw (.io .invalidData) else return data

/-- Restore a partner from the file beside the backup, where there is one. -/
def restoreBeside (config : ArrayConfig) (devid arrayPhys : Nat) (backup : FilePath) : Cmd Unit := do
  if ((← get).files backup.partner).isSome then
    restorePartner config devid arrayPhys (← readBackup backup.partner) config.dataDevs

def putParity (config : ArrayConfig) (arrayPhys : Nat) (parity : Block) : Option Path → Cmd Unit
  | none => return ()
  | some path => putBlock config path arrayPhys parity.toList

/-- Restore the block from the backup, then a partner's, and recompute P and Q. -/
def restoreCmd (config : ArrayConfig) (devid arrayPhys : Nat) (backup : FilePath) : Cmd Unit := do
  let devPath ← okOr .notFound (config.dataDev devid)
  let orig ← readBackup backup
  putBlock config devPath arrayPhys orig
  restoreBeside config devid arrayPhys backup
  let p ← liftIo (computeP deviceIo config arrayPhys block)
  let q ← liftIo (computeQ deviceIo config arrayPhys block)
  putParity config arrayPhys p config.parityP
  putParity config arrayPhys q config.parityQ

end Rotshield.CraftCorrupt
