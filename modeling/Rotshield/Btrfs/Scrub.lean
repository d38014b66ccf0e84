import Rotshield.Btrfs.Isolate
import Rotshield.Btrfs.Extent
import Rotshield.Btrfs.Open

/-! Physical-order data scrub: walk the dev extents, stream their checksums, read and verify
every sector. -/
namespace Rotshield.Btrfs

variable {m : Type → Type} [Monad m] [MonadExceptOf Halt m]

/-- Upper bound on the sectors of one read. -/
def maxRunSectors : Nat := 16384

/-- One problem sector, as it is emitted to the driver. -/
structure SectorResult where
  logical : UInt64
  devid : UInt64
  /-- In array-partition space. -/
  arrayPhys : UInt64
  inode : UInt64
  fileOffset : UInt64
  storedCsum : Option Bytes
  actualCsum : Bytes
  unreadable : Bool
  ok : Bool
  deriving DecidableEq, Repr

/-- Per-run scrub accounting. -/
structure ScrubStats where
  sectorsChecked : Nat := 0
  sectorsOk : Nat := 0
  sectorsMismatch : Nat := 0
  sectorsNoCsum : Nat := 0
  sectorsReadError : Nat := 0
  sectorsStale : Nat := 0
  staleCsumBranches : Nat := 0
  isolationTruncated : Nat := 0
  bytesChecked : Nat := 0
  deriving DecidableEq, Repr

/-- What the scrub writes to: its totals, the shared counters, and the callback. -/
structure ScrubOut where
  stats : ScrubStats
  counters : Counters
  /-- The calls of `on_sector`, oldest first. -/
  events : List SectorResult

namespace ScrubOut

def start (counters : Counters) : ScrubOut := ⟨{}, counters, []⟩

def emit (out : ScrubOut) (r : SectorResult) : ScrubOut := { out with events := out.events ++ [r] }

def countChecked (out : ScrubOut) (sectorSize : Nat) : ScrubOut :=
  { out with
    stats := { out.stats with
      sectorsChecked := out.stats.sectorsChecked + 1
      bytesChecked := out.stats.bytesChecked + sectorSize }
    counters := out.counters.map fun c => { c with
      sectorsChecked := c.sectorsChecked + 1
      bytesChecked := c.bytesChecked + sectorSize } }

def countOk (out : ScrubOut) : ScrubOut :=
  { out with
    stats := { out.stats with sectorsOk := out.stats.sectorsOk + 1 }
    counters := out.counters.map fun c => { c with sectorsOk := c.sectorsOk + 1 } }

def countMismatch (out : ScrubOut) : ScrubOut :=
  { out with
    stats := { out.stats with sectorsMismatch := out.stats.sectorsMismatch + 1 }
    counters := out.counters.map fun c => { c with mismatch := c.mismatch + 1 } }

def countStale (out : ScrubOut) : ScrubOut :=
  { out with
    stats := { out.stats with sectorsStale := out.stats.sectorsStale + 1 }
    counters := out.counters.map fun c => { c with stale := c.stale + 1 } }

def countReadError (out : ScrubOut) : ScrubOut :=
  { out with
    stats := { out.stats with sectorsReadError := out.stats.sectorsReadError + 1 }
    counters := out.counters.map fun c => { c with sectorsReadError := c.sectorsReadError + 1 } }

def countTruncated (out : ScrubOut) : ScrubOut :=
  { out with
    stats := { out.stats with isolationTruncated := out.stats.isolationTruncated + 1 }
    counters := out.counters.map fun c => { c with isolationTruncated := c.isolationTruncated + 1 } }

end ScrubOut

/-- What a scrub is run with. -/
structure ScrubContext (m : Type → Type) where
  reader : FsReader m
  reopen : m (Except IoError Unit)
  chunkMap : ChunkMap
  strategy : CsumStrategy
  /-- Mismatches are emitted raw: the writer re-confirms them. -/
  batch : Bool
  /-- The failing reads tolerated in one run. -/
  isolationLimit : Nat
  isolationLimit_pos : 0 < isolationLimit

namespace ScrubContext

def sz (ctx : ScrubContext m) : Nat := ctx.strategy.sectorSize.toNat

end ScrubContext

/-- The physical address of a logical one. -/
def DevExtent.physOf (dext : DevExtent) (logical : UInt64) : UInt64 :=
  dext.physStart + (logical - dext.chunkOffset)

/-- The event of a sector; the actual checksum of an unreadable one is empty. -/
def sectorResult (dext : DevExtent) (entry : CsumEntry) (actual : Bytes) (unreadable : Bool) :
    SectorResult where
  logical := entry.logical
  devid := dext.devid
  arrayPhys := dext.physOf entry.logical
  inode := 0
  fileOffset := 0
  storedCsum := some entry.csum
  actualCsum := actual
  unreadable
  ok := false

/-- A mismatch that the tree confirms is one unless a fresh read verifies. -/
def freshMismatch (ctx : ScrubContext m) (dext : DevExtent) (entry : CsumEntry) : m Bool := do
  match ← ctx.reader.readPhysical dext.devid (dext.physOf entry.logical) ctx.sz with
  | .ok fresh => return decide (ctx.strategy.compute fresh ≠ entry.csum)
  | .error _ => return true

/-- Re-confirm a mismatch on the spot, without a recovery pipeline. -/
def reconfirmSector (ctx : ScrubContext m) (dext : DevExtent) (entry : CsumEntry) (actual : Bytes)
    (out : ScrubOut) : m ScrubOut := do
  let (roots, counters) ← liveDataTreeRoots ctx.strategy.crates ctx.reopen ctx.reader ctx.chunkMap
    ctx.reader.config.baseOffset out.counters
  let out := { out with counters }
  match roots with
  | none => return out.countReadError
  | some (extRoot, csumRoot) =>
      let verdict ← reconfirmMismatch ctx.reader ctx.chunkMap extRoot csumRoot entry.logical
        entry.csum ctx.strategy.hashLen ctx.strategy.sectorSize
      let isCorruption ← (if verdict = .corruption then freshMismatch ctx dext entry else pure false)
      if isCorruption then
        return out.countMismatch.emit (sectorResult dext entry actual false)
      else return out.countStale

/-- One sector that was read, with the checksum of its bytes. -/
def processSector (ctx : ScrubContext m) (dext : DevExtent) (out : ScrubOut)
    (sector : CsumEntry × Bytes) : m ScrubOut := do
  let (entry, actual) := sector
  let out := out.countChecked ctx.sz
  if actual = entry.csum then return out.countOk
  else if ctx.batch then return out.emit (sectorResult dext entry actual false)
  else reconfirmSector ctx dext entry actual out

/-- Verify every sector of one region that was read. -/
def processBuf (ctx : ScrubContext m) (dext : DevExtent) (buf : Bytes) (run : List CsumEntry)
    (out : ScrubOut) : m ScrubOut := do
  let actuals ← (List.range run.length).mapM fun i => do
    return ctx.strategy.compute (← liftExec (slice buf (i * ctx.sz) ctx.sz))
  (run.zip actuals).foldlM (processSector ctx dext) out

/-- Verify a good region against its slice of the run's checksums. -/
def processRegion (ctx : ScrubContext m) (dext : DevExtent) (entries : List CsumEntry)
    (out : ScrubOut) (region : Nat × Bytes) : m ScrubOut := do
  let first := region.1 / ctx.sz
  let last := min ((region.1 + region.2.length) / ctx.sz) entries.length
  if last < first then throw .panic
  let regionEntries := (entries.take last).drop first
  if regionEntries.isEmpty then return out
  else processBuf ctx dext region.2 regionEntries out

/-- Count an unreadable sector; with a pipeline it is emitted too, to be rebuilt from parity. -/
def processBad (ctx : ScrubContext m) (dext : DevExtent) (entries : List CsumEntry)
    (out : ScrubOut) (start : Nat) : ScrubOut :=
  match entries[start / ctx.sz]? with
  | none => out
  | some entry =>
      let out := (out.countChecked ctx.sz).countReadError
      if ctx.batch && entry.csum.length == ctx.strategy.hashLen then
        out.emit (sectorResult dext entry [] true)
      else out

/-- The good regions of a run, then its unreadable sectors. -/
def processIsolated (ctx : ScrubContext m) (dext : DevExtent) (entries : List CsumEntry)
    (iso : Isolation) (out : ScrubOut) : m ScrubOut := do
  let out := if iso.budget.exhausted then out.countTruncated else out
  let out ← iso.good.foldlM (processRegion ctx dext entries) out
  return iso.bad.foldl (processBad ctx dext entries) out

/-! ### Runs -/

/-- Cut a stream into contiguous runs of at most `maxRunSectors`; `run` is the one being gathered,
which a flush takes, and `prev` the last address. -/
def runsLoop (sectorSize : UInt64) :
    List CsumEntry → List CsumEntry → Option UInt64 → List (List CsumEntry)
  | [], run, _ => if run.isEmpty then [] else [run]
  | e :: rest, run, prev =>
      let contiguous := prev.all fun p => e.logical == p + sectorSize
      if !contiguous || decide (maxRunSectors ≤ run.length) then
        if run.isEmpty then runsLoop sectorSize rest [e] (some e.logical)
        else run :: runsLoop sectorSize rest [e] (some e.logical)
      else runsLoop sectorSize rest (run ++ [e]) (some e.logical)

def runsOf (sectorSize : UInt64) (entries : List CsumEntry) : List (List CsumEntry) :=
  runsLoop sectorSize entries [] none

/-- One contiguous read: a run of an extent's entries. -/
structure ReadCmd where
  dext : DevExtent
  entries : List CsumEntry
  deriving DecidableEq, Repr

/-- Where the read starts on the device. -/
def ReadCmd.phys (cmd : ReadCmd) : UInt64 :=
  match cmd.entries with
  | [] => 0
  | e :: _ => cmd.dext.physOf e.logical

def ReadCmd.len (ctx : ScrubContext m) (cmd : ReadCmd) : Nat := cmd.entries.length * ctx.sz

def extentCmds (ctx : ScrubContext m) (dext : DevExtent) (entries : List CsumEntry) :
    List ReadCmd :=
  (runsOf ctx.strategy.sectorSize entries).map fun run => ⟨dext, run⟩

/-! ### Reads -/

/-- The reads of the inline scrub go through its reader, which checks the device. -/
def inlineRead (ctx : ScrubContext m) (cmd : ReadCmd) : m Isolation :=
  isolateRun (ctx.reader.readPhysical cmd.dext.devid) cmd.phys 0 (cmd.len ctx)
    ctx.strategy.sectorSize (.new ctx.isolationLimit)

def saturatingAdd (a b : UInt64) : UInt64 := .ofNat (min (a.toNat + b.toNat) (2 ^ 64 - 1))

/-- The reader thread resolves the offset itself. -/
def isolateRunRead (ctx : ScrubContext m) (cmd : ReadCmd) : m Isolation :=
  isolateRun ctx.reader.pread (saturatingAdd ctx.reader.config.baseOffset cmd.phys) 0 (cmd.len ctx)
    ctx.strategy.sectorSize (.new ctx.isolationLimit)

/-- Verify what a command read. -/
def processRsp (ctx : ScrubContext m) (out : ScrubOut) (rsp : ReadCmd × Isolation) : m ScrubOut :=
  processIsolated ctx rsp.1.dext rsp.1.entries rsp.2 out

/-! ### The extents -/

/-- Where the checksums of a logical range come from. -/
structure CsumSource (m : Type → Type) (P : Type) where
  range : UInt64 → UInt64 → P → m (List CsumEntry × P)
  /-- The failures of a walk, in the shared counters. -/
  count : P → P → Counters → Counters
  staleBranches : P → Nat

/-- Each failure that is tallied is added to the shared counters too. -/
def CsumTallies.count (t t' : CsumTallies) (c : StatusCounters) : StatusCounters :=
  { c with
    metadataHeaderErrors :=
      c.metadataHeaderErrors + (t'.metadataErrors.count - t.metadataErrors.count)
    staleCsumBranches := c.staleCsumBranches + (t'.staleBranches.count - t.staleBranches.count)
    metadataMirrorMismatches :=
      c.metadataMirrorMismatches + (t'.mirrorMismatches.count - t.mirrorMismatches.count)
    metadataReadErrors :=
      c.metadataReadErrors + (t'.metadataReadErrors.count - t.metadataReadErrors.count) }

/-- The lazy csum walker, as the source of a scrub's checksums. -/
def lazyCsum : CsumSource m (LazyCsumProvider m) where
  range logicalLo logicalHi p := p.range logicalLo logicalHi
  count p p' counters := counters.map (p.tallies.count p'.tallies)
  staleBranches p := p.tallies.staleBranches.count

/-- Only data extents with a chunk mapping are scrubbed. -/
def ScrubContext.scrubs (ctx : ScrubContext m) (dext : DevExtent) : Bool :=
  (ctx.chunkMap.info dext.chunkOffset).any fun chunk => chunk.flags &&& BgFlag.data != 0

section Extents
variable {P : Type}

def CsumSource.extentRange (src : CsumSource m P) (dext : DevExtent) (p : P) :
    m (List CsumEntry × P) :=
  src.range dext.chunkOffset (dext.chunkOffset + dext.length) p

/-- The counters after the walk of one extent. -/
def ScrubOut.walked (src : CsumSource m P) (p p' : P) (out : ScrubOut) : ScrubOut :=
  { out with counters := src.count p p' out.counters }

/-- The totals at the end of the extents. -/
def ScrubOut.finish (src : CsumSource m P) (p : P) (out : ScrubOut) : ScrubOut :=
  { out with stats := { out.stats with staleCsumBranches := src.staleBranches p } }

/-! ### The scrub without a reader thread -/

/-- Between two entries of a stream. -/
structure InlineState where
  out : ScrubOut
  run : List CsumEntry
  prev : Option UInt64

/-- Read a run and verify it. -/
def inlineFlush (ctx : ScrubContext m) (dext : DevExtent) (run : List CsumEntry) (out : ScrubOut) :
    m ScrubOut :=
  if run.isEmpty then return out
  else do
    let iso ← inlineRead ctx ⟨dext, run⟩
    processRsp ctx out (⟨dext, run⟩, iso)

def inlineEntry (ctx : ScrubContext m) (dext : DevExtent) (s : InlineState) (e : CsumEntry) :
    m InlineState := do
  let contiguous := s.prev.all fun p => e.logical == p + ctx.strategy.sectorSize
  let out ← (if !contiguous || decide (maxRunSectors ≤ s.run.length) then
    inlineFlush ctx dext s.run s.out else pure s.out)
  -- A flush does not take the run: its entries stay at the front of the next one.
  return { out, run := s.run ++ [e], prev := some e.logical }

def inlineExtent (ctx : ScrubContext m) (src : CsumSource m P) (s : ScrubOut × P)
    (dext : DevExtent) : m (ScrubOut × P) :=
  if ctx.scrubs dext then do
    let (entries, p) ← src.extentRange dext s.2
    let last ← entries.foldlM (inlineEntry ctx dext) ⟨s.1.walked src s.2 p, [], none⟩
    let out ← inlineFlush ctx dext last.run last.out
    return (out, p)
  else return s

def scrubDevTreeInline (ctx : ScrubContext m) (src : CsumSource m P) (p : P)
    (devExtents : List DevExtent) (counters : Counters) : m (ScrubOut × P) := do
  let s ← devExtents.foldlM (inlineExtent ctx src) (.start counters, p)
  return (s.1.finish src s.2, s.2)

end Extents
end Rotshield.Btrfs
