import Rotshield.BatchRecover.Pipeline
import Rotshield.Btrfs.ScrubSteps
import Rotshield.DiskArray.Canary
import Rotshield.Main.ExitCode

/-! The driver of a run: the slot of the device, the candidates made of the scrub's events, and the
exit code. -/
namespace Rotshield.Main
open BatchRecover (BatchStats Candidate WriterEnv WriterArgs Pipeline)
open DiskArray (ArrayConfig DeviceIo reconstructBlock)

/-! ### The slot of a device -/

/-- The last component of a path, unless it is `..`. -/
def fileName (path : List Char) : Option (List Char) :=
  match ((path.splitOn '/').filter fun c => c ≠ [] ∧ c ≠ ['.']).getLast? with
  | none => none
  | some name => if name = ['.', '.'] then none else some name

def parseU64 (digits : List Char) : Option Nat :=
  let value := digits.foldl (fun n c => 10 * n + (c.toNat - '0'.toNat)) 0
  if value < 2 ^ 64 then some value else none

/-- The slot in an array-partition name like nmd2p1; a bare nmd123 is none. -/
def slotFromArrayPartition (dev : String) : Option Nat := do
  let name ← fileName dev.toList
  if name.take 3 ≠ ['n', 'm', 'd'] then none
  let rest := name.drop 3
  let digits := rest.takeWhile Char.isDigit
  if digits.isEmpty then none
  let afterDigits := rest.drop digits.length
  if afterDigits.head? ≠ some 'p' ∨ afterDigits.length < 2 then none
  parseU64 digits

/-- The array config and the slot of the device; without either, a plain scrub. -/
def resolveSlot (loaded : Option ArrayConfig) (canonicalize : Path → Option Path) (dev : Path) :
    Option ArrayConfig × Nat :=
  match loaded with
  | none => (none, 0)
  | some cfg =>
      match (slotFromArrayPartition dev).or (cfg.slotForRawDev canonicalize dev) with
      | some slot => (some cfg, slot)
      | none => (none, 0)

/-- The startup canary: the superblock that parity gives must carry the magic. -/
def canaryPasses {m : Type → Type} [Monad m] (io : DeviceIo m) (cfg : Option ArrayConfig)
    (slot : Nat) : m Bool :=
  match cfg with
  | none => return true
  | some cfg =>
      if slot = 0 then return true
      else do
        match ← (reconstructBlock io cfg slot Btrfs.superblockOffset.toNat 4096).run with
        | .ok block => return Btrfs.hasMagicAt block.toList Btrfs.offMagic
        | .error _ => return false

/-! ### The events of the scrub -/

/-- A problem sector as the recovery sees it; without a stored checksum there is nothing to verify
or to re-confirm. -/
def scrubEvent (strategy : Btrfs.CsumStrategy) (r : Btrfs.SectorResult) : ScrubEvent where
  arrayPhys := r.arrayPhys.toNat
  blockSize := strategy.sectorSize.toNat
  verify := r.storedCsum.map fun stored b => strategy.compute b == stored
  reconfirm := r.storedCsum.map fun stored => { token := r.logical.toNat, storedCsum := stored }
  unreadable := r.unreadable

/-- Forwards each event of the scrub to the pipeline. -/
structure Driver where
  cfg : Option ArrayConfig
  /-- There is a pipeline to send to. -/
  attached : Bool
  scrubSlot : Nat

namespace Driver

def wantsRawCandidates (d : Driver) : Bool := d.attached

/-- The candidate an event is forwarded as, if any. -/
def candidate (d : Driver) (ev : ScrubEvent) : Option Candidate := do
  if !d.attached then none
  let cfg ← d.cfg
  let verify ← ev.verify
  let failingDev ← cfg.dataDev d.scrubSlot
  let rawPhys ← cfg.rawPhys d.scrubSlot ev.arrayPhys
  return {
    arrayPhys := ev.arrayPhys, blockSize := ev.blockSize, verify, rawPhys, failingDev
    reconfirm := ev.reconfirm, unreadable := ev.unreadable }

end Driver

/-! ### A run with a pipeline -/

variable {σ : Type}

/-- The scrub thread's events so far, and the pipeline they go to. -/
structure Run (σ : Type) where
  emitted : List ScrubEvent
  pipe : Pipeline σ

inductive RunStep (env : WriterEnv σ) (args : WriterArgs) (batchMax : Nat) (driver : Driver) :
    Run σ → Run σ → Prop where
  | forward {s ev c} (made : driver.candidate ev = some c) (open_ : s.pipe.driver = .sending)
      (room : s.pipe.chanA.length < BatchRecover.capacity) (peer : s.pipe.acc.over = false) :
      RunStep env args batchMax driver s
        { emitted := s.emitted ++ [ev]
          pipe := { s.pipe with
            sent := s.pipe.sent ++ [c]
            chanA := s.pipe.chanA ++ [.candidate c] } }
  /-- The accumulator is gone: the candidate is lost, and not counted as sent. -/
  | refused {s ev c} (made : driver.candidate ev = some c) (open_ : s.pipe.driver = .sending)
      (peer : s.pipe.acc.over = true) :
      RunStep env args batchMax driver s { s with emitted := s.emitted ++ [ev] }
  | ignored {s ev} (made : driver.candidate ev = none) (open_ : s.pipe.driver = .sending) :
      RunStep env args batchMax driver s { s with emitted := s.emitted ++ [ev] }
  | other {s pipe} (step : Pipeline.Step env args batchMax s.pipe pipe)
      (sent : pipe.sent = s.pipe.sent) : RunStep env args batchMax driver s { s with pipe }

/-- The threads of a run from the spawn of the pipeline on. -/
def run (env : WriterEnv σ) (args : WriterArgs) (batchMax : Nat) (driver : Driver) :
    Lib.Transition (Run σ) where
  init s := s.emitted = [] ∧ (BatchRecover.pipeline env args batchMax).init s.pipe
  step := RunStep env args batchMax driver

/-! ### The whole program -/

/-- The totals of the scrub, with all metadata failures that were counted. -/
def totals (stats : Btrfs.ScrubStats) (metadata : Btrfs.MetadataErrors) : ScrubStats where
  sectorsChecked := stats.sectorsChecked
  sectorsOk := stats.sectorsOk
  sectorsMismatch := stats.sectorsMismatch
  sectorsNoCsum := stats.sectorsNoCsum
  sectorsReadError := stats.sectorsReadError
  sectorsStale := stats.sectorsStale
  staleCsumBranches := stats.staleCsumBranches
  isolationTruncated := stats.isolationTruncated
  bytesChecked := stats.bytesChecked
  metadataHeaderErrors := metadata.headerErrors
  metadataMirrorMismatches := metadata.mirrorMismatches
  metadataReadErrors := metadata.readErrors

/-- What a run is started with. -/
structure Setup (σ : Type) where
  dev : Path
  loaded : Option ArrayConfig
  canonicalize : Path → Option Path
  env : WriterEnv σ
  args : WriterArgs
  batchMax : Nat

namespace Setup

def cfg (setup : Setup σ) : Option ArrayConfig :=
  (resolveSlot setup.loaded setup.canonicalize setup.dev).1

def slot (setup : Setup σ) : Nat := (resolveSlot setup.loaded setup.canonicalize setup.dev).2

/-- The pipeline is attached where there is an array config. -/
def driver (setup : Setup σ) : Driver := ⟨setup.cfg, setup.cfg.isSome, setup.slot⟩

end Setup

/-- The accumulator is joined first: its panic ends the run. The writer is joined after it. -/
inductive Joined (total : ScrubStats) (pipe : Pipeline σ) : ExitCode → Prop where
  | accPanicked {lost} (acc : pipe.acc = .panicked lost) : Joined total pipe .runtimeError
  | returned {stats} (acc : pipe.acc = .returned) (writer : pipe.writer = .returned stats) :
      Joined total pipe (finish total pipe.sent.length (some (.ok stats)))
  | stopped {why} (acc : pipe.acc = .returned) (writer : pipe.writer = .stopped why) :
      Joined total pipe (finish total pipe.sent.length (some (.error why)))

section Program
variable {m : Type → Type} [Monad m] [MonadExceptOf Halt m] [MonadAttach m] {P : Type}

/-- A run whose scrub returned: the problem sectors it emitted, the array addresses that were
classified stale, and the exit code. -/
inductive RunScrub (setup : Setup σ) (ctx : Btrfs.ScrubContext m) (src : Btrfs.CsumSource m P)
    (depth : Nat) (p : P) (devExtents : List Btrfs.DevExtent) (counters : Btrfs.Counters)
    (metadata : Btrfs.MetadataErrors) : List Btrfs.SectorResult → (Nat → Prop) → ExitCode → Prop where
  | plain {threaded out} (alone : setup.cfg = none)
      (batch : ctx.batch = setup.driver.wantsRawCandidates)
      (scrub : Btrfs.ScrubReturns ctx src depth p devExtents counters threaded out) :
      RunScrub setup ctx src depth p devExtents counters metadata out.events (fun _ => False)
        (finish (totals out.stats metadata) 0 none)
  | pipelined {cfg threaded out s code} (array : setup.cfg = some cfg)
      (canary : ∃ w w', canaryPasses setup.env.io setup.cfg setup.slot w = (true, w'))
      (args : setup.args.cfg = cfg ∧ setup.args.scrubSlot = setup.slot)
      (batch : ctx.batch = setup.driver.wantsRawCandidates)
      (scrub : Btrfs.ScrubReturns ctx src depth p devExtents counters threaded out)
      (reachable : (run setup.env setup.args setup.batchMax setup.driver).Reachable s)
      (emitted : s.emitted = out.events.map (scrubEvent ctx.strategy))
      (joined : Joined (totals out.stats metadata) s.pipe code) :
      RunScrub setup ctx src depth p devExtents counters metadata out.events
        (fun a => .classify a .stale ∈ s.pipe.state.books.trace) code

end Program
end Rotshield.Main
