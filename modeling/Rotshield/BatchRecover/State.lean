import Rotshield.DiskArray.Stripe
import Rotshield.Freeze
import Rotshield.Fs
import Rotshield.Status

/-! The writer's candidates, accounting and environment. -/
namespace Rotshield.BatchRecover
open DiskArray (ArrayConfig DeviceIo)

/-- One mismatched sector queued for recovery. -/
structure Candidate where
  arrayPhys : Nat
  blockSize : Nat
  verify : SectorVerifier
  rawPhys : Nat
  failingDev : Path
  reconfirm : Option ReconfirmRequest
  unreadable : Bool

/-- What a candidate is classified as before recovery. -/
inductive Stage where
  | stale
  | skipped
  | mismatch
  deriving DecidableEq, Repr

/-- How the recovery of a mismatch ends. -/
inductive Outcome where
  | recovered
  | failed
  | notCorrupt
  | notFrozen
  | readbackFailed
  deriving DecidableEq, Repr

/-- Stage counters and outcome buckets: two partitions of the same candidates. -/
structure BatchStats where
  mismatch : Nat := 0
  stale : Nat := 0
  recovered : Nat := 0
  failed : Nat := 0
  skipped : Nat := 0
  notFrozen : Nat := 0
  readbackFailed : Nat := 0
  notCorrupt : Nat := 0
  deduped : Nat := 0
  deriving DecidableEq, Repr

namespace BatchStats

def countStage (s : BatchStats) : Stage → BatchStats
  | .stale => { s with stale := s.stale + 1 }
  | .skipped => { s with skipped := s.skipped + 1 }
  | .mismatch => { s with mismatch := s.mismatch + 1 }

def countOutcome (s : BatchStats) : Outcome → BatchStats
  | .recovered => { s with recovered := s.recovered + 1 }
  | .failed => { s with failed := s.failed + 1 }
  | .notCorrupt => { s with notCorrupt := s.notCorrupt + 1 }
  | .notFrozen => { s with notFrozen := s.notFrozen + 1 }
  | .readbackFailed => { s with readbackFailed := s.readbackFailed + 1 }

/-- Candidates that were given a stage or dropped as duplicates. -/
def classified (s : BatchStats) : Nat := s.deduped + s.stale + s.skipped + s.mismatch

/-- Mismatches whose recovery has ended. -/
def settled (s : BatchStats) : Nat :=
  s.recovered + s.failed + s.notCorrupt + s.notFrozen + s.readbackFailed

end BatchStats

/-- The same increments on the shared counters. -/
def countStageShared (c : StatusCounters) : Stage → StatusCounters
  | .stale => { c with stale := c.stale + 1 }
  | .skipped => { c with skipped := c.skipped + 1 }
  | .mismatch => { c with mismatch := c.mismatch + 1 }

def countOutcomeShared (c : StatusCounters) : Outcome → StatusCounters
  | .recovered => { c with recovered := c.recovered + 1 }
  | .failed => { c with failed := c.failed + 1 }
  | .notCorrupt => { c with notCorrupt := c.notCorrupt + 1 }
  | .notFrozen => { c with notFrozen := c.notFrozen + 1 }
  | .readbackFailed => { c with readbackFailed := c.readbackFailed + 1 }

/-- What the writer does, as an observer of the run would note it. Ghost: the code
never reads it. -/
inductive Event where
  /-- A flush starts, over the sorted and deduplicated batch. -/
  | flush (batch : List Candidate)
  /-- The loop takes up a candidate. -/
  | take (cand : Candidate)
  | freeze (ok : Bool)
  | thaw (ok : Bool)
  | reconfirm (req : ReconfirmRequest) (verdict : Reconfirm)
  /-- The fresh read of the failing disk. -/
  | reread (dev : Path) (arrayPhys : Nat) (got : Option Bytes)
  | write (dev : Path) (arrayPhys : Nat) (data : Bytes)
  | classify (arrayPhys : Nat) (stage : Stage)
  | settle (arrayPhys : Nat) (outcome : Outcome)

/-- What the writer thread owns. -/
structure Books where
  freeze : FreezeController
  stats : BatchStats
  counters : Option StatusCounters
  /-- Newest first. -/
  trace : List Event

namespace Books

def note (b : Books) (e : Event) : Books := { b with trace := e :: b.trace }

def setFreeze (b : Books) (c : FreezeController) : Books := { b with freeze := c }

def classify (b : Books) (arrayPhys : Nat) (stage : Stage) : Books :=
  { b with
    stats := b.stats.countStage stage
    counters := b.counters.map (countStageShared · stage)
    trace := .classify arrayPhys stage :: b.trace }

def settle (b : Books) (arrayPhys : Nat) (outcome : Outcome) : Books :=
  { b with
    stats := b.stats.countOutcome outcome
    counters := b.counters.map (countOutcomeShared · outcome)
    trace := .settle arrayPhys outcome :: b.trace }

def dedup (b : Books) (count : Nat) : Books :=
  { b with
    stats := { b.stats with deduped := b.stats.deduped + count }
    counters := b.counters.map fun c => { c with deduped := c.deduped + count } }

def repairedWhileMounted (b : Books) : Books :=
  { b with counters := b.counters.map fun c => { c with repairedWhileMounted := 1 } }

end Books

/-- How the writer thread can stop early. -/
inductive Stop where
  | halt (h : Halt)
  /-- A failed thaw aborts the run. -/
  | thawFailed
  /-- The fuel of the model's drain loop ran out. -/
  | drainFuel
  deriving DecidableEq, Repr

structure WriterState (σ : Type) where
  world : σ
  books : Books

abbrev WriterM (σ : Type) := ExceptT Stop (StateM (WriterState σ))

/-- What the writer is run with. -/
structure WriterArgs where
  cfg : ArrayConfig
  scrubSlot : Nat
  dryRun : Bool
  freezeTimeout : Nat

/-- Everything the writer asks of the system; every outcome is the environment's. -/
structure WriterEnv (σ : Type) where
  io : DeviceIo (StateM σ)
  freezePath : Path → ExceptT IoError (StateM σ) Unit
  thawPath : Path → ExceptT IoError (StateM σ) Unit
  now : StateM σ Nat
  reconfirm : ReconfirmRequest → StateM σ Reconfirm
  /-- BLKFLSBUF on the device. -/
  dropCache : Path → ExceptT IoError (StateM σ) Unit
  isBlockDevice : Path → StateM σ Bool

variable {σ : Type}

/-- An action on the world alone. -/
def world {α : Type} (x : StateM σ α) : WriterM σ α := do
  let s ← get
  let r := x.run s.world
  set { s with world := r.2 }
  return r.1

/-- An action on the world whose error is handled by the caller. -/
def attempt {α : Type} (x : ExceptT IoError (StateM σ) α) : WriterM σ (Except IoError α) :=
  world x.run

def books : WriterM σ Books := return (← get).books

def onBooks (f : Books → Books) : WriterM σ Unit := modify fun s => { s with books := f s.books }

/-- Acquire a scoped freeze: `ok true` is a held guard, `ok false` no live mount. -/
def guard (env : WriterEnv σ) : WriterM σ (Except IoError Bool) := do
  match (← books).freeze.mountpoint with
  | none => return .ok false
  | some mountpoint =>
      match ← attempt (env.freezePath mountpoint) with
      | .ok () =>
          onBooks fun b => (b.setFreeze b.freeze.froze).note (.freeze true)
          return .ok true
      | .error e =>
          onBooks (·.note (.freeze false))
          return .error e

/-- Thaw the held freeze, if any. -/
def thaw (env : WriterEnv σ) : WriterM σ Unit := do
  let controller := (← books).freeze
  if controller.frozen then
    match controller.mountpoint with
    | none => onBooks (·.setFreeze controller.released)
    | some mountpoint =>
        let r ← attempt (env.thawPath mountpoint)
        onBooks fun b => (b.setFreeze (controller.thawed r)).note (.thaw r.isOk)

/-- Return and clear the recorded FITHAW failure. -/
def takeThawError : WriterM σ (Option IoError) := do
  let controller := (← books).freeze
  onBooks (·.setFreeze controller.clearThawError)
  return controller.lastThawError

end Rotshield.BatchRecover
