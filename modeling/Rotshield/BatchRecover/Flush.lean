import Mathlib.Data.List.Sort
import Rotshield.BatchRecover.State
import Rotshield.Recovery.Engine

/-! Dedup, freeze, re-confirm, recover, write back: one batch, then the writer's loop. -/
namespace Rotshield.BatchRecover
open DiskArray (readBlockOrZeros gatherStripe writeBlock)
open Recovery (recoverBlock RecoveryResult)

variable {σ : Type}

/-- Drop every candidate at the offset of the one kept before it. -/
def dedupAfter (arrayPhys : Nat) : List Candidate → List Candidate
  | [] => []
  | c :: rest =>
      if c.arrayPhys = arrayPhys then dedupAfter arrayPhys rest
      else c :: dedupAfter c.arrayPhys rest

def dedupByPhys : List Candidate → List Candidate
  | [] => []
  | c :: rest => c :: dedupAfter c.arrayPhys rest

def sortByPhys (batch : List Candidate) : List Candidate :=
  batch.insertionSort fun a b => a.arrayPhys ≤ b.arrayPhys

/-- What is known of a candidate after re-confirmation and the fresh read. -/
inductive Confirmed (n : Nat) where
  | stale
  | skipped
  | corrupt (block : Vector UInt8 n) (unreadable : Bool)

/-- The verdict of the live metadata; without a request the mismatch stands. -/
def verdictOf (env : WriterEnv σ) (cand : Candidate) : WriterM σ Reconfirm := do
  match cand.reconfirm with
  | none => return .corruption
  | some req =>
      let verdict ← world (env.reconfirm req)
      onBooks (·.note (.reconfirm req verdict))
      return verdict

/-- Re-read the failing disk. A block that verifies now was rewritten since the scan. -/
def rereadFailing (env : WriterEnv σ) (args : WriterArgs) (cand : Candidate) :
    WriterM σ (Confirmed cand.blockSize) := do
  if cand.unreadable then return .corrupt (Vector.replicate cand.blockSize 0) true
  else
    let got ← attempt
      (readBlockOrZeros env.io args.cfg cand.failingDev cand.arrayPhys cand.blockSize)
    onBooks (·.note (.reread cand.failingDev cand.arrayPhys (got.toOption.map Vector.toList)))
    match got with
    | .ok block => return if cand.verify block.toList then .stale else .corrupt block false
    -- The disk degraded mid-run: go on as for an unreadable source.
    | .error _ => return .corrupt (Vector.replicate cand.blockSize 0) true

def confirm (env : WriterEnv σ) (args : WriterArgs) (cand : Candidate) :
    WriterM σ (Confirmed cand.blockSize) := do
  match ← verdictOf env cand with
  | .stale => return .stale
  | .unverifiable => return .skipped
  | .corruption => rereadFailing env args cand

/-- Read the written block back; only bytes that verify count as recovered. -/
def readBack (env : WriterEnv σ) (args : WriterArgs) (cand : Candidate) : WriterM σ Outcome := do
  let reread ← attempt
    (readBlockOrZeros env.io args.cfg cand.failingDev cand.arrayPhys cand.blockSize)
  let _ ← attempt (env.dropCache cand.failingDev)
  match reread with
  | .ok block => return if cand.verify block.toList then .recovered else .readbackFailed
  | .error _ => return .readbackFailed

/-- Write the recovered block, drop the page cache, read back. -/
def writeBack (env : WriterEnv σ) (args : WriterArgs) (hasLiveMount : Bool) (cand : Candidate)
    (block : Vector UInt8 cand.blockSize) : WriterM σ Outcome := do
  onBooks (·.note (.write cand.failingDev cand.arrayPhys block.toList))
  match ← attempt (writeBlock env.io args.cfg cand.failingDev cand.arrayPhys block.toList) with
  | .error _ => return .failed
  | .ok () =>
      onBooks fun b => if hasLiveMount then b.repairedWhileMounted else b
      match ← attempt (env.dropCache cand.failingDev) with
      | .ok () => readBack env args cand
      | .error _ =>
          if ← world (env.isBlockDevice cand.failingDev) then
            let _ ← attempt (env.dropCache cand.failingDev)
            return .readbackFailed
          else readBack env args cand

/-- Gather the stripe, reconstruct, and write unless this run or this batch must not. -/
def recover (env : WriterEnv σ) (args : WriterArgs) (hasLiveMount writesAllowed : Bool)
    (cand : Candidate) (block : Vector UInt8 cand.blockSize) (unreadable : Bool) :
    WriterM σ Outcome := do
  match ← attempt (gatherStripe env.io args.cfg args.scrubSlot cand.arrayPhys cand.blockSize) with
  | .error _ => return .failed
  | .ok chunks =>
      let input : Recovery.RecoveryInput cand.blockSize :=
        { failingSlot := args.scrubSlot
          corruptBlock := block
          unreadableSource := unreadable
          otherBlocks := chunks.otherData
          pBlock := chunks.pBlock
          qBlock := chunks.qBlock
          verifier := cand.verify }
      match recoverBlock input with
      | .error h => throw (.halt h)
      | .ok (.recovered _ recovered) =>
          if args.dryRun || !writesAllowed then
            return if writesAllowed then .recovered else .notFrozen
          else writeBack env args hasLiveMount cand recovered
      | .ok .notCorrupt => return .notCorrupt
      | .ok (.failed _) => return .failed

/-- One round of the batch loop: every branch ends in one stage, a mismatch also in one outcome. -/
def processCandidate (env : WriterEnv σ) (args : WriterArgs) (hasLiveMount writesAllowed : Bool)
    (cand : Candidate) : WriterM σ Unit := do
  onBooks (·.note (.take cand))
  match ← confirm env args cand with
  | .stale => onBooks (·.classify cand.arrayPhys .stale)
  | .skipped => onBooks (·.classify cand.arrayPhys .skipped)
  | .corrupt block unreadable =>
      onBooks (·.classify cand.arrayPhys .mismatch)
      let outcome ← recover env args hasLiveMount writesAllowed cand block unreadable
      onBooks (·.settle cand.arrayPhys outcome)

/-- The freeze window is bounded; the first candidate of a flush is never deferred. -/
def windowExpired (env : WriterEnv σ) (args : WriterArgs) (writesAllowed : Bool) (started : Nat)
    (first : Bool) : WriterM σ Bool :=
  if !first && writesAllowed then do
    let now ← world env.now
    return decide (args.freezeTimeout < now - started)
  else return false

/-- The batch loop; returns the candidates it defers. -/
def flushLoop (env : WriterEnv σ) (args : WriterArgs) (hasLiveMount writesAllowed : Bool)
    (started : Nat) : Bool → List Candidate → WriterM σ (List Candidate)
  | _, [] => return []
  | first, cand :: rest => do
      if ← windowExpired env args writesAllowed started first then return cand :: rest
      else
        processCandidate env args hasLiveMount writesAllowed cand
        flushLoop env args hasLiveMount writesAllowed started false rest

/-- Dropping the guard, when there is one, thaws. -/
def releaseGuard (env : WriterEnv σ) (frozen : Bool) : WriterM σ Unit :=
  if frozen then thaw env else return

/-- Process one batch under one freeze; a failed freeze makes it assess-only, a failed
thaw aborts the run. -/
def flushBatch (env : WriterEnv σ) (args : WriterArgs) (pending : List Candidate) :
    WriterM σ (List Candidate) := do
  let batch := dedupByPhys (sortByPhys pending)
  onBooks fun b => (b.dedup (pending.length - batch.length)).note (.flush batch)
  let hasLiveMount := (← books).freeze.hasLiveMount
  let frozen := (← guard env).toOption.getD false
  let writesAllowed := frozen || !hasLiveMount
  let started ← world env.now
  let deferred ← flushLoop env args hasLiveMount writesAllowed started true batch
  releaseGuard env frozen
  match ← takeThawError with
  | some _ => throw .thawFailed
  | none => return deferred

/-- Messages from the accumulator to the writer thread. -/
inductive BatchMsg where
  | batch (cands : List Candidate)
  | done

def batchCandidates : List BatchMsg → List Candidate
  | [] => []
  | .batch cs :: rest => cs ++ batchCandidates rest
  | .done :: rest => batchCandidates rest

/-- The loop after `Done`: flush until nothing is pending. -/
def drain (env : WriterEnv σ) (args : WriterArgs) : Nat → List Candidate → WriterM σ Unit
  | _, [] => return
  | 0, _ :: _ => throw .drainFuel
  | fuel + 1, c :: rest => do
      let deferred ← flushBatch env args (c :: rest)
      drain env args fuel deferred

/-- Receive batches and flush each one; the end of the list is a closed channel. -/
def runWriterLoop (env : WriterEnv σ) (args : WriterArgs) :
    List BatchMsg → List Candidate → WriterM σ BatchStats
  | .batch batch :: msgs, pending => do
      let deferred ← flushBatch env args (pending ++ batch)
      runWriterLoop env args msgs deferred
  | .done :: _, pending | [], pending => do
      drain env args pending.length pending
      return (← books).stats

/-- The writer thread: the loop, then the controller is dropped. -/
def runWriter (env : WriterEnv σ) (args : WriterArgs) (msgs : List BatchMsg) :
    StateM (WriterState σ) (Except Stop BatchStats) := do
  let result ← (runWriterLoop env args msgs []).run
  let _ ← (thaw env).run
  return result

/-- The state a writer starts in. -/
def WriterState.start (w : σ) (mountpoint : Option Path) (counters : Option StatusCounters) :
    WriterState σ where
  world := w
  books :=
    { freeze := .new mountpoint
      stats := {}
      counters
      trace := [] }

end Rotshield.BatchRecover
