import Rotshield.BatchRecover.State

/-! From the totals of a run to the exit code of the process. -/
namespace Rotshield.Main
open BatchRecover (BatchStats Stop)

/-- The exit-code contract: codes reflect the state of the data. -/
inductive ExitCode where
  | success
  | runtimeError
  | usageError
  | issuesFound
  | recovered
  | recoverFailed
  | metadataFatal
  deriving DecidableEq, Repr

def ExitCode.toNat : ExitCode → Nat
  | .success => 0
  | .runtimeError => 1
  | .usageError => 2
  | .issuesFound => 3
  | .recovered => 4
  | .recoverFailed => 5
  | .metadataFatal => 6

/-- Any real issue blocks exit 0. -/
def issuesFound (stats : ScrubStats) (batch : BatchStats) : Bool :=
  0 < stats.sectorsMismatch + batch.mismatch || 0 < stats.sectorsReadError ||
    0 < stats.metadataHeaderErrors || 0 < stats.metadataReadErrors || 0 < batch.skipped

/-- Every mismatch was recovered and nothing failed or was skipped. -/
def allRecovered (stats : ScrubStats) (batch : BatchStats) : Bool :=
  stats.metadataReadErrors = 0 && batch.failed = 0 && batch.skipped = 0 && batch.notFrozen = 0 &&
    batch.readbackFailed = 0 && batch.notCorrupt = 0

/-- Metadata fatal, clean, recovered, recover-failed, issues found. -/
def cascade (stats : ScrubStats) (batch : BatchStats) (hadWriter : Bool) : ExitCode :=
  if 0 < stats.metadataHeaderErrors then .metadataFatal
  else if !issuesFound stats batch then .success
  else if hadWriter && allRecovered stats batch then .recovered
  else if hadWriter then .recoverFailed
  else .issuesFound

/-- Every candidate handed over was classified, and every mismatch has one outcome. -/
def reconciled (sent : Nat) (batch : BatchStats) : Bool :=
  batch.mismatch + batch.stale + batch.skipped + batch.deduped = sent &&
    batch.recovered + batch.failed + batch.notCorrupt + batch.notFrozen + batch.readbackFailed =
      batch.mismatch

/-- What follows a scrub that returned: `writer` is what joining the writer gave, where there
was a pipeline. -/
def finish (stats : ScrubStats) (sent : Nat) : Option (Except Stop BatchStats) → ExitCode
  | none => cascade stats {} false
  | some (.error _) => .runtimeError
  | some (.ok batch) => if reconciled sent batch then cascade stats batch true else .runtimeError

end Rotshield.Main
