/-! Live scrub and recovery counters shared with the status server. -/
namespace Rotshield

structure StatusCounters where
  sectorsChecked : Nat := 0
  sectorsOk : Nat := 0
  sectorsNoCsum : Nat := 0
  sectorsReadError : Nat := 0
  staleCsumBranches : Nat := 0
  isolationTruncated : Nat := 0
  bytesChecked : Nat := 0
  mismatch : Nat := 0
  stale : Nat := 0
  metadataHeaderErrors : Nat := 0
  metadataMirrorMismatches : Nat := 0
  metadataReadErrors : Nat := 0
  recovered : Nat := 0
  failed : Nat := 0
  skipped : Nat := 0
  notFrozen : Nat := 0
  readbackFailed : Nat := 0
  notCorrupt : Nat := 0
  deduped : Nat := 0
  repairedWhileMounted : Nat := 0
  deriving DecidableEq, Repr

end Rotshield
