import Rotshield.Basic

/-! The filesystem-scrub contract: events, re-confirmation, and the run's totals. -/
namespace Rotshield

/-- True exactly for the bytes whose checksum is the stored one. -/
abbrev SectorVerifier := Bytes → Bool

/-- Filesystem-opaque re-confirmation request. -/
structure ReconfirmRequest where
  /-- The logical address, for btrfs. -/
  token : Nat
  storedCsum : Bytes
  deriving DecidableEq, Repr

/-- Verdict of a deferred re-confirmation at write time. -/
inductive Reconfirm where
  | corruption
  | stale
  | unverifiable
  deriving DecidableEq, Repr

/-- Recovery payload for one mismatched sector, emitted by the scrub. -/
structure ScrubEvent where
  arrayPhys : Nat
  blockSize : Nat
  verify : Option SectorVerifier
  reconfirm : Option ReconfirmRequest
  /-- The sector was unreadable: the corrupt bytes are unknown. -/
  unreadable : Bool

/-- Rollup of one scrub run. -/
structure ScrubStats where
  sectorsChecked : Nat := 0
  sectorsOk : Nat := 0
  sectorsMismatch : Nat := 0
  sectorsNoCsum : Nat := 0
  sectorsReadError : Nat := 0
  sectorsStale : Nat := 0
  staleCsumBranches : Nat := 0
  isolationTruncated : Nat := 0
  bytesChecked : Nat := 0
  metadataHeaderErrors : Nat := 0
  metadataMirrorMismatches : Nat := 0
  metadataReadErrors : Nat := 0
  deriving DecidableEq, Repr

end Rotshield
