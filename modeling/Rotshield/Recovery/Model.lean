import Rotshield.Basic

/-! Recovery input and outcome model. Blocks carry their size in their type: the
engine asserts that every slice has exactly `block_size` bytes. -/
namespace Rotshield.Recovery

/-- Which parity path reconstructed the block. -/
inductive ParityPath where
  | p
  | q
  | pq (partnerSlot : Nat)
  deriving DecidableEq, Repr

/-- Why recovery failed, aggregated from every path that was tried. -/
inductive FailureReason where
  | csumMismatch (via : ParityPath)
  | parityBakedIn (via : ParityPath)
  | parityAbsent (via : ParityPath)
  | internalInconsistency (msg : String)
  | allPathsFailed (pReason qReason : FailureReason) (pqPartnersTried : List Nat)
  | noQPathAndPFailed (pReason : FailureReason)
  deriving DecidableEq, Repr

inductive RecoveryResult (n : Nat) where
  | recovered (via : ParityPath) (block : Vector UInt8 n)
  | notCorrupt
  | failed (reason : FailureReason)
  deriving DecidableEq, Repr

structure RecoveryInput (n : Nat) where
  /-- 1-based data-disk slot of the corrupt disk. -/
  failingSlot : Nat
  /-- On-disk bytes, or a placeholder when `unreadableSource` is set. -/
  corruptBlock : Vector UInt8 n
  unreadableSource : Bool
  /-- `(slot, block)` of every other data disk. -/
  otherBlocks : List (Nat × Vector UInt8 n)
  pBlock : Option (Vector UInt8 n)
  qBlock : Option (Vector UInt8 n)
  verifier : Bytes → Bool

end Rotshield.Recovery
