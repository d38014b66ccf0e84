import Rotshield.Recovery.Engine

/-! Whatever the engine returns as recovered, the verifier has accepted. -/
namespace Rotshield.Recovery

variable {n : Nat}

theorem pPath_accepted {input : RecoveryInput n} {b : Vector UInt8 n} (h : pPath input = .ok b) :
    input.verifier b.toList = true := by
  unfold pPath at h
  split at h
  · cases h
  · simp only at h
    split at h
    · cases h
    · split at h
      case isTrue hv => cases h; exact hv
      case isFalse => cases h

theorem recoverViaQ_recovered {blocks : List (Nat × Vector UInt8 n)} {q : Vector UInt8 n}
    {failing : Nat} {verifier : Bytes → Bool} {corrupt : Bytes} {b : Vector UInt8 n}
    (h : recoverViaQ blocks q failing verifier corrupt = .recovered b) :
    verifier b.toList = true := by
  unfold recoverViaQ at h
  simp only at h
  split at h
  · cases h
  · split at h
    case isTrue hv => cases h; exact hv
    case isFalse => cases h

theorem qPath_accepted {input : RecoveryInput n} {b : Vector UInt8 n} (h : qPath input = .ok b) :
    input.verifier b.toList = true := by
  unfold qPath at h
  split at h
  · cases h
  · simp only at h
    split at h
    case h_1 hq =>
        cases h
        exact recoverViaQ_recovered hq
    · cases h
    · cases h

theorem tryPartners_accepted {input : RecoveryInput n} {p q : Vector UInt8 n}
    {pReason qReason : FailureReason} {rest : List (Nat × Vector UInt8 n)} {tried : List Nat}
    {via : ParityPath} {b : Vector UInt8 n}
    (h : tryPartners input p q pReason qReason rest tried = .ok (.recovered via b)) :
    input.verifier b.toList = true := by
  induction rest generalizing tried with
  | nil => cases h
  | cons d rest ih =>
      rw [tryPartners] at h
      cases hsolve : solveTwoDisk p q input.otherBlocks d.1 input.failingSlot with
      | error e =>
          rw [hsolve] at h
          cases h
      | ok candidate =>
          rw [hsolve] at h
          cases candidate with
          | none => exact ih h
          | some block =>
              change (if input.verifier block.toList then _ else _) = _ at h
              split at h
              case isTrue hv => cases h; exact hv
              case isFalse => exact ih h

theorem recoverBlock_accepted {input : RecoveryInput n} {via : ParityPath} {b : Vector UInt8 n}
    (h : recoverBlock input = .ok (.recovered via b)) : input.verifier b.toList = true := by
  unfold recoverBlock at h
  split at h
  · cases h
  · split at h
    case h_1 hp => cases h; exact pPath_accepted hp
    case h_2 =>
        split at h
        case h_1 hq => cases h; exact qPath_accepted hq
        case h_2 =>
            split at h
            · exact tryPartners_accepted h
            · cases h
            · cases h

end Rotshield.Recovery
