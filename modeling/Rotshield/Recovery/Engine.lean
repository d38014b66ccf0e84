import Rotshield.Recovery.Gf
import Rotshield.Recovery.Model

/-! The parity recovery engine: P only, Q only, then a two-disk solve against
each other disk, the verifier picking the first candidate that checks out. -/
namespace Rotshield.Recovery

variable {n : Nat}

/-- `x as i32` for a `u64` slot. -/
def asI32 (x : Nat) : Int := (x : Int).bmod (2 ^ 32)

/-- The 0-based column exponent `slot as i32 - 1`. -/
def slotExp (slot : Nat) : Int := (asI32 slot - 1).bmod (2 ^ 32)

def xorInplace (a b : Vector UInt8 n) : Vector UInt8 n := Vector.ofFn fun i => a[i] ^^^ b[i]

/-- `a ^= coef * b`, bytewise. -/
def gfMulXorInplace (a b : Vector UInt8 n) (coef : UInt8) : Vector UInt8 n :=
  Vector.ofFn fun i => a[i] ^^^ mulTable coef b[i]

/-- `coef * src`, bytewise. -/
def gfMulInto (src : Vector UInt8 n) (coef : UInt8) : Vector UInt8 n :=
  Vector.ofFn fun i => mulTable coef src[i]

inductive QOutcome (n : Nat) where
  | recovered (block : Vector UInt8 n)
  | bakedIn
  | csumMismatch

def recoverViaP (otherBlocks : List (Nat × Vector UInt8 n)) (pBlock : Vector UInt8 n) :
    Vector UInt8 n :=
  xorInplace (otherBlocks.foldl (fun recovered b => xorInplace recovered b.2) (Vector.replicate n 0))
    pBlock

/-- The Q-only reconstruction, before it is compared and verified. -/
def reconstructViaQ (otherBlocks : List (Nat × Vector UInt8 n)) (qBlock : Vector UInt8 n)
    (failingSlot : Nat) : Vector UInt8 n :=
  let m := gfExp (-slotExp failingSlot)
  let acc := otherBlocks.foldl (fun acc b => gfMulXorInplace acc b.2 (gfExp (slotExp b.1))) qBlock
  gfMulInto acc m

def recoverViaQ (otherBlocks : List (Nat × Vector UInt8 n)) (qBlock : Vector UInt8 n)
    (failingSlot : Nat) (verifier : Bytes → Bool) (corrupt : Bytes) : QOutcome n :=
  let recovered := reconstructViaQ otherBlocks qBlock failingSlot
  if recovered.toList = corrupt then .bakedIn
  else if verifier recovered.toList then .recovered recovered
  else .csumMismatch

/-- A table access by an exponent that the code does not reduce. -/
def tableAt (t : Vector UInt8 256) (i : Nat) : Exec UInt8 :=
  if h : i < 256 then .ok t[i] else .error .panic

/-- Two equations in the two unknown blocks; the failing disk's block is returned. -/
def solveTwoDisk (pBlock qBlock : Vector UInt8 n) (otherBlocks : List (Nat × Vector UInt8 n))
    (partnerSlot failingSlot : Nat) : Exec (Option (Vector UInt8 n)) :=
  let a := if failingSlot < partnerSlot then slotExp failingSlot else slotExp partnerSlot
  let b := if failingSlot < partnerSlot then slotExp partnerSlot else slotExp failingSlot
  if a < 0 ∨ b < 0 ∨ a = b then .ok none
  else do
    let pbmulCoef ← tableAt gfexi ((b - a) % 255).toNat
    let expA ← tableAt gfexp a.toNat
    let expB ← tableAt gfexp b.toNat
    let qmulCoef := gfinv[(expA ^^^ expB).toFin]
    -- Syndromes of the good disks only.
    let zeros := otherBlocks.foldl
      (fun (acc : Vector UInt8 n × Vector UInt8 n) d =>
        if d.1 = partnerSlot ∨ d.1 = failingSlot then acc
        else (xorInplace acc.1 d.2, gfMulXorInplace acc.2 d.2 (gfExp (slotExp d.1))))
      (Vector.replicate n 0, Vector.replicate n 0)
    let deltaP := xorInplace pBlock zeros.1
    let deltaQ := xorInplace qBlock zeros.2
    let dB := Vector.ofFn fun i => mulTable pbmulCoef deltaP[i] ^^^ mulTable qmulCoef deltaQ[i]
    let dA := xorInplace dB deltaP
    pure (some (if failingSlot < partnerSlot then dA else dB))

/-- The P-only step: the accepted block, or the reason there is none. -/
def pPath (input : RecoveryInput n) : Except FailureReason (Vector UInt8 n) :=
  match input.pBlock with
  | none => .error (.parityAbsent .p)
  | some pBlock =>
      let zeroAcc := xorInplace
        (input.otherBlocks.foldl (fun acc b => xorInplace acc b.2) input.corruptBlock) pBlock
      if !input.unreadableSource && zeroAcc.toList.all (· == 0) then .error (.parityBakedIn .p)
      else
        let candidate := recoverViaP input.otherBlocks pBlock
        if input.verifier candidate.toList then .ok candidate
        else .error (.csumMismatch .p)

/-- The Q-only step. An unreadable source compares against the empty slice. -/
def qPath (input : RecoveryInput n) : Except FailureReason (Vector UInt8 n) :=
  match input.qBlock with
  | none => .error (.parityAbsent .q)
  | some qBlock =>
      let qCorrupt := if input.unreadableSource then [] else input.corruptBlock.toList
      match recoverViaQ input.otherBlocks qBlock input.failingSlot input.verifier qCorrupt with
      | .recovered block => .ok block
      | .bakedIn => .error (.parityBakedIn .q)
      | .csumMismatch => .error (.csumMismatch .q)

/-- The brute-force loop over the partners that are left. -/
def tryPartners (input : RecoveryInput n) (pBlock qBlock : Vector UInt8 n)
    (pReason qReason : FailureReason) :
    List (Nat × Vector UInt8 n) → List Nat → Exec (RecoveryResult n)
  | [], tried => .ok (.failed (.allPathsFailed pReason qReason tried))
  | (partnerSlot, _) :: rest, tried => do
      let candidate ←
        solveTwoDisk pBlock qBlock input.otherBlocks partnerSlot input.failingSlot
      match candidate with
      | some block =>
          if input.verifier block.toList then pure (.recovered (.pq partnerSlot) block)
          else tryPartners input pBlock qBlock pReason qReason rest (tried ++ [partnerSlot])
      | none => tryPartners input pBlock qBlock pReason qReason rest (tried ++ [partnerSlot])

/-- Recover one corrupt block, trying every parity path in order. -/
def recoverBlock (input : RecoveryInput n) : Exec (RecoveryResult n) :=
  if !input.unreadableSource && input.verifier input.corruptBlock.toList then .ok .notCorrupt
  else
    match pPath input with
    | .ok block => .ok (.recovered .p block)
    | .error pReason =>
        match qPath input with
        | .ok block => .ok (.recovered .q block)
        | .error qReason =>
            match input.pBlock, input.qBlock with
            | some pBlock, some qBlock =>
                tryPartners input pBlock qBlock pReason qReason input.otherBlocks []
            | _, none => .ok (.failed (.noQPathAndPFailed pReason))
            | none, some _ => .ok (.failed (.allPathsFailed pReason qReason []))

end Rotshield.Recovery
