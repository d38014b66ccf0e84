import Rotshield.DiskArray.Stripe
import Rotshield.Recovery.Engine

/-! P and Q syndromes over the array's data disks. -/
namespace Rotshield.DiskArray
open Recovery (xorInplace gfMulXorInplace gfExp slotExp)

variable {m : Type → Type} [Monad m]

/-- P = XOR of every data disk's block at `arrayPhys`. -/
def computeP (io : DeviceIo m) (config : ArrayConfig) (arrayPhys blockSize : Nat) :
    ExceptT IoError m (Vector UInt8 blockSize) :=
  config.dataDevs.foldlM (fun p d => do
      let block ← readBlockOrZeros io config d.2 arrayPhys blockSize
      return xorInplace p block)
    (Vector.replicate blockSize 0)

/-- Q = XOR over the slots of `g^(slot-1)` times the block at `arrayPhys`. -/
def computeQ (io : DeviceIo m) (config : ArrayConfig) (arrayPhys blockSize : Nat) :
    ExceptT IoError m (Vector UInt8 blockSize) :=
  config.dataDevs.foldlM (fun q d => do
      let coef := gfExp (slotExp d.1)
      let block ← readBlockOrZeros io config d.2 arrayPhys blockSize
      return gfMulXorInplace q block coef)
    (Vector.replicate blockSize 0)

/-- A disk's block, or the one that stands for it, as if that disk were corrupt. -/
def blockOrOverride (io : DeviceIo m) (config : ArrayConfig) (overrideSlot : Nat) {blockSize : Nat}
    (overrideBlock : Vector UInt8 blockSize) (arrayPhys : Nat) (d : Nat × Path) :
    ExceptT IoError m (Vector UInt8 blockSize) :=
  if d.1 = overrideSlot then pure overrideBlock
  else readBlockOrZeros io config d.2 arrayPhys blockSize

/-- P with one slot's block replaced. -/
def computePWithOverride (io : DeviceIo m) (config : ArrayConfig) (overrideSlot : Nat)
    {blockSize : Nat} (overrideBlock : Vector UInt8 blockSize) (arrayPhys : Nat) :
    ExceptT IoError m (Vector UInt8 blockSize) :=
  config.dataDevs.foldlM (fun p d => do
      let block ← blockOrOverride io config overrideSlot overrideBlock arrayPhys d
      return xorInplace p block)
    (Vector.replicate blockSize 0)

/-- Q with one slot's block replaced. -/
def computeQWithOverride (io : DeviceIo m) (config : ArrayConfig) (overrideSlot : Nat)
    {blockSize : Nat} (overrideBlock : Vector UInt8 blockSize) (arrayPhys : Nat) :
    ExceptT IoError m (Vector UInt8 blockSize) :=
  config.dataDevs.foldlM (fun q d => do
      let coef := gfExp (slotExp d.1)
      let block ← blockOrOverride io config overrideSlot overrideBlock arrayPhys d
      return gfMulXorInplace q block coef)
    (Vector.replicate blockSize 0)

/-- A fold that reads each element first is the plain fold when every read succeeds. -/
theorem foldlM_reads [LawfulMonad m] {α β γ : Type} {read : α → ExceptT IoError m β} {value : α → β}
    (step : γ → α → β → γ) {l : List α} (h : ∀ a ∈ l, read a = pure (value a)) (init : γ) :
    l.foldlM (fun acc a => do let b ← read a; return step acc a b) init =
      pure (l.foldl (fun acc a => step acc a (value a)) init) := by
  induction l generalizing init with
  | nil => rfl
  | cons a l ih =>
      rw [List.foldlM_cons, h a List.mem_cons_self]
      simp only [pure_bind]
      exact ih (fun b hb => h b (List.mem_cons_of_mem a hb)) _

section Reads
variable [LawfulMonad m] {io : DeviceIo m} {config : ArrayConfig} {arrayPhys blockSize : Nat}
  {data : Nat → Vector UInt8 blockSize}

theorem computeP_eq
    (h : ∀ d ∈ config.dataDevs, readBlockOrZeros io config d.2 arrayPhys blockSize = pure (data d.1)) :
    computeP io config arrayPhys blockSize = pure
      (config.dataDevs.foldl (fun p d => xorInplace p (data d.1)) (Vector.replicate blockSize 0)) :=
  foldlM_reads (fun p _ block => xorInplace p block) h _

theorem computeQ_eq
    (h : ∀ d ∈ config.dataDevs, readBlockOrZeros io config d.2 arrayPhys blockSize = pure (data d.1)) :
    computeQ io config arrayPhys blockSize = pure
      (config.dataDevs.foldl (fun q d => gfMulXorInplace q (data d.1) (gfExp (slotExp d.1)))
        (Vector.replicate blockSize 0)) :=
  foldlM_reads (fun q (d : Nat × Path) block => gfMulXorInplace q block (gfExp (slotExp d.1))) h _

end Reads
end Rotshield.DiskArray
