import Rotshield.Btrfs.Reader

/-! EIO isolation: divide and conquer over a failing read, within a budget of failing reads. -/
namespace Rotshield.Btrfs

/-- A failing read is split into this many sector-aligned pieces at each level. -/
def eioSplitFactor : Nat := 8

/-- How many failing reads to tolerate before the remainder is marked without probing. -/
structure IsolationBudget where
  remaining : Nat
  exhausted : Bool
  deriving DecidableEq, Repr

/-- One failing read. -/
def IsolationBudget.spend (b : IsolationBudget) : IsolationBudget where
  remaining := b.remaining - 1
  exhausted := b.exhausted || b.remaining - 1 == 0

/-- The budget, the regions that were read and the offsets of sectors that were not. -/
structure Isolation where
  budget : IsolationBudget
  good : List (Nat × Bytes)
  bad : List Nat
  deriving DecidableEq, Repr

namespace Isolation

def new (limit : Nat) : Isolation := ⟨⟨limit, false⟩, [], []⟩

def pushGood (acc : Isolation) (start : Nat) (buf : Bytes) : Isolation :=
  { acc with good := acc.good ++ [(start, buf)] }

def pushBad (acc : Isolation) (starts : List Nat) : Isolation :=
  { acc with bad := acc.bad ++ starts }

def spend (acc : Isolation) : Isolation := { acc with budget := acc.budget.spend }

end Isolation

/-- The offsets of so many sectors from a start on. -/
def sectorOffsets (sz start n : Nat) : List Nat := (List.range n).map fun i => start + i * sz

/-- The sectors of each piece of a range: the first ones get the remainder. -/
def pieceSectors (nsec : Nat) : List Nat :=
  let k := min eioSplitFactor nsec
  (List.range k).map fun i => nsec / k + if i < nsec % k then 1 else 0

variable {m : Type → Type} [Monad m] [MonadExceptOf Halt m]

/-- The pieces one after the other. -/
def isolatePieces (run : UInt64 → Nat → Nat → Isolation → m Isolation) (sz : Nat) (phys : UInt64)
    (start : Nat) : Nat → List Nat → Isolation → m Isolation
  | _, [], acc => return acc
  | off, piece :: rest, acc => do
      let acc ← run (phys + UInt64.ofNat off) (start + off) (piece * sz) acc
      isolatePieces run sz phys start (off + piece * sz) rest acc

def isolateLoop (read : UInt64 → Nat → m (Except IoError Bytes)) (sectorSize : UInt64) :
    Nat → UInt64 → Nat → Nat → Isolation → m Isolation
  | 0, _, _, _, _ => throw .outOfFuel
  | fuel + 1, phys, start, len, acc =>
      let sz := sectorSize.toNat
      let nsec := len / sz
      let split acc :=
        isolatePieces (isolateLoop read sectorSize fuel) sz phys start 0 (pieceSectors nsec) acc
      if len = 0 then return acc
      else if acc.budget.exhausted then return acc.pushBad (sectorOffsets sz start nsec)
      else if len ≤ sz then do
        match ← read phys len with
        | .ok buf => return acc.pushGood start buf
        | .error _ => return acc.spend.pushBad [start]
      else do
        match ← read phys len with
        | .ok buf =>
            if start % sz = 0 ∧ len % sz = 0 then return acc.pushGood start buf else split acc
        | .error _ =>
            let acc := acc.spend
            if acc.budget.remaining = 0 then return acc.pushBad (sectorOffsets sz start nsec)
            else split acc

/-- Pieces get shorter with each level: fuel for one level a byte is enough. -/
def isolateRun (read : UInt64 → Nat → m (Except IoError Bytes)) (phys : UInt64) (start len : Nat)
    (sectorSize : UInt64) (acc : Isolation) : m Isolation :=
  isolateLoop read sectorSize (len + 1) phys start len acc

end Rotshield.Btrfs
