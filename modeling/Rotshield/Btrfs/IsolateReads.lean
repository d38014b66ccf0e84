import Rotshield.Btrfs.Isolate

/-! The same isolation over different reads. -/
namespace Rotshield.Btrfs

section Related
variable {m n : Type → Type} [Monad m] [Monad n] [MonadExceptOf Halt m] [MonadExceptOf Halt n]

/-- A relation between computations that composition keeps. -/
structure Relates (R : ∀ α : Type, m α → n α → Prop) : Prop where
  pure : ∀ {α : Type} (a : α), R α (pure a) (pure a)
  bind : ∀ {α β : Type} {x : m α} {y : n α} {f : α → m β} {g : α → n β}, R α x y →
    (∀ a, R β (f a) (g a)) → R β (x >>= f) (y >>= g)
  throw : ∀ {α : Type} (h : Halt), R α (throw h) (throw h)

variable {R : ∀ α : Type, m α → n α → Prop}

theorem isolatePieces_related (hR : Relates R) {sz : Nat} {phys : UInt64} {start off : Nat}
    {run : UInt64 → Nat → Nat → Isolation → m Isolation}
    {run' : UInt64 → Nat → Nat → Isolation → n Isolation}
    (hrun : ∀ phys start len acc, R _ (run phys start len acc) (run' phys start len acc))
    (pieces : List Nat) (acc : Isolation) :
    R _ (isolatePieces run sz phys start off pieces acc)
      (isolatePieces run' sz phys start off pieces acc) := by
  induction pieces generalizing off acc with
  | nil => exact hR.pure acc
  | cons p pieces ih => exact hR.bind (hrun _ _ _ acc) fun acc => ih acc

/-- Related reads, related isolations. -/
theorem isolateLoop_related (hR : Relates R) {read : UInt64 → Nat → m (Except IoError Bytes)}
    {read' : UInt64 → Nat → n (Except IoError Bytes)}
    (hread : ∀ phys len, R _ (read phys len) (read' phys len)) {sectorSize : UInt64} (fuel : Nat)
    (phys : UInt64) (start len : Nat) (acc : Isolation) :
    R _ (isolateLoop read sectorSize fuel phys start len acc)
      (isolateLoop read' sectorSize fuel phys start len acc) := by
  induction fuel generalizing phys start len acc with
  | zero => exact hR.throw .outOfFuel
  | succ fuel ih =>
      have hsplit : ∀ acc, R _
          (isolatePieces (isolateLoop read sectorSize fuel) sectorSize.toNat phys start 0
            (pieceSectors (len / sectorSize.toNat)) acc)
          (isolatePieces (isolateLoop read' sectorSize fuel) sectorSize.toNat phys start 0
            (pieceSectors (len / sectorSize.toNat)) acc) :=
        isolatePieces_related hR ih _
      rw [isolateLoop, isolateLoop]
      dsimp only
      split
      · exact hR.pure acc
      split
      · exact hR.pure _
      split
      · apply hR.bind (hread phys len)
        rintro (e | buf)
        · exact hR.pure _
        · exact hR.pure _
      · apply hR.bind (hread phys len)
        rintro (e | buf)
        · dsimp only
          split
          · exact hR.pure _
          · exact hsplit _
        · dsimp only
          split
          · exact hR.pure _
          · exact hsplit _

end Related

section Shift
variable {m : Type → Type} [Monad m] {base : UInt64}

theorem isolatePieces_shift {sz : Nat} {phys : UInt64} {start off : Nat}
    {run run' : UInt64 → Nat → Nat → Isolation → m Isolation}
    (hrun : ∀ phys start len acc, run phys start len acc = run' (base + phys) start len acc)
    (pieces : List Nat) (acc : Isolation) :
    isolatePieces run sz phys start off pieces acc =
      isolatePieces run' sz (base + phys) start off pieces acc := by
  induction pieces generalizing off acc with
  | nil => rfl
  | cons p pieces ih =>
      rw [isolatePieces, isolatePieces, hrun, UInt64.add_assoc]
      congr 1
      funext acc
      exact ih acc

/-- A read at an offset from a base, from the base itself. -/
theorem isolateLoop_shift [MonadExceptOf Halt m] {read : UInt64 → Nat → m (Except IoError Bytes)}
    {sectorSize : UInt64} (fuel : Nat) (phys : UInt64) (start len : Nat)
    (acc : Isolation) :
    isolateLoop (fun phys len => read (base + phys) len) sectorSize fuel phys start len acc =
      isolateLoop read sectorSize fuel (base + phys) start len acc := by
  induction fuel generalizing phys start len acc with
  | zero => rfl
  | succ fuel ih =>
      have hsplit : ∀ pieces acc, isolatePieces
          (isolateLoop (fun phys len => read (base + phys) len) sectorSize fuel) sectorSize.toNat
            phys start 0 pieces acc =
          isolatePieces (isolateLoop read sectorSize fuel) sectorSize.toNat (base + phys) start 0
            pieces acc := isolatePieces_shift ih
      rw [isolateLoop, isolateLoop]
      simp only [hsplit]

end Shift
end Rotshield.Btrfs
