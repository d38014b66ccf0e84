import Mathlib.Algebra.Order.Ring.Nat

/-! Outcomes shared by the modelled functions. -/
namespace Rotshield

/-- How a computation can fail to return: an index or an assertion out of bounds,
or a loop that has used all of its fuel. -/
inductive Halt where
  | panic
  | outOfFuel
  deriving DecidableEq, Repr

abbrev Exec := Except Halt

/-- The error kinds the program distinguishes. -/
inductive IoError where
  | unexpectedEof
  | invalidData
  | invalidInput
  | notFound
  | other
  deriving DecidableEq, Repr

abbrev Path := String

abbrev Bytes := List UInt8

/-- Addition of `u64` values, wrapping as in a release build. -/
def wadd (a b : Nat) : Nat := (a + b) % 2 ^ 64

theorem wadd_eq {a b : Nat} (h : a + b < 2 ^ 64) : wadd a b = a + b := Nat.mod_eq_of_lt h

end Rotshield
