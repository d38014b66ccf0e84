import Mathlib.Algebra.BigOperators.Group.List.Basic
import Mathlib.Algebra.CharP.Two
import Mathlib.Algebra.Field.Basic
import Mathlib.Data.List.Nodup
import Mathlib.Tactic.FieldSimp
import Mathlib.Tactic.Ring

/-! Two syndromes over a field: the plain sum of the data symbols and their sum
weighted by a coefficient for each column. One lost symbol is read back from
either syndrome, two lost symbols from both. -/
namespace Rotshield.Lib.Syndrome

variable {κ F : Type*} [Field F]

/-- Sum of the symbols of the listed columns. -/
def plain (d : κ → F) (cols : List κ) : F := (cols.map d).sum

/-- Weighted sum of the symbols of the listed columns. -/
def weighted (c d : κ → F) (cols : List κ) : F := (cols.map fun s => c s * d s).sum

@[simp] theorem plain_cons (d : κ → F) (s : κ) (cols : List κ) :
    plain d (s :: cols) = d s + plain d cols := by
  simp [plain]

@[simp] theorem weighted_cons (c d : κ → F) (s : κ) (cols : List κ) :
    weighted c d (s :: cols) = c s * d s + weighted c d cols := by
  simp [weighted]

theorem plain_perm (d : κ → F) {cols cols' : List κ} (h : cols.Perm cols') :
    plain d cols = plain d cols' :=
  (h.map d).sum_eq

theorem weighted_perm (c d : κ → F) {cols cols' : List κ} (h : cols.Perm cols') :
    weighted c d cols = weighted c d cols' :=
  plain_perm _ h

/-- Taking one column out of a list without repetitions. -/
theorem perm_cons_filter [DecidableEq κ] {cols : List κ} (hnodup : cols.Nodup) {s : κ}
    (hs : s ∈ cols) : cols.Perm (s :: cols.filter (· != s)) := by
  have h := List.perm_cons_erase hs
  rwa [hnodup.erase_eq_filter] at h

theorem recover_plain (d : κ → F) {cols rest : List κ} {s : κ} (h : cols.Perm (s :: rest)) :
    plain d cols - plain d rest = d s := by
  rw [plain_perm d h, plain_cons, add_sub_cancel_right]

theorem recover_weighted (c d : κ → F) {cols rest : List κ} {s : κ} (h : cols.Perm (s :: rest))
    (hc : c s ≠ 0) : (c s)⁻¹ * (weighted c d cols - weighted c d rest) = d s := by
  rw [weighted_perm c d h, weighted_cons, add_sub_cancel_right, inv_mul_cancel_left₀ hc]

/-- The second of two unknowns from their sum and their weighted sum. -/
theorem solve_second {u v x y : F} (hu : u ≠ 0) (huv : u ≠ v) :
    (1 - v / u)⁻¹ * (x + y) - (u - v)⁻¹ * (u * x + v * y) = y := by
  have hsub : u - v ≠ 0 := sub_ne_zero.mpr huv
  have hfrac : (1 - v / u)⁻¹ = u * (u - v)⁻¹ := by
    rw [← div_self hu, ← sub_div, inv_div, div_eq_mul_inv]
  rw [hfrac]
  field_simp
  ring

/-- Two lost symbols: the column `b` from both syndromes and the good columns. -/
theorem recover_two (c d : κ → F) {cols good : List κ} {a b : κ}
    (h : cols.Perm (a :: b :: good)) (ha : c a ≠ 0) (hab : c a ≠ c b) :
    (1 - c b / c a)⁻¹ * (plain d cols - plain d good) -
        (c a - c b)⁻¹ * (weighted c d cols - weighted c d good) = d b := by
  have hp : plain d cols - plain d good = d a + d b := by
    rw [plain_perm d h, plain_cons, plain_cons]
    ring
  have hq : weighted c d cols - weighted c d good = c a * d a + c b * d b := by
    rw [weighted_perm c d h, weighted_cons, weighted_cons]
    ring
  rw [hp, hq, solve_second ha hab]

end Rotshield.Lib.Syndrome
