import Rotshield.Basic
import Rotshield.Lib.ByteField

/-! The `GF(2^8)` tables of the Q parity, as built at compile time, and their
meaning in the field of bytes. -/
namespace Rotshield.Recovery
open Lib (double mulBits ByteField)
open Lib.ByteField (gen)

/-- The loop of `gf_mul_scalar`; `b` has eight bits, so eight rounds empty it. -/
def gfMulScalarLoop : Nat → UInt8 → UInt8 → UInt8 → UInt8
  | 0, _, _, v => v
  | n + 1, a, b, v =>
      if b = 0 then v
      else gfMulScalarLoop n (double a) (b >>> 1) (if b &&& 1 ≠ 0 then v ^^^ a else v)

def gfMulScalar (a b : UInt8) : UInt8 := gfMulScalarLoop 8 a b 0

def gfmul : Vector (Vector UInt8 256) 256 :=
  Vector.ofFn fun a => Vector.ofFn fun b => gfMulScalar (UInt8.ofFin a) (UInt8.ofFin b)

def gfexpLoop : Nat → Nat → UInt8 → Vector UInt8 256 → Vector UInt8 256
  | 0, _, _, t => t
  | left + 1, i, v, t => gfexpLoop left (i + 1) (double v) (t.setIfInBounds i v)

/-- Powers of the generator; entry 255 stays the sentinel 0. -/
def gfexp : Vector UInt8 256 := gfexpLoop 255 0 1 (Vector.replicate 256 0)

/-- The loop of `gf_pow_const`; a `u32` exponent is empty after 32 rounds. -/
def gfPowLoop : Nat → UInt8 → UInt8 → Nat → UInt8
  | 0, v, _, _ => v
  | n + 1, v, a, p =>
      if p = 0 then v
      else gfPowLoop n (if p % 2 = 1 then gfMulScalar v a else v) (gfMulScalar a a) (p / 2)

def gfPowConst (x : UInt8) (p : Nat) : UInt8 := gfPowLoop 32 1 x p

def gfinv : Vector UInt8 256 :=
  Vector.ofFn fun i => if i.val = 0 then 0 else gfPowConst (UInt8.ofFin i) 254

def gfexi : Vector UInt8 256 := Vector.ofFn fun i => gfinv[(gfexp[i] ^^^ 1).toFin]

/-- `g^e`, the exponent taken modulo 255. -/
def gfExp (e : Int) : UInt8 := gfexp[(⟨(e % 255).toNat, by omega⟩ : Fin 256)]

/-- `GFMUL[a][b]`. -/
def mulTable (a b : UInt8) : UInt8 := gfmul[a.toFin][b.toFin]

theorem gfMulScalarLoop_eq (n : Nat) (a b v : UInt8) :
    gfMulScalarLoop n a b v = v ^^^ mulBits n a b := by
  induction n generalizing a b v with
  | zero => exact UInt8.xor_zero.symm
  | succ n ih =>
      rw [gfMulScalarLoop]
      split
      case isTrue hb =>
          have hzero : ∀ m a, mulBits m a 0 = 0 := by
            intro m
            induction m with
            | zero => exact fun _ => rfl
            | succ m ihm => exact fun a => by simp [mulBits, ihm]
          rw [hb, hzero, UInt8.xor_zero]
      case isFalse hb =>
          rw [ih, mulBits]
          split <;> simp [UInt8.xor_assoc]

theorem gfMulScalar_eq (a b : UInt8) : gfMulScalar a b = mulBits 8 a b := by
  rw [gfMulScalar, gfMulScalarLoop_eq, UInt8.zero_xor]

theorem mulTable_eq (a b : UInt8) :
    ByteField.mk (mulTable a b) = ByteField.mk a * ByteField.mk b := by
  apply ByteField.ext
  simp [mulTable, gfmul, gfMulScalar_eq]

theorem gfexpLoop_get (left i : Nat) (v : UInt8) (t : Vector UInt8 256) (e : Fin 256) :
    (gfexpLoop left i v t)[e] =
      if i ≤ e.val ∧ e.val < i + left then double^[e.val - i] v else t[e] := by
  induction left generalizing i v t with
  | zero =>
      simp only [gfexpLoop, Nat.add_zero]
      rw [if_neg (by omega)]
  | succ left ih =>
      rw [gfexpLoop, ih]
      by_cases heq : i = e.val
      · subst heq
        simp
      · by_cases hin : i + 1 ≤ e.val ∧ e.val < i + 1 + left
        · have hstep : e.val - i = (e.val - (i + 1)) + 1 := by omega
          rw [if_pos hin, if_pos ⟨by omega, by omega⟩, hstep, Function.iterate_succ_apply]
        · rw [if_neg hin, if_neg (by omega)]
          simp [heq]

theorem gfexp_get (e : Fin 256) (he : e.val < 255) : gfexp[e] = (gen ^ e.val).byte := by
  rw [gfexp, gfexpLoop_get, if_pos ⟨Nat.zero_le _, by omega⟩, Nat.sub_zero,
    Lib.ByteField.byte_gen_pow]

theorem gfPowLoop_eq (n : Nat) (v a : UInt8) (p : Nat) (hp : p < 2 ^ n) :
    gfPowLoop n v a p = (ByteField.mk v * ByteField.mk a ^ p).byte := by
  induction n generalizing v a p with
  | zero =>
      obtain rfl : p = 0 := by omega
      simp [gfPowLoop]
  | succ n ih =>
      rw [gfPowLoop]
      split
      case isTrue hzero => simp [hzero]
      case isFalse hpos =>
          rw [ih _ _ _ (by omega)]
          have hsquare : ByteField.mk (gfMulScalar a a) = ByteField.mk a ^ 2 :=
            ByteField.ext (by rw [gfMulScalar_eq, pow_two]; rfl)
          have hprod : ByteField.mk (gfMulScalar v a) = ByteField.mk v * ByteField.mk a :=
            ByteField.ext (gfMulScalar_eq v a)
          congr 1
          rw [hsquare, ← pow_mul]
          split
          case isTrue hodd =>
              have hsplit : p = 2 * (p / 2) + 1 := by omega
              rw [hprod, mul_assoc, ← pow_succ', ← hsplit]
          case isFalse heven =>
              have hsplit : p = 2 * (p / 2) := by omega
              rw [← hsplit]

theorem gfinv_get (b : UInt8) : gfinv[b.toFin] = (ByteField.mk b)⁻¹.byte := by
  rw [gfinv, Fin.getElem_fin, Vector.getElem_ofFn]
  by_cases hb : b = 0
  · subst hb
    exact (congrArg ByteField.byte inv_zero).symm
  · have hne : b.toFin.val ≠ 0 := fun h => hb (UInt8.toNat_inj.mp h)
    rw [if_neg hne, gfPowConst, gfPowLoop_eq _ _ _ _ (by decide), Lib.ByteField.inv_eq_pow,
      show ByteField.mk 1 = 1 from rfl, one_mul]
    simp

/-- `GFEXI[e]` inverts `g^e + 1`. -/
theorem gfexi_get (e : Fin 256) (he : e.val < 255) :
    gfexi[e] = (gen ^ e.val + 1)⁻¹.byte := by
  have hget := gfexp_get e he
  rw [Fin.getElem_fin] at hget
  rw [gfexi, Fin.getElem_fin, Vector.getElem_ofFn, gfinv_get]
  simp only [Fin.getElem_fin, hget]
  rfl

/-- The exponent modulo 255 changes nothing: `g^255 = 1`. -/
theorem gfExp_eq (e : Int) : gfExp e = (gen ^ e).byte := by
  have hsplit : gen ^ e = gen ^ (e % 255).toNat := by
    rw [← zpow_natCast, Int.toNat_of_nonneg (by omega)]
    conv_lhs => rw [← Int.mul_ediv_add_emod e 255]
    rw [zpow_add₀ (by decide), zpow_mul]
    have horder : gen ^ (255 : Int) = 1 := Lib.ByteField.gen_pow_order
    rw [horder, one_zpow, one_mul]
  rw [gfExp, gfexp_get _ (by change (e % 255).toNat < 255; omega), hsplit]

end Rotshield.Recovery
