import Mathlib.Algebra.CharP.Two
import Mathlib.Algebra.Field.Basic
import Mathlib.Data.FinEnum
import Mathlib.GroupTheory.OrderOfElement
import Mathlib.Tactic.NormNum.Prime

/-! Bytes as the field with 256 elements, reduced by `x^8 + x^4 + x^3 + x^2 + 1`.
Addition is exclusive or; a product is read off the bits of its second factor. -/
namespace Rotshield.Lib

/-- Multiplication by `x`, with the reduction when the high bit escapes. -/
def double (v : UInt8) : UInt8 :=
  (v <<< 1) ^^^ (if v &&& 0x80 ≠ 0 then 0x1d else 0)

/-- The product read off the low `n` bits of the second factor. -/
def mulBits : Nat → UInt8 → UInt8 → UInt8
  | 0, _, _ => 0
  | n + 1, a, b => (if b &&& 1 ≠ 0 then a else 0) ^^^ mulBits n (double a) (b >>> 1)

theorem double_xor (a b : UInt8) : double (a ^^^ b) = double a ^^^ double b := by
  have htop : ∀ v : UInt8, (if v &&& 0x80 ≠ 0 then (0x1d : UInt8) else 0) =
      if v.toBitVec.getLsbD 7 then 0x1d else 0 := by decide +kernel
  have hreduce : ∀ p q : Bool, (if p ^^ q then (0x1d : UInt8) else 0) =
      (if p then 0x1d else 0) ^^^ (if q then 0x1d else 0) := by decide
  simp only [double, htop, UInt8.toBitVec_xor, BitVec.getLsbD_xor, UInt8.shiftLeft_xor, hreduce]
  ac_rfl

theorem odd_xor (a b c : UInt8) :
    (if (b ^^^ c) &&& 1 ≠ 0 then a else 0) =
      (if b &&& 1 ≠ 0 then a else 0) ^^^ (if c &&& 1 ≠ 0 then a else 0) := by
  have hlow : ∀ v : UInt8, (v &&& 1 ≠ 0) ↔ v.toBitVec.getLsbD 0 = true := by decide +kernel
  simp only [hlow, UInt8.toBitVec_xor, BitVec.getLsbD_xor]
  cases b.toBitVec.getLsbD 0 <;> cases c.toBitVec.getLsbD 0 <;> simp

theorem mulBits_xor_left (n : Nat) (a b c : UInt8) :
    mulBits n (a ^^^ b) c = mulBits n a c ^^^ mulBits n b c := by
  induction n generalizing a b c with
  | zero => exact UInt8.xor_self.symm
  | succ n ih =>
      simp only [mulBits, double_xor, ih]
      split
      · ac_rfl
      · simp

theorem mulBits_xor_right (n : Nat) (a b c : UInt8) :
    mulBits n a (b ^^^ c) = mulBits n a b ^^^ mulBits n a c := by
  induction n generalizing a b c with
  | zero => exact UInt8.xor_self.symm
  | succ n ih =>
      simp only [mulBits, odd_xor, UInt8.shiftRight_xor, ih]
      ac_rfl

/-- A byte is the sum of its bits. -/
theorem byte_eq_bits (a : UInt8) :
    a = (List.range 8).foldr
      (fun i acc => (if a &&& ((1 : UInt8) <<< i.toUInt8) ≠ 0 then (1 : UInt8) <<< i.toUInt8 else 0) ^^^ acc)
      0 := by
  revert a
  decide +kernel

/-- Two additive maps that agree on the eight bits agree on every byte. -/
theorem additive_ext {f g : UInt8 → UInt8} (hf : ∀ a b, f (a ^^^ b) = f a ^^^ f b)
    (hg : ∀ a b, g (a ^^^ b) = g a ^^^ g b)
    (hbit : ∀ i < 8, f ((1 : UInt8) <<< i.toUInt8) = g ((1 : UInt8) <<< i.toUInt8)) (a : UInt8) :
    f a = g a := by
  have hzero {h : UInt8 → UInt8} (hh : ∀ a b, h (a ^^^ b) = h a ^^^ h b) : h 0 = 0 := by
    have := hh 0 0
    simpa using this
  have hsum : ∀ l : List Nat, (∀ i ∈ l, i < 8) → ∀ p : Nat → Prop, [DecidablePred p] →
      f (l.foldr (fun i acc => (if p i then (1 : UInt8) <<< i.toUInt8 else 0) ^^^ acc) 0) =
        g (l.foldr (fun i acc => (if p i then (1 : UInt8) <<< i.toUInt8 else 0) ^^^ acc) 0) := by
    intro l hl p _
    induction l with
    | nil => exact (hzero hf).trans (hzero hg).symm
    | cons i l ih =>
        simp only [List.foldr_cons, hf, hg]
        rw [ih fun j hj => hl j (List.mem_cons_of_mem i hj)]
        split
        · rw [hbit i (hl i List.mem_cons_self)]
        · rw [hzero hf, hzero hg]
  rw [byte_eq_bits a]
  exact hsum _ (fun i hi => List.mem_range.mp hi) _

theorem mulBits_comm (a b : UInt8) : mulBits 8 a b = mulBits 8 b a := by
  refine additive_ext (f := fun a => mulBits 8 a b) (g := fun a => mulBits 8 b a)
    (fun _ _ => mulBits_xor_left _ _ _ _) (fun _ _ => mulBits_xor_right _ _ _ _)
    (fun i hi => ?_) a
  refine additive_ext (f := fun b => mulBits 8 _ b) (g := fun b => mulBits 8 b _)
    (fun _ _ => mulBits_xor_right _ _ _ _) (fun _ _ => mulBits_xor_left _ _ _ _)
    (fun j hj => ?_) b
  revert i j
  decide +kernel

theorem mulBits_assoc (a b c : UInt8) :
    mulBits 8 (mulBits 8 a b) c = mulBits 8 a (mulBits 8 b c) := by
  refine additive_ext (f := fun a => mulBits 8 (mulBits 8 a b) c)
    (g := fun a => mulBits 8 a (mulBits 8 b c))
    (fun _ _ => by simp only [mulBits_xor_left]) (fun _ _ => mulBits_xor_left _ _ _ _)
    (fun i hi => ?_) a
  refine additive_ext (f := fun b => mulBits 8 (mulBits 8 _ b) c)
    (g := fun b => mulBits 8 _ (mulBits 8 b c))
    (fun _ _ => by simp only [mulBits_xor_left, mulBits_xor_right])
    (fun _ _ => by simp only [mulBits_xor_left, mulBits_xor_right]) (fun j hj => ?_) b
  refine additive_ext (f := fun c => mulBits 8 (mulBits 8 _ _) c)
    (g := fun c => mulBits 8 _ (mulBits 8 _ c))
    (fun _ _ => mulBits_xor_right _ _ _ _)
    (fun _ _ => by simp only [mulBits_xor_right]) (fun k hk => ?_) c
  revert i j k
  decide +kernel

/-- A byte seen as a field element. -/
@[ext] structure ByteField where
  byte : UInt8
  deriving DecidableEq, Repr

namespace ByteField

instance : Zero ByteField := ⟨⟨0⟩⟩
instance : One ByteField := ⟨⟨1⟩⟩
instance : Add ByteField := ⟨fun a b => ⟨a.byte ^^^ b.byte⟩⟩
instance : Neg ByteField := ⟨fun a => a⟩
instance : Mul ByteField := ⟨fun a b => ⟨mulBits 8 a.byte b.byte⟩⟩
instance : Sub ByteField := ⟨fun a b => ⟨a.byte ^^^ b.byte⟩⟩

@[simp] theorem byte_zero : (0 : ByteField).byte = 0 := rfl
@[simp] theorem byte_one : (1 : ByteField).byte = 1 := rfl
@[simp] theorem byte_add (a b : ByteField) : (a + b).byte = a.byte ^^^ b.byte := rfl
@[simp] theorem byte_neg (a : ByteField) : (-a).byte = a.byte := rfl
@[simp] theorem byte_sub (a b : ByteField) : (a - b).byte = a.byte ^^^ b.byte := rfl
@[simp] theorem byte_mul (a b : ByteField) : (a * b).byte = mulBits 8 a.byte b.byte := rfl

instance : CommRing ByteField where
  add_assoc a b c := ByteField.ext (UInt8.xor_assoc _ _ _)
  zero_add a := ByteField.ext (by simp)
  add_zero a := ByteField.ext (by simp)
  add_comm a b := ByteField.ext (UInt8.xor_comm _ _)
  neg_add_cancel a := ByteField.ext (by simp)
  sub_eq_add_neg a b := rfl
  nsmul := nsmulRec
  zsmul := zsmulRec
  mul_assoc a b c := ByteField.ext (mulBits_assoc _ _ _)
  mul_comm a b := ByteField.ext (mulBits_comm _ _)
  one_mul a := ByteField.ext ((by decide +kernel : ∀ v : UInt8, mulBits 8 1 v = v) a.byte)
  mul_one a := ByteField.ext ((by decide +kernel : ∀ v : UInt8, mulBits 8 v 1 = v) a.byte)
  zero_mul a := ByteField.ext (by simpa using mulBits_xor_left 8 0 0 a.byte)
  mul_zero a := ByteField.ext (by simpa using mulBits_xor_right 8 a.byte 0 0)
  left_distrib a b c := ByteField.ext (mulBits_xor_right _ _ _ _)
  right_distrib a b c := ByteField.ext (mulBits_xor_left _ _ _ _)

instance : Nontrivial ByteField := ⟨0, 1, by decide⟩

/-- The generator `x`. -/
def gen : ByteField := ⟨2⟩

@[simp] theorem byte_gen_mul (a : ByteField) : (gen * a).byte = double a.byte :=
  (by decide +kernel : ∀ v : UInt8, mulBits 8 2 v = double v) a.byte

theorem byte_gen_pow (n : Nat) : (gen ^ n).byte = double^[n] 1 := by
  induction n with
  | zero => rfl
  | succ n ih => rw [pow_succ', byte_gen_mul, ih, Function.iterate_succ_apply']

theorem gen_pow_order : gen ^ 255 = 1 :=
  ByteField.ext (by rw [byte_gen_pow]; decide +kernel)

theorem prime_dvd_255 {p : Nat} (hp : p.Prime) (hd : p ∣ 255) : p = 3 ∨ p = 5 ∨ p = 17 := by
  have hmul : p ∣ 3 * 5 * 17 := hd
  rw [hp.dvd_mul, hp.dvd_mul, Nat.prime_dvd_prime_iff_eq hp (by norm_num),
    Nat.prime_dvd_prime_iff_eq hp (by norm_num), Nat.prime_dvd_prime_iff_eq hp (by norm_num)] at hmul
  rcases hmul with (h | h) | h <;> simp [h]

/-- The generator has order 255: none of its powers by `255 / 3`, `255 / 5`, `255 / 17` is one. -/
theorem orderOf_gen : orderOf gen = 255 := by
  refine orderOf_eq_of_pow_and_pow_div_prime (by decide) gen_pow_order ?_
  intro p hp hd h
  have hbyte := congrArg byte h
  rw [byte_gen_pow, byte_one] at hbyte
  rcases prime_dvd_255 hp hd with rfl | rfl | rfl <;> revert hbyte <;> decide +kernel

def genUnit : ByteFieldˣ where
  val := gen
  inv := gen ^ 254
  val_inv := by rw [← pow_succ', gen_pow_order]
  inv_val := by rw [← pow_succ, gen_pow_order]

theorem gen_pow_injective {m n : Nat} (hm : m < 255) (hn : n < 255) (h : gen ^ m = gen ^ n) :
    m = n := by
  have horder : orderOf genUnit = 255 := by rw [← orderOf_units]; exact orderOf_gen
  refine pow_injOn_Iio_orderOf (x := genUnit) (by simpa [horder] using hm)
    (by simpa [horder] using hn) ?_
  exact Units.ext (by simpa [genUnit] using h)

theorem gen_pow_ne_zero (n : Nat) : gen ^ n ≠ 0 := by
  have h : IsUnit (gen ^ n) := (genUnit.isUnit).pow n
  exact h.ne_zero

def equivFin : ByteField ≃ Fin 256 where
  toFun a := a.byte.toFin
  invFun n := ⟨UInt8.ofFin n⟩
  left_inv _ := ByteField.ext (UInt8.ofFin_toFin _)
  right_inv n := UInt8.toFin_ofFin n

instance : Fintype ByteField := Fintype.ofEquiv (Fin 256) equivFin.symm

/-- The nonzero bytes are the 255 powers of the generator. -/
theorem exists_gen_pow {a : ByteField} (ha : a ≠ 0) : ∃ n < 255, gen ^ n = a := by
  let power : Fin 255 → {v : ByteField // v ≠ 0} := fun n => ⟨gen ^ n.val, gen_pow_ne_zero n⟩
  have hinj : Function.Injective power := fun m n h =>
    Fin.ext (gen_pow_injective m.isLt n.isLt (congrArg Subtype.val h))
  have hcard : Fintype.card (Fin 255) = Fintype.card {v : ByteField // v ≠ 0} := by
    rw [Fintype.card_subtype_compl, Fintype.card_fin, Fintype.card_congr equivFin]
    simp
  obtain ⟨n, hn⟩ := ((Fintype.bijective_iff_injective_and_card power).mpr ⟨hinj, hcard⟩).2 ⟨a, ha⟩
  exact ⟨n.val, n.isLt, congrArg Subtype.val hn⟩

theorem pow_255 {a : ByteField} (ha : a ≠ 0) : a ^ 255 = 1 := by
  obtain ⟨n, -, rfl⟩ := exists_gen_pow ha
  rw [← pow_mul, mul_comm, pow_mul, gen_pow_order, one_pow]

instance : Field ByteField where
  inv a := a ^ 254
  mul_inv_cancel a ha := by
    change a * a ^ 254 = 1
    rw [← pow_succ', pow_255 ha]
  inv_zero := zero_pow (by decide)
  nnqsmul := _
  nnqsmul_def _ _ := rfl
  qsmul := _
  qsmul_def _ _ := rfl

theorem inv_eq_pow (a : ByteField) : a⁻¹ = a ^ 254 := rfl

instance : CharP ByteField 2 := CharTwo.of_one_ne_zero_of_two_eq_zero (by decide) (by decide)

end ByteField
end Rotshield.Lib
