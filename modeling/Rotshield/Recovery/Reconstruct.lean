import Rotshield.Lib.Syndrome
import Rotshield.Recovery.Engine

/-! What each reconstruction of the engine computes, byte by byte, in the field. -/
namespace Rotshield.Recovery
open Lib (ByteField)
open Lib.ByteField (gen)
open Lib.Syndrome

variable {n : Nat}

/-- The `i`-th byte of a block as a field element. -/
def sym (b : Vector UInt8 n) (i : Fin n) : ByteField := ⟨getElem b i.val i.isLt⟩

theorem block_ext {a b : Vector UInt8 n} (h : ∀ i, sym a i = sym b i) : a = b := by
  apply Vector.ext
  intro i hi
  exact congrArg ByteField.byte (h ⟨i, hi⟩)

/-- The weight of a slot in the Q parity. -/
def weight (slot : Nat) : ByteField := gen ^ (slot - 1)

theorem weight_ne_zero (slot : Nat) : weight slot ≠ 0 := Lib.ByteField.gen_pow_ne_zero _

theorem weight_injective {s t : Nat} (hs : 1 ≤ s ∧ s ≤ 255) (ht : 1 ≤ t ∧ t ≤ 255)
    (h : weight s = weight t) : s = t := by
  have := Lib.ByteField.gen_pow_injective (by omega) (by omega) h
  omega

theorem slotExp_eq {slot : Nat} (h : 1 ≤ slot ∧ slot ≤ 255) : slotExp slot = (slot - 1 : Nat) := by
  unfold slotExp asI32
  have hslot : ((slot : Int).bmod (2 ^ 32)) = slot := Int.bmod_eq_of_le (by omega) (by omega)
  rw [hslot, Int.bmod_eq_of_le (by omega) (by omega)]
  omega

theorem gfExp_slot {slot : Nat} (h : 1 ≤ slot ∧ slot ≤ 255) :
    ByteField.mk (gfExp (slotExp slot)) = weight slot := by
  rw [gfExp_eq, slotExp_eq h, zpow_natCast]
  rfl

theorem gfExp_neg_slot {slot : Nat} (h : 1 ≤ slot ∧ slot ≤ 255) :
    ByteField.mk (gfExp (-slotExp slot)) = (weight slot)⁻¹ := by
  rw [gfExp_eq, slotExp_eq h, zpow_neg, zpow_natCast]
  rfl

@[simp] theorem sym_zero (i : Fin n) : sym (Vector.replicate n 0) i = 0 := by
  simp [sym]
  rfl

@[simp] theorem sym_xor (a b : Vector UInt8 n) (i : Fin n) :
    sym (xorInplace a b) i = sym a i + sym b i := by
  simp [sym, xorInplace]
  rfl

theorem sym_mulXor (a b : Vector UInt8 n) (coef : UInt8) (i : Fin n) :
    sym (gfMulXorInplace a b coef) i = sym a i + ByteField.mk coef * sym b i := by
  unfold sym
  rw [← mulTable_eq]
  apply ByteField.ext
  simp [gfMulXorInplace]

theorem sym_mulInto (src : Vector UInt8 n) (coef : UInt8) (i : Fin n) :
    sym (gfMulInto src coef) i = ByteField.mk coef * sym src i := by
  unfold sym
  rw [← mulTable_eq]
  simp [gfMulInto]

theorem sym_foldl_xor (blocks : List (Nat × Vector UInt8 n)) (init : Vector UInt8 n) (i : Fin n) :
    sym (blocks.foldl (fun acc b => xorInplace acc b.2) init) i =
      sym init i + (blocks.map fun b => sym b.2 i).sum := by
  induction blocks generalizing init with
  | nil => simp
  | cons b blocks ih => simp [ih, add_assoc]

theorem sym_foldl_mulXor {blocks : List (Nat × Vector UInt8 n)}
    (hslots : ∀ b ∈ blocks, 1 ≤ b.1 ∧ b.1 ≤ 255) (init : Vector UInt8 n) (i : Fin n) :
    sym (blocks.foldl (fun acc b => gfMulXorInplace acc b.2 (gfExp (slotExp b.1))) init) i =
      sym init i + (blocks.map fun b => weight b.1 * sym b.2 i).sum := by
  induction blocks generalizing init with
  | nil => simp
  | cons b blocks ih =>
      rw [List.foldl_cons, ih fun x hx => hslots x (List.mem_cons_of_mem b hx), sym_mulXor,
        gfExp_slot (hslots b List.mem_cons_self)]
      simp [add_assoc]

theorem sym_recoverViaP (blocks : List (Nat × Vector UInt8 n)) (p : Vector UInt8 n) (i : Fin n) :
    sym (recoverViaP blocks p) i = (blocks.map fun b => sym b.2 i).sum + sym p i := by
  simp [recoverViaP, sym_foldl_xor]

theorem sym_reconstructViaQ {blocks : List (Nat × Vector UInt8 n)}
    (hslots : ∀ b ∈ blocks, 1 ≤ b.1 ∧ b.1 ≤ 255) (q : Vector UInt8 n) {failing : Nat}
    (hfailing : 1 ≤ failing ∧ failing ≤ 255) (i : Fin n) :
    sym (reconstructViaQ blocks q failing) i =
      (weight failing)⁻¹ * (sym q i + (blocks.map fun b => weight b.1 * sym b.2 i).sum) := by
  rw [reconstructViaQ, sym_mulInto, gfExp_neg_slot hfailing, sym_foldl_mulXor hslots]

/-- The blocks the two-disk solve leaves in place. -/
def goodBlocks (blocks : List (Nat × Vector UInt8 n)) (partner failing : Nat) :
    List (Nat × Vector UInt8 n) :=
  blocks.filter fun d => !(decide (d.1 = partner ∨ d.1 = failing))

theorem foldl_zeros (blocks : List (Nat × Vector UInt8 n)) (partner failing : Nat)
    (acc : Vector UInt8 n × Vector UInt8 n) :
    blocks.foldl
        (fun (acc : Vector UInt8 n × Vector UInt8 n) d =>
          if d.1 = partner ∨ d.1 = failing then acc
          else (xorInplace acc.1 d.2, gfMulXorInplace acc.2 d.2 (gfExp (slotExp d.1)))) acc =
      ((goodBlocks blocks partner failing).foldl (fun acc b => xorInplace acc b.2) acc.1,
        (goodBlocks blocks partner failing).foldl
          (fun acc b => gfMulXorInplace acc b.2 (gfExp (slotExp b.1))) acc.2) := by
  induction blocks generalizing acc with
  | nil => rfl
  | cons d blocks ih =>
      rw [List.foldl_cons, ih]
      by_cases hskip : d.1 = partner ∨ d.1 = failing
      · rw [if_pos hskip, goodBlocks, goodBlocks, List.filter_cons_of_neg (by simp [hskip])]
      · rw [if_neg hskip, goodBlocks, goodBlocks, List.filter_cons_of_pos (by simpa using hskip)]
        rfl

theorem gfexi_slots {lo hi : Nat} (hlo : 1 ≤ lo) (hlt : lo < hi) (hhi : hi ≤ 255) (e : Fin 256)
    (he : e.val = hi - lo) : ByteField.mk gfexi[e] = (1 - weight hi / weight lo)⁻¹ := by
  have hexp : hi - 1 = (hi - lo) + (lo - 1) := by omega
  have hfrac : weight hi / weight lo = gen ^ (hi - lo) := by
    rw [weight, hexp, pow_add]
    exact mul_div_cancel_right₀ _ (weight_ne_zero lo)
  rw [gfexi_get e (by omega), hfrac, he, CharTwo.sub_eq_add, add_comm]

theorem gfinv_slots {s t : Nat} {x y : UInt8} (hx : ByteField.mk x = weight s)
    (hy : ByteField.mk y = weight t) :
    ByteField.mk gfinv[(x ^^^ y).toFin] = (weight s - weight t)⁻¹ := by
  rw [gfinv_get, CharTwo.sub_eq_add, ← hx, ← hy]
  rfl

/-- The byte the solve returns for two distinct slots, from the two syndromes left over. -/
def solved (lo hi : Nat) (failingFirst : Bool) (dp dq : ByteField) : ByteField :=
  let second := (1 - weight hi / weight lo)⁻¹ * dp - (weight lo - weight hi)⁻¹ * dq
  if failingFirst then dp - second else second

/-- The three table accesses of the solve, for two slots in order. -/
theorem tables_of_slots {lo hi : Nat} (hlo : 1 ≤ lo) (hlt : lo < hi) (hhi : hi ≤ 255) :
    ∃ eA eB r : UInt8,
      tableAt gfexp (lo - 1) = .ok eA ∧ ByteField.mk eA = weight lo ∧
      tableAt gfexp (hi - 1) = .ok eB ∧ ByteField.mk eB = weight hi ∧
      tableAt gfexi ((((hi - 1 : Nat) : Int) - ((lo - 1 : Nat) : Int)) % 255).toNat = .ok r ∧
      ByteField.mk r = (1 - weight hi / weight lo)⁻¹ := by
  have hdiff : ((((hi - 1 : Nat) : Int) - ((lo - 1 : Nat) : Int)) % 255).toNat = hi - lo := by omega
  have hA : lo - 1 < 255 := by omega
  have hB : hi - 1 < 255 := by omega
  have hR : hi - lo < 256 := by omega
  rw [hdiff]
  refine ⟨gfexp[(⟨lo - 1, Nat.lt_succ_of_lt hA⟩ : Fin 256)],
    gfexp[(⟨hi - 1, Nat.lt_succ_of_lt hB⟩ : Fin 256)], gfexi[(⟨hi - lo, hR⟩ : Fin 256)],
    dif_pos _, ?_, dif_pos _, ?_, dif_pos _, ?_⟩
  · rw [gfexp_get _ hA]
    rfl
  · rw [gfexp_get _ hB]
    rfl
  · exact gfexi_slots hlo hlt hhi _ rfl

theorem slotExp_min {s t : Nat} (hs : 1 ≤ s ∧ s ≤ 255) (ht : 1 ≤ t ∧ t ≤ 255) :
    (if s < t then slotExp s else slotExp t) = ((min s t - 1 : Nat) : Int) := by
  split
  case isTrue h => rw [slotExp_eq hs, Nat.min_eq_left h.le]
  case isFalse h => rw [slotExp_eq ht, Nat.min_eq_right (Nat.le_of_not_lt h)]

theorem slotExp_max {s t : Nat} (hs : 1 ≤ s ∧ s ≤ 255) (ht : 1 ≤ t ∧ t ≤ 255) :
    (if s < t then slotExp t else slotExp s) = ((max s t - 1 : Nat) : Int) := by
  split
  case isTrue h => rw [slotExp_eq ht, Nat.max_eq_right h.le]
  case isFalse h => rw [slotExp_eq hs, Nat.max_eq_left (Nat.le_of_not_lt h)]

theorem solveTwoDisk_eq (p q : Vector UInt8 n) {blocks : List (Nat × Vector UInt8 n)}
    (hslots : ∀ b ∈ blocks, 1 ≤ b.1 ∧ b.1 ≤ 255) {partner failing : Nat}
    (hp : 1 ≤ partner ∧ partner ≤ 255) (hf : 1 ≤ failing ∧ failing ≤ 255)
    (hne : partner ≠ failing) :
    ∃ x, solveTwoDisk p q blocks partner failing = .ok (some x) ∧ ∀ i, sym x i =
      solved (min failing partner) (max failing partner) (failing < partner)
        (sym p i + ((goodBlocks blocks partner failing).map fun b => sym b.2 i).sum)
        (sym q i + ((goodBlocks blocks partner failing).map fun b => weight b.1 * sym b.2 i).sum) := by
  have hgood : ∀ b ∈ goodBlocks blocks partner failing, 1 ≤ b.1 ∧ b.1 ≤ 255 := fun b hb =>
    hslots b (List.mem_of_mem_filter hb)
  have hlt : min failing partner < max failing partner := by
    rw [min_lt_max]
    exact hne.symm
  obtain ⟨eA, eB, r, hlookA, hwA, hlookB, hwB, hlookR, hr⟩ := tables_of_slots
    (le_min hf.1 hp.1) hlt (max_le hf.2 hp.2)
  have hguard : ¬(((min failing partner - 1 : Nat) : Int) < 0 ∨
      ((max failing partner - 1 : Nat) : Int) < 0 ∨
      ((min failing partner - 1 : Nat) : Int) = ((max failing partner - 1 : Nat) : Int)) := by
    have hlo : 1 ≤ min failing partner := le_min hf.1 hp.1
    generalize min failing partner = lo at hlt hlo
    generalize max failing partner = hi at hlt
    omega
  have hcombine (dp dq : Vector UInt8 n) (c d : UInt8) (i : Fin n) :
      sym (Vector.ofFn fun i => mulTable c dp[i] ^^^ mulTable d dq[i]) i =
        ByteField.mk c * sym dp i + ByteField.mk d * sym dq i := by
    unfold sym
    rw [← mulTable_eq, ← mulTable_eq]
    apply ByteField.ext
    simp
  unfold solveTwoDisk
  simp only [slotExp_min hf hp, slotExp_max hf hp, Int.toNat_natCast, hlookA, hlookB, hlookR,
    foldl_zeros]
  rw [if_neg hguard]
  refine ⟨_, rfl, ?_⟩
  intro i
  by_cases hfirst : failing < partner
  · simp only [hfirst, if_true, sym_xor, hcombine, sym_foldl_xor, sym_foldl_mulXor hgood,
      sym_zero, zero_add, hr, gfinv_slots hwA hwB, solved, decide_true, CharTwo.sub_eq_add]
    rw [add_comm]
  · simp only [hfirst, if_false, sym_xor, hcombine, sym_foldl_xor, sym_foldl_mulXor hgood,
      sym_zero, zero_add, hr, gfinv_slots hwA hwB, solved, decide_false, Bool.false_eq_true,
      CharTwo.sub_eq_add]

end Rotshield.Recovery
