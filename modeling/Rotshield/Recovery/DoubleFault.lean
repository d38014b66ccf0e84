import Rotshield.DiskArray.Parity
import Rotshield.Recovery.Accept
import Rotshield.Recovery.Reconstruct

/-! Recovery under one further fault: with at most one of the supplied blocks wrong
besides the failing one, the engine returns the original block. -/
namespace Rotshield.Recovery
open Lib (ByteField)
open Lib.Syndrome
open DiskArray (ArrayConfig DeviceIo readBlockOrZeros computeP computeQ)

variable {n : Nat}

/-! ### Stages that find an accepted block -/

theorem pPath_ok {input : RecoveryInput n} {p : Vector UInt8 n} (hp : input.pBlock = some p)
    (hv : input.verifier (recoverViaP input.otherBlocks p).toList = true)
    (hwrong : input.unreadableSource = false →
      recoverViaP input.otherBlocks p ≠ input.corruptBlock) :
    ∃ b, pPath input = .ok b := by
  refine ⟨recoverViaP input.otherBlocks p, ?_⟩
  unfold pPath
  simp only [hp, hv, if_true]
  apply if_neg
  intro hbaked
  simp only [Bool.and_eq_true, Bool.not_eq_true', List.all_eq_true, beq_iff_eq] at hbaked
  -- The accumulator is the reconstruction plus the block on disk: zero means they are equal.
  apply hwrong hbaked.1
  apply block_ext
  intro i
  have hzero : sym (xorInplace (input.otherBlocks.foldl (fun acc b => xorInplace acc b.2)
      input.corruptBlock) p) i = 0 := by
    apply ByteField.ext
    exact hbaked.2 _ (by simp [sym])
  rw [sym_xor, sym_foldl_xor, add_assoc, ← sym_recoverViaP, add_comm] at hzero
  exact CharTwo.add_eq_zero.mp hzero

theorem qPath_ok {input : RecoveryInput n} {q : Vector UInt8 n} (hn : 1 ≤ n)
    (hq : input.qBlock = some q)
    (hv : input.verifier
      (reconstructViaQ input.otherBlocks q input.failingSlot).toList = true)
    (hwrong : input.unreadableSource = false →
      reconstructViaQ input.otherBlocks q input.failingSlot ≠ input.corruptBlock) :
    ∃ b, qPath input = .ok b := by
  refine ⟨reconstructViaQ input.otherBlocks q input.failingSlot, ?_⟩
  have hne : (reconstructViaQ input.otherBlocks q input.failingSlot).toList ≠
      if input.unreadableSource then [] else input.corruptBlock.toList := by
    intro heq
    split at heq
    case isTrue =>
        have hlen := congrArg List.length heq
        rw [Vector.length_toList, List.length_nil] at hlen
        omega
    case isFalse hread => exact hwrong (by simpa using hread) (Vector.toList_inj.mp heq)
  unfold qPath recoverViaQ
  simp only [hq, hv, if_true]
  rw [if_neg hne]

/-- The brute-force loop stops at an accepted block once some partner's solution is one. -/
theorem tryPartners_recovers {input : RecoveryInput n} {p q : Vector UInt8 n}
    (pReason qReason : FailureReason) {rest : List (Nat × Vector UInt8 n)}
    (hsolve : ∀ d ∈ rest, ∃ x,
      solveTwoDisk p q input.otherBlocks d.1 input.failingSlot = .ok (some x))
    {partner : Nat × Vector UInt8 n} (hmem : partner ∈ rest) {x : Vector UInt8 n}
    (hx : solveTwoDisk p q input.otherBlocks partner.1 input.failingSlot = .ok (some x))
    (hv : input.verifier x.toList = true) (tried : List Nat) :
    ∃ s b, tryPartners input p q pReason qReason rest tried = .ok (.recovered (.pq s) b) ∧
      input.verifier b.toList = true := by
  induction rest generalizing tried with
  | nil => cases hmem
  | cons d rest ih =>
      obtain ⟨y, hy⟩ := hsolve d List.mem_cons_self
      have hrest : ∀ e ∈ rest, ∃ x,
          solveTwoDisk p q input.otherBlocks e.1 input.failingSlot = .ok (some x) :=
        fun e he => hsolve e (List.mem_cons_of_mem d he)
      obtain ⟨s, block⟩ := d
      rw [tryPartners, hy]
      by_cases hacc : input.verifier y.toList = true
      · exact ⟨s, y, if_pos hacc, hacc⟩
      · change ∃ s' b, (if input.verifier y.toList then _ else _) = _ ∧ _
        rw [if_neg hacc]
        cases hmem with
        | head =>
            rw [hx] at hy
            cases hy
            exact absurd hv hacc
        | tail _ hmem => exact ih hrest hmem _

/-- If one of the three stages has an accepted block, the engine returns an accepted block. -/
theorem recoverBlock_recovers {input : RecoveryInput n}
    (hcorrupt : input.unreadableSource = false → input.verifier input.corruptBlock.toList = false)
    (hstage : (∃ b, pPath input = .ok b) ∨ (∃ b, qPath input = .ok b) ∨
      ∃ p q, input.pBlock = some p ∧ input.qBlock = some q ∧ ∀ pReason qReason, ∃ s b,
        tryPartners input p q pReason qReason input.otherBlocks [] = .ok (.recovered (.pq s) b) ∧
          input.verifier b.toList = true) :
    ∃ via b, recoverBlock input = .ok (.recovered via b) ∧ input.verifier b.toList = true := by
  have hguard : ¬((!input.unreadableSource && input.verifier input.corruptBlock.toList) = true) := by
    intro h
    simp only [Bool.and_eq_true, Bool.not_eq_true'] at h
    rw [hcorrupt h.1] at h
    cases h.2
  unfold recoverBlock
  rw [if_neg hguard]
  cases hp : pPath input with
  | ok b => exact ⟨.p, b, rfl, pPath_accepted hp⟩
  | error pReason =>
      cases hq : qPath input with
      | ok b => exact ⟨.q, b, rfl, qPath_accepted hq⟩
      | error qReason =>
          rcases hstage with ⟨b, h⟩ | ⟨b, h⟩ | ⟨p, q, hpb, hqb, hpq⟩
          · rw [h] at hp
            cases hp
          · rw [h] at hq
            cases hq
          · obtain ⟨s, b, hres, hacc⟩ := hpq pReason qReason
            refine ⟨.pq s, b, ?_, hacc⟩
            simp only [hpb, hqb]
            exact hres

/-! ### The parity blocks as syndromes -/

theorem sym_foldl_data (slots : List (Nat × Path)) (data : Nat → Vector UInt8 n)
    (init : Vector UInt8 n) (i : Fin n) :
    sym (slots.foldl (fun p d => xorInplace p (data d.1)) init) i =
      sym init i + plain (fun s => sym (data s) i) (slots.map Prod.fst) := by
  have h := sym_foldl_xor (slots.map fun d => (d.1, data d.1)) init i
  rw [List.foldl_map, List.map_map] at h
  rw [h, plain, List.map_map]
  rfl

theorem sym_foldl_dataQ {slots : List (Nat × Path)}
    (hslots : ∀ d ∈ slots, 1 ≤ d.1 ∧ d.1 ≤ 255) (data : Nat → Vector UInt8 n)
    (init : Vector UInt8 n) (i : Fin n) :
    sym (slots.foldl (fun q d => gfMulXorInplace q (data d.1) (gfExp (slotExp d.1))) init) i =
      sym init i + weighted weight (fun s => sym (data s) i) (slots.map Prod.fst) := by
  have hpairs : ∀ b ∈ slots.map fun d => (d.1, data d.1), 1 ≤ b.1 ∧ b.1 ≤ 255 := by
    intro b hb
    obtain ⟨d, hd, rfl⟩ := List.mem_map.mp hb
    exact hslots d hd
  have h := sym_foldl_mulXor hpairs init i
  rw [List.foldl_map, List.map_map] at h
  rw [h, weighted, List.map_map]
  rfl

/-- The originals of an array: what each data disk reads as, and the parity over them. -/
structure Originals (io : DeviceIo Id) (config : ArrayConfig) (arrayPhys : Nat)
    (data : Nat → Vector UInt8 n) (p q : Vector UInt8 n) : Prop where
  slots : ∀ s ∈ config.slots, 1 ≤ s ∧ s ≤ 255
  reads : ∀ d ∈ config.dataDevs, readBlockOrZeros io config d.2 arrayPhys n = pure (data d.1)
  p_eq : computeP io config arrayPhys n = pure p
  q_eq : computeQ io config arrayPhys n = pure q

namespace Originals
variable {io : DeviceIo Id} {config : ArrayConfig} {arrayPhys : Nat}
  {data : Nat → Vector UInt8 n} {p q : Vector UInt8 n}

theorem sym_p (h : Originals io config arrayPhys data p q) (i : Fin n) :
    sym p i = plain (fun s => sym (data s) i) config.slots := by
  have hp := h.p_eq
  rw [DiskArray.computeP_eq h.reads] at hp
  have heq : config.dataDevs.foldl (fun p d => xorInplace p (data d.1)) (Vector.replicate n 0) = p :=
    Except.ok.inj hp
  rw [← heq, sym_foldl_data, sym_zero, zero_add]
  rfl

theorem sym_q (h : Originals io config arrayPhys data p q) (i : Fin n) :
    sym q i = weighted weight (fun s => sym (data s) i) config.slots := by
  have hq := h.q_eq
  rw [DiskArray.computeQ_eq h.reads] at hq
  have heq : config.dataDevs.foldl (fun q d => gfMulXorInplace q (data d.1) (gfExp (slotExp d.1)))
      (Vector.replicate n 0) = q := Except.ok.inj hq
  have hslots : ∀ d ∈ config.dataDevs, 1 ≤ d.1 ∧ d.1 ≤ 255 := fun d hd =>
    h.slots d.1 (List.mem_map_of_mem hd)
  rw [← heq, sym_foldl_dataQ hslots, sym_zero, zero_add]
  rfl

end Originals

/-! ### Reconstruction from intact blocks -/

/-- The other blocks of an input: `held s` for every slot but the failing one, in some order. -/
def Supplies (config : ArrayConfig) (held : Nat → Vector UInt8 n) (input : RecoveryInput n) : Prop :=
  ∃ order : List Nat, order.Perm (config.slots.filter (· != input.failingSlot)) ∧
    input.otherBlocks = order.map fun s => (s, held s)

section Reconstruct
variable {io : DeviceIo Id} {config : ArrayConfig} {arrayPhys : Nat}
  {data : Nat → Vector UInt8 n} {p q : Vector UInt8 n} {input : RecoveryInput n}

theorem slots_perm {order : List Nat}
    (horder : order.Perm (config.slots.filter (· != input.failingSlot)))
    (hfailing : input.failingSlot ∈ config.slots) :
    config.slots.Perm (input.failingSlot :: order) :=
  (perm_cons_filter config.slots_nodup hfailing).trans (horder.symm.cons _)

theorem otherBlocks_slots {held : Nat → Vector UInt8 n}
    (h : Originals io config arrayPhys data p q) (hothers : Supplies config held input) :
    ∀ b ∈ input.otherBlocks, (1 ≤ b.1 ∧ b.1 ≤ 255) ∧ b.1 ≠ input.failingSlot := by
  obtain ⟨order, horder, hblocks⟩ := hothers
  intro b hb
  rw [hblocks] at hb
  obtain ⟨s, hs, rfl⟩ := List.mem_map.mp hb
  have hmem := List.mem_filter.mp (horder.subset hs)
  exact ⟨h.slots s hmem.1, by simpa using hmem.2⟩

theorem recoverViaP_exact (h : Originals io config arrayPhys data p q)
    (hfailing : input.failingSlot ∈ config.slots) (hothers : Supplies config data input) :
    recoverViaP input.otherBlocks p = data input.failingSlot := by
  obtain ⟨order, horder, hblocks⟩ := hothers
  apply block_ext
  intro i
  rw [sym_recoverViaP, h.sym_p, hblocks, List.map_map, add_comm, ← CharTwo.sub_eq_add]
  exact recover_plain (fun s => sym (data s) i) (slots_perm horder hfailing)

theorem reconstructViaQ_exact (h : Originals io config arrayPhys data p q)
    (hfailing : input.failingSlot ∈ config.slots) (hothers : Supplies config data input) :
    reconstructViaQ input.otherBlocks q input.failingSlot = data input.failingSlot := by
  have hrange : ∀ b ∈ input.otherBlocks, 1 ≤ b.1 ∧ b.1 ≤ 255 := fun b hb =>
    (otherBlocks_slots h hothers b hb).1
  obtain ⟨order, horder, hblocks⟩ := hothers
  apply block_ext
  intro i
  rw [sym_reconstructViaQ hrange q (h.slots _ hfailing), h.sym_q, hblocks, List.map_map,
    ← CharTwo.sub_eq_add]
  exact recover_weighted weight (fun s => sym (data s) i) (slots_perm horder hfailing)
    (weight_ne_zero _)

/-- The two syndromes left by the good columns give the failing block, whichever of the two
lost columns comes first. -/
theorem solved_exact (d : Nat → ByteField) {cols good : List Nat} {failing partner : Nat}
    (h : cols.Perm (failing :: partner :: good)) (hne : partner ≠ failing)
    (hweight : weight failing ≠ weight partner) :
    solved (min failing partner) (max failing partner) (failing < partner)
      (plain d cols - plain d good) (weighted weight d cols - weighted weight d good) =
        d failing := by
  rcases Nat.lt_or_gt_of_ne hne with hlt | hlt
  · have hsecond := recover_two weight d (h.trans (List.Perm.swap partner failing good))
      (weight_ne_zero partner) hweight.symm
    simp only [solved, Nat.min_eq_right hlt.le, Nat.max_eq_left hlt.le, hsecond]
    rw [if_neg (by simpa using hlt.le)]
  · have hsecond := recover_two weight d h (weight_ne_zero failing) hweight
    simp only [solved, Nat.min_eq_left hlt.le, Nat.max_eq_right hlt.le, hsecond]
    rw [if_pos (by simpa using hlt), plain_perm d h, plain_cons, plain_cons]
    ring

theorem solveTwoDisk_exact {held : Nat → Vector UInt8 n} (h : Originals io config arrayPhys data p q)
    (hfailing : input.failingSlot ∈ config.slots) (hothers : Supplies config held input)
    {partner : Nat} (hheld : ∀ s, s ≠ partner → held s = data s)
    (hpartner : partner ∈ config.slots) (hne : partner ≠ input.failingSlot) :
    solveTwoDisk p q input.otherBlocks partner input.failingSlot =
      .ok (some (data input.failingSlot)) := by
  have hrange : ∀ b ∈ input.otherBlocks, 1 ≤ b.1 ∧ b.1 ≤ 255 := fun b hb =>
    (otherBlocks_slots h hothers b hb).1
  obtain ⟨order, horder, hblocks⟩ := hothers
  obtain ⟨x, hx, hsym⟩ := solveTwoDisk_eq p q hrange (h.slots _ hpartner) (h.slots _ hfailing) hne
  have hmem : partner ∈ order := horder.symm.subset (List.mem_filter.mpr ⟨hpartner, by simpa using hne⟩)
  have hnodup : order.Nodup := horder.symm.nodup (config.slots_nodup.filter _)
  -- The blocks left in place are the originals of the slots other than these two.
  have hgood : goodBlocks input.otherBlocks partner input.failingSlot =
      (order.filter (· != partner)).map fun s => (s, data s) := by
    rw [goodBlocks, hblocks, List.filter_map]
    have hfilter : order.filter ((fun d : Nat × Vector UInt8 n =>
        !(decide (d.1 = partner ∨ d.1 = input.failingSlot))) ∘ fun s => (s, held s)) =
        order.filter (· != partner) := by
      apply List.filter_congr
      intro s hs
      have hs' := (List.mem_filter.mp (horder.subset hs)).2
      have hs'' : s ≠ input.failingSlot := by simpa using hs'
      by_cases hsp : s = partner <;> simp [hsp, hs'']
    rw [hfilter]
    apply List.map_congr_left
    intro s hs
    rw [hheld s (by simpa using (List.mem_filter.mp hs).2)]
  have hcols : config.slots.Perm
      (input.failingSlot :: partner :: order.filter (· != partner)) :=
    (slots_perm horder hfailing).trans ((perm_cons_filter hnodup hmem).cons _)
  have hweight : weight input.failingSlot ≠ weight partner := fun heq =>
    hne (weight_injective (h.slots _ hfailing) (h.slots _ hpartner) heq).symm
  have hblock : x = data input.failingSlot := by
    apply block_ext
    intro i
    rw [hsym i, h.sym_p, h.sym_q, hgood, List.map_map, List.map_map,
      ← solved_exact (fun s => sym (data s) i) hcols hne hweight, CharTwo.sub_eq_add,
      CharTwo.sub_eq_add]
    rfl
  rw [hx, hblock]

end Reconstruct

/-! ### At most one further fault -/

/-- Against the originals, the supplied blocks have at most one wrong block among the other
data disks, P and Q; with a single parity they have none. -/
inductive Damage (config : ArrayConfig) (data : Nat → Vector UInt8 n) (p q : Vector UInt8 n)
    (input : RecoveryInput n) : Prop where
  | other (held : Nat → Vector UInt8 n) (partner : Nat)
      (supplied : Supplies config held input) (intact : ∀ s, s ≠ partner → held s = data s)
      (pBlock : input.pBlock = some p) (qBlock : input.qBlock = some q)
  | parityP (supplied : Supplies config data input) (bad : Vector UInt8 n)
      (pBlock : input.pBlock = some bad) (qBlock : input.qBlock = some q)
  | parityQ (supplied : Supplies config data input) (bad : Vector UInt8 n)
      (pBlock : input.pBlock = some p) (qBlock : input.qBlock = some bad)
  | onlyP (supplied : Supplies config data input)
      (pBlock : input.pBlock = some p) (qBlock : input.qBlock = none)
  | onlyQ (supplied : Supplies config data input)
      (pBlock : input.pBlock = none) (qBlock : input.qBlock = some q)

theorem recoverBlock_exact (hn : 1 ≤ n) {io : DeviceIo Id} {config : ArrayConfig} {arrayPhys : Nat}
    {data : Nat → Vector UInt8 n} {p q : Vector UInt8 n}
    (horiginals : Originals io config arrayPhys data p q) {input : RecoveryInput n}
    (hfailing : input.failingSlot ∈ config.slots)
    (hverifier : ∀ b, input.verifier b = true ↔ b = (data input.failingSlot).toList)
    (hwrong : input.unreadableSource = false → input.corruptBlock ≠ data input.failingSlot)
    (hdamage : Damage config data p q input) :
    ∃ via, recoverBlock input = .ok (.recovered via (data input.failingSlot)) := by
  have haccept : input.verifier (data input.failingSlot).toList = true := (hverifier _).mpr rfl
  have hcorrupt : input.unreadableSource = false →
      input.verifier input.corruptBlock.toList = false := by
    intro hread
    rw [Bool.eq_false_iff]
    exact fun hv => hwrong hread (Vector.toList_inj.mp ((hverifier _).mp hv))
  have hfromP (hs : Supplies config data input) (hp : input.pBlock = some p) :
      ∃ b, pPath input = .ok b := by
    have hexact := recoverViaP_exact horiginals hfailing hs
    exact pPath_ok hp (by rw [hexact]; exact haccept) fun h => by rw [hexact]; exact (hwrong h).symm
  have hfromQ (hs : Supplies config data input) (hq : input.qBlock = some q) :
      ∃ b, qPath input = .ok b := by
    have hexact := reconstructViaQ_exact horiginals hfailing hs
    exact qPath_ok hn hq (by rw [hexact]; exact haccept) fun h => by
      rw [hexact]; exact (hwrong h).symm
  obtain ⟨via, b, hres, hacc⟩ := recoverBlock_recovers hcorrupt <| by
    cases hdamage with
    | other held partner supplied intact pBlock qBlock =>
        by_cases hpartner : partner ∈ config.slots ∧ partner ≠ input.failingSlot
        · right; right
          refine ⟨p, q, pBlock, qBlock, ?_⟩
          intro pReason qReason
          have hsolve : ∀ d ∈ input.otherBlocks, ∃ x,
              solveTwoDisk p q input.otherBlocks d.1 input.failingSlot = .ok (some x) := by
            intro d hd
            have hd' := otherBlocks_slots horiginals supplied d hd
            obtain ⟨x, hx, -⟩ := solveTwoDisk_eq p q
              (fun b hb => (otherBlocks_slots horiginals supplied b hb).1) hd'.1
              (horiginals.slots _ hfailing) hd'.2
            exact ⟨x, hx⟩
          have hmem : (partner, held partner) ∈ input.otherBlocks := by
            obtain ⟨order, horder, hblocks⟩ := supplied
            rw [hblocks]
            refine List.mem_map.mpr ⟨partner, horder.symm.subset ?_, rfl⟩
            exact List.mem_filter.mpr ⟨hpartner.1, by simpa using hpartner.2⟩
          exact tryPartners_recovers pReason qReason hsolve hmem
            (solveTwoDisk_exact horiginals hfailing supplied intact hpartner.1 hpartner.2) haccept []
        · -- The block called wrong is not among the supplied ones: they are all intact.
          left
          obtain ⟨order, horder, hblocks⟩ := supplied
          refine hfromP ⟨order, horder, ?_⟩ pBlock
          rw [hblocks]
          apply List.map_congr_left
          intro s hs
          have hs' := List.mem_filter.mp (horder.subset hs)
          rw [intact s fun heq => hpartner ⟨heq ▸ hs'.1, by simpa [heq] using hs'.2⟩]
    | parityP supplied bad pBlock qBlock => exact .inr (.inl (hfromQ supplied qBlock))
    | parityQ supplied bad pBlock qBlock => exact .inl (hfromP supplied pBlock)
    | onlyP supplied pBlock qBlock => exact .inl (hfromP supplied pBlock)
    | onlyQ supplied pBlock qBlock => exact .inr (.inl (hfromQ supplied qBlock))
  have hblock : b = data input.failingSlot := Vector.toList_inj.mp ((hverifier _).mp hacc)
  exact ⟨via, by rw [hres, hblock]⟩

/-! Three one-byte disks; slot 2 is corrupt and slot 1 was replaced too. -/

def threeDisks : ArrayConfig where
  dataDevs := [(1, "nmd1"), (2, "nmd2"), (3, "nmd3")]
  parityP := some "nmd0"
  parityQ := some "nmd29"
  rdevOffsets := []
  slots_sorted := by decide

def threeDisksData (slot : Nat) : Vector UInt8 1 :=
  Vector.replicate 1 (if slot = 1 then 0x11 else if slot = 2 then 0x22 else 0x33)

def threeDisksIo : DeviceIo Id where
  size _ := pure 1
  readExact path _ len :=
    pure (Vector.replicate len (if path = "nmd1" then 0x11 else if path = "nmd2" then 0x22 else 0x33))
  writeAll _ _ _ := throw .other

def threeDisksInput (p q : Vector UInt8 1) : RecoveryInput 1 where
  failingSlot := 2
  corruptBlock := Vector.replicate 1 0xff
  unreadableSource := false
  otherBlocks := [(1, Vector.replicate 1 0x99), (3, Vector.replicate 1 0x33)]
  pBlock := some p
  qBlock := some q
  verifier b := b == [0x22]

theorem recoverBlock_exact_threeDisks : ∃ p q via,
    computeP threeDisksIo threeDisks 0 1 = pure p ∧ computeQ threeDisksIo threeDisks 0 1 = pure q ∧
      recoverBlock (threeDisksInput p q) = .ok (.recovered via (Vector.replicate 1 0x22)) := by
  have hreads : ∀ d ∈ threeDisks.dataDevs,
      readBlockOrZeros threeDisksIo threeDisks d.2 0 1 = pure (threeDisksData d.1) := by
    intro d hd
    simp only [threeDisks, List.mem_cons, List.not_mem_nil, or_false] at hd
    rcases hd with rfl | rfl | rfl <;> rfl
  obtain ⟨p, hp⟩ : ∃ p, computeP threeDisksIo threeDisks 0 1 = pure p :=
    ⟨_, DiskArray.computeP_eq hreads⟩
  obtain ⟨q, hq⟩ : ∃ q, computeQ threeDisksIo threeDisks 0 1 = pure q :=
    ⟨_, DiskArray.computeQ_eq hreads⟩
  have hdamage : Damage threeDisks threeDisksData p q (threeDisksInput p q) :=
    .other (fun s => if s = 1 then Vector.replicate 1 0x99 else threeDisksData s) 1
      ⟨[1, 3], (by decide : [1, 3].Perm (threeDisks.slots.filter (· != 2))), rfl⟩
      (fun s hs => if_neg hs) rfl rfl
  obtain ⟨via, h⟩ := recoverBlock_exact (by decide)
    { slots := by decide, reads := hreads, p_eq := hp, q_eq := hq }
    (by decide : 2 ∈ threeDisks.slots)
    (fun b => by
      change (b == [0x22]) = true ↔ b = [0x22]
      exact beq_iff_eq)
    (fun _ => (by decide : Vector.replicate 1 0xff ≠ threeDisksData 2)) hdamage
  exact ⟨p, q, via, hp, hq, h⟩

end Rotshield.Recovery
