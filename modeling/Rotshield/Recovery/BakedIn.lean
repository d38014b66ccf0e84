import Rotshield.Recovery.DoubleFault

/-! Parity that was rebuilt from the corrupt contents only gives the corrupt block back. -/
namespace Rotshield.Recovery
open Lib (ByteField)
open DiskArray (ArrayConfig DeviceIo readBlockOrZeros computeP computeQ)

variable {n : Nat} {input : RecoveryInput n} {p q : Vector UInt8 n}

theorem pPath_bakedIn (hp : input.pBlock = some p) (hreadable : input.unreadableSource = false)
    (hsame : recoverViaP input.otherBlocks p = input.corruptBlock) :
    pPath input = .error (.parityBakedIn .p) := by
  unfold pPath
  simp only [hp]
  apply if_pos
  simp only [hreadable, Bool.not_false, Bool.true_and, List.all_eq_true, beq_iff_eq]
  intro x hx
  obtain ⟨i, hi, rfl⟩ := List.getElem_of_mem hx
  rw [Vector.length_toList] at hi
  have hzero : sym (xorInplace (input.otherBlocks.foldl (fun acc b => xorInplace acc b.2)
      input.corruptBlock) p) ⟨i, hi⟩ = 0 := by
    rw [sym_xor, sym_foldl_xor, add_assoc, ← sym_recoverViaP, hsame]
    exact CharTwo.add_self_eq_zero _
  have hbyte := congrArg ByteField.byte hzero
  simpa [sym] using hbyte

theorem qPath_bakedIn (hq : input.qBlock = some q) (hreadable : input.unreadableSource = false)
    (hsame : reconstructViaQ input.otherBlocks q input.failingSlot = input.corruptBlock) :
    qPath input = .error (.parityBakedIn .q) := by
  unfold qPath recoverViaQ
  simp only [hq, hreadable, hsame, Bool.false_eq_true, if_false, if_true]

/-- Where every solution is a rejected block, the loop tries every partner and fails. -/
theorem tryPartners_rejected (pReason qReason : FailureReason) {b : Vector UInt8 n}
    (hrejects : input.verifier b.toList = false) {rest : List (Nat × Vector UInt8 n)}
    (hsolve : ∀ d ∈ rest,
      solveTwoDisk p q input.otherBlocks d.1 input.failingSlot = .ok (some b)) (tried : List Nat) :
    tryPartners input p q pReason qReason rest tried =
      .ok (.failed (.allPathsFailed pReason qReason (tried ++ rest.map Prod.fst))) := by
  induction rest generalizing tried with
  | nil =>
      rw [List.map_nil, List.append_nil]
      rfl
  | cons d rest ih =>
      have hd := hsolve d List.mem_cons_self
      obtain ⟨s, block⟩ := d
      have hrest := ih (fun e he => hsolve e (List.mem_cons_of_mem _ he)) (tried ++ [s])
      rw [List.append_assoc, List.singleton_append] at hrest
      rw [tryPartners, hd]
      change (if input.verifier b.toList then _ else _) = _
      rw [hrejects, if_neg Bool.false_ne_true]
      exact hrest

/-- P and Q of the current contents reproduce the current block on every path, and the engine
says so. -/
theorem recoverBlock_bakedIn {io : DeviceIo Id} {config : ArrayConfig} {arrayPhys : Nat}
    {data : Nat → Vector UInt8 n} {p q : Vector UInt8 n}
    (hcurrent : Originals io config arrayPhys data p q) {input : RecoveryInput n}
    (hfailing : input.failingSlot ∈ config.slots) (hothers : Supplies config data input)
    (hcorrupt : input.corruptBlock = data input.failingSlot)
    (hreadable : input.unreadableSource = false)
    (hrejects : input.verifier input.corruptBlock.toList = false)
    (hp : input.pBlock = some p) (hq : input.qBlock = some q) :
    recoverViaP input.otherBlocks p = input.corruptBlock ∧
      reconstructViaQ input.otherBlocks q input.failingSlot = input.corruptBlock ∧
      (∀ b ∈ input.otherBlocks, solveTwoDisk p q input.otherBlocks b.1 input.failingSlot =
        .ok (some input.corruptBlock)) ∧
      recoverBlock input = .ok (.failed (.allPathsFailed (.parityBakedIn .p) (.parityBakedIn .q)
        (input.otherBlocks.map Prod.fst))) := by
  have hviaP : recoverViaP input.otherBlocks p = input.corruptBlock := by
    rw [hcorrupt]
    exact recoverViaP_exact hcurrent hfailing hothers
  have hviaQ : reconstructViaQ input.otherBlocks q input.failingSlot = input.corruptBlock := by
    rw [hcorrupt]
    exact reconstructViaQ_exact hcurrent hfailing hothers
  have hpairs : ∀ b ∈ input.otherBlocks, solveTwoDisk p q input.otherBlocks b.1 input.failingSlot =
      .ok (some input.corruptBlock) := by
    intro b hb
    have hne := (otherBlocks_slots hcurrent hothers b hb).2
    have hslot : b.1 ∈ config.slots := by
      obtain ⟨order, horder, hblocks⟩ := hothers
      rw [hblocks] at hb
      obtain ⟨s, hs, rfl⟩ := List.mem_map.mp hb
      exact (List.mem_filter.mp (horder.subset hs)).1
    rw [hcorrupt]
    exact solveTwoDisk_exact hcurrent hfailing hothers (fun _ _ => rfl) hslot hne
  refine ⟨hviaP, hviaQ, hpairs, ?_⟩
  unfold recoverBlock
  rw [if_neg (by rw [hreadable, hrejects]; exact Bool.false_ne_true), pPath_bakedIn hp hreadable hviaP]
  dsimp only
  rw [qPath_bakedIn hq hreadable hviaQ]
  simp only [hp, hq]
  exact tryPartners_rejected _ _ hrejects hpairs []

/-- The three disks as they are, under a verifier that wants another block in slot 2. -/
def bakedInput (p q : Vector UInt8 1) : RecoveryInput 1 where
  failingSlot := 2
  corruptBlock := Vector.replicate 1 0x22
  unreadableSource := false
  otherBlocks := [(1, Vector.replicate 1 0x11), (3, Vector.replicate 1 0x33)]
  pBlock := some p
  qBlock := some q
  verifier b := b == [0x44]

theorem recoverBlock_bakedIn_threeDisks : ∃ p q,
    computeP threeDisksIo threeDisks 0 1 = pure p ∧ computeQ threeDisksIo threeDisks 0 1 = pure q ∧
      recoverBlock (bakedInput p q) =
        .ok (.failed (.allPathsFailed (.parityBakedIn .p) (.parityBakedIn .q) [1, 3])) := by
  have hreads : ∀ d ∈ threeDisks.dataDevs,
      readBlockOrZeros threeDisksIo threeDisks d.2 0 1 = pure (threeDisksData d.1) := by
    intro d hd
    simp only [threeDisks, List.mem_cons, List.not_mem_nil, or_false] at hd
    rcases hd with rfl | rfl | rfl <;> rfl
  obtain ⟨p, hp⟩ : ∃ p, computeP threeDisksIo threeDisks 0 1 = pure p :=
    ⟨_, DiskArray.computeP_eq hreads⟩
  obtain ⟨q, hq⟩ : ∃ q, computeQ threeDisksIo threeDisks 0 1 = pure q :=
    ⟨_, DiskArray.computeQ_eq hreads⟩
  have hcurrent : Originals threeDisksIo threeDisks 0 threeDisksData p q :=
    { slots := by decide, reads := hreads, p_eq := hp, q_eq := hq }
  have hothers : Supplies threeDisks threeDisksData (bakedInput p q) :=
    ⟨[1, 3], (by decide : [1, 3].Perm (threeDisks.slots.filter (· != 2))), rfl⟩
  have hall := recoverBlock_bakedIn hcurrent (by decide : 2 ∈ threeDisks.slots) hothers rfl rfl rfl
    rfl rfl
  exact ⟨p, q, hp, hq, hall.2.2.2⟩

end Rotshield.Recovery
