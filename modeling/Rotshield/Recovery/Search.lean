import Rotshield.Recovery.DoubleFault

/-! The engine against the search that tries every reconstruction and takes no shortcut. -/
namespace Rotshield.Recovery
open Lib (ByteField)

variable {n : Nat}

/-- The two-disk solution against each other disk, in order. -/
def pairCandidates (p q : Vector UInt8 n) (others : List (Nat × Vector UInt8 n)) (failing : Nat) :
    List (Nat × Vector UInt8 n) → List (ParityPath × Vector UInt8 n)
  | [] => []
  | (partner, _) :: rest =>
      match solveTwoDisk p q others partner failing with
      | .ok (some block) => (.pq partner, block) :: pairCandidates p q others failing rest
      | _ => pairCandidates p q others failing rest

/-- Every reconstruction there is, in the order of the paths; the corrupt block has no part. -/
def candidates (input : RecoveryInput n) : List (ParityPath × Vector UInt8 n) :=
  (input.pBlock.map fun p => (.p, recoverViaP input.otherBlocks p)).toList ++
    ((input.qBlock.map fun q =>
      (.q, reconstructViaQ input.otherBlocks q input.failingSlot)).toList ++
    match input.pBlock, input.qBlock with
    | some p, some q => pairCandidates p q input.otherBlocks input.failingSlot input.otherBlocks
    | _, _ => [])

/-- The first reconstruction the verifier accepts. -/
def firstAccepted (input : RecoveryInput n) : Option (ParityPath × Vector UInt8 n) :=
  (candidates input).find? fun c => input.verifier c.2.toList

/-- The source is unreadable, or the verifier rejects what it holds. -/
def Rejected (input : RecoveryInput n) : Prop :=
  input.unreadableSource = false → input.verifier input.corruptBlock.toList = false

inductive Outcome (n : Nat) where
  | notCorrupt
  | recovered (via : ParityPath) (block : Vector UInt8 n)
  | failed
  deriving DecidableEq, Repr

/-- A result without the reasons of a failure. -/
def RecoveryResult.outcome : RecoveryResult n → Outcome n
  | .notCorrupt => .notCorrupt
  | .recovered via block => .recovered via block
  | .failed _ => .failed

/-- Check the source, then try everything. -/
def plainSearch (input : RecoveryInput n) : Outcome n :=
  if !input.unreadableSource && input.verifier input.corruptBlock.toList then .notCorrupt
  else match firstAccepted input with
    | some (via, block) => .recovered via block
    | none => .failed

section Stages
variable {input : RecoveryInput n}

/-- An accepted block is not the one that was rejected. -/
theorem Rejected.ne (hrejected : Rejected input) {b : Vector UInt8 n}
    (haccept : input.verifier b.toList = true) :
    input.unreadableSource = false → b ≠ input.corruptBlock := by
  rintro hreadable rfl
  rw [hrejected hreadable] at haccept
  cases haccept

theorem pPath_value {p c : Vector UInt8 n} (hp : input.pBlock = some p) (h : pPath input = .ok c) :
    c = recoverViaP input.otherBlocks p := by
  unfold pPath at h
  simp only [hp] at h
  split at h
  · cases h
  · split at h
    · cases h
      rfl
    · cases h

/-- The P shortcut hides nothing: P succeeds exactly where its reconstruction is accepted. -/
theorem pPath_iff (hrejected : Rejected input) (b : Vector UInt8 n) :
    pPath input = .ok b ↔ ∃ p, input.pBlock = some p ∧ b = recoverViaP input.otherBlocks p ∧
      input.verifier b.toList = true := by
  constructor
  · intro h
    have haccept := pPath_accepted h
    cases hp : input.pBlock with
    | none =>
        unfold pPath at h
        simp only [hp] at h
        cases h
    | some p => exact ⟨p, rfl, pPath_value hp h, haccept⟩
  · rintro ⟨p, hp, rfl, haccept⟩
    obtain ⟨c, hc⟩ := pPath_ok hp haccept (hrejected.ne haccept)
    rw [hc, pPath_value hp hc]

theorem recoverViaQ_value {blocks : List (Nat × Vector UInt8 n)} {q : Vector UInt8 n}
    {failing : Nat} {verifier : Bytes → Bool} {corrupt : Bytes} {b : Vector UInt8 n}
    (h : recoverViaQ blocks q failing verifier corrupt = .recovered b) :
    b = reconstructViaQ blocks q failing := by
  unfold recoverViaQ at h
  simp only at h
  split at h
  · cases h
  · split at h
    · cases h
      rfl
    · cases h

theorem qPath_value {q c : Vector UInt8 n} (hq : input.qBlock = some q) (h : qPath input = .ok c) :
    c = reconstructViaQ input.otherBlocks q input.failingSlot := by
  unfold qPath at h
  simp only [hq] at h
  split at h
  case h_1 hblock =>
      cases h
      exact recoverViaQ_value hblock
  · cases h
  · cases h

/-- Nor does the Q shortcut, which an unreadable source switches off with an empty comparison. -/
theorem qPath_iff (hn : 1 ≤ n) (hrejected : Rejected input) (b : Vector UInt8 n) :
    qPath input = .ok b ↔ ∃ q, input.qBlock = some q ∧
      b = reconstructViaQ input.otherBlocks q input.failingSlot ∧
        input.verifier b.toList = true := by
  constructor
  · intro h
    have haccept := qPath_accepted h
    cases hq : input.qBlock with
    | none =>
        unfold qPath at h
        simp only [hq] at h
        cases h
    | some q => exact ⟨q, rfl, qPath_value hq h, haccept⟩
  · rintro ⟨q, hq, rfl, haccept⟩
    obtain ⟨c, hc⟩ := qPath_ok hn hq haccept (hrejected.ne haccept)
    rw [hc, qPath_value hq hc]

/-- The loop over the partners finds the first solution that is accepted. -/
theorem tryPartners_eq {p q : Vector UInt8 n} (pReason qReason : FailureReason)
    {rest : List (Nat × Vector UInt8 n)}
    (hsolve : ∀ d ∈ rest, ∃ x,
      solveTwoDisk p q input.otherBlocks d.1 input.failingSlot = .ok (some x))
    (tried : List Nat) :
    ∃ result, tryPartners input p q pReason qReason rest tried = .ok result ∧
      result.outcome =
        match (pairCandidates p q input.otherBlocks input.failingSlot rest).find?
            fun c => input.verifier c.2.toList with
        | some (via, block) => .recovered via block
        | none => .failed := by
  induction rest generalizing tried with
  | nil => exact ⟨_, rfl, rfl⟩
  | cons d rest ih =>
      obtain ⟨x, hx⟩ := hsolve d List.mem_cons_self
      obtain ⟨s, block⟩ := d
      dsimp only at hx
      rw [tryPartners, pairCandidates, hx]
      by_cases haccept : input.verifier x.toList = true
      · refine ⟨.recovered (.pq s) x, if_pos haccept, ?_⟩
        rw [List.find?_cons_of_pos (by exact haccept)]
        rfl
      · obtain ⟨result, hrun, hresult⟩ :=
          ih (fun e he => hsolve e (List.mem_cons_of_mem _ he)) (tried ++ [s])
        refine ⟨result, ?_, ?_⟩
        · exact (if_neg haccept).trans hrun
        · rw [List.find?_cons_of_neg (by exact haccept)]
          exact hresult

end Stages

/-- The slots are those of data disks, and none of the others is the failing one. -/
structure RecoveryInput.Slotted (input : RecoveryInput n) : Prop where
  failing : 1 ≤ input.failingSlot ∧ input.failingSlot ≤ 255
  others : ∀ b ∈ input.otherBlocks, 1 ≤ b.1 ∧ b.1 ≤ 255
  distinct : (input.failingSlot :: input.otherBlocks.map Prod.fst).Nodup

namespace RecoveryInput.Slotted
variable {input : RecoveryInput n}

theorem ne_failing (h : input.Slotted) : ∀ b ∈ input.otherBlocks, b.1 ≠ input.failingSlot := by
  intro b hb heq
  have hmem : input.failingSlot ∈ input.otherBlocks.map Prod.fst := heq ▸ List.mem_map_of_mem hb
  exact (List.nodup_cons.mp h.distinct).1 hmem

theorem solves (h : input.Slotted) (p q : Vector UInt8 n) : ∀ d ∈ input.otherBlocks, ∃ x,
    solveTwoDisk p q input.otherBlocks d.1 input.failingSlot = .ok (some x) := by
  intro d hd
  obtain ⟨x, hx, _⟩ :=
    solveTwoDisk_eq p q h.others (h.others d hd) h.failing (h.ne_failing d hd)
  exact ⟨x, hx⟩

end RecoveryInput.Slotted

section Engine
variable {input : RecoveryInput n}

/-- A path that does not succeed has no accepted reconstruction. -/
theorem find?_toList_none {α : Type} {o : Option α} {accept : α → Bool}
    (h : ∀ a, o = some a → accept a = false) : o.toList.find? accept = none := by
  cases o with
  | none => rfl
  | some a => rw [Option.toList_some, List.find?_cons_of_neg (by rw [h a rfl]; exact nofun)]; rfl

theorem recoverBlock_rejected (hn : 1 ≤ n) (hslots : input.Slotted) (hrejected : Rejected input) :
    ∃ result, recoverBlock input = .ok result ∧
      result.outcome = match firstAccepted input with
        | some (via, block) => .recovered via block
        | none => .failed := by
  have hguard : ¬((!input.unreadableSource && input.verifier input.corruptBlock.toList) = true) := by
    intro h
    simp only [Bool.and_eq_true, Bool.not_eq_true'] at h
    rw [hrejected h.1] at h
    cases h.2
  unfold recoverBlock firstAccepted candidates
  rw [if_neg hguard, List.find?_append, List.find?_append]
  cases hp : pPath input with
  | ok b =>
      obtain ⟨p, hpBlock, rfl, haccept⟩ := (pPath_iff hrejected b).mp hp
      refine ⟨_, rfl, ?_⟩
      rw [hpBlock, Option.map_some, Option.toList_some,
        List.find?_cons_of_pos (by exact haccept), Option.some_or]
      rfl
  | error pReason =>
      have hpNone : (input.pBlock.map fun p =>
          (ParityPath.p, recoverViaP input.otherBlocks p)).toList.find?
            (fun c => input.verifier c.2.toList) = none := by
        apply find?_toList_none
        intro c hc
        obtain ⟨p, hpBlock, rfl⟩ := Option.map_eq_some_iff.mp hc
        rw [← Bool.not_eq_true]
        intro haccept
        have hok := (pPath_iff hrejected _).mpr ⟨p, hpBlock, rfl, haccept⟩
        rw [hp] at hok
        cases hok
      rw [hpNone, Option.none_or]
      cases hq : qPath input with
      | ok b =>
          obtain ⟨q, hqBlock, rfl, haccept⟩ := (qPath_iff hn hrejected b).mp hq
          refine ⟨_, rfl, ?_⟩
          rw [hqBlock, Option.map_some, Option.toList_some,
            List.find?_cons_of_pos (by exact haccept), Option.some_or]
          rfl
      | error qReason =>
          have hqNone : (input.qBlock.map fun q =>
              (ParityPath.q, reconstructViaQ input.otherBlocks q input.failingSlot)).toList.find?
                (fun c => input.verifier c.2.toList) = none := by
            apply find?_toList_none
            intro c hc
            obtain ⟨q, hqBlock, rfl⟩ := Option.map_eq_some_iff.mp hc
            rw [← Bool.not_eq_true]
            intro haccept
            have hok := (qPath_iff hn hrejected _).mpr ⟨q, hqBlock, rfl, haccept⟩
            rw [hq] at hok
            cases hok
          rw [hqNone, Option.none_or]
          cases hpBlock : input.pBlock with
          | none =>
              cases hqBlock : input.qBlock with
              | none => exact ⟨_, rfl, rfl⟩
              | some q => exact ⟨_, rfl, rfl⟩
          | some p =>
              cases hqBlock : input.qBlock with
              | none => exact ⟨_, rfl, rfl⟩
              | some q => exact tryPartners_eq pReason qReason (hslots.solves p q) []

/-- The engine is the plain search; for a rejected source the corrupt bytes do not matter. -/
theorem recoverBlock_eq_plainSearch (hn : 1 ≤ n) (input : RecoveryInput n)
    (hslots : input.Slotted) :
    (recoverBlock input).map RecoveryResult.outcome = .ok (plainSearch input) ∧
      ∀ corrupt : Vector UInt8 n, Rejected input →
        Rejected { input with corruptBlock := corrupt } →
          (recoverBlock { input with corruptBlock := corrupt }).map RecoveryResult.outcome =
            (recoverBlock input).map RecoveryResult.outcome := by
  have hsearch : ∀ input : RecoveryInput n, input.Slotted → Rejected input →
      (recoverBlock input).map RecoveryResult.outcome =
        .ok (match firstAccepted input with
          | some (via, block) => .recovered via block
          | none => .failed) := by
    intro input hslots hrejected
    obtain ⟨result, hrun, hresult⟩ := recoverBlock_rejected hn hslots hrejected
    rw [hrun, ← hresult]
    rfl
  constructor
  · unfold plainSearch
    by_cases hguard : (!input.unreadableSource && input.verifier input.corruptBlock.toList) = true
    · rw [if_pos hguard]
      unfold recoverBlock
      rw [if_pos hguard]
      rfl
    · rw [if_neg hguard]
      apply hsearch input hslots
      intro hreadable
      simpa [hreadable] using hguard
  · intro corrupt hrejected hrejected'
    have hslots' : RecoveryInput.Slotted { input with corruptBlock := corrupt } :=
      ⟨hslots.failing, hslots.others, hslots.distinct⟩
    rw [hsearch _ hslots' hrejected', hsearch _ hslots hrejected]
    rfl

end Engine

/-- An unreadable disk of the three, and both parities. -/
def unreadableInput : RecoveryInput 1 where
  failingSlot := 2
  corruptBlock := Vector.replicate 1 0
  unreadableSource := true
  otherBlocks := [(1, Vector.replicate 1 0x11), (3, Vector.replicate 1 0x33)]
  pBlock := some (Vector.replicate 1 0x22)
  qBlock := some (Vector.replicate 1 0x99)
  verifier b := b == [0x00]

theorem recoverBlock_eq_plainSearch_unreadable :
    unreadableInput.Slotted ∧
      (recoverBlock unreadableInput).map RecoveryResult.outcome =
        .ok (plainSearch unreadableInput) ∧
      Rejected unreadableInput ∧
      Rejected { unreadableInput with corruptBlock := Vector.replicate 1 0xff } ∧
      (recoverBlock { unreadableInput with corruptBlock := Vector.replicate 1 0xff }).map
        RecoveryResult.outcome = (recoverBlock unreadableInput).map RecoveryResult.outcome := by
  have hslots : unreadableInput.Slotted :=
    ⟨by decide, by decide, by decide⟩
  obtain ⟨hrun, hsame⟩ := recoverBlock_eq_plainSearch (by decide) unreadableInput hslots
  exact ⟨hslots, hrun, nofun, nofun, hsame _ nofun nofun⟩

end Rotshield.Recovery
