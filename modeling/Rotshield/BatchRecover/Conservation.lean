import Rotshield.BatchRecover.Pipeline

/-! Every candidate handed to the pipeline is classified exactly once, whatever the timing. -/
namespace Rotshield.BatchRecover

variable {σ : Type}

/-- A run in which the writer returned accounts for everything that was sent, unless the batch does
not fit in memory: then the accumulator panics, and the one candidate that may have been in its
channel is lost. In every reachable state the drain of what is pending ends, each flush consuming a
candidate. -/
theorem pipeline_conserves (env : WriterEnv σ) (args : WriterArgs) (batchMax : Nat)
    {s : Pipeline σ} (h : (pipeline env args batchMax).Reachable s) :
    (∀ stats, s.writer = .returned stats →
      (stats.deduped + stats.stale + stats.skipped + stats.mismatch = s.sent.length ∨
        maxCapacity < batchMax ∧ ∃ c, s.acc = .panicked [c] ∧ s.sent = [c] ∧
          stats.deduped + stats.stale + stats.skipped + stats.mismatch = 0) ∧
      stats.recovered + stats.failed + stats.notCorrupt + stats.notFrozen + stats.readbackFailed =
        stats.mismatch) ∧
    ∀ pending, s.writer = .draining pending →
      ((drain env args pending.length pending).run.run s.state).1 ≠ .error .drainFuel ∧
      ∀ deferred state, pending ≠ [] →
        (flushBatch env args pending).run.run s.state = (.ok deferred, state) →
        deferred.length < pending.length := by
  constructor
  · intro stats hend
    obtain ⟨⟨count, sectors, hledger, hcount, -⟩, rfl⟩ := Pipeline.returned_conserved h hend
    have hclassified := hledger.classified
    refine ⟨?_, hledger.settled⟩
    rcases Pipeline.returned_acc h hend with ⟨hacc, -⟩ | ⟨hacc, hoverflow, hlength⟩
    · left
      rw [hacc, Accumulator.held, List.length_nil, Nat.zero_add] at hcount
      exact hclassified.trans hcount.symm
    · rw [hacc, Accumulator.held] at hcount
      have hnone : s.state.books.stats.classified = 0 := by omega
      by_cases hempty : s.sent = []
      · left
        rw [hempty]
        exact hnone
      · right
        obtain ⟨c, hsent⟩ := List.length_eq_one_iff.mp
          (Nat.le_antisymm hlength (List.length_pos_of_ne_nil hempty))
        exact ⟨hoverflow, c, hsent ▸ hacc, hsent, hnone⟩
  · intro pending hdraining
    have hledger : ∃ count sectors, Ledger count 0 sectors s.state.books := by
      rcases Pipeline.reachable_sound h with hinv | ⟨why, hwhy⟩
      · obtain ⟨count, sectors, hledger, -⟩ := hinv.conserved
        exact ⟨count, sectors, hledger⟩
      · rw [hwhy] at hdraining
        cases hdraining
    obtain ⟨count, sectors, hledger⟩ := hledger
    constructor
    · intro hfuel
      exact (drain_account (Nat.le_refl _)).run_error hledger (Prod.ext hfuel rfl) rfl
    · intro deferred state hne hrun
      exact ((flushBatch_account pending).run_ok hledger hrun).shorter hne

/-! A run over one candidate, which the live metadata calls stale. -/

def staleEnv : WriterEnv Unit where
  io := { size := fun _ => throw .other, readExact := fun _ _ _ => throw .other,
          writeAll := fun _ _ _ => throw .other }
  freezePath _ := throw .other
  thawPath _ := throw .other
  now := pure 0
  reconfirm _ := pure .stale
  dropCache _ := throw .other
  isBlockDevice _ := pure false

def emptyArgs : WriterArgs where
  cfg := { dataDevs := [], parityP := none, parityQ := none, rdevOffsets := [],
           slots_sorted := .nil }
  scrubSlot := 1
  dryRun := false
  freezeTimeout := 0

def staleCandidate : Candidate where
  arrayPhys := 0
  blockSize := 1
  verify _ := false
  rawPhys := 0
  failingDev := "nmd1"
  reconfirm := some { token := 0, storedCsum := [] }
  unreadable := false

theorem pipeline_conserves_stale : ∃ s : Pipeline Unit, ∃ stats : BatchStats,
    (pipeline staleEnv emptyArgs 1).Reachable s ∧ s.writer = .returned stats ∧
      s.sent.length = 1 ∧ stats.stale = 1 ∧
      stats.deduped + stats.stale + stats.skipped + stats.mismatch = s.sent.length := by
  let R := (pipeline staleEnv emptyArgs 1).Reachable
  let step {s s' : Pipeline Unit} (h : R s) (hs : Pipeline.Step staleEnv emptyArgs 1 s s') : R s' :=
    .step h hs
  let c := staleCandidate
  let state : WriterState Unit := .start () none none
  have h : R (.start () none none) := .init ⟨(), none, none, rfl⟩
  have h : R ⟨.sending, [], [], .waiting, [], .receiving [], state⟩ :=
    step h (.allocate rfl (by decide))
  have h : R ⟨.sending, [c], [.candidate c], .waiting, [], .receiving [], state⟩ :=
    step h (.send c rfl (by decide) rfl)
  have h : R ⟨.sending, [c], [], .collecting [c], [], .receiving [], state⟩ :=
    step h (.recvFirst rfl rfl)
  have h : R ⟨.sending, [c], [], .sending [c], [], .receiving [], state⟩ :=
    step h (.batchFull rfl (by decide))
  have h : R ⟨.sending, [c], [], .waiting, [.batch [c]], .receiving [], state⟩ :=
    step h (.sendBatch rfl (by decide) rfl)
  have h := step h (.recvBatch rfl rfl)
  have h := step h (.sendDone rfl (by decide) rfl)
  have h := step h (.recvFirstDone rfl rfl)
  have h := step h (.nothingLeft rfl)
  have h := step h (.sendDoneB rfl (by decide) rfl)
  have h := step h (.recvDoneB rfl rfl)
  have h := step h (.drained rfl)
  refine ⟨_, _, h, rfl, rfl, rfl, ?_⟩
  rcases ((pipeline_conserves _ _ _ h).1 _ rfl).1 with hall | ⟨hoverflow, -⟩
  · exact hall
  · exact absurd hoverflow (by decide)

/-- With a batch that does not fit, a candidate is sent and none is classified. -/
theorem not_conserved_overflow : ∃ s : Pipeline Unit, ∃ stats : BatchStats,
    (pipeline staleEnv emptyArgs (2 ^ 62)).Reachable s ∧ s.writer = .returned stats ∧
      s.sent.length = 1 ∧
      stats.deduped + stats.stale + stats.skipped + stats.mismatch ≠ s.sent.length := by
  let step {s s' : Pipeline Unit} (h : (pipeline staleEnv emptyArgs (2 ^ 62)).Reachable s)
      (hs : Pipeline.Step staleEnv emptyArgs (2 ^ 62) s s') :
      (pipeline staleEnv emptyArgs (2 ^ 62)).Reachable s' := .step h hs
  have h : (pipeline staleEnv emptyArgs (2 ^ 62)).Reachable (.start () none none) :=
    .init ⟨(), none, none, rfl⟩
  have h := step h (.send staleCandidate rfl (by decide) rfl)
  have h := step h (.panic rfl (by decide))
  have h := step h (.dropSender rfl)
  have h := step h (.disconnectedB rfl rfl rfl)
  have h := step h (.drained rfl)
  exact ⟨_, _, h, rfl, rfl, by decide⟩

end Rotshield.BatchRecover
