import Rotshield.BatchRecover.Spec

/-! Accounting: every candidate a flush consumes is classified once, and every mismatch
ends in one outcome. -/
namespace Rotshield.BatchRecover
open Lib (Triple)

variable {σ : Type}

def BatchStats.stage (s : BatchStats) : Stage → Nat
  | .stale => s.stale
  | .skipped => s.skipped
  | .mismatch => s.mismatch

@[simp] theorem classified_countStage (s : BatchStats) (v : Stage) :
    (s.countStage v).classified = s.classified + 1 := by
  cases v <;> simp only [BatchStats.countStage, BatchStats.classified] <;> omega

@[simp] theorem settled_countStage (s : BatchStats) (v : Stage) :
    (s.countStage v).settled = s.settled := by
  cases v <;> rfl

@[simp] theorem classified_countOutcome (s : BatchStats) (o : Outcome) :
    (s.countOutcome o).classified = s.classified := by
  cases o <;> rfl

@[simp] theorem settled_countOutcome (s : BatchStats) (o : Outcome) :
    (s.countOutcome o).settled = s.settled + 1 := by
  cases o <;> simp only [BatchStats.countOutcome, BatchStats.settled] <;> omega

@[simp] theorem mismatch_countOutcome (s : BatchStats) (o : Outcome) :
    (s.countOutcome o).mismatch = s.mismatch := by
  cases o <;> rfl

@[simp] theorem stage_countOutcome (s : BatchStats) (o : Outcome) (v : Stage) :
    (s.countOutcome o).stage v = s.stage v := by
  cases o <;> cases v <;> rfl

theorem mismatch_countStage (s : BatchStats) (v : Stage) :
    (s.countStage v).mismatch = s.mismatch + (if v = .mismatch then 1 else 0) := by
  cases v <;> rfl

theorem stage_countStage (s : BatchStats) (v w : Stage) :
    (s.countStage v).stage w = s.stage w + (if v = w then 1 else 0) := by
  cases v <;> cases w <;> rfl

/-- The accounts after `count` candidates were consumed, `unsettled` of the mismatches still
being recovered, and every sector of `sectors` classified. -/
structure Ledger (count unsettled : Nat) (sectors : List Nat) (b : Books) : Prop where
  classified : b.stats.classified = count
  settled : b.stats.settled + unsettled = b.stats.mismatch
  listed : ∀ a ∈ sectors, ∃ v, Event.classify a v ∈ b.trace
  counted : ∀ a v, Event.classify a v ∈ b.trace → 0 < b.stats.stage v

namespace Ledger
variable {count unsettled : Nat} {sectors : List Nat} {b : Books}

theorem note (h : Ledger count unsettled sectors b) {e : Event}
    (he : ∀ a v, e ≠ .classify a v) : Ledger count unsettled sectors (b.note e) where
  classified := h.classified
  settled := h.settled
  listed a ha := by
    obtain ⟨v, hv⟩ := h.listed a ha
    exact ⟨v, List.mem_cons_of_mem e hv⟩
  counted a v hv := by
    cases hv with
    | head => exact absurd rfl (he a v)
    | tail _ hv => exact h.counted a v hv

theorem setFreeze (h : Ledger count unsettled sectors b) (c : FreezeController) :
    Ledger count unsettled sectors (b.setFreeze c) :=
  ⟨h.classified, h.settled, h.listed, h.counted⟩

theorem repairedWhileMounted (h : Ledger count unsettled sectors b) :
    Ledger count unsettled sectors b.repairedWhileMounted :=
  ⟨h.classified, h.settled, h.listed, h.counted⟩

theorem dedup (h : Ledger count unsettled sectors b) (k : Nat) :
    Ledger (count + k) unsettled sectors (b.dedup k) where
  classified := by
    rw [← h.classified]
    simp only [Books.dedup, BatchStats.classified]
    omega
  settled := h.settled
  listed := h.listed
  counted a v hv := by
    have := h.counted a v hv
    cases v <;> exact this

theorem classify (h : Ledger count 0 sectors b) (a : Nat) (v : Stage) :
    Ledger (count + 1) (if v = .mismatch then 1 else 0) (a :: sectors) (b.classify a v) where
  classified := by rw [← h.classified]; exact classified_countStage _ _
  settled := by
    have := h.settled
    simp only [Books.classify, settled_countStage, mismatch_countStage]
    omega
  listed a' ha' := by
    cases ha' with
    | head => exact ⟨v, List.mem_cons_self⟩
    | tail _ ha' =>
        obtain ⟨w, hw⟩ := h.listed a' ha'
        exact ⟨w, List.mem_cons_of_mem _ hw⟩
  counted a' w hw := by
    simp only [Books.classify, stage_countStage]
    cases hw with
    | head => simp
    | tail _ hw => exact Nat.add_pos_left (h.counted a' w hw) _

theorem settle (h : Ledger count 1 sectors b) (a : Nat) (o : Outcome) :
    Ledger count 0 sectors (b.settle a o) where
  classified := by rw [← h.classified]; exact classified_countOutcome _ _
  settled := by
    have := h.settled
    simp only [Books.settle, settled_countOutcome, mismatch_countOutcome]
    omega
  listed a' ha' := by
    obtain ⟨v, hv⟩ := h.listed a' ha'
    exact ⟨v, List.mem_cons_of_mem _ hv⟩
  counted a' v hv := by
    simp only [Books.settle, stage_countOutcome]
    cases hv with
    | tail _ hv => exact h.counted a' v hv

end Ledger

section Account
variable {count unsettled : Nat} {sectors : List Nat} {env : WriterEnv σ} {args : WriterArgs}

/-- Nothing is promised of the accounts when the writer stops, but it never stops for lack
of fuel. -/
abbrev Account (pre : Books → Prop) {α : Type} (x : WriterM σ α) (post : α → Books → Prop) : Prop :=
  Spec pre x post fun e _ => e ≠ .drainFuel

theorem confirm_account (cand : Candidate) :
    Account (Ledger count unsettled sectors) (confirm env args cand)
      fun _ => Ledger count unsettled sectors := by
  unfold confirm
  refine Spec.bind (fun _ => Ledger count unsettled sectors) ?_ fun verdict => ?_
  · exact spec_verdictOf (fun _ hb _ => hb) fun _ _ _ hb _ => hb.note (by simp)
  · cases verdict with
    | stale => exact Spec.pure fun _ hb => hb
    | unverifiable => exact Spec.pure fun _ hb => hb
    | corruption =>
        exact spec_rereadFailing (fun _ hb _ => hb) (fun _ _ hb _ => hb.note (by simp))
          fun _ hb _ => hb.note (by simp)

theorem recover_account {hasLiveMount writesAllowed : Bool} (cand : Candidate)
    (block : Vector UInt8 cand.blockSize) (unreadable : Bool) :
    Account (Ledger count unsettled sectors)
      (recover env args hasLiveMount writesAllowed cand block unreadable)
      fun _ => Ledger count unsettled sectors :=
  spec_recover (fun _ _ _ => by simp) (fun _ _ hb => hb) (fun _ _ hb _ _ _ => hb.note (by simp))
    (fun _ hb => hb.repairedWhileMounted) fun _ _ hb => hb

theorem processCandidate_account {hasLiveMount writesAllowed : Bool} (cand : Candidate) :
    Account (Ledger count 0 sectors) (processCandidate env args hasLiveMount writesAllowed cand)
      fun _ => Ledger (count + 1) 0 (cand.arrayPhys :: sectors) := by
  unfold processCandidate
  refine Spec.bind (fun _ => Ledger count 0 sectors) ?_ fun _ => ?_
  · exact Spec.onBooks fun _ hb => hb.note (by simp)
  refine Spec.bind _ (confirm_account cand) fun confirmed => ?_
  cases confirmed with
  | stale => exact Spec.onBooks fun _ hb => hb.classify cand.arrayPhys .stale
  | skipped => exact Spec.onBooks fun _ hb => hb.classify cand.arrayPhys .skipped
  | corrupt block unreadable =>
      refine Spec.bind (fun _ => Ledger (count + 1) 1 (cand.arrayPhys :: sectors)) ?_
        fun _ => ?_
      · exact Spec.onBooks fun _ hb => hb.classify cand.arrayPhys .mismatch
      refine Spec.bind _ (recover_account cand block unreadable) fun outcome => ?_
      exact Spec.onBooks fun _ hb => hb.settle cand.arrayPhys outcome

theorem windowExpired_keeps {pre : Books → Prop} {fail : Stop → Books → Prop} {writesAllowed : Bool}
    {started : Nat} (first : Bool) :
    Spec pre (windowExpired env args writesAllowed started first)
      (fun expired b => pre b ∧ (first = true → expired = false)) fail := by
  unfold windowExpired
  cases first with
  | true => exact Spec.pure fun _ hb => ⟨hb, fun _ => rfl⟩
  | false =>
      cases writesAllowed with
      | false => exact Spec.pure fun _ hb => ⟨hb, fun h => by cases h⟩
      | true =>
          refine Spec.bind _ (Spec.world (fun _ => pre) fun _ _ hb => hb) fun now => ?_
          exact Spec.pure fun _ hb => ⟨hb, fun h => by cases h⟩

/-- What a loop over a batch leaves: a prefix was consumed, not empty on a first pass. -/
def Consumed (count : Nat) (sectors : List Nat) (first : Bool) (batch deferred : List Candidate)
    (b : Books) : Prop :=
  ∃ done, batch = done ++ deferred ∧
    Ledger (count + done.length) 0 (done.map Candidate.arrayPhys ++ sectors) b ∧
    (first = true → batch ≠ [] → done ≠ [])

/-- The loop, by induction on the batch. -/
theorem flushLoop_account {hasLiveMount writesAllowed : Bool} {started : Nat} (first : Bool)
    (batch : List Candidate) :
    Account (Ledger count 0 sectors)
      (flushLoop env args hasLiveMount writesAllowed started first batch)
      (Consumed count sectors first batch) := by
  induction batch generalizing count sectors first with
  | nil => exact Spec.pure fun b hb => ⟨[], rfl, hb, fun _ h => absurd rfl h⟩
  | cons cand rest ih =>
      unfold flushLoop
      refine Spec.bind _ (windowExpired_keeps first) fun expired => ?_
      cases expired with
      | true =>
          refine Spec.pure fun b hb => ⟨[], rfl, hb.1, fun hfirst => ?_⟩
          exact absurd (hb.2 hfirst) Bool.true_eq_false.mp
      | false =>
          refine Spec.bind _ ((processCandidate_account cand).conseq (fun _ hb => hb.1)
            fun _ _ hb => hb) fun _ => ?_
          refine (ih false).conseq (fun _ hb => hb) fun deferred b hb => ?_
          obtain ⟨done, hsplit, hledger, -⟩ := hb
          refine ⟨cand :: done, by rw [hsplit]; rfl, ?_, fun _ _ => List.cons_ne_nil _ _⟩
          obtain ⟨h1, h2, h3, h4⟩ := hledger
          refine ⟨by rw [h1, List.length_cons]; omega, h2, ?_, h4⟩
          intro a ha
          apply h3
          simp only [List.map_cons, List.cons_append, List.mem_cons, List.mem_append] at ha ⊢
          tauto

end Account

/-! ### Sorting and deduplication -/

theorem dedupAfter_sublist (phys : Nat) (l : List Candidate) : (dedupAfter phys l).Sublist l := by
  induction l generalizing phys with
  | nil => exact List.Sublist.refl _
  | cons c rest ih =>
      rw [dedupAfter]
      split
      · exact (ih phys).cons c
      · exact (ih c.arrayPhys).cons_cons c

theorem dedupByPhys_sublist (l : List Candidate) : (dedupByPhys l).Sublist l := by
  cases l with
  | nil => exact List.Sublist.refl _
  | cons c rest => exact (dedupAfter_sublist c.arrayPhys rest).cons_cons c

theorem dedupAfter_covers (phys : Nat) (l : List Candidate) :
    ∀ c ∈ l, c.arrayPhys = phys ∨ ∃ c' ∈ dedupAfter phys l, c'.arrayPhys = c.arrayPhys := by
  induction l generalizing phys with
  | nil =>
      intro c hc
      cases hc
  | cons d rest ih =>
      intro c hc
      rw [dedupAfter]
      split
      case isTrue heq =>
          cases hc with
          | head => exact .inl heq
          | tail _ hc => exact ih phys c hc
      case isFalse =>
          right
          cases hc with
          | head => exact ⟨d, List.mem_cons_self, rfl⟩
          | tail _ hc =>
              rcases ih d.arrayPhys c hc with heq | ⟨c', hc', heq⟩
              · exact ⟨d, List.mem_cons_self, heq.symm⟩
              · exact ⟨c', List.mem_cons_of_mem d hc', heq⟩

/-- Every candidate keeps a representative of its sector. -/
theorem dedupByPhys_covers (l : List Candidate) :
    ∀ c ∈ l, ∃ c' ∈ dedupByPhys l, c'.arrayPhys = c.arrayPhys := by
  intro c hc
  cases l with
  | nil => cases hc
  | cons d rest =>
      cases hc with
      | head => exact ⟨c, List.mem_cons_self, rfl⟩
      | tail _ hc =>
          rcases dedupAfter_covers d.arrayPhys rest c hc with heq | ⟨c', hc', heq⟩
          · exact ⟨d, List.mem_cons_self, heq.symm⟩
          · exact ⟨c', List.mem_cons_of_mem d hc', heq⟩

theorem sortByPhys_perm (l : List Candidate) : (sortByPhys l).Perm l := List.perm_insertionSort _ l

/-- The batch of a flush: a part of what is pending that has every sector of it. -/
def batchOf (pending : List Candidate) : List Candidate := dedupByPhys (sortByPhys pending)

theorem batchOf_length_le (pending : List Candidate) : (batchOf pending).length ≤ pending.length :=
  ((dedupByPhys_sublist _).length_le).trans (sortByPhys_perm pending).length_eq.le

theorem batchOf_subset (pending : List Candidate) : ∀ c ∈ batchOf pending, c ∈ pending := fun _ hc =>
  (sortByPhys_perm pending).subset ((dedupByPhys_sublist _).subset hc)

theorem batchOf_covers (pending : List Candidate) :
    ∀ c ∈ pending, ∃ c' ∈ batchOf pending, c'.arrayPhys = c.arrayPhys := fun c hc =>
  dedupByPhys_covers _ c ((sortByPhys_perm pending).symm.subset hc)

theorem batchOf_ne_nil {pending : List Candidate} (h : pending ≠ []) : batchOf pending ≠ [] := by
  obtain ⟨c, hc⟩ := List.exists_mem_of_ne_nil _ h
  obtain ⟨c', hc', -⟩ := batchOf_covers pending c hc
  exact List.ne_nil_of_mem hc'

/-! ### One flush, the drain, and the whole writer -/

section Flush
variable {count : Nat} {sectors : List Nat} {env : WriterEnv σ} {args : WriterArgs}

/-- A flush consumes what it does not defer: at least one candidate unless nothing is pending.
Each sector of the pending list is classified or still has a deferred candidate. -/
structure Flushed (count : Nat) (sectors : List Nat) (pending deferred : List Candidate)
    (b : Books) : Prop where
  shorter : pending ≠ [] → deferred.length < pending.length
  subset : ∀ c ∈ deferred, c ∈ pending
  ledger : ∃ now, Ledger (count + (pending.length - deferred.length)) 0 (now ++ sectors) b ∧
    ∀ c ∈ pending, c.arrayPhys ∈ now ∨ ∃ c' ∈ deferred, c'.arrayPhys = c.arrayPhys

theorem thaw_account {fail : Stop → Books → Prop} :
    Spec (Ledger count 0 sectors) (thaw env) (fun _ => Ledger count 0 sectors) fail :=
  spec_thaw (fun _ hb _ => hb) (fun _ hb _ => hb.setFreeze _)
    fun _ _ hb _ _ => (hb.setFreeze _).note (by simp)

theorem consumed_flushed {pending deferred : List Candidate} {b : Books}
    (h : Consumed (count + (pending.length - (batchOf pending).length)) sectors true
      (batchOf pending) deferred b) : Flushed count sectors pending deferred b := by
  obtain ⟨done, hsplit, hledger, hdone⟩ := h
  have hlen := congrArg List.length hsplit
  rw [List.length_append] at hlen
  have hle := batchOf_length_le pending
  refine ⟨fun hne => ?_, fun c hc => ?_, done.map Candidate.arrayPhys, ?_, fun c hc => ?_⟩
  · have hpos := List.length_pos_of_ne_nil (hdone rfl (batchOf_ne_nil hne))
    omega
  · exact batchOf_subset pending c (by rw [hsplit]; exact List.mem_append_right done hc)
  · have hcount : count + (pending.length - (batchOf pending).length) + done.length =
        count + (pending.length - deferred.length) := by omega
    rwa [hcount] at hledger
  · obtain ⟨c', hc', heq⟩ := batchOf_covers pending c hc
    rw [hsplit] at hc'
    rcases List.mem_append.mp hc' with hc' | hc'
    · exact .inl (List.mem_map.mpr ⟨c', hc', heq⟩)
    · exact .inr ⟨c', hc', heq⟩

theorem flushBatch_account (pending : List Candidate) :
    Account (Ledger count 0 sectors) (flushBatch env args pending)
      (Flushed count sectors pending) := by
  unfold flushBatch
  have hkeep {p : Books → Prop} {α : Type} {y : StateM σ α} :
      Account p (world y) fun _ => p := Spec.world _ fun _ _ hb => hb
  refine Spec.bind (fun _ =>
    Ledger (count + (pending.length - (batchOf pending).length)) 0 sectors) ?_ fun _ => ?_
  · exact Spec.onBooks fun _ hb => (hb.dedup _).note (by simp)
  refine Spec.bind _ (Spec.books (fun _ =>
    Ledger (count + (pending.length - (batchOf pending).length)) 0 sectors) fun _ hb => hb)
    fun b => ?_
  refine Spec.bind (fun _ =>
    Ledger (count + (pending.length - (batchOf pending).length)) 0 sectors) ?_ fun guarded => ?_
  · exact spec_guard (fun _ hb _ => hb) (fun _ hb _ => (hb.setFreeze _).note (by simp))
      fun _ _ hb _ => hb.note (by simp)
  refine Spec.bind _ hkeep fun started => ?_
  refine Spec.bind _ ((flushLoop_account true (batchOf pending)).conseq (fun _ hb => hb)
    fun deferred b hb => consumed_flushed hb) fun deferred => ?_
  refine Spec.bind (fun _ => Flushed count sectors pending deferred) ?_ fun _ => ?_
  · unfold releaseGuard
    split
    case isFalse => exact Spec.pure fun _ hb => hb
    case isTrue =>
        refine Spec.of_forall fun b₀ hb₀ => ?_
        obtain ⟨hshorter, hsubset, now, hledger, hcover⟩ := hb₀
        exact thaw_account.conseq (fun b hb => hb ▸ hledger)
          fun _ b hb => ⟨hshorter, hsubset, now, hb, hcover⟩
  refine Spec.bind (fun _ => Flushed count sectors pending deferred) ?_ fun err => ?_
  · exact spec_takeThawError fun b hb => by
      obtain ⟨hshorter, hsubset, now, hledger, hcover⟩ := hb
      exact ⟨hshorter, hsubset, now, hledger.setFreeze _, hcover⟩
  · cases err with
    | some e => exact Spec.throw fun _ _ => by simp
    | none => exact Spec.pure fun _ hb => hb

/-- The drain, by induction on the fuel: each flush leaves strictly fewer candidates, so as
much fuel as there are pending candidates is enough. -/
theorem drain_account {fuel : Nat} {pending : List Candidate} (hfuel : pending.length ≤ fuel) :
    Account (Ledger count 0 sectors) (drain env args fuel pending)
      fun _ b => ∃ now, Ledger (count + pending.length) 0 (now ++ sectors) b ∧
        ∀ c ∈ pending, c.arrayPhys ∈ now := by
  induction fuel generalizing count sectors pending with
  | zero =>
      obtain rfl : pending = [] := List.eq_nil_of_length_eq_zero (by omega)
      exact Spec.pure fun b hb => ⟨[], hb, fun c hc => by cases hc⟩
  | succ fuel ih =>
      cases pending with
      | nil => exact Spec.pure fun b hb => ⟨[], hb, fun c hc => by cases hc⟩
      | cons c rest =>
          unfold drain
          refine Spec.bind _ (flushBatch_account (c :: rest)) fun deferred => ?_
          refine Spec.of_forall fun b₀ hflushed => ?_
          obtain ⟨hshorter, -, now, hledger, hcover⟩ := hflushed
          have hlt := hshorter (List.cons_ne_nil c rest)
          refine (ih (by omega)).conseq (fun b hb => hb ▸ hledger) fun _ b hb => ?_
          obtain ⟨now', hledger', hcover'⟩ := hb
          refine ⟨now' ++ now, ?_, fun d hd => ?_⟩
          · have hcount : count + ((c :: rest).length - deferred.length) + deferred.length =
                count + (c :: rest).length := by omega
            rwa [hcount, ← List.append_assoc] at hledger'
          · rcases hcover d hd with hmem | ⟨d', hd', heq⟩
            · exact List.mem_append_right _ hmem
            · exact List.mem_append_left _ (heq ▸ hcover' d' hd')

/-- The writer's loop over any messages, from any pending list: it accounts for them all. -/
theorem runWriterLoop_account {msgs : List BatchMsg} {pending : List Candidate} :
    Account (Ledger count 0 sectors) (runWriterLoop env args msgs pending)
      fun stats b => stats = b.stats ∧ ∃ count' sectors', Ledger count' 0 sectors' b := by
  have hend (pending : List Candidate) {count : Nat} {sectors : List Nat} :
      Account (Ledger count 0 sectors)
        (do drain env args pending.length pending; return (← books).stats : WriterM σ BatchStats)
        fun stats b => stats = b.stats ∧ ∃ count' sectors', Ledger count' 0 sectors' b := by
    refine Spec.bind _ (drain_account (Nat.le_refl _)) fun _ => ?_
    refine Spec.bind _ (Spec.books (fun a b => a = b ∧ ∃ count' sectors',
      Ledger count' 0 sectors' b) fun b hb => ?_) fun b => ?_
    · obtain ⟨now, hledger, -⟩ := hb
      exact ⟨rfl, _, _, hledger⟩
    · exact Spec.pure fun b' hb => ⟨congrArg Books.stats hb.1, hb.2⟩
  induction msgs generalizing count sectors pending with
  | nil => exact hend pending
  | cons msg msgs ih =>
      cases msg with
      | done => exact hend pending
      | batch batch =>
          refine Spec.bind _ (flushBatch_account (pending ++ batch)) fun deferred => ?_
          refine Spec.of_forall fun b₀ hflushed => ?_
          obtain ⟨-, -, now, hledger, -⟩ := hflushed
          exact ih.conseq (fun b hb => hb ▸ hledger) fun _ _ hb => hb

end Flush
end Rotshield.BatchRecover
