import Rotshield.BatchRecover.Keep
import Rotshield.BatchRecover.Sequential
import Rotshield.BatchRecover.WriteSafety

/-! Every verdict of the writer has its evidence in the trace, and every counter is the number of
its verdicts. -/
namespace Rotshield.BatchRecover

variable {σ : Type}

/-! ### The evidence of a verdict -/

/-- Why a candidate is given its stage, by what happened since it was taken up. -/
inductive Evidence (cand : Candidate) (events : List Event) : Stage → Prop where
  /-- The live metadata no longer has the sector's checksum. -/
  | moved (req : ReconfirmRequest) (asked : cand.reconfirm = some req)
      (answer : .reconfirm req .stale ∈ events) : Evidence cand events .stale
  /-- The fresh read gives bytes that verify. -/
  | rewritten (bytes : Bytes)
      (read : .reread cand.failingDev cand.arrayPhys (some bytes) ∈ events)
      (verifies : cand.verify bytes = true) : Evidence cand events .stale
  | unverifiable (req : ReconfirmRequest) (asked : cand.reconfirm = some req)
      (answer : .reconfirm req .unverifiable ∈ events) : Evidence cand events .skipped
  /-- The live metadata stands by the checksum, and the fresh read does not verify. -/
  | stands (asked : ∀ req, cand.reconfirm = some req → .reconfirm req .corruption ∈ events)
      (read : cand.unreadable = false →
        ∃ got, .reread cand.failingDev cand.arrayPhys got ∈ events ∧
          ∀ bytes, got = some bytes → cand.verify bytes = false) :
      Evidence cand events .mismatch

/-- What comes before an outcome: the same round found the mismatch, and a repair run wrote what
it calls recovered. -/
structure Ended (args : WriterArgs) (cand : Candidate) (outcome : Outcome) (older : List Event) :
    Prop where
  found : .classify cand.arrayPhys .mismatch ∈ sinceTake older
  wrote : outcome = .recovered → args.dryRun = false →
    ∃ data, .write cand.failingDev cand.arrayPhys data ∈ sinceTake older ∧ cand.verify data = true

/-- Each verdict of the trace is about the candidate of its round, and has its evidence. -/
def Evident (args : WriterArgs) (given : List Candidate) : List Event → Prop
  | [] => True
  | .classify a v :: older => Evident args given older ∧
      ∃ cand ∈ given, currentCandidate older = some cand ∧ a = cand.arrayPhys ∧
        Evidence cand (sinceTake older) v
  | .settle a o :: older => Evident args given older ∧
      ∃ cand ∈ given, currentCandidate older = some cand ∧ a = cand.arrayPhys ∧
        Ended args cand o older
  | _ :: older => Evident args given older

section Evident
variable {args : WriterArgs} {given : List Candidate} {trace : List Event}

theorem Evident.note {e : Event} (he : e.plain = true) (h : Evident args given trace) :
    Evident args given (e :: trace) := by
  cases e with
  | classify => cases he
  | settle => cases he
  | _ => exact h

theorem Evident.mono {given' : List Candidate} (hsub : ∀ c ∈ given, c ∈ given')
    (h : Evident args given trace) : Evident args given' trace := by
  induction trace with
  | nil => trivial
  | cons e older ih =>
      cases e with
      | classify a v =>
          obtain ⟨holder, cand, hmem, hrest⟩ := h
          exact ⟨ih holder, cand, hsub cand hmem, hrest⟩
      | settle a o =>
          obtain ⟨holder, cand, hmem, hrest⟩ := h
          exact ⟨ih holder, cand, hsub cand hmem, hrest⟩
      | _ => exact ih h

theorem Evident.of_append {newer : List Event} (h : Evident args given (newer ++ trace)) :
    Evident args given trace := by
  induction newer with
  | nil => exact h
  | cons e newer ih =>
      apply ih
      cases e with
      | classify => exact h.1
      | settle => exact h.1
      | _ => exact h

end Evident

/-! ### The writer leaves an evident trace -/

section Writer
variable {env : WriterEnv σ} {args : WriterArgs} {given : List Candidate} {cand : Candidate}
  {b : Books}

/-- In the round of a candidate. -/
structure Judging (args : WriterArgs) (given : List Candidate) (cand : Candidate) (b : Books) :
    Prop where
  evident : Evident args given b.trace
  taken : currentCandidate b.trace = some cand
  mem : cand ∈ given

theorem Judging.mild (h : Judging args given cand b) {e : Event} (he : e.mild = true)
    (hplain : e.plain = true) : Judging args given cand (b.note e) where
  evident := h.evident.note hplain
  taken := by
    cases e <;> first | exact h.taken | cases he
  mem := h.mem

theorem Judging.classify (h : Judging args given cand b) {v : Stage}
    (hv : Evidence cand (sinceTake b.trace) v) :
    Judging args given cand (b.classify cand.arrayPhys v) where
  evident := ⟨h.evident, cand, h.mem, h.taken, rfl, hv⟩
  taken := h.taken
  mem := h.mem

theorem Judging.settle (h : Judging args given cand b) {o : Outcome}
    (ho : Ended args cand o b.trace) : Evident args given (b.settle cand.arrayPhys o).trace :=
  ⟨h.evident, cand, h.mem, h.taken, rfl, ho⟩

/-- The round has written bytes that verify. -/
structure Written (args : WriterArgs) (given : List Candidate) (cand : Candidate) (b : Books) : Prop
    extends Judging args given cand b where
  found : .classify cand.arrayPhys .mismatch ∈ sinceTake b.trace
  wrote : ∃ data, .write cand.failingDev cand.arrayPhys data ∈ sinceTake b.trace ∧
    cand.verify data = true

/-- The trace is evident however the writer stops. -/
abbrev Witnessed (args : WriterArgs) (given : List Candidate) (pre : Books → Prop) {α : Type}
    (x : WriterM σ α) (post : α → Books → Prop) : Prop :=
  Spec pre x post fun _ b => Evident args given b.trace

/-- The stage a confirmation leads to. -/
def Confirmed.stage {n : Nat} : Confirmed n → Stage
  | .stale => .stale
  | .skipped => .skipped
  | .corrupt _ _ => .mismatch

theorem confirm_witnessed :
    Witnessed args given (Judging args given cand) (confirm env args cand) fun confirmed b =>
      Judging args given cand b ∧ Evidence cand (sinceTake b.trace) confirmed.stage := by
  unfold confirm
  refine Spec.bind (fun verdict b => Judging args given cand b ∧
    (verdict = .corruption → Asked cand b) ∧
    (verdict ≠ .corruption → ∃ req, cand.reconfirm = some req ∧
      .reconfirm req verdict ∈ sinceTake b.trace)) ?_ fun verdict => ?_
  · refine spec_verdictOf (fun b hb hnone => ⟨hb, fun _ req hreq => ?_, fun h => absurd rfl h⟩)
      fun b req v hb hreq => ⟨hb.mild rfl rfl, fun hv req' hreq' => ?_, fun _ => ?_⟩
    · rw [hnone] at hreq
      cases hreq
    · rw [hreq] at hreq'
      cases hreq'
      rw [hv]
      exact List.mem_cons_self
    · exact ⟨req, hreq, List.mem_cons_self⟩
  · cases verdict with
    | stale =>
        refine Spec.pure fun b hb => ⟨hb.1, ?_⟩
        obtain ⟨req, hreq, hanswer⟩ := hb.2.2 nofun
        exact .moved req hreq hanswer
    | unverifiable =>
        refine Spec.pure fun b hb => ⟨hb.1, ?_⟩
        obtain ⟨req, hreq, hanswer⟩ := hb.2.2 nofun
        exact .unverifiable req hreq hanswer
    | corruption =>
        have hasked {b : Books} (h : Asked cand b) (got : Option Bytes) :
            Asked cand (b.note (.reread cand.failingDev cand.arrayPhys got)) :=
          fun req hreq => List.mem_cons_of_mem _ (h req hreq)
        refine spec_rereadFailing (fun b hb hun => ⟨hb.1, .stands (hb.2.1 rfl) fun hread => ?_⟩)
          (fun b block hb _ => ?_) fun b hb _ => ⟨hb.1.mild rfl rfl, ?_⟩
        · rw [hun] at hread
          cases hread
        · have hread : .reread cand.failingDev cand.arrayPhys (some block.toList) ∈
              sinceTake (b.note (.reread cand.failingDev cand.arrayPhys (some block.toList))).trace :=
            List.mem_cons_self
          cases hverify : cand.verify block.toList with
          | true => exact ⟨hb.1.mild rfl rfl, .rewritten block.toList hread hverify⟩
          | false =>
              refine ⟨hb.1.mild rfl rfl, .stands (hasked (hb.2.1 rfl) _) fun _ => ?_⟩
              refine ⟨some block.toList, hread, fun bytes hbytes => ?_⟩
              cases hbytes
              exact hverify
        · refine .stands (hasked (hb.2.1 rfl) none) fun _ => ?_
          exact ⟨none, List.mem_cons_self, fun bytes h => by cases h⟩

theorem processCandidate_witnessed {hasLiveMount writesAllowed : Bool} (hmem : cand ∈ given) :
    Witnessed args given (fun b => Evident args given b.trace)
      (processCandidate env args hasLiveMount writesAllowed cand)
      fun _ b => Evident args given b.trace := by
  unfold processCandidate
  refine Spec.bind (fun _ => Judging args given cand) ?_ fun _ => ?_
  · exact Spec.onBooks fun b hb => ⟨hb, rfl, hmem⟩
  refine Spec.bind _ confirm_witnessed fun confirmed => ?_
  cases confirmed with
  | stale => exact Spec.onBooks fun b hb => (hb.1.classify hb.2).evident
  | skipped => exact Spec.onBooks fun b hb => (hb.1.classify hb.2).evident
  | corrupt block unreadable =>
      refine Spec.bind (fun _ b => Judging args given cand b ∧
        .classify cand.arrayPhys .mismatch ∈ sinceTake b.trace) ?_ fun _ => ?_
      · exact Spec.onBooks fun b hb => ⟨hb.1.classify hb.2, List.mem_cons_self⟩
      refine Spec.bind (fun outcome b => Judging args given cand b ∧ Ended args cand outcome b.trace)
        ?_ fun outcome => ?_
      · have hwrite : ∀ b (bytes : Vector UInt8 cand.blockSize), (Judging args given cand b ∧
            .classify cand.arrayPhys .mismatch ∈ sinceTake b.trace) → args.dryRun = false →
            writesAllowed = true → cand.verify bytes.toList = true →
            Written args given cand
              (b.note (.write cand.failingDev cand.arrayPhys bytes.toList)) :=
          fun b bytes hb _ _ hverify => ⟨⟨hb.1.evident, hb.1.taken, hb.1.mem⟩,
            List.mem_cons_of_mem _ hb.2, bytes.toList, List.mem_cons_self, hverify⟩
        refine spec_recover_ends (fun b _ hb => hb.1.evident)
          (fun b o hb hdry => ⟨hb.1, hb.2, fun ho hrepair => ?_⟩) hwrite
          (fun b hb => ⟨⟨hb.evident, hb.taken, hb.mem⟩, hb.found, hb.wrote⟩)
          fun b o hb => ⟨hb.toJudging, hb.found, fun _ _ => hb.wrote⟩
        rw [hdry ho] at hrepair
        cases hrepair
      · exact Spec.onBooks fun b hb => hb.1.settle hb.2

theorem flushLoop_witnessed {hasLiveMount writesAllowed : Bool} {started : Nat} (first : Bool)
    (batch : List Candidate) (hgiven : ∀ c ∈ batch, c ∈ given) :
    Witnessed args given (fun b => Evident args given b.trace)
      (flushLoop env args hasLiveMount writesAllowed started first batch)
      fun _ b => Evident args given b.trace := by
  induction batch generalizing first with
  | nil => exact Spec.pure fun b hb => hb
  | cons cand rest ih =>
      unfold flushLoop
      refine Spec.bind (fun _ b => Evident args given b.trace)
        ((windowExpired_keeps first).conseq (fun _ hb => hb) fun _ _ hb => hb.1) fun expired => ?_
      cases expired with
      | true => exact Spec.pure fun b hb => hb
      | false =>
          refine Spec.bind _ (processCandidate_witnessed (hgiven cand List.mem_cons_self)) fun _ => ?_
          exact ih false fun c hc => hgiven c (List.mem_cons_of_mem cand hc)

theorem thaw_witnessed :
    Witnessed args given (fun b => Evident args given b.trace) (thaw env)
      fun _ b => Evident args given b.trace :=
  spec_thaw (fun _ hb _ => hb) (fun _ hb _ => hb) fun _ _ hb _ _ => hb

theorem flushBatch_witnessed {pending : List Candidate} (hgiven : ∀ c ∈ pending, c ∈ given) :
    Witnessed args given (fun b => Evident args given b.trace) (flushBatch env args pending)
      fun _ b => Evident args given b.trace := by
  unfold flushBatch
  refine Spec.bind (fun _ b => Evident args given b.trace) (Spec.onBooks fun b hb => hb) fun _ => ?_
  refine Spec.bind (fun _ b => Evident args given b.trace) (Spec.books _ fun b hb => hb) fun _ => ?_
  refine Spec.bind (fun _ b => Evident args given b.trace) ?_ fun guarded => ?_
  · exact spec_guard (fun _ hb _ => hb) (fun _ hb _ => hb) fun _ _ hb _ => hb
  refine Spec.bind (fun _ b => Evident args given b.trace) (Spec.world _ fun _ _ hb => hb)
    fun started => ?_
  refine Spec.bind _ (flushLoop_witnessed true (batchOf pending) fun c hc =>
    hgiven c (batchOf_subset pending c hc)) fun deferred => ?_
  refine Spec.bind (fun _ b => Evident args given b.trace) ?_ fun _ => ?_
  · unfold releaseGuard
    split
    case isTrue => exact thaw_witnessed
    case isFalse => exact Spec.pure fun _ hb => hb
  refine Spec.bind (fun _ b => Evident args given b.trace) (spec_takeThawError fun _ hb => hb)
    fun err => ?_
  cases err with
  | some e => exact Spec.throw fun _ hb => hb
  | none => exact Spec.pure fun _ hb => hb

end Writer

/-! ### The counters are the numbers of verdicts -/

def BatchStats.outcome (s : BatchStats) : Outcome → Nat
  | .recovered => s.recovered
  | .failed => s.failed
  | .notCorrupt => s.notCorrupt
  | .notFrozen => s.notFrozen
  | .readbackFailed => s.readbackFailed

def Event.gives (v : Stage) : Event → Bool
  | .classify _ w => w = v
  | _ => false

def Event.ends (o : Outcome) : Event → Bool
  | .settle _ o' => o' = o
  | _ => false

theorem outcome_countStage (s : BatchStats) (v : Stage) (o : Outcome) :
    (s.countStage v).outcome o = s.outcome o := by
  cases v <;> cases o <;> rfl

theorem outcome_countOutcome (s : BatchStats) (o o' : Outcome) :
    (s.countOutcome o).outcome o' = s.outcome o' + if o = o' then 1 else 0 := by
  cases o <;> cases o' <;> rfl

structure Counted (b : Books) : Prop where
  stages : ∀ v, b.stats.stage v = b.trace.countP (Event.gives v)
  outcomes : ∀ o, b.stats.outcome o = b.trace.countP (Event.ends o)

theorem Event.plain_gives {e : Event} (he : e.plain = true) (v : Stage) : e.gives v = false := by
  cases e <;> first | rfl | cases he

theorem Event.plain_ends {e : Event} (he : e.plain = true) (o : Outcome) : e.ends o = false := by
  cases e <;> first | rfl | cases he

theorem counted_keeps : Books.Keeps Counted where
  note h e he :=
    { stages := fun v => by
        rw [show (Books.note _ e).trace = e :: _ from rfl, List.countP_cons, e.plain_gives he v]
        exact h.stages v
      outcomes := fun o => by
        rw [show (Books.note _ e).trace = e :: _ from rfl, List.countP_cons, e.plain_ends he o]
        exact h.outcomes o }
  classify {b} h a v :=
    { stages := fun w => by
        rw [show (b.classify a v).trace = .classify a v :: b.trace from rfl, List.countP_cons,
          ← h.stages w]
        simp [Books.classify, stage_countStage, Event.gives]
      outcomes := fun o => by
        rw [show (b.classify a v).trace = .classify a v :: b.trace from rfl, List.countP_cons,
          ← h.outcomes o]
        simp [Books.classify, outcome_countStage, Event.ends] }
  settle {b} h a o :=
    { stages := fun w => by
        rw [show (b.settle a o).trace = .settle a o :: b.trace from rfl, List.countP_cons,
          ← h.stages w]
        simp [Books.settle, Event.gives]
      outcomes := fun o' => by
        rw [show (b.settle a o).trace = .settle a o :: b.trace from rfl, List.countP_cons,
          ← h.outcomes o']
        simp [Books.settle, outcome_countOutcome, Event.ends] }
  dedup h count := ⟨fun v => (by cases v <;> rfl : _ = _).trans (h.stages v),
    fun o => (by cases o <;> rfl : _ = _).trans (h.outcomes o)⟩
  repaired h := ⟨h.stages, h.outcomes⟩
  setFreeze h _ _ := ⟨h.stages, h.outcomes⟩

theorem Counted.stage_pos {b : Books} (h : Counted b) {a : Nat} {v : Stage}
    (hmem : .classify a v ∈ b.trace) : 0 < b.stats.stage v := by
  rw [h.stages v]
  exact List.countP_pos_iff.mpr ⟨_, hmem, by simp [Event.gives]⟩

theorem Counted.stage_of_pos {b : Books} (h : Counted b) {v : Stage} (hpos : 0 < b.stats.stage v) :
    ∃ a, .classify a v ∈ b.trace := by
  rw [h.stages v] at hpos
  obtain ⟨e, hmem, hgives⟩ := List.countP_pos_iff.mp hpos
  cases e with
  | classify a w =>
      obtain rfl : w = v := by simpa [Event.gives] using hgives
      exact ⟨a, hmem⟩
  | _ => cases hgives

theorem Counted.outcome_pos {b : Books} (h : Counted b) {a : Nat} {o : Outcome}
    (hmem : .settle a o ∈ b.trace) : 0 < b.stats.outcome o := by
  rw [h.outcomes o]
  exact List.countP_pos_iff.mpr ⟨_, hmem, by simp [Event.ends]⟩

theorem Counted.outcome_of_pos {b : Books} (h : Counted b) {o : Outcome}
    (hpos : 0 < b.stats.outcome o) : ∃ a, .settle a o ∈ b.trace := by
  rw [h.outcomes o] at hpos
  obtain ⟨e, hmem, hends⟩ := List.countP_pos_iff.mp hpos
  cases e with
  | settle a o' =>
      obtain rfl : o' = o := by simpa [Event.ends] using hends
      exact ⟨a, hmem⟩
  | _ => cases hends

/-! ### Every mismatch has an outcome -/

/-- Between two rounds. -/
def Concluded (b : Books) : Prop := ∀ a, .classify a .mismatch ∈ b.trace → ∃ o, .settle a o ∈ b.trace

/-- From the mismatch at the address to its outcome. -/
def Concluding (a : Nat) (b : Books) : Prop :=
  ∀ a', .classify a' .mismatch ∈ b.trace → a' = a ∨ ∃ o, .settle a' o ∈ b.trace

theorem concluded_rounds : Books.Rounds Concluded Concluding where
  note h e he a hmem := by
    rcases List.mem_cons.mp hmem with rfl | hmem
    · cases he
    · obtain ⟨o, ho⟩ := h a hmem
      exact ⟨o, List.mem_cons_of_mem _ ho⟩
  noteInside h e he a hmem := by
    rcases List.mem_cons.mp hmem with rfl | hmem
    · cases he
    · exact (h a hmem).imp_right fun ⟨o, ho⟩ => ⟨o, List.mem_cons_of_mem _ ho⟩
  classify h a v hv a' hmem := by
    rcases List.mem_cons.mp hmem with heq | hmem
    · cases heq
      exact absurd rfl hv
    · obtain ⟨o, ho⟩ := h a' hmem
      exact ⟨o, List.mem_cons_of_mem _ ho⟩
  mismatch h a a' hmem := by
    rcases List.mem_cons.mp hmem with heq | hmem
    · cases heq
      exact .inl rfl
    · obtain ⟨o, ho⟩ := h a' hmem
      exact .inr ⟨o, List.mem_cons_of_mem _ ho⟩
  settle {b a} h o a' hmem := by
    rcases List.mem_cons.mp hmem with heq | hmem
    · cases heq
    · rcases h a' hmem with rfl | ⟨o', ho'⟩
      · exact ⟨o, List.mem_cons_self⟩
      · exact ⟨o', List.mem_cons_of_mem _ ho'⟩
  dedup h _ := h
  repaired h := h
  setFreeze h _ _ := h

/-! ### In the pipeline -/

section Pipeline
variable {env : WriterEnv σ} {args : WriterArgs} {batchMax : Nat} {s s' : Pipeline σ}

theorem Pipeline.flush_pending {pending : List Candidate} {next : List Candidate → WriterThread}
    (hnext : ∀ l, (next l).pending = l) (hledger : ∃ count sectors, Ledger count 0 sectors s.state.books) :
    ∀ c ∈ (s.flush env args pending next).writer.pending, c ∈ pending := by
  obtain ⟨count, sectors, hledger⟩ := hledger
  rcases hrun : (flushBatch env args pending).run.run s.state with ⟨why | deferred, state⟩
  · rw [Pipeline.flush_error hrun]
    exact nofun
  · rw [Pipeline.flush_ok hrun]
    dsimp only
    rw [hnext]
    exact ((flushBatch_account pending).run_ok hledger hrun).subset

theorem Pipeline.flush_sent {pending : List Candidate} {next : List Candidate → WriterThread} :
    (s.flush env args pending next).sent = s.sent := by
  unfold Pipeline.flush
  split <;> rfl

/-- What the writer is about to flush was sent. -/
theorem Pipeline.step_pending (hinv : s.Inv) (hchan : ∀ c ∈ batchCandidates s.chanB, c ∈ s.sent)
    (h : ∀ c ∈ s.writer.pending, c ∈ s.sent) (hstep : Pipeline.Step env args batchMax s s') :
    ∀ c ∈ s'.writer.pending, c ∈ s'.sent := by
  have hledger : ∃ count sectors, Ledger count 0 sectors s.state.books := by
    obtain ⟨count, sectors, hledger, -⟩ := hinv.conserved
    exact ⟨count, sectors, hledger⟩
  cases hstep with
  | send => exact fun c hc => List.mem_append_left _ (h c hc)
  | @recvBatch pending batch rest at_ msg =>
      rw [at_] at h
      rw [msg] at hchan
      intro c hc
      rw [Pipeline.flush_sent]
      rcases List.mem_append.mp (Pipeline.flush_pending (s := { s with chanB := rest })
        (fun _ => rfl) hledger c hc) with hc | hc
      · exact h c hc
      · exact hchan c (List.mem_append_left _ hc)
  | drainOne at_ =>
      rw [at_] at h
      intro c hc
      rw [Pipeline.flush_sent]
      exact h c (Pipeline.flush_pending (fun _ => rfl) hledger c hc)
  | recvDoneB at_ => rwa [at_] at h
  | disconnectedB at_ => rwa [at_] at h
  | drained => exact nofun
  | _ => exact h

theorem Pipeline.over_of_step (h : s'.writer.over = false)
    (hstep : Pipeline.Step env args batchMax s s') : s.writer.over = false := by
  cases hstep with
  | recvBatch at_ => rw [at_]; rfl
  | recvDoneB at_ => rw [at_]; rfl
  | disconnectedB at_ => rw [at_]; rfl
  | drainOne at_ => rw [at_]; rfl
  | drained at_ => rw [at_]; rfl
  | _ => exact h

/-- Properties of the candidates sent so far and of the books: `inv` holds between two flushes,
`done` once the writer returned, and `broken` always. -/
structure Pipeline.Upholds (env : WriterEnv σ) (args : WriterArgs)
    (inv done broken : List Candidate → Books → Prop) : Prop where
  mono {given given' b} (hsub : ∀ c ∈ given, c ∈ given') (h : inv given b) : inv given' b
  monoDone {given given' b} (hsub : ∀ c ∈ given, c ∈ given') (h : done given b) : done given' b
  monoBroken {given given' b} (hsub : ∀ c ∈ given, c ∈ given') (h : broken given b) :
    broken given' b
  breaks {given b} (h : inv given b) : broken given b
  ends {given b} (h : inv given b) : done given b
  thawDone {given} : Preserves (done given) (thaw env)
  flush {given pending} (hpending : ∀ c ∈ pending, c ∈ given) :
    Spec (inv given) (flushBatch env args pending) (fun _ => inv given) fun _ => broken given
  thaw {given} : Preserves (broken given) (thaw env)

namespace Pipeline.Upholds
variable {inv done broken : List Candidate → Books → Prop}
  (h : Pipeline.Upholds env args inv done broken)
include h

/-- What holds in every reachable state. -/
def Holds (_h : Pipeline.Upholds env args inv done broken) (s : Pipeline σ) : Prop :=
  broken s.sent s.state.books ∧ (s.writer.over = false → inv s.sent s.state.books) ∧
    ∀ stats, s.writer = .returned stats → done s.sent s.state.books

theorem flush_step {pending : List Candidate} {next : List Candidate → WriterThread}
    (hrunning : ∀ l, (next l).over = false) (hpending : ∀ c ∈ pending, c ∈ s.sent)
    (hs : inv s.sent s.state.books) : h.Holds (s.flush env args pending next) := by
  unfold Holds
  rw [Pipeline.flush_sent]
  have hflush := h.flush hpending s.state hs
  rcases hrun : (flushBatch env args pending).run.run s.state with ⟨why | deferred, state⟩
  · rw [hrun] at hflush
    rw [Pipeline.flush_error hrun]
    exact ⟨h.thaw.run_state (fun _ _ => id) hflush, nofun, nofun⟩
  · rw [hrun] at hflush
    rw [Pipeline.flush_ok hrun]
    refine ⟨h.breaks hflush, fun _ => hflush, fun stats hstats => ?_⟩
    have hover := hrunning deferred
    rw [show next deferred = .returned stats from hstats] at hover
    cases hover

theorem step (hchan : s.writer.over = false → ∀ c ∈ batchCandidates s.chanB, c ∈ s.sent)
    (hpending : s.writer.over = false → ∀ c ∈ s.writer.pending, c ∈ s.sent) (hs : h.Holds s)
    (hstep : Pipeline.Step env args batchMax s s') : h.Holds s' := by
  cases hstep with
  | send c =>
      have hsub : ∀ d ∈ s.sent, d ∈ s.sent ++ [c] := fun d hd => List.mem_append_left _ hd
      exact ⟨h.monoBroken hsub hs.1, fun hover => h.mono hsub (hs.2.1 hover),
        fun stats hend => h.monoDone hsub (hs.2.2 stats hend)⟩
  | @recvBatch pending batch rest at_ msg =>
      have hrunning : s.writer.over = false := by rw [at_]; rfl
      have hp := hpending hrunning
      have hc := hchan hrunning
      rw [at_] at hp
      rw [msg] at hc
      refine h.flush_step (fun _ => rfl) (fun c hmem => ?_) (hs.2.1 hrunning)
      rcases List.mem_append.mp hmem with hmem | hmem
      · exact hp c hmem
      · exact hc c (List.mem_append_left _ hmem)
  | drainOne at_ =>
      have hrunning : s.writer.over = false := by rw [at_]; rfl
      have hp := hpending hrunning
      rw [at_] at hp
      exact h.flush_step (fun _ => rfl) hp (hs.2.1 hrunning)
  | recvDoneB at_ => exact ⟨hs.1, fun _ => hs.2.1 (by rw [at_]; rfl), nofun⟩
  | disconnectedB at_ => exact ⟨hs.1, fun _ => hs.2.1 (by rw [at_]; rfl), nofun⟩
  | drained at_ =>
      have hrunning : s.writer.over = false := by rw [at_]; rfl
      exact ⟨h.thaw.run_state (fun _ _ => id) hs.1, nofun,
        fun _ _ => h.thawDone.run_state (fun _ _ => id) (h.ends (hs.2.1 hrunning))⟩
  | _ => exact hs

/-- In every reachable state, by induction on the run. -/
theorem reachable (hstart : ∀ w mountpoint counters,
      inv [] (WriterState.start (σ := σ) w mountpoint counters).books)
    (hreach : (pipeline env args batchMax).Reachable s) : h.Holds s := by
  suffices hall : h.Holds s ∧ (s.writer.over = false → ∀ c ∈ s.writer.pending, c ∈ s.sent)
    from hall.1
  induction hreach with
  | init hs =>
      obtain ⟨w, mountpoint, counters, rfl⟩ := hs
      have hinv := hstart w mountpoint counters
      exact ⟨⟨h.breaks hinv, fun _ => hinv, nofun⟩, fun _ => nofun⟩
  | @step s s' hs hstep ih =>
      obtain ⟨hbooks, hpending⟩ := ih
      have hinv : s.writer.over = false → s.Inv := fun hover => by
        rcases Pipeline.reachable_sound hs with hinv | ⟨why, hwhy⟩
        · exact hinv
        · rw [hwhy] at hover
          cases hover
      have hchan : s.writer.over = false → ∀ c ∈ batchCandidates s.chanB, c ∈ s.sent := fun hover => by
        obtain ⟨w, mountpoint, counters, received, hfollows | hstopped⟩ := Pipeline.reachable_follows hs
        · obtain ⟨front, -, hsent⟩ := hfollows.batching
          intro c hc
          rw [← hsent]
          exact List.mem_append_right _ (List.mem_append_left _ hc)
        · obtain ⟨why, hwhy⟩ := hstopped.stopped
          rw [hwhy] at hover
          cases hover
      refine ⟨h.step hchan hpending hbooks hstep, fun hover => ?_⟩
      have hrunning : s.writer.over = false := Pipeline.over_of_step hover hstep
      exact Pipeline.step_pending (hinv hrunning) (hchan hrunning) (hpending hrunning) hstep

end Pipeline.Upholds

theorem evident_upheld : Pipeline.Upholds env args (fun given b => Evident args given b.trace)
    (fun given b => Evident args given b.trace) fun given b => Evident args given b.trace where
  mono hsub h := h.mono hsub
  monoDone hsub h := h.mono hsub
  monoBroken hsub h := h.mono hsub
  breaks h := h
  ends h := h
  thawDone := thaw_witnessed
  flush hpending := flushBatch_witnessed hpending
  thaw := thaw_witnessed

theorem Pipeline.reachable_evident (h : (pipeline env args batchMax).Reachable s) :
    Evident args s.sent s.state.books.trace :=
  (evident_upheld.reachable (fun _ _ _ => trivial) h).1

theorem Permitted.mono {mountpoint : Option Path} {given given' : List Candidate}
    (hsub : ∀ c ∈ given, c ∈ given') {dev : Path} {arrayPhys : Nat} {data : Bytes}
    {older : List Event} (h : Permitted args mountpoint given dev arrayPhys data older) :
    Permitted args mountpoint given' dev arrayPhys data older := by
  obtain ⟨cand, batch, htaken, hbatch, hmem, hgiven, hrest⟩ := h.candidate
  exact { h with candidate := ⟨cand, batch, htaken, hbatch, hmem, hsub cand hgiven, hrest⟩ }

theorem Safe.mono {mountpoint : Option Path} {given given' : List Candidate}
    (hsub : ∀ c ∈ given, c ∈ given') {trace : List Event} (h : Safe args mountpoint given trace) :
    Safe args mountpoint given' trace := by
  induction trace with
  | nil => trivial
  | cons e older ih =>
      cases e with
      | write => exact ⟨ih h.1, h.2.1, h.2.2.mono hsub⟩
      | freeze => exact ⟨ih h.1, h.2⟩
      | _ => exact ih h

theorem thaw_keepsSafe {given : List Candidate} :
    Preserves (fun b => Safe args b.freeze.mountpoint given b.trace) (thaw env) :=
  spec_thaw (fun _ hb _ => hb) (fun _ hb _ => hb) fun b r hb _ _ => by
    rw [← b.freeze.thawed_mountpoint r] at hb
    exact hb

theorem safe_upheld : Pipeline.Upholds env args (fun given b => Idle args b.freeze.mountpoint given b)
    (fun given b => Safe args b.freeze.mountpoint given b.trace)
    fun given b => Safe args b.freeze.mountpoint given b.trace where
  mono hsub h := ⟨h.safe.mono hsub, h.mount, h.thawed, h.noError⟩
  monoDone hsub h := h.mono hsub
  monoBroken hsub h := h.mono hsub
  breaks h := h.safe
  ends h := h.safe
  thawDone := thaw_keepsSafe
  flush {given pending} hpending := by
    refine Spec.of_forall fun b₀ hb₀ => ?_
    have hmount : Preserves (fun b => b.freeze.mountpoint = b₀.freeze.mountpoint)
      (flushBatch env args pending) := (mountpoint_keeps _).flushBatch pending
    have hsafe : Guarded args b₀.freeze.mountpoint given (Idle args b₀.freeze.mountpoint given)
        (flushBatch env args pending) fun deferred b =>
          Idle args b₀.freeze.mountpoint given b ∧ ∀ c ∈ deferred, c ∈ given :=
      flushBatch_safe hpending
    intro s hs
    have hend := hsafe.and hmount s ⟨hs ▸ hb₀, congrArg (·.freeze.mountpoint) hs⟩
    rcases hrun : (flushBatch env args pending).run.run s with ⟨why | deferred, state⟩
    · rw [hrun] at hend
      obtain ⟨hsafe, hmount⟩ := hend
      rw [← hmount] at hsafe
      exact hsafe
    · rw [hrun] at hend
      obtain ⟨⟨hidle, -⟩, hmount⟩ := hend
      rw [← hmount] at hidle
      exact hidle
  thaw := thaw_keepsSafe

theorem Pipeline.reachable_safe (h : (pipeline env args batchMax).Reachable s) :
    Safe args s.state.books.freeze.mountpoint s.sent s.state.books.trace :=
  (safe_upheld.reachable (fun _ _ _ => ⟨trivial, rfl, List.not_mem_nil, rfl⟩) h).1

theorem concluded_upheld : Pipeline.Upholds env args (fun _ => Concluded) (fun _ => Concluded)
    fun _ _ => True where
  mono _ h := h
  monoDone _ h := h
  monoBroken _ h := h
  breaks _ := trivial
  ends h := h
  thawDone := concluded_rounds.thaw
  flush _ := (concluded_rounds.flushBatch _).weaken_fail fun _ _ _ => trivial
  thaw := spec_thaw (fun _ hb _ => hb) (fun _ hb _ => hb) fun _ _ hb _ _ => hb

theorem Pipeline.returned_concluded (h : (pipeline env args batchMax).Reachable s)
    {stats : BatchStats} (hend : s.writer = .returned stats) : Concluded s.state.books :=
  (concluded_upheld.reachable (fun _ _ _ _ hmem => absurd hmem List.not_mem_nil) h).2.2 stats hend

theorem Pipeline.reachable_counted (h : (pipeline env args batchMax).Reachable s) :
    Counted s.state.books :=
  counted_keeps.reachable (fun _ _ _ => ⟨fun v => by cases v <;> rfl, fun o => by cases o <;> rfl⟩) h

end Pipeline
end Rotshield.BatchRecover
