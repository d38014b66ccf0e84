import Rotshield.BatchRecover.Ledger

/-! Every write the writer issues is to the failing device of a candidate of the current
flush, with bytes its verifier accepts, after the checks of that same flush. -/
namespace Rotshield.BatchRecover

variable {σ : Type}

/-! ### Reading a trace, newest event first -/

/-- The batch of the current flush. -/
def currentBatch : List Event → Option (List Candidate)
  | [] => none
  | .flush batch :: _ => some batch
  | _ :: older => currentBatch older

/-- What happened since the current flush began. -/
def sinceFlush : List Event → List Event
  | [] => []
  | .flush _ :: _ => []
  | e :: older => e :: sinceFlush older

/-- The candidate the loop is at. -/
def currentCandidate : List Event → Option Candidate
  | [] => none
  | .flush _ :: _ => none
  | .take cand :: _ => some cand
  | _ :: older => currentCandidate older

/-- What happened since the loop took up its candidate. -/
def sinceTake : List Event → List Event
  | [] => []
  | .flush _ :: _ => []
  | .take _ :: _ => []
  | e :: older => e :: sinceTake older

/-- The freeze taken for the current flush is in place. -/
def Held (trace : List Event) : Prop :=
  .freeze true ∈ sinceFlush trace ∧ ∀ ok, .thaw ok ∉ sinceFlush trace

/-- What must have happened before a write of `data` to `dev` at `arrayPhys`. -/
structure Permitted (args : WriterArgs) (mountpoint : Option Path) (given : List Candidate)
    (dev : Path) (arrayPhys : Nat) (data : Bytes) (older : List Event) : Prop where
  repair : args.dryRun = false
  frozen : mountpoint = none ∨ Held older
  candidate : ∃ cand batch, currentCandidate older = some cand ∧ currentBatch older = some batch ∧
    cand ∈ batch ∧ cand ∈ given ∧ dev = cand.failingDev ∧ arrayPhys = cand.arrayPhys ∧
    data.length = cand.blockSize ∧ cand.verify data = true ∧
    (∀ req, cand.reconfirm = some req → .reconfirm req .corruption ∈ sinceTake older) ∧
    (cand.unreadable = false → ∃ got, .reread dev arrayPhys got ∈ sinceTake older ∧
      ∀ bytes, got = some bytes → cand.verify bytes = false)

/-- Every write of the trace was permitted, and nothing was frozen or written after a
failed thaw. -/
def Safe (args : WriterArgs) (mountpoint : Option Path) (given : List Candidate) :
    List Event → Prop
  | [] => True
  | .write dev arrayPhys data :: older =>
      Safe args mountpoint given older ∧ .thaw false ∉ older ∧
        Permitted args mountpoint given dev arrayPhys data older
  | .freeze _ :: older => Safe args mountpoint given older ∧ .thaw false ∉ older
  | _ :: older => Safe args mountpoint given older

theorem Safe.of_append {args : WriterArgs} {mountpoint : Option Path} {given : List Candidate}
    {newer older : List Event} (h : Safe args mountpoint given (newer ++ older)) :
    Safe args mountpoint given older := by
  induction newer with
  | nil => exact h
  | cons e newer ih =>
      apply ih
      cases e with
      | write => exact h.1
      | freeze => exact h.1
      | _ => exact h

/-- Events that neither start nor end anything and write nothing. -/
def Event.mild : Event → Bool
  | .reconfirm _ _ => true
  | .reread _ _ _ => true
  | .classify _ _ => true
  | .settle _ _ => true
  | _ => false

section Safety
variable {args : WriterArgs} {mountpoint : Option Path} {given : List Candidate}

/-- Between flushes: all thaws succeeded. -/
structure Idle (args : WriterArgs) (mountpoint : Option Path) (given : List Candidate)
    (b : Books) : Prop where
  safe : Safe args mountpoint given b.trace
  mount : b.freeze.mountpoint = mountpoint
  thawed : .thaw false ∉ b.trace
  noError : b.freeze.lastThawError = none

/-- In the loop of a flush over `batch`. -/
structure InFlush (args : WriterArgs) (mountpoint : Option Path) (given batch : List Candidate)
    (writesAllowed : Bool) (b : Books) : Prop extends Idle args mountpoint given b where
  current : currentBatch b.trace = some batch
  covered : ∀ c ∈ batch, c ∈ given
  held : writesAllowed = true → mountpoint = none ∨ Held b.trace

/-- In the loop's round for `cand`. -/
structure InRound (args : WriterArgs) (mountpoint : Option Path) (given batch : List Candidate)
    (writesAllowed : Bool) (cand : Candidate) (b : Books) : Prop
    extends InFlush args mountpoint given batch writesAllowed b where
  taken : currentCandidate b.trace = some cand
  mem : cand ∈ batch

/-- The live metadata stands by the mismatch. -/
def Asked (cand : Candidate) (b : Books) : Prop :=
  ∀ req, cand.reconfirm = some req → .reconfirm req .corruption ∈ sinceTake b.trace

/-- The fresh read failed or still gives bytes the verifier rejects. -/
def Reread (cand : Candidate) (b : Books) : Prop :=
  cand.unreadable = false → ∃ got,
    .reread cand.failingDev cand.arrayPhys got ∈ sinceTake b.trace ∧
      ∀ bytes, got = some bytes → cand.verify bytes = false

theorem Held.mild {e : Event} (he : e.mild = true) {trace : List Event} (h : Held trace) :
    Held (e :: trace) := by
  obtain ⟨hfreeze, hthaw⟩ := h
  cases e with
  | reconfirm => exact ⟨List.mem_cons_of_mem _ hfreeze, fun ok hmem => by
      cases hmem with | tail _ hmem => exact hthaw ok hmem⟩
  | reread => exact ⟨List.mem_cons_of_mem _ hfreeze, fun ok hmem => by
      cases hmem with | tail _ hmem => exact hthaw ok hmem⟩
  | classify => exact ⟨List.mem_cons_of_mem _ hfreeze, fun ok hmem => by
      cases hmem with | tail _ hmem => exact hthaw ok hmem⟩
  | settle => exact ⟨List.mem_cons_of_mem _ hfreeze, fun ok hmem => by
      cases hmem with | tail _ hmem => exact hthaw ok hmem⟩
  | _ => cases he

section Keep
variable {batch : List Candidate} {writesAllowed : Bool} {cand : Candidate} {b : Books}

theorem Idle.mild (h : Idle args mountpoint given b) {e : Event} (he : e.mild = true) :
    Idle args mountpoint given (b.note e) where
  safe := by
    cases e <;> first | exact h.safe | cases he
  mount := h.mount
  thawed hmem := by
    cases hmem with
    | head => cases he
    | tail _ hmem => exact h.thawed hmem
  noError := h.noError

theorem InFlush.mild (h : InFlush args mountpoint given batch writesAllowed b) {e : Event}
    (he : e.mild = true) : InFlush args mountpoint given batch writesAllowed (b.note e) where
  toIdle := h.toIdle.mild he
  current := by
    cases e <;> first | exact h.current | cases he
  covered := h.covered
  held hw := (h.held hw).imp_right (Held.mild he)

theorem InRound.mild (h : InRound args mountpoint given batch writesAllowed cand b) {e : Event}
    (he : e.mild = true) : InRound args mountpoint given batch writesAllowed cand (b.note e) where
  toInFlush := h.toInFlush.mild he
  taken := by
    cases e <;> first | exact h.taken | cases he
  mem := h.mem

/-- Only the trace and the controller matter. -/
theorem InFlush.congr (h : InFlush args mountpoint given batch writesAllowed b) {b' : Books}
    (htrace : b'.trace = b.trace) (hfreeze : b'.freeze = b.freeze) :
    InFlush args mountpoint given batch writesAllowed b' := by
  obtain ⟨⟨h1, h2, h3, h4⟩, h5, h6, h7⟩ := h
  exact ⟨⟨htrace ▸ h1, hfreeze ▸ h2, htrace ▸ h3, hfreeze ▸ h4⟩, htrace ▸ h5, h6, htrace ▸ h7⟩

theorem InFlush.take (h : InFlush args mountpoint given batch writesAllowed b)
    (hmem : cand ∈ batch) :
    InRound args mountpoint given batch writesAllowed cand (b.note (.take cand)) where
  safe := h.safe
  mount := h.mount
  thawed hthaw := by
    cases hthaw with
    | tail _ hthaw => exact h.thawed hthaw
  noError := h.noError
  current := h.current
  covered := h.covered
  held hw := (h.held hw).imp_right fun ⟨hfreeze, hthaw⟩ =>
    ⟨List.mem_cons_of_mem _ hfreeze, fun ok hin => by
      cases hin with | tail _ hin => exact hthaw ok hin⟩
  taken := rfl
  mem := hmem

theorem InRound.write (h : InRound args mountpoint given batch writesAllowed cand b)
    (hasked : Asked cand b) (hreread : Reread cand b) (hrepair : args.dryRun = false)
    (hallowed : writesAllowed = true) {bytes : Vector UInt8 cand.blockSize}
    (hverify : cand.verify bytes.toList = true) :
    InFlush args mountpoint given batch writesAllowed
      (b.note (.write cand.failingDev cand.arrayPhys bytes.toList)) where
  safe := by
    refine ⟨h.safe, h.thawed, hrepair, h.held hallowed, cand, batch, h.taken, h.current, h.mem,
      h.covered cand h.mem, rfl, rfl, by simp, hverify, hasked, ?_⟩
    exact hreread
  mount := h.mount
  thawed hmem := by
    cases hmem with
    | tail _ hmem => exact h.thawed hmem
  noError := h.noError
  current := h.current
  covered := h.covered
  held hw := (h.held hw).imp_right fun ⟨hfreeze, hthaw⟩ =>
    ⟨List.mem_cons_of_mem _ hfreeze, fun ok hin => by
      cases hin with | tail _ hin => exact hthaw ok hin⟩

end Keep

/-! ### The functions of the writer keep their places safe -/

variable {env : WriterEnv σ} {batch : List Candidate} {writesAllowed : Bool}

/-- However the writer stops, the trace is safe. -/
abbrev Guarded (args : WriterArgs) (mountpoint : Option Path) (given : List Candidate)
    (pre : Books → Prop) {α : Type} (x : WriterM σ α) (post : α → Books → Prop) : Prop :=
  Spec pre x post fun _ b => Safe args mountpoint given b.trace

theorem confirm_safe {cand : Candidate} :
    Guarded args mountpoint given (InRound args mountpoint given batch writesAllowed cand)
      (confirm env args cand)
      (fun confirmed b => InRound args mountpoint given batch writesAllowed cand b ∧
        ∀ block unreadable, confirmed = .corrupt block unreadable → Asked cand b ∧ Reread cand b) := by
  unfold confirm
  refine Spec.bind (fun verdict b => InRound args mountpoint given batch writesAllowed cand b ∧
    (verdict = .corruption → Asked cand b)) ?_ fun verdict => ?_
  · refine spec_verdictOf (fun b hb hnone => ⟨hb, fun _ req hreq => ?_⟩)
      fun b req v hb hreq => ⟨hb.mild rfl, fun hv req' hreq' => ?_⟩
    · rw [hnone] at hreq
      cases hreq
    · rw [hreq] at hreq'
      cases hreq'
      rw [hv]
      exact List.mem_cons_self
  · cases verdict with
    | stale => exact Spec.pure fun b hb => ⟨hb.1, fun _ _ h => by cases h⟩
    | unverifiable => exact Spec.pure fun b hb => ⟨hb.1, fun _ _ h => by cases h⟩
    | corruption =>
        have hasked {b : Books} (h : Asked cand b) (got : Option Bytes) :
            Asked cand (b.note (.reread cand.failingDev cand.arrayPhys got)) :=
          fun req hreq => List.mem_cons_of_mem _ (h req hreq)
        refine spec_rereadFailing (fun b hb hun => ⟨hb.1, fun _ _ _ => ⟨hb.2 rfl, ?_⟩⟩)
          (fun b block hb _ => ⟨hb.1.mild rfl, fun block' unreadable h => ?_⟩)
          fun b hb _ => ⟨hb.1.mild rfl, fun _ _ _ => ⟨hasked (hb.2 rfl) none, ?_⟩⟩
        · intro hread
          rw [hun] at hread
          cases hread
        · refine ⟨hasked (hb.2 rfl) _, fun _ => ⟨some block.toList, List.mem_cons_self, ?_⟩⟩
          intro bytes hbytes
          cases hbytes
          split at h
          case isTrue => cases h
          case isFalse hv => exact Bool.eq_false_iff.mpr hv
        · exact fun _ => ⟨none, List.mem_cons_self, fun bytes h => by cases h⟩

theorem processCandidate_safe {hasLiveMount : Bool} {cand : Candidate} (hmem : cand ∈ batch) :
    Guarded args mountpoint given (InFlush args mountpoint given batch writesAllowed)
      (processCandidate env args hasLiveMount writesAllowed cand)
      (fun _ => InFlush args mountpoint given batch writesAllowed) := by
  unfold processCandidate
  refine Spec.bind (fun _ => InRound args mountpoint given batch writesAllowed cand) ?_ fun _ => ?_
  · exact Spec.onBooks fun b hb => hb.take hmem
  refine Spec.bind _ confirm_safe fun confirmed => ?_
  cases confirmed with
  | stale => exact Spec.onBooks fun b hb =>
      (hb.1.mild (e := .classify cand.arrayPhys .stale) rfl).toInFlush.congr rfl rfl
  | skipped => exact Spec.onBooks fun b hb =>
      (hb.1.mild (e := .classify cand.arrayPhys .skipped) rfl).toInFlush.congr rfl rfl
  | corrupt block unreadable =>
      refine Spec.bind (fun _ b => InRound args mountpoint given batch writesAllowed cand b ∧
        Asked cand b ∧ Reread cand b) ?_ fun _ => ?_
      · refine Spec.onBooks fun b hb => ?_
        obtain ⟨hround, hconfirmed⟩ := hb
        obtain ⟨hasked, hreread⟩ := hconfirmed block unreadable rfl
        have hround' := hround.mild (e := .classify cand.arrayPhys .mismatch) rfl
        refine ⟨{ hround' with }, fun req hreq => List.mem_cons_of_mem _ (hasked req hreq), ?_⟩
        intro hread
        obtain ⟨got, hgot, hreject⟩ := hreread hread
        exact ⟨got, List.mem_cons_of_mem _ hgot, hreject⟩
      refine Spec.bind (fun _ => InFlush args mountpoint given batch writesAllowed) ?_
        fun outcome => ?_
      · exact spec_recover (fun b _ hb => hb.1.safe) (fun b _ hb => hb.1.toInFlush)
          (fun b bytes hb hrepair hallowed hverify =>
            hb.1.write hb.2.1 hb.2.2 hrepair hallowed hverify)
          (fun b hb => hb.congr rfl rfl) fun b _ hb => hb
      · exact Spec.onBooks fun b hb =>
          (hb.mild (e := .settle cand.arrayPhys outcome) rfl).congr rfl rfl

theorem flushLoop_safe {hasLiveMount : Bool} {started : Nat} (first : Bool)
    (rest : List Candidate) (hsub : ∀ c ∈ rest, c ∈ batch) :
    Guarded args mountpoint given (InFlush args mountpoint given batch writesAllowed)
      (flushLoop env args hasLiveMount writesAllowed started first rest)
      (fun deferred b => InFlush args mountpoint given batch writesAllowed b ∧
        ∀ c ∈ deferred, c ∈ batch) := by
  induction rest generalizing first with
  | nil => exact Spec.pure fun b hb => ⟨hb, hsub⟩
  | cons cand rest ih =>
      unfold flushLoop
      refine Spec.bind _ (windowExpired_keeps first) fun expired => ?_
      cases expired with
      | true => exact Spec.pure fun b hb => ⟨hb.1, hsub⟩
      | false =>
          refine Spec.bind _ ((processCandidate_safe (hsub cand List.mem_cons_self)).conseq
            (fun b hb => hb.1) fun _ _ hb => hb) fun _ => ?_
          exact ih false fun c hc => hsub c (List.mem_cons_of_mem cand hc)

/-- Thawing is safe anywhere; a failed thaw leaves its error behind. -/
theorem thaw_safe {fail : Stop → Books → Prop} :
    Spec (fun b => Safe args mountpoint given b.trace ∧ b.freeze.mountpoint = mountpoint ∧
        (.thaw false ∈ b.trace → b.freeze.lastThawError.isSome))
      (thaw env)
      (fun _ b => Safe args mountpoint given b.trace ∧ b.freeze.mountpoint = mountpoint ∧
        (.thaw false ∈ b.trace → b.freeze.lastThawError.isSome)) fail := by
  refine spec_thaw (fun b hb _ => hb) (fun b hb _ => hb) fun b r hb _ _ => ?_
  obtain ⟨hsafe, hmount, herror⟩ := hb
  refine ⟨hsafe, (FreezeController.thawed_mountpoint _ r).trans hmount, fun hmem => ?_⟩
  cases r with
  | error e => rfl
  | ok _ =>
      cases hmem with
      | tail _ hmem => exact herror hmem

/-- The start of a flush over `batch`, up to the freeze. -/
theorem guard_safe (hgiven : ∀ c ∈ batch, c ∈ given) :
    Guarded args mountpoint given
      (fun b => Idle args mountpoint given b ∧ currentBatch b.trace = some batch ∧
        sinceFlush b.trace = [])
      (guard env)
      (fun guarded => InFlush args mountpoint given batch
        (guarded.toOption.getD false || !mountpoint.isSome)) := by
  refine spec_guard (fun b hb hnone => ?_) (fun b hb _ => ?_) fun b e hb hsome => ?_
  · obtain ⟨hidle, hbatch, -⟩ := hb
    exact ⟨hidle, hbatch, hgiven, fun _ => .inl (hidle.mount.symm.trans hnone)⟩
  · obtain ⟨hidle, hbatch, hsince⟩ := hb
    refine ⟨⟨⟨hidle.safe, hidle.thawed⟩, hidle.mount, ?_, hidle.noError⟩, hbatch, hgiven,
      fun _ => .inr ⟨List.mem_cons_self, fun ok hmem => ?_⟩⟩
    · intro hmem
      cases hmem with
      | tail _ hmem => exact hidle.thawed hmem
    · rcases List.mem_cons.mp hmem with heq | hmem
      · cases heq
      · change Event.thaw ok ∈ sinceFlush b.trace at hmem
        rw [hsince] at hmem
        cases hmem
  · obtain ⟨hidle, hbatch, -⟩ := hb
    refine ⟨⟨⟨hidle.safe, hidle.thawed⟩, hidle.mount, ?_, hidle.noError⟩, hbatch, hgiven,
      fun hw => ?_⟩
    · intro hmem
      cases hmem with
      | tail _ hmem => exact hidle.thawed hmem
    · rw [hidle.mount] at hsome
      rw [hsome] at hw
      cases hw

theorem flushBatch_safe {pending : List Candidate} (hgiven : ∀ c ∈ pending, c ∈ given) :
    Guarded args mountpoint given (Idle args mountpoint given) (flushBatch env args pending)
      (fun deferred b => Idle args mountpoint given b ∧ ∀ c ∈ deferred, c ∈ given) := by
  have hbatch : ∀ c ∈ batchOf pending, c ∈ given := fun c hc => hgiven c (batchOf_subset pending c hc)
  unfold flushBatch
  refine Spec.bind (fun _ b => Idle args mountpoint given b ∧
    currentBatch b.trace = some (batchOf pending) ∧ sinceFlush b.trace = []) ?_ fun _ => ?_
  · refine Spec.onBooks fun b hb => ⟨⟨hb.safe, hb.mount, fun hmem => ?_, hb.noError⟩, rfl, rfl⟩
    cases hmem with
    | tail _ hmem => exact hb.thawed hmem
  refine Spec.bind (fun a b => a.freeze.mountpoint = mountpoint ∧ Idle args mountpoint given b ∧
    currentBatch b.trace = some (batchOf pending) ∧ sinceFlush b.trace = [])
    (Spec.books _ fun b hb => ⟨hb.1.mount, hb⟩) fun a => ?_
  refine Spec.of_forall fun b₀ hb₀ => ?_
  obtain ⟨hmount, hstart⟩ := hb₀
  have hlive : a.freeze.hasLiveMount = mountpoint.isSome := congrArg Option.isSome hmount
  rw [hlive]
  refine Spec.bind _ ((guard_safe hbatch).conseq (fun b hb => hb ▸ hstart) fun _ _ hb => hb)
    fun guarded => ?_
  refine Spec.bind _ (Spec.world (fun _ => InFlush args mountpoint given (batchOf pending)
    (guarded.toOption.getD false || !mountpoint.isSome)) fun _ _ hb => hb) fun started => ?_
  refine Spec.bind _ (flushLoop_safe true (batchOf pending) fun c hc => hc) fun deferred => ?_
  refine Spec.of_forall fun b₁ hb₁ => ?_
  obtain ⟨hflush, hdeferred⟩ := hb₁
  refine Spec.bind (fun _ b => Safe args mountpoint given b.trace ∧
    b.freeze.mountpoint = mountpoint ∧
    (.thaw false ∈ b.trace → b.freeze.lastThawError.isSome)) ?_ fun _ => ?_
  · unfold releaseGuard
    have hready : Safe args mountpoint given b₁.trace ∧ b₁.freeze.mountpoint = mountpoint ∧
        (.thaw false ∈ b₁.trace → b₁.freeze.lastThawError.isSome) :=
      ⟨hflush.safe, hflush.mount, fun hmem => absurd hmem hflush.thawed⟩
    split
    case isTrue => exact thaw_safe.conseq (fun b hb => hb ▸ hready) fun _ _ hb => hb
    case isFalse => exact Spec.pure fun b hb => hb ▸ hready
  refine Spec.bind (fun err b => Safe args mountpoint given b.trace ∧
    (err = none → Idle args mountpoint given b)) ?_ fun err => ?_
  · refine spec_takeThawError fun b hb => ⟨hb.1, fun hnone => ?_⟩
    refine ⟨hb.1, hb.2.1, fun hmem => ?_, rfl⟩
    have hsome := hb.2.2 hmem
    rw [hnone] at hsome
    cases hsome
  · cases err with
    | some e => exact Spec.throw fun b hb => hb.1
    | none => exact Spec.pure fun b hb => ⟨hb.2 rfl, fun c hc => hbatch c (hdeferred c hc)⟩

theorem drain_safe {fuel : Nat} {pending : List Candidate} (hgiven : ∀ c ∈ pending, c ∈ given) :
    Guarded args mountpoint given (Idle args mountpoint given) (drain env args fuel pending)
      (fun _ => Idle args mountpoint given) := by
  induction fuel generalizing pending with
  | zero =>
      cases pending with
      | nil => exact Spec.pure fun b hb => hb
      | cons c rest => exact Spec.throw fun b hb => hb.safe
  | succ fuel ih =>
      cases pending with
      | nil => exact Spec.pure fun b hb => hb
      | cons c rest =>
          refine Spec.bind _ (flushBatch_safe hgiven) fun deferred => ?_
          refine Spec.of_forall fun b₀ hb₀ => ?_
          exact (ih hb₀.2).conseq (fun b hb => hb ▸ hb₀.1) fun _ _ hb => hb

/-- The writer's loop, by induction on the messages. -/
theorem runWriterLoop_safe {msgs : List BatchMsg} {pending : List Candidate}
    (hmsgs : ∀ c ∈ batchCandidates msgs, c ∈ given) (hgiven : ∀ c ∈ pending, c ∈ given) :
    Guarded args mountpoint given (Idle args mountpoint given) (runWriterLoop env args msgs pending)
      (fun _ => Idle args mountpoint given) := by
  have hend {pending : List Candidate} (hgiven : ∀ c ∈ pending, c ∈ given) :
      Guarded args mountpoint given (Idle args mountpoint given)
        (do drain env args pending.length pending; return (← books).stats : WriterM σ BatchStats)
        fun _ => Idle args mountpoint given := by
    refine Spec.bind _ (drain_safe hgiven) fun _ => ?_
    refine Spec.bind (fun _ => Idle args mountpoint given) (Spec.books _ fun b hb => hb) fun b => ?_
    exact Spec.pure fun b hb => hb
  induction msgs generalizing pending with
  | nil => exact hend hgiven
  | cons msg msgs ih =>
      cases msg with
      | done => exact hend hgiven
      | batch batch =>
          have hboth : ∀ c ∈ pending ++ batch, c ∈ given := fun c hc =>
            (List.mem_append.mp hc).elim (hgiven c) fun hc => hmsgs c (List.mem_append_left _ hc)
          refine Spec.bind _ (flushBatch_safe hboth) fun deferred => ?_
          refine Spec.of_forall fun b₀ hb₀ => ?_
          exact (ih (fun c hc => hmsgs c (List.mem_append_right _ hc)) hb₀.2).conseq
            (fun b hb => hb ▸ hb₀.1) fun _ _ hb => hb

end Safety

/-- The whole life of the writer thread leaves a safe trace. -/
theorem runWriter_safe (env : WriterEnv σ) (args : WriterArgs) (msgs : List BatchMsg) (w : σ)
    (mountpoint : Option Path) (counters : Option StatusCounters) :
    Safe args mountpoint (batchCandidates msgs)
      ((runWriter env args msgs).run (.start w mountpoint counters)).2.books.trace := by
  have hloop : Guarded args mountpoint (batchCandidates msgs)
      (Idle args mountpoint (batchCandidates msgs)) (runWriterLoop env args msgs [])
      fun _ b => Safe args mountpoint (batchCandidates msgs) b.trace :=
    (runWriterLoop_safe (fun _ hc => hc) fun _ hc => (List.not_mem_nil hc).elim).conseq
      (fun _ hb => hb) fun _ _ hb => hb.safe
  have hdrop : Guarded args mountpoint (batchCandidates msgs)
      (fun b => Safe args mountpoint (batchCandidates msgs) b.trace) (thaw env)
      fun _ b => Safe args mountpoint (batchCandidates msgs) b.trace :=
    spec_thaw (fun _ hb _ => hb) (fun _ hb _ => hb) fun _ _ hb _ _ => hb
  exact hdrop.run_state (fun _ _ hb => hb) <| hloop.run_state (fun _ _ hb => hb)
    ⟨trivial, rfl, List.not_mem_nil, rfl⟩

theorem Safe.write {args : WriterArgs} {mountpoint : Option Path} {given : List Candidate}
    {newer older : List Event} {dev : Path} {arrayPhys : Nat} {data : Bytes}
    (h : Safe args mountpoint given (newer ++ .write dev arrayPhys data :: older)) :
    Permitted args mountpoint given dev arrayPhys data older :=
  h.of_append.2.2

theorem Safe.after_failed_thaw {args : WriterArgs} {mountpoint : Option Path}
    {given : List Candidate} {newer older : List Event}
    (h : Safe args mountpoint given (newer ++ .thaw false :: older)) :
    ∀ e ∈ newer, (∀ ok, e ≠ .freeze ok) ∧ ∀ dev arrayPhys data, e ≠ .write dev arrayPhys data := by
  intro e he
  obtain ⟨newest, between, rfl⟩ := List.append_of_mem he
  rw [List.append_assoc, List.cons_append] at h
  have hmem : Event.thaw false ∈ between ++ .thaw false :: older :=
    List.mem_append_right _ List.mem_cons_self
  constructor
  · rintro ok rfl
    exact h.of_append.2 hmem
  · rintro dev arrayPhys data rfl
    exact h.of_append.2.1 hmem

theorem runWriter_writes (env : WriterEnv σ) (args : WriterArgs) (msgs : List BatchMsg) (w : σ)
    (mountpoint : Option Path) (counters : Option StatusCounters) {trace : List Event}
    (htrace : ((runWriter env args msgs).run (.start w mountpoint counters)).2.books.trace = trace) :
    (∀ newer dev arrayPhys data older, trace = newer ++ .write dev arrayPhys data :: older →
      Permitted args mountpoint (batchCandidates msgs) dev arrayPhys data older) ∧
    ∀ newer older, trace = newer ++ .thaw false :: older →
      ∀ e ∈ newer, (∀ ok, e ≠ .freeze ok) ∧ ∀ dev arrayPhys data, e ≠ .write dev arrayPhys data := by
  have hsafe := runWriter_safe env args msgs w mountpoint counters
  rw [htrace] at hsafe
  constructor
  · rintro newer dev arrayPhys data older rfl
    exact hsafe.write
  · rintro newer older rfl
    exact hsafe.after_failed_thaw

/-! A repair under a freeze: one data disk that reads `ff`, its parity disk `22`. -/

def repairEnv : WriterEnv Unit where
  io := { size := fun _ => pure 1
          readExact := fun path _ len => pure (.replicate len (if path = "nmd0" then 0x22 else 0xff))
          writeAll := fun _ _ _ => pure () }
  freezePath _ := pure ()
  thawPath _ := pure ()
  now := pure 0
  reconfirm _ := pure .corruption
  dropCache _ := pure ()
  isBlockDevice _ := pure true

def repairArgs : WriterArgs where
  cfg := { dataDevs := [(1, "nmd1")], parityP := some "nmd0", parityQ := none, rdevOffsets := [],
           slots_sorted := List.pairwise_singleton _ _ }
  scrubSlot := 1
  dryRun := false
  freezeTimeout := 60

def repairCandidate : Candidate where
  arrayPhys := 0
  blockSize := 1
  verify b := b == [0x22]
  rawPhys := 0
  failingDev := "nmd1"
  reconfirm := some { token := 0, storedCsum := [] }
  unreadable := false

theorem runWriter_writes_repair : ∃ newer older,
    ((runWriter repairEnv repairArgs [.batch [repairCandidate], .done]).run
      (.start () (some "/mnt/disk1") none)).2.books.trace =
        newer ++ .write "nmd1" 0 [0x22] :: older ∧
    Permitted repairArgs (some "/mnt/disk1") [repairCandidate] "nmd1" 0 [0x22] older := by
  have htrace : ((runWriter repairEnv repairArgs [.batch [repairCandidate], .done]).run
      (.start () (some "/mnt/disk1") none)).2.books.trace =
        [.thaw true, .settle 0 .readbackFailed] ++ .write "nmd1" 0 [0x22] :: [.classify 0 .mismatch,
          .reread "nmd1" 0 (some [0xff]), .reconfirm { token := 0, storedCsum := [] } .corruption,
          .take repairCandidate, .freeze true, .flush [repairCandidate]] := rfl
  exact ⟨_, _, htrace, (runWriter_writes repairEnv repairArgs _ () _ none htrace).1 _ _ _ _ _ rfl⟩

end Rotshield.BatchRecover
