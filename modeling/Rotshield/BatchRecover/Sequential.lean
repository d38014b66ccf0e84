import Rotshield.BatchRecover.HonestRun
import Rotshield.BatchRecover.Pipeline

/-! The three threads refine the writer's loop: whatever the timing, the writer ends as the loop
ends over the candidates sent, in the order they were sent, in batches of bounded size; or the
accumulator panics as it starts, and the writer's loop ends over no batch at all. -/
namespace Rotshield.BatchRecover
open Lib (Transition bind_of_error bind_of_ok run_bind)

variable {σ : Type}

/-- The list cut into consecutive batches of one to `n` members. -/
structure Batching {α : Type} (n : Nat) (batches : List (List α)) (l : List α) : Prop where
  flatten : batches.flatten = l
  sized : ∀ batch ∈ batches, batch ≠ [] ∧ batch.length ≤ n

theorem Batching.snoc {α : Type} {n : Nat} {batches : List (List α)} {l batch : List α}
    (h : Batching n batches l) (hsized : batch ≠ [] ∧ batch.length ≤ n) :
    Batching n (batches ++ [batch]) (l ++ batch) where
  flatten := by rw [List.flatten_append, h.flatten, List.flatten_singleton]
  sized b hb := by
    rcases List.mem_append.mp hb with hb | hb
    · exact h.sized b hb
    · obtain rfl := List.mem_singleton.mp hb
      exact hsized

theorem Batching.eq_nil {α : Type} {n : Nat} {batches : List (List α)} (h : Batching n batches []) :
    batches = [] := by
  cases batches with
  | nil => rfl
  | cons batch rest =>
      have hempty := List.flatten_eq_nil_iff.mp h.flatten batch List.mem_cons_self
      exact absurd hempty (h.sized batch List.mem_cons_self).1

/-- The largest batch: the first candidate is taken whatever the bound is. -/
def batchLimit (batchMax : Nat) : Nat := max 1 batchMax

/-- A batch the accumulator is filling, or has filled and still holds. -/
def Accumulator.Sized (batchMax : Nat) : Accumulator → Prop
  | .collecting batch => batch ≠ [] ∧ batch.length ≤ batchLimit batchMax
  | .sending batch => batch ≠ [] ∧ batch.length ≤ batchLimit batchMax
  | .finishing batch => batch.length ≤ batchLimit batchMax
  | .starting => True
  | .waiting => True
  | .sendingDone => True
  | .returned => True
  | .panicked _ => True

section Loop
variable (env : WriterEnv σ) (args : WriterArgs)

/-- What the loop does once the channel is closed. -/
def finishLoop (fuel : Nat) (pending : List Candidate) : WriterM σ BatchStats := do
  drain env args fuel pending
  return (← books).stats

/-- The writer thread stands where the loop from `start` stands after the batches `received`. -/
def WriterThread.Follows (start : WriterState σ) (received : List (List Candidate))
    (state : WriterState σ) : WriterThread → Prop
  | .receiving pending => ∀ msgs,
      (runWriterLoop env args (received.map .batch ++ msgs) []).run.run start =
        (runWriterLoop env args msgs pending).run.run state
  | .draining pending => ∃ fuel, pending.length ≤ fuel ∧
      (runWriterLoop env args (messages received) []).run.run start =
        (finishLoop env args fuel pending).run.run state
  | .returned stats => runWriter env args (messages received) start = (.ok stats, state)
  | .stopped why => runWriter env args (messages received) start = (.error why, state)

variable {env args}

theorem finishLoop_cons (fuel : Nat) (c : Candidate) (pending : List Candidate) :
    finishLoop env args (fuel + 1) (c :: pending) =
      flushBatch env args (c :: pending) >>= finishLoop env args fuel := by
  unfold finishLoop
  rw [drain, bind_assoc]

theorem finishLoop_nil (fuel : Nat) (state : WriterState σ) :
    (finishLoop env args fuel []).run.run state = (.ok state.books.stats, state) := by
  cases fuel <;> rfl

theorem finishLoop_zero (c : Candidate) (pending : List Candidate) (state : WriterState σ) :
    (finishLoop env args 0 (c :: pending)).run.run state = (.error .drainFuel, state) := rfl

theorem runWriter_of_loop {msgs : List BatchMsg} {start state : WriterState σ}
    {result : Except Stop BatchStats}
    (h : (runWriterLoop env args msgs []).run.run start = (result, state)) :
    runWriter env args msgs start = (result, ((thaw env).run.run state).2) := by
  have hrun : runWriter env args msgs start =
      (((runWriterLoop env args msgs []).run.run start).1,
        ((thaw env).run.run ((runWriterLoop env args msgs []).run.run start).2).2) := rfl
  rw [hrun, h]

end Loop

section Flush
variable {env : WriterEnv σ} {args : WriterArgs} {s : Pipeline σ} {pending : List Candidate}
  {next : List Candidate → WriterThread} {state : WriterState σ}

theorem Pipeline.flush_ok {deferred : List Candidate}
    (h : (flushBatch env args pending).run.run s.state = (.ok deferred, state)) :
    s.flush env args pending next = { s with writer := next deferred, state } := by
  unfold Pipeline.flush
  rw [h]

theorem Pipeline.flush_error {why : Stop}
    (h : (flushBatch env args pending).run.run s.state = (.error why, state)) :
    s.flush env args pending next =
      { s with writer := .stopped why, state := ((thaw env).run.run state).2 } := by
  unfold Pipeline.flush
  rw [h]

end Flush

/-! ### The threads follow the loop -/

section Follows
variable {env : WriterEnv σ} {args : WriterArgs} {batchMax : Nat} {start : WriterState σ}
  {s s' : Pipeline σ} {received : List (List Candidate)}

/-- The writer received a batching of the oldest candidates sent; the others are on their way. -/
structure Pipeline.Follows (env : WriterEnv σ) (args : WriterArgs) (batchMax : Nat)
    (start : WriterState σ) (received : List (List Candidate)) (s : Pipeline σ) : Prop where
  batching : ∃ front, Batching (batchLimit batchMax) received front ∧
    front ++ (batchCandidates s.chanB ++ (s.acc.held ++ msgCandidates s.chanA)) = s.sent
  chanB : ∀ batch, .batch batch ∈ s.chanB → batch ≠ [] ∧ batch.length ≤ batchLimit batchMax
  acc : s.acc.Sized batchMax
  writer : s.writer.Follows env args start received s.state

/-- The writer stopped, as the loop does over the batches it received. -/
structure Pipeline.Stopped (env : WriterEnv σ) (args : WriterArgs) (batchMax : Nat)
    (start : WriterState σ) (received : List (List Candidate)) (s : Pipeline σ) : Prop where
  batching : ∃ front, Batching (batchLimit batchMax) received front ∧ front <+: s.sent
  stopped : ∃ why, s.writer = .stopped why
  writer : s.writer.Follows env args start received s.state

namespace Pipeline.Follows

/-- The accumulator moves on; what it holds and what is on its way to it stays the same. -/
theorem move (h : s.Follows env args batchMax start received) {acc : Accumulator} {chanA : List Msg}
    (hheld : acc.held ++ msgCandidates chanA = s.acc.held ++ msgCandidates s.chanA)
    (hsized : acc.Sized batchMax) :
    Pipeline.Follows env args batchMax start received { s with acc, chanA } := by
  obtain ⟨front, hfront, hsent⟩ := h.batching
  exact { h with batching := ⟨front, hfront, by rw [← hsent, hheld]⟩, acc := hsized }

/-- The accumulator hands over a message. -/
theorem handOver (h : s.Follows env args batchMax start received) {acc : Accumulator} {msg : BatchMsg}
    (hheld : batchCandidates [msg] ++ acc.held = s.acc.held) (hsized : acc.Sized batchMax)
    (hmsg : ∀ batch, msg = .batch batch → batch ≠ [] ∧ batch.length ≤ batchLimit batchMax) :
    Pipeline.Follows env args batchMax start received { s with acc, chanB := s.chanB ++ [msg] } := by
  obtain ⟨front, hfront, hsent⟩ := h.batching
  refine { h with batching := ⟨front, hfront, ?_⟩, chanB := fun batch hmem => ?_, acc := hsized }
  · rw [← hsent, ← hheld]
    simp
  · rcases List.mem_append.mp hmem with hmem | hmem
    · exact h.chanB batch hmem
    · exact hmsg batch (List.mem_singleton.mp hmem).symm

/-- The flush of a batch, as the loop makes it. -/
theorem recvBatch (h : s.Follows env args batchMax start received) {pending batch : List Candidate}
    {rest : List BatchMsg} (hwriter : s.writer = .receiving pending)
    (hmsg : s.chanB = .batch batch :: rest) :
    let s' := Pipeline.flush env args { s with chanB := rest } (pending ++ batch) .receiving
    s'.Follows env args batchMax start (received ++ [batch]) ∨
      s'.Stopped env args batchMax start (received ++ [batch]) := by
  intro s'
  obtain ⟨front, hfront, hsent⟩ := h.batching
  have hsized := h.chanB batch (by rw [hmsg]; exact List.mem_cons_self)
  have hfront' := hfront.snoc hsized
  rw [hmsg, batchCandidates, List.append_assoc, ← List.append_assoc front] at hsent
  have hfollows := h.writer
  rw [hwriter] at hfollows
  rcases hflush : (flushBatch env args (pending ++ batch)).run.run s.state with
    ⟨why | deferred, state⟩
  · have hs' : s' = { s with
        chanB := rest, writer := .stopped why, state := ((thaw env).run.run state).2 } :=
      Pipeline.flush_error hflush
    right
    rw [hs']
    refine ⟨⟨_, hfront', hsent ▸ List.prefix_append _ _⟩, ⟨why, rfl⟩, ?_⟩
    apply runWriter_of_loop
    have hloop := (hfollows (.batch batch :: [.done])).trans (bind_of_error hflush)
    rwa [messages, List.map_append, List.append_assoc]
  · have hs' : s' = { s with chanB := rest, writer := .receiving deferred, state } :=
      Pipeline.flush_ok hflush
    left
    rw [hs']
    refine { h with
      batching := ⟨_, hfront', hsent⟩
      chanB := fun b hb => h.chanB b (by rw [hmsg]; exact List.mem_cons_of_mem _ hb)
      writer := fun msgs => ?_ }
    have hloop := (hfollows (.batch batch :: msgs)).trans (bind_of_ok hflush)
    rwa [List.map_append, List.append_assoc]

/-- A flush of the drain, as the loop makes it. -/
theorem drainOne (h : s.Follows env args batchMax start received) {c : Candidate}
    {pending : List Candidate} (hwriter : s.writer = .draining (c :: pending))
    (hshorter : ∀ deferred state,
      (flushBatch env args (c :: pending)).run.run s.state = (.ok deferred, state) →
        deferred.length < (c :: pending).length) :
    let s' := Pipeline.flush env args s (c :: pending) .draining
    s'.Follows env args batchMax start received ∨ s'.Stopped env args batchMax start received := by
  intro s'
  obtain ⟨front, hfront, hsent⟩ := h.batching
  have hfollows := h.writer
  rw [hwriter] at hfollows
  obtain ⟨fuel, hfuel, hloop⟩ := hfollows
  cases fuel with
  | zero => cases hfuel
  | succ fuel =>
      rcases hflush : (flushBatch env args (c :: pending)).run.run s.state with
        ⟨why | deferred, state⟩
      · have hs' : s' = { s with writer := .stopped why, state := ((thaw env).run.run state).2 } :=
          Pipeline.flush_error hflush
        right
        rw [hs']
        refine ⟨⟨front, hfront, hsent ▸ List.prefix_append _ _⟩, ⟨why, rfl⟩, ?_⟩
        rw [finishLoop_cons] at hloop
        exact runWriter_of_loop (hloop.trans (bind_of_error hflush))
      · have hs' : s' = { s with writer := .draining deferred, state } := Pipeline.flush_ok hflush
        left
        rw [hs']
        have hlt := hshorter deferred state hflush
        refine { h with batching := ⟨front, hfront, hsent⟩, writer := ⟨fuel, ?_, ?_⟩ }
        · rw [List.length_cons] at hfuel hlt
          omega
        · rw [finishLoop_cons] at hloop
          exact hloop.trans (bind_of_ok hflush)

end Pipeline.Follows

/-- A stopped writer keeps its state, and no candidate is taken back. -/
theorem Pipeline.Stopped.step (h : s.Stopped env args batchMax start received)
    (hstep : Pipeline.Step env args batchMax s s') :
    s'.Stopped env args batchMax start received := by
  obtain ⟨⟨front, hfront, hprefix⟩, ⟨why, hwhy⟩, hwriter⟩ := h
  have hkeeps : s'.state = s.state ∧ s.sent <+: s'.sent := by
    cases hstep with
    | send => exact ⟨rfl, List.prefix_append _ _⟩
    | recvBatch at_ => rw [hwhy] at at_; cases at_
    | drainOne at_ => rw [hwhy] at at_; cases at_
    | drained at_ => rw [hwhy] at at_; cases at_
    | _ => exact ⟨rfl, List.prefix_refl _⟩
  have hwhy' := Pipeline.step_stopped hwhy hstep
  refine ⟨⟨front, hfront, hprefix.trans hkeeps.2⟩, ⟨why, hwhy'⟩, ?_⟩
  rw [hwhy] at hwriter
  rw [hwhy', hkeeps.1]
  exact hwriter

/-- One step of one thread: the writer may have received one more batch. -/
theorem Pipeline.Follows.step (hinv : s.Inv) (h : s.Follows env args batchMax start received)
    (hstep : Pipeline.Step env args batchMax s s') :
    ∃ received', s'.Follows env args batchMax start received' ∨
      s'.Stopped env args batchMax start received' := by
  have hacc := h.acc
  cases hstep with
  | send c =>
      obtain ⟨front, hfront, hsent⟩ := h.batching
      exact ⟨received, .inl { h with
        batching := ⟨front, hfront, by rw [← hsent]; simp [msgCandidates]⟩ }⟩
  | sendRefused => exact ⟨received, .inl h⟩
  | sendDone =>
      obtain ⟨front, hfront, hsent⟩ := h.batching
      exact ⟨received, .inl { h with
        batching := ⟨front, hfront, by rw [← hsent]; simp [msgCandidates]⟩ }⟩
  | dropSender => exact ⟨received, .inl { h with }⟩
  | allocate at_ =>
      exact ⟨received, .inl (h.move (by simp [at_, Accumulator.held]) trivial)⟩
  | panic at_ =>
      refine ⟨received, .inl (h.move ?_ trivial)⟩
      simp [at_, Accumulator.held, msgCandidates]
  | recvFirst at_ msg =>
      refine ⟨received, .inl (h.move ?_ ⟨List.cons_ne_nil _ _, Nat.le_max_left _ _⟩)⟩
      simp [at_, msg, Accumulator.held, msgCandidates]
  | recvFirstDone at_ msg =>
      refine ⟨received, .inl (h.move ?_ (Nat.zero_le _))⟩
      simp [at_, msg, Accumulator.held, msgCandidates]
  | firstDisconnected at_ =>
      exact ⟨received, .inl (h.move (by simp [at_, Accumulator.held]) (Nat.zero_le _))⟩
  | batchFull at_ =>
      rw [at_] at hacc
      exact ⟨received, .inl (h.move (by simp [at_, Accumulator.held]) hacc)⟩
  | recv at_ more msg =>
      refine ⟨received, .inl (h.move ?_ ⟨by simp, ?_⟩)⟩
      · simp [at_, msg, Accumulator.held, msgCandidates]
      · rw [List.length_append, List.length_singleton]
        exact le_max_of_le_right more
  | recvDone at_ more msg =>
      rw [at_] at hacc
      refine ⟨received, .inl (h.move ?_ hacc.2)⟩
      simp [at_, msg, Accumulator.held, msgCandidates]
  | timeout at_ =>
      rw [at_] at hacc
      exact ⟨received, .inl (h.move (by simp [at_, Accumulator.held]) hacc)⟩
  | disconnected at_ =>
      rw [at_] at hacc
      exact ⟨received, .inl (h.move (by simp [at_, Accumulator.held]) hacc.2)⟩
  | @sendBatch batch at_ =>
      rw [at_] at hacc
      refine ⟨received, .inl (h.handOver ?_ trivial fun b hb => ?_)⟩
      · simp [at_, Accumulator.held, batchCandidates]
      · obtain rfl := BatchMsg.batch.inj hb
        exact hacc
  | @sendLast c batch at_ =>
      rw [at_] at hacc
      refine ⟨received, .inl (h.handOver ?_ trivial fun b hb => ?_)⟩
      · simp [at_, Accumulator.held, batchCandidates]
      · obtain rfl := BatchMsg.batch.inj hb
        exact ⟨List.cons_ne_nil _ _, hacc⟩
  | nothingLeft at_ =>
      exact ⟨received, .inl (h.move (by simp [at_, Accumulator.held]) trivial)⟩
  | sendDoneB at_ =>
      refine ⟨received, .inl (h.handOver ?_ trivial fun b hb => by cases hb)⟩
      simp [at_, Accumulator.held, batchCandidates]
  | sendBRefused at_ peer =>
      -- A running accumulator has a receiving writer.
      have hrunning : s.acc.over = false := by
        rcases at_ with ⟨_, hat⟩ | ⟨_, _, hat⟩ | hat <;> rw [hat] <;> rfl
      obtain ⟨-, pending, hwriter⟩ := hinv.live hrunning
      rw [hwriter] at peer
      cases peer
  | recvBatch at_ msg => exact ⟨_, h.recvBatch at_ msg⟩
  | @recvDoneB pending rest at_ msg =>
      obtain ⟨front, hfront, hsent⟩ := h.batching
      have hfollows := h.writer
      rw [at_] at hfollows
      rw [msg, batchCandidates] at hsent
      exact ⟨received, .inl { h with
        batching := ⟨front, hfront, hsent⟩
        chanB := fun b hb => h.chanB b (by rw [msg]; exact List.mem_cons_of_mem _ hb)
        writer := ⟨pending.length, Nat.le_refl _, hfollows [.done]⟩ }⟩
  | @disconnectedB pending at_ =>
      have hfollows := h.writer
      rw [at_] at hfollows
      exact ⟨received, .inl { h with
        batching := h.batching
        writer := ⟨pending.length, Nat.le_refl _, hfollows [.done]⟩ }⟩
  | @drainOne c pending at_ =>
      obtain ⟨count, sectors, hledger, -⟩ := hinv.conserved
      exact ⟨received, h.drainOne at_ fun deferred state hflush =>
        ((flushBatch_account (c :: pending)).run_ok hledger hflush).shorter (List.cons_ne_nil _ _)⟩
  | drained at_ =>
      have hfollows := h.writer
      rw [at_] at hfollows
      obtain ⟨fuel, -, hloop⟩ := hfollows
      exact ⟨received, .inl { h with
        batching := h.batching
        writer := runWriter_of_loop (hloop.trans (finishLoop_nil fuel s.state)) }⟩

theorem Pipeline.start_follows (w : σ) (mountpoint : Option Path) (counters : Option StatusCounters) :
    (Pipeline.start w mountpoint counters).Follows env args batchMax (.start w mountpoint counters)
      [] where
  batching := ⟨[], ⟨rfl, fun _ h => absurd h List.not_mem_nil⟩, rfl⟩
  chanB _ h := absurd h List.not_mem_nil
  acc := trivial
  writer _ := rfl

theorem Pipeline.reachable_follows (h : (pipeline env args batchMax).Reachable s) :
    ∃ w mountpoint counters received,
      s.Follows env args batchMax (.start w mountpoint counters) received ∨
        s.Stopped env args batchMax (.start w mountpoint counters) received := by
  induction h with
  | init hs =>
      obtain ⟨w, mountpoint, counters, rfl⟩ := hs
      exact ⟨w, mountpoint, counters, [], .inl (start_follows w mountpoint counters)⟩
  | step hs hstep ih =>
      obtain ⟨w, mountpoint, counters, received, hfollows | hstopped⟩ := ih
      · rcases reachable_sound hs with hinv | ⟨why, hwhy⟩
        · obtain ⟨received', hnext⟩ := hfollows.step hinv hstep
          exact ⟨w, mountpoint, counters, received', hnext⟩
        · obtain ⟨front, hfront, hsent⟩ := hfollows.batching
          have hstopped : Pipeline.Stopped env args batchMax (.start w mountpoint counters) received _ :=
            ⟨⟨front, hfront, hsent ▸ List.prefix_append _ _⟩, ⟨why, hwhy⟩, hfollows.writer⟩
          exact ⟨w, mountpoint, counters, received, .inr (hstopped.step hstep)⟩
      · exact ⟨w, mountpoint, counters, received, .inr (hstopped.step hstep)⟩

end Follows

/-! ### Every batching happens -/

section Batchings
variable {env : WriterEnv σ} {args : WriterArgs} {batchMax : Nat} {acc : Accumulator}
  {sent pending : List Candidate}
  {state state' : WriterState σ}

/-- The scrub goes on, and no message is on its way. -/
def Pipeline.scrubbing (acc : Accumulator) (sent pending : List Candidate) (state : WriterState σ) :
    Pipeline σ where
  driver := .sending
  sent
  chanA := []
  acc
  chanB := []
  writer := .receiving pending
  state

/-- After the scrub's end, with the accumulator gone. -/
def Pipeline.ending (acc : Accumulator) (sent : List Candidate) (writer : WriterThread)
    (state : WriterState σ) : Pipeline σ where
  driver := .closed
  sent
  chanA := []
  acc
  chanB := []
  writer
  state

/-- A batch is filled one candidate at a time. -/
theorem collect_reachable {batch : List Candidate} (more : List Candidate)
    (hroom : batch.length + more.length ≤ batchMax)
    (h : (pipeline env args batchMax).Reachable
      (.scrubbing (.collecting batch) sent pending state)) :
    (pipeline env args batchMax).Reachable
      (.scrubbing (.collecting (batch ++ more)) (sent ++ more) pending state) := by
  induction more generalizing sent batch with
  | nil => rwa [List.append_nil, List.append_nil]
  | cons c more ih =>
      rw [List.length_cons] at hroom
      have hsend := Transition.Reachable.step h (.send c rfl Nat.zero_lt_one rfl)
      have hrecv : (pipeline env args batchMax).Reachable
          (.scrubbing (.collecting (batch ++ [c])) (sent ++ [c]) pending state) :=
        .step hsend (.recv rfl (by omega) rfl)
      have hmore := ih (by rw [List.length_append, List.length_singleton]; omega) hrecv
      rwa [List.append_assoc, List.append_assoc] at hmore

/-- A batch of a permitted size reaches the writer, which flushes it. -/
theorem batch_reachable {batch : List Candidate}
    (hsized : batch ≠ [] ∧ batch.length ≤ batchLimit batchMax)
    (h : (pipeline env args batchMax).Reachable (.scrubbing .waiting sent pending state)) :
    (pipeline env args batchMax).Reachable
      (Pipeline.flush env args (.scrubbing .waiting (sent ++ batch) pending state)
        (pending ++ batch) .receiving) := by
  obtain ⟨hne, hle⟩ := hsized
  cases batch with
  | nil => exact absurd rfl hne
  | cons c more =>
      rw [batchLimit, List.length_cons] at hle
      have hsend := Transition.Reachable.step h (.send c rfl Nat.zero_lt_one rfl)
      have hfirst : (pipeline env args batchMax).Reachable
          (.scrubbing (.collecting [c]) (sent ++ [c]) pending state) :=
        .step hsend (.recvFirst rfl rfl)
      have hfilled : (pipeline env args batchMax).Reachable
          (.scrubbing (.collecting ([c] ++ more)) (sent ++ [c] ++ more) pending state) := by
        cases more with
        | nil => rwa [List.append_nil, List.append_nil]
        | cons d more =>
            refine collect_reachable (d :: more) ?_ hfirst
            rw [List.length_cons] at hle
            simp only [List.length_cons, List.length_nil]
            omega
      rw [List.append_assoc, List.singleton_append] at hfilled
      have hsending : (pipeline env args batchMax).Reachable
          (.scrubbing (.sending (c :: more)) (sent ++ c :: more) pending state) := by
        by_cases hfull : batchMax ≤ (c :: more).length
        · exact .step hfilled (.batchFull rfl hfull)
        · exact .step hfilled (.timeout rfl (by omega))
      have hgiven := Transition.Reachable.step hsending (.sendBatch rfl Nat.zero_lt_one rfl)
      exact .step hgiven (.recvBatch rfl rfl)

/-- What the writer thread is once the loop ended. -/
def WriterThread.ended : Except Stop BatchStats → WriterThread
  | .ok stats => .returned stats
  | .error why => .stopped why

theorem drained_reachable {fuel : Nat} {result : Except Stop BatchStats}
    (h : (pipeline env args batchMax).Reachable (.ending acc sent (.draining []) state))
    (hloop : (finishLoop env args fuel []).run.run state = (result, state')) :
    (pipeline env args batchMax).Reachable
      (.ending acc sent (.ended result) ((thaw env).run.run state').2) := by
  rw [finishLoop_nil] at hloop
  obtain ⟨rfl, rfl⟩ := Prod.mk.inj hloop
  exact .step h (.drained rfl)

theorem drainOne_ok {c : Candidate} {deferred : List Candidate} {state₁ : WriterState σ}
    (h : (pipeline env args batchMax).Reachable (.ending acc sent (.draining (c :: pending)) state))
    (hflush : (flushBatch env args (c :: pending)).run.run state = (.ok deferred, state₁)) :
    (pipeline env args batchMax).Reachable (.ending acc sent (.draining deferred) state₁) := by
  have hstep := Transition.Reachable.step h (.drainOne rfl)
  rwa [Pipeline.flush_ok (s := .ending acc sent (.draining (c :: pending)) state) hflush] at hstep

theorem drainOne_error {c : Candidate} {why : Stop} {state₁ : WriterState σ}
    (h : (pipeline env args batchMax).Reachable (.ending acc sent (.draining (c :: pending)) state))
    (hflush : (flushBatch env args (c :: pending)).run.run state = (.error why, state₁)) :
    (pipeline env args batchMax).Reachable
      (.ending acc sent (.stopped why) ((thaw env).run.run state₁).2) := by
  have hstep := Transition.Reachable.step h (.drainOne rfl)
  rwa [Pipeline.flush_error (s := .ending acc sent (.draining (c :: pending)) state) hflush] at hstep

/-- The drain, one flush a step. -/
theorem drain_reachable {fuel : Nat} {result : Except Stop BatchStats}
    (hfuel : result ≠ .error .drainFuel)
    (h : (pipeline env args batchMax).Reachable (.ending acc sent (.draining pending) state))
    (hloop : (finishLoop env args fuel pending).run.run state = (result, state')) :
    (pipeline env args batchMax).Reachable
      (.ending acc sent (.ended result) ((thaw env).run.run state').2) := by
  induction fuel generalizing pending state with
  | zero =>
      cases pending with
      | nil => exact drained_reachable h hloop
      | cons c pending =>
          rw [finishLoop_zero] at hloop
          exact absurd (Prod.mk.inj hloop).1.symm hfuel
  | succ fuel ih =>
      cases pending with
      | nil => exact drained_reachable h hloop
      | cons c pending =>
          rw [finishLoop_cons] at hloop
          rcases hflush : (flushBatch env args (c :: pending)).run.run state with
            ⟨why | deferred, state₁⟩
          · rw [run_bind, hflush] at hloop
            obtain ⟨rfl, rfl⟩ := Prod.mk.inj hloop
            exact drainOne_error h hflush
          · rw [run_bind, hflush] at hloop
            exact ih (drainOne_ok h hflush) hloop

/-- The loop over any batches of a permitted size, by induction on them. -/
theorem loop_reachable {batches : List (List Candidate)} {result : Except Stop BatchStats}
    (hsized : ∀ batch ∈ batches, batch ≠ [] ∧ batch.length ≤ batchLimit batchMax)
    (hfuel : result ≠ .error .drainFuel)
    (h : (pipeline env args batchMax).Reachable (.scrubbing .waiting sent pending state))
    (hloop : (runWriterLoop env args (messages batches) pending).run.run state = (result, state')) :
    ∃ s, (pipeline env args batchMax).Reachable s ∧ s.writer = .ended result ∧
      s.state = ((thaw env).run.run state').2 ∧
      ((∃ stats, result = .ok stats) → s.acc = .returned ∧ s.sent = sent ++ batches.flatten) := by
  induction batches generalizing sent pending state with
  | nil =>
      have h := Transition.Reachable.step h (.sendDone rfl Nat.zero_lt_one rfl)
      have h := Transition.Reachable.step h (.recvFirstDone rfl rfl)
      have h := Transition.Reachable.step h (.nothingLeft rfl)
      have h := Transition.Reachable.step h (.sendDoneB rfl Nat.zero_lt_one rfl)
      have h : (pipeline env args batchMax).Reachable
          (.ending .returned sent (.draining pending) state) := .step h (.recvDoneB rfl rfl)
      exact ⟨_, drain_reachable hfuel h hloop, rfl, rfl,
        fun _ => ⟨rfl, (List.append_nil sent).symm⟩⟩
  | cons batch batches ih =>
      have hstep := batch_reachable (hsized batch List.mem_cons_self) h
      replace hloop : (flushBatch env args (pending ++ batch) >>=
          runWriterLoop env args (messages batches)).run.run state = (result, state') := hloop
      rw [run_bind] at hloop
      rcases hflush : (flushBatch env args (pending ++ batch)).run.run state with
        ⟨why | deferred, state₁⟩
      · rw [hflush] at hloop
        obtain ⟨rfl, rfl⟩ := Prod.mk.inj hloop
        rw [Pipeline.flush_error (s := .scrubbing .waiting (sent ++ batch) pending state) hflush]
          at hstep
        exact ⟨_, hstep, rfl, rfl, fun ⟨_, hok⟩ => by cases hok⟩
      · rw [Pipeline.flush_ok (s := .scrubbing .waiting (sent ++ batch) pending state) hflush] at hstep
        have hnext : (pipeline env args batchMax).Reachable
            (.scrubbing .waiting (sent ++ batch) deferred state₁) := hstep
        rw [hflush] at hloop
        obtain ⟨s, hs, hwriter, hstate, hsent⟩ :=
          ih (fun b hb => hsized b (List.mem_cons_of_mem _ hb)) hnext hloop
        refine ⟨s, hs, hwriter, hstate, fun hok => ⟨(hsent hok).1, ?_⟩⟩
        rw [(hsent hok).2, List.flatten_cons, List.append_assoc]

end Batchings

/-! ### The refinement -/

section Refinement
variable (env : WriterEnv σ) (args : WriterArgs) (batchMax : Nat)

/-- A run of the writer's loop over the batches, and how it ends. -/
def EndsOver (batches : List (List Candidate)) (result : Except Stop BatchStats)
    (state : WriterState σ) : Prop :=
  ∃ w mountpoint counters,
    runWriter env args (messages batches) (.start w mountpoint counters) = (result, state)

section Ends
variable {env : WriterEnv σ} {args : WriterArgs} {batchMax : Nat} {batches : List (List Candidate)}
  {result : Except Stop BatchStats} {state : WriterState σ} {s : Pipeline σ} {stats : BatchStats}

theorem EndsOver.reachable (hfits : batchMax ≤ maxCapacity)
    (hsized : ∀ batch ∈ batches, batch ≠ [] ∧ batch.length ≤ batchLimit batchMax)
    (h : EndsOver env args batches result state) :
    ∃ s, (pipeline env args batchMax).Reachable s ∧ s.writer = .ended result ∧ s.state = state ∧
      ((∃ stats, result = .ok stats) → s.acc = .returned ∧ s.sent = batches.flatten) := by
  obtain ⟨w, mountpoint, counters, hrun⟩ := h
  rcases hloop : (runWriterLoop env args (messages batches) []).run.run
    (.start w mountpoint counters) with ⟨result', state'⟩
  rw [runWriter_of_loop hloop] at hrun
  cases hrun
  have hledger : Ledger 0 0 [] (WriterState.start w mountpoint counters).books :=
    ⟨rfl, rfl, fun _ h => absurd h List.not_mem_nil, fun _ _ h => absurd h List.not_mem_nil⟩
  have hfuel : result ≠ .error .drainFuel := by
    rintro rfl
    exact runWriterLoop_account.run_error hledger hloop rfl
  have hstart : (pipeline env args batchMax).Reachable
      (.scrubbing .waiting [] [] (.start w mountpoint counters)) :=
    .step (.init ⟨w, mountpoint, counters, rfl⟩) (.allocate rfl hfits)
  exact loop_reachable hsized hfuel hstart hloop

/-- Where the batch does not fit, the accumulator may panic on what was sent. -/
theorem panicked_reachable (w : σ) (mountpoint : Option Path) (counters : Option StatusCounters)
    (hoverflow : maxCapacity < batchMax) {sent : List Candidate} (hsent : sent.length ≤ capacity) :
    (pipeline env args batchMax).Reachable
      (.ending (.panicked sent) sent (.receiving []) (.start w mountpoint counters)) := by
  have hstart : (pipeline env args batchMax).Reachable (.start w mountpoint counters) :=
    .init ⟨w, mountpoint, counters, rfl⟩
  cases sent with
  | nil =>
      have hpanic := Transition.Reachable.step hstart (.panic rfl hoverflow)
      exact .step hpanic (.dropSender rfl)
  | cons c rest =>
      obtain rfl : rest = [] :=
        List.eq_nil_of_length_eq_zero (Nat.le_zero.mp (Nat.le_of_succ_le_succ hsent))
      have hsend := Transition.Reachable.step hstart (.send c rfl Nat.zero_lt_one rfl)
      have hpanic := Transition.Reachable.step hsend (.panic rfl hoverflow)
      exact .step hpanic (.dropSender rfl)

theorem EndsOver.panicked (hoverflow : maxCapacity < batchMax) {sent : List Candidate}
    (hsent : sent.length ≤ capacity) (h : EndsOver env args [] (.ok stats) state) :
    ∃ s, (pipeline env args batchMax).Reachable s ∧ s.sent = sent ∧ s.acc = .panicked sent ∧
      s.writer = .returned stats ∧ s.state = state := by
  obtain ⟨w, mountpoint, counters, hrun⟩ := h
  have hclosed : (pipeline env args batchMax).Reachable (.ending (.panicked sent) sent
      (.draining []) (.start w mountpoint counters)) :=
    .step (panicked_reachable w mountpoint counters hoverflow hsent) (.disconnectedB rfl rfl rfl)
  have hloop : (runWriterLoop env args (messages []) []).run.run (.start w mountpoint counters) =
      (.ok (WriterState.start w mountpoint counters).books.stats, .start w mountpoint counters) := rfl
  rw [runWriter_of_loop hloop] at hrun
  cases hrun
  exact ⟨_, .step hclosed (.drained rfl), rfl, rfl, rfl, rfl⟩

/-- Where the writer returned, it received a batching of all that was sent, or the accumulator
panicked and it received nothing. -/
theorem Pipeline.returned_endsOver (h : (pipeline env args batchMax).Reachable s)
    (hend : s.writer = .returned stats) :
    ∃ batches, EndsOver env args batches (.ok stats) s.state ∧
      ((s.acc = .returned ∧ batchMax ≤ maxCapacity ∧
          Batching (batchLimit batchMax) batches s.sent) ∨
        s.acc = .panicked s.sent ∧ maxCapacity < batchMax ∧ s.sent.length ≤ capacity ∧
          batches = []) := by
  obtain ⟨w, mountpoint, counters, received, hfollows | hstopped⟩ := Pipeline.reachable_follows h
  · obtain ⟨front, hfront, hsent⟩ := hfollows.batching
    have hwriter := hfollows.writer
    rw [hend] at hwriter
    obtain ⟨-, -, hchanA, hchanB⟩ := returned_over h hend
    rw [hchanB, hchanA] at hsent
    refine ⟨received, ⟨w, mountpoint, counters, hwriter⟩, ?_⟩
    rcases returned_acc h hend with ⟨hacc, hfits⟩ | ⟨hacc, hoverflow, hlength⟩
    · rw [hacc] at hsent
      obtain rfl : front = s.sent := by
        simpa [batchCandidates, Accumulator.held, msgCandidates] using hsent
      exact .inl ⟨hacc, hfits, hfront⟩
    · rw [hacc] at hsent
      obtain rfl : front = [] := by
        simpa [batchCandidates, Accumulator.held, msgCandidates] using hsent
      exact .inr ⟨hacc, hoverflow, hlength, hfront.eq_nil⟩
  · obtain ⟨why, hwhy⟩ := hstopped.stopped
    rw [hwhy] at hend
    cases hend

theorem Pipeline.stopped_endsOver (h : (pipeline env args batchMax).Reachable s) {why : Stop}
    (hend : s.writer = .stopped why) :
    batchMax ≤ maxCapacity ∧ ∃ batches front, Batching (batchLimit batchMax) batches front ∧
      front <+: s.sent ∧ EndsOver env args batches (.error why) s.state := by
  have hbegun := Begun.reachable h
  have hfits : batchMax ≤ maxCapacity := by
    refine hbegun.fits ?_
    by_contra hnot
    have hidle := hbegun.writer (by simpa using hnot)
    rw [hend] at hidle
    cases hidle
  refine ⟨hfits, ?_⟩
  obtain ⟨w, mountpoint, counters, received, hfollows | hstopped⟩ := Pipeline.reachable_follows h
  · obtain ⟨front, hfront, hsent⟩ := hfollows.batching
    have hwriter := hfollows.writer
    rw [hend] at hwriter
    exact ⟨received, front, hfront, hsent ▸ List.prefix_append _ _, w, mountpoint, counters, hwriter⟩
  · obtain ⟨front, hfront, hsent⟩ := hstopped.batching
    have hwriter := hstopped.writer
    rw [hend] at hwriter
    exact ⟨received, front, hfront, hsent, w, mountpoint, counters, hwriter⟩

end Ends

/-- The ends of the three threads are those of the writer's loop over the batchings of what was
sent, and over all of them, where the batch fits in memory. Where it does not, the accumulator
panics, and the ends are those of the loop over no batch, with at most one candidate sent. -/
theorem pipeline_refines_writer (state : WriterState σ) :
    (∀ sent stats,
      (∃ s, (pipeline env args batchMax).Reachable s ∧ s.sent = sent ∧ s.acc = .returned ∧
        s.writer = .returned stats ∧ s.state = state) ↔
      batchMax ≤ maxCapacity ∧ ∃ batches, Batching (batchLimit batchMax) batches sent ∧
        EndsOver env args batches (.ok stats) state) ∧
    (∀ why,
      (∃ s, (pipeline env args batchMax).Reachable s ∧ s.writer = .stopped why ∧ s.state = state) ↔
      batchMax ≤ maxCapacity ∧ ∃ batches front, Batching (batchLimit batchMax) batches front ∧
        EndsOver env args batches (.error why) state) ∧
    ∀ sent stats,
      (∃ s, (pipeline env args batchMax).Reachable s ∧ s.sent = sent ∧ s.acc ≠ .returned ∧
        s.writer = .returned stats ∧ s.state = state) ↔
      maxCapacity < batchMax ∧ sent.length ≤ capacity ∧ EndsOver env args [] (.ok stats) state := by
  refine ⟨fun sent stats => ⟨?_, ?_⟩, fun why => ⟨?_, ?_⟩, fun sent stats => ⟨?_, ?_⟩⟩
  · rintro ⟨s, h, rfl, hacc, hend, rfl⟩
    obtain ⟨batches, hends, ⟨-, hfits, hbatching⟩ | ⟨hpanicked, -⟩⟩ :=
      Pipeline.returned_endsOver h hend
    · exact ⟨hfits, batches, hbatching, hends⟩
    · rw [hacc] at hpanicked
      cases hpanicked
  · rintro ⟨hfits, batches, hbatching, hends⟩
    obtain ⟨s, h, hwriter, hstate, hok⟩ := hends.reachable hfits hbatching.sized
    obtain ⟨hacc, hsent⟩ := hok ⟨stats, rfl⟩
    exact ⟨s, h, hsent.trans hbatching.flatten, hacc, hwriter, hstate⟩
  · rintro ⟨s, h, hend, rfl⟩
    obtain ⟨hfits, batches, front, hbatching, -, hends⟩ := Pipeline.stopped_endsOver h hend
    exact ⟨hfits, batches, front, hbatching, hends⟩
  · rintro ⟨hfits, batches, front, hbatching, hends⟩
    obtain ⟨s, h, hwriter, hstate, -⟩ := hends.reachable hfits hbatching.sized
    exact ⟨s, h, hwriter, hstate⟩
  · rintro ⟨s, h, rfl, hacc, hend, rfl⟩
    obtain ⟨batches, hends, ⟨hreturned, -⟩ | ⟨-, hoverflow, hlength, rfl⟩⟩ :=
      Pipeline.returned_endsOver h hend
    · exact absurd hreturned hacc
    · exact ⟨hoverflow, hlength, hends⟩
  · rintro ⟨hoverflow, hlength, hends⟩
    obtain ⟨s, h, hsent, hacc, hwriter, hstate⟩ := hends.panicked hoverflow hlength
    exact ⟨s, h, hsent, by rw [hacc]; exact nofun, hwriter, hstate⟩

end Refinement
end Rotshield.BatchRecover
