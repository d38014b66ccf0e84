import Rotshield.BatchRecover.Ledger
import Rotshield.Lib.Transition

/-! The scrub, accumulator and writer threads, joined by two channels of capacity one.
A flush talks to no other thread, so it is one step. -/
namespace Rotshield.BatchRecover
open Lib (Transition)

variable {σ : Type}

/-- Messages from the scrub thread to the accumulator. -/
inductive Msg where
  | candidate (c : Candidate)
  | done

/-- The scrub thread's end of the candidate channel: open, or closed by `Done` or a drop. -/
inductive Driver where
  | sending
  | closed
  deriving DecidableEq

inductive Accumulator where
  /-- The vector of the batch is about to be allocated. -/
  | starting
  /-- In the outer `recv`; nothing is held. -/
  | waiting
  /-- In the inner loop. -/
  | collecting (batch : List Candidate)
  /-- Handing over a batch, then back to `waiting`. -/
  | sending (batch : List Candidate)
  /-- The scrub finished: hand over the rest, then `Done`. -/
  | finishing (batch : List Candidate)
  | sendingDone
  | returned
  /-- The capacity overflowed. What was in the channel is gone with the receiver. -/
  | panicked (lost : List Candidate)

inductive WriterThread where
  | receiving (pending : List Candidate)
  | draining (pending : List Candidate)
  | returned (stats : BatchStats)
  | stopped (why : Stop)

structure Pipeline (σ : Type) where
  driver : Driver
  /-- The candidates whose send succeeded; the driver keeps their number. -/
  sent : List Candidate
  chanA : List Msg
  acc : Accumulator
  chanB : List BatchMsg
  writer : WriterThread
  state : WriterState σ

def capacity : Nat := 1

/-- `size_of::<Candidate>()` where a pointer has 64 bits. -/
def candidateSize : Nat := 104

/-- The candidates that fit in `isize::MAX` bytes: `Vec::with_capacity` panics above. -/
def maxCapacity : Nat := (2 ^ 63 - 1) / candidateSize

def Accumulator.over : Accumulator → Bool
  | .returned => true
  | .panicked _ => true
  | _ => false

def msgCandidates : List Msg → List Candidate
  | [] => []
  | .candidate c :: rest => c :: msgCandidates rest
  | .done :: rest => msgCandidates rest

def WriterThread.over : WriterThread → Bool
  | .receiving _ => false
  | .draining _ => false
  | .returned _ => true
  | .stopped _ => true

/-- What a flush of `pending` makes of the writer; `next` is its place after a normal end. -/
def Pipeline.flush (env : WriterEnv σ) (args : WriterArgs) (s : Pipeline σ)
    (pending : List Candidate) (next : List Candidate → WriterThread) : Pipeline σ :=
  match (flushBatch env args pending).run.run s.state with
  | (.ok deferred, state) => { s with writer := next deferred, state }
  -- The controller is dropped with the thread.
  | (.error why, state) =>
      { s with writer := .stopped why, state := ((thaw env).run.run state).2 }

/-- One step of one thread. A timeout may come whenever the accumulator waits for more. -/
inductive Pipeline.Step (env : WriterEnv σ) (args : WriterArgs) (batchMax : Nat) :
    Pipeline σ → Pipeline σ → Prop where
  | send {s} (c : Candidate) (open_ : s.driver = .sending) (room : s.chanA.length < capacity)
      (peer : s.acc.over = false) :
      Step env args batchMax s
        { s with sent := s.sent ++ [c], chanA := s.chanA ++ [.candidate c] }
  /-- The receiver is gone: the send fails and nothing is counted. -/
  | sendRefused {s} (open_ : s.driver = .sending) (peer : s.acc.over = true) :
      Step env args batchMax s s
  | sendDone {s} (open_ : s.driver = .sending) (room : s.chanA.length < capacity)
      (peer : s.acc.over = false) :
      Step env args batchMax s { s with driver := .closed, chanA := s.chanA ++ [.done] }
  /-- The scrub failed, or nobody receives its `Done`. -/
  | dropSender {s} (open_ : s.driver = .sending) :
      Step env args batchMax s { s with driver := .closed }
  | allocate {s} (at_ : s.acc = .starting) (fits : batchMax ≤ maxCapacity) :
      Step env args batchMax s { s with acc := .waiting }
  | panic {s} (at_ : s.acc = .starting) (overflow : maxCapacity < batchMax) :
      Step env args batchMax s { s with acc := .panicked (msgCandidates s.chanA), chanA := [] }
  | recvFirst {s} {c : Candidate} {rest : List Msg} (at_ : s.acc = .waiting)
      (msg : s.chanA = .candidate c :: rest) :
      Step env args batchMax s { s with acc := .collecting [c], chanA := rest }
  | recvFirstDone {s} {rest : List Msg} (at_ : s.acc = .waiting) (msg : s.chanA = .done :: rest) :
      Step env args batchMax s { s with acc := .finishing [], chanA := rest }
  | firstDisconnected {s} (at_ : s.acc = .waiting) (empty : s.chanA = [])
      (peer : s.driver = .closed) :
      Step env args batchMax s { s with acc := .finishing [] }
  | batchFull {s} {batch : List Candidate} (at_ : s.acc = .collecting batch)
      (full : batchMax ≤ batch.length) :
      Step env args batchMax s { s with acc := .sending batch }
  | recv {s} {batch : List Candidate} {c : Candidate} {rest : List Msg}
      (at_ : s.acc = .collecting batch) (more : batch.length < batchMax)
      (msg : s.chanA = .candidate c :: rest) :
      Step env args batchMax s { s with acc := .collecting (batch ++ [c]), chanA := rest }
  | recvDone {s} {batch : List Candidate} {rest : List Msg} (at_ : s.acc = .collecting batch)
      (more : batch.length < batchMax) (msg : s.chanA = .done :: rest) :
      Step env args batchMax s { s with acc := .finishing batch, chanA := rest }
  | timeout {s} {batch : List Candidate} (at_ : s.acc = .collecting batch)
      (more : batch.length < batchMax) :
      Step env args batchMax s { s with acc := .sending batch }
  | disconnected {s} {batch : List Candidate} (at_ : s.acc = .collecting batch)
      (more : batch.length < batchMax) (empty : s.chanA = []) (peer : s.driver = .closed) :
      Step env args batchMax s { s with acc := .finishing batch }
  | sendBatch {s} {batch : List Candidate} (at_ : s.acc = .sending batch)
      (room : s.chanB.length < capacity) (peer : s.writer.over = false) :
      Step env args batchMax s { s with acc := .waiting, chanB := s.chanB ++ [.batch batch] }
  | sendLast {s} {c : Candidate} {batch : List Candidate} (at_ : s.acc = .finishing (c :: batch))
      (room : s.chanB.length < capacity) (peer : s.writer.over = false) :
      Step env args batchMax s
        { s with acc := .sendingDone, chanB := s.chanB ++ [.batch (c :: batch)] }
  | nothingLeft {s} (at_ : s.acc = .finishing []) :
      Step env args batchMax s { s with acc := .sendingDone }
  | sendDoneB {s} (at_ : s.acc = .sendingDone) (room : s.chanB.length < capacity)
      (peer : s.writer.over = false) :
      Step env args batchMax s { s with acc := .returned, chanB := s.chanB ++ [.done] }
  /-- The writer is gone: every send to it fails and the accumulator returns. -/
  | sendBRefused {s} (at_ : (∃ batch, s.acc = .sending batch) ∨
      (∃ c batch, s.acc = .finishing (c :: batch)) ∨ s.acc = .sendingDone)
      (peer : s.writer.over = true) :
      Step env args batchMax s { s with acc := .returned }
  | recvBatch {s} {pending batch : List Candidate} {rest : List BatchMsg}
      (at_ : s.writer = .receiving pending) (msg : s.chanB = .batch batch :: rest) :
      Step env args batchMax s
        (Pipeline.flush env args { s with chanB := rest } (pending ++ batch) .receiving)
  | recvDoneB {s} {pending : List Candidate} {rest : List BatchMsg}
      (at_ : s.writer = .receiving pending) (msg : s.chanB = .done :: rest) :
      Step env args batchMax s { s with writer := .draining pending, chanB := rest }
  | disconnectedB {s} {pending : List Candidate} (at_ : s.writer = .receiving pending)
      (empty : s.chanB = []) (peer : s.acc.over = true) :
      Step env args batchMax s { s with writer := .draining pending }
  | drainOne {s} {c : Candidate} {pending : List Candidate}
      (at_ : s.writer = .draining (c :: pending)) :
      Step env args batchMax s (Pipeline.flush env args s (c :: pending) .draining)
  | drained {s} (at_ : s.writer = .draining []) :
      Step env args batchMax s
        { s with writer := .returned s.state.books.stats
                 state := ((thaw env).run.run s.state).2 }

/-- The pipeline as it is spawned, over any world. -/
def Pipeline.start (w : σ) (mountpoint : Option Path) (counters : Option StatusCounters) :
    Pipeline σ where
  driver := .sending
  sent := []
  chanA := []
  acc := .starting
  chanB := []
  writer := .receiving []
  state := .start w mountpoint counters

/-- The three threads from the spawn on. -/
def pipeline (env : WriterEnv σ) (args : WriterArgs) (batchMax : Nat) : Transition (Pipeline σ) where
  init s := ∃ w mountpoint counters, s = Pipeline.start w mountpoint counters
  step := Pipeline.Step env args batchMax

/-! ### The candidates on their way -/

@[simp] theorem msgCandidates_append (l l' : List Msg) :
    msgCandidates (l ++ l') = msgCandidates l ++ msgCandidates l' := by
  induction l with
  | nil => rfl
  | cons m l ih => cases m <;> simp [msgCandidates, ih]

@[simp] theorem batchCandidates_append (l l' : List BatchMsg) :
    batchCandidates (l ++ l') = batchCandidates l ++ batchCandidates l' := by
  induction l with
  | nil => rfl
  | cons m l ih => cases m <;> simp [batchCandidates, ih]

/-- What it has taken from its channel, or taken down with it. -/
def Accumulator.held : Accumulator → List Candidate
  | .starting => []
  | .waiting => []
  | .collecting batch => batch
  | .sending batch => batch
  | .finishing batch => batch
  | .sendingDone => []
  | .returned => []
  | .panicked lost => lost

/-- It has not learnt that the scrub is over. -/
def Accumulator.isOpen : Accumulator → Bool
  | .starting => true
  | .waiting => true
  | .collecting _ => true
  | .sending _ => true
  | .finishing _ => false
  | .sendingDone => false
  | .returned => false
  | .panicked _ => true

def WriterThread.pending : WriterThread → List Candidate
  | .receiving pending => pending
  | .draining pending => pending
  | .returned _ => []
  | .stopped _ => []

/-- Oldest first: what the writer keeps, then what is on its way to it. -/
def Pipeline.inFlight (s : Pipeline σ) : List Candidate :=
  s.writer.pending ++ (batchCandidates s.chanB ++ (s.acc.held ++ msgCandidates s.chanA))

/-- Every sent candidate is in flight or accounted for. -/
def Conserved (sent inFlight : List Candidate) (b : Books) : Prop :=
  ∃ count sectors, Ledger count 0 sectors b ∧ sent.length = inFlight.length + count ∧
    ∀ c ∈ sent, c.arrayPhys ∈ sectors ∨ ∃ c' ∈ inFlight, c'.arrayPhys = c.arrayPhys

theorem Conserved.send {sent inFlight : List Candidate} {b : Books} (h : Conserved sent inFlight b)
    (c : Candidate) : Conserved (sent ++ [c]) (inFlight ++ [c]) b := by
  obtain ⟨count, sectors, hledger, hcount, hcover⟩ := h
  refine ⟨count, sectors, hledger, ?_, ?_⟩
  · rw [List.length_append, List.length_append, hcount]
    omega
  · intro d hd
    rcases List.mem_append.mp hd with hd | hd
    · rcases hcover d hd with hmem | ⟨c', hc', heq⟩
      · exact .inl hmem
      · exact .inr ⟨c', List.mem_append_left _ hc', heq⟩
    · exact .inr ⟨d, List.mem_append_right _ hd, rfl⟩

/-- A flush turns the oldest candidates in flight into deferred ones and accounts. -/
theorem Conserved.flush {env : WriterEnv σ} {args : WriterArgs} {sent pending rest : List Candidate}
    {st : WriterState σ} (h : Conserved sent (pending ++ rest) st.books) {deferred : List Candidate}
    {st' : WriterState σ} (hrun : (flushBatch env args pending).run.run st = (.ok deferred, st')) :
    Conserved sent (deferred ++ rest) st'.books := by
  obtain ⟨count, sectors, hledger, hcount, hcover⟩ := h
  obtain ⟨hshorter, hsubset, now, hledger', hcover'⟩ :=
    (flushBatch_account pending).run_ok hledger hrun
  refine ⟨_, _, hledger', ?_, ?_⟩
  · have hle : deferred.length ≤ pending.length := by
      by_cases hnil : pending = []
      · subst hnil
        rw [List.eq_nil_iff_forall_not_mem.mpr fun c hc => List.not_mem_nil (hsubset c hc)]
      · exact (hshorter hnil).le
    rw [List.length_append] at hcount ⊢
    omega
  · intro c hc
    rcases hcover c hc with hmem | ⟨c', hc', heq⟩
    · exact .inl (List.mem_append_right _ hmem)
    · rcases List.mem_append.mp hc' with hc' | hc'
      · rcases hcover' c' hc' with hnow | ⟨d, hd, heq'⟩
        · exact .inl (List.mem_append_left _ (heq ▸ hnow))
        · exact .inr ⟨d, List.mem_append_left _ hd, heq'.trans heq⟩
      · exact .inr ⟨c', List.mem_append_right _ hc', heq⟩

theorem Conserved.thaw {env : WriterEnv σ} {sent inFlight : List Candidate} {st : WriterState σ}
    (h : Conserved sent inFlight st.books) :
    Conserved sent inFlight ((thaw env).run.run st).2.books := by
  obtain ⟨count, sectors, hledger, hrest⟩ := h
  have hkeep : Spec (Ledger count 0 sectors) (BatchRecover.thaw env)
      (fun _ => Ledger count 0 sectors) fun _ => Ledger count 0 sectors := thaw_account
  exact ⟨count, sectors, hkeep.run_state (fun _ _ => id) hledger, hrest⟩

theorem thaw_stats (env : WriterEnv σ) (st : WriterState σ) :
    ((thaw env).run.run st).2.books.stats = st.books.stats := by
  have hkeep : Spec (fun b => b.stats = st.books.stats) (BatchRecover.thaw env)
      (fun _ b => b.stats = st.books.stats) fun _ b => b.stats = st.books.stats :=
    spec_thaw (fun _ hb _ => hb) (fun _ hb _ => hb) fun _ _ hb _ _ => hb
  exact hkeep.run_state (fun _ _ => id) rfl

/-- What holds between the threads while the writer has not stopped early. -/
structure Pipeline.Inv (s : Pipeline σ) : Prop where
  conserved : Conserved s.sent s.inFlight s.state.books
  sending : s.driver = .sending → s.acc.isOpen = true ∧ .done ∉ s.chanA
  closing : s.acc.isOpen = false → s.driver = .closed ∧ s.chanA = []
  doneLast : .done ∈ s.chanA → s.chanA = [.done]
  doneLastB : .done ∈ s.chanB → s.acc = .returned ∧ s.chanB = [.done]
  lost : ∀ lost, s.acc = .panicked lost → s.chanA = []
  ending : (∀ pending, s.writer ≠ .receiving pending) → s.acc.over = true ∧ s.chanB = []
  result : ∀ stats, s.writer = .returned stats → stats = s.state.books.stats

theorem Pipeline.start_inv (w : σ) (mountpoint : Option Path) (counters : Option StatusCounters) :
    (Pipeline.start w mountpoint counters).Inv where
  conserved := ⟨0, [], ⟨rfl, rfl, fun _ h => (List.not_mem_nil h).elim,
    fun _ _ h => (List.not_mem_nil h).elim⟩, rfl, fun _ h => (List.not_mem_nil h).elim⟩
  sending _ := ⟨rfl, List.not_mem_nil⟩
  closing h := by cases h
  doneLast h := by cases h
  doneLastB h := by cases h
  lost _ h := by cases h
  ending h := absurd rfl (h [])
  result _ h := by cases h

theorem nil_of_room {α : Type} {l : List α} (h : l.length < capacity) : l = [] :=
  List.eq_nil_of_length_eq_zero (Nat.lt_one_iff.mp h)

/-- The writer stopped early, or the invariant holds. -/
def Pipeline.Sound (s : Pipeline σ) : Prop := s.Inv ∨ ∃ why, s.writer = .stopped why

/-- A flush of what the writer holds. -/
theorem Pipeline.flush_sound {env : WriterEnv σ} {args : WriterArgs} {s : Pipeline σ}
    {pending : List Candidate} {next : List Candidate → WriterThread}
    (hnext : next = .receiving ∨ next = .draining)
    (h : Pipeline.Inv { s with writer := next pending }) :
    (s.flush env args pending next).Sound := by
  unfold Pipeline.flush
  rcases hrun : (flushBatch env args pending).run.run s.state with ⟨why | deferred, state⟩
  · exact .inr ⟨why, rfl⟩
  · have hpending (l : List Candidate) : (next l).pending = l := by
      rcases hnext with rfl | rfl <;> rfl
    left
    refine { h with
      conserved := ?_
      ending := fun hnot => h.ending fun p hp => ?_
      result := fun stats hstats => ?_ }
    · have hflight := h.conserved
      simp only [Pipeline.inFlight, hpending] at hflight ⊢
      exact hflight.flush hrun
    · rcases hnext with rfl | rfl
      · exact hnot deferred rfl
      · cases hp
    · rcases hnext with rfl | rfl <;> cases hstats

namespace Pipeline.Inv
variable {s : Pipeline σ}

/-- While the accumulator runs, the writer receives and no `Done` is on its way to it. -/
theorem live (h : s.Inv) (hacc : s.acc.over = false) :
    .done ∉ s.chanB ∧ ∃ pending, s.writer = .receiving pending := by
  constructor
  · intro hmem
    rw [(h.doneLastB hmem).1] at hacc
    cases hacc
  · by_contra hnot
    rw [(h.ending fun pending hp => hnot ⟨pending, hp⟩).1] at hacc
    cases hacc

/-- The accumulator takes messages off its channel, or moves on with what it holds. -/
theorem move (h : s.Inv) {acc : Accumulator} {chanA : List Msg} (hacc : s.acc.over = false)
    (hflight : acc.held ++ msgCandidates chanA = s.acc.held ++ msgCandidates s.chanA)
    (hsuffix : chanA <:+ s.chanA) (hopen : s.driver = .sending → acc.isOpen = true)
    (hclosed : acc.isOpen = false → s.driver = .closed ∧ chanA = [])
    (hlost : ∀ lost, acc = .panicked lost → chanA = []) :
    Pipeline.Inv { s with acc, chanA } := by
  obtain ⟨hdone, pending, hwriter⟩ := h.live hacc
  refine { h with
    conserved := ?_
    sending := fun hdriver => ⟨hopen hdriver, fun hmem => ?_⟩
    closing := hclosed
    doneLast := fun hmem => ?_
    doneLastB := fun hmem => absurd hmem hdone
    lost := hlost
    ending := fun hnot => absurd hwriter (hnot pending) }
  · have hconserved := h.conserved
    simp only [Pipeline.inFlight, ← hflight] at hconserved ⊢
    exact hconserved
  · exact (h.sending hdriver).2 (hsuffix.subset hmem)
  · have hlast := h.doneLast (hsuffix.subset hmem)
    rw [hlast] at hsuffix
    rcases List.suffix_cons_iff.mp hsuffix with heq | hnil
    · exact heq
    · rw [List.suffix_nil.mp hnil] at hmem
      cases hmem

/-- Behind a `Done` there is nothing, and the driver is closed. -/
theorem done_head (h : s.Inv) {rest : List Msg} (hmsg : s.chanA = .done :: rest) :
    rest = [] ∧ s.driver = .closed := by
  have hmem : Msg.done ∈ s.chanA := hmsg ▸ List.mem_cons_self
  have hlast := h.doneLast hmem
  constructor
  · simpa [hmsg] using hlast
  · cases hdriver : s.driver with
    | closed => rfl
    | sending => exact absurd hmem (h.sending hdriver).2

/-- The accumulator hands a message to the writer. -/
theorem handOver (h : s.Inv) {acc : Accumulator} {msg : BatchMsg} (hacc : s.acc.over = false)
    (room : s.chanB.length < capacity)
    (hflight : batchCandidates [msg] ++ acc.held = s.acc.held) (hopen : acc.isOpen = s.acc.isOpen)
    (hdone : msg = .done → acc = .returned) (hlost : ∀ lost, acc ≠ .panicked lost) :
    Pipeline.Inv { s with acc, chanB := s.chanB ++ [msg] } := by
  have hnil := nil_of_room room
  obtain ⟨-, pending, hwriter⟩ := h.live hacc
  refine { h with
    conserved := ?_
    sending := fun hdriver => by rw [hopen]; exact h.sending hdriver
    closing := fun hclosed => h.closing (hopen ▸ hclosed)
    doneLastB := fun hmem => ?_
    lost := fun lost hpanicked => absurd hpanicked (hlost lost)
    ending := fun hnot => absurd hwriter (hnot pending) }
  · have hconserved := h.conserved
    simp only [Pipeline.inFlight, ← hflight, hnil, batchCandidates, List.nil_append] at hconserved ⊢
    rw [List.append_assoc] at hconserved
    exact hconserved
  · rw [hnil, List.nil_append, List.mem_singleton] at hmem
    exact ⟨hdone hmem.symm, by rw [hnil, ← hmem]; rfl⟩

end Pipeline.Inv

/-- A stopped writer stays stopped: only a writer's own step moves it. -/
theorem Pipeline.step_stopped {env : WriterEnv σ} {args : WriterArgs} {batchMax : Nat}
    {s s' : Pipeline σ} {why : Stop} (h : s.writer = .stopped why)
    (hstep : Pipeline.Step env args batchMax s s') : s'.writer = .stopped why := by
  cases hstep with
  | recvBatch at_ => rw [h] at at_; cases at_
  | recvDoneB at_ => rw [h] at at_; cases at_
  | disconnectedB at_ => rw [h] at at_; cases at_
  | drainOne at_ => rw [h] at at_; cases at_
  | drained at_ => rw [h] at at_; cases at_
  | _ => exact h

theorem Pipeline.flush_acc (env : WriterEnv σ) (args : WriterArgs) (s : Pipeline σ)
    (pending : List Candidate) (next : List Candidate → WriterThread) :
    (s.flush env args pending next).acc = s.acc := by
  unfold Pipeline.flush
  split <;> rfl

theorem Pipeline.step_panicked {env : WriterEnv σ} {args : WriterArgs} {batchMax : Nat}
    {s s' : Pipeline σ} {lost : List Candidate} (h : s.acc = .panicked lost)
    (hstep : Pipeline.Step env args batchMax s s') : s'.acc = .panicked lost := by
  cases hstep with
  | send | sendRefused | sendDone | dropSender | recvDoneB | disconnectedB | drained => exact h
  | recvBatch => rw [Pipeline.flush_acc]; exact h
  | drainOne => rw [Pipeline.flush_acc]; exact h
  | sendBRefused at_ => rcases at_ with ⟨_, hat⟩ | ⟨_, _, hat⟩ | hat <;> cases h.symm.trans hat
  | allocate at_ | panic at_ | recvFirst at_ | recvFirstDone at_ | firstDisconnected at_
  | batchFull at_ | recv at_ | recvDone at_ | timeout at_ | disconnected at_ | sendBatch at_
  | sendLast at_ | nothingLeft at_ | sendDoneB at_ => cases h.symm.trans at_

theorem Pipeline.step_sound {env : WriterEnv σ} {args : WriterArgs} {batchMax : Nat}
    {s s' : Pipeline σ} (h : s.Sound) (hstep : Pipeline.Step env args batchMax s s') : s'.Sound := by
  rcases h with h | ⟨why, hwhy⟩
  case inr => exact .inr ⟨why, step_stopped hwhy hstep⟩
  have hflight := h.conserved
  unfold Pipeline.inFlight at hflight
  cases hstep with
  | send c open_ room peer =>
      have hnil := nil_of_room room
      left
      refine { h with
        conserved := ?_
        sending := fun _ => ⟨(h.sending open_).1, ?_⟩
        closing := fun hclosed => ?_
        doneLast := fun hdone => ?_
        lost := fun lost hlost => ?_ }
      · have hsent := hflight.send c
        simpa [Pipeline.inFlight, msgCandidates] using hsent
      · simp [hnil]
      · rw [(h.sending open_).1] at hclosed
        cases hclosed
      · simp [hnil] at hdone
      · rw [show s.acc = .panicked lost from hlost] at peer
        cases peer
  | sendRefused => exact .inl h
  | sendDone open_ room peer =>
      have hnil := nil_of_room room
      left
      refine { h with
        conserved := ?_
        sending := fun hopen => by cases hopen
        closing := fun hclosed => ?_
        doneLast := fun _ => ?_
        lost := fun lost hlost => ?_ }
      · simpa [Pipeline.inFlight, msgCandidates] using hflight
      · rw [(h.sending open_).1] at hclosed
        cases hclosed
      · simp [hnil]
      · rw [show s.acc = .panicked lost from hlost] at peer
        cases peer
  | dropSender open_ =>
      left
      exact { h with
        conserved := h.conserved
        sending := fun hopen => by cases hopen
        closing := fun hclosed => ⟨rfl, (h.closing hclosed).2⟩ }
  | allocate at_ fits =>
      exact .inl <| h.move (by rw [at_]; rfl) (by simp [at_, Accumulator.held]) (List.suffix_refl _)
        (fun _ => rfl) (fun hclosed => by cases hclosed) fun _ hlost => by cases hlost
  | panic at_ overflow =>
      exact .inl <| h.move (by rw [at_]; rfl) (by simp [at_, Accumulator.held, msgCandidates])
        (List.nil_suffix) (fun _ => rfl) (fun hclosed => by cases hclosed) fun _ _ => rfl
  | recvFirst at_ msg =>
      exact .inl <| h.move (by rw [at_]; rfl) (by simp [at_, msg, Accumulator.held, msgCandidates])
        (msg ▸ List.suffix_cons _ _) (fun _ => rfl) (fun hclosed => by cases hclosed)
        fun _ hlost => by cases hlost
  | recvFirstDone at_ msg =>
      obtain ⟨hrest, hdriver⟩ := h.done_head msg
      exact .inl <| h.move (by rw [at_]; rfl) (by simp [at_, msg, Accumulator.held, msgCandidates])
        (msg ▸ List.suffix_cons _ _) (fun hopen => by rw [hdriver] at hopen; cases hopen)
        (fun _ => ⟨hdriver, hrest⟩) fun _ hlost => by cases hlost
  | firstDisconnected at_ empty peer =>
      exact .inl <| h.move (by rw [at_]; rfl) (by simp [at_, Accumulator.held]) (List.suffix_refl _)
        (fun hopen => by rw [peer] at hopen; cases hopen) (fun _ => ⟨peer, empty⟩)
        fun _ hlost => by cases hlost
  | batchFull at_ full =>
      exact .inl <| h.move (by rw [at_]; rfl) (by simp [at_, Accumulator.held]) (List.suffix_refl _)
        (fun _ => rfl) (fun hclosed => by cases hclosed) fun _ hlost => by cases hlost
  | recv at_ more msg =>
      exact .inl <| h.move (by rw [at_]; rfl) (by simp [at_, msg, Accumulator.held, msgCandidates])
        (msg ▸ List.suffix_cons _ _) (fun _ => rfl) (fun hclosed => by cases hclosed)
        fun _ hlost => by cases hlost
  | recvDone at_ more msg =>
      obtain ⟨hrest, hdriver⟩ := h.done_head msg
      exact .inl <| h.move (by rw [at_]; rfl) (by simp [at_, msg, Accumulator.held, msgCandidates])
        (msg ▸ List.suffix_cons _ _) (fun hopen => by rw [hdriver] at hopen; cases hopen)
        (fun _ => ⟨hdriver, hrest⟩) fun _ hlost => by cases hlost
  | timeout at_ more =>
      exact .inl <| h.move (by rw [at_]; rfl) (by simp [at_, Accumulator.held]) (List.suffix_refl _)
        (fun _ => rfl) (fun hclosed => by cases hclosed) fun _ hlost => by cases hlost
  | disconnected at_ more empty peer =>
      exact .inl <| h.move (by rw [at_]; rfl) (by simp [at_, Accumulator.held]) (List.suffix_refl _)
        (fun hopen => by rw [peer] at hopen; cases hopen) (fun _ => ⟨peer, empty⟩)
        fun _ hlost => by cases hlost
  | sendBatch at_ room peer =>
      exact .inl <| h.handOver (by rw [at_]; rfl) room (by simp [at_, Accumulator.held, batchCandidates])
        (by rw [at_]; rfl) (fun hdone => by cases hdone) fun _ hlost => by cases hlost
  | sendLast at_ room peer =>
      exact .inl <| h.handOver (by rw [at_]; rfl) room (by simp [at_, Accumulator.held, batchCandidates])
        (by rw [at_]; rfl) (fun hdone => by cases hdone) fun _ hlost => by cases hlost
  | nothingLeft at_ =>
      have hclosed := h.closing (by rw [at_]; rfl)
      exact .inl <| h.move (by rw [at_]; rfl) (by simp [at_, Accumulator.held]) (List.suffix_refl _)
        (fun hopen => by rw [hclosed.1] at hopen; cases hopen) (fun _ => hclosed)
        fun _ hlost => by cases hlost
  | sendDoneB at_ room peer =>
      exact .inl <| h.handOver (by rw [at_]; rfl) room (by simp [at_, Accumulator.held, batchCandidates])
        (by rw [at_]; rfl) (fun _ => rfl) fun _ hlost => by cases hlost
  | sendBRefused at_ peer =>
      -- A running accumulator has a receiving writer.
      have hacc : s.acc.over = false := by
        rcases at_ with ⟨_, hat⟩ | ⟨_, _, hat⟩ | hat <;> rw [hat] <;> rfl
      obtain ⟨-, pending, hwriter⟩ := h.live hacc
      rw [hwriter] at peer
      cases peer
  | @recvBatch pending batch rest at_ msg =>
      refine Pipeline.flush_sound (.inl rfl) { h with
        conserved := ?_
        doneLastB := fun hmem => ?_
        ending := fun hnot => absurd rfl (hnot (pending ++ batch))
        result := fun stats hstats => by cases hstats }
      · simpa [Pipeline.inFlight, at_, msg, WriterThread.pending, batchCandidates] using hflight
      · have hlast := (h.doneLastB (msg ▸ List.mem_cons_of_mem _ hmem)).2
        rw [msg] at hlast
        cases hlast
  | @recvDoneB pending rest at_ msg =>
      obtain ⟨hacc, hlast⟩ := h.doneLastB (msg ▸ List.mem_cons_self)
      have hrest : rest = [] := by simpa [msg] using hlast
      left
      refine { h with
        conserved := ?_
        doneLastB := fun hmem => ?_
        ending := fun _ => ⟨by rw [hacc]; rfl, hrest⟩
        result := fun stats hstats => by cases hstats }
      · simpa [Pipeline.inFlight, at_, msg, WriterThread.pending, batchCandidates] using hflight
      · rw [hrest] at hmem
        cases hmem
  | disconnectedB at_ empty peer =>
      left
      refine { h with
        conserved := ?_
        ending := fun _ => ⟨peer, empty⟩
        result := fun stats hstats => by cases hstats }
      simpa [Pipeline.inFlight, at_, WriterThread.pending] using hflight
  | drainOne at_ => exact Pipeline.flush_sound (.inr rfl) (by rw [← at_]; exact h)
  | drained at_ =>
      left
      refine { h with
        conserved := ?_
        ending := fun _ => h.ending fun pending hp => by rw [at_] at hp; cases hp
        result := fun stats hstats => ?_ }
      · have hthaw : Conserved s.sent s.inFlight ((thaw env).run.run s.state).2.books :=
          h.conserved.thaw
        simpa [Pipeline.inFlight, at_, WriterThread.pending] using hthaw
      · rw [thaw_stats]
        exact (WriterThread.returned.inj hstats).symm

theorem Pipeline.reachable_sound {env : WriterEnv σ} {args : WriterArgs} {batchMax : Nat}
    {s : Pipeline σ} (h : (pipeline env args batchMax).Reachable s) : s.Sound := by
  refine h.invariant (fun s hs => ?_) fun s s' hs hstep => ?_
  · obtain ⟨w, mountpoint, counters, rfl⟩ := hs
    exact .inl (start_inv w mountpoint counters)
  · change Pipeline.Step env args batchMax s s' at hstep
    exact step_sound hs hstep

section Returned
variable {env : WriterEnv σ} {args : WriterArgs} {batchMax : Nat} {s : Pipeline σ}
  {stats : BatchStats}

/-- A writer that returned outlives the accumulator, and both channels are empty. -/
theorem Pipeline.returned_over (h : (pipeline env args batchMax).Reachable s)
    (hend : s.writer = .returned stats) :
    s.Inv ∧ s.acc.over = true ∧ s.chanA = [] ∧ s.chanB = [] := by
  rcases reachable_sound h with hinv | ⟨why, hwhy⟩
  case inr =>
      rw [hwhy] at hend
      cases hend
  obtain ⟨hover, hchanB⟩ := hinv.ending fun pending hp => by rw [hend] at hp; cases hp
  refine ⟨hinv, hover, ?_, hchanB⟩
  cases hacc : s.acc with
  | returned => exact (hinv.closing (by rw [hacc]; rfl)).2
  | panicked lost => exact hinv.lost lost hacc
  | _ => rw [hacc] at hover; cases hover

/-- At the end of a run in which the writer did not stop early, nothing is in flight: only a panic
of the accumulator takes a candidate down. -/
theorem Pipeline.returned_conserved (h : (pipeline env args batchMax).Reachable s)
    (hend : s.writer = .returned stats) :
    Conserved s.sent s.acc.held s.state.books ∧ stats = s.state.books.stats := by
  obtain ⟨hinv, -, hchanA, hchanB⟩ := returned_over h hend
  refine ⟨?_, hinv.result stats hend⟩
  have hconserved := hinv.conserved
  simpa [Pipeline.inFlight, hend, hchanA, hchanB, WriterThread.pending, batchCandidates,
    msgCandidates] using hconserved

end Returned

/-! ### The allocation of the batch -/

/-- Its vector was allocated. -/
def Accumulator.allocated : Accumulator → Bool
  | .starting => false
  | .panicked _ => false
  | _ => true

/-- Nothing is pending and nothing failed. -/
def WriterThread.idle : WriterThread → Bool
  | .receiving pending => pending.isEmpty
  | .draining pending => pending.isEmpty
  | .returned _ => true
  | .stopped _ => false

/-- The accumulator starts on its work exactly when the batch fits. Until then, and for good if it
does not, no candidate gets past its channel. -/
structure Pipeline.Begun (batchMax : Nat) (s : Pipeline σ) : Prop where
  fits : s.acc.allocated = true → batchMax ≤ maxCapacity
  overflow : ∀ lost, s.acc = .panicked lost → maxCapacity < batchMax
  chanB : s.acc.allocated = false → s.chanB = []
  writer : s.acc.allocated = false → s.writer.idle = true
  sent : s.acc.allocated = false →
    s.sent = s.acc.held ++ msgCandidates s.chanA ∧ s.sent.length ≤ capacity

namespace Pipeline.Begun
variable {batchMax : Nat} {s s' : Pipeline σ}

theorem of_allocated (hfits : batchMax ≤ maxCapacity) (hacc : s.acc.allocated = true) :
    s.Begun batchMax where
  fits _ := hfits
  overflow lost hlost := by rw [hlost] at hacc; cases hacc
  chanB hnot := by rw [hacc] at hnot; cases hnot
  writer hnot := by rw [hacc] at hnot; cases hnot
  sent hnot := by rw [hacc] at hnot; cases hnot

/-- The accumulator goes on after its allocation. -/
theorem go (h : s.Begun batchMax) (hacc : s.acc.allocated = true) (hacc' : s'.acc.allocated = true) :
    s'.Begun batchMax :=
  of_allocated (h.fits hacc) hacc'

/-- A writer with something to flush was fed by an accumulator that runs. -/
theorem flush {env : WriterEnv σ} {args : WriterArgs} (hfits : batchMax ≤ maxCapacity)
    (hacc : s.acc.allocated = true) {pending : List Candidate}
    {next : List Candidate → WriterThread} : (s.flush env args pending next).Begun batchMax := by
  refine of_allocated hfits ?_
  rw [Pipeline.flush_acc]
  exact hacc

theorem step {env : WriterEnv σ} {args : WriterArgs} (h : s.Begun batchMax)
    (hstep : Pipeline.Step env args batchMax s s') : s'.Begun batchMax := by
  cases hstep with
  | send c open_ room peer =>
      have hnil := nil_of_room room
      refine { h with sent := fun hnot => ?_ }
      obtain ⟨hsent, -⟩ := h.sent hnot
      have hheld : s.acc.held = [] := by
        cases hacc : s.acc with
        | starting => rfl
        | panicked => rw [hacc] at peer; cases peer
        | _ => rw [show s.acc.allocated = true by rw [hacc]; rfl] at hnot; cases hnot
      rw [hnil, hheld] at hsent
      have hempty : s.sent = [] := hsent
      constructor
      · simp [hempty, hnil, hheld, msgCandidates]
      · simp [hempty, capacity]
  | sendRefused => exact h
  | sendDone => exact { h with sent := fun hnot => by simpa [msgCandidates] using h.sent hnot }
  | dropSender => exact { h with }
  | allocate at_ fits => exact of_allocated fits rfl
  | panic at_ overflow =>
      have hnot : s.acc.allocated = false := by rw [at_]; rfl
      obtain ⟨hsent, hlength⟩ := h.sent hnot
      rw [at_] at hsent
      exact {
        fits := fun hacc => by cases hacc
        overflow := fun _ _ => overflow
        chanB := fun _ => h.chanB hnot
        writer := fun _ => h.writer hnot
        sent := fun _ => ⟨by simpa [Accumulator.held, msgCandidates] using hsent, hlength⟩ }
  | recvFirst at_ => exact h.go (by rw [at_]; rfl) rfl
  | recvFirstDone at_ => exact h.go (by rw [at_]; rfl) rfl
  | firstDisconnected at_ => exact h.go (by rw [at_]; rfl) rfl
  | batchFull at_ => exact h.go (by rw [at_]; rfl) rfl
  | recv at_ => exact h.go (by rw [at_]; rfl) rfl
  | recvDone at_ => exact h.go (by rw [at_]; rfl) rfl
  | timeout at_ => exact h.go (by rw [at_]; rfl) rfl
  | disconnected at_ => exact h.go (by rw [at_]; rfl) rfl
  | sendBatch at_ => exact h.go (by rw [at_]; rfl) rfl
  | sendLast at_ => exact h.go (by rw [at_]; rfl) rfl
  | nothingLeft at_ => exact h.go (by rw [at_]; rfl) rfl
  | sendDoneB at_ => exact h.go (by rw [at_]; rfl) rfl
  | sendBRefused at_ =>
      refine h.go ?_ rfl
      rcases at_ with ⟨_, hat⟩ | ⟨_, _, hat⟩ | hat <;> rw [hat] <;> rfl
  | @recvBatch pending batch rest at_ msg =>
      have hacc : s.acc.allocated = true := by
        by_contra hnot
        rw [h.chanB (by simpa using hnot)] at msg
        cases msg
      exact flush (s := { s with chanB := rest }) (h.fits hacc) hacc
  | recvDoneB at_ msg =>
      refine { h with chanB := fun hnot => ?_, writer := fun hnot => ?_ }
      · rw [h.chanB hnot] at msg
        cases msg
      · rw [h.chanB hnot] at msg
        cases msg
  | disconnectedB at_ =>
      refine { h with writer := fun hnot => ?_ }
      have hidle := h.writer hnot
      rw [at_] at hidle
      exact hidle
  | drainOne at_ =>
      have hacc : s.acc.allocated = true := by
        by_contra hnot
        have hidle := h.writer (by simpa using hnot)
        rw [at_] at hidle
        cases hidle
      exact flush (h.fits hacc) hacc
  | drained => exact { h with writer := fun _ => rfl }

theorem reachable {env : WriterEnv σ} {args : WriterArgs}
    (h : (pipeline env args batchMax).Reachable s) : s.Begun batchMax := by
  refine h.invariant (motive := Pipeline.Begun batchMax) ?_ fun s s' hs hstep => hs.step hstep
  rintro s ⟨w, mountpoint, counters, rfl⟩
  exact {
    fits := fun hacc => by cases hacc
    overflow := fun _ hlost => by cases hlost
    chanB := fun _ => rfl
    writer := fun _ => rfl
    sent := fun _ => ⟨rfl, Nat.zero_le _⟩ }

end Pipeline.Begun

/-- Where the writer returned, the accumulator returned too; or it panicked, with all that was
sent: at most one candidate. -/
theorem Pipeline.returned_acc {env : WriterEnv σ} {args : WriterArgs} {batchMax : Nat}
    {s : Pipeline σ} {stats : BatchStats} (h : (pipeline env args batchMax).Reachable s)
    (hend : s.writer = .returned stats) :
    (s.acc = .returned ∧ batchMax ≤ maxCapacity) ∨
      s.acc = .panicked s.sent ∧ maxCapacity < batchMax ∧ s.sent.length ≤ capacity := by
  have hbegun := Begun.reachable h
  obtain ⟨-, hover, hchanA, -⟩ := returned_over h hend
  cases hacc : s.acc with
  | returned => exact .inl ⟨rfl, hbegun.fits (by rw [hacc]; rfl)⟩
  | panicked lost =>
      obtain ⟨hsent, hlength⟩ := hbegun.sent (by rw [hacc]; rfl)
      rw [hacc, hchanA] at hsent
      obtain rfl : s.sent = lost := by simpa [Accumulator.held, msgCandidates] using hsent
      exact .inr ⟨rfl, hbegun.overflow _ hacc, hlength⟩
  | _ => rw [hacc] at hover; cases hover

end Rotshield.BatchRecover
