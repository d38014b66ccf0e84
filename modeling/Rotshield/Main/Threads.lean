import Rotshield.BatchRecover.Pipeline
import Rotshield.Lib.Hoare
import Rotshield.Lib.Channel

/-! The threads of a run: the scrub on the thread of `run_scrub`, its reader, the accumulator and
the writer, whose flush is taken apart at the freeze window. -/
namespace Rotshield.Main
open BatchRecover
open Lib (Transition Channel run_bind)

variable {σ : Type}

/-! ### A flush in parts -/

/-- What a flush knows once it has tried to freeze. -/
structure Window where
  hasLiveMount : Bool
  /-- A guard is held. -/
  frozen : Bool
  started : Nat

def Window.writesAllowed (w : Window) : Bool := w.frozen || !w.hasLiveMount

def openWindow (env : WriterEnv σ) (pending : List Candidate) : WriterM σ Window := do
  let batch := dedupByPhys (sortByPhys pending)
  onBooks fun b => (b.dedup (pending.length - batch.length)).note (.flush batch)
  let hasLiveMount := (← books).freeze.hasLiveMount
  let frozen := (← guard env).toOption.getD false
  let started ← world env.now
  return { hasLiveMount, frozen, started }

/-- One round of the batch loop; `true` when the candidate and the rest are deferred. -/
def flushRound (env : WriterEnv σ) (args : WriterArgs) (w : Window) (first : Bool)
    (cand : Candidate) : WriterM σ Bool := do
  if ← windowExpired env args w.writesAllowed w.started first then return true
  else
    processCandidate env args w.hasLiveMount w.writesAllowed cand
    return false

def closeWindow (env : WriterEnv σ) (w : Window) (deferred : List Candidate) :
    WriterM σ (List Candidate) := do
  releaseGuard env w.frozen
  match ← takeThawError with
  | some _ => throw .thawFailed
  | none => return deferred

theorem openWindow_bind {α : Type} (env : WriterEnv σ) (pending : List Candidate)
    (f : Window → WriterM σ α) : openWindow env pending >>= f = (do
      onBooks fun b => (b.dedup (pending.length - (dedupByPhys (sortByPhys pending)).length)).note
        (.flush (dedupByPhys (sortByPhys pending)))
      let hasLiveMount := (← books).freeze.hasLiveMount
      let frozen := (← guard env).toOption.getD false
      let started ← world env.now
      f { hasLiveMount, frozen, started }) := by
  unfold openWindow
  simp only [bind_assoc, pure_bind]

theorem flushBatch_eq (env : WriterEnv σ) (args : WriterArgs) (pending : List Candidate) :
    flushBatch env args pending = (do
      let w ← openWindow env pending
      let deferred ← flushLoop env args w.hasLiveMount w.writesAllowed w.started true
        (dedupByPhys (sortByPhys pending))
      closeWindow env w deferred) := by
  rw [openWindow_bind]
  rfl

theorem flushLoop_cons (env : WriterEnv σ) (args : WriterArgs) (w : Window) (first : Bool)
    (cand : Candidate) (rest : List Candidate) :
    flushLoop env args w.hasLiveMount w.writesAllowed w.started first (cand :: rest) = (do
      if ← flushRound env args w first cand then return cand :: rest
      else flushLoop env args w.hasLiveMount w.writesAllowed w.started false rest) := by
  rw [flushLoop, flushRound, bind_assoc]
  congr 1
  funext expired
  cases expired with
  | true => simp
  | false => simp

/-! ### The threads -/

/-- Where the thread of `run_scrub` stands; `draining` once the last command is sent. -/
inductive MainThread where
  /-- Gathering the next run of sectors. -/
  | walking
  | sendingCmd
  | receiving (draining : Bool)
  | processing (draining : Bool)
  | emitting (draining : Bool) (c : Candidate)
  | joiningReader
  /-- The scrub returned its totals: `Done` is next. -/
  | shuttingDown
  | joiningAcc
  | joiningWriter
  /-- `run_scrub` has returned, and with it the driver and its sender. -/
  | returned

inductive ReaderThread where
  | receiving
  | reading
  | responding
  | returned
  | panicked
  deriving DecidableEq

/-- The loop of the writer a flush goes back to. -/
inductive WriterLoop where
  | receiving
  | draining

inductive Writer where
  | between (loop : WriterLoop) (pending : List Candidate)
  | opening (loop : WriterLoop) (pending : List Candidate)
  /-- In the batch loop; `first` before its first candidate. -/
  | inWindow (loop : WriterLoop) (w : Window) (first : Bool) (rest : List Candidate)
  | closing (loop : WriterLoop) (w : Window) (deferred : List Candidate)
  | returned (stats : BatchStats)
  | stopped (why : Stop)

structure Process (σ : Type) where
  /-- There is a recovery pipeline. -/
  piped : Bool
  /-- There is a reader thread; without one the scrub reads inline. -/
  threaded : Bool
  main : MainThread
  inflight : Nat
  pipelineFailed : Bool
  /-- The candidates whose send succeeded; the driver keeps their number. -/
  sent : List Candidate
  cmd : Channel Unit
  reader : ReaderThread
  rsp : Channel Unit
  cand : Channel Msg
  acc : Accumulator
  batch : Channel BatchMsg
  writer : Writer
  state : WriterState σ

def ReaderThread.over : ReaderThread → Bool
  | .returned => true
  | .panicked => true
  | _ => false

def Writer.over : Writer → Bool
  | .returned _ => true
  | .stopped _ => true
  | _ => false

/-- The accumulator is in a `recv`. -/
def Accumulator.receives (batchMax : Nat) : Accumulator → Bool
  | .waiting => true
  | .collecting batch => batch.length < batchMax
  | _ => false

/-- What a received message makes of it; a closed channel is taken like `Done`. -/
def Accumulator.took : Accumulator → Msg → Accumulator
  | .waiting, .candidate c => .collecting [c]
  | .waiting, .done => .finishing []
  | .collecting batch, .candidate c => .collecting (batch ++ [c])
  | .collecting batch, .done => .finishing batch
  | a, _ => a

/-- What the accumulator is sending to the writer. -/
def Accumulator.hands : Accumulator → Option BatchMsg
  | .sending batch => some (.batch batch)
  | .finishing (c :: batch) => some (.batch (c :: batch))
  | .sendingDone => some .done
  | _ => none

/-- Where it goes on after that. -/
def Accumulator.handed : Accumulator → Accumulator
  | .sending _ => .waiting
  | .finishing _ => .sendingDone
  | .sendingDone => .returned
  | a => a

/-- The panic hook: a FITHAW of the active freeze behind the controller's back. -/
def panicHook (env : WriterEnv σ) : WriterM σ Unit := do
  let controller := (← books).freeze
  if controller.frozen then
    match controller.mountpoint with
    | none => return
    | some mountpoint =>
        let r ← attempt (env.thawPath mountpoint)
        onBooks (·.note (.thaw r.isOk))

/-- An error unwinds the writer: a panic runs the hook, then the guard goes, if it is held. -/
def unwind (env : WriterEnv σ) (held : Bool) : Stop → WriterM σ Unit
  | .halt _ => do
      panicHook env
      releaseGuard env held
  | _ => releaseGuard env held

namespace Process

/-- The scrub failed, or all is joined. -/
def endMain (s : Process σ) : Process σ := { s with main := .returned, cand := s.cand.dropSender }

/-- `scrub.run` returned its totals. -/
def endScrub (s : Process σ) : Process σ :=
  if s.piped then { s with main := .shuttingDown } else s.endMain

def endReader (s : Process σ) (reader : ReaderThread) : Process σ :=
  { s with reader, cmd := s.cmd.dropReceiver, rsp := s.rsp.dropSender }

def endAcc (s : Process σ) (acc : Accumulator) : Process σ :=
  { s with acc, cand := s.cand.dropReceiver, batch := s.batch.dropSender }

/-- The accumulator goes on, or ends. -/
def setAcc (s : Process σ) : Accumulator → Process σ
  | .returned => s.endAcc .returned
  | acc => { s with acc }

/-- The writer thread ends: the controller is dropped, and the receiver with it. -/
def endWriter (env : WriterEnv σ) (s : Process σ) (writer : Writer) : Process σ :=
  { s with
    writer
    batch := s.batch.dropReceiver
    state := ((thaw env).run.run s.state).2 }

/-- The writer runs a part of a flush. -/
def exec {α : Type} (env : WriterEnv σ) (s : Process σ) (held : Bool) (x : WriterM σ α)
    (next : α → Writer) : Process σ :=
  match x.run.run s.state with
  | (.ok a, state) => { s with writer := next a, state }
  | (.error why, state) =>
      endWriter env { s with state := ((unwind env held why).run.run state).2 } (.stopped why)

end Process

/-! ### The steps of each thread -/

/-- The thread of `run_scrub`, from the scrub on. -/
inductive MainStep : Process σ → Process σ → Prop where
  /-- A run of sectors is complete: it goes to the reader, or is read inline. -/
  | issueRun {s} (at_ : s.main = .walking) (going : s.pipelineFailed = false) :
      MainStep s { s with main := if s.threaded then .sendingCmd else .processing false }
  | sendCmd {s} {cmd : Channel Unit} (at_ : s.main = .sendingCmd)
      (sent : s.cmd.send () = .sent cmd) :
      MainStep s
        { s with
          main := if s.cmd.capacity ≤ s.inflight + 1 then .receiving false else .walking
          inflight := s.inflight + 1
          cmd }
  | cmdRefused {s} (at_ : s.main = .sendingCmd) (gone : s.cmd.send () = .refused) :
      MainStep s { s with main := .walking, pipelineFailed := true }
  /-- The extents are over, or given up. -/
  | closeCommands {s} (at_ : s.main = .walking) (threaded : s.threaded = true) :
      MainStep s { s with main := .receiving true, cmd := s.cmd.dropSender }
  | inlineOver {s} (at_ : s.main = .walking) (inline : s.threaded = false) : MainStep s s.endScrub
  | recvRsp {s} {draining : Bool} {rsp : Channel Unit} (at_ : s.main = .receiving draining)
      (some_ : draining = true → s.inflight ≠ 0) (got : s.rsp.recv = .received () rsp) :
      MainStep s { s with main := .processing draining, inflight := s.inflight - 1, rsp }
  | rspLost {s} {draining : Bool} (at_ : s.main = .receiving draining)
      (some_ : draining = true → s.inflight ≠ 0) (gone : s.rsp.recv = .disconnected) :
      MainStep s
        { s with main := if draining then .joiningReader else .walking, pipelineFailed := true }
  | drained {s} (at_ : s.main = .receiving true) (none_ : s.inflight = 0) :
      MainStep s { s with main := .joiningReader }
  /-- A problem sector is emitted: the driver makes a candidate of it. -/
  | emit {s} {draining : Bool} (c : Candidate) (at_ : s.main = .processing draining)
      (piped : s.piped = true) :
      MainStep s { s with main := .emitting draining c }
  | sendCandidate {s} {draining : Bool} {c : Candidate} {cand : Channel Msg}
      (at_ : s.main = .emitting draining c) (sent : s.cand.send (.candidate c) = .sent cand) :
      MainStep s { s with main := .processing draining, sent := s.sent ++ [c], cand }
  | candidateRefused {s} {draining : Bool} {c : Candidate} (at_ : s.main = .emitting draining c)
      (gone : s.cand.send (.candidate c) = .refused) :
      MainStep s { s with main := .processing draining }
  | endResponse {s} {draining : Bool} (at_ : s.main = .processing draining) :
      MainStep s { s with main := if draining then .receiving true else .walking }
  | readerJoined {s} (at_ : s.main = .joiningReader) (ended : s.reader.over = true)
      (fine : s.reader ≠ .panicked ∧ s.pipelineFailed = false) :
      MainStep s { s with rsp := s.rsp.dropReceiver }.endScrub
  /-- The scrub returns an error, and `run_scrub` with it. -/
  | scrubFailed {s} (at_ : s.main = .joiningReader) (ended : s.reader.over = true)
      (failed : s.reader = .panicked ∨ s.pipelineFailed = true) :
      MainStep s { s with rsp := s.rsp.dropReceiver }.endMain
  | sendDone {s} {cand : Channel Msg} (at_ : s.main = .shuttingDown)
      (sent : s.cand.send .done = .sent cand) :
      MainStep s { s with main := .joiningAcc, cand := cand.dropSender }
  | doneRefused {s} (at_ : s.main = .shuttingDown) (gone : s.cand.send .done = .refused) :
      MainStep s { s with main := .joiningAcc, cand := s.cand.dropSender }
  | accJoined {s} (at_ : s.main = .joiningAcc) (fine : s.acc = .returned) :
      MainStep s { s with main := .joiningWriter }
  | accPanicked {s} {lost : List Candidate} (at_ : s.main = .joiningAcc)
      (failed : s.acc = .panicked lost) :
      MainStep s s.endMain
  /-- Whatever the writer and the reconciliation say, `run_scrub` returns. -/
  | writerJoined {s} (at_ : s.main = .joiningWriter) (ended : s.writer.over = true) :
      MainStep s s.endMain

inductive ReaderStep (env : WriterEnv σ) : Process σ → Process σ → Prop where
  | recvCmd {s} {cmd : Channel Unit} (at_ : s.reader = .receiving)
      (got : s.cmd.recv = .received () cmd) :
      ReaderStep env s { s with reader := .reading, cmd }
  | cmdsOver {s} (at_ : s.reader = .receiving) (gone : s.cmd.recv = .disconnected) :
      ReaderStep env s (s.endReader .returned)
  | read {s} (at_ : s.reader = .reading) : ReaderStep env s { s with reader := .responding }
  | die {s} (at_ : s.reader = .reading) :
      ReaderStep env s
        (Process.endReader { s with state := ((panicHook env).run.run s.state).2 } .panicked)
  | respond {s} {rsp : Channel Unit} (at_ : s.reader = .responding)
      (sent : s.rsp.send () = .sent rsp) :
      ReaderStep env s { s with reader := .receiving, rsp }
  | rspRefused {s} (at_ : s.reader = .responding) (gone : s.rsp.send () = .refused) :
      ReaderStep env s (s.endReader .returned)

inductive AccStep (batchMax : Nat) : Process σ → Process σ → Prop where
  | allocate {s} (at_ : s.acc = .starting) (fits : batchMax ≤ maxCapacity) :
      AccStep batchMax s { s with acc := .waiting }
  /-- The capacity overflows. Nothing was frozen yet: there is no hook to run. -/
  | die {s} (at_ : s.acc = .starting) (overflow : maxCapacity < batchMax) :
      AccStep batchMax s (s.endAcc (.panicked (msgCandidates s.cand.queue)))
  | recv {s} {msg : Msg} {cand : Channel Msg} (receives : Accumulator.receives batchMax s.acc = true)
      (got : s.cand.recv = .received msg cand) :
      AccStep batchMax s { s with acc := Accumulator.took s.acc msg, cand }
  | disconnected {s} (receives : Accumulator.receives batchMax s.acc = true)
      (gone : s.cand.recv = .disconnected) :
      AccStep batchMax s { s with acc := Accumulator.took s.acc .done }
  /-- The batch is full, or a timeout came. -/
  | handOver {s} {batch : List Candidate} (at_ : s.acc = .collecting batch) :
      AccStep batchMax s { s with acc := .sending batch }
  | nothingLeft {s} (at_ : s.acc = .finishing []) :
      AccStep batchMax s { s with acc := .sendingDone }
  | send {s} {msg : BatchMsg} {batch : Channel BatchMsg} (hands : Accumulator.hands s.acc = some msg)
      (sent : s.batch.send msg = .sent batch) :
      AccStep batchMax s (Process.setAcc { s with batch } (Accumulator.handed s.acc))
  | refused {s} {msg : BatchMsg} (hands : Accumulator.hands s.acc = some msg)
      (gone : s.batch.send msg = .refused) :
      AccStep batchMax s (s.setAcc .returned)

inductive WriterStep (env : WriterEnv σ) (args : WriterArgs) : Process σ → Process σ → Prop where
  | recvBatch {s} {pending cands : List Candidate} {batch : Channel BatchMsg}
      (at_ : s.writer = .between .receiving pending)
      (got : s.batch.recv = .received (.batch cands) batch) :
      WriterStep env args s { s with writer := .opening .receiving (pending ++ cands), batch }
  | recvDone {s} {pending : List Candidate} {batch : Channel BatchMsg}
      (at_ : s.writer = .between .receiving pending) (got : s.batch.recv = .received .done batch) :
      WriterStep env args s { s with writer := .between .draining pending, batch }
  | disconnected {s} {pending : List Candidate} (at_ : s.writer = .between .receiving pending)
      (gone : s.batch.recv = .disconnected) :
      WriterStep env args s { s with writer := .between .draining pending }
  | drainNext {s} {c : Candidate} {pending : List Candidate}
      (at_ : s.writer = .between .draining (c :: pending)) :
      WriterStep env args s { s with writer := .opening .draining (c :: pending) }
  | drained {s} (at_ : s.writer = .between .draining []) :
      WriterStep env args s (s.endWriter env (.returned s.state.books.stats))
  | openWindow {s} {loop : WriterLoop} {pending : List Candidate}
      (at_ : s.writer = .opening loop pending) :
      WriterStep env args s
        (s.exec env false (openWindow env pending) fun w =>
          .inWindow loop w true (dedupByPhys (sortByPhys pending)))
  | round {s} {loop : WriterLoop} {w : Window} {first : Bool} {c : Candidate}
      {rest : List Candidate} (at_ : s.writer = .inWindow loop w first (c :: rest)) :
      WriterStep env args s
        (s.exec env w.frozen (flushRound env args w first c) fun expired =>
          if expired then .closing loop w (c :: rest) else .inWindow loop w false rest)
  | roundsOver {s} {loop : WriterLoop} {w : Window} {first : Bool}
      (at_ : s.writer = .inWindow loop w first []) :
      WriterStep env args s { s with writer := .closing loop w [] }
  | closeWindow {s} {loop : WriterLoop} {w : Window} {deferred : List Candidate}
      (at_ : s.writer = .closing loop w deferred) :
      WriterStep env args s
        (s.exec env false (closeWindow env w deferred) fun deferred => .between loop deferred)

inductive Thread where
  | main
  | reader
  | acc
  | writer
  deriving DecidableEq

def Process.Step (env : WriterEnv σ) (args : WriterArgs) (batchMax : Nat) :
    Thread → Process σ → Process σ → Prop
  | .main => MainStep
  | .reader => ReaderStep env
  | .acc => AccStep batchMax
  | .writer => WriterStep env args

/-- The threads as `run_scrub` spawns them; those it does not spawn are over. -/
def Process.start (piped threaded : Bool) (depth : Nat) (w : σ) (mountpoint : Option Path)
    (counters : Option StatusCounters) : Process σ where
  piped
  threaded
  main := .walking
  inflight := 0
  pipelineFailed := false
  sent := []
  cmd := ⟨depth, [], threaded, threaded⟩
  reader := if threaded then .receiving else .returned
  rsp := ⟨depth, [], threaded, threaded⟩
  cand := ⟨capacity, [], piped, piped⟩
  acc := if piped then .starting else .returned
  batch := ⟨capacity, [], piped, piped⟩
  writer := if piped then .between .receiving [] else .returned {}
  state := .start w mountpoint counters

/-- A run from the spawn of the pipeline on, in any interleaving. -/
def process (env : WriterEnv σ) (args : WriterArgs) (batchMax : Nat) : Transition (Process σ) where
  init s := ∃ piped threaded depth w mountpoint counters, 0 < depth ∧
    s = Process.start piped threaded depth w mountpoint counters
  step s s' := ∃ thread, Process.Step env args batchMax thread s s'

/-! ### What a step leaves alone -/

/-- What the accumulator and the writer do not touch. -/
def Process.scrubSide (s : Process σ) :
    MainThread × Nat × Bool × Channel Unit × ReaderThread × Channel Unit :=
  (s.main, s.inflight, s.pipelineFailed, s.cmd, s.reader, s.rsp)

@[simp] theorem Process.setAcc_scrubSide (s : Process σ) (a : Accumulator) :
    (s.setAcc a).scrubSide = s.scrubSide := by
  unfold Process.setAcc
  split <;> rfl

theorem AccStep.scrubSide {batchMax : Nat} {s s' : Process σ} (h : AccStep batchMax s s') :
    s'.scrubSide = s.scrubSide := by
  cases h with
  | send => exact Process.setAcc_scrubSide _ _
  | refused => exact Process.setAcc_scrubSide _ _
  | _ => rfl

@[simp] theorem Process.exec_scrubSide {α : Type} (env : WriterEnv σ) (s : Process σ) (held : Bool)
    (x : WriterM σ α) (next : α → Writer) : (s.exec env held x next).scrubSide = s.scrubSide := by
  unfold Process.exec
  split <;> rfl

theorem WriterStep.scrubSide {env : WriterEnv σ} {args : WriterArgs} {s s' : Process σ}
    (h : WriterStep env args s s') : s'.scrubSide = s.scrubSide := by
  cases h with
  | openWindow => exact Process.exec_scrubSide ..
  | round => exact Process.exec_scrubSide ..
  | closeWindow => exact Process.exec_scrubSide ..
  | _ => rfl

theorem WriterStep.piped {env : WriterEnv σ} {args : WriterArgs} {s s' : Process σ}
    (h : WriterStep env args s s') : s'.piped = s.piped := by
  have hexec {α : Type} {held : Bool} {x : WriterM σ α} {next : α → Writer} :
      (s.exec env held x next).piped = s.piped := by
    unfold Process.exec
    split <;> rfl
  cases h with
  | openWindow => exact hexec
  | round => exact hexec
  | closeWindow => exact hexec
  | _ => rfl

/-- The main thread and the accumulator leave the writer to itself. -/
theorem MainStep.writerSide {s s' : Process σ} (h : MainStep s s') :
    s'.writer = s.writer ∧ s'.state = s.state ∧ s'.piped = s.piped := by
  have hscrub (t : Process σ) :
      t.endScrub.writer = t.writer ∧ t.endScrub.state = t.state ∧ t.endScrub.piped = t.piped := by
    unfold Process.endScrub
    split
    · exact ⟨rfl, rfl, rfl⟩
    · exact ⟨rfl, rfl, rfl⟩
  cases h with
  | inlineOver => exact hscrub s
  | readerJoined => exact hscrub _
  | _ => exact ⟨rfl, rfl, rfl⟩

theorem AccStep.writerSide {batchMax : Nat} {s s' : Process σ} (h : AccStep batchMax s s') :
    s'.writer = s.writer ∧ s'.state = s.state ∧ s'.piped = s.piped := by
  have hset (t : Process σ) (a : Accumulator) : (t.setAcc a).writer = t.writer ∧
      (t.setAcc a).state = t.state ∧ (t.setAcc a).piped = t.piped := by
    unfold Process.setAcc
    split
    · exact ⟨rfl, rfl, rfl⟩
    · exact ⟨rfl, rfl, rfl⟩
  cases h with
  | send => exact hset _ _
  | refused => exact hset s _
  | _ => exact ⟨rfl, rfl, rfl⟩

end Rotshield.Main
