import Rotshield.Main.Deadlock
import Rotshield.Main.Restores

/-! The threads of a run, seen as the pipeline: a flush is taken where its parts will have led. -/
namespace Rotshield.Main
open BatchRecover
open Lib (Channel Transition run_bind)

variable {σ : Type}

/-! ### Where the writer will be -/

/-- The place of the writer's thread that a loop goes on from. -/
def WriterLoop.place : WriterLoop → List Candidate → WriterThread
  | .receiving => .receiving
  | .draining => .draining

/-- Where the rest of a flush leaves the writer; `none` if it stops it. -/
def ahead (loop : WriterLoop) (rest : WriterM σ (List Candidate)) (state : WriterState σ) :
    Option (WriterThread × WriterState σ) :=
  match rest.run.run state with
  | (.ok deferred, state) => some (loop.place deferred, state)
  | (.error _, _) => none

/-- The writer at the end of the flush it is in; `none` if it stops, or has stopped. -/
def Process.settled (env : WriterEnv σ) (args : WriterArgs) (s : Process σ) :
    Option (WriterThread × WriterState σ) :=
  match s.writer with
  | .between loop pending => some (loop.place pending, s.state)
  | .opening loop pending => ahead loop (flushBatch env args pending) s.state
  | .inWindow loop w first rest =>
      ahead loop
        (flushLoop env args w.hasLiveMount w.writesAllowed w.started first rest >>=
          closeWindow env w)
        s.state
  | .closing loop w deferred => ahead loop (closeWindow env w deferred) s.state
  | .returned stats => some (.returned stats, s.state)
  | .stopped _ => none

/-- A part of a flush leaves the writer closer to the same end. -/
theorem Process.settled_exec {α : Type} {env : WriterEnv σ} {args : WriterArgs} {s : Process σ}
    {held : Bool} {x : WriterM σ α} {next : α → Writer} (loop : WriterLoop)
    (rest : α → WriterM σ (List Candidate))
    (hnext : ∀ a state, Process.settled env args { s with writer := next a, state } =
      ahead loop (rest a) state) :
    (s.exec env held x next).settled env args = ahead loop (x >>= rest) s.state := by
  unfold Process.exec ahead
  rw [run_bind]
  rcases x.run.run s.state with ⟨why | a, state⟩
  · rfl
  · exact hnext a state

section Flush
variable {env : WriterEnv σ} {args : WriterArgs} {s s' : Process σ} {loop : WriterLoop}

theorem Process.settled_openWindow {pending : List Candidate}
    (at_ : s.writer = .opening loop pending) :
    (s.exec env false (openWindow env pending) fun w =>
        .inWindow loop w true (dedupByPhys (sortByPhys pending))).settled env args =
      s.settled env args := by
  rw [settled_exec loop (fun w =>
    flushLoop env args w.hasLiveMount w.writesAllowed w.started true
      (dedupByPhys (sortByPhys pending)) >>= closeWindow env w) fun _ _ => rfl, settled, at_]
  exact congrArg (ahead loop · s.state) (flushBatch_eq env args pending).symm

theorem Process.settled_round {w : Window} {first : Bool} {c : Candidate} {rest : List Candidate}
    (at_ : s.writer = .inWindow loop w first (c :: rest)) :
    (s.exec env w.frozen (flushRound env args w first c) fun expired =>
        if expired then .closing loop w (c :: rest) else .inWindow loop w false rest).settled
          env args =
      s.settled env args := by
  rw [settled_exec loop (fun expired =>
    if expired then closeWindow env w (c :: rest)
    else flushLoop env args w.hasLiveMount w.writesAllowed w.started false rest >>=
      closeWindow env w), settled, at_]
  · dsimp only
    rw [flushLoop_cons, bind_assoc]
    congr 2
    funext expired
    cases expired with
    | true => exact (pure_bind _ _).symm
    | false => rfl
  · rintro (_ | _) state
    · rfl
    · rfl

theorem Process.settled_closeWindow {w : Window} {deferred : List Candidate}
    (at_ : s.writer = .closing loop w deferred) :
    (s.exec env false (closeWindow env w deferred) fun deferred =>
        .between loop deferred).settled env args = s.settled env args := by
  rw [settled_exec loop pure fun _ _ => rfl, settled, at_, bind_pure]

end Flush

/-! ### The ends that are held -/

/-- A thread that is not past its use of a channel holds its end. -/
structure Process.Held (s : Process σ) : Prop where
  candSender : s.piped = true → s.main.feeding = true → s.cand.sender = true
  candReceiver : s.acc.over = false → s.cand.receiver = true
  batchSender : s.acc.over = false → s.batch.sender = true
  batchReceiver : s.writer.over = false → s.batch.receiver = true
  candRoom : s.cand.capacity = capacity
  batchRoom : s.batch.capacity = capacity

namespace Process.Held
variable {s s' : Process σ}

theorem endMain (h : s.Held) : s.endMain.Held :=
  { h with candSender := fun _ hfeeding => by cases hfeeding }

theorem endScrub (h : s.Held) (hfeeding : s.main.feeding = true) : s.endScrub.Held := by
  unfold Process.endScrub
  split
  · exact { h with candSender := fun hpiped _ => h.candSender hpiped hfeeding }
  · exact h.endMain

theorem moveMain (h : s.Held) (hfeeding : s.main.feeding = true) (main : MainThread) :
    Process.Held { s with main } :=
  { h with candSender := fun hpiped _ => h.candSender hpiped hfeeding }

theorem main (h : s.Held) (hstep : MainStep s s') : s'.Held := by
  cases hstep with
  | issueRun at_ => exact h.moveMain (by rw [at_]; rfl) _
  | sendCmd at_ => exact { h.moveMain (by rw [at_]; rfl) _ with }
  | cmdRefused at_ => exact { h.moveMain (by rw [at_]; rfl) .walking with }
  | closeCommands at_ => exact { h.moveMain (by rw [at_]; rfl) (.receiving true) with }
  | inlineOver at_ => exact h.endScrub (by rw [at_]; rfl)
  | @recvRsp draining rsp at_ =>
      exact { h.moveMain (by rw [at_]; rfl) (.processing draining) with }
  | rspLost at_ => exact { h.moveMain (by rw [at_]; rfl) _ with }
  | drained at_ => exact h.moveMain (by rw [at_]; rfl) _
  | emit c at_ => exact h.moveMain (by rw [at_]; rfl) _
  | @sendCandidate draining c cand at_ sent =>
      obtain ⟨rfl, -, -⟩ := Channel.send_sent sent
      have hmoved : Process.Held { s with main := .processing draining } :=
        h.moveMain (by rw [at_]; rfl) _
      exact { hmoved with candSender := hmoved.candSender }
  | candidateRefused at_ => exact h.moveMain (by rw [at_]; rfl) _
  | endResponse at_ => exact h.moveMain (by rw [at_]; rfl) _
  | readerJoined at_ =>
      have hdropped : Process.Held { s with rsp := s.rsp.dropReceiver } := { h with }
      exact hdropped.endScrub (show s.main.feeding = true by rw [at_]; rfl)
  | scrubFailed =>
      have hdropped : Process.Held { s with rsp := s.rsp.dropReceiver } := { h with }
      exact hdropped.endMain
  | sendDone at_ sent =>
      obtain ⟨rfl, -, -⟩ := Channel.send_sent sent
      exact { h with candSender := fun _ hfeeding => by cases hfeeding }
  | doneRefused => exact { h with candSender := fun _ hfeeding => by cases hfeeding }
  | accJoined => exact { h with candSender := fun _ hfeeding => by cases hfeeding }
  | accPanicked => exact h.endMain
  | writerJoined => exact h.endMain

theorem reader {env : WriterEnv σ} (h : s.Held) (hstep : ReaderStep env s s') : s'.Held := by
  cases hstep with
  | _ => exact { h with }

theorem endAcc (h : s.Held) {acc : Accumulator} (hover : acc.over = true) : (s.endAcc acc).Held :=
  { h with
    candSender := h.candSender
    candReceiver := fun hgoing => by cases hover.symm.trans hgoing
    batchSender := fun hgoing => by cases hover.symm.trans hgoing
    batchReceiver := h.batchReceiver }

/-- The accumulator goes on. -/
theorem moveAcc (h : s.Held) (hgoing : s.acc.over = false) (acc : Accumulator) :
    Process.Held { s with acc } :=
  { h with
    candReceiver := fun _ => h.candReceiver hgoing
    batchSender := fun _ => h.batchSender hgoing }

theorem setAcc (h : s.Held) (hgoing : s.acc.over = false) (acc : Accumulator) :
    (s.setAcc acc).Held := by
  unfold Process.setAcc
  split
  · exact h.endAcc rfl
  · exact h.moveAcc hgoing _

/-- An accumulator that receives is not over. -/
theorem receives_going {batchMax : Nat} {a : Accumulator}
    (h : Accumulator.receives batchMax a = true) : a.over = false := by
  cases a with
  | returned => cases h
  | panicked => cases h
  | _ => rfl

theorem hands_going {a : Accumulator} {msg : BatchMsg} (h : Accumulator.hands a = some msg) :
    a.over = false := by
  cases a with
  | returned => cases h
  | panicked => cases h
  | _ => rfl

theorem acc {batchMax : Nat} (h : s.Held) (hstep : AccStep batchMax s s') : s'.Held := by
  cases hstep with
  | allocate at_ => exact h.moveAcc (by rw [at_]; rfl) _
  | die => exact h.endAcc rfl
  | recv receives got =>
      obtain ⟨rest, -, rfl⟩ := Channel.recv_received got
      have hmoved := h.moveAcc (receives_going receives) (Accumulator.took s.acc ‹Msg›)
      exact { hmoved with
        candSender := hmoved.candSender
        candReceiver := hmoved.candReceiver }
  | disconnected receives => exact h.moveAcc (receives_going receives) _
  | handOver at_ => exact h.moveAcc (by rw [at_]; rfl) _
  | nothingLeft at_ => exact h.moveAcc (by rw [at_]; rfl) _
  | @send msg batch hands sent =>
      obtain ⟨rfl, -, -⟩ := Channel.send_sent sent
      have hsent : Process.Held { s with batch := s.batch.push msg } :=
        { h with batchSender := h.batchSender, batchReceiver := h.batchReceiver }
      exact hsent.setAcc (hands_going hands) _
  | refused hands => exact h.setAcc (hands_going hands) _

theorem endWriter {env : WriterEnv σ} (h : s.Held) {writer : Writer} (hover : writer.over = true) :
    (s.endWriter env writer).Held :=
  { h with
    batchSender := h.batchSender
    batchReceiver := fun hgoing => by cases hover.symm.trans hgoing }

/-- The writer goes on. -/
theorem moveWriter (h : s.Held) (hgoing : s.writer.over = false) (writer : Writer)
    (state : WriterState σ) : Process.Held { s with writer, state } :=
  { h with batchReceiver := fun _ => h.batchReceiver hgoing }

theorem exec {α : Type} {env : WriterEnv σ} (h : s.Held) (hgoing : s.writer.over = false)
    (held : Bool) (x : WriterM σ α) (next : α → Writer) : (s.exec env held x next).Held := by
  unfold Process.exec
  split
  · exact h.moveWriter hgoing _ _
  · have hthawed (state : WriterState σ) : Process.Held { s with state } := { h with }
    exact (hthawed _).endWriter rfl

theorem writer {env : WriterEnv σ} {args : WriterArgs} (h : s.Held)
    (hstep : WriterStep env args s s') : s'.Held := by
  cases hstep with
  | @recvBatch pending cands batch at_ got =>
      obtain ⟨rest, -, rfl⟩ := Channel.recv_received got
      have hmoved := h.moveWriter (by rw [at_]; rfl) (.opening .receiving (pending ++ cands)) s.state
      exact { hmoved with
        batchSender := hmoved.batchSender
        batchReceiver := hmoved.batchReceiver }
  | @recvDone pending batch at_ got =>
      obtain ⟨rest, -, rfl⟩ := Channel.recv_received got
      have hmoved := h.moveWriter (by rw [at_]; rfl) (.between .draining pending) s.state
      exact { hmoved with
        batchSender := hmoved.batchSender
        batchReceiver := hmoved.batchReceiver }
  | disconnected at_ => exact h.moveWriter (by rw [at_]; rfl) _ _
  | drainNext at_ => exact h.moveWriter (by rw [at_]; rfl) _ _
  | drained => exact h.endWriter rfl
  | openWindow at_ => exact h.exec (by rw [at_]; rfl) _ _ _
  | round at_ => exact h.exec (by rw [at_]; rfl) _ _ _
  | roundsOver at_ => exact h.moveWriter (by rw [at_]; rfl) _ _
  | closeWindow at_ => exact h.exec (by rw [at_]; rfl) _ _ _

theorem start (piped threaded : Bool) (depth : Nat) (w : σ) (mountpoint : Option Path)
    (counters : Option StatusCounters) :
    (Process.start piped threaded depth w mountpoint counters).Held where
  candSender hpiped _ := hpiped
  candReceiver hgoing := by
    cases piped with
    | true => rfl
    | false => cases hgoing
  batchSender hgoing := by
    cases piped with
    | true => rfl
    | false => cases hgoing
  batchReceiver hgoing := by
    cases piped with
    | true => rfl
    | false => cases hgoing
  candRoom := rfl
  batchRoom := rfl

theorem reachable {env : WriterEnv σ} {args : WriterArgs} {batchMax : Nat}
    (h : (process env args batchMax).Reachable s) : s.Held := by
  refine h.invariant (motive := Process.Held) ?_ ?_
  · rintro s ⟨piped, threaded, depth, w, mountpoint, counters, -, rfl⟩
    exact start piped threaded depth w mountpoint counters
  · rintro s s' hs ⟨thread, hstep⟩
    cases thread with
    | main => exact hs.main hstep
    | reader => exact hs.reader hstep
    | acc => exact hs.acc hstep
    | writer => exact hs.writer hstep

end Process.Held

/-! ### The run as a run of the pipeline -/

/-- The driver lives until `run_scrub` sends `Done` or gives up. -/
def MainThread.driver (main : MainThread) : BatchRecover.Driver :=
  if main.feeding then .sending else .closed

/-- The process with its writer at `writer`, in `state`. -/
def Process.seen (s : Process σ) (writer : WriterThread) (state : WriterState σ) : Pipeline σ where
  driver := s.main.driver
  sent := s.sent
  chanA := s.cand.queue
  acc := s.acc
  chanB := s.batch.queue
  writer
  state

/-- The pipeline of a run, while no panic of the reader has thawed behind the controller's back and
the writer does not stop. -/
def Process.view (env : WriterEnv σ) (args : WriterArgs) (s : Process σ) : Option (Pipeline σ) :=
  if s.piped = true ∧ s.reader ≠ .panicked then
    (s.settled env args).map fun (writer, state) => s.seen writer state
  else none

section View
variable {env : WriterEnv σ} {args : WriterArgs} {batchMax : Nat} {s s' : Process σ}
  {t : Pipeline σ}

theorem Process.view_eq_some : s.view env args = some t ↔
    s.piped = true ∧ s.reader ≠ .panicked ∧
      ∃ writer state, s.settled env args = some (writer, state) ∧ s.seen writer state = t := by
  unfold view
  split
  · rename_i hlive
    rw [Option.map_eq_some_iff]
    constructor
    · rintro ⟨⟨writer, state⟩, hsettled, hseen⟩
      exact ⟨hlive.1, hlive.2, writer, state, hsettled, hseen⟩
    · rintro ⟨-, -, writer, state, hsettled, hseen⟩
      exact ⟨(writer, state), hsettled, hseen⟩
  · rename_i hnot
    constructor
    · rintro ⟨⟩
    · rintro ⟨hpiped, hreader, -⟩
      exact absurd ⟨hpiped, hreader⟩ hnot

theorem Process.settled_congr (hwriter : s'.writer = s.writer) (hstate : s'.state = s.state) :
    s'.settled env args = s.settled env args := by
  unfold settled
  rw [hwriter, hstate]

theorem ahead_some {loop : WriterLoop} {rest : WriterM σ (List Candidate)} {state state' : WriterState σ}
    {writer : WriterThread} (h : ahead loop rest state = some (writer, state')) :
    ∃ deferred, rest.run.run state = (.ok deferred, state') ∧ writer = loop.place deferred := by
  unfold ahead at h
  split at h
  · rename_i deferred state'' hrun
    cases h
    exact ⟨deferred, hrun, rfl⟩
  · cases h

@[simp] theorem WriterLoop.place_over (loop : WriterLoop) (pending : List Candidate) :
    (loop.place pending).over = false := by
  cases loop <;> rfl

theorem WriterLoop.place_ne_stopped (loop : WriterLoop) (pending : List Candidate) (why : Stop) :
    loop.place pending ≠ .stopped why := by
  cases loop with
  | receiving => exact fun heq => by cases heq
  | draining => exact fun heq => by cases heq

/-- A writer that is seen is over where it is over, and has not stopped. -/
theorem Process.settled_over {writer : WriterThread} {state : WriterState σ}
    (h : s.settled env args = some (writer, state)) :
    writer.over = s.writer.over ∧ ∀ why, writer ≠ .stopped why := by
  unfold settled at h
  cases hwriter : s.writer with
  | between loop pending =>
      rw [hwriter] at h
      cases h
      exact ⟨loop.place_over pending, loop.place_ne_stopped pending⟩
  | opening loop =>
      rw [hwriter] at h
      obtain ⟨deferred, -, rfl⟩ := ahead_some h
      exact ⟨loop.place_over deferred, loop.place_ne_stopped deferred⟩
  | inWindow loop =>
      rw [hwriter] at h
      obtain ⟨deferred, -, rfl⟩ := ahead_some h
      exact ⟨loop.place_over deferred, loop.place_ne_stopped deferred⟩
  | closing loop =>
      rw [hwriter] at h
      obtain ⟨deferred, -, rfl⟩ := ahead_some h
      exact ⟨loop.place_over deferred, loop.place_ne_stopped deferred⟩
  | returned =>
      rw [hwriter] at h
      cases h
      exact ⟨rfl, fun why heq => by cases heq⟩
  | stopped =>
      rw [hwriter] at h
      cases h

/-- The main thread leaves the reader, the accumulator and what goes to the writer alone. -/
theorem MainStep.others (h : MainStep s s') :
    s'.reader = s.reader ∧ s'.acc = s.acc ∧ s'.batch = s.batch := by
  have hscrub (t : Process σ) :
      t.endScrub.reader = t.reader ∧ t.endScrub.acc = t.acc ∧ t.endScrub.batch = t.batch := by
    unfold Process.endScrub
    split
    · exact ⟨rfl, rfl, rfl⟩
    · exact ⟨rfl, rfl, rfl⟩
  cases h with
  | inlineOver => exact hscrub s
  | readerJoined => exact hscrub _
  | _ => exact ⟨rfl, rfl, rfl⟩

/-- A step of the pipeline, or none. -/
def Moves (env : WriterEnv σ) (args : WriterArgs) (batchMax : Nat) (t t' : Pipeline σ) : Prop :=
  t' = t ∨ Pipeline.Step env args batchMax t t'

theorem Process.seen_eq {writer : WriterThread} {state : WriterState σ}
    (hdriver : s'.main.driver = s.main.driver) (hsent : s'.sent = s.sent)
    (hcand : s'.cand = s.cand) (hacc : s'.acc = s.acc) (hbatch : s'.batch = s.batch) :
    s'.seen writer state = s.seen writer state := by
  unfold seen
  rw [hdriver, hsent, hcand, hacc, hbatch]

end View

section Steps
variable {env : WriterEnv σ} {args : WriterArgs} {batchMax : Nat} {s s' : Process σ}
  {writer : WriterThread} {state : WriterState σ}

theorem MainThread.driver_sending {main : MainThread} (h : main.feeding = true) :
    main.driver = .sending :=
  if_pos h

/-- While it feeds the accumulator. -/
theorem Process.seen_sending (h : s.main.feeding = true) : s.seen writer state =
    ⟨.sending, s.sent, s.cand.queue, s.acc, s.batch.queue, writer, state⟩ := by
  unfold seen
  rw [MainThread.driver_sending h]

theorem Process.Ends.acc_going (h : s.Ends) (hreceiver : s.cand.receiver = true) :
    s.acc.over = false := by
  rw [← Bool.not_eq_true]
  intro hover
  rw [h.candReceiver hover] at hreceiver
  cases hreceiver

theorem Process.endScrub_moves (hpiped : s.piped = true) (hfeeding : s.main.feeding = true) :
    Moves env args batchMax (s.seen writer state) (s.endScrub.seen writer state) := by
  unfold endScrub
  rw [if_pos hpiped]
  exact .inl (seen_eq (MainThread.driver_sending hfeeding).symm rfl rfl rfl rfl)

/-- The driver is dropped while it may still send. -/
theorem Process.endMain_moves (hfeeding : s.main.feeding = true) :
    Moves env args batchMax (s.seen writer state) (s.endMain.seen writer state) := by
  rw [seen_sending hfeeding]
  exact .inr (.dropSender rfl)

theorem MainStep.moves (hends : s.Ends) (hheld : s.Held) (hpiped : s.piped = true)
    (h : MainStep s s') :
    Moves env args batchMax (s.seen writer state) (s'.seen writer state) := by
  have hstays {main : MainThread} (hfrom : s.main.feeding = true) (hto : main.feeding = true) :
      main.driver = s.main.driver :=
    (MainThread.driver_sending hto).trans (MainThread.driver_sending hfrom).symm
  cases h with
  | issueRun at_ =>
      exact .inl (Process.seen_eq (hstays (by rw [at_]; rfl) (by split <;> rfl)) rfl rfl rfl rfl)
  | sendCmd at_ =>
      exact .inl (Process.seen_eq (hstays (by rw [at_]; rfl) (by split <;> rfl)) rfl rfl rfl rfl)
  | cmdRefused at_ =>
      exact .inl (Process.seen_eq (hstays (by rw [at_]; rfl) rfl) rfl rfl rfl rfl)
  | closeCommands at_ =>
      exact .inl (Process.seen_eq (hstays (by rw [at_]; rfl) rfl) rfl rfl rfl rfl)
  | inlineOver at_ => exact Process.endScrub_moves hpiped (by rw [at_]; rfl)
  | recvRsp at_ => exact .inl (Process.seen_eq (hstays (by rw [at_]; rfl) rfl) rfl rfl rfl rfl)
  | rspLost at_ =>
      exact .inl (Process.seen_eq (hstays (by rw [at_]; rfl) (by split <;> rfl)) rfl rfl rfl rfl)
  | drained at_ => exact .inl (Process.seen_eq (hstays (by rw [at_]; rfl) rfl) rfl rfl rfl rfl)
  | emit c at_ => exact .inl (Process.seen_eq (hstays (by rw [at_]; rfl) rfl) rfl rfl rfl rfl)
  | @sendCandidate draining c cand at_ sent =>
      obtain ⟨rfl, hreceiver, hroom⟩ := Channel.send_sent sent
      rw [hheld.candRoom] at hroom
      rw [Process.seen_sending (by rw [at_]; rfl)]
      exact .inr (.send c rfl hroom (hends.acc_going hreceiver))
  | candidateRefused at_ gone =>
      exact .inl (Process.seen_eq (hstays (by rw [at_]; rfl) rfl) rfl rfl rfl rfl)
  | endResponse at_ =>
      exact .inl (Process.seen_eq (hstays (by rw [at_]; rfl) (by split <;> rfl)) rfl rfl rfl rfl)
  | readerJoined at_ =>
      exact Process.endScrub_moves (s := { s with rsp := s.rsp.dropReceiver }) hpiped
        (show s.main.feeding = true by rw [at_]; rfl)
  | scrubFailed at_ =>
      exact Process.endMain_moves (s := { s with rsp := s.rsp.dropReceiver })
        (show s.main.feeding = true by rw [at_]; rfl)
  | sendDone at_ sent =>
      obtain ⟨rfl, hreceiver, hroom⟩ := Channel.send_sent sent
      rw [hheld.candRoom] at hroom
      rw [Process.seen_sending (by rw [at_]; rfl)]
      exact .inr (.sendDone rfl hroom (hends.acc_going hreceiver))
  | doneRefused at_ =>
      rw [Process.seen_sending (by rw [at_]; rfl)]
      exact .inr (.dropSender rfl)
  | accJoined at_ => exact .inl (Process.seen_eq (by rw [at_]; rfl) rfl rfl rfl rfl)
  | accPanicked at_ => exact .inl (by unfold Process.seen; rw [at_]; rfl)
  | writerJoined at_ => exact .inl (by unfold Process.seen; rw [at_]; rfl)

theorem AccStep.moves (hends : s.Ends) (hheld : s.Held) (hpiped : s.piped = true)
    (hsettled : s.settled env args = some (writer, state)) (hinv : (s.seen writer state).Inv)
    (h : AccStep batchMax s s') :
    Moves env args batchMax (s.seen writer state) (s'.seen writer state) := by
  cases h with
  | allocate at_ fits => exact .inr (.allocate at_ fits)
  | die at_ overflow => exact .inr (.panic at_ overflow)
  | @recv msg cand receives got =>
      obtain ⟨rest, hqueue, rfl⟩ := Channel.recv_received got
      refine .inr ?_
      cases hacc : s.acc with
      | waiting =>
          cases msg with
          | candidate c => exact .recvFirst hacc hqueue
          | done => exact .recvFirstDone hacc hqueue
      | collecting batch =>
          rw [hacc] at receives
          have hmore : batch.length < batchMax := of_decide_eq_true receives
          cases msg with
          | candidate c => exact .recv hacc hmore hqueue
          | done => exact .recvDone hacc hmore hqueue
      | _ => rw [hacc] at receives; cases receives
  | disconnected receives gone =>
      obtain ⟨hqueue, hsender⟩ := Channel.recv_disconnected gone
      have hclosed : s.main.driver = .closed := by
        refine if_neg fun hfeeding => ?_
        rw [hheld.candSender hpiped hfeeding] at hsender
        cases hsender
      refine .inr ?_
      cases hacc : s.acc with
      | waiting => exact .firstDisconnected hacc hqueue hclosed
      | collecting batch =>
          rw [hacc] at receives
          exact .disconnected hacc (of_decide_eq_true receives) hqueue hclosed
      | _ => rw [hacc] at receives; cases receives
  | @handOver batch at_ =>
      rcases Nat.lt_or_ge batch.length batchMax with hmore | hfull
      · exact .inr (.timeout at_ hmore)
      · exact .inr (.batchFull at_ hfull)
  | nothingLeft at_ => exact .inr (.nothingLeft at_)
  | @send msg batch hands sent =>
      obtain ⟨rfl, hreceiver, hroom⟩ := Channel.send_sent sent
      rw [hheld.batchRoom] at hroom
      have hpeer : writer.over = false := by
        rw [(Process.settled_over hsettled).1, ← Bool.not_eq_true]
        intro hover
        rw [hends.batchReceiver hover] at hreceiver
        cases hreceiver
      refine .inr ?_
      cases hacc : s.acc with
      | sending batch =>
          rw [hacc] at hands
          cases hands
          exact .sendBatch hacc hroom hpeer
      | finishing batch =>
          rw [hacc] at hands
          cases batch with
          | nil => cases hands
          | cons c batch =>
              cases hands
              exact .sendLast hacc hroom hpeer
      | sendingDone =>
          rw [hacc] at hands
          cases hands
          -- The receiver is dropped as the accumulator returns: nothing was left to receive.
          have hnil : s.cand.queue = [] :=
            (hinv.closing (by change s.acc.isOpen = false; rw [hacc]; rfl)).2
          have hseen : s.seen writer state =
              ⟨s.main.driver, s.sent, [], s.acc, s.batch.queue, writer, state⟩ := by
            unfold Process.seen
            rw [hnil]
          rw [hseen]
          exact .sendDoneB hacc hroom hpeer
      | _ => rw [hacc] at hands; cases hands
  | refused hands gone =>
      -- The writer outlives an accumulator that has something to hand over.
      obtain ⟨-, pending, hwriter⟩ := hinv.live (Process.Held.hands_going hands)
      have hgoing : s.writer.over = false := by
        rw [← (Process.settled_over hsettled).1, show writer = .receiving pending from hwriter]
        rfl
      have hreceiver := hheld.batchReceiver hgoing
      rw [Channel.send_refused gone] at hreceiver
      cases hreceiver

/-- A flush that the writer starts and that does not stop it is the flush of the pipeline. -/
theorem Process.flush_seen (loop : WriterLoop) {pending : List Candidate} {pos : WriterThread}
    (h : ahead loop (flushBatch env args pending) s.state = some (writer, state)) :
    Pipeline.flush env args (s.seen pos s.state) pending loop.place = s.seen writer state := by
  obtain ⟨deferred, hrun, rfl⟩ := ahead_some h
  unfold Pipeline.flush
  rw [show (s.seen pos s.state).state = s.state from rfl, hrun]
  rfl

/-- A part of a flush is not seen. -/
theorem Process.seen_exec {α : Type} {held : Bool} {x : WriterM σ α} {next : α → Writer}
    {pos : WriterThread} {end_ : WriterState σ}
    (h : (s.exec env held x next).settled env args = some (writer, state)) :
    (s.exec env held x next).seen pos end_ = s.seen pos end_ := by
  unfold exec at h ⊢
  split at h
  · rfl
  · cases h

theorem WriterStep.moves (hheld : s.Held) (h : WriterStep env args s s')
    (hsettled : s'.settled env args = some (writer, state)) :
    ∃ writer₀ state₀, s.settled env args = some (writer₀, state₀) ∧
      ((s.seen writer₀ state₀).Inv →
        Moves env args batchMax (s.seen writer₀ state₀) (s'.seen writer state)) := by
  cases h with
  | @recvBatch pending cands batch at_ got =>
      obtain ⟨rest, hqueue, rfl⟩ := Channel.recv_received got
      refine ⟨.receiving pending, s.state, by unfold Process.settled; rw [at_]; rfl,
        fun _ => .inr ?_⟩
      have hflush : Pipeline.flush env args
          (Process.seen { s with batch := { s.batch with queue := rest } } (.receiving pending)
            s.state) (pending ++ cands) .receiving = _ :=
        Process.flush_seen .receiving hsettled
      have hstep : Pipeline.Step env args batchMax (s.seen (.receiving pending) s.state) _ :=
        .recvBatch rfl hqueue
      exact hflush ▸ hstep
  | @recvDone pending batch at_ got =>
      obtain ⟨rest, hqueue, rfl⟩ := Channel.recv_received got
      cases hsettled
      refine ⟨.receiving pending, s.state, by unfold Process.settled; rw [at_]; rfl,
        fun _ => .inr (.recvDoneB rfl hqueue)⟩
  | @disconnected pending at_ gone =>
      obtain ⟨hqueue, hsender⟩ := Channel.recv_disconnected gone
      have hover : s.acc.over = true := by
        rw [← Bool.not_eq_false]
        intro hgoing
        rw [hheld.batchSender hgoing] at hsender
        cases hsender
      cases hsettled
      refine ⟨.receiving pending, s.state, by unfold Process.settled; rw [at_]; rfl,
        fun _ => .inr (.disconnectedB rfl hqueue hover)⟩
  | @drainNext c pending at_ =>
      refine ⟨.draining (c :: pending), s.state, by unfold Process.settled; rw [at_]; rfl,
        fun _ => .inr ?_⟩
      have hflush : Pipeline.flush env args (s.seen (.draining (c :: pending)) s.state)
          (c :: pending) .draining = _ :=
        Process.flush_seen .draining hsettled
      have hstep : Pipeline.Step env args batchMax (s.seen (.draining (c :: pending)) s.state) _ :=
        .drainOne rfl
      exact hflush ▸ hstep
  | drained at_ =>
      cases hsettled
      refine ⟨.draining [], s.state, by unfold Process.settled; rw [at_]; rfl,
        fun hinv => .inr ?_⟩
      have hnil : s.batch.queue = [] := (hinv.ending fun pending heq => by cases heq).2
      have hseen : s.seen (.draining []) s.state =
          ⟨s.main.driver, s.sent, s.cand.queue, s.acc, [], .draining [], s.state⟩ := by
        unfold Process.seen
        rw [hnil]
      rw [hseen]
      exact .drained rfl
  | openWindow at_ =>
      refine ⟨writer, state, (Process.settled_openWindow at_).symm.trans hsettled, fun _ => ?_⟩
      exact .inl (Process.seen_exec hsettled)
  | round at_ =>
      refine ⟨writer, state, (Process.settled_round at_).symm.trans hsettled, fun _ => ?_⟩
      exact .inl (Process.seen_exec hsettled)
  | roundsOver at_ =>
      refine ⟨writer, state, ?_, fun _ => .inl rfl⟩
      rw [← hsettled]
      unfold Process.settled
      rw [at_]
      dsimp only
      rw [flushLoop, pure_bind]
  | closeWindow at_ =>
      refine ⟨writer, state, (Process.settled_closeWindow at_).symm.trans hsettled, fun _ => ?_⟩
      exact .inl (Process.seen_exec hsettled)

/-- The commands and the responses are not the pipeline's. -/
theorem ReaderStep.unseen (args : WriterArgs) (halive : s'.reader ≠ .panicked) (h : ReaderStep env s s') :
    s.reader ≠ .panicked ∧ s'.piped = s.piped ∧ s'.settled env args = s.settled env args ∧
      s'.seen writer state = s.seen writer state := by
  cases h with
  | die => exact absurd rfl halive
  | recvCmd at_ => exact ⟨by rw [at_]; decide, rfl, rfl, rfl⟩
  | cmdsOver at_ => exact ⟨by rw [at_]; decide, rfl, rfl, rfl⟩
  | read at_ => exact ⟨by rw [at_]; decide, rfl, rfl, rfl⟩
  | respond at_ => exact ⟨by rw [at_]; decide, rfl, rfl, rfl⟩
  | rspRefused at_ => exact ⟨by rw [at_]; decide, rfl, rfl, rfl⟩

theorem AccStep.reader (h : AccStep batchMax s s') : s'.reader = s.reader := by
  have hside := h.scrubSide
  simp only [Process.scrubSide, Prod.mk.injEq] at hside
  exact hside.2.2.2.2.1

theorem WriterStep.reader (h : WriterStep env args s s') : s'.reader = s.reader := by
  have hside := h.scrubSide
  simp only [Process.scrubSide, Prod.mk.injEq] at hside
  exact hside.2.2.2.2.1

/-- A step of any thread is seen as one step of the pipeline, or not at all. -/
theorem Process.view_step {thread : Thread} (hends : s.Ends) (hheld : s.Held)
    (hstep : Process.Step env args batchMax thread s s') {t' : Pipeline σ}
    (hview : s'.view env args = some t') :
    ∃ t, s.view env args = some t ∧ (t.Inv → Moves env args batchMax t t') := by
  obtain ⟨hpiped, hreader, writer, state, hsettled, rfl⟩ := view_eq_some.mp hview
  cases thread with
  | main =>
      obtain ⟨hwriter, hstate, hpipes⟩ := MainStep.writerSide hstep
      rw [hpipes] at hpiped
      rw [(MainStep.others hstep).1] at hreader
      rw [settled_congr hwriter hstate] at hsettled
      exact ⟨_, view_eq_some.mpr ⟨hpiped, hreader, writer, state, hsettled, rfl⟩,
        fun _ => MainStep.moves hends hheld hpiped hstep⟩
  | reader =>
      obtain ⟨halive, hpipes, hsame, hseen⟩ := ReaderStep.unseen args hreader hstep
      rw [hpipes] at hpiped
      rw [hsame] at hsettled
      exact ⟨_, view_eq_some.mpr ⟨hpiped, halive, writer, state, hsettled, rfl⟩,
        fun _ => .inl hseen⟩
  | acc =>
      obtain ⟨hwriter, hstate, hpipes⟩ := AccStep.writerSide hstep
      rw [hpipes] at hpiped
      rw [AccStep.reader hstep] at hreader
      rw [settled_congr hwriter hstate] at hsettled
      exact ⟨_, view_eq_some.mpr ⟨hpiped, hreader, writer, state, hsettled, rfl⟩,
        fun hinv => AccStep.moves hends hheld hpiped hsettled hinv hstep⟩
  | writer =>
      obtain ⟨writer₀, state₀, hbefore, hmoves⟩ := WriterStep.moves hheld hstep hsettled
      rw [WriterStep.piped hstep] at hpiped
      rw [WriterStep.reader hstep] at hreader
      exact ⟨_, view_eq_some.mpr ⟨hpiped, hreader, writer₀, state₀, hbefore, rfl⟩, hmoves⟩

theorem Process.view_start {piped threaded : Bool} {depth : Nat} {w : σ} {mountpoint : Option Path}
    {counters : Option StatusCounters} {t : Pipeline σ}
    (h : (Process.start piped threaded depth w mountpoint counters).view env args = some t) :
    t = Pipeline.start w mountpoint counters := by
  obtain ⟨hpiped, -, writer, state, hsettled, rfl⟩ := view_eq_some.mp h
  obtain rfl : piped = true := hpiped
  cases hsettled
  rfl

/-- The threads of a run are the pipeline: in any interleaving with the scrub and its reader, what
is seen of them is reachable in the pipeline alone. -/
theorem Process.view_reachable (h : (process env args batchMax).Reachable s) {t : Pipeline σ}
    (hview : s.view env args = some t) : (pipeline env args batchMax).Reachable t := by
  refine h.seen (Process.view env args) ?_ ?_ hview
  · rintro s t ⟨piped, threaded, depth, w, mountpoint, counters, -, rfl⟩ hstart
    exact ⟨w, mountpoint, counters, view_start hstart⟩
  · rintro s s' t' hs ⟨thread, hstep⟩ hview'
    obtain ⟨t, ht, hmoves⟩ :=
      view_step (reachable_wired hs).1 (Held.reachable hs) hstep hview'
    refine ⟨t, ht, fun hreach => hmoves ?_⟩
    rcases Pipeline.reachable_sound hreach with hinv | ⟨why, hstopped⟩
    · exact hinv
    · obtain ⟨-, -, writer, state, hsettled, rfl⟩ := view_eq_some.mp ht
      exact absurd hstopped ((settled_over hsettled).2 why)

/-- `run_scrub` reconciles, in any interleaving: the writer it joins after an accumulator that
returned has classified as many candidates as were sent. -/
theorem Process.joined_reconciled (h : (process env args batchMax).Reachable s)
    (hpiped : s.piped = true) (hreader : s.reader ≠ .panicked) (hacc : s.acc = .returned)
    {stats : BatchStats} (hend : s.writer = .returned stats) :
    reconciled s.sent.length stats = true := by
  have hsettled : s.settled env args = some (.returned stats, s.state) := by
    unfold settled
    rw [hend]
  have hseen := view_reachable h
    (view_eq_some.mpr ⟨hpiped, hreader, _, _, hsettled, rfl⟩)
  exact returned_reconciled hseen hacc rfl

end Steps

end Rotshield.Main
