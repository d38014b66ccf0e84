import Rotshield.BatchRecover.Conservation
import Rotshield.Main.Threads

/-! No reachable state leaves every unfinished thread waiting. -/
namespace Rotshield.Main
open BatchRecover
open Lib (Channel)

variable {σ : Type}

/-! ### Waiting -/

def MainThread.over : MainThread → Bool
  | .returned => true
  | _ => false

namespace Process

def Unfinished (s : Process σ) : Thread → Prop
  | .main => s.main.over = false
  | .reader => s.reader.over = false
  | .acc => s.acc.over = false
  | .writer => s.writer.over = false

def MainBlocked (s : Process σ) : Prop :=
  match s.main with
  | .sendingCmd => s.cmd.SendBlocks
  | .receiving draining => (draining = true → s.inflight ≠ 0) ∧ s.rsp.RecvBlocks
  | .emitting _ _ => s.cand.SendBlocks
  | .shuttingDown => s.cand.SendBlocks
  | .joiningReader => s.reader.over = false
  | .joiningAcc => s.acc.over = false
  | .joiningWriter => s.writer.over = false
  | _ => False

def ReaderBlocked (s : Process σ) : Prop :=
  match s.reader with
  | .receiving => s.cmd.RecvBlocks
  | .responding => s.rsp.SendBlocks
  | _ => False

/-- A `recv_timeout` is not waited for: it ends by itself. -/
def AccBlocked (s : Process σ) : Prop :=
  match s.acc with
  | .waiting => s.cand.RecvBlocks
  | acc => (Accumulator.hands acc).isSome ∧ s.batch.SendBlocks

def WriterBlocked (s : Process σ) : Prop :=
  match s.writer with
  | .between .receiving _ => s.batch.RecvBlocks
  | _ => False

/-- The thread is at a channel operation or a join that would wait. -/
def Blocked (s : Process σ) : Thread → Prop
  | .main => s.MainBlocked
  | .reader => s.ReaderBlocked
  | .acc => s.AccBlocked
  | .writer => s.WriterBlocked

/-- Every unfinished thread waits, and there is one. -/
def Deadlocked (s : Process σ) : Prop :=
  (∃ thread, s.Unfinished thread) ∧ ∀ thread, s.Unfinished thread → s.Blocked thread

end Process

/-! ### The ends of the channels, and the commands in flight -/

/-- The command sender is not dropped. -/
def MainThread.issuing : MainThread → Bool
  | .walking => true
  | .sendingCmd => true
  | .receiving draining => !draining
  | .processing draining => !draining
  | .emitting draining _ => !draining
  | _ => false

/-- In `scrub.run`. -/
def MainThread.scrubbing : MainThread → Bool
  | .shuttingDown => false
  | .joiningAcc => false
  | .joiningWriter => false
  | .returned => false
  | _ => true

/-- The candidate sender is not dropped. -/
def MainThread.feeding : MainThread → Bool
  | .joiningAcc => false
  | .joiningWriter => false
  | .returned => false
  | _ => true

/-- There is room for one more command. -/
def MainThread.mayIssue (failed : Bool) : MainThread → Bool
  | .walking => !failed
  | .sendingCmd => true
  | .processing draining => !draining
  | .emitting draining _ => !draining
  | _ => false

/-- The commands the reader has taken and not answered. -/
def ReaderThread.held : ReaderThread → Nat
  | .reading => 1
  | .responding => 1
  | _ => 0

/-- A thread that is past its use of a channel has dropped its end. -/
structure Process.Ends (s : Process σ) : Prop where
  cmdSender : s.main.issuing = false → s.cmd.sender = false
  candSender : s.main.feeding = false → s.cand.sender = false
  joined : s.main.scrubbing = false → s.reader.over = true
  inline : s.threaded = false → s.reader.over = true ∧ s.cmd.sender = false
  cmdReceiver : s.reader.over = true → s.cmd.receiver = false
  rspSender : s.reader.over = true → s.rsp.sender = false
  candReceiver : s.acc.over = true → s.cand.receiver = false
  batchSender : s.acc.over = true → s.batch.sender = false
  batchReceiver : s.writer.over = true → s.batch.receiver = false
  candRoom : 0 < s.cand.capacity
  batchRoom : 0 < s.batch.capacity

/-- The commands in flight never exceed the depth of the channels. -/
structure Process.Flow (s : Process σ) : Prop where
  capacity : s.rsp.capacity = s.cmd.capacity
  conserved : s.reader.over = false →
    s.inflight = s.cmd.queue.length + s.rsp.queue.length + s.reader.held
  bounded : s.inflight ≤ s.cmd.capacity
  room : s.main.mayIssue s.pipelineFailed = true → s.inflight < s.cmd.capacity
  awaiting : s.main = .receiving false → 0 < s.inflight

namespace Process.Ends
variable {s s' : Process σ}

theorem endMain (h : s.Ends) (hcmd : s.cmd.sender = false) (hover : s.reader.over = true) :
    s.endMain.Ends :=
  { h with
    cmdSender := fun _ => hcmd
    candSender := fun _ => rfl
    joined := fun _ => hover }

theorem endScrub (h : s.Ends) (hcmd : s.cmd.sender = false) (hover : s.reader.over = true) :
    s.endScrub.Ends := by
  unfold Process.endScrub
  split
  · exact { h with
      cmdSender := fun _ => hcmd
      candSender := fun hfeeding => by cases hfeeding
      joined := fun _ => hover }
  · exact h.endMain hcmd hover

/-- Between two places of the scrub that keep both senders. -/
theorem moveMain (h : s.Ends) {main : MainThread} (hissuing : main.issuing = s.main.issuing)
    (hfeeding : main.feeding = true) (hscrubbing : main.scrubbing = true) :
    Process.Ends { s with main } :=
  { h with
    cmdSender := fun hdone => h.cmdSender (hissuing.symm.trans hdone)
    candSender := fun hdone => by rw [hfeeding] at hdone; cases hdone
    joined := fun hdone => by rw [hscrubbing] at hdone; cases hdone }

theorem dropRsp (h : s.Ends) : Process.Ends { s with rsp := s.rsp.dropReceiver } := { h with }

theorem main (h : s.Ends) (hstep : MainStep s s') : s'.Ends := by
  cases hstep with
  | issueRun at_ =>
      exact h.moveMain (by rw [at_]; split <;> rfl) (by split <;> rfl) (by split <;> rfl)
  | sendCmd at_ sent =>
      obtain ⟨rfl, -, -⟩ := Channel.send_sent sent
      have hmoved : Process.Ends { s with
          main := if s.cmd.capacity ≤ s.inflight + 1 then .receiving false else .walking } :=
        h.moveMain (by rw [at_]; split <;> rfl) (by split <;> rfl) (by split <;> rfl)
      exact { hmoved with }
  | cmdRefused at_ =>
      have hmoved : Process.Ends { s with main := .walking } :=
        h.moveMain (by rw [at_]; rfl) rfl rfl
      exact { hmoved with }
  | closeCommands at_ =>
      exact { h with
        cmdSender := fun _ => rfl
        candSender := fun hdone => by cases hdone
        inline := fun hinline => ⟨(h.inline hinline).1, rfl⟩
        joined := fun hdone => by cases hdone }
  | inlineOver at_ inline => exact h.endScrub (h.inline inline).2 (h.inline inline).1
  | @recvRsp draining rsp at_ some_ got =>
      obtain ⟨rest, -, rfl⟩ := Channel.recv_received got
      have hmoved : Process.Ends { s with main := .processing draining } :=
        h.moveMain (by rw [at_]; rfl) rfl rfl
      exact { hmoved with }
  | @rspLost draining at_ =>
      have hmoved : Process.Ends { s with
          main := if draining then .joiningReader else .walking } :=
        h.moveMain (by rw [at_]; cases draining <;> rfl) (by split <;> rfl) (by split <;> rfl)
      exact { hmoved with }
  | drained at_ => exact h.moveMain (by rw [at_]; rfl) rfl rfl
  | emit c at_ => exact h.moveMain (by rw [at_]; rfl) rfl rfl
  | @sendCandidate draining c cand at_ sent =>
      obtain ⟨rfl, -, -⟩ := Channel.send_sent sent
      have hmoved : Process.Ends { s with main := .processing draining } :=
        h.moveMain (by rw [at_]; rfl) rfl rfl
      exact { hmoved with
        candSender := fun hdone => by cases hdone }
  | candidateRefused at_ => exact h.moveMain (by rw [at_]; rfl) rfl rfl
  | @endResponse draining at_ =>
      exact h.moveMain (by rw [at_]; cases draining <;> rfl) (by split <;> rfl) (by split <;> rfl)
  | readerJoined at_ ended => exact h.dropRsp.endScrub (h.cmdSender (by rw [at_]; rfl)) ended
  | scrubFailed at_ ended => exact h.dropRsp.endMain (h.cmdSender (by rw [at_]; rfl)) ended
  | sendDone at_ sent =>
      obtain ⟨rfl, -, -⟩ := Channel.send_sent sent
      exact { h with
        cmdSender := fun _ => h.cmdSender (by rw [at_]; rfl)
        candSender := fun _ => rfl
        joined := fun _ => h.joined (by rw [at_]; rfl) }
  | doneRefused at_ =>
      exact { h with
        cmdSender := fun _ => h.cmdSender (by rw [at_]; rfl)
        candSender := fun _ => rfl
        joined := fun _ => h.joined (by rw [at_]; rfl) }
  | accJoined at_ =>
      exact { h with
        cmdSender := fun _ => h.cmdSender (by rw [at_]; rfl)
        candSender := fun _ => h.candSender (by rw [at_]; rfl)
        joined := fun _ => h.joined (by rw [at_]; rfl) }
  | accPanicked at_ =>
      exact h.endMain (h.cmdSender (by rw [at_]; rfl)) (h.joined (by rw [at_]; rfl))
  | writerJoined at_ =>
      exact h.endMain (h.cmdSender (by rw [at_]; rfl)) (h.joined (by rw [at_]; rfl))

theorem endReader (h : s.Ends) {reader : ReaderThread} (hover : reader.over = true) :
    (s.endReader reader).Ends :=
  { h with
    joined := fun _ => hover
    inline := fun hinline => ⟨hover, (h.inline hinline).2⟩
    cmdReceiver := fun _ => rfl
    rspSender := fun _ => rfl }

/-- The reader goes on: it was not over, and is not. -/
theorem moveReader (h : s.Ends) {reader : ReaderThread} (hwas : s.reader.over = false)
    (hover : reader.over = false) : Process.Ends { s with reader } :=
  { h with
    joined := fun hdone => by rw [h.joined hdone] at hwas; cases hwas
    inline := fun hinline => by rw [(h.inline hinline).1] at hwas; cases hwas
    cmdReceiver := fun hdone => by rw [hover] at hdone; cases hdone
    rspSender := fun hdone => by rw [hover] at hdone; cases hdone }

theorem reader {env : WriterEnv σ} (h : s.Ends) (hstep : ReaderStep env s s') : s'.Ends := by
  cases hstep with
  | recvCmd at_ got =>
      obtain ⟨rest, -, rfl⟩ := Channel.recv_received got
      have hmoved : Process.Ends { s with reader := .reading } := h.moveReader (by rw [at_]; rfl) rfl
      exact { hmoved with }
  | cmdsOver => exact h.endReader rfl
  | read at_ => exact h.moveReader (by rw [at_]; rfl) rfl
  | die =>
      have hhook (state : WriterState σ) : Process.Ends { s with state } := { h with }
      exact (hhook _).endReader rfl
  | respond at_ sent =>
      obtain ⟨rfl, -, -⟩ := Channel.send_sent sent
      have hmoved : Process.Ends { s with reader := .receiving } :=
        h.moveReader (by rw [at_]; rfl) rfl
      exact { hmoved with }
  | rspRefused => exact h.endReader rfl

theorem endAcc (h : s.Ends) (acc : Accumulator) : (s.endAcc acc).Ends :=
  { h with
    candSender := h.candSender
    candReceiver := fun _ => rfl
    batchSender := fun _ => rfl }

/-- The accumulator goes on: it is not over. -/
theorem moveAcc (h : s.Ends) {acc : Accumulator} (hover : acc.over = false) :
    Process.Ends { s with acc } :=
  { h with
    candReceiver := fun hdone => by rw [hover] at hdone; cases hdone
    batchSender := fun hdone => by rw [hover] at hdone; cases hdone }

theorem setAcc (h : s.Ends) {acc : Accumulator} (hacc : acc = .returned ∨ acc.over = false) :
    (s.setAcc acc).Ends := by
  unfold Process.setAcc
  split
  case h_1 => exact h.endAcc _
  case h_2 hgoing => exact h.moveAcc (hacc.resolve_left hgoing)

/-- What follows a batch or `Done` handed to the writer. -/
theorem handed_going {acc : Accumulator} {msg : BatchMsg} (h : Accumulator.hands acc = some msg) :
    Accumulator.handed acc = .returned ∨ (Accumulator.handed acc).over = false := by
  cases acc with
  | sending => exact .inr rfl
  | finishing => exact .inr rfl
  | sendingDone => exact .inl rfl
  | _ => cases h

/-- An accumulator that receives goes on, whatever it receives. -/
theorem took_going {batchMax : Nat} {a : Accumulator}
    (h : Accumulator.receives batchMax a = true) (msg : Msg) :
    (Accumulator.took a msg).over = false := by
  cases a with
  | waiting => cases msg <;> rfl
  | collecting => cases msg <;> rfl
  | _ => cases h

theorem acc {batchMax : Nat} (h : s.Ends) (hstep : AccStep batchMax s s') : s'.Ends := by
  cases hstep with
  | allocate => exact h.moveAcc rfl
  | die => exact h.endAcc _
  | @recv msg cand receives got =>
      obtain ⟨rest, -, rfl⟩ := Channel.recv_received got
      have hmoved : Process.Ends { s with acc := Accumulator.took s.acc msg } :=
        h.moveAcc (took_going receives msg)
      exact { hmoved with }
  | disconnected receives => exact h.moveAcc (took_going receives .done)
  | handOver => exact h.moveAcc rfl
  | nothingLeft => exact h.moveAcc rfl
  | @send msg batch hands sent =>
      obtain ⟨rfl, -, -⟩ := Channel.send_sent sent
      have hsent : Process.Ends { s with batch := s.batch.push msg } := { h with }
      exact hsent.setAcc (handed_going hands)
  | refused => exact h.setAcc (.inl rfl)

theorem endWriter {env : WriterEnv σ} (h : s.Ends) (writer : Writer) :
    (s.endWriter env writer).Ends :=
  { h with
    batchSender := h.batchSender
    batchReceiver := fun _ => rfl }

/-- The writer goes on: it is not over. -/
theorem moveWriter (h : s.Ends) {writer : Writer} (hover : writer.over = false) :
    Process.Ends { s with writer } :=
  { h with batchReceiver := fun hdone => by rw [hover] at hdone; cases hdone }

theorem exec {α : Type} {env : WriterEnv σ} (h : s.Ends) (held : Bool) {x : WriterM σ α}
    {next : α → Writer} (hnext : ∀ a, (next a).over = false) : (s.exec env held x next).Ends := by
  unfold Process.exec
  split
  · exact { h.moveWriter (hnext _) with }
  · have hthawed (state : WriterState σ) : Process.Ends { s with state } := { h with }
    exact (hthawed _).endWriter _

theorem writer {env : WriterEnv σ} {args : WriterArgs} (h : s.Ends)
    (hstep : WriterStep env args s s') : s'.Ends := by
  cases hstep with
  | @recvBatch pending cands batch at_ got =>
      obtain ⟨rest, -, rfl⟩ := Channel.recv_received got
      have hmoved : Process.Ends { s with writer := .opening .receiving (pending ++ cands) } :=
        h.moveWriter rfl
      exact { hmoved with batchReceiver := fun hdone => by cases hdone }
  | @recvDone pending batch at_ got =>
      obtain ⟨rest, -, rfl⟩ := Channel.recv_received got
      have hmoved : Process.Ends { s with writer := .between .draining pending } :=
        h.moveWriter rfl
      exact { hmoved with batchReceiver := fun hdone => by cases hdone }
  | disconnected => exact h.moveWriter rfl
  | drainNext => exact h.moveWriter rfl
  | drained => exact h.endWriter _
  | openWindow => exact h.exec false fun _ => rfl
  | round => exact h.exec _ fun expired => by cases expired <;> rfl
  | roundsOver => exact h.moveWriter rfl
  | closeWindow => exact h.exec false fun _ => rfl

theorem start (piped threaded : Bool) (depth : Nat) (w : σ) (mountpoint : Option Path)
    (counters : Option StatusCounters) :
    (Process.start piped threaded depth w mountpoint counters).Ends where
  cmdSender hdone := by cases hdone
  candSender hdone := by cases hdone
  joined hdone := by cases hdone
  inline hinline := by
    cases threaded with
    | true => cases hinline
    | false => exact ⟨rfl, rfl⟩
  cmdReceiver hover := by
    cases threaded with
    | true => cases hover
    | false => rfl
  rspSender hover := by
    cases threaded with
    | true => cases hover
    | false => rfl
  candReceiver hover := by
    cases piped with
    | true => cases hover
    | false => rfl
  batchSender hover := by
    cases piped with
    | true => cases hover
    | false => rfl
  batchReceiver hover := by
    cases piped with
    | true => cases hover
    | false => rfl
  candRoom := Nat.one_pos
  batchRoom := Nat.one_pos

end Process.Ends

namespace Process.Flow
variable {s s' : Process σ}

/-- The main thread moves to a place that asks for no more room. -/
theorem moveMain (h : s.Flow) {main : MainThread} {failed : Bool}
    (hroom : main.mayIssue failed = true → s.main.mayIssue s.pipelineFailed = true)
    (hawait : main ≠ .receiving false) :
    Process.Flow { s with main, pipelineFailed := failed } :=
  { h with
    room := fun hissue => h.room (hroom hissue)
    awaiting := fun hmain => absurd hmain hawait }

theorem endScrub (h : s.Flow) : s.endScrub.Flow := by
  unfold Process.endScrub
  split
  · exact h.moveMain (fun hissue => by cases hissue) (fun hmain => by cases hmain)
  · exact { h with
      room := fun hissue => by cases hissue
      awaiting := fun hmain => by cases hmain }

theorem endMain (h : s.Flow) : s.endMain.Flow :=
  { h with
    room := fun hissue => by cases hissue
    awaiting := fun hmain => by cases hmain }

theorem main (h : s.Flow) (hstep : MainStep s s') : s'.Flow := by
  cases hstep with
  | issueRun at_ going =>
      exact h.moveMain (fun _ => by rw [at_, going]; rfl) (by split <;> simp)
  | sendCmd at_ sent =>
      obtain ⟨rfl, -, hroom⟩ := Channel.send_sent sent
      have hless : s.inflight < s.cmd.capacity := h.room (by rw [at_]; rfl)
      refine { h with
        conserved := fun hgoing => ?_
        bounded := hless
        room := fun hissue => ?_
        awaiting := fun _ => Nat.succ_pos _ }
      · have hconserved := h.conserved hgoing
        simp only [Channel.push, List.length_append, List.length_singleton]
        omega
      · dsimp only at hissue
        split at hissue
        · cases hissue
        · rename_i hmore
          exact Nat.lt_of_not_le hmore
  | cmdRefused at_ => exact h.moveMain (fun hissue => by cases hissue) (by simp)
  | closeCommands at_ =>
      exact { h with
        room := fun hissue => by cases hissue
        awaiting := fun hmain => by cases hmain }
  | inlineOver => exact h.endScrub
  | @recvRsp draining rsp at_ some_ got =>
      obtain ⟨rest, hqueue, rfl⟩ := Channel.recv_received got
      have hbounded := h.bounded
      refine { h with
        conserved := fun hgoing => ?_
        bounded := Nat.le_trans (Nat.sub_le _ _) h.bounded
        room := fun hissue => ?_
        awaiting := fun hmain => by cases hmain }
      · have hconserved := h.conserved hgoing
        rw [hqueue, List.length_cons] at hconserved
        dsimp only
        omega
      · cases draining with
        | true => cases hissue
        | false =>
            have hpos := h.awaiting at_
            dsimp only
            omega
  | @rspLost draining at_ =>
      exact h.moveMain (fun hissue => by cases draining <;> cases hissue) (by split <;> simp)
  | drained at_ => exact h.moveMain (fun hissue => by cases hissue) (by simp)
  | emit c at_ => exact h.moveMain (fun hissue => by rw [at_]; exact hissue) (by simp)
  | @sendCandidate draining c cand at_ sent =>
      have hmoved : Process.Flow { s with
          main := .processing draining, pipelineFailed := s.pipelineFailed } :=
        h.moveMain (fun hissue => by rw [at_]; exact hissue) (by simp)
      exact { hmoved with }
  | candidateRefused at_ => exact h.moveMain (fun hissue => by rw [at_]; exact hissue) (by simp)
  | @endResponse draining at_ =>
      refine h.moveMain (fun hissue => ?_) (by split <;> simp)
      cases draining with
      | true => cases hissue
      | false => rw [at_]; rfl
  | readerJoined at_ ended =>
      have hdropped : Process.Flow { s with rsp := s.rsp.dropReceiver } :=
        { h with conserved := fun hgoing => by rw [ended] at hgoing; cases hgoing }
      exact hdropped.endScrub
  | scrubFailed at_ ended =>
      have hdropped : Process.Flow { s with rsp := s.rsp.dropReceiver } :=
        { h with conserved := fun hgoing => by rw [ended] at hgoing; cases hgoing }
      exact hdropped.endMain
  | @sendDone cand at_ sent =>
      have hmoved : Process.Flow { s with
          main := .joiningAcc, pipelineFailed := s.pipelineFailed } :=
        h.moveMain (fun hissue => by cases hissue) (by simp)
      exact { hmoved with }
  | doneRefused at_ =>
      have hmoved : Process.Flow { s with
          main := .joiningAcc, pipelineFailed := s.pipelineFailed } :=
        h.moveMain (fun hissue => by cases hissue) (by simp)
      exact { hmoved with }
  | accJoined at_ => exact h.moveMain (fun hissue => by cases hissue) (by simp)
  | accPanicked => exact h.endMain
  | writerJoined => exact h.endMain

theorem endReader (h : s.Flow) {reader : ReaderThread} (hover : reader.over = true) :
    (s.endReader reader).Flow :=
  { h with
    conserved := fun hgoing => by cases hover.symm.trans hgoing }

theorem reader {env : WriterEnv σ} (h : s.Flow) (hstep : ReaderStep env s s') : s'.Flow := by
  cases hstep with
  | recvCmd at_ got =>
      obtain ⟨rest, hqueue, rfl⟩ := Channel.recv_received got
      refine { h with conserved := fun _ => ?_ }
      have hconserved := h.conserved (by rw [at_]; rfl)
      rw [hqueue, at_, List.length_cons] at hconserved
      dsimp only [ReaderThread.held] at hconserved ⊢
      omega
  | cmdsOver => exact h.endReader rfl
  | read at_ =>
      have hconserved := h.conserved (by rw [at_]; rfl)
      rw [at_] at hconserved
      exact { h with conserved := fun _ => hconserved }
  | die =>
      have hhook (state : WriterState σ) : Process.Flow { s with state } := { h with }
      exact (hhook _).endReader rfl
  | respond at_ sent =>
      obtain ⟨rfl, -, -⟩ := Channel.send_sent sent
      refine { h with conserved := fun _ => ?_ }
      have hconserved := h.conserved (by rw [at_]; rfl)
      rw [at_] at hconserved
      simp only [ReaderThread.held, Channel.push, List.length_append,
        List.length_singleton] at hconserved ⊢
      omega
  | rspRefused => exact h.endReader rfl

theorem congr (h : s.Flow) (hside : s'.scrubSide = s.scrubSide) : s'.Flow := by
  cases s
  cases s'
  simp only [Process.scrubSide, Prod.mk.injEq] at hside
  obtain ⟨rfl, rfl, rfl, rfl, rfl, rfl⟩ := hside
  exact { h with }

theorem start (piped threaded : Bool) {depth : Nat} (hdepth : 0 < depth) (w : σ)
    (mountpoint : Option Path) (counters : Option StatusCounters) :
    (Process.start piped threaded depth w mountpoint counters).Flow where
  capacity := rfl
  conserved _ := by cases threaded <;> rfl
  bounded := Nat.zero_le _
  room _ := hdepth
  awaiting hmain := by cases hmain

end Process.Flow

theorem Process.Step.ends {env : WriterEnv σ} {args : WriterArgs} {batchMax : Nat} {thread : Thread}
    {s s' : Process σ} (h : s.Ends) (hstep : Process.Step env args batchMax thread s s') :
    s'.Ends := by
  cases thread with
  | main => exact h.main hstep
  | reader => exact h.reader hstep
  | acc => exact h.acc hstep
  | writer => exact h.writer hstep

theorem Process.Step.flow {env : WriterEnv σ} {args : WriterArgs} {batchMax : Nat} {thread : Thread}
    {s s' : Process σ} (h : s.Flow) (hstep : Process.Step env args batchMax thread s s') :
    s'.Flow := by
  cases thread with
  | main => exact h.main hstep
  | reader => exact h.reader hstep
  | acc => exact h.congr (AccStep.scrubSide hstep)
  | writer => exact h.congr (WriterStep.scrubSide hstep)

theorem reachable_wired {env : WriterEnv σ} {args : WriterArgs} {batchMax : Nat} {s : Process σ}
    (h : (process env args batchMax).Reachable s) : s.Ends ∧ s.Flow := by
  refine h.invariant (motive := fun s => s.Ends ∧ s.Flow) ?_ ?_
  · intro s hinit
    obtain ⟨piped, threaded, depth, w, mountpoint, counters, hdepth, rfl⟩ := hinit
    exact ⟨Process.Ends.start .., Process.Flow.start _ _ hdepth _ _ _⟩
  · intro s s' hs hstep
    obtain ⟨thread, hstep⟩ := hstep
    exact ⟨hstep.ends hs.1, hstep.flow hs.2⟩

/-! ### Some thread can go on -/

section Progress
variable {env : WriterEnv σ} {args : WriterArgs} {batchMax : Nat} {s : Process σ}

theorem main_progress (hgoing : s.main.over = false) (hfree : ¬ s.MainBlocked) :
    ∃ s', MainStep s s' := by
  unfold Process.MainBlocked at hfree
  cases hmain : s.main with
  | walking =>
      cases hthreaded : s.threaded with
      | true => exact ⟨_, .closeCommands hmain hthreaded⟩
      | false => exact ⟨_, .inlineOver hmain hthreaded⟩
  | sendingCmd =>
      rw [hmain] at hfree
      rcases Channel.send_cases hfree () with ⟨cmd, hsent⟩ | hgone
      · exact ⟨_, .sendCmd hmain hsent⟩
      · exact ⟨_, .cmdRefused hmain hgone⟩
  | receiving draining =>
      rw [hmain] at hfree
      by_cases hsome : draining = true → s.inflight ≠ 0
      · rcases Channel.recv_cases (fun hblocks => hfree ⟨hsome, hblocks⟩) with ⟨_, rsp, hgot⟩ | hgone
        · exact ⟨_, .recvRsp hmain hsome hgot⟩
        · exact ⟨_, .rspLost hmain hsome hgone⟩
      · push Not at hsome
        obtain ⟨rfl, hnone⟩ := hsome
        exact ⟨_, .drained hmain hnone⟩
  | processing draining => exact ⟨_, .endResponse hmain⟩
  | emitting draining c =>
      rw [hmain] at hfree
      rcases Channel.send_cases hfree (.candidate c) with ⟨cand, hsent⟩ | hgone
      · exact ⟨_, .sendCandidate hmain hsent⟩
      · exact ⟨_, .candidateRefused hmain hgone⟩
  | joiningReader =>
      rw [hmain] at hfree
      have hover : s.reader.over = true := by simpa using hfree
      by_cases hfine : s.reader ≠ .panicked ∧ s.pipelineFailed = false
      · exact ⟨_, .readerJoined hmain hover hfine⟩
      · refine ⟨_, .scrubFailed hmain hover ?_⟩
        by_contra hnot
        push Not at hnot
        exact hfine ⟨hnot.1, by simpa using hnot.2⟩
  | shuttingDown =>
      rw [hmain] at hfree
      rcases Channel.send_cases hfree .done with ⟨cand, hsent⟩ | hgone
      · exact ⟨_, .sendDone hmain hsent⟩
      · exact ⟨_, .doneRefused hmain hgone⟩
  | joiningAcc =>
      rw [hmain] at hfree
      have hover : s.acc.over = true := by simpa using hfree
      cases hacc : s.acc with
      | returned => exact ⟨_, .accJoined hmain hacc⟩
      | panicked lost => exact ⟨_, .accPanicked hmain hacc⟩
      | _ => rw [hacc] at hover; cases hover
  | joiningWriter =>
      rw [hmain] at hfree
      exact ⟨_, .writerJoined hmain (by simpa using hfree)⟩
  | returned => rw [hmain] at hgoing; cases hgoing

theorem reader_progress (hgoing : s.reader.over = false) (hfree : ¬ s.ReaderBlocked) :
    ∃ s', ReaderStep env s s' := by
  unfold Process.ReaderBlocked at hfree
  cases hreader : s.reader with
  | receiving =>
      rw [hreader] at hfree
      rcases Channel.recv_cases hfree with ⟨_, cmd, hgot⟩ | hgone
      · exact ⟨_, .recvCmd hreader hgot⟩
      · exact ⟨_, .cmdsOver hreader hgone⟩
  | reading => exact ⟨_, .read hreader⟩
  | responding =>
      rw [hreader] at hfree
      rcases Channel.send_cases hfree () with ⟨rsp, hsent⟩ | hgone
      · exact ⟨_, .respond hreader hsent⟩
      · exact ⟨_, .rspRefused hreader hgone⟩
  | returned => rw [hreader] at hgoing; cases hgoing
  | panicked => rw [hreader] at hgoing; cases hgoing

theorem acc_progress (hgoing : s.acc.over = false) (hfree : ¬ s.AccBlocked) :
    ∃ s', AccStep batchMax s s' := by
  unfold Process.AccBlocked at hfree
  have hsends {msg : BatchMsg} (hands : Accumulator.hands s.acc = some msg)
      (hroom : ¬ s.batch.SendBlocks) : ∃ s', AccStep batchMax s s' := by
    rcases Channel.send_cases hroom msg with ⟨batch, hsent⟩ | hgone
    · exact ⟨_, .send hands hsent⟩
    · exact ⟨_, .refused hands hgone⟩
  cases hacc : s.acc with
  | starting =>
      rcases Nat.lt_or_ge maxCapacity batchMax with hoverflow | hfits
      · exact ⟨_, .die hacc hoverflow⟩
      · exact ⟨_, .allocate hacc hfits⟩
  | waiting =>
      rw [hacc] at hfree
      have hreceives : Accumulator.receives batchMax s.acc = true := by rw [hacc]; rfl
      rcases Channel.recv_cases hfree with ⟨_, cand, hgot⟩ | hgone
      · exact ⟨_, .recv hreceives hgot⟩
      · exact ⟨_, .disconnected hreceives hgone⟩
  | collecting batch => exact ⟨_, .handOver hacc⟩
  | sending batch =>
      rw [hacc] at hfree
      exact hsends (by rw [hacc]; rfl) fun hblocks => hfree ⟨rfl, hblocks⟩
  | finishing batch =>
      cases batch with
      | nil => exact ⟨_, .nothingLeft hacc⟩
      | cons c batch =>
          rw [hacc] at hfree
          exact hsends (by rw [hacc]; rfl) fun hblocks => hfree ⟨rfl, hblocks⟩
  | sendingDone =>
      rw [hacc] at hfree
      exact hsends (by rw [hacc]; rfl) fun hblocks => hfree ⟨rfl, hblocks⟩
  | returned => rw [hacc] at hgoing; cases hgoing
  | panicked => rw [hacc] at hgoing; cases hgoing

theorem writer_progress (hgoing : s.writer.over = false) (hfree : ¬ s.WriterBlocked) :
    ∃ s', WriterStep env args s s' := by
  unfold Process.WriterBlocked at hfree
  cases hwriter : s.writer with
  | between loop pending =>
      rw [hwriter] at hfree
      cases loop with
      | receiving =>
          rcases Channel.recv_cases hfree with ⟨msg, batch, hgot⟩ | hgone
          · cases msg with
            | batch cands => exact ⟨_, .recvBatch hwriter hgot⟩
            | done => exact ⟨_, .recvDone hwriter hgot⟩
          · exact ⟨_, .disconnected hwriter hgone⟩
      | draining =>
          cases pending with
          | nil => exact ⟨_, .drained hwriter⟩
          | cons c pending => exact ⟨_, .drainNext hwriter⟩
  | opening loop pending => exact ⟨_, .openWindow hwriter⟩
  | inWindow loop w first rest =>
      cases rest with
      | nil => exact ⟨_, .roundsOver hwriter⟩
      | cons c rest => exact ⟨_, .round hwriter⟩
  | closing loop w deferred => exact ⟨_, .closeWindow hwriter⟩
  | returned => rw [hwriter] at hgoing; cases hgoing
  | stopped => rw [hwriter] at hgoing; cases hgoing

theorem progress {thread : Thread} (hgoing : s.Unfinished thread) (hfree : ¬ s.Blocked thread) :
    ∃ s', Process.Step env args batchMax thread s s' := by
  cases thread with
  | main => exact main_progress hgoing hfree
  | reader => exact reader_progress hgoing hfree
  | acc => exact acc_progress hgoing hfree
  | writer => exact writer_progress hgoing hfree

/-- A writer with something queued, or whose peer is gone, does not wait. -/
theorem writer_free (h : s.batch.queue ≠ [] ∨ s.batch.sender = false) : ¬ s.WriterBlocked := by
  unfold Process.WriterBlocked
  split
  · exact Channel.not_recvBlocks h
  · exact id

theorem reader_free (hrecv : s.reader = .receiving → s.cmd.queue ≠ [] ∨ s.cmd.sender = false)
    (hsend : s.reader = .responding → s.rsp.queue.length < s.rsp.capacity) : ¬ s.ReaderBlocked := by
  unfold Process.ReaderBlocked
  split
  case h_1 hreader => exact Channel.not_recvBlocks (hrecv hreader)
  case h_2 hreader => exact fun hblocks => Nat.not_le_of_lt (hsend hreader) hblocks.2
  case h_3 => exact id

/-- Some thread is neither over nor waiting. -/
def Process.Live (s : Process σ) : Prop := ∃ thread, s.Unfinished thread ∧ ¬ s.Blocked thread

/-- The accumulator goes on, or it waits for a writer that does. -/
theorem Process.Ends.acc_live (h : s.Ends) (hgoing : s.acc.over = false)
    (hinput : s.cand.queue ≠ [] ∨ s.cand.sender = false) : s.Live := by
  by_cases hblocked : s.AccBlocked
  case neg => exact ⟨.acc, hgoing, hblocked⟩
  have hbatch : s.batch.SendBlocks := by
    unfold Process.AccBlocked at hblocked
    split at hblocked
    · exact absurd hblocked (Channel.not_recvBlocks hinput)
    · exact hblocked.2
  obtain ⟨hreceiver, hfull⟩ := hbatch
  refine ⟨.writer, ?_, writer_free (.inl fun hempty => ?_)⟩
  · change s.writer.over = false
    by_contra hover
    rw [h.batchReceiver (by simpa using hover)] at hreceiver
    cases hreceiver
  · have hroom := h.batchRoom
    rw [hempty, List.length_nil] at hfull
    omega

/-- A main thread that waits to send a candidate or `Done` waits for the accumulator. -/
theorem Process.Ends.send_live (h : s.Ends) (hblocks : s.cand.SendBlocks) : s.Live := by
  obtain ⟨hreceiver, hfull⟩ := hblocks
  refine h.acc_live ?_ (.inl fun hempty => ?_)
  · by_contra hover
    rw [h.candReceiver (by simpa using hover)] at hreceiver
    cases hreceiver
  · have hroom := h.candRoom
    rw [hempty, List.length_nil] at hfull
    omega

/-- Once the candidates are over, the accumulator and the writer wind down. -/
theorem Process.Ends.winding_live (h : s.Ends) (hfed : s.main.feeding = false)
    (hgoing : s.acc.over = false ∨ s.writer.over = false) : s.Live := by
  cases hacc : s.acc.over with
  | false => exact h.acc_live hacc (.inr (h.candSender hfed))
  | true =>
      rw [hacc] at hgoing
      have hwriter : s.writer.over = false := hgoing.resolve_left (by simp)
      exact ⟨.writer, hwriter, writer_free (.inr (h.batchSender hacc))⟩

/-- While it has a response to send, there is room for it. -/
theorem Process.Flow.rspRoom (h : s.Flow) (hreader : s.reader = .responding) :
    s.rsp.queue.length < s.rsp.capacity := by
  have hconserved := h.conserved (by rw [hreader]; rfl)
  have hbounded := h.bounded
  rw [hreader] at hconserved
  dsimp only [ReaderThread.held] at hconserved
  rw [h.capacity]
  omega

/-- A main thread that waits for a response waits for a reader that goes on. -/
theorem recv_live (hends : s.Ends) (hflow : s.Flow) (hsome : s.inflight ≠ 0)
    (hblocks : s.rsp.RecvBlocks) : s.Live := by
  obtain ⟨hempty, hsender⟩ := hblocks
  have hgoing : s.reader.over = false := by
    by_contra hover
    rw [hends.rspSender (by simpa using hover)] at hsender
    cases hsender
  refine ⟨.reader, hgoing, reader_free (fun hreader => .inl fun hcmd => hsome ?_) hflow.rspRoom⟩
  have hconserved := hflow.conserved hgoing
  rw [hreader, hempty, hcmd] at hconserved
  exact hconserved

theorem blocked_live (hends : s.Ends) (hflow : s.Flow) (hblocked : s.MainBlocked) : s.Live := by
  unfold Process.MainBlocked at hblocked
  cases hmain : s.main with
  | sendingCmd =>
      rw [hmain] at hblocked
      -- There is always room for the command: fewer than the depth are in flight.
      obtain ⟨hreceiver, hfull⟩ := hblocked
      have hgoing : s.reader.over = false := by
        by_contra hover
        rw [hends.cmdReceiver (by simpa using hover)] at hreceiver
        cases hreceiver
      have hconserved := hflow.conserved hgoing
      have hroom := hflow.room (by rw [hmain]; rfl)
      omega
  | receiving draining =>
      rw [hmain] at hblocked
      obtain ⟨hdraining, hblocks⟩ := hblocked
      cases draining with
      | true => exact recv_live hends hflow (hdraining rfl) hblocks
      | false => exact recv_live hends hflow (hflow.awaiting hmain).ne' hblocks
  | emitting draining c =>
      rw [hmain] at hblocked
      exact hends.send_live hblocked
  | shuttingDown =>
      rw [hmain] at hblocked
      exact hends.send_live hblocked
  | joiningReader =>
      rw [hmain] at hblocked
      have hclosed := hends.cmdSender (by rw [hmain]; rfl)
      exact ⟨.reader, hblocked, reader_free (fun _ => .inr hclosed) hflow.rspRoom⟩
  | joiningAcc =>
      rw [hmain] at hblocked
      exact hends.winding_live (by rw [hmain]; rfl) (.inl hblocked)
  | joiningWriter =>
      rw [hmain] at hblocked
      exact hends.winding_live (by rw [hmain]; rfl) (.inr hblocked)
  | walking => rw [hmain] at hblocked; exact hblocked.elim
  | processing => rw [hmain] at hblocked; exact hblocked.elim
  | returned => rw [hmain] at hblocked; exact hblocked.elim

/-- After `run_scrub` has returned, only the accumulator and the writer may be left. -/
theorem returned_live (hends : s.Ends) (hreturned : s.main.over = true)
    (hgoing : ∃ thread, s.Unfinished thread) : s.Live := by
  have hmain : s.main = .returned := by
    unfold MainThread.over at hreturned
    split at hreturned
    · assumption
    · cases hreturned
  have hfed : s.main.feeding = false := by rw [hmain]; rfl
  obtain ⟨thread, hthread⟩ := hgoing
  cases thread with
  | main => cases hreturned.symm.trans hthread
  | reader => cases (hends.joined (by rw [hmain]; rfl)).symm.trans hthread
  | acc => exact hends.winding_live hfed (.inl hthread)
  | writer => exact hends.winding_live hfed (.inr hthread)

end Progress

/-- No deadlock: while a thread is unfinished, some unfinished thread is not waiting, and has a
step. -/
theorem no_deadlock (env : WriterEnv σ) (args : WriterArgs) (batchMax : Nat) {s : Process σ}
    (h : (process env args batchMax).Reachable s) :
    ¬ s.Deadlocked ∧
    ((∃ thread, s.Unfinished thread) →
      ∃ thread s', s.Unfinished thread ∧ ¬ s.Blocked thread ∧
        Process.Step env args batchMax thread s s') := by
  obtain ⟨hends, hflow⟩ := reachable_wired h
  have hlive (hgoing : ∃ thread, s.Unfinished thread) : s.Live := by
    cases hover : s.main.over with
    | true => exact returned_live hends hover hgoing
    | false =>
        by_cases hblocked : s.MainBlocked
        · exact blocked_live hends hflow hblocked
        · exact ⟨.main, hover, hblocked⟩
  constructor
  · rintro ⟨hgoing, hall⟩
    obtain ⟨thread, hthread, hfree⟩ := hlive hgoing
    exact hfree (hall thread hthread)
  · intro hgoing
    obtain ⟨thread, hthread, hfree⟩ := hlive hgoing
    obtain ⟨s', hstep⟩ := progress hthread hfree
    exact ⟨thread, s', hthread, hfree, hstep⟩

/-- Main waits to send a fifth candidate and the accumulator to hand over the third: both channels
are full, and only the writer can go on. -/
theorem full_reachable : ∃ s : Process Unit, (process staleEnv emptyArgs 1).Reachable s ∧
    s.MainBlocked ∧ s.AccBlocked ∧ s.sent.length = 4 ∧ s.batch.queue.length = 1 ∧
      s.writer = .opening .receiving [staleCandidate] := by
  let R := (process staleEnv emptyArgs 1).Reachable
  let main {s s' : Process Unit} (h : R s) (hs : MainStep s s') : R s' := .step h ⟨.main, hs⟩
  let acc {s s' : Process Unit} (h : R s) (hs : AccStep 1 s s') : R s' := .step h ⟨.acc, hs⟩
  let c := staleCandidate
  have h : R (.start true false 2 () none none) :=
    .init ⟨true, false, 2, (), none, none, Nat.two_pos, rfl⟩
  have h := acc h (.allocate rfl (by decide))
  have h := main h (.issueRun rfl rfl)
  -- The first candidate comes through to the writer.
  have h := main h (.emit c rfl rfl)
  have h := main h (.sendCandidate rfl rfl)
  have h := acc h (.recv rfl rfl)
  have h := acc h (.handOver rfl)
  have h := acc h (.send rfl rfl)
  have h : R _ := .step h ⟨.writer, .recvBatch rfl rfl⟩
  -- The second fills the batch channel.
  have h := main h (.emit c rfl rfl)
  have h := main h (.sendCandidate rfl rfl)
  have h := acc h (.recv rfl rfl)
  have h := acc h (.handOver rfl)
  have h := acc h (.send rfl rfl)
  -- The accumulator keeps the third, and the fourth fills the candidate channel.
  have h := main h (.emit c rfl rfl)
  have h := main h (.sendCandidate rfl rfl)
  have h := acc h (.recv rfl rfl)
  have h := acc h (.handOver rfl)
  have h := main h (.emit c rfl rfl)
  have h := main h (.sendCandidate rfl rfl)
  have h := main h (.emit c rfl rfl)
  exact ⟨_, h, ⟨rfl, by decide⟩, ⟨rfl, rfl, by decide⟩, rfl, rfl, rfl⟩

theorem no_deadlock_full : ∃ s : Process Unit, (process staleEnv emptyArgs 1).Reachable s ∧
    s.MainBlocked ∧ s.AccBlocked ∧ ∃ thread s', s.Unfinished thread ∧ ¬s.Blocked thread ∧
      Process.Step staleEnv emptyArgs 1 thread s s' := by
  obtain ⟨s, h, hmain, hacc, -, -, hwriter⟩ := full_reachable
  have hgoing : s.Unfinished .writer := by
    unfold Process.Unfinished
    rw [hwriter]
    rfl
  exact ⟨s, h, hmain, hacc, (no_deadlock staleEnv emptyArgs 1 h).2 ⟨.writer, hgoing⟩⟩

end Rotshield.Main
