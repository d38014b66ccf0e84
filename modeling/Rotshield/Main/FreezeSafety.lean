import Rotshield.BatchRecover.WriteSafety
import Rotshield.Main.Deadlock

/-! When `run_scrub` returns while the writer holds its freeze, and when it cannot. -/
namespace Rotshield.Main
open BatchRecover
open Lib (Channel Transition)

variable {σ : Type}

/-- Every FITHAW succeeds. -/
def ThawSucceeds (env : WriterEnv σ) : Prop :=
  ∀ path w, ((env.thawPath path).run.run w).1 = .ok ()

/-- The mount as FIFREEZE and FITHAW left it; the newest event comes first. -/
def mountFrozen : List Event → Bool
  | .freeze true :: _ => true
  | .thaw true :: _ => false
  | _ :: older => mountFrozen older
  | [] => false

/-! ### What each part of a flush does to the freeze -/

section Rules
variable {env : WriterEnv σ} {args : WriterArgs} {mountpoint : Option Path}

/-- The controller, and the mount itself. -/
def freezeView (b : Books) : FreezeController × Bool := (b.freeze, mountFrozen b.trace)

def KeepsFreeze {α : Type} (x : WriterM σ α) : Prop :=
  ∀ v, Spec (fun b => freezeView b = v) x (fun _ b => freezeView b = v) fun _ b => freezeView b = v

theorem confirm_keeps (cand : Candidate) : KeepsFreeze (confirm env args cand) := by
  intro v
  unfold confirm
  refine Spec.bind (fun _ b => freezeView b = v) ?_ fun verdict => ?_
  · exact spec_verdictOf (fun _ hb _ => hb) fun _ _ _ hb _ => hb
  · cases verdict with
    | stale => exact Spec.pure fun _ hb => hb
    | unverifiable => exact Spec.pure fun _ hb => hb
    | corruption =>
        exact spec_rereadFailing (fun _ hb _ => hb) (fun _ _ hb _ => hb) fun _ hb _ => hb

theorem processCandidate_keeps {hasLiveMount writesAllowed : Bool} (cand : Candidate) :
    KeepsFreeze (processCandidate env args hasLiveMount writesAllowed cand) := by
  intro v
  unfold processCandidate
  refine Spec.bind (fun _ b => freezeView b = v) (Spec.onBooks fun _ hb => hb) fun _ => ?_
  refine Spec.bind _ (confirm_keeps cand v) fun confirmed => ?_
  cases confirmed with
  | stale => exact Spec.onBooks fun _ hb => hb
  | skipped => exact Spec.onBooks fun _ hb => hb
  | corrupt block unreadable =>
      refine Spec.bind (fun _ b => freezeView b = v) (Spec.onBooks fun _ hb => hb) fun _ => ?_
      refine Spec.bind (fun _ b => freezeView b = v) ?_ fun _ => Spec.onBooks fun _ hb => hb
      exact spec_recover (fun _ _ hb => hb) (fun _ _ hb => hb) (fun _ _ hb _ _ _ => hb)
        (fun _ hb => hb) fun _ _ hb => hb

theorem flushRound_keeps {w : Window} {first : Bool} (cand : Candidate) :
    KeepsFreeze (flushRound env args w first cand) := by
  intro v
  unfold flushRound
  refine Spec.bind (fun _ b => freezeView b = v) ?_ fun expired => ?_
  · exact (windowExpired_keeps first).conseq (fun _ hb => hb) fun _ _ hb => hb.1
  · cases expired with
    | true => exact Spec.pure fun _ hb => hb
    | false =>
        refine Spec.bind _ (processCandidate_keeps cand v) fun _ => ?_
        exact Spec.pure fun _ hb => hb

/-- The mount is not frozen, and the controller knows. -/
structure Thawed (mountpoint : Option Path) (b : Books) : Prop where
  mount : b.freeze.mountpoint = mountpoint
  released : b.freeze.frozen = false
  thawed : mountFrozen b.trace = false

/-- The controller knows of every freeze, it is of the declared mount, and a guard is held
while it is in place. -/
structure Held (mountpoint : Option Path) (held : Bool) (b : Books) : Prop where
  mount : b.freeze.mountpoint = mountpoint
  declared : b.freeze.frozen = true → mountpoint.isSome = true
  known : mountFrozen b.trace = true → b.freeze.frozen = true
  guarded : b.freeze.frozen = true → held = true

theorem Thawed.held {b : Books} (h : Thawed mountpoint b) (held : Bool) :
    Held mountpoint held b where
  mount := h.mount
  declared hfrozen := by cases h.released.symm.trans hfrozen
  known hfrozen := by cases h.thawed.symm.trans hfrozen
  guarded hfrozen := by cases h.released.symm.trans hfrozen

/-- A released controller means a thawed mount. -/
theorem Held.released {b : Books} {held : Bool} (h : Held mountpoint held b)
    (hreleased : b.freeze.frozen = false) : Thawed mountpoint b :=
  ⟨h.mount, hreleased, by
    by_contra hfrozen
    cases hreleased.symm.trans (h.known (by simpa using hfrozen))⟩

theorem Held.thawed {b : Books} (h : Held mountpoint false b) : Thawed mountpoint b := by
  apply h.released
  by_contra hfrozen
  cases h.guarded (by simpa using hfrozen)

theorem Held.congr {b b' : Books} {held : Bool} (h : Held mountpoint held b)
    (hview : freezeView b' = freezeView b) : Held mountpoint held b' := by
  obtain ⟨hfreeze, htrace⟩ := Prod.mk.inj hview
  exact ⟨by rw [hfreeze]; exact h.mount, by rw [hfreeze]; exact h.declared,
    by rw [htrace, hfreeze]; exact h.known, by rw [hfreeze]; exact h.guarded⟩

theorem Held.unguarded {b : Books} {held : Bool} (h : Held mountpoint held b) :
    Held mountpoint true b :=
  { h with guarded := fun _ => rfl }

theorem thaw_thaws (hthaw : ThawSucceeds env) {held : Bool} {fail : Stop → Books → Prop} :
    Spec (Held mountpoint held) (thaw env) (fun _ => Thawed mountpoint) fail := by
  intro s₀ hheld
  have hcall {path : Path} : Lib.Triple (fun s => s = s₀) (attempt (env.thawPath path))
      (fun r s => r = .ok () ∧ s.books = s₀.books) fun e s => fail e s.books := by
    rintro s rfl
    exact ⟨hthaw path s.world, rfl⟩
  have hbooks : Lib.Triple (fun s => s = s₀) (books : WriterM σ Books)
      (fun b s => b = s₀.books ∧ s = s₀) fun e s => fail e s.books := by
    rintro s rfl
    exact ⟨rfl, rfl⟩
  suffices h : Lib.Triple (fun s => s = s₀) (thaw env) (fun _ s => Thawed mountpoint s.books)
      fun e s => fail e s.books from h s₀ rfl
  unfold thaw
  apply hbooks.bind_value
  dsimp only
  split
  case isFalse hfrozen =>
      rintro s rfl
      exact hheld.released (by simpa using hfrozen)
  case isTrue hfrozen =>
      split
      case h_1 hnone =>
          have hsome := hheld.declared hfrozen
          rw [← hheld.mount, hnone] at hsome
          cases hsome
      case h_2 =>
          apply hcall.bind_value
          rintro s hs
          exact ⟨hheld.mount, rfl, rfl⟩

/-- The hook may thaw the mount; the controller does not notice. -/
theorem panicHook_held {held : Bool} {fail : Stop → Books → Prop} :
    Spec (Held mountpoint held) (panicHook env) (fun _ => Held mountpoint held) fail := by
  refine Spec.of_forall fun b₀ hb₀ => ?_
  unfold panicHook
  refine Spec.bind _ (Spec.books (fun _ => Held mountpoint held) fun b hb => hb ▸ hb₀) fun a => ?_
  dsimp only
  split
  case isFalse => exact Spec.pure fun _ hb => hb
  case isTrue =>
      split
      case h_1 => exact Spec.pure fun _ hb => hb
      case h_2 =>
          refine Spec.attempt_bind fun r => Spec.onBooks fun b hb => ?_
          refine { hb with known := fun hfrozen => hb.known ?_ }
          cases r with
          | ok _ => cases hfrozen
          | error e => exact hfrozen

theorem unwind_held (hthaw : ThawSucceeds env) {held : Bool} {why : Stop}
    {fail : Stop → Books → Prop} :
    Spec (Held mountpoint true) (unwind env held why) (fun _ => Held mountpoint true) fail := by
  have hrelease : Spec (Held mountpoint true) (releaseGuard env held)
      (fun _ => Held mountpoint true) fail := by
    unfold releaseGuard
    split
    · exact (thaw_thaws hthaw).conseq (fun _ hb => hb) fun _ _ hb => hb.held true
    · exact Spec.pure fun _ hb => hb
  unfold unwind
  split
  · exact Spec.bind _ panicHook_held fun _ => hrelease
  · exact hrelease

theorem openWindow_held {pending : List Candidate} {fail : Stop → Books → Prop} :
    Spec (Thawed mountpoint) (openWindow env pending) (fun w => Held mountpoint w.frozen) fail := by
  unfold openWindow
  refine Spec.bind (fun _ => Thawed mountpoint) (Spec.onBooks fun _ hb => { hb with }) fun _ => ?_
  refine Spec.bind _ (Spec.books (fun _ => Thawed mountpoint) fun _ hb => hb) fun a => ?_
  refine Spec.bind (fun guarded => Held mountpoint (guarded.toOption.getD false)) ?_
    fun guarded => ?_
  · refine spec_guard (fun b hb _ => hb.held _) (fun b hb hsome => ?_) fun b e hb _ => ?_
    · exact ⟨hb.mount, fun _ => by rw [← hb.mount]; exact hsome, fun _ => rfl, fun _ => rfl⟩
    · exact (hb.held false).congr rfl
  · refine Spec.bind _ (Spec.world (fun _ => Held mountpoint (guarded.toOption.getD false))
      fun _ _ hb => hb) fun started => ?_
    exact Spec.pure fun _ hb => hb

theorem closeWindow_held (hthaw : ThawSucceeds env) {w : Window} {deferred : List Candidate} :
    Spec (Held mountpoint w.frozen) (closeWindow env w deferred) (fun _ => Thawed mountpoint)
      fun _ => Held mountpoint true := by
  unfold closeWindow
  refine Spec.bind (fun _ => Thawed mountpoint) ?_ fun _ => ?_
  · unfold releaseGuard
    cases w.frozen with
    | true => exact thaw_thaws hthaw
    | false => exact Spec.pure fun _ hb => hb.thawed
  · refine Spec.bind (fun _ => Thawed mountpoint) (spec_takeThawError fun _ hb => { hb with })
      fun err => ?_
    cases err with
    | some e => exact Spec.throw fun _ hb => hb.held true
    | none => exact Spec.pure fun _ hb => hb

end Rules

/-! ### The writer's steps -/

/-- A guard is held here, when the window has one. -/
def Writer.held : Writer → Bool
  | .inWindow _ w _ _ => w.frozen
  | .closing _ w _ => w.frozen
  | _ => false

section Steps
variable {env : WriterEnv σ} {args : WriterArgs} {batchMax : Nat} {mountpoint : Option Path}
  {s s' : Process σ}

theorem endWriter_thawed (hthaw : ThawSucceeds env) (writer : Writer) {held : Bool}
    (h : Held mountpoint held s.state.books) :
    Thawed mountpoint (s.endWriter env writer).state.books :=
  have hspec : Spec (Held mountpoint held) (thaw env) (fun _ => Thawed mountpoint)
      fun _ => Thawed mountpoint := thaw_thaws hthaw
  hspec.run_state (fun _ _ hb => hb) h

theorem exec_held {α : Type} (hthaw : ThawSucceeds env) {x : WriterM σ α} {next : α → Writer}
    {pre : Books → Prop} {post : α → Books → Prop} (held : Bool)
    (hspec : Spec pre x post fun _ => Held mountpoint true)
    (hpre : pre s.state.books) (hpost : ∀ a b, post a b → Held mountpoint (next a).held b) :
    Held mountpoint (s.exec env held x next).writer.held (s.exec env held x next).state.books := by
  unfold Process.exec
  rcases hrun : x.run.run s.state with ⟨why | a, state⟩
  · have hunwind : Spec (Held mountpoint true) (unwind env held why)
        (fun _ => Held mountpoint true) fun _ => Held mountpoint true := unwind_held hthaw
    have hheld := hunwind.run_state (fun _ _ hb => hb) (hspec.run_error hpre hrun)
    exact (endWriter_thawed hthaw (s := { s with
      state := ((unwind env held why).run.run state).2 }) _ hheld).held _
  · exact hpost a _ (hspec.run_ok hpre hrun)

theorem WriterStep.held (hthaw : ThawSucceeds env)
    (h : Held mountpoint s.writer.held s.state.books) (hstep : WriterStep env args s s') :
    Held mountpoint s'.writer.held s'.state.books := by
  cases hstep with
  | recvBatch at_ => rw [at_] at h; exact h
  | recvDone at_ => rw [at_] at h; exact h
  | disconnected at_ => rw [at_] at h; exact h
  | drainNext at_ => rw [at_] at h; exact h
  | drained => exact (endWriter_thawed hthaw _ h).held _
  | openWindow at_ =>
      rw [at_] at h
      exact exec_held hthaw false openWindow_held h.thawed fun _ _ hb => hb
  | @round loop w first c rest at_ =>
      rw [at_] at h
      have hspec : Spec (fun b => freezeView b = freezeView s.state.books)
          (flushRound env args w first c) (fun _ => Held mountpoint w.frozen)
          fun _ => Held mountpoint true :=
        (flushRound_keeps c _).weaken (fun _ hb => hb) (fun _ _ hb => h.congr hb)
          fun _ _ hb => (h.congr hb).unguarded
      refine exec_held hthaw w.frozen hspec rfl fun expired b hb => ?_
      cases expired with
      | true => exact hb
      | false => exact hb
  | roundsOver at_ => rw [at_] at h; exact h
  | closeWindow at_ =>
      rw [at_] at h
      exact exec_held hthaw false (closeWindow_held hthaw) h fun _ _ hb => hb.held _

theorem ReaderStep.held (h : Held mountpoint s.writer.held s.state.books)
    (hstep : ReaderStep env s s') : Held mountpoint s'.writer.held s'.state.books := by
  cases hstep with
  | die =>
      have hhook : Spec (Held mountpoint s.writer.held) (panicHook env)
          (fun _ => Held mountpoint s.writer.held) fun _ => Held mountpoint s.writer.held :=
        panicHook_held
      exact hhook.run_state (fun _ _ hb => hb) h
  | _ => exact h

/-- A writer that is over takes no step. -/
theorem WriterStep.not_over (hstep : WriterStep env args s s') : s.writer.over = false := by
  cases hstep with
  | recvBatch at_ => rw [at_]; rfl
  | recvDone at_ => rw [at_]; rfl
  | disconnected at_ => rw [at_]; rfl
  | drainNext at_ => rw [at_]; rfl
  | drained at_ => rw [at_]; rfl
  | openWindow at_ => rw [at_]; rfl
  | round at_ => rw [at_]; rfl
  | roundsOver at_ => rw [at_]; rfl
  | closeWindow at_ => rw [at_]; rfl

/-! ### Nothing on its way -/

/-- No candidate is held. -/
def Accumulator.empty : Accumulator → Bool
  | .starting => true
  | .waiting => true
  | .finishing batch => batch.isEmpty
  | .sendingDone => true
  | .returned => true
  | .panicked _ => true
  | _ => false

theorem took_done_empty {a : Accumulator} (h : Accumulator.empty a = true) :
    Accumulator.empty (Accumulator.took a .done) = true := by
  cases a with
  | collecting => cases h
  | sending => cases h
  | _ => exact h

theorem hands_of_empty {a : Accumulator} {msg : BatchMsg} (h : Accumulator.empty a = true)
    (hands : Accumulator.hands a = some msg) :
    msg = .done ∧ Accumulator.handed a = .returned := by
  cases a with
  | sendingDone =>
      cases hands
      exact ⟨rfl, rfl⟩
  | sending => cases h
  | finishing batch =>
      cases batch with
      | nil => cases hands
      | cons => cases h
  | _ => cases hands

/-- Over, or between flushes with nothing pending. -/
def Writer.idle : Writer → Bool
  | .between _ pending => pending.isEmpty
  | .returned _ => true
  | .stopped _ => true
  | _ => false

/-- No candidate is on its way to the writer or with it: nothing will open a window. -/
structure Process.Quiescent (s : Process σ) : Prop where
  cand : ∀ c, .candidate c ∉ s.cand.queue
  acc : Accumulator.empty s.acc = true
  batch : ∀ cands, .batch cands ∉ s.batch.queue
  writer : s.writer.idle = true

namespace Process.Quiescent

theorem endAcc (h : s.Quiescent) {acc : Accumulator} (hempty : Accumulator.empty acc = true) :
    (s.endAcc acc).Quiescent :=
  { h with
    cand := fun _ => List.not_mem_nil
    acc := hempty }

theorem moveAcc (h : s.Quiescent) {acc : Accumulator} (hempty : Accumulator.empty acc = true) :
    Process.Quiescent { s with acc } :=
  { h with acc := hempty }

theorem accumulator (h : s.Quiescent) (hstep : AccStep batchMax s s') : s'.Quiescent := by
  have hempty := h.acc
  cases hstep with
  | allocate => exact h.moveAcc rfl
  | die => exact h.endAcc rfl
  | @recv msg cand receives got =>
      obtain ⟨rest, hqueue, rfl⟩ := Channel.recv_received got
      cases msg with
      | candidate c => exact absurd (hqueue ▸ List.mem_cons_self) (h.cand c)
      | done =>
          exact { h.moveAcc (took_done_empty hempty) with
            cand := fun c hmem => h.cand c (hqueue ▸ List.mem_cons_of_mem _ hmem) }
  | disconnected => exact h.moveAcc (took_done_empty hempty)
  | handOver at_ =>
      rw [at_] at hempty
      cases hempty
  | nothingLeft => exact h.moveAcc rfl
  | @send msg batch hands sent =>
      obtain ⟨rfl, hreturned⟩ := hands_of_empty hempty hands
      obtain ⟨rfl, -, -⟩ := Channel.send_sent sent
      rw [hreturned]
      refine { h.endAcc rfl with batch := fun cands hmem => ?_ }
      rcases List.mem_append.mp hmem with hmem | hmem
      · exact h.batch cands hmem
      · cases List.mem_singleton.mp hmem
  | refused => exact h.endAcc rfl

theorem writerStep (h : s.Quiescent) (hstep : WriterStep env args s s') : s'.Quiescent := by
  have hidle := h.writer
  cases hstep with
  | recvBatch at_ got =>
      obtain ⟨rest, hqueue, rfl⟩ := Channel.recv_received got
      exact absurd (hqueue ▸ List.mem_cons_self) (h.batch _)
  | recvDone at_ got =>
      obtain ⟨rest, hqueue, rfl⟩ := Channel.recv_received got
      rw [at_] at hidle
      exact { h with
        batch := fun cands hmem => h.batch cands (hqueue ▸ List.mem_cons_of_mem _ hmem)
        writer := hidle }
  | disconnected at_ =>
      rw [at_] at hidle
      exact { h with writer := hidle }
  | drained =>
      exact { h with
        batch := fun _ => List.not_mem_nil
        writer := rfl }
  | drainNext at_ => rw [at_] at hidle; cases hidle
  | openWindow at_ => rw [at_] at hidle; cases hidle
  | round at_ => rw [at_] at hidle; cases hidle
  | roundsOver at_ => rw [at_] at hidle; cases hidle
  | closeWindow at_ => rw [at_] at hidle; cases hidle

theorem reader (h : s.Quiescent) (hstep : ReaderStep env s s') : s'.Quiescent := by
  cases hstep <;> exact { h with }

end Process.Quiescent

/-! ### Until the accumulator runs, nothing reaches the writer -/

theorem took_allocated {acc : Accumulator} (h : Accumulator.receives batchMax acc = true)
    (msg : Msg) : (Accumulator.took acc msg).allocated = true := by
  cases acc with
  | waiting => cases msg <;> rfl
  | collecting => cases msg <;> rfl
  | _ => cases h

theorem handed_allocated {acc : Accumulator} {msg : BatchMsg}
    (h : Accumulator.hands acc = some msg) : (Accumulator.handed acc).allocated = true := by
  cases acc with
  | sending => rfl
  | finishing => rfl
  | sendingDone => rfl
  | _ => cases h

def Process.Fresh (s : Process σ) : Prop :=
  s.acc.allocated = false →
    s.batch.queue = [] ∧ s.writer.idle = true ∧ ∀ lost, s.acc = .panicked lost → s.cand.queue = []

namespace Process.Fresh

theorem quiescent (h : s.Fresh) {lost : List Candidate} (hacc : s.acc = .panicked lost) :
    s.Quiescent := by
  obtain ⟨hbatch, hwriter, hcand⟩ := h (by rw [hacc]; rfl)
  refine ⟨fun c hmem => ?_, by rw [hacc]; rfl, fun cands hmem => ?_, hwriter⟩
  · rw [hcand lost hacc] at hmem
    cases hmem
  · rw [hbatch] at hmem
    cases hmem

/-- A step of the main thread sends to no accumulator that panicked. -/
theorem main (h : s.Fresh) (hends : s.Ends) (hstep : MainStep s s') : s'.Fresh := by
  have hgone {cand : Channel Msg} {msg : Msg} (sent : s.cand.send msg = .sent cand)
      {lost : List Candidate} (hacc : s.acc = .panicked lost) : False := by
    have hreceiver := (Channel.send_sent sent).2.1
    rw [hends.candReceiver (by rw [hacc]; rfl)] at hreceiver
    cases hreceiver
  have hend : s.endScrub.Fresh := by
    unfold Process.endScrub
    split
    · exact h
    · exact h
  cases hstep with
  | sendCandidate at_ sent =>
      exact fun hruns => ⟨(h hruns).1, (h hruns).2.1, fun _ hacc => (hgone sent hacc).elim⟩
  | sendDone at_ sent =>
      exact fun hruns => ⟨(h hruns).1, (h hruns).2.1, fun _ hacc => (hgone sent hacc).elim⟩
  | inlineOver => exact hend
  | readerJoined =>
      unfold Process.endScrub
      split
      · exact h
      · exact h
  | _ => exact h

theorem acc (h : s.Fresh) (hstep : AccStep batchMax s s') : s'.Fresh := by
  have hruns {t : Process σ} (ht : t.acc.allocated = true) : t.Fresh :=
    fun hnot => by rw [ht] at hnot; cases hnot
  cases hstep with
  | allocate => exact hruns rfl
  | die at_ =>
      intro _
      obtain ⟨hbatch, hwriter, -⟩ := h (by rw [at_]; rfl)
      exact ⟨hbatch, hwriter, fun _ _ => rfl⟩
  | @recv msg cand receives => exact hruns (took_allocated receives msg)
  | disconnected receives => exact hruns (took_allocated receives .done)
  | handOver => exact hruns rfl
  | nothingLeft => exact hruns rfl
  | send hands =>
      unfold Process.setAcc
      split
      · exact hruns rfl
      · exact hruns (handed_allocated hands)
  | refused => exact hruns rfl

theorem writer (h : s.Fresh) (hstep : WriterStep env args s s') : s'.Fresh := by
  have hrest (hkeep : s'.acc = s.acc ∧ s'.cand = s.cand)
      (hnew : s.batch.queue = [] → s.writer.idle = true →
        s'.batch.queue = [] ∧ s'.writer.idle = true) : s'.Fresh := by
    intro hruns
    rw [hkeep.1] at hruns
    obtain ⟨hbatch, hwriter, hcand⟩ := h hruns
    obtain ⟨hbatch', hwriter'⟩ := hnew hbatch hwriter
    refine ⟨hbatch', hwriter', fun lost hacc => ?_⟩
    rw [hkeep.2]
    exact hcand lost (hkeep.1.symm.trans hacc)
  have hexec {α : Type} {held : Bool} {x : WriterM σ α} {next : α → Writer}
      (heq : s' = s.exec env held x next) : s'.acc = s.acc ∧ s'.cand = s.cand := by
    rw [heq]
    unfold Process.exec
    split
    · exact ⟨rfl, rfl⟩
    · exact ⟨rfl, rfl⟩
  cases hstep with
  | recvBatch at_ got =>
      obtain ⟨rest, hqueue, rfl⟩ := Channel.recv_received got
      exact hrest ⟨rfl, rfl⟩ fun hempty => by rw [hqueue] at hempty; cases hempty
  | recvDone at_ got =>
      obtain ⟨rest, hqueue, rfl⟩ := Channel.recv_received got
      exact hrest ⟨rfl, rfl⟩ fun hempty => by rw [hqueue] at hempty; cases hempty
  | disconnected at_ =>
      refine hrest ⟨rfl, rfl⟩ fun hempty hidle => ⟨hempty, ?_⟩
      rw [at_] at hidle
      exact hidle
  | drained => exact hrest ⟨rfl, rfl⟩ fun _ _ => ⟨rfl, rfl⟩
  | drainNext at_ => exact hrest ⟨rfl, rfl⟩ fun _ hidle => by rw [at_] at hidle; cases hidle
  | openWindow at_ => exact hrest (hexec rfl) fun _ hidle => by rw [at_] at hidle; cases hidle
  | round at_ => exact hrest (hexec rfl) fun _ hidle => by rw [at_] at hidle; cases hidle
  | roundsOver at_ => exact hrest ⟨rfl, rfl⟩ fun _ hidle => by rw [at_] at hidle; cases hidle
  | closeWindow at_ => exact hrest (hexec rfl) fun _ hidle => by rw [at_] at hidle; cases hidle

end Process.Fresh

/-! ### The return of `run_scrub` -/

/-- Nothing that is left to run can freeze the mount: the writer is over, there is no mount to
freeze, or no candidate is on its way. -/
def Process.Secured (s : Process σ) : Prop :=
  s.writer.over = true ∨ s.state.books.freeze.mountpoint = none ∨ s.Quiescent

namespace Process.Secured

theorem thawed (h : s.Secured) (hheld : Held mountpoint s.writer.held s.state.books) :
    Thawed mountpoint s.state.books := by
  have hidle (hidle : s.writer.idle = true) : s.writer.held = false := by
    cases hwriter : s.writer with
    | inWindow => rw [hwriter] at hidle; cases hidle
    | closing => rw [hwriter] at hidle; cases hidle
    | _ => rfl
  rcases h with hover | hnone | hquiet
  · have hunheld : s.writer.held = false := by
      cases hwriter : s.writer with
      | returned => rfl
      | stopped => rfl
      | _ => rw [hwriter] at hover; cases hover
    rw [hunheld] at hheld
    exact hheld.thawed
  · apply hheld.released
    by_contra hfrozen
    have hsome := hheld.declared (by simpa using hfrozen)
    rw [← hheld.mount, hnone] at hsome
    cases hsome
  · rw [hidle hquiet.writer] at hheld
    exact hheld.thawed

theorem writer (h : s.Secured) (hheld : Held mountpoint s.writer.held s.state.books)
    (hheld' : Held mountpoint s'.writer.held s'.state.books)
    (hstep : WriterStep env args s s') : s'.Secured := by
  rcases h with hover | hnone | hquiet
  · rw [hstep.not_over] at hover
    cases hover
  · exact .inr (.inl (hheld'.mount.trans (hheld.mount.symm.trans hnone)))
  · exact .inr (.inr (hquiet.writerStep hstep))

theorem reader (h : s.Secured) (hheld : Held mountpoint s.writer.held s.state.books)
    (hheld' : Held mountpoint s'.writer.held s'.state.books)
    (hstep : ReaderStep env s s') : s'.Secured := by
  rcases h with hover | hnone | hquiet
  · cases hstep <;> exact .inl hover
  · exact .inr (.inl (hheld'.mount.trans (hheld.mount.symm.trans hnone)))
  · exact .inr (.inr (hquiet.reader hstep))

theorem acc (h : s.Secured) (hstep : AccStep batchMax s s') : s'.Secured := by
  obtain ⟨hwriter, hstate, -⟩ := hstep.writerSide
  rcases h with hover | hnone | hquiet
  · exact .inl (hwriter ▸ hover)
  · exact .inr (.inl (hstate ▸ hnone))
  · exact .inr (.inr (hquiet.accumulator hstep))

/-- A main thread that returns drops the sender and nothing else that counts. -/
theorem endMain (h : s.Secured) : s.endMain.Secured := by
  rcases h with hover | hnone | hquiet
  · exact .inl hover
  · exact .inr (.inl hnone)
  · exact .inr (.inr { hquiet with })

end Process.Secured

/-- What holds between the threads in every run: without a pipeline the writer is over from the
start, and once `run_scrub` has returned nothing can freeze. -/
structure Process.Guarded (mountpoint : Option Path) (s : Process σ) : Prop where
  ends : s.Ends
  fresh : s.Fresh
  held : Held mountpoint s.writer.held s.state.books
  unpiped : s.piped = false → s.writer.over = true
  secured : s.main = .returned → s.Secured

/-- A failed scrub makes `run_scrub` return without a join of the writer. The step is careful
when nothing can freeze the mount any more. -/
def Process.Careful (s s' : Process σ) : Prop :=
  s.main = .joiningReader → s'.main = .returned → s.Secured

namespace Process.Guarded

theorem start (piped threaded : Bool) (depth : Nat) (w : σ) (mountpoint : Option Path)
    (counters : Option StatusCounters) :
    Process.Guarded mountpoint (.start piped threaded depth w mountpoint counters) where
  ends := .start ..
  fresh _ := by
    cases piped with
    | true => exact ⟨rfl, rfl, fun _ _ => rfl⟩
    | false => exact ⟨rfl, rfl, fun _ _ => rfl⟩
  held :=
    have hthawed : Thawed mountpoint (WriterState.start w mountpoint counters).books :=
      ⟨rfl, rfl, rfl⟩
    hthawed.held _
  unpiped h := by
    rw [show piped = false from h]
    rfl
  secured h := by cases h

theorem main (h : s.Guarded mountpoint) (hstep : MainStep s s') (hcareful : s.Careful s') :
    s'.Guarded mountpoint := by
  obtain ⟨hwriter, hstate, hpiped⟩ := hstep.writerSide
  refine ⟨h.ends.main hstep, h.fresh.main h.ends hstep, by rw [hwriter, hstate]; exact h.held,
    by rw [hwriter, hpiped]; exact h.unpiped, fun hreturned => ?_⟩
  have hscrub {t : Process σ} (hpiped : t.piped = s.piped) (hwriter : t.writer = s.writer)
      (hreturned : t.endScrub.main = .returned) : t.endScrub.Secured := by
    unfold Process.endScrub at hreturned ⊢
    split
    case isTrue hp => rw [if_pos hp] at hreturned; cases hreturned
    case isFalse hp =>
        refine .endMain (.inl ?_)
        rw [hwriter]
        exact h.unpiped (by rw [← hpiped]; simpa using hp)
  cases hstep with
  | issueRun => cases hthreaded : s.threaded <;> simp [hthreaded] at hreturned
  | sendCmd => dsimp only at hreturned; split at hreturned <;> cases hreturned
  | @rspLost draining => cases draining <;> cases hreturned
  | @endResponse draining => cases draining <;> cases hreturned
  | inlineOver => exact hscrub rfl rfl hreturned
  | readerJoined => exact hscrub rfl rfl hreturned
  | scrubFailed at_ =>
      have hsecured : Process.Secured { s with rsp := s.rsp.dropReceiver } := by
        rcases hcareful at_ rfl with hover | hnone | hquiet
        · exact .inl hover
        · exact .inr (.inl hnone)
        · exact .inr (.inr { hquiet with })
      exact hsecured.endMain
  | accPanicked at_ failed => exact .endMain (.inr (.inr (h.fresh.quiescent failed)))
  | writerJoined at_ ended => exact .endMain (.inl ended)
  | _ => cases hreturned

theorem reader (h : s.Guarded mountpoint) (hstep : ReaderStep env s s') :
    s'.Guarded mountpoint := by
  have hends := h.ends.reader hstep
  have hheld := hstep.held h.held
  have hsecured (hs : s.Secured) := hs.reader h.held hheld hstep
  cases hstep <;> exact ⟨hends, h.fresh, hheld, h.unpiped, fun hret => hsecured (h.secured hret)⟩

theorem acc (h : s.Guarded mountpoint) (hstep : AccStep batchMax s s') :
    s'.Guarded mountpoint := by
  obtain ⟨hwriter, hstate, hpiped⟩ := hstep.writerSide
  have hmain := congrArg Prod.fst hstep.scrubSide
  refine ⟨h.ends.acc hstep, h.fresh.acc hstep, by rw [hwriter, hstate]; exact h.held,
    by rw [hwriter, hpiped]; exact h.unpiped, fun hreturned => ?_⟩
  exact (h.secured (hmain.symm.trans hreturned)).acc hstep

theorem writer (hthaw : ThawSucceeds env) (h : s.Guarded mountpoint)
    (hstep : WriterStep env args s s') : s'.Guarded mountpoint := by
  have hmain := congrArg Prod.fst hstep.scrubSide
  have hheld := hstep.held hthaw h.held
  refine ⟨h.ends.writer hstep, h.fresh.writer hstep, hheld, fun hpiped => ?_, fun hreturned => ?_⟩
  · have hover := h.unpiped (hstep.piped.symm.trans hpiped)
    rw [hstep.not_over] at hover
    cases hover
  · exact (h.secured (hmain.symm.trans hreturned)).writer h.held hheld hstep

end Process.Guarded

end Steps

/-- The runs in which every return after a failed scrub is careful. -/
def carefulProcess (env : WriterEnv σ) (args : WriterArgs) (batchMax : Nat) :
    Transition (Process σ) where
  init := (process env args batchMax).init
  step s s' := (process env args batchMax).step s s' ∧ s.Careful s'

/-- In a careful run with every FITHAW succeeding, the mount is not frozen once `run_scrub` has
returned, whatever the threads that are left still do; and the controller holds no freeze. -/
theorem returned_thawed (env : WriterEnv σ) (args : WriterArgs) (batchMax : Nat)
    (hthaw : ThawSucceeds env) {s : Process σ}
    (h : (carefulProcess env args batchMax).Reachable s) (hreturned : s.main = .returned) :
    mountFrozen s.state.books.trace = false ∧ s.state.books.freeze.frozen = false := by
  have hguarded : ∃ mountpoint, s.Guarded mountpoint := by
    refine h.invariant (motive := fun s => ∃ mountpoint, s.Guarded mountpoint) ?_ ?_
    · intro s hinit
      obtain ⟨piped, threaded, depth, w, mountpoint, counters, -, rfl⟩ := hinit
      exact ⟨mountpoint, .start ..⟩
    · rintro s s' ⟨mountpoint, hs⟩ ⟨⟨thread, hstep⟩, hcareful⟩
      refine ⟨mountpoint, ?_⟩
      cases thread with
      | main => exact hs.main hstep hcareful
      | reader => exact hs.reader hstep
      | acc => exact hs.acc hstep
      | writer => exact hs.writer hthaw hstep
  obtain ⟨mountpoint, hguarded⟩ := hguarded
  have hthawed := (hguarded.secured hreturned).thawed hguarded.held
  exact ⟨hthawed.thawed, hthawed.released⟩

/-! A disk that is repaired under a freeze: scrubbed inline to the end, then with a reader that
dies before the writer opens its window. -/

section Repair

theorem repairEnv_thaws : ThawSucceeds repairEnv := fun _ _ => rfl

def mounted : WriterState Unit := .start () (some "/mnt/disk1") none

def frozenWindow : Window := { hasLiveMount := true, frozen := true, started := 0 }

def frozenState : WriterState Unit := ((openWindow repairEnv [repairCandidate]).run.run mounted).2

/-- A moment of the inline scrub. -/
def inlineAt (sent : List Candidate) (main : MainThread) (cand : Channel Msg) (acc : Accumulator)
    (batch : Channel BatchMsg) (writer : Writer) (state : WriterState Unit) : Process Unit :=
  { Process.start true false 2 () (some "/mnt/disk1") none with
    sent, main, cand, acc, batch, writer, state }

theorem returned_thawed_repair : ∃ s : Process Unit,
    (carefulProcess repairEnv repairArgs 1).Reachable s ∧ s.main = .returned ∧
    mountFrozen s.state.books.trace = false ∧ s.state.books.freeze.frozen = false := by
  let R := (carefulProcess repairEnv repairArgs 1).Reachable
  let step {s s' t : Process Unit} (thread : Thread) (h : R s)
      (hs : Process.Step repairEnv repairArgs 1 thread s s') (hat : s.Careful s')
      (heq : s' = t) : R t := heq ▸ .step h ⟨⟨thread, hs⟩, hat⟩
  let repaired := ((flushRound repairEnv repairArgs frozenWindow true repairCandidate).run.run
    frozenState).2
  let thawed := ((closeWindow repairEnv frozenWindow []).run.run repaired).2
  have h : R (.start true false 2 () (some "/mnt/disk1") none) :=
    .init ⟨true, false, 2, (), some "/mnt/disk1", none, Nat.two_pos, rfl⟩
  have h : R (inlineAt [] .walking ⟨1, [], true, true⟩ .waiting ⟨1, [], true, true⟩ (.between
      .receiving []) mounted) := step .acc h (.allocate rfl (by decide)) nofun rfl
  have h : R (inlineAt [] (.processing false) ⟨1, [], true, true⟩ .waiting ⟨1, [], true, true⟩
      (.between .receiving []) mounted) := step .main h (.issueRun rfl rfl) nofun rfl
  have h : R (inlineAt [] (.emitting false repairCandidate) ⟨1, [], true, true⟩ .waiting ⟨1, [],
      true, true⟩ (.between .receiving []) mounted) :=
    step .main h (.emit repairCandidate rfl rfl) nofun rfl
  have h : R (inlineAt [repairCandidate] (.processing false) ⟨1, [.candidate repairCandidate],
      true, true⟩ .waiting ⟨1, [], true, true⟩ (.between .receiving []) mounted) :=
    step .main h (.sendCandidate rfl rfl) nofun rfl
  have h : R (inlineAt [repairCandidate] (.processing false) ⟨1, [], true, true⟩ (.collecting
      [repairCandidate]) ⟨1, [], true, true⟩ (.between .receiving []) mounted) :=
    step .acc h (.recv rfl rfl) nofun rfl
  have h : R (inlineAt [repairCandidate] (.processing false) ⟨1, [], true, true⟩ (.sending
      [repairCandidate]) ⟨1, [], true, true⟩ (.between .receiving []) mounted) :=
    step .acc h (.handOver rfl) nofun rfl
  have h : R (inlineAt [repairCandidate] (.processing false) ⟨1, [], true, true⟩ .waiting ⟨1,
      [.batch [repairCandidate]], true, true⟩ (.between .receiving []) mounted) :=
    step .acc h (.send rfl rfl) nofun rfl
  have h : R (inlineAt [repairCandidate] (.processing false) ⟨1, [], true, true⟩ .waiting ⟨1, [],
      true, true⟩ (.opening .receiving [repairCandidate]) mounted) :=
    step .writer h (.recvBatch rfl rfl) nofun rfl
  have h : R (inlineAt [repairCandidate] (.processing false) ⟨1, [], true, true⟩ .waiting ⟨1, [],
      true, true⟩ (.inWindow .receiving frozenWindow true [repairCandidate]) frozenState) :=
    step .writer h (.openWindow rfl) nofun rfl
  have h : R (inlineAt [repairCandidate] (.processing false) ⟨1, [], true, true⟩ .waiting ⟨1, [],
      true, true⟩ (.inWindow .receiving frozenWindow false []) repaired) :=
    step .writer h (.round rfl) nofun rfl
  have h : R (inlineAt [repairCandidate] (.processing false) ⟨1, [], true, true⟩ .waiting ⟨1, [],
      true, true⟩ (.closing .receiving frozenWindow []) repaired) :=
    step .writer h (.roundsOver rfl) nofun rfl
  have h : R (inlineAt [repairCandidate] (.processing false) ⟨1, [], true, true⟩ .waiting ⟨1, [],
      true, true⟩ (.between .receiving []) thawed) := step .writer h (.closeWindow rfl) nofun rfl
  have h : R (inlineAt [repairCandidate] .walking ⟨1, [], true, true⟩ .waiting ⟨1, [], true, true⟩
      (.between .receiving []) thawed) := step .main h (.endResponse rfl) nofun rfl
  have h : R (inlineAt [repairCandidate] .shuttingDown ⟨1, [], true, true⟩ .waiting ⟨1, [], true,
      true⟩ (.between .receiving []) thawed) := step .main h (.inlineOver rfl rfl) nofun rfl
  have h : R (inlineAt [repairCandidate] .joiningAcc ⟨1, [.done], false, true⟩ .waiting ⟨1, [],
      true, true⟩ (.between .receiving []) thawed) := step .main h (.sendDone rfl rfl) nofun rfl
  have h : R (inlineAt [repairCandidate] .joiningAcc ⟨1, [], false, true⟩ (.finishing []) ⟨1, [],
      true, true⟩ (.between .receiving []) thawed) := step .acc h (.recv rfl rfl) nofun rfl
  have h : R (inlineAt [repairCandidate] .joiningAcc ⟨1, [], false, true⟩ .sendingDone ⟨1, [],
      true, true⟩ (.between .receiving []) thawed) := step .acc h (.nothingLeft rfl) nofun rfl
  have h : R (inlineAt [repairCandidate] .joiningAcc ⟨1, [], false, false⟩ .returned ⟨1, [.done],
      false, true⟩ (.between .receiving []) thawed) := step .acc h (.send rfl rfl) nofun rfl
  have h : R (inlineAt [repairCandidate] .joiningWriter ⟨1, [], false, false⟩ .returned ⟨1,
      [.done], false, true⟩ (.between .receiving []) thawed) :=
    step .main h (.accJoined rfl rfl) nofun rfl
  have h : R (inlineAt [repairCandidate] .joiningWriter ⟨1, [], false, false⟩ .returned ⟨1, [],
      false, true⟩ (.between .draining []) thawed) := step .writer h (.recvDone rfl rfl) nofun rfl
  have h : R (inlineAt [repairCandidate] .joiningWriter ⟨1, [], false, false⟩ .returned ⟨1, [],
      false, false⟩ (.returned thawed.books.stats) ((thaw repairEnv).run.run thawed).2) :=
    step .writer h (.drained rfl) nofun rfl
  have h : R (inlineAt [repairCandidate] .returned ⟨1, [], false, false⟩ .returned ⟨1, [], false,
      false⟩ (.returned thawed.books.stats) ((thaw repairEnv).run.run thawed).2) :=
    step .main h (.writerJoined rfl rfl) nofun rfl
  exact ⟨_, h, rfl, returned_thawed _ _ _ repairEnv_thaws h rfl⟩

/-- A moment of the scrub with a reader and two commands in flight. -/
def threadedAt (sent : List Candidate) (main : MainThread) (inflight : Nat) (cmd : Channel Unit) (reader : ReaderThread)
    (rsp : Channel Unit) (cand : List Msg) (acc : Accumulator) (batch : List BatchMsg)
    (writer : Writer) (state : WriterState Unit) : Process Unit :=
  { Process.start true true 2 () (some "/mnt/disk1") none with
    sent, main, inflight, cmd, reader, rsp, cand := ⟨1, cand, true, true⟩, acc
    batch := ⟨1, batch, true, true⟩, writer, state }

/-- The reader dies, the writer opens its window, and `run_scrub` returns without a join: the
declared mount stays frozen. -/
theorem not_returned_thawed : ThawSucceeds repairEnv ∧ ∃ s : Process Unit,
    (process repairEnv repairArgs 1).Reachable s ∧ s.main = .returned ∧
    s.state.books.freeze.mountpoint = some "/mnt/disk1" ∧
    mountFrozen s.state.books.trace = true ∧ s.state.books.freeze.frozen = true := by
  refine ⟨repairEnv_thaws, ?_⟩
  let R := (process repairEnv repairArgs 1).Reachable
  let step {s s' t : Process Unit} (thread : Thread) (h : R s)
      (hs : Process.Step repairEnv repairArgs 1 thread s s') (heq : s' = t) : R t :=
    heq ▸ .step h ⟨thread, hs⟩
  let c := repairCandidate
  let window : Writer := .inWindow .receiving frozenWindow true [c]
  have h : R (.start true true 2 () (some "/mnt/disk1") none) :=
    .init ⟨true, true, 2, (), some "/mnt/disk1", none, Nat.two_pos, rfl⟩
  have h : R (threadedAt [] .walking 0 ⟨2, [], true, true⟩ .receiving ⟨2, [], true, true⟩ [] .waiting
      [] (.between .receiving []) mounted) := step .acc h (.allocate rfl (by decide)) rfl
  have h : R (threadedAt [] .sendingCmd 0 ⟨2, [], true, true⟩ .receiving ⟨2, [], true, true⟩ []
      .waiting [] (.between .receiving []) mounted) := step .main h (.issueRun rfl rfl) rfl
  have h : R (threadedAt [] .walking 1 ⟨2, [()], true, true⟩ .receiving ⟨2, [], true, true⟩ []
      .waiting [] (.between .receiving []) mounted) := step .main h (.sendCmd rfl rfl) rfl
  have h : R (threadedAt [] .sendingCmd 1 ⟨2, [()], true, true⟩ .receiving ⟨2, [], true, true⟩ []
      .waiting [] (.between .receiving []) mounted) := step .main h (.issueRun rfl rfl) rfl
  have h : R (threadedAt [] (.receiving false) 2 ⟨2, [(), ()], true, true⟩ .receiving
      ⟨2, [], true, true⟩ [] .waiting [] (.between .receiving []) mounted) :=
    step .main h (.sendCmd rfl rfl) rfl
  have h : R (threadedAt [] (.receiving false) 2 ⟨2, [()], true, true⟩ .reading ⟨2, [], true, true⟩
      [] .waiting [] (.between .receiving []) mounted) := step .reader h (.recvCmd rfl rfl) rfl
  have h : R (threadedAt [] (.receiving false) 2 ⟨2, [()], true, true⟩ .responding
      ⟨2, [], true, true⟩ [] .waiting [] (.between .receiving []) mounted) :=
    step .reader h (.read rfl) rfl
  have h : R (threadedAt [] (.receiving false) 2 ⟨2, [()], true, true⟩ .receiving
      ⟨2, [()], true, true⟩ [] .waiting [] (.between .receiving []) mounted) :=
    step .reader h (.respond rfl rfl) rfl
  have h : R (threadedAt [] (.processing false) 1 ⟨2, [()], true, true⟩ .receiving
      ⟨2, [], true, true⟩ [] .waiting [] (.between .receiving []) mounted) :=
    step .main h (.recvRsp rfl nofun rfl) rfl
  have h : R (threadedAt [] (.emitting false c) 1 ⟨2, [()], true, true⟩ .receiving
      ⟨2, [], true, true⟩ [] .waiting [] (.between .receiving []) mounted) :=
    step .main h (.emit c rfl rfl) rfl
  have h : R (threadedAt [c] (.processing false) 1 ⟨2, [()], true, true⟩ .receiving
      ⟨2, [], true, true⟩ [.candidate c] .waiting [] (.between .receiving []) mounted) :=
    step .main h (.sendCandidate rfl rfl) rfl
  have h : R (threadedAt [c] (.processing false) 1 ⟨2, [()], true, true⟩ .receiving
      ⟨2, [], true, true⟩ [] (.collecting [c]) [] (.between .receiving []) mounted) :=
    step .acc h (.recv rfl rfl) rfl
  have h : R (threadedAt [c] (.processing false) 1 ⟨2, [()], true, true⟩ .receiving
      ⟨2, [], true, true⟩ [] (.sending [c]) [] (.between .receiving []) mounted) :=
    step .acc h (.handOver rfl) rfl
  have h : R (threadedAt [c] (.processing false) 1 ⟨2, [()], true, true⟩ .receiving
      ⟨2, [], true, true⟩ [] .waiting [.batch [c]] (.between .receiving []) mounted) :=
    step .acc h (.send rfl rfl) rfl
  have h : R (threadedAt [c] (.processing false) 1 ⟨2, [()], true, true⟩ .receiving
      ⟨2, [], true, true⟩ [] .waiting [] (.opening .receiving [c]) mounted) :=
    step .writer h (.recvBatch rfl rfl) rfl
  -- The second read kills the reader. Nothing is frozen yet: its hook has nothing to thaw.
  have h : R (threadedAt [c] (.processing false) 1 ⟨2, [], true, true⟩ .reading ⟨2, [], true, true⟩ []
      .waiting [] (.opening .receiving [c]) mounted) := step .reader h (.recvCmd rfl rfl) rfl
  have h : R (threadedAt [c] (.processing false) 1 ⟨2, [], true, false⟩ .panicked
      ⟨2, [], false, true⟩ [] .waiting [] (.opening .receiving [c]) mounted) :=
    step .reader h (.die rfl) rfl
  have h : R (threadedAt [c] (.processing false) 1 ⟨2, [], true, false⟩ .panicked
      ⟨2, [], false, true⟩ [] .waiting [] window frozenState) :=
    step .writer h (.openWindow rfl) rfl
  have h : R (threadedAt [c] .walking 1 ⟨2, [], true, false⟩ .panicked ⟨2, [], false, true⟩ []
      .waiting [] window frozenState) := step .main h (.endResponse rfl) rfl
  have h : R (threadedAt [c] (.receiving true) 1 ⟨2, [], false, false⟩ .panicked
      ⟨2, [], false, true⟩ [] .waiting [] window frozenState) :=
    step .main h (.closeCommands rfl rfl) rfl
  have h : R { threadedAt [c] .joiningReader 1 ⟨2, [], false, false⟩ .panicked ⟨2, [], false, true⟩ []
      .waiting [] window frozenState with pipelineFailed := true } :=
    step .main h (.rspLost rfl (fun _ => Nat.one_ne_zero) rfl) rfl
  have h := step .main h (.scrubFailed rfl rfl (.inl rfl)) rfl
  exact ⟨_, h, rfl, rfl, rfl, rfl⟩

end Repair

end Rotshield.Main
