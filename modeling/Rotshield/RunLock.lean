import Rotshield.Lib.Transition

/-! The run lock of the runner script: a directory made with `mkdir`, with the owner's pid in a
file, removed by the owner's exit trap or by a starter that finds no live owner. -/
namespace Rotshield.RunLock
open Lib (Transition)

abbrev Pid := Nat

/-- Where a runner is. -/
inductive Phase where
  | unborn
  /-- Before the first `mkdir`. -/
  | starting
  /-- The first `mkdir` failed; before the test for the pid file. -/
  | blocked
  | reading
  /-- Before the liveness check of what was read. -/
  | judging (opid : Option Pid)
  /-- No live owner was found; before `rm -rf`. -/
  | reclaiming
  | retrying
  /-- A `mkdir` succeeded; before the pid is written. -/
  | claimed
  /-- Before the exit trap is set. -/
  | named
  /-- `acquire_lock` has returned success. -/
  | holding
  /-- Exiting, before the trap runs; with the trap the runner is gone. -/
  | exiting
  | skipped
  | dead
  deriving DecidableEq, Repr

structure LockDir where
  /-- Who made it; none for one that an earlier run left. Nothing on disk says so. -/
  owner : Option Pid
  pidFile : Option Pid
  deriving DecidableEq, Repr

structure State where
  phase : Pid → Phase
  lock : Option LockDir

namespace State

def move (s : State) (p : Pid) (next : Phase) : State :=
  { s with phase := fun q => if q = p then next else s.phase q }

def withLock (s : State) (lock : Option LockDir) : State := { s with lock }

/-- What `kill -0` asks. -/
def live (s : State) (p : Pid) : Bool := s.phase p != .unborn && s.phase p != .dead

@[simp] theorem move_self (s : State) (p : Pid) (next : Phase) : (s.move p next).phase p = next :=
  if_pos rfl

theorem move_other (s : State) {p q : Pid} (next : Phase) (h : q ≠ p) :
    (s.move p next).phase q = s.phase q := if_neg h

@[simp] theorem move_lock (s : State) (p : Pid) (next : Phase) : (s.move p next).lock = s.lock := rfl
@[simp] theorem withLock_phase (s : State) (l : Option LockDir) : (s.withLock l).phase = s.phase := rfl
@[simp] theorem withLock_lock (s : State) (l : Option LockDir) : (s.withLock l).lock = l := rfl

end State

/-- One step of a runner. -/
inductive Act where
  | spawn
  | mkdir
  | testFile
  | readPid
  /-- The answer of the liveness check; a pid may have been given to another process. -/
  | judge (alive : Bool)
  | reclaim
  | mkdirAgain
  | writePid
  | setTrap
  | beginExit
  | runTrap
  | leave
  /-- Killed without its trap. -/
  | crash
  deriving DecidableEq, Repr

/-- `mkdir`: it fails if the directory is there. -/
def claim (s : State) (p : Pid) (taken : Phase) : State :=
  match s.lock with
  | none => (s.withLock (some ⟨some p, none⟩)).move p .claimed
  | some _ => s.move p taken

def step (s : State) (p : Pid) : Act → Option State
  | .spawn => if s.phase p = .unborn then some (s.move p .starting) else none
  | .mkdir => if s.phase p = .starting then some (claim s p .blocked) else none
  | .testFile =>
      if s.phase p = .blocked then
        if (s.lock.bind (·.pidFile)).isSome then some (s.move p .reading)
        else some (s.move p (.judging none))
      else none
  | .readPid =>
      if s.phase p = .reading then some (s.move p (.judging (s.lock.bind (·.pidFile)))) else none
  | .judge alive =>
      match s.phase p with
      | .judging opid =>
          if alive then
            if opid.isSome then some (s.move p .skipped) else none
          else if opid.any s.live then none
          else some (s.move p .reclaiming)
      | _ => none
  | .reclaim =>
      if s.phase p = .reclaiming then some ((s.withLock none).move p .retrying) else none
  | .mkdirAgain => if s.phase p = .retrying then some (claim s p .skipped) else none
  | .writePid =>
      if s.phase p = .claimed then
        some ((s.withLock (s.lock.map fun d => { d with pidFile := some p })).move p .named)
      else none
  | .setTrap => if s.phase p = .named then some (s.move p .holding) else none
  | .beginExit => if s.phase p = .holding then some (s.move p .exiting) else none
  | .runTrap => if s.phase p = .exiting then some ((s.withLock none).move p .dead) else none
  | .leave => if s.phase p = .skipped then some (s.move p .dead) else none
  | .crash => if s.live p then some (s.move p .dead) else none

/-- No runner yet, and no lock or one that an earlier run left. -/
def Initial (s : State) : Prop :=
  (∀ p, s.phase p = .unborn) ∧ ∀ d ∈ s.lock, d.owner = none

def runners : Transition State where
  init := Initial
  step s s' := ∃ p act, step s p act = some s'

/-- `acquire_lock` has returned success, and the runner has not exited. -/
def Phase.inside : Phase → Bool
  | .holding | .exiting => true
  | _ => false

/-- At most one live runner has the lock. -/
def MutualExclusion (s : State) : Prop :=
  ∀ p q, (s.phase p).inside = true → (s.phase q).inside = true → p = q

/-- The lock directory is not one that a live runner made. -/
def Abandoned (s : State) : Prop := ∀ d ∈ s.lock, ∀ p, d.owner = some p → s.live p = false

instance (s : State) : Decidable (Abandoned s) :=
  decidable_of_iff (((s.lock.bind (·.owner)).all fun p => !s.live p) = true) <| by
    simp only [Abandoned, Option.all_eq_true, Option.bind_eq_some_iff, Option.mem_def,
      Bool.not_eq_true']
    exact ⟨fun h d hd p hp => h p ⟨d, hd, hp⟩, fun h p ⟨d, hd, hp⟩ => h d hd p hp⟩

/-- Runners that only ever reclaim an abandoned lock. -/
def carefulRunners : Transition State where
  init := Initial
  step s s' := ∃ p act, step s p act = some s' ∧ (act = .reclaim → Abandoned s)

/-- From the `mkdir` that succeeds to the exit trap. -/
def Phase.owns : Phase → Bool
  | .claimed | .named | .holding | .exiting => true
  | _ => false

/-- Whoever owns the lock made the directory that is there. -/
def OwnerMade (s : State) : Prop :=
  ∀ p, (s.phase p).owns = true → ∃ d ∈ s.lock, d.owner = some p

section Steps
variable {s : State} {p : Pid}

theorem Phase.owns_of_inside {phase : Phase} (h : phase.inside = true) : phase.owns = true := by
  cases phase with
  | holding => rfl
  | exiting => rfl
  | _ => cases h

theorem live_of_owns (h : (s.phase p).owns = true) : s.live p = true := by
  unfold State.live
  cases hp : s.phase p <;> rw [hp] at h <;> first | rfl | cases h

/-- A move to a phase that does not own keeps the lock with its owner. -/
theorem OwnerMade.move (h : OwnerMade s) {next : Phase}
    (hnext : next.owns = true → (s.phase p).owns = true) : OwnerMade (s.move p next) := by
  intro q hq
  by_cases heq : q = p
  · subst heq
    rw [State.move_self] at hq
    exact h q (hnext hq)
  · rw [State.move_other s next heq] at hq
    exact h q hq

/-- With the lock free, nobody owns it. -/
theorem OwnerMade.not_owns (h : OwnerMade s) (hfree : s.lock = none) (q : Pid) :
    (s.phase q).owns = false := by
  rw [← Bool.not_eq_true]
  intro hq
  obtain ⟨d, hd, _⟩ := h q hq
  rw [hfree] at hd
  cases hd

theorem OwnerMade.claim (h : OwnerMade s) {taken : Phase} (htaken : taken.owns = false) :
    OwnerMade (claim s p taken) := by
  unfold RunLock.claim
  cases hlock : s.lock with
  | none =>
      intro q hq
      by_cases heq : q = p
      · exact ⟨⟨some p, none⟩, rfl, congrArg some heq.symm⟩
      · dsimp only at hq
        rw [State.move_other _ _ heq, State.withLock_phase, h.not_owns hlock q] at hq
        cases hq
  | some d =>
      apply h.move
      intro hnext
      rw [htaken] at hnext
      cases hnext

/-- Removing the directory loses nothing if nobody else owns it. -/
theorem OwnerMade.remove {next : Phase} (hnext : next.owns = false)
    (hothers : ∀ q, q ≠ p → (s.phase q).owns = false) :
    OwnerMade ((s.withLock none).move p next) := by
  intro q hq
  by_cases heq : q = p
  · subst heq
    rw [State.move_self, hnext] at hq
    cases hq
  · rw [State.move_other _ _ heq, State.withLock_phase, hothers q heq] at hq
    cases hq

/-- A runner that owns the lock is the only one. -/
theorem OwnerMade.unique (h : OwnerMade s) {q : Pid} (hp : (s.phase p).owns = true)
    (hq : (s.phase q).owns = true) : p = q := by
  obtain ⟨d, hd, hdp⟩ := h p hp
  obtain ⟨d', hd', hdq⟩ := h q hq
  cases Option.mem_unique hd hd'
  exact Option.some.inj (hdp.symm.trans hdq)

theorem OwnerMade.writePid (h : OwnerMade s) (hp : s.phase p = .claimed) :
    OwnerMade ((s.withLock (s.lock.map fun d => { d with pidFile := some p })).move p .named) := by
  intro q hq
  have howned : (s.phase q).owns = true := by
    by_cases heq : q = p
    · rw [heq, hp]
      rfl
    · rwa [State.move_other _ _ heq, State.withLock_phase] at hq
  obtain ⟨d, hd, hdq⟩ := h q howned
  exact ⟨{ d with pidFile := some p }, Option.mem_map_of_mem _ hd, hdq⟩

/-- A careful step keeps the lock with its owner. -/
theorem ownerMade_step {s' : State} {act : Act} (h : OwnerMade s) (hstep : step s p act = some s')
    (hcareful : act = .reclaim → Abandoned s) : OwnerMade s' := by
  have hmove : ∀ {next : Phase}, next.owns = false → OwnerMade (s.move p next) := fun hnext =>
    h.move fun howns => by rw [hnext] at howns; cases howns
  cases act with
  | spawn | leave | crash =>
      simp only [step, Option.ite_none_right_eq_some, Option.some.injEq] at hstep
      obtain ⟨_, rfl⟩ := hstep
      exact hmove rfl
  | mkdir | mkdirAgain =>
      simp only [step, Option.ite_none_right_eq_some, Option.some.injEq] at hstep
      obtain ⟨_, rfl⟩ := hstep
      exact h.claim rfl
  | testFile =>
      simp only [step, Option.ite_none_right_eq_some] at hstep
      obtain ⟨_, hstep⟩ := hstep
      split at hstep
      · cases hstep
        exact hmove rfl
      · cases hstep
        exact hmove rfl
  | readPid =>
      simp only [step, Option.ite_none_right_eq_some, Option.some.injEq] at hstep
      obtain ⟨_, rfl⟩ := hstep
      exact hmove rfl
  | judge alive =>
      simp only [step] at hstep
      split at hstep
      case h_1 =>
          split at hstep
          · simp only [Option.ite_none_right_eq_some, Option.some.injEq] at hstep
            obtain ⟨_, rfl⟩ := hstep
            exact hmove rfl
          · simp only [Option.ite_none_left_eq_some, Option.some.injEq] at hstep
            obtain ⟨_, rfl⟩ := hstep
            exact hmove rfl
      case h_2 => cases hstep
  | reclaim =>
      simp only [step, Option.ite_none_right_eq_some, Option.some.injEq] at hstep
      obtain ⟨_, rfl⟩ := hstep
      apply OwnerMade.remove rfl
      intro q _
      rw [← Bool.not_eq_true]
      intro hq
      obtain ⟨d, hd, hdq⟩ := h q hq
      have hdead := hcareful rfl d hd q hdq
      rw [live_of_owns hq] at hdead
      cases hdead
  | writePid =>
      simp only [step, Option.ite_none_right_eq_some, Option.some.injEq] at hstep
      obtain ⟨hp, rfl⟩ := hstep
      exact h.writePid hp
  | setTrap | beginExit =>
      simp only [step, Option.ite_none_right_eq_some, Option.some.injEq] at hstep
      obtain ⟨hp, rfl⟩ := hstep
      exact h.move fun _ => by rw [hp]; rfl
  | runTrap =>
      simp only [step, Option.ite_none_right_eq_some, Option.some.injEq] at hstep
      obtain ⟨hp, rfl⟩ := hstep
      apply OwnerMade.remove rfl
      intro q hne
      rw [← Bool.not_eq_true]
      intro hq
      exact hne (h.unique hq (by rw [hp]; rfl))

end Steps

theorem ownerMade_of_reachable {s : State} (h : carefulRunners.Reachable s) : OwnerMade s := by
  apply Transition.Reachable.invariant _ _ h
  · intro s hinit p hp
    rw [hinit.1 p] at hp
    cases hp
  · rintro s s' hinv ⟨p, act, hstep, hcareful⟩
    exact ownerMade_step hinv hstep hcareful

/-- Where only abandoned locks are reclaimed, no two live runners ever have the lock. -/
theorem mutualExclusion_of_careful (s : State) (h : carefulRunners.Reachable s) :
    MutualExclusion s := by
  intro p q hp hq
  exact (ownerMade_of_reachable h).unique (Phase.owns_of_inside hp) (Phase.owns_of_inside hq)

/-- The state after these steps. -/
def after (s : State) (acts : List (Pid × Act)) : Option State :=
  acts.foldlM (fun s a => step s a.1 a.2) s

/-- The state after these steps, where every reclaim is a careful one. -/
def afterCareful (s : State) (acts : List (Pid × Act)) : Option State :=
  acts.foldlM (fun s a => if a.2 = .reclaim → Abandoned s then step s a.1 a.2 else none) s

theorem reachable_after {s s' : State} (hs : runners.Reachable s) {acts : List (Pid × Act)}
    (h : after s acts = some s') : runners.Reachable s' := by
  refine hs.foldlM (fun s a s₁ hstep => ?_) h
  exact ⟨a.1, a.2, hstep⟩

theorem reachable_afterCareful {s s' : State} (hs : carefulRunners.Reachable s)
    {acts : List (Pid × Act)} (h : afterCareful s acts = some s') :
    carefulRunners.Reachable s' := by
  refine hs.foldlM (fun s a s₁ hstep => ?_) h
  rw [Option.ite_none_right_eq_some] at hstep
  exact ⟨a.1, a.2, hstep.2, hstep.1⟩

def fresh : State := ⟨fun _ => .unborn, none⟩

theorem fresh_initial : Initial fresh := ⟨fun _ => rfl, nofun⟩

/-- Runner 1 is killed with the lock; runner 2 reclaims it, and runner 3 comes while 2 is exiting. -/
def lateReader : List (Pid × Act) :=
  [(1, .spawn), (1, .mkdir), (1, .writePid), (1, .setTrap), (1, .crash), (2, .spawn), (2, .mkdir),
   (2, .testFile), (2, .readPid), (2, .judge false), (2, .reclaim), (2, .mkdirAgain),
   (2, .writePid), (2, .setTrap), (3, .spawn), (3, .mkdir), (3, .testFile), (2, .beginExit)]

theorem mutualExclusion_of_careful_lateReader : ∃ s, carefulRunners.Reachable s ∧
    s.phase 2 = .exiting ∧ s.phase 3 = .reading ∧ MutualExclusion s := by
  cases hrun : afterCareful fresh lateReader with
  | none =>
      have hsome : (afterCareful fresh lateReader).isSome = true := by decide
      rw [hrun] at hsome
      cases hsome
  | some s =>
      have hphases : ((afterCareful fresh lateReader).map fun s => (s.phase 2, s.phase 3)) =
          some (.exiting, .reading) := by decide
      rw [hrun] at hphases
      obtain ⟨hexiting, hreading⟩ := Prod.mk.inj (Option.some.inj hphases)
      have hreach := reachable_afterCareful (.init fresh_initial) hrun
      exact ⟨s, hreach, hexiting, hreading, mutualExclusion_of_careful s hreach⟩

/-- Runner 2 comes between the `mkdir` of runner 1 and its pid file. -/
def earlyReader : List (Pid × Act) :=
  [(1, .spawn), (1, .mkdir), (2, .spawn), (2, .mkdir), (2, .testFile), (2, .judge false),
   (2, .reclaim), (2, .mkdirAgain), (2, .writePid), (2, .setTrap), (1, .writePid), (1, .setTrap)]

theorem not_mutualExclusion : ¬∀ s, runners.Reachable s → MutualExclusion s := by
  intro h
  cases hrun : after fresh earlyReader with
  | none =>
      have hsome : (after fresh earlyReader).isSome = true := by decide
      rw [hrun] at hsome
      cases hsome
  | some s =>
      have hholding : ((after fresh earlyReader).map fun s => (s.phase 1, s.phase 2)) =
          some (.holding, .holding) := by decide
      rw [hrun] at hholding
      obtain ⟨h₁, h₂⟩ := Prod.mk.inj (Option.some.inj hholding)
      have hsame := h s (reachable_after (.init fresh_initial) hrun) 1 2 (by rw [h₁]; rfl)
        (by rw [h₂]; rfl)
      exact absurd hsame (by decide)

end Rotshield.RunLock
