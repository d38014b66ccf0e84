import Rotshield.BatchRecover.Pipeline

/-! What every entry in the books keeps is kept by the writer, and by the pipeline. -/
namespace Rotshield.BatchRecover

variable {σ : Type}

/-- Noted on its own: every event but the two that come with a counter. -/
def Event.plain : Event → Bool
  | .classify _ _ => false
  | .settle _ _ => false
  | _ => true

/-- A property of the books between two rounds, and one for the time from a mismatch to its
outcome. -/
structure Books.Rounds (inv : Books → Prop) (inside : Nat → Books → Prop) : Prop where
  note {b : Books} (h : inv b) {e : Event} (he : e.plain = true) : inv (b.note e)
  noteInside {b : Books} {a : Nat} (h : inside a b) {e : Event} (he : e.plain = true) :
    inside a (b.note e)
  classify {b : Books} (h : inv b) (a : Nat) {v : Stage} (hv : v ≠ .mismatch) : inv (b.classify a v)
  mismatch {b : Books} (h : inv b) (a : Nat) : inside a (b.classify a .mismatch)
  settle {b : Books} {a : Nat} (h : inside a b) (o : Outcome) : inv (b.settle a o)
  dedup {b : Books} (h : inv b) (count : Nat) : inv (b.dedup count)
  repaired {b : Books} {a : Nat} (h : inside a b) : inside a b.repairedWhileMounted
  setFreeze {b : Books} (h : inv b) {c : FreezeController}
    (hmount : c.mountpoint = b.freeze.mountpoint) : inv (b.setFreeze c)

/-- Every entry the writer makes keeps the property. -/
structure Books.Keeps (inv : Books → Prop) : Prop where
  note {b : Books} (h : inv b) {e : Event} (he : e.plain = true) : inv (b.note e)
  classify {b : Books} (h : inv b) (a : Nat) (v : Stage) : inv (b.classify a v)
  settle {b : Books} (h : inv b) (a : Nat) (o : Outcome) : inv (b.settle a o)
  dedup {b : Books} (h : inv b) (count : Nat) : inv (b.dedup count)
  repaired {b : Books} (h : inv b) : inv b.repairedWhileMounted
  setFreeze {b : Books} (h : inv b) {c : FreezeController}
    (hmount : c.mountpoint = b.freeze.mountpoint) : inv (b.setFreeze c)

theorem Books.Keeps.rounds {inv : Books → Prop} (h : Books.Keeps inv) :
    Books.Rounds inv fun _ => inv where
  note := h.note
  noteInside := h.note
  classify hb a v _ := h.classify hb a v
  mismatch hb a := h.classify hb a .mismatch
  settle hb o := h.settle hb _ o
  dedup := h.dedup
  repaired := h.repaired
  setFreeze := h.setFreeze

section Writer
variable {inv : Books → Prop} {inside : Nat → Books → Prop} {env : WriterEnv σ} {args : WriterArgs}
  {cand : Candidate}

/-- The property holds however the action ends. -/
abbrev Preserves (inv : Books → Prop) {α : Type} (x : WriterM σ α) : Prop :=
  Spec inv x (fun _ => inv) fun _ => inv

/-- The property holds after a normal end; a stop may come inside a round. -/
abbrev Passes (inv : Books → Prop) (inside : Nat → Books → Prop) {α : Type} (x : WriterM σ α) :
    Prop :=
  Spec inv x (fun _ => inv) fun _ b => inv b ∨ ∃ a, inside a b

namespace Books.Rounds
variable (hinv : Books.Rounds inv inside)
include hinv

theorem confirm : Passes inv inside (confirm env args cand) := by
  unfold BatchRecover.confirm
  refine Spec.bind (fun _ => inv) ?_ fun verdict => ?_
  · exact spec_verdictOf (fun _ hb _ => hb) fun _ _ _ hb _ => hinv.note hb rfl
  · cases verdict with
    | stale => exact Spec.pure fun _ hb => hb
    | unverifiable => exact Spec.pure fun _ hb => hb
    | corruption =>
        exact spec_rereadFailing (fun _ hb _ => hb) (fun _ _ hb _ => hinv.note hb rfl)
          fun _ hb _ => hinv.note hb rfl

theorem recover {hasLiveMount writesAllowed : Bool} {block : Vector UInt8 cand.blockSize}
    {unreadable : Bool} :
    Spec (inside cand.arrayPhys)
      (recover env args hasLiveMount writesAllowed cand block unreadable)
      (fun _ => inside cand.arrayPhys) fun _ b => inv b ∨ ∃ a, inside a b :=
  spec_recover (fun _ _ hb => .inr ⟨_, hb⟩) (fun _ _ hb => hb)
    (fun _ _ hb _ _ _ => hinv.noteInside hb rfl) (fun _ hb => hinv.repaired hb) fun _ _ hb => hb

theorem processCandidate {hasLiveMount writesAllowed : Bool} :
    Passes inv inside (processCandidate env args hasLiveMount writesAllowed cand) := by
  unfold BatchRecover.processCandidate
  refine Spec.bind (fun _ => inv) (Spec.onBooks fun _ hb => hinv.note hb rfl) fun _ => ?_
  refine Spec.bind (fun _ => inv) hinv.confirm fun confirmed => ?_
  cases confirmed with
  | stale => exact Spec.onBooks fun _ hb => hinv.classify hb _ nofun
  | skipped => exact Spec.onBooks fun _ hb => hinv.classify hb _ nofun
  | corrupt block unreadable =>
      refine Spec.bind (fun _ => inside cand.arrayPhys)
        (Spec.onBooks fun _ hb => hinv.mismatch hb _) fun _ => ?_
      refine Spec.bind (fun _ => inside cand.arrayPhys) hinv.recover fun outcome => ?_
      exact Spec.onBooks fun _ hb => hinv.settle hb _

theorem flushLoop {hasLiveMount writesAllowed : Bool} {started : Nat} (first : Bool)
    (batch : List Candidate) :
    Passes inv inside (flushLoop env args hasLiveMount writesAllowed started first batch) := by
  induction batch generalizing first with
  | nil => exact Spec.pure fun _ hb => hb
  | cons cand rest ih =>
      unfold BatchRecover.flushLoop
      refine Spec.bind (fun _ => inv) ((windowExpired_keeps first).conseq (fun _ hb => hb)
        fun _ _ hb => hb.1) fun expired => ?_
      cases expired with
      | true => exact Spec.pure fun _ hb => hb
      | false => exact Spec.bind (fun _ => inv) hinv.processCandidate fun _ => ih false

theorem thaw : Preserves inv (thaw env) :=
  spec_thaw (fun _ hb _ => hb) (fun _ hb _ => hinv.setFreeze hb (by simp))
    fun _ _ hb _ _ => hinv.note (hinv.setFreeze hb (by simp)) rfl

theorem flushBatch (pending : List Candidate) :
    Passes inv inside (flushBatch env args pending) := by
  unfold BatchRecover.flushBatch
  refine Spec.bind (fun _ => inv)
    (Spec.onBooks fun _ hb => hinv.note (hinv.dedup hb _) rfl) fun _ => ?_
  refine Spec.bind (fun _ => inv) (Spec.books _ fun _ hb => hb) fun b => ?_
  refine Spec.bind (fun _ => inv) ?_ fun guarded => ?_
  · exact spec_guard (fun _ hb _ => hb)
      (fun _ hb _ => hinv.note (hinv.setFreeze hb (by simp)) rfl) fun _ _ hb _ => hinv.note hb rfl
  refine Spec.bind (fun _ => inv) (Spec.world _ fun _ _ hb => hb) fun started => ?_
  refine Spec.bind (fun _ => inv) (hinv.flushLoop true _) fun deferred => ?_
  refine Spec.bind (fun _ => inv) ?_ fun _ => ?_
  · unfold releaseGuard
    split
    case isTrue => exact hinv.thaw.weaken_fail fun _ _ => .inl
    case isFalse => exact Spec.pure fun _ hb => hb
  refine Spec.bind (fun _ => inv)
    (spec_takeThawError fun _ hb => hinv.setFreeze hb (by simp)) fun err => ?_
  cases err with
  | some e => exact Spec.throw fun _ hb => .inl hb
  | none => exact Spec.pure fun _ hb => hb

end Books.Rounds

theorem Books.Keeps.flushBatch (hinv : Books.Keeps inv) (pending : List Candidate) :
    Preserves inv (flushBatch env args pending) :=
  (hinv.rounds.flushBatch pending).weaken_fail fun _ _ h => h.elim id fun ⟨_, hb⟩ => hb

theorem Books.Keeps.thaw (hinv : Books.Keeps inv) : Preserves inv (thaw env) := hinv.rounds.thaw

end Writer

/-! ### In the pipeline -/

section Pipeline
variable {inv : Books → Prop} {env : WriterEnv σ} {args : WriterArgs} {batchMax : Nat}
  {s s' : Pipeline σ}

theorem Books.Keeps.pipelineFlush (hinv : Books.Keeps inv) {pending : List Candidate}
    {next : List Candidate → WriterThread} (h : inv s.state.books) :
    inv (s.flush env args pending next).state.books := by
  have hflush : Preserves inv (BatchRecover.flushBatch env args pending) := hinv.flushBatch pending
  have hthaw : Preserves inv (BatchRecover.thaw env) := hinv.thaw
  have hstate := hflush.run_state (fun _ _ => id) h
  unfold Pipeline.flush
  rcases hrun : (BatchRecover.flushBatch env args pending).run.run s.state with
    ⟨why | deferred, state⟩
  · rw [hrun] at hstate
    exact hthaw.run_state (fun _ _ => id) hstate
  · rw [hrun] at hstate
    exact hstate

theorem Books.Keeps.step (hinv : Books.Keeps inv) (h : inv s.state.books)
    (hstep : Pipeline.Step env args batchMax s s') : inv s'.state.books := by
  cases hstep with
  | recvBatch => exact hinv.pipelineFlush h
  | drainOne => exact hinv.pipelineFlush h
  | drained =>
      have hthaw : Preserves inv (BatchRecover.thaw env) := hinv.thaw
      exact hthaw.run_state (fun _ _ => id) h
  | _ => exact h

theorem Books.Keeps.reachable (hinv : Books.Keeps inv)
    (hstart : ∀ w mountpoint counters, inv (WriterState.start (σ := σ) w mountpoint counters).books)
    (h : (pipeline env args batchMax).Reachable s) : inv s.state.books := by
  apply h.invariant (motive := fun s => inv s.state.books)
  · intro s hs
    obtain ⟨w, mountpoint, counters, rfl⟩ := hs
    exact hstart w mountpoint counters
  · intro s s' hs hstep
    exact hinv.step hs hstep

theorem mountpoint_keeps (mountpoint : Option Path) :
    Books.Keeps fun b => b.freeze.mountpoint = mountpoint where
  note h _ _ := h
  classify h _ _ := h
  settle h _ _ := h
  dedup h _ := h
  repaired h := h
  setFreeze h _ hmount := hmount.trans h

end Pipeline
end Rotshield.BatchRecover
