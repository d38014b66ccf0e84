/-! Transition systems: reachable states and their invariants. -/
namespace Rotshield.Lib

/-- A set of initial states and a step relation. -/
structure Transition (St : Type) where
  init : St → Prop
  step : St → St → Prop

namespace Transition
variable {St : Type} {sys : Transition St}

inductive Reachable (sys : Transition St) : St → Prop where
  | init {s} (h : sys.init s) : Reachable sys s
  | step {s s'} (hs : Reachable sys s) (h : sys.step s s') : Reachable sys s'

/-- What holds initially and is kept by every step holds in every reachable state. -/
theorem Reachable.invariant {motive : St → Prop} (hinit : ∀ s, sys.init s → motive s)
    (hstep : ∀ s s', motive s → sys.step s s' → motive s') {s : St} (h : Reachable sys s) :
    motive s := by
  induction h with
  | init h => exact hinit _ h
  | step _ h ih => exact hstep _ _ ih h

/-- Where a run of the steps that `f` takes ends. -/
theorem Reachable.foldlM {Act : Type} {f : St → Act → Option St}
    (hf : ∀ s a s', f s a = some s' → sys.step s s') {s s' : St} (hs : Reachable sys s)
    {acts : List Act} (h : acts.foldlM f s = some s') : Reachable sys s' := by
  induction acts generalizing s with
  | nil =>
      cases h
      exact hs
  | cons a acts ih =>
      rw [List.foldlM_cons] at h
      obtain ⟨s₁, hstep, hrest⟩ := Option.bind_eq_some_iff.mp h
      exact ih (.step hs (hf s a s₁ hstep)) hrest

/-- A partial view of the states, under which a step is one of `spec` or none: it shows states that
`spec` reaches, and a state it no longer shows is not shown again. -/
theorem Reachable.seen {Sp : Type} {spec : Transition Sp} (view : St → Option Sp)
    (hinit : ∀ s t, sys.init s → view s = some t → spec.init t)
    (hstep : ∀ s s' t', Reachable sys s → sys.step s s' → view s' = some t' →
      ∃ t, view s = some t ∧ (Reachable spec t → t' = t ∨ spec.step t t')) {s : St} {t : Sp}
    (h : Reachable sys s) (hview : view s = some t) : Reachable spec t := by
  induction h generalizing t with
  | init h => exact .init (hinit _ _ h hview)
  | step hs h ih =>
      obtain ⟨u, hu, hmove⟩ := hstep _ _ _ hs h hview
      have hreach := ih hu
      rcases hmove hreach with rfl | hnext
      · exact hreach
      · exact .step hreach hnext

end Transition
end Rotshield.Lib
