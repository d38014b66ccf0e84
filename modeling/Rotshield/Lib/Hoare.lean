/-! Pre- and postconditions for a computation that updates a state and may stop. -/
namespace Rotshield.Lib

variable {ε σ α β : Type}

theorem run_bind (x : ExceptT ε (StateM σ) α) (f : α → ExceptT ε (StateM σ) β) (s : σ) :
    (x >>= f).run.run s = match x.run.run s with
      | (.ok a, s') => (f a).run.run s'
      | (.error e, s') => (.error e, s') := by
  change (StateT.bind x.run (ExceptT.bindCont f)).run s = _
  simp only [StateT.bind, StateT.run]
  rcases x.run s with ⟨a | e, s'⟩ <;> rfl

section Bind
variable {x : ExceptT ε (StateM σ) α} {k : α → ExceptT ε (StateM σ) β} {s s' s'' : σ}

theorem bind_of_ok {a : α} (h : x s = (.ok a, s')) : (x >>= k) s = k a s' := by
  change (ExceptT.bindCont k (x s).1 : StateM σ _) (x s).2 = _
  rw [h]
  rfl

theorem bind_of_error {e : ε} (h : x s = (.error e, s')) : (x >>= k) s = (.error e, s') := by
  change (ExceptT.bindCont k (x s).1 : StateM σ _) (x s).2 = _
  rw [h]
  rfl

/-- A sequence that ends normally does so in both of its parts. -/
theorem bind_ok_inv {b : β} (h : (x >>= k) s = (.ok b, s'')) :
    ∃ a s', x s = (.ok a, s') ∧ k a s' = (.ok b, s'') := by
  cases hx : x s with
  | mk result s' =>
      cases result with
      | error e =>
          rw [bind_of_error hx] at h
          cases h
      | ok a =>
          rw [bind_of_ok hx] at h
          exact ⟨a, s', rfl, h⟩

end Bind

/-- From `pre`, a normal end satisfies `post` and a stop satisfies `fail`. -/
def Triple (pre : σ → Prop) (x : ExceptT ε (StateM σ) α) (post : α → σ → Prop)
    (fail : ε → σ → Prop) : Prop :=
  ∀ s, pre s → match x.run.run s with
    | (.ok a, s') => post a s'
    | (.error e, s') => fail e s'

namespace Triple
variable {pre pre' : σ → Prop} {post post' : α → σ → Prop} {fail fail' : ε → σ → Prop}
  {x : ExceptT ε (StateM σ) α}

theorem bind {f : α → ExceptT ε (StateM σ) β} {mid : α → σ → Prop} {post : β → σ → Prop}
    (hx : Triple pre x mid fail) (hf : ∀ a, Triple (mid a) (f a) post fail) :
    Triple pre (x >>= f) post fail := by
  intro s hs
  have hmid := hx s hs
  rw [run_bind]
  rcases hx' : x.run.run s with ⟨e | a, s'⟩
  · rw [hx'] at hmid
    exact hmid
  · rw [hx'] at hmid
    exact hf a s' hmid

/-- The first computation returns a known value. -/
theorem bind_value {f : α → ExceptT ε (StateM σ) β} {a : α} {mid : σ → Prop}
    {post : β → σ → Prop} (hx : Triple pre x (fun r s => r = a ∧ mid s) fail)
    (hf : Triple mid (f a) post fail) : Triple pre (x >>= f) post fail := by
  apply bind hx
  intro r s hr
  obtain ⟨rfl, hs⟩ := hr
  exact hf s hs

theorem weaken (h : Triple pre x post fail) (hpre : ∀ s, pre' s → pre s)
    (hpost : ∀ a s, post a s → post' a s) (hfail : ∀ e s, fail e s → fail' e s) :
    Triple pre' x post' fail' := by
  intro s hs
  have hrun := h s (hpre s hs)
  rcases hx : x.run.run s with ⟨e | a, s'⟩
  · rw [hx] at hrun
    exact hfail e s' hrun
  · rw [hx] at hrun
    exact hpost a s' hrun

theorem conseq (h : Triple pre x post fail) (hpre : ∀ s, pre' s → pre s)
    (hpost : ∀ a s, post a s → post' a s) : Triple pre' x post' fail :=
  h.weaken hpre hpost fun _ _ he => he

/-- A precondition may be split into the states that satisfy it. -/
theorem of_forall (h : ∀ s₀, pre s₀ → Triple (fun s => s = s₀) x post fail) :
    Triple pre x post fail :=
  fun s hs => h s hs s rfl

theorem run_ok (h : Triple pre x post fail) {s s' : σ} {a : α} (hs : pre s)
    (hrun : x.run.run s = (.ok a, s')) : post a s' := by
  have hpost := h s hs
  rw [hrun] at hpost
  exact hpost

theorem run_error (h : Triple pre x post fail) {s s' : σ} {e : ε} (hs : pre s)
    (hrun : x.run.run s = (.error e, s')) : fail e s' := by
  have hpost := h s hs
  rw [hrun] at hpost
  exact hpost

end Triple
end Rotshield.Lib
