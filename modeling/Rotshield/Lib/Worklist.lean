import Mathlib.Algebra.Order.Ring.Nat
import Rotshield.Lib.CanReturn

/-! Exploring from a worklist: each visit updates a state and says what to visit next. -/
namespace Rotshield.Lib

section Loop
variable {m : Type → Type} [Monad m] {R S E : Type}

/-- Visit the first entry and put what it leads to in front; an error of a visit ends the
loop early. `stuck` is the outcome without fuel. -/
def explore (stuck : m (Except E Unit × S)) (visit : R → S → m (Except E (List R) × S)) :
    Nat → List R → S → m (Except E Unit × S)
  | _, [], s => pure (.ok (), s)
  | 0, _ :: _, _ => stuck
  | fuel + 1, r :: queue, s => do
      let (next, s) ← visit r s
      match next with
      | .error e => pure (.error e, s)
      | .ok children => explore stuck visit fuel (children ++ queue) s

/-- A loop whose visits agree with those of another one on a part of the state. -/
theorem explore_map [LawfulMonad m] {T : Type} (f : S → T)
    {stuck : m (Except E Unit × S)} {stuck' : m (Except E Unit × T)}
    {visit : R → S → m (Except E (List R) × S)} {visit' : R → T → m (Except E (List R) × T)}
    (hstuck : Prod.map id f <$> stuck = stuck')
    (hvisit : ∀ r s, Prod.map id f <$> visit r s = visit' r (f s)) (fuel : Nat) (queue : List R)
    (s : S) :
    Prod.map id f <$> explore stuck visit fuel queue s = explore stuck' visit' fuel queue (f s) := by
  induction fuel generalizing queue s with
  | zero =>
      cases queue with
      | nil => simp [explore]
      | cons r queue => exact hstuck
  | succ fuel ih =>
      cases queue with
      | nil => simp [explore]
      | cons r queue =>
          unfold explore
          rw [← hvisit, map_bind, bind_map_left]
          congr 1
          funext v
          obtain ⟨next, s₁⟩ := v
          cases next with
          | error e => simp
          | ok children => exact ih _ s₁

end Loop

section Rules
variable {ε R S E : Type} {stuck : Except ε (Except E Unit × S)}
  {visit : R → S → Except ε (Except E (List R) × S)}

theorem explore_nil (fuel : Nat) (s : S) : explore stuck visit fuel [] s = .ok (.ok (), s) := by
  cases fuel <;> rfl

theorem explore_cons (fuel : Nat) (r : R) (queue : List R) (s : S) :
    explore stuck visit (fuel + 1) (r :: queue) s = (visit r s).bind fun v =>
      match v.1 with
      | .error e => .ok (.error e, v.2)
      | .ok children => explore stuck visit fuel (children ++ queue) v.2 := rfl

/-- What every visit keeps, the loop keeps. -/
theorem explore_keeps {inv : S → Prop} (hstuck : ∀ v, stuck ≠ .ok v)
    (hkeep : ∀ r s v, inv s → visit r s = .ok v → inv v.2) {fuel : Nat} {refs : List R} {s : S}
    {v : Except E Unit × S} (hs : inv s) (hrun : explore stuck visit fuel refs s = .ok v) :
    inv v.2 := by
  induction fuel generalizing refs s with
  | zero =>
      cases refs with
      | nil => cases hrun; exact hs
      | cons r queue => exact absurd hrun (hstuck v)
  | succ fuel ih =>
      cases refs with
      | nil => cases hrun; exact hs
      | cons r queue =>
          rw [explore_cons] at hrun
          cases hvisit : visit r s with
          | error e => rw [hvisit] at hrun; cases hrun
          | ok next =>
              have hnext := hkeep r s next hs hvisit
              rw [hvisit] at hrun
              obtain ⟨result, s₁⟩ := next
              cases result with
              | error e => cases hrun; exact hnext
              | ok children => exact ih hnext hrun

/-- Where no visit gives an error, the loop is not cut short. -/
theorem explore_complete (hstuck : ∀ v, stuck ≠ .ok v)
    (hvisit : ∀ r s v, visit r s = .ok v → ∃ children, v.1 = .ok children) {fuel : Nat}
    {refs : List R} {s : S} {v : Except E Unit × S} (hrun : explore stuck visit fuel refs s = .ok v) :
    v.1 = .ok () := by
  induction fuel generalizing refs s with
  | zero =>
      cases refs with
      | nil => cases hrun; rfl
      | cons r queue => exact absurd hrun (hstuck v)
  | succ fuel ih =>
      cases refs with
      | nil => cases hrun; rfl
      | cons r queue =>
          rw [explore_cons] at hrun
          cases hnext : visit r s with
          | error e => rw [hnext] at hrun; cases hrun
          | ok next =>
              obtain ⟨children, hchildren⟩ := hvisit r s next hnext
              rw [hnext] at hrun
              dsimp only [Except.bind] at hrun
              rw [hchildren] at hrun
              exact ih hrun

/-- An entry leads to another through visits. -/
inductive Leads (child : R → R → Prop) : R → R → Prop where
  | refl (r) : Leads child r r
  | step {r c t} (h : child r c) (hrest : Leads child c t) : Leads child r t

/-- What is led to is the start, or the child of something that is led to. -/
theorem Leads.eq_or_child {child : R → R → Prop} {r t : R} (h : Leads child r t) :
    t = r ∨ ∃ p, Leads child r p ∧ child p t := by
  induction h with
  | refl r => exact .inl rfl
  | @step r c t hchild _ ih =>
      rcases ih with rfl | ⟨p, hp, hlast⟩
      · exact .inr ⟨r, .refl r, hchild⟩
      · exact .inr ⟨p, .step hchild hp, hlast⟩

/-- What the visit of an entry establishes and every visit keeps holds at the end of a loop
that was not cut short, if the entry is led to at all. -/
theorem explore_marks {inv : S → Prop} {child : R → R → Prop} (hstuck : ∀ v, stuck ≠ .ok v)
    (hkeep : ∀ r s v, inv s → visit r s = .ok v → inv v.2)
    (hchild : ∀ r s children s', visit r s = .ok (.ok children, s') → ∀ c, child r c →
      c ∈ children)
    {target : R} (hmark : ∀ s v, visit target s = .ok v → inv v.2) {fuel : Nat} {refs : List R}
    {s s' : S} (hrun : explore stuck visit fuel refs s = .ok (.ok (), s')) {r : R} (hr : r ∈ refs)
    (hleads : Leads child r target) : inv s' := by
  induction fuel generalizing refs s r with
  | zero =>
      cases refs with
      | nil => cases hr
      | cons r₀ queue => exact absurd hrun (hstuck _)
  | succ fuel ih =>
      cases refs with
      | nil => cases hr
      | cons r₀ queue =>
          rw [explore_cons] at hrun
          cases hvisit : visit r₀ s with
          | error e => rw [hvisit] at hrun; cases hrun
          | ok next =>
              rw [hvisit] at hrun
              obtain ⟨result, s₁⟩ := next
              cases result with
              | error e => cases hrun
              | ok children =>
                  rcases List.mem_cons.mp hr with rfl | hqueue
                  · cases hleads with
                    | refl => exact explore_keeps hstuck hkeep (hmark s _ hvisit) hrun
                    | step h hrest =>
                        have hc := hchild r s children s₁ hvisit _ h
                        exact ih hrun (List.mem_append_left queue hc) hrest
                  · exact ih hrun (List.mem_append_right children hqueue) hleads

/-- So many visits lead from one worklist and state to another. -/
inductive Rounds (visit : R → S → Except ε (Except E (List R) × S)) :
    Nat → List R → S → List R → S → Prop where
  | refl (refs s) : Rounds visit 0 refs s refs s
  | step {n r queue children s s₁ refs' s'} (h : visit r s = .ok (.ok children, s₁))
      (hrest : Rounds visit n (children ++ queue) s₁ refs' s') :
      Rounds visit (n + 1) (r :: queue) s refs' s'

theorem Rounds.trans {n n' : Nat} {refs refs' refs'' : List R} {s s' s'' : S}
    (h : Rounds visit n refs s refs' s') (h' : Rounds visit n' refs' s' refs'' s'') :
    Rounds visit (n + n') refs s refs'' s'' := by
  induction h with
  | refl =>
      rw [Nat.zero_add]
      exact h'
  | step hvisit _ ih =>
      rw [Nat.succ_add]
      exact .step hvisit (ih h')

/-- Visits that empty the worklist are the loop. -/
theorem Rounds.explore_eq {n fuel : Nat} {refs : List R} {s s' : S}
    (h : Rounds visit n refs s [] s') (hfuel : n ≤ fuel) :
    explore stuck visit fuel refs s = .ok (.ok (), s') := by
  generalize hrefs : ([] : List R) = rest at h
  induction h generalizing fuel with
  | refl =>
      subst hrefs
      exact explore_nil fuel _
  | step hvisit _ ih =>
      obtain ⟨fuel, rfl⟩ := Nat.exists_eq_add_of_le' (Nat.le_trans (Nat.succ_pos _) hfuel)
      rw [explore_cons, hvisit]
      exact ih (Nat.le_of_succ_le_succ hfuel) hrefs

section Weight
variable {weight : R → Nat}

/-- No more visits are made than the worklist weighs. -/
theorem Rounds.length_le (hweight : ∀ r s children s', visit r s = .ok (.ok children, s') →
      (children.map weight).sum < weight r) {n : Nat} {refs refs' : List R} {s s' : S}
    (h : Rounds visit n refs s refs' s') : n ≤ (refs.map weight).sum := by
  induction h with
  | refl => exact Nat.zero_le _
  | step hvisit _ ih =>
      have hless := hweight _ _ _ _ hvisit
      simp only [List.map_cons, List.sum_cons, List.map_append, List.sum_append] at ih ⊢
      omega

/-- The loop returns exactly when each visit it comes to does. -/
theorem explore_returns_iff
    (hweight : ∀ r s children s', visit r s = .ok (.ok children, s') →
      (children.map weight).sum < weight r) (hpos : ∀ r, 0 < weight r)
    {fuel : Nat} {refs : List R} {s : S} (hfuel : (refs.map weight).sum ≤ fuel) :
    (∃ v, explore stuck visit fuel refs s = .ok v) ↔
      ∀ n r queue s', Rounds visit n refs s (r :: queue) s' → ∃ v, visit r s' = .ok v := by
  induction fuel generalizing refs s with
  | zero =>
      cases refs with
      | nil =>
          refine iff_of_true ⟨_, explore_nil _ s⟩ ?_
          rintro n r queue s' ⟨⟩
      | cons r queue =>
          have := hpos r
          simp only [List.map_cons, List.sum_cons] at hfuel
          omega
  | succ fuel ih =>
      cases refs with
      | nil =>
          refine iff_of_true ⟨_, explore_nil _ s⟩ ?_
          rintro n r queue s' ⟨⟩
      | cons r queue =>
          rw [explore_cons]
          cases hvisit : visit r s with
          | error e =>
              apply iff_of_false
              · rintro ⟨v, ⟨⟩⟩
              · intro hall
                obtain ⟨v, hv⟩ := hall 0 r queue s (.refl _ _)
                rw [hvisit] at hv
                cases hv
          | ok next =>
              obtain ⟨result, s₁⟩ := next
              cases result with
              | error e =>
                  refine iff_of_true ⟨_, rfl⟩ ?_
                  intro n r' queue' s' hrounds
                  cases hrounds with
                  | refl => exact ⟨_, hvisit⟩
                  | step h _ =>
                      rw [hvisit] at h
                      cases h
              | ok children =>
                  have hless := hweight r s children s₁ hvisit
                  have hleft : ((children ++ queue).map weight).sum ≤ fuel := by
                    simp only [List.map_cons, List.sum_cons, List.map_append, List.sum_append]
                      at hfuel ⊢
                    omega
                  have hrest := @ih (children ++ queue) s₁ hleft
                  dsimp only [Except.bind]
                  rw [hrest]
                  constructor
                  · intro hall n r' queue' s' hrounds
                    cases hrounds with
                    | refl => exact ⟨_, hvisit⟩
                    | step h hmore =>
                        rw [hvisit] at h
                        cases h
                        exact hall _ r' queue' s' hmore
                  · intro hall n r' queue' s' hrounds
                    exact hall (n + 1) r' queue' s' (.step hvisit hrounds)

end Weight
end Rules
end Rotshield.Lib
