import Rotshield.Lib.Worklist

/-! Maps between monads: a program run in one is the same program run in the other. -/
namespace Rotshield.Lib

/-- A map of computations that keeps `pure` and `bind`. -/
structure MonadMap (m n : Type → Type) [Monad m] [Monad n] where
  app : {α : Type} → m α → n α
  app_pure : ∀ {α : Type} (a : α), app (pure a : m α) = pure a
  app_bind : ∀ {α β : Type} (x : m α) (f : α → m β), app (x >>= f) = app x >>= fun a => app (f a)

namespace MonadMap
variable {m n : Type → Type} [Monad m] [Monad n] (φ : MonadMap m n)

/-- A sequence is mapped where both of its parts are. -/
theorem bind_eq_app {α β : Type} {x : m α} {x' : n α} {f : α → m β} {f' : α → n β}
    (hx : x' = φ.app x) (hf : ∀ a, f' a = φ.app (f a)) : x' >>= f' = φ.app (x >>= f) := by
  rw [φ.app_bind, hx]
  congr 1
  funext a
  exact hf a

theorem app_mapM [LawfulMonad m] [LawfulMonad n] {α β : Type} (f : α → m β) (xs : List α) :
    φ.app (xs.mapM f) = xs.mapM fun x => φ.app (f x) := by
  induction xs with
  | nil => exact φ.app_pure []
  | cons x xs ih =>
      rw [List.mapM_cons, List.mapM_cons, φ.app_bind]
      congr 1
      funext b
      rw [φ.app_bind, ih]
      congr 1
      funext bs
      exact φ.app_pure (b :: bs)

theorem app_explore {R S E : Type} (stuck : m (Except E Unit × S))
    (visit : R → S → m (Except E (List R) × S)) (fuel : Nat) (queue : List R) (s : S) :
    φ.app (explore stuck visit fuel queue s) =
      explore (φ.app stuck) (fun r s => φ.app (visit r s)) fuel queue s := by
  induction fuel generalizing queue s with
  | zero =>
      cases queue with
      | nil => exact φ.app_pure _
      | cons r queue => rfl
  | succ fuel ih =>
      cases queue with
      | nil => exact φ.app_pure _
      | cons r queue =>
          unfold explore
          rw [φ.app_bind]
          congr 1
          funext v
          obtain ⟨next, s₁⟩ := v
          cases next with
          | error e => exact φ.app_pure _
          | ok children => exact ih (children ++ queue) s₁

end MonadMap
end Rotshield.Lib
