/-! What a computation can return, and the states a fold can go through. -/
namespace Rotshield.Lib
open MonadAttach (CanReturn)

section Except
variable {ε : Type}

instance monadAttachExcept : MonadAttach (Except ε) where
  CanReturn x a := x = .ok a
  attach x := match x with
    | .ok a => .ok ⟨a, rfl⟩
    | .error e => .error e

instance lawfulMonadAttachExcept : LawfulMonadAttach (Except ε) where
  map_attach := by
    intro α x
    cases x <;> rfl
  canReturn_map_imp := by
    intro α P x a h
    cases x with
    | error e => cases h
    | ok x =>
        cases h
        exact x.2

end Except

/-- A step relation, for each of a list in order. -/
inductive Folds {S A : Type} (step : S → A → S → Prop) : List A → S → S → Prop where
  | nil {s} : Folds step [] s s
  | cons {a rest s s₁ s₂} (h : step s a s₁) (hrest : Folds step rest s₁ s₂) :
      Folds step (a :: rest) s s₂

namespace Folds
variable {S A : Type} {step : S → A → S → Prop} {as : List A} {s s₁ : S}

/-- What each step keeps, all of them keep. -/
theorem keeps {motive : S → Prop} (h : Folds step as s s₁)
    (hstep : ∀ a ∈ as, ∀ s s', motive s → step s a s' → motive s') (hs : motive s) : motive s₁ := by
  induction h with
  | nil => exact hs
  | cons hone _ ih =>
      exact ih (fun a ha => hstep a (List.mem_cons_of_mem _ ha)) (hstep _ List.mem_cons_self _ _ hs hone)

end Folds

theorem folds_foldl {S A : Type} {f : S → A → S} (as : List A) (s : S) :
    Folds (fun s a s' => s' = f s a) as s (as.foldl f s) := by
  induction as generalizing s with
  | nil => exact .nil
  | cons a as ih => exact .cons rfl (ih _)

theorem mapM_congr {m : Type → Type} [Monad m] [LawfulMonad m] {A B : Type} {f g : A → m B}
    {as : List A} (h : ∀ a ∈ as, f a = g a) : as.mapM f = as.mapM g := by
  induction as with
  | nil => rfl
  | cons a as ih =>
      rw [List.mapM_cons, List.mapM_cons, h a List.mem_cons_self,
        ih fun b hb => h b (List.mem_cons_of_mem a hb)]

theorem foldlM_congr {m : Type → Type} [Monad m] {A S : Type} {f g : S → A → m S} {as : List A}
    (h : ∀ a ∈ as, ∀ s, f s a = g s a) (s : S) : as.foldlM f s = as.foldlM g s := by
  induction as generalizing s with
  | nil => rfl
  | cons a as ih =>
      rw [List.foldlM_cons, List.foldlM_cons, h a List.mem_cons_self]
      congr 1
      funext s₁
      exact ih (fun b hb => h b (List.mem_cons_of_mem a hb)) s₁

theorem foldlM_flatMap {m : Type → Type} [Monad m] [LawfulMonad m] {A B S : Type} (f : A → List B)
    (g : S → B → m S) (as : List A) (s : S) :
    (as.flatMap f).foldlM g s = as.foldlM (fun s a => (f a).foldlM g s) s := by
  induction as generalizing s with
  | nil => rfl
  | cons a as ih =>
      rw [List.flatMap_cons, List.foldlM_append, List.foldlM_cons]
      congr 1
      funext s₁
      exact ih s₁

/-- A fold of steps that return returns. -/
theorem foldlM_pure {m : Type → Type} [Monad m] [LawfulMonad m] {A S : Type} {f : S → A → m S}
    {as : List A} (hstep : ∀ a ∈ as, ∀ s, ∃ s', f s a = pure s') (s : S) :
    ∃ s', as.foldlM f s = pure s' := by
  induction as generalizing s with
  | nil => exact ⟨s, rfl⟩
  | cons a as ih =>
      obtain ⟨s₁, hone⟩ := hstep a List.mem_cons_self s
      obtain ⟨s', hrest⟩ := ih (fun b hb => hstep b (List.mem_cons_of_mem a hb)) s₁
      exact ⟨s', by rw [List.foldlM_cons, hone, pure_bind, hrest]⟩

section Lawful
variable {m : Type → Type} [Monad m] [LawfulMonad m] [MonadAttach m] [LawfulMonadAttach m]
  {A S : Type}

theorem canReturn_pure {a b : A} (h : CanReturn (pure a : m A) b) : b = a :=
  (LawfulMonadAttach.eq_of_canReturn_pure h).symm

theorem canReturn_bind {x : m A} {f : A → m S} {s : S} (h : CanReturn (x >>= f) s) :
    ∃ a, CanReturn x a ∧ CanReturn (f a) s :=
  LawfulMonadAttach.canReturn_bind_imp' h

/-- A fold goes through what its steps can return. -/
theorem canReturn_foldlM {f : S → A → m S} {as : List A} {s s' : S}
    (h : CanReturn (as.foldlM f s) s') : Folds (fun s a s' => CanReturn (f s a) s') as s s' := by
  induction as generalizing s with
  | nil =>
      obtain rfl := canReturn_pure h
      exact .nil
  | cons a as ih =>
      rw [List.foldlM_cons] at h
      obtain ⟨s₁, hstep, hrest⟩ := canReturn_bind h
      exact .cons hstep (ih hrest)

end Lawful
end Rotshield.Lib
