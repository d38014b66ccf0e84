import Rotshield.Lib.SearchTree
import Rotshield.Lib.Worklist

/-! Walks over search trees: what a walk that prunes by key collects from the leaves. -/
namespace Rotshield.Lib

variable {R K L S O ε E : Type} [LinearOrder K]

/-- The children that are not pruned, in order: each is judged by its first key and by that of the
next child. -/
def keptChildren (prune : K → Option K → Bool) : List (K × R) → List R
  | [] => []
  | child :: rest =>
      if prune child.1 (rest.head?.map Prod.fst) then keptChildren prune rest
      else child.2 :: keptChildren prune rest

/-- A visit of a leaf adds what the leaf holds to what is collected, and a visit of another page
pushes the children that are kept. Only children that hold nothing are pruned. -/
structure Collects (pageAt : R → Option (Page R K L)) (keys : L → List K)
    (prune : K → Option K → Bool) (visit : R → S → Except ε (Except E (List R) × S))
    (collected : S → List O) (good : L → Prop) (holds : L → List O) : Prop where
  leaf : ∀ r l s, pageAt r = some (.leaf l) → good l →
    ∃ s', visit r s = .ok (.ok [], s') ∧ collected s' = collected s ++ holds l
  inner : ∀ r children s, pageAt r = some (.inner children) →
    ∃ s', visit r s = .ok (.ok (keptChildren prune children), s') ∧ collected s' = collected s
  pruned : ∀ l lo hi, good l → prune lo hi = true →
    (∀ k ∈ keys l, lo ≤ k ∧ ∀ h ∈ hi, k < h) → holds l = []

namespace Collects
variable {pageAt : R → Option (Page R K L)} {keys : L → List K} {prune : K → Option K → Bool}
  {visit : R → S → Except ε (Except E (List R) × S)} {collected : S → List O} {good : L → Prop}
  {holds : L → List O}

/-- Visits that go through everything under some entries, and collect what it holds. -/
def Through (visit : R → S → Except ε (Except E (List R) × S)) (collected : S → List O)
    (holds : L → List O) (refs : List R) (leaves : List L) : Prop :=
  ∀ queue s, ∃ n s', Rounds visit n (refs ++ queue) s queue s' ∧
    collected s' = collected s ++ leaves.flatMap holds

omit [LinearOrder K] in
theorem Through.nil : Through visit collected holds [] [] := by
  intro queue s
  refine ⟨0, s, .refl _ _, ?_⟩
  rw [List.flatMap_nil, List.append_nil]

theorem Through.cons {r : R} {refs : List R} {part leaves : List L}
    (hfirst : Through visit collected holds [r] part)
    (hrest : Through visit collected holds refs leaves) :
    Through visit collected holds (r :: refs) (part ++ leaves) := by
  intro queue s
  obtain ⟨n, s₁, hrounds, hcollected⟩ := hfirst (refs ++ queue) s
  obtain ⟨n', s', hrounds', hcollected'⟩ := hrest queue s₁
  refine ⟨n + n', s', hrounds.trans hrounds', ?_⟩
  rw [hcollected', hcollected, List.flatMap_append, List.append_assoc]

theorem Through.step {r : R} {refs : List R} {leaves : List L}
    (hvisit : ∀ s, ∃ s', visit r s = .ok (.ok refs, s') ∧ collected s' = collected s)
    (hrest : Through visit collected holds refs leaves) :
    Through visit collected holds [r] leaves := by
  intro queue s
  obtain ⟨s₁, hs₁, hsame⟩ := hvisit s
  obtain ⟨n, s', hrounds, hcollected⟩ := hrest queue s₁
  exact ⟨n + 1, s', .step hs₁ hrounds, by rw [hcollected, hsame]⟩

section Forest
variable {T : K × R → List L → Prop} {children : List (K × R)} {parts : List (List L)}

/-- The keys under a child are between its first key and that of the next child. -/
theorem keys_between (hhead : ∀ c part, T c part → (part.flatMap keys).head? = some c.1)
    {child : K × R} {part : List L} (hpart : T child part) (hrest : List.Forall₂ T children parts)
    (hsorted : ((part :: parts).flatten.flatMap keys).Pairwise (· < ·)) {l : L} (hl : l ∈ part) :
    ∀ k ∈ keys l, child.1 ≤ k ∧ ∀ h ∈ children.head?.map Prod.fst, k < h := by
  intro k hk
  have hin : k ∈ part.flatMap keys := List.mem_flatMap.mpr ⟨l, hl, hk⟩
  rw [List.flatten_cons, List.flatMap_append] at hsorted
  obtain ⟨hhere, -, hacross⟩ := List.pairwise_append.mp hsorted
  constructor
  · have hfirst := hhead child part hpart
    cases hkeys : part.flatMap keys with
    | nil => rw [hkeys] at hin; cases hin
    | cons first rest =>
        rw [hkeys] at hfirst hin hhere
        cases hfirst
        rcases List.mem_cons.mp hin with rfl | hin
        · exact le_refl _
        · exact le_of_lt (List.rel_of_pairwise_cons hhere hin)
  · cases hrest with
    | nil => exact nofun
    | @cons next part' children parts hpart' _ =>
        rintro h ⟨⟩
        apply hacross k hin
        rw [List.flatten_cons, List.flatMap_append]
        exact List.mem_append_left _ (List.mem_of_mem_head? (hhead next part' hpart'))

theorem forest (hcollects : Collects pageAt keys prune visit collected good holds)
    (hhead : ∀ c part, T c part → (part.flatMap keys).head? = some c.1)
    (h : List.Forall₂ T children parts)
    (hthrough : ∀ c part, T c part → (∀ l ∈ part, good l) →
      (part.flatMap keys).Pairwise (· < ·) → Through visit collected holds [c.2] part)
    (hsorted : (parts.flatten.flatMap keys).Pairwise (· < ·)) (hgood : ∀ l ∈ parts.flatten, good l) :
    Through visit collected holds (keptChildren prune children) parts.flatten := by
  induction h with
  | nil => exact Through.nil
  | @cons child part children parts hpart hrest ih =>
      have hbetween := fun l => keys_between (l := l) hhead hpart hrest hsorted
      rw [List.flatten_cons] at hsorted hgood ⊢
      rw [List.flatMap_append] at hsorted
      obtain ⟨hhere, hafter, -⟩ := List.pairwise_append.mp hsorted
      have hpartGood := fun l hl => hgood l (List.mem_append_left _ hl)
      have htail := ih hafter fun l hl => hgood l (List.mem_append_right part hl)
      rw [keptChildren]
      split
      case isTrue hprune =>
          have hempty : part.flatMap holds = [] := by
            apply List.flatMap_eq_nil_iff.mpr
            intro l hl
            exact hcollects.pruned l _ _ (hpartGood l hl) hprune (hbetween l hl)
          intro queue s
          obtain ⟨n, s', hrounds, hcollected⟩ := htail queue s
          refine ⟨n, s', hrounds, ?_⟩
          rw [hcollected, List.flatMap_append, hempty, List.nil_append]
      case isFalse => exact Through.cons (hthrough child part hpart hpartGood hhere) htail

end Forest

/-- A walk goes through a tree and collects what its leaves hold, in order. -/
theorem through (hcollects : Collects pageAt keys prune visit collected good holds) {height : Nat}
    {r : R} {leaves : List L} (htree : HeadsTree pageAt keys height r leaves)
    (hsorted : (leaves.flatMap keys).Pairwise (· < ·)) (hgood : ∀ l ∈ leaves, good l) :
    Through visit collected holds [r] leaves := by
  induction height generalizing r leaves with
  | zero =>
      obtain ⟨l, hpage, rfl⟩ := htree
      intro queue s
      obtain ⟨s', hvisit, hcollected⟩ := hcollects.leaf r l s hpage (hgood l List.mem_cons_self)
      refine ⟨1, s', .step hvisit (.refl _ _), ?_⟩
      rw [hcollected, List.flatMap_singleton]
  | succ height ih =>
      obtain ⟨children, parts, hpage, -, rfl, hparts⟩ := htree
      apply Through.step fun s => hcollects.inner r children s hpage
      exact forest hcollects (fun _ _ h => h.2) hparts
        (fun _ _ h hpart hkeys => ih h.1 hkeys hpart) hsorted hgood

end Collects
end Rotshield.Lib
