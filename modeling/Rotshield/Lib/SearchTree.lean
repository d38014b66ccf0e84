import Mathlib.Data.List.Forall2
import Mathlib.Order.Lattice
import Rotshield.Lib.BinarySearch

/-! Search trees over pages: where the single-path search for a key ends. -/
namespace Rotshield.Lib

/-- A page is a leaf, or holds the first key and the address of each child. -/
inductive Page (A K L : Type) where
  | leaf (l : L)
  | inner (children : List (K × A))

variable {A K L : Type}

/-- The page at an address heads a tree of this height with these leaves, in order. -/
def HeadsTree (pageAt : A → Option (Page A K L)) (keys : L → List K) : Nat → A → List L → Prop
  | 0, a, leaves => ∃ l, pageAt a = some (.leaf l) ∧ leaves = [l]
  | height + 1, a, leaves => ∃ children parts, pageAt a = some (.inner children) ∧
      children ≠ [] ∧ leaves = parts.flatten ∧
      List.Forall₂ (fun (child : K × A) part => HeadsTree pageAt keys height child.2 part ∧
        (part.flatMap keys).head? = some child.1) children parts

/-- What hangs under the two parts of a list of children. -/
theorem forall₂_split {R : K × A → List L → Prop} {pre post : List (K × A)} {parts : List (List L)}
    (h : List.Forall₂ R (pre ++ post) parts) :
    ∃ parts₁ parts₂, parts = parts₁ ++ parts₂ ∧ List.Forall₂ R pre parts₁ ∧
      List.Forall₂ R post parts₂ := by
  have hpre := List.forall₂_take pre.length h
  have hpost := List.forall₂_drop pre.length h
  rw [List.take_left] at hpre
  rw [List.drop_left] at hpost
  exact ⟨_, _, (List.take_append_drop pre.length parts).symm, hpre, hpost⟩

section Search
variable [LinearOrder K]

/-- The last child whose first key is at or before the target. -/
def selectChild (target : K) (children : List (K × A)) : Option (K × A) :=
  match partitionPoint (fun child => decide (child.1 ≤ target)) children with
  | 0 => none
  | count + 1 => children[count]?

/-- The search through at most so many pages: `some none` is before the first key. -/
def searchPages (pageAt : A → Option (Page A K L)) (target : K) : Nat → A → Option (Option L)
  | 0, _ => none
  | depth + 1, a =>
      match pageAt a with
      | none => none
      | some (.leaf l) => some (some l)
      | some (.inner children) =>
          match selectChild target children with
          | none => some none
          | some child => searchPages pageAt target depth child.2

/-- A list whose keys ascend splits at the target. -/
theorem exists_split {α : Type} (key : α → K) {l : List α}
    (hsorted : l.Pairwise fun x y => key x ≤ key y) (target : K) :
    ∃ pre post, l = pre ++ post ∧ (∀ x ∈ pre, key x ≤ target) ∧ ∀ x ∈ post, target < key x := by
  induction l with
  | nil => exact ⟨[], [], rfl, by simp, by simp⟩
  | cons x l ih =>
      obtain ⟨hx, hl⟩ := List.pairwise_cons.mp hsorted
      by_cases hle : key x ≤ target
      · obtain ⟨pre, post, rfl, hpre, hpost⟩ := ih hl
        refine ⟨x :: pre, post, rfl, ?_, hpost⟩
        intro y hy
        rcases List.mem_cons.mp hy with rfl | hy
        · exact hle
        · exact hpre y hy
      · refine ⟨[], x :: l, rfl, by simp, ?_⟩
        intro y hy
        have hlt := lt_of_not_ge hle
        rcases List.mem_cons.mp hy with rfl | hy
        · exact hlt
        · exact lt_of_lt_of_le hlt (hx y hy)

theorem partitionPoint_split {α : Type} (key : α → K) {pre post : List α} {target : K}
    (hpre : ∀ x ∈ pre, key x ≤ target) (hpost : ∀ x ∈ post, target < key x) :
    partitionPoint (fun x => decide (key x ≤ target)) (pre ++ post) = pre.length := by
  apply partitionPoint_append
  · intro x hx
    exact decide_eq_true (hpre x hx)
  · intro x hx
    exact decide_eq_false (not_le_of_gt (hpost x hx))

theorem selectChild_nil {post : List (K × A)} {target : K} (hpost : ∀ c ∈ post, target < c.1) :
    selectChild target post = none := by
  have hnil : ∀ c ∈ ([] : List (K × A)), c.1 ≤ target := by simp
  have hcount := partitionPoint_split (fun c : K × A => c.1) hnil hpost
  unfold selectChild
  rw [List.nil_append] at hcount
  rw [hcount]
  rfl

theorem selectChild_append {pre post : List (K × A)} {child : K × A} {target : K}
    (hpre : ∀ c ∈ pre ++ [child], c.1 ≤ target) (hpost : ∀ c ∈ post, target < c.1) :
    selectChild target ((pre ++ [child]) ++ post) = some child := by
  have hcount := partitionPoint_split (fun c : K × A => c.1) hpre hpost
  unfold selectChild
  rw [hcount, List.length_append, List.length_singleton]
  simp

end Search

section Lands
variable [LinearOrder K] {pageAt : A → Option (Page A K L)} {keys : L → List K}

/-- The leaf a search for the target has to end in: nothing after it is at or before the
target, and if anything is, then something in it. -/
structure Lands (keys : L → List K) (target : K) (leaves : List L) (l : L) (pre post : List L) :
    Prop where
  split : leaves = pre ++ l :: post
  before : ∀ k ∈ pre.flatMap keys, k ≤ target
  after : ∀ k ∈ post.flatMap keys, target < k
  inside : (∃ k ∈ leaves.flatMap keys, k ≤ target) → ∃ k ∈ keys l, k ≤ target

/-- The first key under the first child is a lower bound of all keys under the children. -/
theorem head_le {R : K × A → List L → Prop} (hR : ∀ c part, R c part →
      (part.flatMap keys).head? = some c.1) {child : K × A} {children : List (K × A)}
    {parts : List (List L)} (h : List.Forall₂ R (child :: children) parts)
    (hsorted : (parts.flatten.flatMap keys).Pairwise (· ≤ ·)) :
    ∀ k ∈ parts.flatten.flatMap keys, child.1 ≤ k := by
  cases h with
  | @cons _ part _ parts hpart hrest =>
      have hhead := hR _ _ hpart
      rw [List.flatten_cons, List.flatMap_append] at hsorted ⊢
      cases hkeys : part.flatMap keys with
      | nil => rw [hkeys] at hhead; cases hhead
      | cons k₀ ks =>
          rw [hkeys] at hhead hsorted
          cases hhead
          intro k hk
          rw [List.cons_append] at hsorted hk
          rcases List.mem_cons.mp hk with rfl | hk
          · exact le_refl _
          · exact List.rel_of_pairwise_cons hsorted hk

/-- The first keys of the children ascend. -/
theorem children_sorted {R : K × A → List L → Prop} (hR : ∀ c part, R c part →
      (part.flatMap keys).head? = some c.1) {children : List (K × A)} {parts : List (List L)}
    (h : List.Forall₂ R children parts)
    (hsorted : (parts.flatten.flatMap keys).Pairwise (· ≤ ·)) :
    children.Pairwise fun x y => x.1 ≤ y.1 := by
  induction h with
  | nil => exact List.Pairwise.nil
  | @cons child part children parts hpart hrest ih =>
      have hle := head_le hR (List.Forall₂.cons hpart hrest) hsorted
      rw [List.flatten_cons, List.flatMap_append] at hsorted hle
      have htail := (List.pairwise_append.mp hsorted).2.1
      apply List.Pairwise.cons _ (ih htail)
      intro c hc
      obtain ⟨pre, post, rfl⟩ := List.append_of_mem hc
      obtain ⟨parts₁, parts₂, rfl, _, hmem⟩ := forall₂_split hrest
      cases hmem with
      | @cons _ part' _ parts' hpart' _ =>
          apply hle
          have hhead := List.mem_of_mem_head? (hR _ _ hpart')
          simp only [List.flatten_append, List.flatten_cons, List.flatMap_append, List.mem_append]
          exact .inr (.inr (.inl hhead))

/-- The child a key hangs under: the key is at or after its first key, and before those of all
later children. -/
theorem exists_child {R : K × A → List L → Prop} (hR : ∀ c part, R c part →
      (part.flatMap keys).head? = some c.1) {children : List (K × A)} {parts : List (List L)}
    (h : List.Forall₂ R children parts) (hsorted : (parts.flatten.flatMap keys).Pairwise (· < ·))
    {l : L} (hl : l ∈ parts.flatten) {k : K} (hk : k ∈ keys l) :
    ∃ pre child post part, children = pre ++ child :: post ∧ R child part ∧ l ∈ part ∧
      (part.flatMap keys).Pairwise (· < ·) ∧ child.1 ≤ k ∧ ∀ next ∈ post, k < next.1 := by
  induction h with
  | nil => cases hl
  | @cons child part children parts hpart hrest ih =>
      rw [List.flatten_cons, List.flatMap_append] at hsorted
      obtain ⟨hsortedPart, hsortedRest, hacross⟩ := List.pairwise_append.mp hsorted
      rcases List.mem_append.mp (List.flatten_cons ▸ hl) with hl | hl
      · have hkeys : k ∈ part.flatMap keys := List.mem_flatMap.mpr ⟨l, hl, hk⟩
        refine ⟨[], child, children, part, rfl, hpart, hl, hsortedPart, ?_, ?_⟩
        · have hone := List.Forall₂.cons hpart (List.Forall₂.nil (R := R))
          have heq : [part].flatten.flatMap keys = part.flatMap keys := by simp
          have hle : ([part].flatten.flatMap keys).Pairwise (· ≤ ·) := by
            rw [heq]
            exact hsortedPart.imp le_of_lt
          exact head_le hR hone hle k (heq ▸ hkeys)
        · intro next hnext
          apply hacross k hkeys
          obtain ⟨pre, post, rfl⟩ := List.append_of_mem hnext
          obtain ⟨parts₁, parts₂, rfl, _, hmem⟩ := forall₂_split hrest
          cases hmem with
          | @cons _ part' _ parts' hpart' _ =>
              have hhead := List.mem_of_mem_head? (hR _ _ hpart')
              simp only [List.flatten_append, List.flatten_cons, List.flatMap_append,
                List.mem_append]
              exact .inr (.inl hhead)
      · obtain ⟨pre, child', post, part', rfl, hin, hl', hsorted', hle, hlt⟩ := ih hsortedRest hl
        exact ⟨child :: pre, child', post, part', rfl, hin, hl', hsorted', hle, hlt⟩

/-- The search ends before all keys, or in the leaf it has to end in. -/
theorem searchPages_lands (target : K) (height : Nat) {a : A} {leaves : List L} {depth : Nat}
    (htree : HeadsTree pageAt keys height a leaves) (hdepth : height < depth)
    (hsorted : (leaves.flatMap keys).Pairwise (· ≤ ·)) :
    (searchPages pageAt target depth a = some none ∧ ∀ k ∈ leaves.flatMap keys, target < k) ∨
    ∃ l pre post, searchPages pageAt target depth a = some (some l) ∧
      Lands keys target leaves l pre post := by
  induction height generalizing a leaves depth with
  | zero =>
      obtain ⟨l, hpage, rfl⟩ := htree
      obtain ⟨depth, rfl⟩ := Nat.exists_eq_succ_of_ne_zero (Nat.pos_iff_ne_zero.mp hdepth)
      apply Or.inr
      refine ⟨l, [], [], ?_, rfl, by simp, by simp, by simp⟩
      rw [searchPages, hpage]
  | succ height ih =>
      obtain ⟨children, parts, hpage, hnil, rfl, hparts⟩ := htree
      obtain ⟨depth, rfl⟩ := Nat.exists_eq_succ_of_ne_zero (Nat.ne_zero_of_lt hdepth)
      have hhead : ∀ (c : K × A) (part : List L), (HeadsTree pageAt keys height c.2 part ∧
          (part.flatMap keys).head? = some c.1) → (part.flatMap keys).head? = some c.1 :=
        fun _ _ h => h.2
      obtain ⟨pre, post, rfl, hpre, hpost⟩ :=
        exists_split (fun c : K × A => c.1) (children_sorted hhead hparts hsorted) target
      obtain ⟨parts₁, parts₂, rfl, hparts₁, hparts₂⟩ := forall₂_split hparts
      rw [List.flatten_append, List.flatMap_append] at hsorted
      obtain ⟨hsorted₁, hsorted₂, hacross⟩ := List.pairwise_append.mp hsorted
      -- Nothing under the children after the target is at or before it.
      have hafter : ∀ k ∈ parts₂.flatten.flatMap keys, target < k := by
        intro k hk
        cases hparts₂ with
        | nil => simp at hk
        | @cons child part post' parts' hpart hrest =>
            have hle := head_le hhead (List.Forall₂.cons hpart hrest) hsorted₂ k hk
            exact lt_of_lt_of_le (hpost child List.mem_cons_self) hle
      rcases List.eq_nil_or_concat pre with rfl | ⟨pre', child, rfl⟩
      · cases hparts₁
        apply Or.inl
        constructor
        · rw [searchPages, hpage]
          dsimp only
          rw [List.nil_append, selectChild_nil hpost]
        · simpa using hafter
      · rw [List.concat_eq_append] at *
        obtain ⟨parts₀, last, rfl, hparts₀, hlast⟩ := forall₂_split hparts₁
        cases hlast with
        | @cons _ part _ _ hpart hrest =>
        cases hrest
        obtain ⟨hsub, hkey⟩ := hpart
        have hmem : child.1 ∈ part.flatMap keys := List.mem_of_mem_head? hkey
        have hchild : child.1 ≤ target := hpre child (by simp)
        rw [List.flatten_append, List.flatMap_append] at hsorted₁
        obtain ⟨_, hsortedPart, hbelow⟩ := List.pairwise_append.mp hsorted₁
        have hpartEq : [part].flatten.flatMap keys = part.flatMap keys := by simp
        rw [hpartEq] at hsortedPart hbelow
        have hsearch : searchPages pageAt target (depth + 1) a =
            searchPages pageAt target depth child.2 := by
          rw [searchPages, hpage]
          dsimp only
          rw [selectChild_append hpre hpost]
        rcases ih hsub (Nat.lt_of_succ_lt_succ hdepth) hsortedPart with ⟨_, hall⟩ | hlands
        · exact absurd hchild (not_le_of_gt (hall _ hmem))
        · obtain ⟨l, before, behind, hfound, hland⟩ := hlands
          apply Or.inr
          refine ⟨l, parts₀.flatten ++ before, behind ++ parts₂.flatten, ?_, ?_, ?_, ?_, ?_⟩
          · rw [hsearch, hfound]
          · simp [hland.split]
          · intro k hk
            rw [List.flatMap_append] at hk
            rcases List.mem_append.mp hk with hk | hk
            · exact le_trans (hbelow k hk _ hmem) hchild
            · exact hland.before k hk
          · intro k hk
            rw [List.flatMap_append] at hk
            rcases List.mem_append.mp hk with hk | hk
            · exact hland.after k hk
            · exact hafter k hk
          · intro _
            exact hland.inside ⟨_, hmem, hchild⟩

/-- Only one leaf holds the last key at or before the target. -/
theorem Lands.unique {target : K} {leaves : List L} {l l' : L} {pre pre' post post' : List L}
    (h : Lands keys target leaves l pre post) (h' : Lands keys target leaves l' pre' post')
    (hsome : ∃ k ∈ leaves.flatMap keys, k ≤ target) : l = l' := by
  obtain ⟨k, hk, hle⟩ := h.inside hsome
  obtain ⟨k', hk', hle'⟩ := h'.inside hsome
  have hsplit := h.split.symm.trans h'.split
  rcases List.append_eq_append_iff.mp hsplit with ⟨mid, rfl, hmid⟩ | ⟨mid, rfl, hmid⟩
  · cases mid with
    | nil =>
        rw [List.nil_append] at hmid
        exact (List.cons.inj hmid).1
    | cons x mid =>
        rw [List.cons_append] at hmid
        obtain ⟨rfl, rfl⟩ := List.cons.inj hmid
        exact absurd hle' (not_le_of_gt (h.after k' (by simp [hk'])))
  · cases mid with
    | nil =>
        rw [List.nil_append] at hmid
        exact (List.cons.inj hmid).1.symm
    | cons x mid =>
        rw [List.cons_append] at hmid
        obtain ⟨rfl, rfl⟩ := List.cons.inj hmid
        exact absurd hle (not_le_of_gt (h'.after k (by simp [hk])))

end Lands
end Rotshield.Lib
