/-! Binary search over a list by position: the loop halves a range and keeps its base. -/
namespace Rotshield.Lib

variable {α : Type}

/-- The base moves to the middle unless the element there is above. -/
def nextBase (f : α → Ordering) (l : List α) (base mid : Nat) : Nat :=
  match (l[mid]?).map f with
  | some .gt => base
  | _ => mid

/-- The loop: `size` elements from `base` are left; `size` fuel is enough. -/
def searchBase (f : α → Ordering) (l : List α) : Nat → Nat → Nat → Nat
  | 0, base, _ => base
  | fuel + 1, base, size =>
      if size ≤ 1 then base
      else searchBase f l fuel (nextBase f l base (base + size / 2)) (size - size / 2)

/-- The position of an element that compares equal, or where one would be inserted. -/
def binarySearchBy (f : α → Ordering) (l : List α) : Except Nat Nat :=
  if l.length = 0 then .error 0
  else
    let base := searchBase f l l.length 0 l.length
    match (l[base]?).map f with
    | some .eq => .ok base
    | some .lt => .error (base + 1)
    | _ => .error base

def below (p : α → Bool) (x : α) : Ordering := if p x then .lt else .gt

/-- How many elements satisfy a predicate that holds of a prefix. -/
def partitionPoint (p : α → Bool) (l : List α) : Nat :=
  match binarySearchBy (below p) l with
  | .ok i => i
  | .error i => i

theorem searchBase_lt (f : α → Ordering) (l : List α) (fuel : Nat) {base size : Nat}
    (hsize : 0 < size) (hend : base + size ≤ l.length) : searchBase f l fuel base size < l.length := by
  induction fuel generalizing base size with
  | zero =>
      rw [searchBase]
      omega
  | succ fuel ih =>
      rw [searchBase]
      split
      case isTrue => omega
      case isFalse hlong =>
          apply ih (by omega)
          unfold nextBase
          split <;> omega

theorem partitionPoint_eq_base (p : α → Bool) {l : List α} (hnil : l ≠ []) :
    partitionPoint p l = searchBase (below p) l l.length 0 l.length +
      if (l[searchBase (below p) l l.length 0 l.length]?).any p then 1 else 0 := by
  have hpos := List.length_pos_iff.mpr hnil
  have hbase := searchBase_lt (below p) l l.length hpos (by omega : 0 + l.length ≤ l.length)
  unfold partitionPoint binarySearchBy
  rw [if_neg (by omega)]
  simp only [List.getElem?_eq_getElem hbase, Option.map_some, below, Option.any_some]
  cases p l[searchBase (below p) l l.length 0 l.length] <;> rfl

theorem searchBase_map {β : Type} (f : β → Ordering) (g : α → β) (l : List α) (fuel base size : Nat) :
    searchBase f (l.map g) fuel base size = searchBase (fun x => f (g x)) l fuel base size := by
  induction fuel generalizing base size with
  | zero => rfl
  | succ fuel ih =>
      have hnext : ∀ mid, nextBase f (l.map g) base mid = nextBase (fun x => f (g x)) l base mid := by
        intro mid
        unfold nextBase
        rw [List.getElem?_map, Option.map_map]
        rfl
      rw [searchBase, searchBase, hnext, ih]

theorem partitionPoint_map {β : Type} (p : β → Bool) (g : α → β) (l : List α) :
    partitionPoint p (l.map g) = partitionPoint (fun x => p (g x)) l := by
  unfold partitionPoint binarySearchBy
  simp only [List.length_map, searchBase_map, List.getElem?_map, Option.map_map]
  rfl

section Split
variable {p : α → Bool} {pre post : List α}

/-- Where the predicate holds of `pre` and of nothing in `post`, the element at `i` says on
which side `i` is. -/
theorem any_getElem?_append (hpre : ∀ x ∈ pre, p x = true) (hpost : ∀ x ∈ post, p x = false)
    (i : Nat) : ((pre ++ post)[i]?).any p = decide (i < pre.length) := by
  by_cases hi : i < pre.length
  · rw [List.getElem?_append_left hi, List.getElem?_eq_getElem hi, Option.any_some,
      hpre _ (List.getElem_mem hi), decide_eq_true hi]
  · rw [List.getElem?_append_right (by omega), decide_eq_false hi]
    cases hget : post[i - pre.length]? with
    | none => rfl
    | some x => exact hpost x (List.mem_of_getElem? hget)

/-- The loop keeps the border: it is at most `base + size`, and the element at `base` is
before it unless `base` never moved. -/
theorem searchBase_border (hpre : ∀ x ∈ pre, p x = true) (hpost : ∀ x ∈ post, p x = false)
    (fuel : Nat) {base size : Nat} (hfuel : size ≤ fuel) (hsize : 0 < size)
    (hend : base + size ≤ (pre ++ post).length) (hborder : pre.length ≤ base + size)
    (hmoved : base = 0 ∨ base < pre.length) :
    let b := searchBase (below p) (pre ++ post) fuel base size
    pre.length ≤ b + 1 ∧ (b = 0 ∨ b < pre.length) := by
  induction fuel generalizing base size with
  | zero => omega
  | succ fuel ih =>
      rw [searchBase]
      split
      case isTrue hshort => exact ⟨by omega, hmoved⟩
      case isFalse hlong =>
          have hmid : base + size / 2 < (pre ++ post).length := by omega
          have hside := any_getElem?_append hpre hpost (base + size / 2)
          rw [List.getElem?_eq_getElem hmid, Option.any_some] at hside
          unfold nextBase
          rw [List.getElem?_eq_getElem hmid]
          simp only [Option.map_some, below, hside, decide_eq_true_eq]
          by_cases hin : base + size / 2 < pre.length
          · simp only [if_pos hin]
            exact ih (by omega) (by omega) (by omega) (by omega) (.inr hin)
          · simp only [if_neg hin]
            exact ih (by omega) (by omega) (by omega) (by omega) hmoved

theorem partitionPoint_append (hpre : ∀ x ∈ pre, p x = true) (hpost : ∀ x ∈ post, p x = false) :
    partitionPoint p (pre ++ post) = pre.length := by
  by_cases hnil : pre ++ post = []
  · obtain ⟨rfl, rfl⟩ := List.append_eq_nil_iff.mp hnil
    rfl
  · have hpos := List.length_pos_iff.mpr hnil
    have hborder := searchBase_border hpre hpost (pre ++ post).length (Nat.le_refl _) hpos
      (by omega : 0 + (pre ++ post).length ≤ (pre ++ post).length)
      (by rw [List.length_append]; omega) (.inl rfl)
    rw [partitionPoint_eq_base p hnil, any_getElem?_append hpre hpost]
    dsimp only at hborder
    by_cases hin : searchBase (below p) (pre ++ post) (pre ++ post).length 0
        (pre ++ post).length < pre.length
    · rw [if_pos (decide_eq_true hin)]
      omega
    · rw [if_neg (by simpa using hin)]
      omega

end Split

section Monotone
variable {f : α → Ordering} {l : List α}

/-- The loop tests only whether an element is above. -/
theorem searchBase_below (f : α → Ordering) (l : List α) (fuel base size : Nat) :
    searchBase f l fuel base size = searchBase (below fun x => f x != .gt) l fuel base size := by
  induction fuel generalizing base size with
  | zero => rfl
  | succ fuel ih =>
      have hnext : ∀ mid, nextBase f l base mid = nextBase (below fun x => f x != .gt) l base mid := by
        intro mid
        unfold nextBase
        cases hget : l[mid]? with
        | none => rfl
        | some x => cases hx : f x <;> simp [below, hx]
      rw [searchBase, searchBase, hnext, ih]

/-- What is found compares equal. -/
theorem binarySearchBy_ok {i : Nat} (h : binarySearchBy f l = .ok i) :
    ∃ x, l[i]? = some x ∧ f x = .eq := by
  unfold binarySearchBy at h
  split at h
  · cases h
  · dsimp only at h
    split at h
    case h_1 hbase =>
        cases h
        obtain ⟨x, hx, heq⟩ := Option.map_eq_some_iff.mp hbase
        exact ⟨x, hx, heq⟩
    case h_2 => cases h
    case h_3 => cases h

/-- A predicate that holds of all that is before an element it holds of splits the list. -/
theorem exists_pre_post {p : α → Bool} (h : l.Pairwise fun a b => p b = true → p a = true) :
    ∃ pre post, l = pre ++ post ∧ (∀ x ∈ pre, p x = true) ∧ ∀ x ∈ post, p x = false := by
  induction l with
  | nil => exact ⟨[], [], rfl, nofun, nofun⟩
  | cons a l ih =>
      obtain ⟨ha, hl⟩ := List.pairwise_cons.mp h
      cases hp : p a with
      | false =>
          refine ⟨[], a :: l, rfl, nofun, ?_⟩
          intro x hx
          rcases List.mem_cons.mp hx with rfl | hx
          · exact hp
          · apply Bool.eq_false_iff.mpr
            intro htrue
            rw [ha x hx htrue] at hp
            cases hp
      | true =>
          obtain ⟨pre, post, rfl, hpre, hpost⟩ := ih hl
          refine ⟨a :: pre, post, rfl, ?_, hpost⟩
          intro x hx
          rcases List.mem_cons.mp hx with rfl | hx
          · exact hp
          · exact hpre x hx

/-- Where what is below comes first and what is above last, an element that compares equal is
found. -/
theorem binarySearchBy_error {i : Nat}
    (hmono : l.Pairwise fun a b => (f b = .lt → f a = .lt) ∧ (f a = .gt → f b = .gt))
    (h : binarySearchBy f l = .error i) : ∀ x ∈ l, f x ≠ .eq := by
  intro x hx heq
  have hbelow : l.Pairwise fun a b => (f b != .gt) = true → (f a != .gt) = true := by
    apply hmono.imp
    intro a b hab hb
    simp only [bne_iff_ne, ne_eq] at hb ⊢
    exact fun ha => hb (hab.2 ha)
  obtain ⟨pre, post, hl, hpre, hpost⟩ := exists_pre_post hbelow
  have hin : x ∈ pre := by
    rw [hl] at hx
    rcases List.mem_append.mp hx with hx | hx
    · exact hx
    · have hnot := hpost x hx
      rw [heq] at hnot
      cases hnot
  have hpos := List.length_pos_of_mem hin
  have hlen : 0 < (pre ++ post).length := by
    rw [List.length_append]
    omega
  have hborder := searchBase_border hpre hpost (pre ++ post).length (Nat.le_refl _) hlen
    (by omega : 0 + (pre ++ post).length ≤ (pre ++ post).length)
    (by rw [List.length_append]; omega) (.inl rfl)
  rw [← hl, ← searchBase_below] at hborder
  dsimp only at hborder
  -- The search ends at the last element that is not above.
  have hbase : searchBase f l l.length 0 l.length = pre.length - 1 := by omega
  have hlast : l[pre.length - 1]? = some pre[pre.length - 1] := by
    rw [hl, List.getElem?_append_left (by omega), List.getElem?_eq_getElem (by omega)]
  unfold binarySearchBy at h
  rw [if_neg (by rw [hl]; omega), hbase] at h
  simp only [hlast, Option.map_some] at h
  split at h
  case h_1 => cases h
  case h_2 hlt =>
      obtain ⟨j, hj, rfl⟩ := List.getElem_of_mem hin
      rcases Nat.lt_or_eq_of_le (Nat.le_sub_one_of_lt hj) with hlt' | rfl
      · have hpair := (hl ▸ hmono : (pre ++ post).Pairwise _)
        have hbefore := List.pairwise_iff_getElem.mp (List.pairwise_append.mp hpair).1 j _ hj
          (by omega) hlt'
        rw [hbefore.1 (Option.some.inj hlt)] at heq
        cases heq
      · rw [Option.some.inj hlt] at heq
        cases heq
  case h_3 hne₁ hne₂ =>
      have hnot := hpre _ (List.getElem_mem (by omega : pre.length - 1 < pre.length))
      simp only [bne_iff_ne, ne_eq] at hnot
      cases hcmp : f pre[pre.length - 1] with
      | lt => exact hne₂ (by rw [hcmp])
      | eq => exact hne₁ (by rw [hcmp])
      | gt => exact hnot hcmp

end Monotone
end Rotshield.Lib
