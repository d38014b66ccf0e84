import Mathlib.Data.List.Pairwise
import Rotshield.Btrfs.Reconfirm
import Rotshield.Lib.SearchTree

/-! Healthy trees: what a search for a key finds in one. -/
namespace Rotshield.Btrfs
open Lib (Page HeadsTree Lands searchPages selectChild partitionPoint)

section Pages
variable {reader : FsReader Exec} {chunkMap : ChunkMap}

def KeyPtr.child (p : KeyPtr) : Key × UInt64 := (p.key, p.blockptr)

def Node.page : Node → Page UInt64 Key Leaf
  | .leaf l => .leaf l
  | .internal node => .inner (node.ptrs.map KeyPtr.child)

/-- The valid node at an address, as a page of a search tree. -/
def pageAt (reader : FsReader Exec) (chunkMap : ChunkMap) (addr : UInt64) :
    Option (Page UInt64 Key Leaf) :=
  match nodeAt reader chunkMap addr with
  | .ok (.ok res) =>
      if res.allMirrorsFailed || res.generationMismatch then none else res.node.map Node.page
  | _ => none

theorem pageAt_eq_some {addr : UInt64} {page : Page UInt64 Key Leaf}
    (h : pageAt reader chunkMap addr = some page) :
    ∃ res node, nodeAt reader chunkMap addr = .ok (.ok res) ∧ res.allMirrorsFailed = false ∧
      res.generationMismatch = false ∧ res.node = some node ∧ node.page = page := by
  unfold pageAt at h
  split at h
  case h_2 => cases h
  case h_1 res hnode =>
      split at h
      case isTrue => cases h
      case isFalse hflags =>
          simp only [Bool.or_eq_true, not_or, Bool.not_eq_true] at hflags
          obtain ⟨node, hres, hpage⟩ := Option.map_eq_some_iff.mp h
          exact ⟨res, node, hnode, hflags.1, hflags.2, hres, hpage⟩

theorem pageAt_of_nodeAt {addr : UInt64} {node : Node} {mirrors : Bool}
    (h : nodeAt reader chunkMap addr = .ok (.ok ⟨some node, false, false, mirrors⟩)) :
    pageAt reader chunkMap addr = some node.page := by
  unfold pageAt
  rw [h]
  rfl

theorem selectChild_child (target : Key) (ptrs : List KeyPtr) :
    selectChild target (ptrs.map KeyPtr.child) = (childFor target ptrs).map KeyPtr.child := by
  have hle : (fun ptr : KeyPtr => decide (ptr.child.1 ≤ target)) =
      fun ptr => keyLeq ptr.key target := by
    funext ptr
    rw [Bool.eq_iff_iff, keyLeq_iff, decide_eq_true_eq]
    rfl
  unfold selectChild childFor
  rw [Lib.partitionPoint_map, hle]
  cases Lib.partitionPoint (fun ptr => keyLeq ptr.key target) ptrs with
  | zero => rfl
  | succ count => exact List.getElem?_map

def Descent.ofSearch : Option Leaf → Descent
  | none => .before
  | some l => .leaf l

/-- The search of the code follows the search over pages wherever that one ends. -/
theorem descend_eq_search {target : Key} {depth : Nat} {addr : UInt64} {found : Option Leaf}
    (h : searchPages (pageAt reader chunkMap) target depth addr = some found) :
    descend reader chunkMap target depth addr = .ok (.ofSearch found) := by
  induction depth generalizing addr with
  | zero => cases h
  | succ depth ih =>
      rw [searchPages] at h
      cases hpage : pageAt reader chunkMap addr with
      | none => rw [hpage] at h; cases h
      | some page =>
          rw [hpage] at h
          obtain ⟨res, node, hnode, hread, _, hres, rfl⟩ := pageAt_eq_some hpage
          rw [descend_succ, visit_eq, hnode]
          simp only [Except.bind, hread, Bool.false_eq_true, if_false, hres]
          cases node with
          | leaf leaf =>
              cases h
              rfl
          | internal node =>
              simp only [Node.page, selectChild_child] at h
              cases hchild : childFor target node.ptrs with
              | none =>
                  rw [hchild] at h
                  cases h
                  simp only [hchild]
                  rfl
              | some ptr =>
                  rw [hchild] at h
                  simp only [hchild]
                  exact ih h

end Pages

namespace Leaf

def keys (leaf : Leaf) : List Key := leaf.slots.map (·.key)

/-- The items of a leaf, each with its data. -/
def entries (leaf : Leaf) : List (Key × Bytes) :=
  leaf.slots.map fun slot => (slot.key, (leaf.dataOf slot).toOption.getD [])

theorem keys_eq (leaf : Leaf) : leaf.keys = leaf.entries.map Prod.fst := by
  unfold keys entries
  rw [List.map_map]
  rfl

end Leaf

/-- Half-open ranges of addresses. -/
def Covers (start len x : Nat) : Prop := start ≤ x ∧ x < start + len

/-- Every node is readable and valid, keys are sorted, the levels are within the code's, and
item data lies inside its leaf. -/
structure HealthyTree (reader : FsReader Exec) (chunkMap : ChunkMap) (root : UInt64) where
  height : Nat
  leaves : List Leaf
  heads : HeadsTree (pageAt reader chunkMap) Leaf.keys height root leaves
  levels : height < maxDepth
  sorted : (leaves.flatMap Leaf.keys).Pairwise (· ≤ ·)
  data : ∀ leaf ∈ leaves, ∀ slot ∈ leaf.slots, ∃ bytes, leaf.dataOf slot = .ok bytes

namespace HealthyTree
variable {reader : FsReader Exec} {chunkMap : ChunkMap} {root : UInt64}

def entries (t : HealthyTree reader chunkMap root) : List (Key × Bytes) :=
  t.leaves.flatMap Leaf.entries

/-- The entry is in the leaf that holds the last key at or before the target. -/
def InLastLeaf (t : HealthyTree reader chunkMap root) (target : Key) (e : Key × Bytes) : Prop :=
  ∃ leaf pre post, Lands Leaf.keys target t.leaves leaf pre post ∧ e ∈ leaf.entries

/-- The entry is the last one at or before the target. -/
def IsLast (t : HealthyTree reader chunkMap root) (target : Key) (e : Key × Bytes) : Prop :=
  e.1 ≤ target ∧ ∃ pre post, t.entries = pre ++ e :: post ∧ ∀ x ∈ post, target < x.1

variable (t : HealthyTree reader chunkMap root)

theorem keys_eq : t.leaves.flatMap Leaf.keys = t.entries.map Prod.fst := by
  unfold entries
  rw [List.map_flatMap]
  congr 1
  funext leaf
  exact leaf.keys_eq

theorem entries_sorted : t.entries.Pairwise fun a b => a.1 ≤ b.1 := by
  have hsorted := t.sorted
  rw [t.keys_eq, List.pairwise_map] at hsorted
  exact hsorted

theorem search (target : Key) :
    (descend reader chunkMap target maxDepth root = .ok .before ∧
      ∀ e ∈ t.entries, target < e.1) ∨
    ∃ leaf pre post, descend reader chunkMap target maxDepth root = .ok (.leaf leaf) ∧
      Lands Leaf.keys target t.leaves leaf pre post := by
  rcases Lib.searchPages_lands target t.height t.heads t.levels t.sorted with
    ⟨hsearch, hall⟩ | ⟨leaf, pre, post, hsearch, hlands⟩
  · apply Or.inl
    refine ⟨descend_eq_search hsearch, fun e he => hall e.1 ?_⟩
    rw [t.keys_eq]
    exact List.mem_map_of_mem he
  · exact .inr ⟨leaf, pre, post, descend_eq_search hsearch, hlands⟩

theorem leaf_mem {target : Key} {leaf : Leaf} {pre post : List Leaf}
    (h : Lands Leaf.keys target t.leaves leaf pre post) : leaf ∈ t.leaves := by
  rw [h.split]
  exact List.mem_append_right pre List.mem_cons_self

theorem mem_entries {leaf : Leaf} (hleaf : leaf ∈ t.leaves) {e : Key × Bytes}
    (he : e ∈ leaf.entries) : e ∈ t.entries := List.mem_flatMap.mpr ⟨leaf, hleaf, he⟩

theorem leaf_sorted {leaf : Leaf} (hleaf : leaf ∈ t.leaves) :
    leaf.slots.Pairwise fun a b => a.key ≤ b.key := by
  obtain ⟨pre, post, hsplit⟩ := List.append_of_mem hleaf
  have hsorted := t.sorted
  rw [hsplit, List.flatMap_append, List.flatMap_cons] at hsorted
  have hkeys := (List.pairwise_append.mp (List.pairwise_append.mp hsorted).2.1).1
  exact List.pairwise_map.mp hkeys

/-- The data of a slot is what its entry holds. -/
theorem dataOf_eq {leaf : Leaf} (hleaf : leaf ∈ t.leaves) {slot : LeafItemSlot}
    (hslot : slot ∈ leaf.slots) :
    ∃ bytes, leaf.dataOf slot = .ok bytes ∧ (slot.key, bytes) ∈ leaf.entries := by
  obtain ⟨bytes, hdata⟩ := t.data leaf hleaf slot hslot
  refine ⟨bytes, hdata, List.mem_map.mpr ⟨slot, hslot, ?_⟩⟩
  rw [hdata]
  rfl

end HealthyTree

/-- In a sorted leaf the slots up to the target are a prefix. -/
theorem slotsUpTo_split {leaf : Leaf} (hsorted : leaf.slots.Pairwise fun a b => a.key ≤ b.key)
    (target : Key) : ∃ post, leaf.slots = slotsUpTo target leaf ++ post ∧
      (∀ s ∈ slotsUpTo target leaf, s.key ≤ target) ∧ ∀ s ∈ post, target < s.key := by
  obtain ⟨pre, post, hsplit, hpre, hpost⟩ :=
    Lib.exists_split (fun s : LeafItemSlot => s.key) hsorted target
  have hle : (fun slot : LeafItemSlot => keyLeq slot.key target) =
      fun slot => decide (slot.key ≤ target) := by
    funext slot
    rw [Bool.eq_iff_iff, keyLeq_iff, decide_eq_true_eq]
  have hupTo : slotsUpTo target leaf = pre := by
    unfold slotsUpTo
    rw [hle, hsplit, Lib.partitionPoint_split _ hpre hpost, List.take_left]
  rw [hupTo]
  exact ⟨post, hsplit, hpre, hpost⟩

/-- Two entries that cover one address, where no two share any, are the same. -/
theorem eq_of_disjoint {α : Type} {covers : α → Nat → Prop} {l : List α}
    (h : l.Pairwise fun a b => ∀ x, covers a x → ¬covers b x) {a b : α} (ha : a ∈ l) (hb : b ∈ l)
    {x : Nat} (hcova : covers a x) (hcovb : covers b x) : a = b := by
  by_contra hne
  have hsymm : Std.Symm fun a b => ∀ x, covers a x → ¬covers b x :=
    ⟨fun _ _ h x hb ha => h x ha hb⟩
  exact h.forall ha hb hne x hcova hcovb

namespace HealthyTree
variable {reader : FsReader Exec} {chunkMap : ChunkMap} {root : UInt64}
  (t : HealthyTree reader chunkMap root)

/-- The slots up to the target of the leaf the search lands in end in the last entry. -/
theorem isLast_of_getLast {target : Key} {leaf : Leaf} {pre post : List Leaf}
    (hlands : Lands Leaf.keys target t.leaves leaf pre post) {slot : LeafItemSlot}
    (hlast : (slotsUpTo target leaf).getLast? = some slot) :
    ∃ bytes, leaf.dataOf slot = .ok bytes ∧ (slot.key, bytes) ∈ t.entries ∧
      t.IsLast target (slot.key, bytes) := by
  have hleaf := t.leaf_mem hlands
  obtain ⟨behind, hsplit, hupTo, hafter⟩ := slotsUpTo_split (t.leaf_sorted hleaf) target
  obtain ⟨before, hbefore⟩ := List.getLast?_eq_some_iff.mp hlast
  have hin : slot ∈ slotsUpTo target leaf := List.mem_of_getLast? hlast
  have hslot : slot ∈ leaf.slots := by
    rw [hsplit]
    exact List.mem_append_left behind hin
  obtain ⟨bytes, hdata, hentry⟩ := t.dataOf_eq hleaf hslot
  refine ⟨bytes, hdata, t.mem_entries hleaf hentry, hupTo slot hin, ?_⟩
  let entry : LeafItemSlot → Key × Bytes := fun s => (s.key, (leaf.dataOf s).toOption.getD [])
  have hentryEq : entry slot = (slot.key, bytes) := by
    dsimp only [entry]
    rw [hdata]
    rfl
  refine ⟨pre.flatMap Leaf.entries ++ before.map entry,
    behind.map entry ++ post.flatMap Leaf.entries, ?_, ?_⟩
  · unfold entries
    rw [hlands.split, List.flatMap_append, List.flatMap_cons]
    have hleafEntries : leaf.entries = before.map entry ++ entry slot :: behind.map entry := by
      unfold Leaf.entries
      rw [hsplit, hbefore]
      simp [entry]
    rw [hleafEntries, hentryEq]
    simp
  · intro x hx
    rcases List.mem_append.mp hx with hx | hx
    · obtain ⟨s, hs, rfl⟩ := List.mem_map.mp hx
      exact hafter s hs
    · obtain ⟨l, hl, hx⟩ := List.mem_flatMap.mp hx
      apply hlands.after
      refine List.mem_flatMap.mpr ⟨l, hl, ?_⟩
      rw [l.keys_eq]
      exact List.mem_map_of_mem hx

theorem IsLast.unique {t : HealthyTree reader chunkMap root} {target : Key} {a b : Key × Bytes}
    (ha : t.IsLast target a) (hb : t.IsLast target b) : a = b := by
  obtain ⟨hlea, pre, post, hsplit, hafter⟩ := ha
  obtain ⟨hleb, pre', post', hsplit', hafter'⟩ := hb
  rcases List.append_eq_append_iff.mp (hsplit.symm.trans hsplit') with
    ⟨mid, rfl, hmid⟩ | ⟨mid, rfl, hmid⟩
  · cases mid with
    | nil => exact (List.cons.inj hmid).1
    | cons x mid =>
        obtain ⟨rfl, rfl⟩ := List.cons.inj hmid
        exact absurd hleb (not_le_of_gt (hafter b (by simp)))
  · cases mid with
    | nil => exact (List.cons.inj hmid).1.symm
    | cons x mid =>
        obtain ⟨rfl, rfl⟩ := List.cons.inj hmid
        exact absurd hlea (not_le_of_gt (hafter' a (by simp)))

end HealthyTree

end Rotshield.Btrfs
