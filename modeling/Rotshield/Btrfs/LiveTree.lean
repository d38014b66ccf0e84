import Rotshield.Btrfs.HealthyTree
import Rotshield.Btrfs.Walk

/-! A tree under its references, and the leaf a walk comes to when some of its nodes were lost. -/
namespace Rotshield.Btrfs
open Lib (Page HeadsTree Leads)

/-- A node with the references to its children. -/
def Node.refPage : Node → Page NodeRef Key Leaf
  | .leaf l => .leaf l
  | .internal node => .inner (node.ptrs.map fun ptr => (ptr.key, NodeRef.child node.header ptr))

section Pages
variable (reader : FsReader Exec) (chunkMap : ChunkMap)

/-- The valid node at a reference, as a page of a search tree. -/
def refPage (ref : NodeRef) : Option (Page NodeRef Key Leaf) :=
  match refRead reader chunkMap ref with
  | .ok (.ok res) =>
      if res.allMirrorsFailed || res.generationMismatch then none else res.node.map Node.refPage
  | _ => none

variable {reader chunkMap}

theorem refPage_eq_some {ref : NodeRef} {page : Page NodeRef Key Leaf}
    (h : refPage reader chunkMap ref = some page) :
    ∃ node, GoodNode reader chunkMap ref node ∧ node.refPage = page := by
  unfold refPage at h
  split at h
  case h_2 => cases h
  case h_1 res hread =>
      split at h
      case isTrue => cases h
      case isFalse hflags =>
          simp only [Bool.or_eq_true, not_or, Bool.not_eq_true] at hflags
          obtain ⟨node, hnode, hpage⟩ := Option.map_eq_some_iff.mp h
          exact ⟨node, ⟨res, hread, hflags.1, hflags.2, hnode⟩, hpage⟩

theorem refPage_of_goodNode {ref : NodeRef} {node : Node}
    (h : GoodNode reader chunkMap ref node) : refPage reader chunkMap ref = some node.refPage := by
  obtain ⟨res, hread, hfailed, hstale, hnode⟩ := h
  unfold refPage
  rw [hread]
  dsimp only
  rw [hfailed, hstale, hnode]
  rfl

theorem goodNode_leaf {ref : NodeRef} {l : Leaf} (h : refPage reader chunkMap ref = some (.leaf l)) :
    GoodNode reader chunkMap ref (.leaf l) := by
  obtain ⟨node, hgood, hpage⟩ := refPage_eq_some h
  cases node with
  | leaf l' =>
      cases hpage
      exact hgood
  | internal node => cases hpage

theorem goodNode_inner {ref : NodeRef} {children : List (Key × NodeRef)}
    (h : refPage reader chunkMap ref = some (.inner children)) :
    ∃ node, GoodNode reader chunkMap ref (.internal node) ∧
      children = node.ptrs.map fun ptr => (ptr.key, NodeRef.child node.header ptr) := by
  obtain ⟨node, hgood, hpage⟩ := refPage_eq_some h
  cases node with
  | leaf l => cases hpage
  | internal node =>
      cases hpage
      exact ⟨node, hgood, rfl⟩

theorem GoodNode.unique {ref : NodeRef} {node node' : Node}
    (h : GoodNode reader chunkMap ref node) (h' : GoodNode reader chunkMap ref node') :
    node = node' := by
  obtain ⟨res, hread, _, _, hnode⟩ := h
  obtain ⟨res', hread', _, _, hnode'⟩ := h'
  rw [hread] at hread'
  cases hread'
  rw [hnode] at hnode'
  exact Option.some.inj hnode'

theorem GoodNode.congr {after : FsReader Exec} {ref : NodeRef} {node : Node}
    (hsame : refRead after chunkMap ref = refRead reader chunkMap ref)
    (h : GoodNode reader chunkMap ref node) : GoodNode after chunkMap ref node := by
  obtain ⟨res, hread, hrest⟩ := h
  exact ⟨res, hsame.trans hread, hrest⟩

end Pages

theorem pruned_eq_false {keyLo keyHi childLo : Key} {childHi : Option Key}
    (hlow : ∀ h ∈ childHi, ¬h ≤ keyLo) (hhigh : ¬keyHi ≤ childLo) :
    pruned (some (keyLo, keyHi)) childLo childHi = false := by
  unfold pruned
  rw [Bool.or_eq_false_iff]
  constructor
  · cases childHi with
    | none => rfl
    | some h =>
        rw [Option.any_some]
        exact decide_eq_false (hlow h rfl)
  · exact decide_eq_false hhigh

theorem mem_childRefs {bounds : Option (Key × Key)} {parent : Header} {pre post : List KeyPtr}
    {ptr : KeyPtr} (h : pruned bounds ptr.key (post.head?.map (·.key)) = false) :
    NodeRef.child parent ptr ∈ childRefs bounds parent (pre ++ ptr :: post) := by
  induction pre with
  | nil =>
      rw [List.nil_append, childRefs, h]
      exact List.mem_cons_self
  | cons p pre ih =>
      rw [List.cons_append, childRefs]
      split
      · exact ih
      · exact List.mem_cons_of_mem _ ih

theorem childRefs_none (parent : Header) (ptrs : List KeyPtr) :
    childRefs none parent ptrs = ptrs.map (NodeRef.child parent) := by
  induction ptrs with
  | nil => rfl
  | cons ptr ptrs ih =>
      rw [childRefs, if_neg (by exact Bool.false_ne_true), ih]
      rfl

section Path
variable {before after : FsReader Exec} {chunkMap : ChunkMap} {bounds : Option (Key × Key)}

/-- The child that holds a key is one the walk goes into, where no child holding it is pruned. -/
theorem exists_childRef {node : InternalNode} {parts : List (List Leaf)}
    {R : Key × NodeRef → List Leaf → Prop}
    (hR : ∀ c part, R c part → (part.flatMap Leaf.keys).head? = some c.1)
    (hparts : List.Forall₂ R
      (node.ptrs.map fun ptr => (ptr.key, NodeRef.child node.header ptr)) parts)
    (hsorted : (parts.flatten.flatMap Leaf.keys).Pairwise (· < ·)) {l : Leaf}
    (hl : l ∈ parts.flatten) {k : Key} (hk : k ∈ l.keys)
    (hkept : ∀ lo hi, lo ≤ k → (∀ h ∈ hi, k < h) → pruned bounds lo hi = false) :
    ∃ child part, R child part ∧ l ∈ part ∧ (part.flatMap Leaf.keys).Pairwise (· < ·) ∧
      child.2 ∈ childRefs bounds node.header node.ptrs ∧
      child.2 ∈ childRefs none node.header node.ptrs := by
  obtain ⟨pre, child, post, part, hsplit, hchild, hl, hsortedPart, hle, hlt⟩ :=
    Lib.exists_child hR hparts hsorted hl hk
  obtain ⟨pre', rest, hptrs, rfl, hptr⟩ := List.map_eq_append_iff.mp hsplit
  obtain ⟨ptr, post', rfl, rfl, rfl⟩ := List.map_eq_cons_iff.mp hptr
  have hopen : pruned bounds ptr.key (post'.head?.map (·.key)) = false := by
    apply hkept _ _ hle
    intro next hnext
    obtain ⟨ptr', hhead, rfl⟩ := Option.map_eq_some_iff.mp hnext
    have hmem : ptr' ∈ post' := List.mem_of_mem_head? hhead
    exact hlt (ptr'.key, NodeRef.child node.header ptr') (List.mem_map_of_mem hmem)
  refine ⟨_, part, hchild, hl, hsortedPart, ?_, ?_⟩
  · rw [hptrs]
    exact mem_childRefs hopen
  · rw [hptrs]
    exact mem_childRefs rfl

/-- Where every node of the tree reads as it did or fails, the walk comes to the leaf that
holds the key, or to a reference that fails. -/
theorem walk_reaches {height : Nat} {a : NodeRef} {leaves : List Leaf}
    (htree : HeadsTree (refPage before chunkMap) Leaf.keys height a leaves)
    (hsorted : (leaves.flatMap Leaf.keys).Pairwise (· < ·)) {l : Leaf} (hl : l ∈ leaves) {k : Key}
    (hk : k ∈ l.keys) (hkept : ∀ lo hi, lo ≤ k → (∀ h ∈ hi, k < h) → pruned bounds lo hi = false)
    (hread : ∀ ref, Leads (ChildRef before chunkMap none) a ref →
      refRead after chunkMap ref = refRead before chunkMap ref ∨
        ∃ kind, FailsAs after chunkMap ref kind) :
    ∃ ref, Leads (ChildRef after chunkMap bounds) a ref ∧
      ((∃ kind, FailsAs after chunkMap ref kind) ∨ GoodNode after chunkMap ref (.leaf l)) := by
  induction height generalizing a leaves with
  | zero =>
      obtain ⟨l', hpage, rfl⟩ := htree
      obtain rfl := List.mem_singleton.mp hl
      rcases hread a (.refl a) with hsame | hfails
      · exact ⟨a, .refl a, .inr ((goodNode_leaf hpage).congr hsame)⟩
      · exact ⟨a, .refl a, .inl hfails⟩
  | succ height ih =>
      obtain ⟨children, parts, hpage, _, rfl, hparts⟩ := htree
      obtain ⟨node, hgood, rfl⟩ := goodNode_inner hpage
      rcases hread a (.refl a) with hsame | hfails
      case inr => exact ⟨a, .refl a, .inl hfails⟩
      obtain ⟨child, part, ⟨hsub, _⟩, hl, hsortedPart, hgo, hin⟩ :=
        exists_childRef (fun _ _ h => h.2) hparts hsorted hl hk hkept
      have hlater : ∀ ref, Leads (ChildRef before chunkMap none) child.2 ref →
          refRead after chunkMap ref = refRead before chunkMap ref ∨
            ∃ kind, FailsAs after chunkMap ref kind := by
        intro ref hleads
        exact hread ref (.step ⟨node, hgood, hin⟩ hleads)
      obtain ⟨ref, hleads, hend⟩ := ih hsub hsortedPart hl hlater
      exact ⟨ref, .step ⟨node, hgood.congr hsame, hgo⟩ hleads, hend⟩

end Path
end Rotshield.Btrfs
