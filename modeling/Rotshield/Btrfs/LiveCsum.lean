import Rotshield.Btrfs.CsumRange

/-! Live transactions rewrite nodes of the CSUM_TREE: when a range reports what it lost. -/
namespace Rotshield.Btrfs
open Lib (HeadsTree Leads)

def Node.header : Node → Header
  | .leaf l => l.header
  | .internal node => node.header

theorem Node.parse_header {buf : Bytes} {node : Node} (h : Node.parse buf = .ok node) :
    Header.parse buf = .ok node.header := by
  unfold Node.parse at h
  cases hhdr : Header.parse buf with
  | error e => rw [hhdr] at h; cases h
  | ok hdr =>
      rw [hhdr] at h
      simp only [bind, Except.bind] at h
      split at h
      · split at h
        case h_1 => cases h
        case h_2 => cases h; rfl
      · split at h
        case h_1 => cases h
        case h_2 => cases h; rfl

section Nodes
variable (image : Image) (config : ReaderConfig) (chunkMap : ChunkMap) (root : UInt64)

/-- The references of a tree, from its root on. -/
abbrev InTree (ref : NodeRef) : Prop := Walked (image.reader config) chunkMap none root ref

/-- These are addresses of nodes of the tree. -/
def NodesOf (nodes : List UInt64) : Prop :=
  ∀ addr ∈ nodes, ∃ ref, InTree image config chunkMap root ref ∧ ref.logical = addr

/-- A node's bytes in the file. -/
def CopyAt (addr : UInt64) (offset : Nat) : Prop :=
  ∃ s ∈ FsReader.nodeStripes chunkMap addr, offset = (config.baseOffset + s.2).toNat

/-- A CSUM_TREE as a filesystem keeps it: valid nodes, keys in strict order, items that end inside
the address space, one parent for each node, and nodes whose copies share no bytes. -/
structure LiveCsumTree (strategy : CsumStrategy) where
  height : Nat
  leaves : List Leaf
  heads : HeadsTree (refPage (image.reader config) chunkMap) Leaf.keys height (.root root) leaves
  sorted : (leaves.flatMap Leaf.keys).Pairwise (· < ·)
  data : ∀ leaf ∈ leaves, ∀ slot ∈ leaf.slots, ∃ bytes, leaf.dataOf slot = .ok bytes
  ends : ∀ leaf ∈ leaves, ∀ e ∈ leaf.entries,
    e.1.offset.toNat + csumSpan strategy e.2 < 2 ^ 64
  /-- No generation is the reserved number that stands for any. -/
  generations : ∀ ref, InTree image config chunkMap root ref → ref.expGen ≠ some genDontCheck
  addresses : ∀ a b, InTree image config chunkMap root a → InTree image config chunkMap root b →
    a.logical = b.logical → a = b
  apart : ∀ a b, InTree image config chunkMap root a → InTree image config chunkMap root b →
    ∀ x y, CopyAt config chunkMap a.logical x → CopyAt config chunkMap b.logical y →
      (a.logical = b.logical ∧ x = y) ∨ x + config.nodeSize ≤ y ∨ y + config.nodeSize ≤ x

variable {image config chunkMap root} {strategy : CsumStrategy}

/-- The tree covers the sector. -/
def LiveCsumTree.Holds (t : LiveCsumTree image config chunkMap root strategy) (sector : UInt64) :
    Prop :=
  ∃ leaf ∈ t.leaves, ∃ e ∈ leaf.entries, ItemHolds strategy e sector

variable (config strategy) in
/-- A valid node of the filesystem at this address, of another generation than this one. -/
def Rewritten (addr gen : UInt64) (buf : Bytes) : Prop :=
  strategy.verifyNodeHeader buf = true ∧ ∃ node, Node.parse buf = .ok node ∧
    node.header.bytenr = addr ∧ config.fsid = some node.header.fsid ∧ node.header.generation ≠ gen

variable (image config chunkMap root strategy) in
/-- A later content of the file, in which these nodes of the tree and no others are rewritten. -/
structure Rewrites (nodes : List UInt64) (later : Image) : Prop where
  kept : ∀ ref, InTree image config chunkMap root ref → ref.logical ∉ nodes →
    copiesOf later config chunkMap ref.logical = copiesOf image config chunkMap ref.logical
  readable : ∀ ref, InTree image config chunkMap root ref → ref.logical ∈ nodes →
    ∃ buf, .ok buf ∈ copiesOf later config chunkMap ref.logical
  rewritten : ∀ ref node, InTree image config chunkMap root ref →
    GoodNode (image.reader config) chunkMap ref node → ref.logical ∈ nodes →
      ∀ buf, .ok buf ∈ copiesOf later config chunkMap ref.logical →
        Rewritten config strategy ref.logical node.header.generation buf

end Nodes

section Tree
variable {image later : Image} {config : ReaderConfig} {chunkMap : ChunkMap} {root : UInt64}
  {strategy : CsumStrategy} {nodes : List UInt64}

theorem refRead_congr (hstrategy : config.strategy = some strategy) {ref : NodeRef}
    (h : copiesOf later config chunkMap ref.logical = copiesOf image config chunkMap ref.logical) :
    refRead (later.reader config) chunkMap ref = refRead (image.reader config) chunkMap ref := by
  unfold refRead
  rw [readNode_eq hstrategy, readNode_eq hstrategy, h]

/-- What a reference of a tree leads to heads a tree. -/
theorem headsTree_leads {reader : FsReader Exec} {height : Nat} {a ref : NodeRef}
    {leaves : List Leaf}
    (htree : HeadsTree (refPage reader chunkMap) Leaf.keys height a leaves)
    (hleads : Leads (ChildRef reader chunkMap none) a ref) :
    ∃ height' leaves', HeadsTree (refPage reader chunkMap) Leaf.keys height' ref leaves' := by
  induction hleads generalizing height leaves with
  | refl r => exact ⟨height, leaves, htree⟩
  | @step r c t hchild _ ih =>
      obtain ⟨node, hgood, hmem⟩ := hchild
      cases height with
      | zero =>
          obtain ⟨l, hpage, _⟩ := htree
          cases (goodNode_leaf hpage).unique hgood
      | succ height =>
          obtain ⟨children, parts, hpage, _, _, hparts⟩ := htree
          obtain ⟨node', hgood', rfl⟩ := goodNode_inner hpage
          cases hgood.unique hgood'
          rw [childRefs_none] at hmem
          obtain ⟨ptr, hptr, rfl⟩ := List.mem_map.mp hmem
          obtain ⟨pre, post, hsplit⟩ := List.append_of_mem hptr
          rw [hsplit, List.map_append, List.map_cons] at hparts
          obtain ⟨_, _, _, _, hpost⟩ := Lib.forall₂_split hparts
          cases hpost with
          | cons hhead _ => exact ih hhead.1

theorem headsTree_goodNode {reader : FsReader Exec} {height : Nat} {a : NodeRef}
    {leaves : List Leaf} (htree : HeadsTree (refPage reader chunkMap) Leaf.keys height a leaves) :
    ∃ node, GoodNode reader chunkMap a node := by
  cases height with
  | zero =>
      obtain ⟨l, hpage, _⟩ := htree
      exact ⟨_, goodNode_leaf hpage⟩
  | succ height =>
      obtain ⟨children, parts, hpage, _, _, _⟩ := htree
      obtain ⟨node, hgood, _⟩ := goodNode_inner hpage
      exact ⟨_, hgood⟩

theorem headsTree_leaf {reader : FsReader Exec} {height : Nat} {a : NodeRef} {leaves : List Leaf}
    (htree : HeadsTree (refPage reader chunkMap) Leaf.keys height a leaves) {l : Leaf}
    (hl : l ∈ leaves) : ∃ ref, GoodNode reader chunkMap ref (.leaf l) := by
  induction height generalizing a leaves with
  | zero =>
      obtain ⟨l', hpage, rfl⟩ := htree
      obtain rfl := List.mem_singleton.mp hl
      exact ⟨a, goodNode_leaf hpage⟩
  | succ height ih =>
      obtain ⟨children, parts, _, _, rfl, hparts⟩ := htree
      obtain ⟨part, hpart, hl⟩ := List.mem_flatten.mp hl
      clear * - hparts hpart hl ih
      induction hparts with
      | nil => cases hpart
      | cons hhead _ ihrest =>
          rcases List.mem_cons.mp hpart with rfl | hpart
          · exact ih hhead.1 hl
          · exact ihrest hpart

theorem Node.parse_leaf_buf {buf : Bytes} {leaf : Leaf} (h : Node.parse buf = .ok (.leaf leaf)) :
    leaf.buf = buf := by
  unfold Node.parse at h
  cases hhdr : Header.parse buf with
  | error e => rw [hhdr] at h; cases h
  | ok hdr =>
      rw [hhdr] at h
      simp only [bind, Except.bind] at h
      split at h
      · split at h
        case h_1 => cases h
        case h_2 => cases h; rfl
      · split at h
        case h_1 => cases h
        case h_2 => cases h

theorem slice_length {buf bytes : Bytes} {pos n : Nat} (h : slice buf pos n = .ok bytes) :
    bytes.length = n := by
  have hbound := slice_bound h
  unfold slice at h
  rw [if_pos hbound] at h
  cases h
  rw [List.length_take, List.length_drop]
  omega

/-- Item data is no longer than a node. -/
theorem headsTree_data_length (hstrategy : config.strategy = some strategy) {height : Nat}
    {a : NodeRef} {leaves : List Leaf}
    (htree : HeadsTree (refPage (image.reader config) chunkMap) Leaf.keys height a leaves)
    {leaf : Leaf} (hleaf : leaf ∈ leaves) {slot : LeafItemSlot} {data : Bytes}
    (hdata : leaf.dataOf slot = .ok data) : data.length ≤ config.nodeSize := by
  obtain ⟨ref, hgood⟩ := headsTree_leaf htree hleaf
  obtain ⟨buf, _, hlen, hparse, _, _⟩ := goodNode_parsed hstrategy hgood
  have hbuf := Node.parse_leaf_buf hparse
  have hdata' := slice_length hdata
  have hbound := slice_bound hdata
  rw [hbuf, hlen] at hbound
  omega

namespace LiveCsumTree
variable (t : LiveCsumTree image config chunkMap root strategy)
include t

theorem goodNode {ref : NodeRef} (hin : InTree image config chunkMap root ref) :
    ∃ node, GoodNode (image.reader config) chunkMap ref node := by
  obtain ⟨_, _, htree⟩ := headsTree_leads t.heads hin
  exact headsTree_goodNode htree

/-- A node below the root is expected with the generation it has. -/
theorem expGen (hstrategy : config.strategy = some strategy) {ref : NodeRef} {node : Node}
    (hin : InTree image config chunkMap root ref) (hroot : ref.logical ≠ root)
    (hgood : GoodNode (image.reader config) chunkMap ref node) :
    ref.expGen = some node.header.generation ∧ node.header.generation ≠ genDontCheck := by
  have hreal := t.generations ref hin
  rcases hin.eq_or_child with rfl | ⟨parent, _, inner, _, hmem⟩
  · exact absurd rfl hroot
  · rw [childRefs_none] at hmem
    obtain ⟨ptr, _, rfl⟩ := List.mem_map.mp hmem
    obtain ⟨buf, hdr, _, hparse, hhdr, hvalid⟩ := goodNode_parsed hstrategy hgood
    rw [Node.parse_header hparse] at hhdr
    cases hhdr
    have hgen : (NodeRef.child inner.header ptr).expGen = some ptr.generation := rfl
    rw [hgen] at hreal hvalid ⊢
    have hne : ptr.generation ≠ genDontCheck := fun h => hreal (congrArg some h)
    simp only [ReaderConfig.validateHeader, Option.getD_some, Bool.and_eq_true, Bool.or_eq_true,
      beq_iff_eq] at hvalid
    rcases hvalid.2 with h | h
    · exact absurd h hne
    · exact ⟨congrArg some h.symm, by rw [h]; exact hne⟩

/-- A rewritten node below the root fails as stale. -/
theorem rewritten_stale (hstrategy : config.strategy = some strategy)
    (hrewrites : Rewrites image config chunkMap root strategy nodes later) {ref : NodeRef}
    (hin : InTree image config chunkMap root ref) (hroot : ref.logical ≠ root)
    (hnode : ref.logical ∈ nodes) : FailsAs (later.reader config) chunkMap ref .stale := by
  obtain ⟨node, hgood⟩ := t.goodNode hin
  obtain ⟨hexp, hreal⟩ := t.expGen hstrategy hin hroot hgood
  have hinvalid : ∀ buf, .ok buf ∈ copiesOf later config chunkMap ref.logical →
      Verified strategy (fun hdr => config.validateHeader hdr ref.logical
        (ref.expGen.getD genDontCheck) ref.expLevel ref.expOwner) false buf ∧
          ∃ node, Node.parse buf = .ok node := by
    intro buf hbuf
    obtain ⟨hverify, other, hparse, _, _, hgen⟩ :=
      hrewrites.rewritten ref node hin hgood hnode buf hbuf
    refine ⟨⟨hverify, other.header, Node.parse_header hparse, ?_⟩, other, hparse⟩
    rw [hexp, Option.getD_some]
    simp [ReaderConfig.validateHeader, hreal, hgen]
  obtain ⟨res, _, _, hread, hfailed, hstale, _⟩ := readNode_uniform hstrategy
    (ref.expGen.getD genDontCheck) ref.expLevel ref.expOwner (hrewrites.readable ref hin hnode)
    hinvalid
  exact ⟨res, hread, hfailed, hstale⟩

theorem data_length (hstrategy : config.strategy = some strategy) {leaf : Leaf}
    (hleaf : leaf ∈ t.leaves) {slot : LeafItemSlot} {data : Bytes}
    (hdata : leaf.dataOf slot = .ok data) : data.length ≤ config.nodeSize :=
  headsTree_data_length hstrategy t.heads hleaf hdata

/-- After a rewrite that spares the root, every node reads as it did or fails. -/
theorem read_or_fails (hstrategy : config.strategy = some strategy)
    (hrewrites : Rewrites image config chunkMap root strategy nodes later) (hroot : root ∉ nodes)
    (ref : NodeRef) (hin : InTree image config chunkMap root ref) :
    refRead (later.reader config) chunkMap ref = refRead (image.reader config) chunkMap ref ∨
      ∃ kind, FailsAs (later.reader config) chunkMap ref kind := by
  by_cases hnode : ref.logical ∈ nodes
  · have hne : ref.logical ≠ root := fun h => hroot (h ▸ hnode)
    exact .inr ⟨.stale, t.rewritten_stale hstrategy hrewrites hin hne hnode⟩
  · exact .inl (refRead_congr hstrategy (hrewrites.kept ref hin hnode))

end LiveCsumTree

/-- The walker over a later content of the file, with what it has counted so far. -/
def laterProvider (later : Image) (config : ReaderConfig) (chunkMap : ChunkMap) (root : UInt64)
    (strategy : CsumStrategy) (tallies : CsumTallies) : LazyCsumProvider Exec where
  reader := later.reader config
  chunkMap
  strategy
  csumRoot := root
  tallies

/-- After any rewrite of these nodes, a range that does not emit a sector the tree covers has
counted a failure. -/
def NeverSilent (t : LiveCsumTree image config chunkMap root strategy) (tallies : CsumTallies)
    (nodes : List UInt64) (lo hi : UInt64) : Prop :=
  ∀ later, Rewrites image config chunkMap root strategy nodes later →
    ∀ out, (laterProvider later config chunkMap root strategy tallies).range lo hi = .ok out →
      ∀ sector, t.Holds sector → lo ≤ sector → sector < hi →
        (∃ e ∈ out.1, e.logical = sector) ∨ out.2.tallies.Reported

/-- With the root spared, the walk comes to the leaf of a covered sector or counts a failure. -/
theorem neverSilent_of_root (t : LiveCsumTree image config chunkMap root strategy)
    (hstrategy : config.strategy = some strategy) (hnodeSize : config.nodeSize < 2 ^ 32)
    (hsize : strategy.sectorSize.toNat < 2 ^ 32) (tallies : CsumTallies) (lo hi : UInt64)
    (hroot : root ∉ nodes) : NeverSilent t tallies nodes lo hi := by
  intro later hrewrites out hrun sector hholds hlo hhi
  obtain ⟨leaf, hleaf, e, he, hitem⟩ := hholds
  obtain ⟨slot, hslot, rfl⟩ := List.mem_map.mp he
  obtain ⟨data, hdata⟩ := t.data leaf hleaf slot hslot
  rw [hdata] at he hitem
  have hend := t.ends leaf hleaf _ he
  have hkey : slot.key ∈ leaf.keys := List.mem_map_of_mem hslot
  obtain ⟨entries, hwalk, hentries⟩ := range_ok hrun
  have hfits : data.length ≤ config.nodeSize := t.data_length hstrategy hleaf hdata
  have hkept : ∀ childLo childHi, childLo ≤ slot.key → (∀ h ∈ childHi, slot.key < h) →
      pruned (some (csumKey (saturatingSub lo (maxItemSpan config.nodeSize strategy)), csumKey hi))
        childLo childHi = false := by
    intro childLo childHi hbelow habove
    exact item_not_pruned hnodeSize hsize hfits hitem hlo hhi hbelow habove
  obtain ⟨ref, hwalked, hend'⟩ := walk_reaches t.heads t.sorted hleaf hkey hkept
    (t.read_or_fails hstrategy hrewrites hroot)
  rcases hend' with ⟨kind, hfails⟩ | hgood
  · apply Or.inr
    have hcounted : Counted (entries, out.2.tallies) :=
      walkLeavesImpl_failure counted_keeps hwalked hfails
        (fun s => rangeCallbacks_failure kind ref.logical s) hwalk
    exact hcounted
  · apply Or.inl
    have hmark : ∀ s v, (rangeCallbacks strategy lo hi).onLeaf leaf s = .ok v →
        Emitted sector v.2 := by
      intro s v hcall
      obtain ⟨found, hfound, rfl⟩ := rangeCallbacks_leaf hcall
      obtain ⟨entry, hentry, hat⟩ := itemEntries_mem hend hitem hlo hhi
      have hty : slot.key.ty = KeyType.extentCsum := by
        have hkeyEq : slot.key = csumKey slot.key.offset := hitem.1
        rw [hkeyEq]
        rfl
      exact ⟨entry, List.mem_append_right _ (leafEntries_ok hfound hslot hty hdata entry hentry),
        hat⟩
    obtain ⟨entry, hentry, hat⟩ := walkLeavesImpl_leaf (emitted_keeps sector) hwalked hgood hmark hwalk
    exact ⟨entry, (hentries entry).mpr hentry, hat⟩

end Tree
end Rotshield.Btrfs
