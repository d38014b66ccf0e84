import Rotshield.Btrfs.Bounds
import Rotshield.Btrfs.RootRewrite
import Rotshield.Lib.TreeWalk

/-! A range of a healthy CSUM_TREE is exactly what the tree holds in it. -/
namespace Rotshield.Btrfs
open Lib (HeadsTree Collects keptChildren)

theorem childRefs_eq (bounds : Option (Key × Key)) (parent : Header) (ptrs : List KeyPtr) :
    childRefs bounds parent ptrs =
      keptChildren (pruned bounds) (ptrs.map fun ptr => (ptr.key, NodeRef.child parent ptr)) := by
  induction ptrs with
  | nil => rfl
  | cons ptr rest ih =>
      have hnext : (rest.map fun ptr => (ptr.key, NodeRef.child parent ptr)).head?.map Prod.fst =
          rest.head?.map (·.key) := by
        cases rest <;> rfl
      rw [List.map_cons, keptChildren, hnext, childRefs, ih]

/-! ### What an item holds -/

/-- The checksums of an item, each with the sector it is for. -/
def itemPairs (strategy : CsumStrategy) (e : Key × Bytes) : List CsumEntry :=
  (List.range (e.2.length / strategy.hashLen)).map fun s =>
    { logical := e.1.offset + UInt64.ofNat s * strategy.sectorSize
      csum := (e.2.drop (s * strategy.hashLen)).take strategy.hashLen }

def CsumEntry.within (lo hi : UInt64) (entry : CsumEntry) : Bool :=
  decide (lo ≤ entry.logical) && decide (entry.logical < hi)

section Item
variable {strategy : CsumStrategy} {e : Key × Bytes} {lo hi : UInt64} {entry : CsumEntry}

/-- The sectors of an item that ends inside the address space. -/
theorem pair_logical (hend : e.1.offset.toNat + csumSpan strategy e.2 < 2 ^ 64) {s : Nat}
    (hs : s < e.2.length / strategy.hashLen) :
    (e.1.offset + UInt64.ofNat s * strategy.sectorSize).toNat =
      e.1.offset.toNat + s * strategy.sectorSize.toNat := by
  have hspan := csumSpan_ge hs
  rw [UInt64.toNat_add, UInt64.toNat_mul, UInt64.toNat_ofNat', Nat.mod_mul_mod, Nat.add_mod_mod]
  exact Nat.mod_eq_of_lt (by omega)

theorem mem_itemPairs (h : entry ∈ itemPairs strategy e) :
    ∃ s < e.2.length / strategy.hashLen,
      entry.logical = e.1.offset + UInt64.ofNat s * strategy.sectorSize ∧
      entry.csum = (e.2.drop (s * strategy.hashLen)).take strategy.hashLen := by
  obtain ⟨s, hs, rfl⟩ := List.mem_map.mp h
  exact ⟨s, List.mem_range.mp hs, rfl, rfl⟩

/-- Every pair of an item is for a sector the item covers. -/
theorem pair_covered (hend : e.1.offset.toNat + csumSpan strategy e.2 < 2 ^ 64)
    (h : entry ∈ itemPairs strategy e) :
    e.1.offset.toNat ≤ entry.logical.toNat ∧
      entry.logical.toNat + strategy.sectorSize.toNat ≤ e.1.offset.toNat + csumSpan strategy e.2 := by
  obtain ⟨s, hs, hlogical, -⟩ := mem_itemPairs h
  have hspan := csumSpan_ge hs
  rw [hlogical, pair_logical hend hs]
  omega

theorem itemPairs_sorted (hend : e.1.offset.toNat + csumSpan strategy e.2 < 2 ^ 64) :
    (itemPairs strategy e).Pairwise fun a b => a.logical < b.logical := by
  unfold itemPairs
  rw [List.pairwise_map]
  have hsize : 0 < strategy.sectorSize.toNat := UInt64.lt_iff_toNat_lt.mp strategy.sectorSize_pos
  apply List.Pairwise.imp_of_mem _ List.pairwise_lt_range
  intro a b ha hb hlt
  dsimp only
  rw [UInt64.lt_iff_toNat_lt, pair_logical hend (List.mem_range.mp ha),
    pair_logical hend (List.mem_range.mp hb)]
  have := Nat.mul_lt_mul_of_pos_right hlt hsize
  omega

/-- The two filters of the code, of whole items and of single sectors, are one. -/
theorem itemEntries_eq (hend : e.1.offset.toNat + csumSpan strategy e.2 < 2 ^ 64) :
    itemEntries strategy lo hi e.1.offset e.2 =
      (itemPairs strategy e).filter (CsumEntry.within lo hi) := by
  have hend' : (e.1.offset + UInt64.ofNat (e.2.length / strategy.hashLen) *
      strategy.sectorSize).toNat = e.1.offset.toNat + csumSpan strategy e.2 := by
    rw [runEnd_toNat, Nat.mod_eq_of_lt hend]
  unfold itemEntries
  dsimp only
  split
  case isTrue hout =>
      symm
      apply List.filter_eq_nil_iff.mpr
      intro entry hentry
      have hcov := pair_covered hend hentry
      have hsize : 0 < strategy.sectorSize.toNat :=
        UInt64.lt_iff_toNat_lt.mp strategy.sectorSize_pos
      rw [UInt64.le_iff_toNat_le, UInt64.le_iff_toNat_le, hend'] at hout
      simp only [CsumEntry.within, Bool.and_eq_true, decide_eq_true_eq, UInt64.le_iff_toNat_le,
        UInt64.lt_iff_toNat_lt]
      omega
  case isFalse =>
      unfold itemPairs
      induction List.range (e.2.length / strategy.hashLen) with
      | nil => rfl
      | cons s rest ih =>
          rw [List.filterMap_cons, List.map_cons, List.filter_cons, ih]
          by_cases hout : e.1.offset + UInt64.ofNat s * strategy.sectorSize < lo ∨
              hi ≤ e.1.offset + UInt64.ofNat s * strategy.sectorSize
          · have hfalse : CsumEntry.within lo hi ⟨e.1.offset + UInt64.ofNat s * strategy.sectorSize,
                (e.2.drop (s * strategy.hashLen)).take strategy.hashLen⟩ = false := by
              rcases hout with h | h <;> simp [CsumEntry.within, h, UInt64.not_le, UInt64.not_lt]
            rw [if_pos hout, hfalse]
            rfl
          · have htrue : CsumEntry.within lo hi ⟨e.1.offset + UInt64.ofNat s * strategy.sectorSize,
                (e.2.drop (s * strategy.hashLen)).take strategy.hashLen⟩ = true := by
              rw [not_or, UInt64.not_lt, UInt64.not_le] at hout
              simp [CsumEntry.within, hout]
            rw [if_neg hout, htrue]
            rfl

end Item

/-! ### What a tree holds -/

/-- A well-formed CSUM_TREE, of any height, whose every node is read and valid under the reference
that leads to it. -/
structure RangeTree (reader : FsReader Exec) (chunkMap : ChunkMap) (strategy : CsumStrategy)
    (root : UInt64) where
  height : Nat
  leaves : List Leaf
  heads : HeadsTree (refPage reader chunkMap) Leaf.keys height (.root root) leaves
  sorted : (leaves.flatMap Leaf.keys).Pairwise (· < ·)
  data : ∀ leaf ∈ leaves, ∀ slot ∈ leaf.slots, ∃ bytes, leaf.dataOf slot = .ok bytes
  isCsum : ∀ leaf ∈ leaves, ∀ e ∈ leaf.entries, e.1 = csumKey e.1.offset
  ends : ∀ leaf ∈ leaves, ∀ e ∈ leaf.entries, e.1.offset.toNat + csumSpan strategy e.2 < 2 ^ 64
  disjoint : (leaves.flatMap Leaf.entries).Pairwise fun a b =>
    ∀ x, CsumCovers strategy a x → ¬CsumCovers strategy b x

/-- The pairs of a leaf, in order. -/
def Leaf.pairs (strategy : CsumStrategy) (leaf : Leaf) : List CsumEntry :=
  leaf.entries.flatMap (itemPairs strategy)

/-- The pairs of a tree, in order. -/
def RangeTree.pairs {reader : FsReader Exec} {chunkMap : ChunkMap} {strategy : CsumStrategy}
    {root : UInt64} (t : RangeTree reader chunkMap strategy root) : List CsumEntry :=
  t.leaves.flatMap (Leaf.pairs strategy)

/-- A walk that collects every pair of the csum items, in the range or not. -/
def csumCallbacks (strategy : CsumStrategy) : Callbacks (List CsumEntry × CsumTallies) where
  onLeaf leaf s := do
    let parts ← (leaf.slots.filter (·.key.ty == KeyType.extentCsum)).mapM fun slot => do
      return itemPairs strategy (slot.key, ← leaf.dataOf slot)
    return (.ok (), (s.1 ++ parts.flatten, s.2))
  onMetadataError a s := (s.1, { s.2 with metadataErrors := s.2.metadataErrors.report a })
  onStale a s := (s.1, { s.2 with staleBranches := s.2.staleBranches.report a })
  onMirrorMismatch a s := (s.1, { s.2 with mirrorMismatches := s.2.mirrorMismatches.report a })
  onReadError a s := (s.1, { s.2 with metadataReadErrors := s.2.metadataReadErrors.report a })

namespace RangeTree
variable {reader : FsReader Exec} {chunkMap : ChunkMap} {strategy : CsumStrategy} {root : UInt64}
  (t : RangeTree reader chunkMap strategy root)

theorem pairs_eq : t.pairs = (t.leaves.flatMap Leaf.entries).flatMap (itemPairs strategy) := by
  unfold pairs
  rw [List.flatMap_assoc]
  rfl

/-- No sector has two pairs, and they come in ascending order. -/
theorem pairs_sorted : t.pairs.Pairwise fun a b => a.logical < b.logical := by
  have hkeys : (t.leaves.flatMap Leaf.entries).Pairwise fun a b => a.1 < b.1 := by
    have hsorted := t.sorted
    have heq : t.leaves.flatMap Leaf.keys = (t.leaves.flatMap Leaf.entries).map Prod.fst := by
      rw [List.map_flatMap]
      congr 1
      funext leaf
      exact leaf.keys_eq
    rw [heq, List.pairwise_map] at hsorted
    exact hsorted
  have hmem : ∀ e ∈ t.leaves.flatMap Leaf.entries,
      e.1 = csumKey e.1.offset ∧ e.1.offset.toNat + csumSpan strategy e.2 < 2 ^ 64 := by
    intro e he
    obtain ⟨leaf, hleaf, he⟩ := List.mem_flatMap.mp he
    exact ⟨t.isCsum leaf hleaf e he, t.ends leaf hleaf e he⟩
  rw [t.pairs_eq, List.pairwise_flatMap]
  refine ⟨fun e he => itemPairs_sorted (hmem e he).2, ?_⟩
  apply List.Pairwise.imp_of_mem _ (hkeys.and t.disjoint)
  rintro a b ha hb ⟨hlt, hdisjoint⟩ x hx y hy
  have hxcov := pair_covered (hmem a ha).2 hx
  have hycov := pair_covered (hmem b hb).2 hy
  have hsize : 0 < strategy.sectorSize.toNat := UInt64.lt_iff_toNat_lt.mp strategy.sectorSize_pos
  rw [(hmem a ha).1, (hmem b hb).1, csumKey_lt] at hlt
  have hstart : CsumCovers strategy b b.1.offset.toNat := ⟨Nat.le_refl _, by omega⟩
  have hnot : ¬CsumCovers strategy a b.1.offset.toNat := fun h => hdisjoint _ h hstart
  rw [UInt64.lt_iff_toNat_lt]
  by_contra hge
  apply hnot
  exact ⟨Nat.le_of_lt hlt, by omega⟩

theorem slot_entry {leaf : Leaf} (hleaf : leaf ∈ t.leaves) {slot : LeafItemSlot}
    (hslot : slot ∈ leaf.slots) : slot.key.ty = KeyType.extentCsum ∧
      ∃ bytes, leaf.dataOf slot = .ok bytes ∧ (slot.key, bytes) ∈ leaf.entries := by
  obtain ⟨bytes, hdata⟩ := t.data leaf hleaf slot hslot
  have hentry : (slot.key, bytes) ∈ leaf.entries := by
    refine List.mem_map.mpr ⟨slot, hslot, ?_⟩
    rw [hdata]
    rfl
  have hkey := t.isCsum leaf hleaf _ hentry
  refine ⟨?_, bytes, hdata, hentry⟩
  dsimp only at hkey
  rw [hkey]
  rfl

/-- The items of a leaf, each with what it gives. -/
theorem mapM_items {leaf : Leaf} (hleaf : leaf ∈ t.leaves) {β : Type} (give : Key × Bytes → β) :
    (leaf.slots.filter (·.key.ty == KeyType.extentCsum)).mapM (fun slot => do
      return give (slot.key, ← leaf.dataOf slot) : LeafItemSlot → Exec β) =
        .ok (leaf.entries.map give) := by
  have hall : ∀ slots : List LeafItemSlot, (∀ slot ∈ slots, slot ∈ leaf.slots) →
      (slots.filter (·.key.ty == KeyType.extentCsum)).mapM (fun slot => do
        return give (slot.key, ← leaf.dataOf slot) : LeafItemSlot → Exec β) =
          .ok (slots.map fun slot => give (slot.key, (leaf.dataOf slot).toOption.getD [])) := by
    intro slots
    induction slots with
    | nil => exact fun _ => rfl
    | cons slot slots ih =>
        intro hsub
        obtain ⟨hty, bytes, hdata, -⟩ := t.slot_entry hleaf (hsub slot List.mem_cons_self)
        rw [List.filter_cons, if_pos (beq_iff_eq.mpr hty), List.mapM_cons,
          ih fun s hs => hsub s (List.mem_cons_of_mem slot hs), List.map_cons, hdata]
        rfl
  rw [hall leaf.slots fun _ h => h, Leaf.entries, List.map_map]
  rfl

theorem leafEntries_eq {leaf : Leaf} (hleaf : leaf ∈ t.leaves) (lo hi : UInt64) :
    leafEntries strategy lo hi leaf =
      .ok ((leaf.pairs strategy).filter (CsumEntry.within lo hi)) := by
  have hitems := t.mapM_items hleaf fun e => itemEntries strategy lo hi e.1.offset e.2
  have hfilter : (leaf.entries.map fun e => itemEntries strategy lo hi e.1.offset e.2).flatten =
      (leaf.pairs strategy).filter (CsumEntry.within lo hi) := by
    unfold Leaf.pairs
    rw [List.filter_flatMap, ← List.flatMap_def]
    apply List.flatMap_congr
    intro e he
    exact itemEntries_eq (t.ends leaf hleaf e he)
  unfold leafEntries
  dsimp only at hitems
  rw [hitems, ← hfilter]
  rfl

end RangeTree

section Walk
variable {image : Image} {config : ReaderConfig} {chunkMap : ChunkMap} {strategy : CsumStrategy}
  {root : UInt64} (t : RangeTree (image.reader config) chunkMap strategy root)
  {bounds : Option (Key × Key)} {cb : Callbacks (List CsumEntry × CsumTallies)}
  {holds : Leaf → List CsumEntry}

/-- A walk over the tree collects what its leaves hold, in order. -/
theorem walk_collects (hstrategy : config.strategy = some strategy)
    (hleaf : ∀ leaf ∈ t.leaves, ∀ s, cb.onLeaf leaf s = .ok (.ok (), (s.1 ++ holds leaf, s.2)))
    (hmirror : ∀ addr s, (cb.onMirrorMismatch addr s).1 = s.1)
    (hpruned : ∀ leaf ∈ t.leaves, ∀ lo hi, pruned bounds lo hi = true →
      (∀ k ∈ leaf.keys, lo ≤ k ∧ ∀ h ∈ hi, k < h) → holds leaf = [])
    (tallies : CsumTallies) :
    ∃ tallies', walkLeavesImpl (image.reader config) chunkMap root bounds cb ([], tallies) =
      .ok (.ok (), (t.leaves.flatMap holds, tallies')) := by
  have hcollects : Collects (refPage (image.reader config) chunkMap) Leaf.keys (pruned bounds)
      (visitRef (image.reader config) chunkMap bounds cb) Prod.fst (· ∈ t.leaves) holds := by
    have hsame : ∀ {ref : NodeRef} {s s₁ : List CsumEntry × CsumTallies},
        s₁ = s ∨ s₁ = cb.onMirrorMismatch ref.logical s → s₁.1 = s.1 := by
      rintro ref s s₁ (rfl | rfl)
      · rfl
      · exact hmirror _ _
    constructor
    · intro ref leaf s hpage hin
      obtain ⟨s₁, hs₁, hvisit⟩ := visitRef_leaf bounds cb s (goodNode_leaf hpage)
      refine ⟨_, by rw [hvisit, hleaf leaf hin]; rfl, ?_⟩
      exact congrArg (· ++ holds leaf) (hsame hs₁)
    · intro ref children s hpage
      obtain ⟨node, hgood, rfl⟩ := goodNode_inner hpage
      obtain ⟨s₁, hs₁, hvisit⟩ := visitRef_internal bounds cb s hgood
      exact ⟨s₁, by rw [hvisit, childRefs_eq], hsame hs₁⟩
    · intro leaf lo hi hin hprune hkeys
      exact hpruned leaf hin lo hi hprune hkeys
  obtain ⟨n, ⟨collected, tallies'⟩, hrounds, hcollected⟩ :=
    hcollects.through t.heads t.sorted (fun _ h => h) [] ([], tallies)
  have hfuel : n ≤ walkFuel (image.reader config).config.nodeSize := by
    have hle : n ≤ ([NodeRef.root root].map (NodeRef.weight config.nodeSize)).sum :=
      hrounds.length_le fun _ _ _ _ => visitRef_weight hstrategy
    simp only [List.map_singleton, List.sum_singleton, weight_root] at hle
    exact hle
  refine ⟨tallies', ?_⟩
  rw [List.append_nil] at hrounds
  unfold walkLeavesImpl
  rw [hrounds.explore_eq hfuel]
  dsimp only at hcollected
  rw [hcollected, List.nil_append]

/-- Without bounds every pair is collected. -/
theorem walkLeaves_pairs (hstrategy : config.strategy = some strategy) (tallies : CsumTallies) :
    ∃ tallies', walkLeaves (image.reader config) chunkMap root (csumCallbacks strategy)
      ([], tallies) = .ok (.ok (), (t.pairs, tallies')) := by
  have hleaf : ∀ leaf ∈ t.leaves, ∀ s, (csumCallbacks strategy).onLeaf leaf s =
      .ok (.ok (), (s.1 ++ leaf.pairs strategy, s.2)) := by
    intro leaf hleaf s
    have hitems := t.mapM_items hleaf (itemPairs strategy)
    unfold csumCallbacks
    dsimp only
    rw [hitems, Leaf.pairs, List.flatMap_def]
    rfl
  have hpruned : ∀ leaf ∈ t.leaves, ∀ lo hi, pruned none lo hi = true →
      (∀ k ∈ leaf.keys, lo ≤ k ∧ ∀ h ∈ hi, k < h) → leaf.pairs strategy = [] :=
    fun _ _ _ _ h => nomatch h
  exact walk_collects t hstrategy hleaf (fun _ _ => rfl) hpruned tallies

/-- A leaf under a pruned child holds no pair of the range. -/
theorem pruned_holds_none (hstrategy : config.strategy = some strategy)
    (hnode : config.nodeSize < 2 ^ 32) (hsize : strategy.sectorSize.toNat < 2 ^ 32)
    {lo hi : UInt64} {leaf : Leaf} (hleaf : leaf ∈ t.leaves) {childLo : Key} {childHi : Option Key}
    (hprune : pruned (some (csumKey (saturatingSub lo (maxItemSpan config.nodeSize strategy)),
      csumKey hi)) childLo childHi = true)
    (hkeys : ∀ k ∈ leaf.keys, childLo ≤ k ∧ ∀ h ∈ childHi, k < h) :
    (leaf.pairs strategy).filter (CsumEntry.within lo hi) = [] := by
  apply List.filter_eq_nil_iff.mpr
  intro entry hentry hwithin
  obtain ⟨e, he, hpair⟩ := List.mem_flatMap.mp hentry
  obtain ⟨slot, hslot, rfl⟩ := List.mem_map.mp he
  obtain ⟨-, bytes, hdata, -⟩ := t.slot_entry hleaf hslot
  have hbytes : (leaf.dataOf slot).toOption.getD [] = bytes := by
    rw [hdata]
    rfl
  rw [hbytes] at he hpair
  obtain ⟨s, hs, hlogical, -⟩ := mem_itemPairs hpair
  have hholds : ItemHolds strategy (slot.key, bytes) entry.logical := by
    refine ⟨t.isCsum leaf hleaf _ he, s, hs, ?_⟩
    rw [hlogical]
    exact pair_logical (t.ends leaf hleaf _ he) hs
  simp only [CsumEntry.within, Bool.and_eq_true, decide_eq_true_eq] at hwithin
  have hlength : bytes.length ≤ config.nodeSize :=
    headsTree_data_length hstrategy t.heads hleaf hdata
  obtain ⟨hbelow, habove⟩ := hkeys slot.key (List.mem_map_of_mem hslot)
  have hkept := item_not_pruned hnode hsize hlength hholds hwithin.1 hwithin.2 hbelow habove
  rw [hprune] at hkept
  cases hkept

end Walk

/-- A range of a well-formed tree is what the tree holds in it. -/
theorem range_of_tree (image : Image) (config : ReaderConfig) (chunkMap : ChunkMap)
    (strategy : CsumStrategy) (root : UInt64) (hstrategy : config.strategy = some strategy)
    (hnode : config.nodeSize < 2 ^ 32) (hsize : strategy.sectorSize.toNat < 2 ^ 32)
    (t : RangeTree (image.reader config) chunkMap strategy root) (tallies : CsumTallies)
    (lo hi : UInt64) :
    ∃ tallies', (laterProvider image config chunkMap root strategy tallies).range lo hi =
      .ok (t.pairs.filter (CsumEntry.within lo hi),
        laterProvider image config chunkMap root strategy tallies') := by
  have hleaf : ∀ leaf ∈ t.leaves, ∀ s, (rangeCallbacks strategy lo hi).onLeaf leaf s =
      .ok (.ok (), (s.1 ++ (leaf.pairs strategy).filter (CsumEntry.within lo hi), s.2)) := by
    intro leaf hleaf s
    unfold rangeCallbacks
    dsimp only
    rw [t.leafEntries_eq hleaf]
    rfl
  obtain ⟨tallies', hwalk⟩ := walk_collects t hstrategy hleaf (fun _ _ => rfl)
    (fun leaf hin _ _ hprune hkeys => pruned_holds_none t hstrategy hnode hsize hin hprune hkeys)
    tallies
  have hcollected : t.leaves.flatMap (fun leaf =>
      (leaf.pairs strategy).filter (CsumEntry.within lo hi)) =
        t.pairs.filter (CsumEntry.within lo hi) := by
    unfold RangeTree.pairs
    rw [List.filter_flatMap]
  have hascending : (t.pairs.filter (CsumEntry.within lo hi)).Pairwise fun a b =>
      a.logical ≤ b.logical :=
    (t.pairs_sorted.filter _).imp fun h => UInt64.le_of_lt h
  have hnodeSize : (image.reader config).config.nodeSize = config.nodeSize := rfl
  refine ⟨tallies', ?_⟩
  rw [hcollected] at hwalk
  unfold LazyCsumProvider.range walkLeavesRange laterProvider
  dsimp only
  rw [hnodeSize, hwalk]
  dsimp only [bind, Except.bind]
  rw [hascending.insertionSort_eq]
  rfl

/-- A range of a well-formed tree is what the tree holds in it, each pair once and in ascending
order; and this is what a walk that prunes nothing collects, filtered to the range. -/
theorem range_exact (image : Image) (config : ReaderConfig) (chunkMap : ChunkMap)
    (strategy : CsumStrategy) (root : UInt64) (hstrategy : config.strategy = some strategy)
    (hnode : config.nodeSize < 2 ^ 32) (hsize : strategy.sectorSize.toNat < 2 ^ 32)
    (t : RangeTree (image.reader config) chunkMap strategy root) (tallies : CsumTallies)
    (lo hi : UInt64) :
    (∃ tallies', (laterProvider image config chunkMap root strategy tallies).range lo hi =
      .ok (t.pairs.filter (CsumEntry.within lo hi),
        laterProvider image config chunkMap root strategy tallies')) ∧
    t.pairs.Pairwise (fun a b => a.logical < b.logical) ∧
    ∃ tallies', walkLeaves (image.reader config) chunkMap root (csumCallbacks strategy)
      ([], tallies) = .ok (.ok (), (t.pairs, tallies')) :=
  ⟨range_of_tree image config chunkMap strategy root hstrategy hnode hsize t tallies lo hi,
    t.pairs_sorted, walkLeaves_pairs t hstrategy tallies⟩

namespace Crafted

/-! A CSUM_TREE of two leaves: an item of two checksums, and far behind it one of a single one. -/

def farKey : Key :=
  { objectid := ObjectId.extentCsum, ty := KeyType.extentCsum, offset := 0x8000 }

def twoHeader : Header := header 0x403000 1 ObjectId.csumTree 2 1

def pairLeaf : Leaf :=
  itemLeaf (header 0x404000 1 ObjectId.csumTree 1 0) csumKey [1, 2, 3, 4, 5, 6, 7, 8]

def farLeaf : Leaf := itemLeaf (header 0x405000 1 ObjectId.csumTree 1 0) farKey [9, 10, 11, 12]

def pairPtr : KeyPtr := { key := csumKey, blockptr := 0x404000, generation := 1 }
def farPtr : KeyPtr := { key := farKey, blockptr := 0x405000, generation := 1 }

def twoRegions : List (Nat × Bytes) :=
  [(0x403000, internalBytes twoHeader [pairPtr, farPtr]), (0x404000, pairLeaf.buf),
   (0x405000, farLeaf.buf)]

def twoLeaves : Image := Image.ofRegions twoRegions

theorem twoRegions_apart : Apart twoRegions := by
  have hroot : (internalBytes twoHeader [pairPtr, farPtr]).length = 4096 :=
    internalBytes_length (header_sized _ _ _ _ _) (by decide)
  have hpair : pairLeaf.buf.length = 4096 := itemLeaf_length (header_sized _ _ _ _ _) (by decide)
  simp [Apart, twoRegions, hroot, hpair]

/-- Whatever is expected of its header, as long as it holds. -/
theorem twoLeaves_root (gen : UInt64) (level : Option UInt8) (owner : Option UInt64) :
    (twoLeaves.reader config).readNode chunkMap 0x403000 gen level owner = .ok (.ok
      ⟨some (.internal ⟨twoHeader, [pairPtr, farPtr]⟩), false,
        !config.validateHeader twoHeader 0x403000 gen level owner, false⟩) :=
  readNode_internalBytes rfl twoRegions_apart (by decide) (.head _) (header_sized _ _ _ _ _)
    (by decide) rfl (by decide) gen level owner

theorem twoLeaves_pair (gen : UInt64) (level : Option UInt8) (owner : Option UInt64) :
    (twoLeaves.reader config).readNode chunkMap 0x404000 gen level owner = .ok (.ok
      ⟨some (.leaf pairLeaf), false,
        !config.validateHeader pairLeaf.header 0x404000 gen level owner, false⟩) :=
  readNode_itemLeaf rfl twoRegions_apart (by decide) (.tail _ (.head _)) (header_sized _ _ _ _ _)
    rfl rfl (by decide) gen level owner

theorem twoLeaves_far (gen : UInt64) (level : Option UInt8) (owner : Option UInt64) :
    (twoLeaves.reader config).readNode chunkMap 0x405000 gen level owner = .ok (.ok
      ⟨some (.leaf farLeaf), false,
        !config.validateHeader farLeaf.header 0x405000 gen level owner, false⟩) :=
  readNode_itemLeaf rfl twoRegions_apart (by decide) (.tail _ (.tail _ (.head _)))
    (header_sized _ _ _ _ _) rfl rfl (by decide) gen level owner

theorem pairLeaf_entries : pairLeaf.entries = [(csumKey, [1, 2, 3, 4, 5, 6, 7, 8])] :=
  itemLeaf_entries (header_sized _ _ _ _ _) (by decide)

theorem farLeaf_entries : farLeaf.entries = [(farKey, [9, 10, 11, 12])] :=
  itemLeaf_entries (header_sized _ _ _ _ _) (by decide)

theorem twoLeaves_entries : [pairLeaf, farLeaf].flatMap Leaf.entries =
    [(csumKey, [1, 2, 3, 4, 5, 6, 7, 8]), (farKey, [9, 10, 11, 12])] := by
  rw [List.flatMap_cons, List.flatMap_singleton, pairLeaf_entries, farLeaf_entries]
  rfl

/-- What holds of both items holds of every item of the tree. -/
theorem twoLeaves_all {p : Key × Bytes → Prop} (hpair : p (csumKey, [1, 2, 3, 4, 5, 6, 7, 8]))
    (hfar : p (farKey, [9, 10, 11, 12])) :
    ∀ leaf ∈ [pairLeaf, farLeaf], ∀ e ∈ leaf.entries, p e := by
  intro leaf hleaf e he
  have hin : e ∈ [pairLeaf, farLeaf].flatMap Leaf.entries := List.mem_flatMap.mpr ⟨leaf, hleaf, he⟩
  rw [twoLeaves_entries] at hin
  rcases List.mem_cons.mp hin with rfl | hin
  · exact hpair
  · obtain rfl := List.mem_singleton.mp hin
    exact hfar

def twoLeavesRange : RangeTree (twoLeaves.reader config) chunkMap strategy 0x403000 where
  height := 1
  leaves := [pairLeaf, farLeaf]
  heads := by
    have hroot : GoodNode (twoLeaves.reader config) chunkMap (.root 0x403000)
        (.internal ⟨twoHeader, [pairPtr, farPtr]⟩) :=
      ⟨_, twoLeaves_root genDontCheck none none, rfl, rfl, rfl⟩
    have hpair : GoodNode (twoLeaves.reader config) chunkMap (.child twoHeader pairPtr)
        (.leaf pairLeaf) := ⟨_, twoLeaves_pair 1 (some 0) (some ObjectId.csumTree), rfl, rfl, rfl⟩
    have hfar : GoodNode (twoLeaves.reader config) chunkMap (.child twoHeader farPtr)
        (.leaf farLeaf) := ⟨_, twoLeaves_far 1 (some 0) (some ObjectId.csumTree), rfl, rfl, rfl⟩
    exact ⟨_, [[pairLeaf], [farLeaf]], refPage_of_goodNode hroot, List.cons_ne_nil _ _, rfl,
      .cons ⟨⟨pairLeaf, refPage_of_goodNode hpair, rfl⟩, rfl⟩
        (.cons ⟨⟨farLeaf, refPage_of_goodNode hfar, rfl⟩, rfl⟩ .nil)⟩
  sorted := by
    have hlt : csumKey < farKey := by decide
    exact List.pairwise_cons.mpr
      ⟨fun k hk => List.mem_singleton.mp hk ▸ hlt, List.pairwise_singleton _ _⟩
  data := by
    have hpair : pairLeaf.dataOf (itemSlot csumKey [1, 2, 3, 4, 5, 6, 7, 8]) = _ :=
      itemLeaf_dataOf (header_sized _ _ _ _ _) (by decide)
    have hfar : farLeaf.dataOf (itemSlot farKey [9, 10, 11, 12]) = _ :=
      itemLeaf_dataOf (header_sized _ _ _ _ _) (by decide)
    intro leaf hleaf slot hslot
    rcases List.mem_cons.mp hleaf with rfl | hleaf
    · obtain rfl := List.mem_singleton.mp hslot
      exact ⟨_, hpair⟩
    · obtain rfl := List.mem_singleton.mp hleaf
      obtain rfl := List.mem_singleton.mp hslot
      exact ⟨_, hfar⟩
  isCsum := twoLeaves_all rfl rfl
  ends := twoLeaves_all (by decide) (by decide)
  disjoint := by
    rw [twoLeaves_entries]
    refine List.pairwise_cons.mpr ⟨?_, List.pairwise_singleton _ _⟩
    intro e he x hpair hfar
    obtain rfl := List.mem_singleton.mp he
    exact absurd (Nat.lt_of_lt_of_le hpair.2 (by decide)) (Nat.not_lt.mpr hfar.1)

theorem twoLeavesRange_pairs : twoLeavesRange.pairs =
    [⟨0x2000, [1, 2, 3, 4]⟩, ⟨0x3000, [5, 6, 7, 8]⟩, ⟨0x8000, [9, 10, 11, 12]⟩] := by
  have hleaves : twoLeavesRange.leaves.flatMap Leaf.entries = _ := twoLeaves_entries
  rw [RangeTree.pairs_eq, hleaves]
  rfl

/-- The range begins inside the first item, and goes into the first leaf only. -/
theorem range_exact_twoLeaves :
    childRefs (some (Btrfs.csumKey (saturatingSub 0x3000 (maxItemSpan 4096 strategy)),
      Btrfs.csumKey 0x4000)) twoHeader [pairPtr, farPtr] = [.child twoHeader pairPtr] ∧
    (∃ tallies', (laterProvider twoLeaves config chunkMap 0x403000 strategy .empty).range 0x3000
      0x4000 = .ok ([⟨0x3000, [5, 6, 7, 8]⟩],
        laterProvider twoLeaves config chunkMap 0x403000 strategy tallies')) ∧
    ∃ tallies', walkLeaves (twoLeaves.reader config) chunkMap 0x403000 (csumCallbacks strategy)
      ([], .empty) = .ok (.ok (),
        ([⟨0x2000, [1, 2, 3, 4]⟩, ⟨0x3000, [5, 6, 7, 8]⟩, ⟨0x8000, [9, 10, 11, 12]⟩], tallies')) := by
  obtain ⟨hrange, -, hwalk⟩ := range_exact twoLeaves config chunkMap strategy 0x403000 rfl
    (by decide) (by decide) twoLeavesRange .empty 0x3000 0x4000
  rw [twoLeavesRange_pairs] at hrange hwalk
  exact ⟨by decide, hrange, hwalk⟩

end Crafted
end Rotshield.Btrfs
