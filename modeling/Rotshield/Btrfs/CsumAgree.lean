import Rotshield.Btrfs.RangeExact

/-! The two lookups of a checksum, by range and by address, agree on a healthy CSUM_TREE. -/
namespace Rotshield.Btrfs
open Lib (HeadsTree)

/-- A well-formed CSUM_TREE of at most 16 levels whose nodes are also valid where nothing is
expected of their headers; its items are aligned, whole and not empty. -/
structure AgreeTree (reader : FsReader Exec) (chunkMap : ChunkMap) (strategy : CsumStrategy)
    (root : UInt64) extends RangeTree reader chunkMap strategy root where
  plain : HeadsTree (pageAt reader chunkMap) Leaf.keys height root leaves
  levels : height < maxDepth
  aligned : ∀ leaf ∈ leaves, ∀ e ∈ leaf.entries, strategy.sectorSize.toNat ∣ e.1.offset.toNat
  whole : ∀ leaf ∈ leaves, ∀ e ∈ leaf.entries, strategy.hashLen ∣ e.2.length
  nonempty : ∀ leaf ∈ leaves, ∀ e ∈ leaf.entries, e.2 ≠ []

section Item
variable {strategy : CsumStrategy} {e : Key × Bytes} {sector : UInt64} {hash : Bytes}

/-- A pair of an item is a sector it covers, with its checksum there. -/
theorem mem_itemPairs_iff (hend : e.1.offset.toNat + csumSpan strategy e.2 < 2 ^ 64)
    (haligned : strategy.sectorSize.toNat ∣ e.1.offset.toNat)
    (hsector : strategy.sectorSize.toNat ∣ sector.toNat) :
    ⟨sector, hash⟩ ∈ itemPairs strategy e ↔ HoldsHash strategy sector hash e := by
  have hsize : 0 < strategy.sectorSize.toNat := UInt64.lt_iff_toNat_lt.mp strategy.sectorSize_pos
  constructor
  · intro h
    have hcov := pair_covered hend h
    obtain ⟨s, hs, hlogical, hcsum⟩ := mem_itemPairs h
    dsimp only at hcov hlogical hcsum
    have hat := pair_logical hend hs
    rw [← hlogical] at hat
    refine ⟨⟨hcov.1, by omega⟩, ?_⟩
    unfold hashAt
    rw [hat, Nat.add_sub_cancel_left, Nat.mul_div_cancel _ hsize, ← hcsum]
  · rintro ⟨⟨hstart, hbelow⟩, rfl⟩
    obtain ⟨s, hs⟩ := Nat.dvd_sub hsector haligned
    have hlt : s < e.2.length / strategy.hashLen := by
      by_contra hge
      have hmul := Nat.mul_le_mul_right strategy.sectorSize.toNat (Nat.le_of_not_lt hge)
      rw [Nat.mul_comm s] at hmul
      unfold csumSpan at hbelow
      omega
    have hindex : (sector.toNat - e.1.offset.toNat) / strategy.sectorSize.toNat = s := by
      rw [hs, Nat.mul_div_cancel_left _ hsize]
    refine List.mem_map.mpr ⟨s, List.mem_range.mpr hlt, ?_⟩
    have hat : e.1.offset + UInt64.ofNat s * strategy.sectorSize = sector := by
      apply UInt64.toNat_inj.mp
      rw [pair_logical hend hlt, Nat.mul_comm]
      omega
    rw [hat, hashAt, hindex]

end Item

namespace AgreeTree
variable {reader : FsReader Exec} {chunkMap : ChunkMap} {strategy : CsumStrategy} {root : UInt64}
  (t : AgreeTree reader chunkMap strategy root)

/-- The tree as the single-path search sees it. -/
def searched : CsumTree reader chunkMap strategy root where
  height := t.height
  leaves := t.leaves
  heads := t.plain
  levels := t.levels
  sorted := t.sorted.imp fun h => le_of_lt h
  data := t.data
  isCsum := by
    intro e he
    obtain ⟨leaf, hleaf, he⟩ := List.mem_flatMap.mp he
    have hkey := t.isCsum leaf hleaf e he
    exact ⟨congrArg Key.objectid hkey, congrArg Key.ty hkey⟩
  aligned := by
    intro e he
    obtain ⟨leaf, hleaf, he⟩ := List.mem_flatMap.mp he
    exact t.aligned leaf hleaf e he
  whole := by
    intro e he
    obtain ⟨leaf, hleaf, he⟩ := List.mem_flatMap.mp he
    exact t.whole leaf hleaf e he
  disjoint := t.disjoint

theorem entries_eq : t.searched.entries = t.leaves.flatMap Leaf.entries := rfl

theorem entry_spec {e : Key × Bytes} (he : e ∈ t.searched.entries) :
    e.1 = csumKey e.1.offset ∧ strategy.sectorSize.toNat ∣ e.1.offset.toNat ∧
      e.1.offset.toNat + csumSpan strategy e.2 < 2 ^ 64 ∧
      CsumCovers strategy e e.1.offset.toNat := by
  rw [entries_eq] at he
  obtain ⟨leaf, hleaf, he⟩ := List.mem_flatMap.mp he
  refine ⟨t.isCsum leaf hleaf e he, t.aligned leaf hleaf e he, t.ends leaf hleaf e he, ?_⟩
  have hsize : 0 < strategy.sectorSize.toNat := UInt64.lt_iff_toNat_lt.mp strategy.sectorSize_pos
  have hcount : 0 < e.2.length / strategy.hashLen := Nat.div_pos
    (Nat.le_of_dvd (List.length_pos_of_ne_nil (t.nonempty leaf hleaf e he))
      (t.whole leaf hleaf e he)) strategy.hashLen_pos
  have hspan : 0 < csumSpan strategy e.2 := Nat.mul_pos hcount hsize
  exact ⟨Nat.le_refl _, by omega⟩

/-- The item that covers a sector is the last one at or before it. -/
theorem isLast_of_covers {e : Key × Bytes} (he : e ∈ t.searched.entries) {sector : UInt64}
    (hcov : CsumCovers strategy e sector.toNat) : t.searched.IsLast (csumTarget sector) e := by
  obtain ⟨hkey, -, -, -⟩ := t.entry_spec he
  obtain ⟨pre, post, hsplit⟩ := List.append_of_mem he
  have hle : e.1 ≤ csumTarget sector := by
    rw [hkey]
    exact csumKey_le.mpr hcov.1
  refine ⟨hle, pre, post, hsplit, ?_⟩
  intro x hx
  have hxin : x ∈ t.searched.entries := by
    rw [hsplit]
    exact List.mem_append_right pre (List.mem_cons_of_mem e hx)
  obtain ⟨hxkey, -, -, hxstart⟩ := t.entry_spec hxin
  have hkeys := t.searched.entries_sorted
  have hdisjoint := t.searched.disjoint
  rw [hsplit] at hkeys hdisjoint
  have hafter := List.rel_of_pairwise_cons (List.pairwise_append.mp hkeys).2.1 hx
  have hapart := List.rel_of_pairwise_cons (List.pairwise_append.mp hdisjoint).2.1 hx
  by_contra hnot
  have hxle : x.1.offset.toNat ≤ sector.toNat := by
    have h := le_of_not_gt hnot
    rw [hxkey] at h
    exact csumKey_le.mp h
  have hex : e.1.offset.toNat ≤ x.1.offset.toNat := by
    rw [hkey, hxkey] at hafter
    exact csumKey_le.mp hafter
  exact hapart x.1.offset.toNat ⟨hex, Nat.lt_of_le_of_lt hxle hcov.2⟩ hxstart

/-- The search by address finds exactly the pair of the tree. -/
theorem csumAt_pairs {sector : UInt64} (haligned : strategy.sectorSize.toNat ∣ sector.toNat) :
    ∃ live, csumAt reader chunkMap root sector strategy.hashLen strategy.sectorSize = .ok live ∧
      live ≠ .unreadable ∧ ∀ hash, live = .some hash ↔ ⟨sector, hash⟩ ∈ t.pairs := by
  obtain ⟨live, hlive, hread, hspec⟩ := t.searched.csumAt_spec (sectorOf_aligned haligned)
  refine ⟨live, hlive, hread, fun hash => ?_⟩
  rw [hspec, t.pairs_eq, List.mem_flatMap, ← t.entries_eq]
  constructor
  · rintro ⟨e, he, hholds, -, -⟩
    obtain ⟨-, hstart, hend, -⟩ := t.entry_spec he
    exact ⟨e, he, (mem_itemPairs_iff hend hstart haligned).mpr hholds⟩
  · rintro ⟨e, he, hpair⟩
    obtain ⟨-, hstart, hend, -⟩ := t.entry_spec he
    have hholds := (mem_itemPairs_iff hend hstart haligned).mp hpair
    exact ⟨e, he, hholds, t.isLast_of_covers he hholds.1, endAbove_of_lt hholds.1 hend⟩

end AgreeTree

/-- A sector has a checksum by address exactly when every range around it emits that pair, and has
none exactly when the range emits no pair for it. -/
theorem csumAt_agrees_with_range (image : Image) (config : ReaderConfig) (chunkMap : ChunkMap)
    (strategy : CsumStrategy) (root : UInt64) (hstrategy : config.strategy = some strategy)
    (hnode : config.nodeSize < 2 ^ 32) (hsize : strategy.sectorSize.toNat < 2 ^ 32)
    (t : AgreeTree (image.reader config) chunkMap strategy root) (tallies : CsumTallies)
    (sector : UInt64) (haligned : strategy.sectorSize.toNat ∣ sector.toNat) :
    ∃ live, csumAt (image.reader config) chunkMap root sector strategy.hashLen
        strategy.sectorSize = .ok live ∧
      ∀ lo hi, lo ≤ sector → sector < hi → ∃ out tallies',
        (laterProvider image config chunkMap root strategy tallies).range lo hi =
          .ok (out, laterProvider image config chunkMap root strategy tallies') ∧
        (∀ hash, live = .some hash ↔ ⟨sector, hash⟩ ∈ out) ∧
        (live = .none ↔ ∀ hash, ⟨sector, hash⟩ ∉ out) := by
  obtain ⟨live, hlive, hread, hpairs⟩ := t.csumAt_pairs haligned
  refine ⟨live, hlive, ?_⟩
  intro lo hi hlo hhi
  obtain ⟨tallies', hrange⟩ := range_of_tree image config chunkMap strategy root hstrategy hnode
    hsize t.toRangeTree tallies lo hi
  have hmem : ∀ hash, ⟨sector, hash⟩ ∈ t.pairs.filter (CsumEntry.within lo hi) ↔
      ⟨sector, hash⟩ ∈ t.pairs := by
    intro hash
    rw [List.mem_filter]
    simp [CsumEntry.within, hlo, hhi]
  refine ⟨_, tallies', hrange, fun hash => by rw [hpairs, hmem], ?_⟩
  constructor
  · rintro rfl hash hin
    have hsome := (hpairs hash).mpr ((hmem hash).mp hin)
    cases hsome
  · intro hnone
    cases live with
    | none => rfl
    | unreadable => exact absurd rfl hread
    | some hash => exact absurd ((hmem hash).mpr ((hpairs hash).mp rfl)) (hnone hash)

namespace Crafted

def twoLeavesAgree : AgreeTree (twoLeaves.reader config) chunkMap strategy 0x403000 where
  toRangeTree := twoLeavesRange
  plain := by
    have hroot : nodeAt (twoLeaves.reader config) chunkMap 0x403000 = .ok (.ok
        ⟨some (.internal ⟨twoHeader, [pairPtr, farPtr]⟩), false, false, false⟩) :=
      twoLeaves_root genDontCheck none none
    have hpair : nodeAt (twoLeaves.reader config) chunkMap 0x404000 = .ok (.ok
        ⟨some (.leaf pairLeaf), false, false, false⟩) := twoLeaves_pair genDontCheck none none
    have hfar : nodeAt (twoLeaves.reader config) chunkMap 0x405000 = .ok (.ok
        ⟨some (.leaf farLeaf), false, false, false⟩) := twoLeaves_far genDontCheck none none
    exact ⟨_, [[pairLeaf], [farLeaf]], pageAt_of_nodeAt hroot, List.cons_ne_nil _ _, rfl,
      .cons ⟨⟨pairLeaf, pageAt_of_nodeAt hpair, rfl⟩, rfl⟩
        (.cons ⟨⟨farLeaf, pageAt_of_nodeAt hfar, rfl⟩, rfl⟩ .nil)⟩
  levels := by decide
  aligned := twoLeaves_all (by decide) (by decide)
  whole := twoLeaves_all (by decide) (by decide)
  nonempty := twoLeaves_all (by decide) (by decide)

/-- The second sector of an item has its checksum by address and in every range around it. -/
theorem csumAt_agrees_with_range_twoLeaves :
    csumAt (twoLeaves.reader config) chunkMap 0x403000 0x3000 strategy.hashLen
      strategy.sectorSize = .ok (.some [5, 6, 7, 8]) ∧
    ∀ lo hi, lo ≤ 0x3000 → 0x3000 < hi → ∃ out tallies',
      (laterProvider twoLeaves config chunkMap 0x403000 strategy .empty).range lo hi =
        .ok (out, laterProvider twoLeaves config chunkMap 0x403000 strategy tallies') ∧
      ⟨0x3000, [5, 6, 7, 8]⟩ ∈ out := by
  obtain ⟨live, hlive, hranges⟩ := csumAt_agrees_with_range twoLeaves config chunkMap strategy
    0x403000 rfl (by decide) (by decide) twoLeavesAgree .empty 0x3000 (by decide)
  obtain ⟨tallies', hnarrow⟩ := range_of_tree twoLeaves config chunkMap strategy 0x403000 rfl
    (by decide) (by decide) twoLeavesRange .empty 0x3000 0x4000
  have hsome : live = .some [5, 6, 7, 8] := by
    obtain ⟨out, tallies'', hrange, hiff, -⟩ := hranges 0x3000 0x4000 (by decide) (by decide)
    rw [twoLeavesRange_pairs, hrange] at hnarrow
    obtain ⟨rfl, -⟩ := Prod.mk.inj (Except.ok.inj hnarrow)
    exact (hiff _).mpr (List.mem_singleton_self _)
  subst hsome
  refine ⟨hlive, ?_⟩
  intro lo hi hlo hhi
  obtain ⟨out, tallies'', hrange, hiff, -⟩ := hranges lo hi hlo hhi
  exact ⟨out, tallies'', hrange, (hiff _).mp rfl⟩

end Crafted
end Rotshield.Btrfs
