import Rotshield.Btrfs.CsumTree
import Rotshield.Btrfs.ExtentTree

/-! Re-confirmation on healthy metadata: when it is exact. -/
namespace Rotshield.Btrfs

/-- A sector-aligned address is its own sector. -/
theorem sectorOf_aligned {strategy : CsumStrategy} {logical : UInt64}
    (h : strategy.sectorSize.toNat ∣ logical.toNat) :
    sectorOf strategy.sectorSize logical = logical := by
  apply UInt64.toNat_inj.mp
  rw [sectorOf, UInt64.toNat_mul, UInt64.toNat_div, Nat.div_mul_cancel h,
    Nat.mod_eq_of_lt logical.toNat_lt]

section Exact
variable {reader : FsReader Exec} {chunkMap : ChunkMap} {strategy : CsumStrategy}
  {extentRoot csumRoot logical : UInt64}

/-- The address is still owned, with checksums, and its checksum is still the stored one. -/
def StillCorrupt (extents : ExtentTree reader chunkMap extentRoot)
    (csums : CsumTree reader chunkMap strategy csumRoot) (logical : UInt64) (stored : Bytes) : Prop :=
  (∃ e ∈ extents.entries, Owner logical e) ∧
    ∃ c ∈ csums.entries, HoldsHash strategy logical stored c

/-- Corruption exactly then, Stale in every other case. -/
def ExactVerdict (extents : ExtentTree reader chunkMap extentRoot)
    (csums : CsumTree reader chunkMap strategy csumRoot) (logical : UInt64) (stored : Bytes)
    (verdict : Exec Reconfirm) : Prop :=
  (verdict = .ok .corruption ↔ StillCorrupt extents csums logical stored) ∧
    (¬StillCorrupt extents csums logical stored → verdict = .ok .stale)

/-- Where the searches look: the owner in the leaf that holds the last key up to the address, the
checksum in the last item up to the sector, its end above it. -/
def WithinSight (extents : ExtentTree reader chunkMap extentRoot)
    (csums : CsumTree reader chunkMap strategy csumRoot) (logical : UInt64) (stored : Bytes) : Prop :=
  ∀ e ∈ extents.entries, Owner logical e → ∀ c ∈ csums.entries, HoldsHash strategy logical stored c →
    extents.InLastLeaf (extentTarget logical) e ∧ csums.IsLast (csumTarget logical) c ∧
      EndAbove strategy logical c

/-- The verdict on healthy metadata: what the two searches see of it decides. -/
theorem reconfirmMismatch_healthy (extents : ExtentTree reader chunkMap extentRoot)
    (csums : CsumTree reader chunkMap strategy csumRoot)
    (haligned : strategy.sectorSize.toNat ∣ logical.toNat) (stored : Bytes) :
    ∃ verdict, reconfirmMismatch reader chunkMap extentRoot csumRoot logical stored
        strategy.hashLen strategy.sectorSize = .ok verdict ∧
      (verdict = .corruption ∨ verdict = .stale) ∧
      (verdict = .corruption ↔
        (∃ e ∈ extents.entries, Owner logical e ∧
          extents.InLastLeaf (extentTarget logical) e) ∧
        ∃ c ∈ csums.entries, HoldsHash strategy logical stored c ∧
          csums.IsLast (csumTarget logical) c ∧ EndAbove strategy logical c) := by
  obtain ⟨owner, howner, hread, hlive⟩ := extents.extentCovers_spec logical
  obtain ⟨live, hcsum, hreadCsum, hhash⟩ := csums.csumAt_spec (sectorOf_aligned haligned)
  unfold reconfirmMismatch
  rw [howner, ← hlive, ← hhash stored]
  cases owner with
  | unreadable => exact absurd rfl hread
  | hole => exact ⟨.stale, rfl, .inr rfl, iff_of_false (by simp) (by simp)⟩
  | noDataSum => exact ⟨.stale, rfl, .inr rfl, iff_of_false (by simp) (by simp)⟩
  | live =>
      simp only [bind, Except.bind, hcsum]
      cases live with
      | unreadable => exact absurd rfl hreadCsum
      | none => exact ⟨.stale, rfl, .inr rfl, iff_of_false (by simp) (by simp)⟩
      | some csum =>
          by_cases heq : csum = stored
          · refine ⟨.corruption, ?_, .inl rfl, iff_of_true rfl ⟨trivial, by rw [heq]⟩⟩
            simp only [heq, if_true, pure, Except.pure]
          · refine ⟨.stale, ?_, .inr rfl, iff_of_false (by simp) fun h => ?_⟩
            · simp only [heq, if_false, pure, Except.pure]
            · exact heq (CsumLive.some.inj h.2)

end Exact

/-- On healthy metadata the verdict is exact where the searches see the owner and the checksum,
and only there. -/
theorem reconfirmMismatch_exact_iff (image : Image) (config : ReaderConfig) (chunkMap : ChunkMap)
    (strategy : CsumStrategy) (extentRoot csumRoot logical : UInt64) (stored : Bytes)
    (extents : ExtentTree (image.reader config) chunkMap extentRoot)
    (csums : CsumTree (image.reader config) chunkMap strategy csumRoot)
    (haligned : strategy.sectorSize.toNat ∣ logical.toNat) :
    ExactVerdict extents csums logical stored
        (reconfirmMismatch (image.reader config) chunkMap extentRoot csumRoot logical stored
          strategy.hashLen strategy.sectorSize) ↔
      WithinSight extents csums logical stored := by
  obtain ⟨verdict, hverdict, hkind, hcorrupt⟩ :=
    reconfirmMismatch_healthy extents csums haligned stored
  rw [hverdict]
  unfold ExactVerdict
  rw [Except.ok.injEq, Except.ok.injEq, hcorrupt]
  constructor
  · rintro ⟨hiff, _⟩ e he hown c hc hholds
    obtain ⟨⟨e', he', hown', hleaf⟩, c', hc', hholds', hlast, habove⟩ :=
      hiff.mpr ⟨⟨e, he, hown⟩, c, hc, hholds⟩
    obtain rfl := eq_of_disjoint extents.disjoint he he' hown.1 hown'.1
    obtain rfl := eq_of_disjoint csums.disjoint hc hc' hholds.1 hholds'.1
    exact ⟨hleaf, hlast, habove⟩
  · intro hsight
    have hiff : ((∃ e ∈ extents.entries, Owner logical e ∧
          extents.InLastLeaf (extentTarget logical) e) ∧
        ∃ c ∈ csums.entries, HoldsHash strategy logical stored c ∧
          csums.IsLast (csumTarget logical) c ∧ EndAbove strategy logical c) ↔
        StillCorrupt extents csums logical stored := by
      constructor
      · rintro ⟨⟨e, he, hown, _⟩, c, hc, hholds, _⟩
        exact ⟨⟨e, he, hown⟩, c, hc, hholds⟩
      · rintro ⟨⟨e, he, hown⟩, c, hc, hholds⟩
        obtain ⟨hleaf, hlast, habove⟩ := hsight e he hown c hc hholds
        exact ⟨⟨e, he, hown, hleaf⟩, c, hc, hholds, hlast, habove⟩
    refine ⟨hiff, fun hnot => ?_⟩
    rcases hkind with h | h
    · exact absurd (hiff.mp (hcorrupt.mp h)) hnot
    · exact h

namespace Crafted

/-! An extent of three sectors whose back-reference begins the next leaf. The last two sectors
sort after the back-reference. -/

def extentKey : Key := { objectid := 0x1000, ty := KeyType.extentItem, offset := 0x3000 }

def backrefKey : Key := { objectid := 0x1000, ty := 178, offset := 5 }

def csumKey : Key :=
  { objectid := ObjectId.extentCsum, ty := KeyType.extentCsum, offset := 0x2000 }

/-- One reference, generation 1, flag DATA. -/
def extentData : Bytes := toLe 8 1 ++ toLe 8 1 ++ toLe 8 1

def extentRootHeader : Header := header 0x400000 1 ObjectId.extentTree 2 1
def extentLeaf : Leaf :=
  itemLeaf (header 0x401000 1 ObjectId.extentTree 1 0) extentKey extentData
def backrefLeaf : Leaf :=
  itemLeaf (header 0x402000 1 ObjectId.extentTree 1 0) backrefKey (List.replicate 28 0)
def csumLeaf : Leaf :=
  itemLeaf (header 0x403000 1 ObjectId.csumTree 1 0) csumKey [1, 2, 3, 4]

def extentPtrs : List KeyPtr :=
  [{ key := extentKey, blockptr := 0x401000, generation := 1 },
   { key := backrefKey, blockptr := 0x402000, generation := 1 }]

def splitExtent : Image := Image.ofRegions
  [(0x400000, internalBytes extentRootHeader extentPtrs), (0x401000, extentLeaf.buf),
   (0x402000, backrefLeaf.buf), (0x403000, csumLeaf.buf)]

theorem splitExtent_apart : Apart
    [(0x400000, internalBytes extentRootHeader extentPtrs), (0x401000, extentLeaf.buf),
     (0x402000, backrefLeaf.buf), (0x403000, csumLeaf.buf)] := by
  have hroot : (internalBytes extentRootHeader extentPtrs).length = 4096 :=
    internalBytes_length (header_sized _ _ _ _ _) (by decide)
  have hextent : extentLeaf.buf.length = 4096 :=
    itemLeaf_length (header_sized _ _ _ _ _) (by decide)
  have hbackref : backrefLeaf.buf.length = 4096 :=
    itemLeaf_length (header_sized _ _ _ _ _) (by decide)
  simp [Apart, hroot, hextent, hbackref]

theorem splitExtent_root : nodeAt (splitExtent.reader config) chunkMap 0x400000 = .ok (.ok
    ⟨some (.internal ⟨extentRootHeader, extentPtrs⟩), false, false, false⟩) :=
  readNode_internalBytes rfl splitExtent_apart (by decide) (.head _) (header_sized _ _ _ _ _)
    (by decide) rfl (by decide) genDontCheck none none

theorem splitExtent_extent : nodeAt (splitExtent.reader config) chunkMap 0x401000 = .ok (.ok
    ⟨some (.leaf extentLeaf), false, false, false⟩) :=
  readNode_itemLeaf rfl splitExtent_apart (by decide) (.tail _ (.head _))
    (header_sized _ _ _ _ _) rfl rfl (by decide) genDontCheck none none

theorem splitExtent_backref : nodeAt (splitExtent.reader config) chunkMap 0x402000 = .ok (.ok
    ⟨some (.leaf backrefLeaf), false, false, false⟩) :=
  readNode_itemLeaf rfl splitExtent_apart (by decide) (.tail _ (.tail _ (.head _)))
    (header_sized _ _ _ _ _) rfl rfl (by decide) genDontCheck none none

theorem splitExtent_csum : nodeAt (splitExtent.reader config) chunkMap 0x403000 = .ok (.ok
    ⟨some (.leaf csumLeaf), false, false, false⟩) :=
  readNode_itemLeaf rfl splitExtent_apart (by decide) (.tail _ (.tail _ (.tail _ (.head _))))
    (header_sized _ _ _ _ _) rfl rfl (by decide) genDontCheck none none

theorem itemLeaf_entries {h : Header} (hs : h.Sized) {key : Key} {data : Bytes}
    (hfits : data.length ≤ 3970) : (itemLeaf h key data).entries = [(key, data)] := by
  have hdata : (itemLeaf h key data).dataOf (itemSlot key data) = .ok data :=
    itemLeaf_dataOf hs hfits
  unfold Leaf.entries
  have hslots : (itemLeaf h key data).slots = [itemSlot key data] := rfl
  rw [hslots, List.map_singleton, hdata]
  rfl

def splitExtentPages : HealthyTree (splitExtent.reader config) chunkMap 0x400000 where
  height := 1
  leaves := [extentLeaf, backrefLeaf]
  heads := ⟨_, [[extentLeaf], [backrefLeaf]], pageAt_of_nodeAt splitExtent_root, by simp [extentPtrs],
    rfl, .cons ⟨⟨_, pageAt_of_nodeAt splitExtent_extent, rfl⟩, rfl⟩
      (.cons ⟨⟨_, pageAt_of_nodeAt splitExtent_backref, rfl⟩, rfl⟩ .nil)⟩
  levels := by decide
  sorted := by
    have hkeys : [extentLeaf, backrefLeaf].flatMap Leaf.keys = [extentKey, backrefKey] := rfl
    have hle : extentKey ≤ backrefKey := by decide
    rw [hkeys]
    simp [hle]
  data := by
    have hextent : extentLeaf.dataOf (itemSlot extentKey extentData) = _ :=
      itemLeaf_dataOf (header_sized _ _ _ _ _) (by decide)
    have hbackref : backrefLeaf.dataOf (itemSlot backrefKey (List.replicate 28 0)) = _ :=
      itemLeaf_dataOf (header_sized _ _ _ _ _) (by decide)
    intro leaf hleaf slot hslot
    simp only [List.mem_cons, List.not_mem_nil, or_false] at hleaf
    rcases hleaf with rfl | rfl
    · obtain rfl := List.mem_singleton.mp hslot
      exact ⟨_, hextent⟩
    · obtain rfl := List.mem_singleton.mp hslot
      exact ⟨_, hbackref⟩

theorem splitExtentPages_entries : splitExtentPages.entries =
    [(extentKey, extentData), (backrefKey, List.replicate 28 0)] := by
  have hextent : extentLeaf.entries = _ := itemLeaf_entries (header_sized _ _ _ _ _) (by decide)
  have hbackref : backrefLeaf.entries = _ := itemLeaf_entries (header_sized _ _ _ _ _) (by decide)
  unfold HealthyTree.entries
  have hleaves : splitExtentPages.leaves = [extentLeaf, backrefLeaf] := rfl
  rw [hleaves, List.flatMap_cons, List.flatMap_singleton, hextent, hbackref]
  rfl

theorem backrefKey_not_extent : ¬IsExtent backrefKey := by
  unfold IsExtent
  decide

def splitExtents : ExtentTree (splitExtent.reader config) chunkMap 0x400000 where
  toHealthyTree := splitExtentPages
  nonempty := by
    rw [splitExtentPages_entries]
    simp [backrefKey_not_extent, extentKey]
  no_wrap := by
    rw [splitExtentPages_entries]
    simp [backrefKey_not_extent, extentKey]
  disjoint := by
    rw [splitExtentPages_entries]
    simp [ExtentCovers, backrefKey_not_extent]

theorem csumLeaf_data :
    ∀ leaf ∈ [csumLeaf], ∀ slot ∈ leaf.slots, ∃ data, leaf.dataOf slot = .ok data := by
  have hcsum : csumLeaf.dataOf (itemSlot csumKey [1, 2, 3, 4]) = _ :=
    itemLeaf_dataOf (header_sized _ _ _ _ _) (by decide)
  intro leaf hleaf slot hslot
  obtain rfl := List.mem_singleton.mp hleaf
  obtain rfl := List.mem_singleton.mp hslot
  exact ⟨_, hcsum⟩

def splitCsumPages : HealthyTree (splitExtent.reader config) chunkMap 0x403000 where
  height := 0
  leaves := [csumLeaf]
  heads := ⟨_, pageAt_of_nodeAt splitExtent_csum, rfl⟩
  levels := maxDepth_pos
  sorted := List.pairwise_singleton _ _
  data := csumLeaf_data

theorem splitCsumPages_entries : splitCsumPages.entries = [(csumKey, [1, 2, 3, 4])] := by
  have hcsum : csumLeaf.entries = _ := itemLeaf_entries (header_sized _ _ _ _ _) (by decide)
  unfold HealthyTree.entries
  have hleaves : splitCsumPages.leaves = [csumLeaf] := rfl
  rw [hleaves, List.flatMap_singleton, hcsum]

def splitCsums : CsumTree (splitExtent.reader config) chunkMap strategy 0x403000 where
  toHealthyTree := splitCsumPages
  isCsum := by
    rw [splitCsumPages_entries]
    simp [csumKey]
  aligned := by
    rw [splitCsumPages_entries]
    simp [csumKey, strategy]
  whole := by
    rw [splitCsumPages_entries]
    simp [strategy, CsumStrategy.hashLen, CsumType.hashLen]
  disjoint := by
    rw [splitCsumPages_entries]
    exact List.pairwise_singleton _ _

theorem reconfirmMismatch_exact_iff_splitExtent :
    strategy.sectorSize.toNat ∣ (0x2000 : UInt64).toNat ∧
      (ExactVerdict splitExtents splitCsums 0x2000 [1, 2, 3, 4]
          (reconfirmMismatch (splitExtent.reader config) chunkMap 0x400000 0x403000 0x2000
            [1, 2, 3, 4] strategy.hashLen strategy.sectorSize) ↔
        WithinSight splitExtents splitCsums 0x2000 [1, 2, 3, 4]) := by
  have haligned : strategy.sectorSize.toNat ∣ (0x2000 : UInt64).toNat := by decide
  exact ⟨haligned, reconfirmMismatch_exact_iff splitExtent config chunkMap strategy 0x400000 0x403000
    0x2000 [1, 2, 3, 4] splitExtents splitCsums haligned⟩

/-- The second sector of the extent still has the checksum the scan saw, and is called Stale. -/
theorem splitExtent_not_exact : ¬ExactVerdict splitExtents splitCsums 0x2000 [1, 2, 3, 4]
    (reconfirmMismatch (splitExtent.reader config) chunkMap 0x400000 0x403000 0x2000 [1, 2, 3, 4]
      strategy.hashLen strategy.sectorSize) := by
  intro hexact
  have hcorrupt : StillCorrupt splitExtents splitCsums 0x2000 [1, 2, 3, 4] := by
    constructor
    · refine ⟨(extentKey, extentData), ?_, ⟨rfl, by decide, by decide⟩, by decide⟩
      have hentries : splitExtents.entries = _ := splitExtentPages_entries
      rw [hentries]
      exact .head _
    · refine ⟨(csumKey, [1, 2, 3, 4]), ?_, ⟨by decide, by decide⟩, rfl⟩
      have hentries : splitCsums.entries = _ := splitCsumPages_entries
      rw [hentries]
      exact .head _
  have hstale : reconfirmMismatch (splitExtent.reader config) chunkMap 0x400000 0x403000 0x2000
      [1, 2, 3, 4] strategy.hashLen strategy.sectorSize = .ok .stale := by
    have hchild : childFor (extentTarget 0x2000) extentPtrs =
        some ⟨backrefKey, 0x402000, 1⟩ := by decide
    have hleaf : LeafAt (splitExtent.reader config) chunkMap 0x402000 backrefLeaf :=
      ⟨_, splitExtent_backref, rfl, rfl⟩
    have hhole : extentInLeaf backrefLeaf 0x2000 = .ok .hole := by decide
    unfold reconfirmMismatch
    rw [extentCovers_eq, maxDepth, descend_of_child splitExtent_root hchild, descend_of_leaf hleaf]
    simp only [bind, Except.bind, liftExec_exec, hhole]
    rfl
  have hverdict := hexact.1.mpr hcorrupt
  rw [hstale] at hverdict
  cases hverdict

end Crafted
end Rotshield.Btrfs
