import Rotshield.Btrfs.CraftLive
import Rotshield.Btrfs.Exact

/-! A crafted filesystem of one sector, before and after a commit that frees it. -/
namespace Rotshield.Btrfs.Crafted

/-! ### A leaf of items -/

theorem entries_of_items {leaf : Leaf} {slots : List LeafItemSlot} {items : List (Key × Bytes)}
    (h : List.Forall₂ (fun slot item => slot.key = item.1 ∧ leaf.dataOf slot = .ok item.2) slots
      items) :
    slots.map (fun slot => (slot.key, (leaf.dataOf slot).toOption.getD [])) = items := by
  induction h with
  | nil => rfl
  | cons hslot _ ih =>
      rw [List.map_cons, hslot.1, hslot.2, ih]
      rfl

section Items
variable {h : Header} {items : List (Key × Bytes)}

theorem itemsLeaf_keys : (itemsLeaf h items).keys = items.map Prod.fst := by
  have hkeys : ∀ (start : Nat) (items : List (Key × Bytes)),
      (itemSlots start items).map (·.key) = items.map Prod.fst := by
    intro start items
    induction items generalizing start with
    | nil => rfl
    | cons item items ih => exact congrArg (item.1 :: ·) (ih _)
  exact hkeys _ items

theorem itemsLeaf_entries (hs : h.Sized)
    (hfits : 25 * items.length + (itemData items).length ≤ 3995) :
    (itemsLeaf h items).entries = items := entries_of_items (itemsLeaf_dataOf hs hfits)

theorem itemsLeaf_data (hs : h.Sized)
    (hfits : 25 * items.length + (itemData items).length ≤ 3995) :
    ∀ slot ∈ (itemsLeaf h items).slots, ∃ bytes, (itemsLeaf h items).dataOf slot = .ok bytes := by
  intro slot hslot
  obtain ⟨i, hi, rfl⟩ := List.getElem_of_mem hslot
  have hdata := itemsLeaf_dataOf hs hfits
  exact ⟨_, (List.Forall₂.get hdata hi (hdata.length_eq ▸ hi)).2⟩

end Items

/-! ### A tree of one item -/

def oneLeafOf (root owner : UInt64) (key : Key) (data : Bytes) : Leaf :=
  itemsLeaf (header root 1 owner 1 0) [(key, data)]

section OneItem
variable {image : Image} {map : ChunkMap} {root owner : UInt64} {key target : Key} {data : Bytes}

theorem oneItem_fits (hfits : data.length ≤ 3970) :
    25 * [(key, data)].length + (itemData [(key, data)]).length ≤ 3995 := by
  have hdata : itemData [(key, data)] = data := List.append_nil data
  rw [hdata, List.length_singleton]
  omega

theorem oneLeafOf_length (hfits : data.length ≤ 3970) :
    (oneLeafOf root owner key data).buf.length = 4096 :=
  itemsLeaf_length (header_sized _ _ _ _ _) (oneItem_fits hfits)

theorem oneLeafOf_entries (hfits : data.length ≤ 3970) :
    (oneLeafOf root owner key data).entries = [(key, data)] :=
  itemsLeaf_entries (header_sized _ _ _ _ _) (oneItem_fits hfits)

theorem pageAt_oneLeaf (hread : image.pread root 4096 = .ok (oneLeafOf root owner key data).buf)
    (hstripes : map.lookupStripes root = some [(1, root)]) :
    pageAt (image.reader config) map root = some (.leaf (oneLeafOf root owner key data)) := by
  have hvalid : config.validateHeader (header root 1 owner 1 0) root genDontCheck none none =
      true := by
    simp [ReaderConfig.validateHeader, config, header]
  have hgood : GoodNode (image.reader config) map (.root root)
      (.leaf (oneLeafOf root owner key data)) :=
    itemsLeaf_good (header_sized _ _ _ _ _) rfl rfl hstripes hread hvalid
  obtain ⟨⟨node, failed, stale, mirrors⟩, hnode, rfl, rfl, rfl⟩ := hgood
  exact pageAt_of_nodeAt hnode

/-- A leaf of one item that is read whole is a healthy tree. -/
def oneItem (hread : image.pread root 4096 = .ok (oneLeafOf root owner key data).buf)
    (hstripes : map.lookupStripes root = some [(1, root)]) (hfits : data.length ≤ 3970) :
    HealthyTree (image.reader config) map root where
  height := 0
  leaves := [oneLeafOf root owner key data]
  heads := ⟨_, pageAt_oneLeaf hread hstripes, rfl⟩
  levels := maxDepth_pos
  sorted := List.pairwise_singleton _ _
  data leaf hleaf := by
    obtain rfl := List.mem_singleton.mp hleaf
    exact itemsLeaf_data (header_sized _ _ _ _ _) (oneItem_fits hfits)

variable (hread : image.pread root 4096 = .ok (oneLeafOf root owner key data).buf)
  (hstripes : map.lookupStripes root = some [(1, root)]) (hfits : data.length ≤ 3970)

theorem oneItem_entries : (oneItem hread hstripes hfits).entries = [(key, data)] := by
  unfold HealthyTree.entries
  change [oneLeafOf root owner key data].flatMap Leaf.entries = _
  rw [List.flatMap_singleton, oneLeafOf_entries hfits]

theorem oneItem_isLast (hle : key ≤ target) :
    (oneItem hread hstripes hfits).IsLast target (key, data) :=
  ⟨hle, [], [], oneItem_entries hread hstripes hfits, fun _ h => (List.not_mem_nil h).elim⟩

theorem oneItem_inLastLeaf : (oneItem hread hstripes hfits).InLastLeaf target (key, data) := by
  refine ⟨oneLeafOf root owner key data, [], [], ⟨rfl, ?_, ?_, ?_⟩, ?_⟩
  · exact fun _ h => (List.not_mem_nil h).elim
  · exact fun _ h => (List.not_mem_nil h).elim
  · rintro ⟨k, hk, hle⟩
    refine ⟨k, ?_, hle⟩
    change k ∈ [oneLeafOf root owner key data].flatMap Leaf.keys at hk
    rwa [List.flatMap_singleton] at hk
  · rw [oneLeafOf_entries hfits]
    exact .head _

end OneItem

/-- An extent tree of one extent. -/
def oneExtent {reader : FsReader Exec} {map : ChunkMap} {root : UInt64} {key : Key} {item : Bytes}
    (pages : HealthyTree reader map root) (hentries : pages.entries = [(key, item)])
    (hlen : 0 < key.offset.toNat) (hwrap : key.objectid.toNat + key.offset.toNat < 2 ^ 64) :
    ExtentTree reader map root where
  toHealthyTree := pages
  nonempty e he _ := by
    rw [hentries] at he
    obtain rfl := List.mem_singleton.mp he
    exact hlen
  no_wrap e he _ := by
    rw [hentries] at he
    obtain rfl := List.mem_singleton.mp he
    exact hwrap
  disjoint := by
    rw [hentries]
    exact List.pairwise_singleton _ _

/-- A csum tree of one item. -/
def oneSum {reader : FsReader Exec} {map : ChunkMap} {root : UInt64} {key : Key} {item : Bytes}
    (pages : HealthyTree reader map root) (hentries : pages.entries = [(key, item)])
    (hcsum : key.objectid = ObjectId.extentCsum ∧ key.ty = KeyType.extentCsum)
    (haligned : strategy.sectorSize.toNat ∣ key.offset.toNat)
    (hwhole : strategy.hashLen ∣ item.length) : CsumTree reader map strategy root where
  toHealthyTree := pages
  isCsum e he := by
    rw [hentries] at he
    obtain rfl := List.mem_singleton.mp he
    exact hcsum
  aligned e he := by
    rw [hentries] at he
    obtain rfl := List.mem_singleton.mp he
    exact haligned
  whole e he := by
    rw [hentries] at he
    obtain rfl := List.mem_singleton.mp he
    exact hwhole
  disjoint := by
    rw [hentries]
    exact List.pairwise_singleton _ _

/-- The verdict over a tree of one extent and a tree of one csum item. -/
theorem verdict_of_one {image : Image} (map : ChunkMap) (logical : UInt64) (stored : Bytes)
    {ext csum owner owner' : UInt64} {key sumKey : Key} {item sums : Bytes}
    (hext : image.pread ext 4096 = .ok (oneLeafOf ext owner key item).buf)
    (hsum : image.pread csum 4096 = .ok (oneLeafOf csum owner' sumKey sums).buf)
    (hstripes : map.lookupStripes ext = some [(1, ext)])
    (hstripes' : map.lookupStripes csum = some [(1, csum)])
    (hfits : item.length ≤ 3970) (hfits' : sums.length ≤ 3970) (hlen : 0 < key.offset.toNat)
    (hwrap : key.objectid.toNat + key.offset.toNat < 2 ^ 64)
    (hcsum : sumKey.objectid = ObjectId.extentCsum ∧ sumKey.ty = KeyType.extentCsum)
    (haligned : strategy.sectorSize.toNat ∣ sumKey.offset.toNat)
    (hwhole : strategy.hashLen ∣ sums.length)
    (hsector : strategy.sectorSize.toNat ∣ logical.toNat) (hle : sumKey ≤ csumTarget logical) :
    ∃ verdict, reconfirmMismatch (image.reader config) map ext csum logical stored strategy.hashLen
        strategy.sectorSize = .ok verdict ∧
      (verdict = .corruption ∨ verdict = .stale) ∧
      (verdict = .corruption ↔ Owner logical (key, item) ∧
        HoldsHash strategy logical stored (sumKey, sums) ∧
          EndAbove strategy logical (sumKey, sums)) := by
  have hentries : (oneItem hext hstripes hfits).entries = [(key, item)] := oneItem_entries ..
  have hentries' : (oneItem hsum hstripes' hfits').entries = [(sumKey, sums)] := oneItem_entries ..
  have hleaf : (oneItem hext hstripes hfits).InLastLeaf (extentTarget logical) (key, item) :=
    oneItem_inLastLeaf ..
  have hlast : (oneItem hsum hstripes' hfits').IsLast (csumTarget logical) (sumKey, sums) :=
    oneItem_isLast _ _ _ hle
  obtain ⟨verdict, hverdict, hkind, hiff⟩ := reconfirmMismatch_healthy
    (oneExtent (oneItem hext hstripes hfits) hentries hlen hwrap)
    (oneSum (oneItem hsum hstripes' hfits') hentries' hcsum haligned hwhole) hsector stored
  refine ⟨verdict, hverdict, hkind, hiff.trans ⟨?_, ?_⟩⟩
  · rintro ⟨⟨e, he, howned, -⟩, c, hc, hheld, -, habove⟩
    obtain rfl : e = (key, item) := List.mem_singleton.mp (hentries ▸ he)
    obtain rfl : c = (sumKey, sums) := List.mem_singleton.mp (hentries' ▸ hc)
    exact ⟨howned, hheld, habove⟩
  · rintro ⟨howned, hheld, habove⟩
    exact ⟨⟨(key, item), hentries ▸ .head _, howned, hleaf⟩, (sumKey, sums), hentries' ▸ .head _,
      hheld, hlast, habove⟩

/-! ### The two generations -/

/-- The sector belongs to an extent of its own; after the commit only another one is left. -/
def usedKey : Key := ⟨0x20000, KeyType.extentItem, 0x1000⟩
def otherKey : Key := ⟨0x30000, KeyType.extentItem, 0x1000⟩
def sumKey : Key := ⟨ObjectId.extentCsum, KeyType.extentCsum, 0x20000⟩

def usedLeaf : Leaf := oneLeafOf 0x500000 ObjectId.extentTree usedKey extentData
def otherLeaf : Leaf := oneLeafOf 0x501000 ObjectId.extentTree otherKey extentData
def sumLeaf (stored : Bytes) : Leaf := oneLeafOf 0x600000 ObjectId.csumTree sumKey stored

def committedSuperblock : Superblock := { liveSuperblock with generation := 2, root := 0x401000 }

theorem committedSuperblock_sized : committedSuperblock.Sized := ⟨rfl, by decide⟩

def committedLeaf : Leaf := itemsLeaf (header 0x401000 2 1 2 0) (liveItems 0x501000 0x600000)

/-- Both root trees are there; the superblock leads to one of them. -/
def commitRegions (sb : Superblock) (data stored : Bytes) : List (Nat × Bytes) :=
  [(0x10000, Superblock.encode strategy sb), (0x20000, data), (0x400000, liveLeaf.buf),
    (0x401000, committedLeaf.buf), (0x500000, usedLeaf.buf), (0x501000, otherLeaf.buf),
    (0x600000, (sumLeaf stored).buf)]

def commitImage (sb : Superblock) (data stored : Bytes) : Image :=
  .ofRegions (commitRegions sb data stored)

section Commit
variable {sb : Superblock} {data stored : Bytes}

theorem usedLeaf_length : usedLeaf.buf.length = 4096 := oneLeafOf_length (by decide)

theorem otherLeaf_length : otherLeaf.buf.length = 4096 := oneLeafOf_length (by decide)

theorem sumLeaf_length (hstored : stored.length = 4) : (sumLeaf stored).buf.length = 4096 :=
  oneLeafOf_length (by omega)

theorem committedLeaf_length : committedLeaf.buf.length = 4096 :=
  itemsLeaf_length (header_sized _ _ _ _ _) (liveItems_fit _ _)

theorem commitRegions_apart (hsb : sb.Sized) (hdata : data.length = 4096) :
    Apart (commitRegions sb data stored) := by
  have hsuper : (Superblock.encode strategy sb).length = 4096 := Superblock.encode_length hsb
  unfold Apart commitRegions
  simp only [List.pairwise_cons, List.mem_cons, List.not_mem_nil, or_false, forall_eq_or_imp,
    forall_eq, hsuper, hdata, liveLeaf_length, committedLeaf_length, usedLeaf_length,
    otherLeaf_length, List.Pairwise.nil, IsEmpty.forall_iff, implies_true, and_true]
  decide

theorem commitImage_pread (hsb : sb.Sized) (hdata : data.length = 4096) {offset : UInt64}
    {bytes : Bytes} (hr : (offset.toNat, bytes) ∈ commitRegions sb data stored)
    (hlen : bytes.length = 4096) : (commitImage sb data stored).pread offset 4096 = .ok bytes := by
  rw [← hlen]
  exact pread_region (commitRegions_apart hsb hdata) hr

theorem commit_superblock (hsb : sb.Sized) (hdata : data.length = 4096)
    (htype : CsumType.ofU16? sb.csumType = some strategy.csumType) :
    Superblock.read strategy.crates ((commitImage sb data stored).reader config).pread 0 =
      .ok (.ok sb) :=
  Superblock.read_of_primary hsb htype
    (commitImage_pread hsb hdata (.head _) (Superblock.encode_length hsb))

theorem live_roots (hsb : sb.Sized) (hdata : data.length = 4096) (counters : Counters) :
    ∃ counters', resolveLiveTreeRoots ((commitImage sb data stored).reader config) chunkMap
      counters liveSuperblock = .ok (some (0x500000, 0x600000), counters') :=
  resolve_items (liveRootSlots_liveItems (header_sized 0x400000 1 1 2 0) _ _)
    (itemsLeaf_good (header_sized _ _ _ _ _) rfl rfl (by decide)
      (commitImage_pread hsb hdata (.tail _ (.tail _ (.head _))) liveLeaf_length) rfl)
    counters

theorem committed_roots (hsb : sb.Sized) (hdata : data.length = 4096) (counters : Counters) :
    ∃ counters', resolveLiveTreeRoots ((commitImage sb data stored).reader config) chunkMap
      counters committedSuperblock = .ok (some (0x501000, 0x600000), counters') :=
  resolve_items (liveRootSlots_liveItems (header_sized 0x401000 2 1 2 0) _ _)
    (itemsLeaf_good (header_sized _ _ _ _ _) rfl rfl (by decide)
      (commitImage_pread hsb hdata (.tail _ (.tail _ (.tail _ (.head _)))) committedLeaf_length) rfl)
    counters

theorem sumLeaf_pread (hsb : sb.Sized) (hdata : data.length = 4096) (hstored : stored.length = 4) :
    (commitImage sb data stored).pread 0x600000 4096 =
      .ok (oneLeafOf 0x600000 ObjectId.csumTree sumKey stored).buf :=
  commitImage_pread hsb hdata (.tail _ (.tail _ (.tail _ (.tail _ (.tail _ (.tail _ (.head _)))))))
    (sumLeaf_length hstored)

/-- The sector is in use, with the checksum it was stored with. -/
theorem live_verdict (hsb : sb.Sized) (hdata : data.length = 4096) (hstored : stored.length = 4) :
    reconfirmMismatch ((commitImage sb data stored).reader config) chunkMap 0x500000 0x600000
      0x20000 stored strategy.hashLen strategy.sectorSize = .ok .corruption := by
  have hread : (commitImage sb data stored).pread 0x500000 4096 =
      .ok (oneLeafOf 0x500000 ObjectId.extentTree usedKey extentData).buf :=
    commitImage_pread hsb hdata (.tail _ (.tail _ (.tail _ (.tail _ (.head _))))) usedLeaf_length
  have howned : Owner 0x20000 (usedKey, extentData) := ⟨⟨rfl, by decide, by decide⟩, by decide⟩
  have hspan : csumSpan strategy stored = 4096 := by
    unfold csumSpan
    rw [hstored]
    rfl
  have hcovers : CsumCovers strategy (sumKey, stored) (0x20000 : UInt64).toNat := by
    unfold CsumCovers Covers
    rw [hspan]
    exact (by decide : sumKey.offset.toNat ≤ 0x20000 ∧ 0x20000 < sumKey.offset.toNat + 4096)
  have habove : EndAbove strategy 0x20000 (sumKey, stored) := by
    unfold EndAbove
    rw [hspan]
    exact (by decide : 0x20000 < (sumKey.offset.toNat + 4096) % 2 ^ 64)
  have hheld : hashAt strategy (sumKey, stored) 0x20000 = stored := by
    have hfirst : ((0x20000 : UInt64).toNat - sumKey.offset.toNat) / strategy.sectorSize.toNat *
        strategy.hashLen = 0 := by decide
    unfold hashAt
    rw [hfirst]
    exact List.take_of_length_le hstored.le
  obtain ⟨verdict, hverdict, -, hiff⟩ := verdict_of_one chunkMap 0x20000 stored hread
    (sumLeaf_pread hsb hdata hstored) (by decide) (by decide) (by decide) (by omega) (by decide)
    (by decide) ⟨rfl, rfl⟩ (by decide) (hstored ▸ dvd_refl 4) (by decide) (by decide)
  rw [hverdict, hiff.mpr ⟨howned, ⟨hcovers, hheld⟩, habove⟩]

/-- The sector is in no extent. -/
theorem committed_verdict (hsb : sb.Sized) (hdata : data.length = 4096)
    (hstored : stored.length = 4) :
    reconfirmMismatch ((commitImage sb data stored).reader config) chunkMap 0x501000 0x600000
      0x20000 stored strategy.hashLen strategy.sectorSize = .ok .stale := by
  have hread : (commitImage sb data stored).pread 0x501000 4096 =
      .ok (oneLeafOf 0x501000 ObjectId.extentTree otherKey extentData).buf :=
    commitImage_pread hsb hdata (.tail _ (.tail _ (.tail _ (.tail _ (.tail _ (.head _))))))
      otherLeaf_length
  have hfree : ¬Owner 0x20000 (otherKey, extentData) :=
    fun howned => absurd howned.1.2.1 (by decide)
  obtain ⟨verdict, hverdict, hkind, hiff⟩ := verdict_of_one chunkMap 0x20000 stored hread
    (sumLeaf_pread hsb hdata hstored) (by decide) (by decide) (by decide) (by omega) (by decide)
    (by decide) ⟨rfl, rfl⟩ (by decide) (hstored ▸ dvd_refl 4) (by decide) (by decide)
  rcases hkind with hcorrupt | rfl
  · exact absurd (hiff.mp hcorrupt).1 hfree
  · exact hverdict

end Commit
end Rotshield.Btrfs.Crafted
