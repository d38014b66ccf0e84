import Rotshield.Btrfs.CraftCommit
import Rotshield.Btrfs.HealthyFs
import Rotshield.Btrfs.ScrubSteps
import Rotshield.Btrfs.SysChunks

/-! A small filesystem: a system chunk, a data chunk of two sectors, one leaf for each tree. -/
namespace Rotshield.Btrfs.Crafted
open Superblock (encode_length)

/-! ### A tree of one leaf -/

section OneLeaf
variable {image : Image} {map : ChunkMap} {root owner : UInt64} {n : UInt32}
  {items : List (Key × Bytes)}

theorem oneLeaf_heads (hn : n.toNat = items.length)
    (hstripes : map.lookupStripes root = some [(1, root)])
    (hread : image.pread root 4096 = .ok (itemsLeaf (header root 1 owner n 0) items).buf) :
    Lib.HeadsTree (refPage (image.reader config) map) Leaf.keys 0 (.root root)
      [itemsLeaf (header root 1 owner n 0) items] := by
  have hvalid : config.validateHeader (header root 1 owner n 0) root genDontCheck none none = true := by
    simp [ReaderConfig.validateHeader, config, header]
  have hgood : GoodNode (image.reader config) map (.root root)
      (.leaf (itemsLeaf (header root 1 owner n 0) items)) :=
    itemsLeaf_good (header_sized _ _ _ _ _) rfl hn hstripes hread hvalid
  exact ⟨_, refPage_of_goodNode hgood, rfl⟩

/-- A leaf that is read whole is a readable tree. -/
def oneLeaf (hn : n.toNat = items.length)
    (hfits : 25 * items.length + (itemData items).length ≤ 3995)
    (hsorted : (items.map Prod.fst).Pairwise (· < ·))
    (hstripes : map.lookupStripes root = some [(1, root)])
    (hread : image.pread root 4096 = .ok (itemsLeaf (header root 1 owner n 0) items).buf) :
    ReadableTree (image.reader config) map root where
  height := 0
  leaves := [itemsLeaf (header root 1 owner n 0) items]
  heads := oneLeaf_heads hn hstripes hread
  sorted := by
    rw [List.flatMap_singleton, itemsLeaf_keys]
    exact hsorted
  data leaf hleaf := by
    obtain rfl := List.mem_singleton.mp hleaf
    exact itemsLeaf_data (header_sized _ _ _ _ _) hfits

theorem oneLeaf_entries (hn : n.toNat = items.length)
    (hfits : 25 * items.length + (itemData items).length ≤ 3995)
    (hsorted : (items.map Prod.fst).Pairwise (· < ·))
    (hstripes : map.lookupStripes root = some [(1, root)])
    (hread : image.pread root 4096 = .ok (itemsLeaf (header root 1 owner n 0) items).buf) :
    (oneLeaf hn hfits hsorted hstripes hread).entries = items := by
  unfold ReadableTree.entries
  change [itemsLeaf (header root 1 owner n 0) items].flatMap Leaf.entries = items
  rw [List.flatMap_singleton, itemsLeaf_entries (header_sized _ _ _ _ _) hfits]

end OneLeaf

/-! ### The content -/

def systemChunk : SysChunk where
  objectid := 256
  logical := 0x100000
  header := ⟨0x100000, 2, 0x10000, 2, 4096, 4096, 4096, 1, 1⟩
  stripes := [⟨⟨1, 0x100000⟩, .replicate 16 0⟩]
  counted := rfl

def dataChunk : SysChunk where
  objectid := 256
  logical := 0x400000
  header := ⟨0x10000, 2, 0x10000, 1, 4096, 4096, 4096, 1, 1⟩
  stripes := [⟨⟨1, 0x800000⟩, .replicate 16 0⟩]
  counted := rfl

def fsSuperblock : Superblock where
  fsid
  generation := 1
  root := 0x101000
  chunkRoot := 0x100000
  totalBytes := 0x1000000
  numDevices := 1
  sectorSize := 4096
  nodeSize := 4096
  csumType := 0
  devid := 1
  sysChunks := encodeAll [systemChunk]

/-- A DEV_EXTENT. -/
def devExtentItem (chunkOffset length : UInt64) : Bytes :=
  toLe 8 3 ++ (toLe 8 256 ++ (toLe 8 chunkOffset.toNat ++ (toLe 8 length.toNat ++
    List.replicate 16 0)))

def chunkItems : List (Key × Bytes) := [(dataChunk.key, dataChunk.item)]

def rootItems : List (Key × Bytes) :=
  [(rootKey ObjectId.extentTree, rootItem 0x104000), (rootKey ObjectId.devTree, rootItem 0x102000),
    (rootKey ObjectId.fsTree, rootItem 0x105000), (rootKey ObjectId.csumTree, rootItem 0x103000)]

def devItems : List (Key × Bytes) :=
  [(⟨1, KeyType.devExtent, 0x800000⟩, devExtentItem 0x400000 0x10000)]

/-- The checksum of a sector of zeros. -/
def zeroCsum : Bytes := strategy.compute (changed 100 3995 0)

theorem zeroCsum_length : zeroCsum.length = 4 := compute_length strategy _

def csumItems : List (Key × Bytes) := [(Btrfs.csumKey 0x400000, zeroCsum ++ zeroCsum)]

/-- Both sectors are in one extent. -/
def fsExtentKey : Key := ⟨0x400000, KeyType.extentItem, 0x2000⟩

def fsLeaf (root owner : UInt64) (n : UInt32) (items : List (Key × Bytes)) : Leaf :=
  itemsLeaf (header root 1 owner n 0) items

/-- The second sector of data is not what its checksum says. -/
def fsRegions : List (Nat × Bytes) :=
  [(0x10000, Superblock.encode strategy fsSuperblock),
    (0x100000, (fsLeaf 0x100000 3 1 chunkItems).buf), (0x101000, (fsLeaf 0x101000 1 4 rootItems).buf),
    (0x102000, (fsLeaf 0x102000 4 1 devItems).buf), (0x103000, (fsLeaf 0x103000 7 1 csumItems).buf),
    (0x104000, (oneLeafOf 0x104000 2 fsExtentKey extentData).buf),
    (0x800000, changed 100 3995 0), (0x801000, changed 100 3995 0x5A)]

def fsImage : Image := .ofRegions fsRegions

theorem chunkItems_fit : 25 * chunkItems.length + (itemData chunkItems).length ≤ 3995 := by
  simp only [chunkItems, itemData, List.flatMap_cons, List.flatMap_nil, List.length_append,
    dataChunk.item_length, List.length_cons, List.length_nil]
  decide

theorem rootItems_fit : 25 * rootItems.length + (itemData rootItems).length ≤ 3995 := by
  simp only [rootItems, itemData, List.flatMap_cons, List.flatMap_nil, List.length_append,
    rootItem_length, List.length_cons, List.length_nil]
  decide

theorem devExtentItem_length (chunkOffset length : UInt64) :
    (devExtentItem chunkOffset length).length = 48 := by
  simp only [devExtentItem, List.length_append, toLe_length, List.length_replicate]

theorem devItems_fit : 25 * devItems.length + (itemData devItems).length ≤ 3995 := by
  simp only [devItems, itemData, List.flatMap_cons, List.flatMap_nil, List.length_append,
    devExtentItem_length, List.length_cons, List.length_nil]
  decide

theorem csumItems_fit : 25 * csumItems.length + (itemData csumItems).length ≤ 3995 := by
  simp only [csumItems, itemData, List.flatMap_cons, List.flatMap_nil, List.length_append,
    zeroCsum_length, List.length_cons, List.length_nil]
  decide

theorem fsSuperblock_sized : fsSuperblock.Sized := by
  refine ⟨rfl, ?_⟩
  have hchunks : fsSuperblock.sysChunks = systemChunk.encode ++ [] := rfl
  rw [hchunks, List.append_nil, systemChunk.encode_length, systemChunk.item_length]
  decide

theorem fsRegions_apart : Apart fsRegions := by
  have hsuper : (Superblock.encode strategy fsSuperblock).length = 4096 :=
    Superblock.encode_length fsSuperblock_sized
  have hleaf {root owner : UInt64} {n : UInt32} {items : List (Key × Bytes)}
      (hfits : 25 * items.length + (itemData items).length ≤ 3995) :
      (fsLeaf root owner n items).buf.length = 4096 := itemsLeaf_length (header_sized _ _ _ _ _) hfits
  have hextents : (oneLeafOf 0x104000 2 fsExtentKey extentData).buf.length = 4096 :=
    oneLeafOf_length (by decide)
  unfold Apart fsRegions
  simp only [List.pairwise_cons, List.mem_cons, List.not_mem_nil, or_false, forall_eq_or_imp,
    forall_eq, hsuper, changed_length, hleaf chunkItems_fit, hleaf rootItems_fit, hleaf devItems_fit,
    hleaf csumItems_fit, hextents, List.Pairwise.nil, IsEmpty.forall_iff, implies_true, and_true]
  decide

theorem fsImage_pread {offset : UInt64} {bytes : Bytes} (hr : (offset.toNat, bytes) ∈ fsRegions)
    (hlen : bytes.length = 4096) : fsImage.pread offset 4096 = .ok bytes := by
  rw [← hlen]
  exact pread_region fsRegions_apart hr

/-! ### The filesystem -/

def system : List ChunkRecord := [systemChunk.record]

def bothRecords : List ChunkRecord := [systemChunk.record, dataChunk.record]

theorem bothRecords_regular : ∀ r ∈ bothRecords, r.Regular := by
  have hsystem : systemChunk.record.Regular := ⟨by decide, by decide, by decide⟩
  have hdata : dataChunk.record.Regular := ⟨by decide, by decide, by decide⟩
  simp [bothRecords, hsystem, hdata]

theorem bothRecords_disjoint : Disjoint bothRecords := by
  have hapart : ∀ addr, ¬(systemChunk.record.Contains addr ∧ dataChunk.record.Contains addr) := by
    rintro addr ⟨⟨-, hbelow⟩, hfrom, -⟩
    exact absurd (Nat.lt_of_le_of_lt (UInt64.le_iff_toNat_le.mp hfrom) hbelow) (by decide)
  intro a ha b hb
  simp only [bothRecords, List.mem_cons, List.not_mem_nil, or_false] at ha hb
  rcases ha with rfl | rfl <;> rcases hb with rfl | rfl
  all_goals first
    | exact .inl rfl
    | exact .inr hapart
    | exact .inr fun addr h => hapart addr h.symm

/-- The nodes lie where their addresses say. -/
theorem lookupStripes_node {records : List ChunkRecord} (hsub : ∀ r ∈ records, r ∈ bothRecords)
    (hsystem : systemChunk.record ∈ records) {addr : UInt64}
    (hin : systemChunk.record.Contains addr) :
    (ChunkMap.ofRecords records).lookupStripes addr = some [(1, addr)] := by
  have hregular : ∀ r ∈ records, r.Regular := fun r hr => bothRecords_regular r (hsub r hr)
  have hdisjoint : Disjoint records := fun a ha b hb =>
    bothRecords_disjoint a (hsub a ha) b (hsub b hb)
  have hanswers := ChunkMap.answersFor_of_find (hregular _ hsystem)
    (ChunkMap.find_ofRecords hregular hdisjoint hsystem hin)
  have haddr : (0x100000 : UInt64) + (addr - 0x100000) = addr := by grind
  rw [hanswers.lookupStripes]
  change some [((1 : UInt64), (0x100000 : UInt64) + (addr - 0x100000))] = _
  rw [haddr]

def fsChunkTree : ReadableTree (fsImage.reader config) (.ofRecords system) 0x100000 :=
  oneLeaf rfl chunkItems_fit (List.pairwise_singleton _ _)
    (lookupStripes_node (by simp [system, bothRecords]) (by simp [system]) (by decide))
    (fsImage_pread (.tail _ (.head _)) (itemsLeaf_length (header_sized _ _ _ _ _) chunkItems_fit))

theorem fsChunkTree_entries : fsChunkTree.entries = chunkItems := oneLeaf_entries ..

theorem fsChunk_parse : chunkKind.parse dataChunk.key dataChunk.item = .ok dataChunk.record := by
  unfold chunkKind
  dsimp only
  rw [ChunkItem.parse_item]
  rfl

theorem fsChunkTree_items : fsChunkTree.items chunkKind = [dataChunk.record] := by
  have hparse : chunkKind.read (dataChunk.key, dataChunk.item) = some dataChunk.record := by
    have hhas : chunkKind.has dataChunk.key = true := rfl
    unfold ItemKind.read
    rw [if_pos hhas, fsChunk_parse]
    rfl
  unfold ReadableTree.items
  rw [fsChunkTree_entries, chunkItems, List.filterMap_cons, hparse]
  rfl

/-- The system chunk, and what the chunk tree holds. -/
def allRecords : List ChunkRecord := system ++ fsChunkTree.items chunkKind

theorem allRecords_eq : allRecords = bothRecords := by
  unfold allRecords
  rw [fsChunkTree_items]
  rfl

theorem lookupStripes_all {addr : UInt64} (hin : systemChunk.record.Contains addr) :
    (ChunkMap.ofRecords allRecords).lookupStripes addr = some [(1, addr)] :=
  lookupStripes_node (fun _ hr => allRecords_eq ▸ hr) (List.mem_append_left _ (.head _)) hin

def fsRootTree : ReadableTree (fsImage.reader config) (.ofRecords allRecords) 0x101000 :=
  oneLeaf rfl rootItems_fit (by decide)
    (lookupStripes_all (by decide))
    (fsImage_pread (.tail _ (.tail _ (.head _)))
      (itemsLeaf_length (header_sized _ _ _ _ _) rootItems_fit))

theorem fsRootTree_entries : fsRootTree.entries = rootItems := oneLeaf_entries ..

theorem fsRootTree_items : fsRootTree.items rootKind =
    [(ObjectId.extentTree, 0x104000), (ObjectId.devTree, 0x102000), (ObjectId.fsTree, 0x105000),
      (ObjectId.csumTree, 0x103000)] := by
  have hread (objectid bytenr : UInt64) :
      rootKind.read (rootKey objectid, rootItem bytenr) = some (objectid, bytenr) := by
    unfold ItemKind.read rootKind
    dsimp only
    rw [parse_rootItem]
    rfl
  unfold ReadableTree.items
  rw [fsRootTree_entries, rootItems]
  simp only [List.filterMap_cons, List.filterMap_nil, hread]

def fsDevTree : ReadableTree (fsImage.reader config) (.ofRecords allRecords) 0x102000 :=
  oneLeaf rfl devItems_fit (List.pairwise_singleton _ _)
    (lookupStripes_all (by decide))
    (fsImage_pread (.tail _ (.tail _ (.tail _ (.head _))))
      (itemsLeaf_length (header_sized _ _ _ _ _) devItems_fit))

theorem fsDevTree_entries : fsDevTree.entries = devItems := oneLeaf_entries ..

def fsExtent : DevExtent := ⟨1, 0x800000, 0x10000, 0x400000⟩

theorem parse_devExtentItem (devid phys chunkOffset length : UInt64) :
    (devExtentKind devid).parse ⟨devid, KeyType.devExtent, phys⟩ (devExtentItem chunkOffset length) =
      .ok ⟨devid, phys, length, chunkOffset⟩ := by
  have hskip : RestAt (devExtentItem chunkOffset length) (0 + 8 + 8) _ :=
    ((RestAt.zero _).skip (toLe_length _ _)).skip (toLe_length _ _)
  have hoffset : leU64 (devExtentItem chunkOffset length) 16 = .ok chunkOffset :=
    leU64_of_restAt hskip
  have hlength : leU64 (devExtentItem chunkOffset length) 24 = .ok length :=
    leU64_of_restAt (hskip.skip (toLe_length _ _))
  unfold devExtentKind
  dsimp only [bind, Except.bind]
  rw [hoffset, hlength]
  rfl

theorem fsDevTree_items : fsDevTree.items (devExtentKind 1) = [fsExtent] := by
  have hread : (devExtentKind 1).read
      (⟨1, KeyType.devExtent, 0x800000⟩, devExtentItem 0x400000 0x10000) = some fsExtent := by
    have hhas : (devExtentKind 1).has ⟨1, KeyType.devExtent, 0x800000⟩ = true := rfl
    unfold ItemKind.read
    rw [if_pos hhas, parse_devExtentItem]
    rfl
  unfold ReadableTree.items
  rw [fsDevTree_entries, devItems, List.filterMap_cons, hread]
  rfl

def fsCsums : RangeTree (fsImage.reader config) (.ofRecords allRecords) strategy 0x103000 where
  height := 0
  leaves := [fsLeaf 0x103000 7 1 csumItems]
  heads := oneLeaf_heads rfl (lookupStripes_all (by decide))
    (fsImage_pread (.tail _ (.tail _ (.tail _ (.tail _ (.head _)))))
      (itemsLeaf_length (header_sized _ _ _ _ _) csumItems_fit))
  sorted := List.pairwise_singleton _ _
  data leaf hleaf := by
    obtain rfl := List.mem_singleton.mp hleaf
    exact itemsLeaf_data (header_sized _ _ _ _ _) csumItems_fit
  isCsum leaf hleaf e he := by
    obtain rfl := List.mem_singleton.mp hleaf
    rw [fsLeaf, itemsLeaf_entries (header_sized _ _ _ _ _) csumItems_fit] at he
    obtain rfl := List.mem_singleton.mp he
    rfl
  ends leaf hleaf e he := by
    obtain rfl := List.mem_singleton.mp hleaf
    rw [fsLeaf, itemsLeaf_entries (header_sized _ _ _ _ _) csumItems_fit] at he
    obtain rfl := List.mem_singleton.mp he
    unfold csumSpan
    rw [List.length_append, zeroCsum_length]
    decide
  disjoint := by
    rw [List.flatMap_singleton, fsLeaf, itemsLeaf_entries (header_sized _ _ _ _ _) csumItems_fit]
    exact List.pairwise_singleton _ _

theorem fsSuperblock_read :
    Superblock.read crates (fsImage.file (.ok 0x1000000)).pread 0 = .ok (.ok fsSuperblock) := by
  have hread : Superblock.read strategy.crates (fsImage.reader config).pread 0 =
      .ok (.ok fsSuperblock) := Superblock.read_of_primary fsSuperblock_sized rfl
    (fsImage_pread (.head _) (Superblock.encode_length fsSuperblock_sized))
  exact hread

theorem fsChunks : fsChunkTree.Parses chunkKind := by
  intro e he _
  rw [fsChunkTree_entries] at he
  obtain rfl := List.mem_singleton.mp he
  exact ⟨_, fsChunk_parse⟩

theorem fsRoots : fsRootTree.Parses rootKind := by
  have hparse (objectid bytenr : UInt64) :
      ∃ b, rootKind.parse (rootKey objectid) (rootItem bytenr) = .ok b := by
    refine ⟨(objectid, bytenr), ?_⟩
    unfold rootKind
    dsimp only
    rw [parse_rootItem]
    rfl
  intro e he _
  rw [fsRootTree_entries] at he
  simp only [rootItems, List.mem_cons, List.not_mem_nil, or_false] at he
  rcases he with rfl | rfl | rfl | rfl <;> exact hparse _ _

theorem fsRoots_last :
    lastRoot ObjectId.fsTree (fsRootTree.items rootKind) = some 0x105000 ∧
      lastRoot ObjectId.csumTree (fsRootTree.items rootKind) = some 0x103000 ∧
      lastRoot ObjectId.devTree (fsRootTree.items rootKind) = some 0x102000 := by
  rw [fsRootTree_items]
  decide

theorem fsDevExtents : fsDevTree.Parses (devExtentKind 1) := by
  intro e he _
  rw [fsDevTree_entries] at he
  obtain rfl := List.mem_singleton.mp he
  exact ⟨_, parse_devExtentItem 1 0x800000 0x400000 0x10000⟩

theorem allRecords_regular : ∀ r ∈ allRecords, r.Regular := by
  rw [allRecords_eq]
  exact bothRecords_regular

theorem allRecords_disjoint : Disjoint allRecords := by
  rw [allRecords_eq]
  exact bothRecords_disjoint

def healthyFs : HealthyFs crates fsImage (.ok 0x1000000) 0 where
  sb := fsSuperblock
  read := fsSuperblock_read
  single := rfl
  fits devSize hsize _ := by
    cases hsize
    decide
  strategy := strategy
  known := rfl
  system := system
  systemRead := parseSysChunks_exact.1 [systemChunk]
  chunkTree := fsChunkTree
  chunks := fsChunks
  regular := allRecords_regular
  disjoint := allRecords_disjoint
  rootTree := fsRootTree
  roots := fsRoots
  fsRoot := 0x105000
  hasFsRoot := fsRoots_last.1
  csumRoot := 0x103000
  hasCsumRoot := fsRoots_last.2.1
  devRoot := 0x102000
  hasDevRoot := fsRoots_last.2.2
  devTree := fsDevTree
  devExtents := fsDevExtents

theorem healthyFs_supported : healthyFs.Supported := by
  have hboth : ∀ r ∈ bothRecords, r.chunk.ty &&& BgFlag.data ≠ 0 →
      r.chunk.ty &&& profileMask = 0 ∨ r.chunk.ty &&& profileMask = BgFlag.dup := by decide
  have hall : ∀ r ∈ allRecords, r.chunk.ty &&& BgFlag.data ≠ 0 →
      r.chunk.ty &&& profileMask = 0 ∨ r.chunk.ty &&& profileMask = BgFlag.dup := by
    rw [allRecords_eq]
    exact hboth
  exact hall

theorem fsExtent_fits : ∀ d ∈ fsDevTree.items (devExtentKind 1),
    (0 : UInt64).toNat + d.physStart.toNat + d.length.toNat + strategy.sectorSize.toNat < 2 ^ 64 := by
  rw [fsDevTree_items]
  decide

def checksummedFs : ChecksummedFs crates fsImage (.ok 0x1000000) 0 where
  toHealthyFs := healthyFs
  supported := healthyFs_supported
  csums := fsCsums
  fitsFile := fsExtent_fits

theorem checksummedFs_readable : checksummedFs.Readable := fun _ _ _ _ _ _ => rfl

theorem fsCsums_pairs : fsCsums.pairs = [⟨0x400000, zeroCsum⟩, ⟨0x401000, zeroCsum⟩] := by
  have hpairs : itemPairs strategy (Btrfs.csumKey 0x400000, zeroCsum ++ zeroCsum) =
      [⟨0x400000, zeroCsum⟩, ⟨0x401000, zeroCsum⟩] := by
    have hfirst : ((zeroCsum ++ zeroCsum).drop (0 * 4)).take 4 = zeroCsum :=
      List.take_left' zeroCsum_length
    have hsecond : ((zeroCsum ++ zeroCsum).drop (1 * 4)).take 4 = zeroCsum := by
      rw [Nat.one_mul, List.drop_left' zeroCsum_length, List.take_of_length_le zeroCsum_length.le]
    have hrange : List.range ((zeroCsum ++ zeroCsum).length / strategy.hashLen) = [0, 1] := by
      rw [List.length_append, zeroCsum_length]
      rfl
    have hhash : strategy.hashLen = 4 := rfl
    unfold itemPairs
    rw [hrange, hhash]
    simp only [List.map_cons, List.map_nil, hfirst, hsecond]
    rfl
  have hentries : (fsLeaf 0x103000 7 1 csumItems).entries = csumItems :=
    itemsLeaf_entries (header_sized _ _ _ _ _) csumItems_fit
  rw [fsCsums.pairs_eq]
  change ([fsLeaf 0x103000 7 1 csumItems].flatMap Leaf.entries).flatMap _ = _
  rw [List.flatMap_singleton, hentries, csumItems, List.flatMap_singleton]
  exact hpairs

theorem checksummedFs_streams :
    checksummedFs.streams = [(fsExtent, [⟨0x400000, zeroCsum⟩, ⟨0x401000, zeroCsum⟩])] := by
  have hextents : fsDevTree.items (devExtentKind 1) = [fsExtent] := fsDevTree_items
  have hdata : checksummedFs.hasData fsExtent = true := by
    change allRecords.any _ = true
    rw [allRecords_eq]
    decide
  unfold ChecksummedFs.streams
  change ((fsDevTree.items (devExtentKind 1)).filter checksummedFs.hasData).map _ = _
  rw [hextents, List.filter_singleton, hdata, cond_true, List.map_singleton]
  change [(fsExtent, fsCsums.pairs.filter _)] = _
  rw [fsCsums_pairs]
  rfl

theorem fsImage_first : fsImage.pread 0x800000 4096 = .ok (changed 100 3995 0) :=
  fsImage_pread (.tail _ (.tail _ (.tail _ (.tail _ (.tail _ (.tail _ (.head _)))))))
    (changed_length _ _ _)

theorem fsImage_second : fsImage.pread 0x801000 4096 = .ok (changed 100 3995 0x5A) :=
  fsImage_pread (.tail _ (.tail _ (.tail _ (.tail _ (.tail _ (.tail _ (.tail _ (.head _))))))))
    (changed_length _ _ _)

/-- The first sector has its checksum, the second has not. -/
theorem checksummedFs_sound :
    checksummedFs.Sound (fsExtent, ⟨0x400000, zeroCsum⟩) ∧
      ¬checksummedFs.Sound (fsExtent, ⟨0x401000, zeroCsum⟩) := by
  have hfirst : (fsImage.device Unit).bytesAt 0x800000 4096 = changed 100 3995 0 :=
    Except.ok.inj fsImage_first
  have hsecond : (fsImage.device Unit).bytesAt 0x801000 4096 = changed 100 3995 0x5A :=
    Except.ok.inj fsImage_second
  constructor
  · change strategy.compute ((fsImage.device Unit).bytesAt 0x800000 4096) = zeroCsum
    rw [hfirst]
    rfl
  · change ¬strategy.compute ((fsImage.device Unit).bytesAt 0x801000 4096) = zeroCsum
    rw [hsecond]
    exact compute_changed 100 3995 (by decide)

/-- Both of them, in the order of the stream. -/
theorem checksummedFs_sectors : sectorsOf checksummedFs.streams =
    [(fsExtent, ⟨0x400000, zeroCsum⟩), (fsExtent, ⟨0x401000, zeroCsum⟩)] := by
  rw [checksummedFs_streams]
  rfl

/-! ### Its live metadata -/

theorem liveRootSlots_rootItems {leaf : Leaf} {slots : List LeafItemSlot}
    (hdata : List.Forall₂ (fun slot item => slot.key = item.1 ∧ leaf.dataOf slot = .ok item.2) slots
      rootItems) :
    liveRootSlots leaf slots {} = .ok (.error .other, ⟨some 0x104000, some 0x103000⟩) := by
  unfold rootItems at hdata
  obtain _ | ⟨⟨hkey₁, hdata₁⟩, hdata⟩ := hdata
  obtain _ | ⟨⟨hkey₂, hdata₂⟩, hdata⟩ := hdata
  obtain _ | ⟨⟨hkey₃, hdata₃⟩, hdata⟩ := hdata
  obtain _ | ⟨⟨hkey₄, hdata₄⟩, -⟩ := hdata
  rw [liveRootSlots_item hkey₁ hdata₁, if_neg (by decide), liveRootSlots_item hkey₂ hdata₂,
    if_neg (by decide), liveRootSlots_item hkey₃ hdata₃, if_neg (by decide),
    liveRootSlots_item hkey₄ hdata₄, if_pos (by decide)]
  rfl

theorem fs_roots (counters : Counters) : ∃ counters',
    resolveLiveTreeRoots (fsImage.reader config) (.ofRecords allRecords) counters fsSuperblock =
      .ok (some (0x104000, 0x103000), counters') := by
  have hread : fsImage.pread 0x101000 4096 = .ok (fsLeaf 0x101000 1 4 rootItems).buf :=
    fsImage_pread (.tail _ (.tail _ (.head _)))
      (itemsLeaf_length (header_sized _ _ _ _ _) rootItems_fit)
  exact resolve_items (liveRootSlots_rootItems (itemsLeaf_dataOf (header_sized _ _ _ _ _) rootItems_fit))
    (itemsLeaf_good (header_sized _ _ _ _ _) rfl rfl (lookupStripes_all (by decide)) hread rfl)
    counters

/-- The second sector is in use, and its checksum is the one that was stored. -/
theorem fs_verdict : reconfirmMismatch (fsImage.reader config) (.ofRecords allRecords) 0x104000
    0x103000 0x401000 zeroCsum strategy.hashLen strategy.sectorSize = .ok .corruption := by
  have hext : fsImage.pread 0x104000 4096 = .ok (oneLeafOf 0x104000 2 fsExtentKey extentData).buf :=
    fsImage_pread (.tail _ (.tail _ (.tail _ (.tail _ (.tail _ (.head _))))))
      (oneLeafOf_length (by decide))
  have hsum : fsImage.pread 0x103000 4096 =
      .ok (oneLeafOf 0x103000 7 (Btrfs.csumKey 0x400000) (zeroCsum ++ zeroCsum)).buf :=
    fsImage_pread (.tail _ (.tail _ (.tail _ (.tail _ (.head _)))))
      (itemsLeaf_length (header_sized _ _ _ _ _) csumItems_fit)
  have hlen : (zeroCsum ++ zeroCsum).length = 8 := by
    rw [List.length_append, zeroCsum_length]
  have hspan : csumSpan strategy (zeroCsum ++ zeroCsum) = 8192 := by
    unfold csumSpan
    rw [hlen]
    rfl
  have howned : Owner 0x401000 (fsExtentKey, extentData) := ⟨⟨rfl, by decide, by decide⟩, by decide⟩
  have hcovers : CsumCovers strategy (Btrfs.csumKey 0x400000, zeroCsum ++ zeroCsum)
      (0x401000 : UInt64).toNat := by
    unfold CsumCovers Covers
    rw [hspan]
    decide
  have habove : EndAbove strategy 0x401000 (Btrfs.csumKey 0x400000, zeroCsum ++ zeroCsum) := by
    unfold EndAbove
    rw [hspan]
    decide
  have hheld : hashAt strategy (Btrfs.csumKey 0x400000, zeroCsum ++ zeroCsum) 0x401000 = zeroCsum := by
    have hat : ((0x401000 : UInt64).toNat - (Btrfs.csumKey 0x400000).offset.toNat) /
        strategy.sectorSize.toNat * strategy.hashLen = 4 := by decide
    unfold hashAt
    rw [hat, List.drop_left' zeroCsum_length]
    exact List.take_of_length_le zeroCsum_length.le
  obtain ⟨verdict, hverdict, -, hiff⟩ := verdict_of_one (.ofRecords allRecords) 0x401000 zeroCsum
    hext hsum (lookupStripes_all (by decide)) (lookupStripes_all (by decide)) (by decide) (by omega)
    (by decide) (by decide) ⟨rfl, rfl⟩ (by decide) (by rw [hlen]; decide) (by decide) (by decide)
  rw [hverdict, hiff.mpr ⟨howned, ⟨hcovers, hheld⟩, habove⟩]

end Rotshield.Btrfs.Crafted
