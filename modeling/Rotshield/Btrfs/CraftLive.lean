import Rotshield.Btrfs.Craft
import Rotshield.Btrfs.Open
import Rotshield.Btrfs.Walk

/-! Crafted superblocks and root trees: what the program finds on a file that has them. -/
namespace Rotshield.Btrfs

/-! ### A superblock -/

namespace Superblock

/-- The fields can be stored. -/
structure Sized (sb : Superblock) : Prop where
  fsid : sb.fsid.length = 16
  sysChunks : offSysChunks + sb.sysChunks.length ≤ 4096

/-- Everything after the checksum field. -/
def body (sb : Superblock) : Bytes :=
  sb.fsid ++ (List.replicate 16 0 ++ (btrfsMagic ++ (toLe 8 sb.generation.toNat ++
    (toLe 8 sb.root.toNat ++ (toLe 8 sb.chunkRoot.toNat ++ (List.replicate 16 0 ++
      (toLe 8 sb.totalBytes.toNat ++ (List.replicate 16 0 ++ (toLe 8 sb.numDevices.toNat ++
        (toLe 4 sb.sectorSize.toNat ++ (toLe 4 sb.nodeSize.toNat ++ (List.replicate 8 0 ++
          (toLe 4 sb.sysChunks.length ++ (List.replicate 32 0 ++ (toLe 2 sb.csumType.toNat ++
            (List.replicate 3 0 ++ (toLe 8 sb.devid.toNat ++ (List.replicate 602 0 ++
              (sb.sysChunks ++
                List.replicate (4096 - offSysChunks - sb.sysChunks.length) 0)))))))))))))))))))

/-- One copy, under a matching checksum. -/
def encode (strategy : CsumStrategy) (sb : Superblock) : Bytes :=
  checksumField strategy sb.body ++ sb.body

section Encode
variable {strategy : CsumStrategy} {sb : Superblock}

theorem body_length (h : sb.Sized) : sb.body.length = 4064 := by
  have hfit := h.sysChunks
  unfold offSysChunks at hfit
  simp only [body, List.length_append, toLe_length, List.length_replicate, h.fsid, btrfsMagic,
    List.length_cons, List.length_nil, offSysChunks]
  omega

theorem encode_length (h : sb.Sized) : (encode strategy sb).length = 4096 := by
  rw [encode, List.length_append, checksumField_length, body_length h]

theorem verifyHeader_encode (h : sb.Sized) :
    strategy.csumType.verifyHeader strategy.crates (encode strategy sb) = true := by
  have hbody : (encode strategy sb).drop 32 = sb.body := List.drop_left' (checksumField_length strategy _)
  have hsum : (encode strategy sb).take strategy.csumType.hashLen =
      strategy.csumType.digest strategy.crates sb.body := by
    unfold encode checksumField
    rw [List.append_assoc]
    exact List.take_left' (compute_length strategy _)
  unfold CsumType.verifyHeader
  rw [if_neg (by rw [encode_length h]; decide), hbody]
  exact beq_iff_eq.mpr hsum

/-- A copy is read back as it was stored. -/
theorem parse_encode (h : sb.Sized) (htype : CsumType.ofU16? sb.csumType = some strategy.csumType) :
    parse strategy.crates (encode strategy sb) = .ok (.ok sb) := by
  have hfsid : RestAt (encode strategy sb) 32 sb.body := by
    have hlen := checksumField_length strategy sb.body
    rw [← hlen]
    exact RestAt.append _
  unfold body at hfsid
  have hmagic := (hfsid.skip h.fsid).skip (List.length_replicate)
  have hgeneration := hmagic.skip (rfl : btrfsMagic.length = 8)
  have hroot := hgeneration.skip (toLe_length _ _)
  have hchunkRoot := hroot.skip (toLe_length _ _)
  have htotal := (hchunkRoot.skip (toLe_length _ _)).skip List.length_replicate
  have hdevices := (htotal.skip (toLe_length _ _)).skip List.length_replicate
  have hsector := hdevices.skip (toLe_length _ _)
  have hnode := hsector.skip (toLe_length _ _)
  have hsize := (hnode.skip (toLe_length _ _)).skip List.length_replicate
  have hcsum := (hsize.skip (toLe_length _ _)).skip List.length_replicate
  have hdevid := (hcsum.skip (toLe_length _ _)).skip List.length_replicate
  have hchunks := (hdevid.skip (toLe_length _ _)).skip List.length_replicate
  have hfit := h.sysChunks
  unfold offSysChunks at hfit
  have hcount : (UInt32.ofNat sb.sysChunks.length).toNat = sb.sysChunks.length := by
    rw [UInt32.toNat_ofNat', Nat.mod_eq_of_lt (by omega)]
  rw [← hcount] at hsize
  have fmagic : slice (encode strategy sb) 64 8 = .ok btrfsMagic := slice_of_restAt hmagic rfl
  have fcsum : leU16 (encode strategy sb) 196 = .ok sb.csumType := leU16_of_restAt hcsum
  have ffsid : slice (encode strategy sb) 32 16 = .ok sb.fsid := slice_of_restAt hfsid h.fsid
  have fsize : leU32 (encode strategy sb) 160 = .ok (UInt32.ofNat sb.sysChunks.length) :=
    leU32_of_restAt hsize
  have fchunks : slice (encode strategy sb) 811 sb.sysChunks.length = .ok sb.sysChunks :=
    slice_of_restAt hchunks rfl
  have fgeneration : leU64 (encode strategy sb) 72 = .ok sb.generation := leU64_of_restAt hgeneration
  have froot : leU64 (encode strategy sb) 80 = .ok sb.root := leU64_of_restAt hroot
  have fchunkRoot : leU64 (encode strategy sb) 88 = .ok sb.chunkRoot := leU64_of_restAt hchunkRoot
  have ftotal : leU64 (encode strategy sb) 112 = .ok sb.totalBytes := leU64_of_restAt htotal
  have fdevices : leU64 (encode strategy sb) 136 = .ok sb.numDevices := leU64_of_restAt hdevices
  have fsector : leU32 (encode strategy sb) 144 = .ok sb.sectorSize := leU32_of_restAt hsector
  have fnode : leU32 (encode strategy sb) 148 = .ok sb.nodeSize := leU32_of_restAt hnode
  have fdevid : leU64 (encode strategy sb) 201 = .ok sb.devid := leU64_of_restAt hdevid
  have hlong : ¬4096 < 811 + sb.sysChunks.length := by omega
  unfold parse
  simp only [offMagic, offCsumType, offSysChunks, bind, Except.bind, pure, Except.pure, fmagic, fcsum,
    htype, verifyHeader_encode h, ffsid, fsize, hcount, encode_length h, hlong, fchunks, fgeneration,
    froot, fchunkRoot, ftotal, fdevices, fsector, fnode, fdevid, ne_eq, not_true_eq_false, if_false,
    Bool.not_true, Bool.false_eq_true]

/-- An intact primary is what is read. -/
theorem read_of_primary {image : Image} {config : ReaderConfig} {offset : UInt64} (h : sb.Sized)
    (htype : CsumType.ofU16? sb.csumType = some strategy.csumType)
    (hread : image.pread (offset + superblockOffset) 4096 = .ok (encode strategy sb)) :
    read strategy.crates (image.reader config).pread offset = .ok (.ok sb) := by
  have hpread : (image.reader config).pread (offset + superblockOffset) 4096 =
      .ok (.ok (encode strategy sb)) := congrArg Except.ok hread
  have hone : readOne strategy.crates (image.reader config).pread (offset + superblockOffset) =
      .ok (.ok sb) := by
    unfold readOne
    rw [hpread]
    exact congrArg (fun x : Exec (Except IoError Superblock) => (liftExec x : Exec _))
      (parse_encode h htype)
  unfold read superblockBackupOffsets readCopies
  change (readOne strategy.crates (image.reader config).pread (offset + superblockOffset)).bind _ = _
  rw [hone]
  rfl

end Encode
end Superblock

theorem readLiveSuperblock_ok {crates : HashCrates} {reader : FsReader Exec} {offset : UInt64}
    {sb : Superblock} (h : Superblock.read crates reader.pread offset = .ok (.ok sb))
    (counters : Counters) :
    readLiveSuperblock crates (.ok (.ok ())) reader offset counters = .ok (some sb, counters) := by
  unfold readLiveSuperblock
  change (Superblock.read crates reader.pread offset).bind _ = _
  rw [h]
  rfl

namespace Crafted

/-! ### A leaf of several items -/

/-- The slots of items whose data starts at an offset, one after the other. -/
def itemSlots (start : Nat) : List (Key × Bytes) → List LeafItemSlot
  | [] => []
  | (key, data) :: rest =>
      ⟨key, .ofNat start, .ofNat data.length⟩ :: itemSlots (start + data.length) rest

def itemData (items : List (Key × Bytes)) : Bytes := items.flatMap Prod.snd

def itemsLeaf (h : Header) (items : List (Key × Bytes)) : Leaf :=
  let slots := itemSlots (25 * items.length) items
  ⟨h, slots, leafBytes h slots (itemData items)⟩

theorem itemSlots_length (start : Nat) (items : List (Key × Bytes)) :
    (itemSlots start items).length = items.length := by
  induction items generalizing start with
  | nil => rfl
  | cons item items ih => exact congrArg (· + 1) (ih _)

theorem slotTable_length (slots : List LeafItemSlot) :
    (slots.flatMap LeafItemSlot.encode).length = 25 * slots.length := by
  induction slots with
  | nil => rfl
  | cons slot slots ih =>
      rw [List.flatMap_cons, List.length_append, LeafItemSlot.encode_length, ih, List.length_cons,
        leafItemSize]
      omega

/-- Each slot leads to the data of its item. -/
theorem itemSlots_dataOf {leaf : Leaf} {rest : Bytes} (items : List (Key × Bytes)) {start : Nat}
    (hrest : RestAt leaf.buf (headerSize + start) (itemData items ++ rest))
    (hfits : start + (itemData items).length ≤ 4096) :
    List.Forall₂ (fun slot item => slot.key = item.1 ∧ leaf.dataOf slot = .ok item.2)
      (itemSlots start items) items := by
  induction items generalizing start with
  | nil => exact .nil
  | cons item items ih =>
      obtain ⟨key, data⟩ := item
      have hsplit : itemData ((key, data) :: items) = data ++ itemData items := List.flatMap_cons
      rw [hsplit, List.append_assoc] at hrest
      rw [hsplit, List.length_append] at hfits
      have hstart : (UInt32.ofNat start).toNat = start := by
        rw [UInt32.toNat_ofNat', Nat.mod_eq_of_lt (by omega)]
      have hsize : (UInt32.ofNat data.length).toNat = data.length := by
        rw [UInt32.toNat_ofNat', Nat.mod_eq_of_lt (by omega)]
      have hnext := hrest.skip rfl
      rw [Nat.add_assoc] at hnext
      refine .cons ⟨rfl, ?_⟩ (ih hnext (by omega))
      have hdata := slice_of_restAt hrest rfl
      unfold Leaf.dataOf
      dsimp only
      rw [hstart, hsize]
      exact hdata

section Items
variable {h : Header} {items : List (Key × Bytes)}

theorem itemsLeaf_table :
    ((itemSlots (25 * items.length) items).flatMap LeafItemSlot.encode).length =
      25 * items.length := by
  rw [slotTable_length, itemSlots_length]

theorem itemsLeaf_length (hs : h.Sized) (hfits : 25 * items.length + (itemData items).length ≤ 3995) :
    (itemsLeaf h items).buf.length = 4096 :=
  leafBytes_length hs (by rw [itemsLeaf_table]; exact hfits)

theorem itemsLeaf_dataOf (hs : h.Sized)
    (hfits : 25 * items.length + (itemData items).length ≤ 3995) :
    List.Forall₂ (fun slot item => slot.key = item.1 ∧ (itemsLeaf h items).dataOf slot = .ok item.2)
      (itemsLeaf h items).slots items := by
  have htable : RestAt (itemsLeaf h items).buf headerSize
      ((itemSlots (25 * items.length) items).flatMap LeafItemSlot.encode ++
        (itemData items ++ padding _)) :=
    restAt_table (checksumField_length strategy _) hs _
  exact itemSlots_dataOf items (htable.skip itemsLeaf_table) (by omega)

theorem itemsLeaf_good {image : Image} {map : ChunkMap} {ref : NodeRef} (hs : h.Sized)
    (hlevel : h.level = 0) (hn : h.nritems.toNat = items.length)
    (hstripes : map.lookupStripes ref.logical = some [(1, ref.logical)])
    (hread : image.pread ref.logical 4096 = .ok (itemsLeaf h items).buf)
    (hvalid : config.validateHeader h ref.logical (ref.expGen.getD genDontCheck) ref.expLevel
      ref.expOwner = true) :
    GoodNode (image.reader config) map ref (.leaf (itemsLeaf h items)) := by
  have hoffset : config.baseOffset + ref.logical = ref.logical := UInt64.zero_add _
  refine ⟨_, readNode_single rfl hstripes (by rw [hoffset]; exact hread)
    (verifyNodeHeader_sealNode hs) (parse_header_nodeBytes (checksumField_length _ _) hs _)
    (Node.parse_leaf (checksumField_length _ _) hs hlevel _ ?_) _ _ _, rfl, ?_, rfl⟩
  · rw [hn, itemSlots_length]
  · dsimp only
    rw [hvalid]
    rfl

end Items

/-! ### A root tree -/

/-- A ROOT_ITEM at level 0. -/
def rootItem (bytenr : UInt64) : Bytes :=
  List.replicate 176 0 ++ (toLe 8 bytenr.toNat ++ (List.replicate 54 0 ++ [0]))

theorem rootItem_length (bytenr : UInt64) : (rootItem bytenr).length = 239 := by
  simp only [rootItem, List.length_append, List.length_replicate, toLe_length, List.length_singleton]

theorem parse_rootItem (bytenr : UInt64) : RootItem.parse (rootItem bytenr) = .ok bytenr := by
  have hbytenr : RestAt (rootItem bytenr) (0 + 176) _ := (RestAt.zero _).skip List.length_replicate
  have hlevel := (hbytenr.skip (toLe_length _ _)).skip List.length_replicate
  have fbytenr : leU64 (rootItem bytenr) 176 = .ok bytenr := leU64_of_restAt hbytenr
  have flevel : byteAt (rootItem bytenr) 238 = .ok 0 := byteAt_of_restAt hlevel
  unfold RootItem.parse
  rw [fbytenr]
  simp only [bind, Except.bind, flevel, pure, Except.pure]

def rootKey (objectid : UInt64) : Key := ⟨objectid, KeyType.rootItem, 0⟩

/-- The items of the extent and the csum tree. -/
def liveItems (ext csum : UInt64) : List (Key × Bytes) :=
  [(rootKey ObjectId.extentTree, rootItem ext), (rootKey ObjectId.csumTree, rootItem csum)]

theorem liveItems_fit (ext csum : UInt64) :
    25 * (liveItems ext csum).length + (itemData (liveItems ext csum)).length ≤ 3995 := by
  simp only [liveItems, itemData, List.flatMap_cons, List.flatMap_nil, List.length_append,
    rootItem_length, List.length_cons, List.length_nil]
  decide

theorem liveRootSlots_item {leaf : Leaf} {slot : LeafItemSlot} {rest : List LeafItemSlot}
    {roots : LiveRoots} {objectid bytenr : UInt64} (hkey : slot.key = rootKey objectid)
    (hdata : leaf.dataOf slot = .ok (rootItem bytenr)) :
    liveRootSlots leaf (slot :: rest) roots =
      if (roots.add objectid bytenr).both.isSome then .ok (.error .other, roots.add objectid bytenr)
      else liveRootSlots leaf rest (roots.add objectid bytenr) := by
  have hty : ¬slot.key.ty ≠ KeyType.rootItem := by
    rw [hkey]
    exact not_not.mpr rfl
  rw [liveRootSlots, if_neg hty, hdata, hkey]
  simp only [bind, Except.bind, parse_rootItem]
  rfl

theorem liveRootSlots_liveItems {h : Header} (hs : h.Sized) (ext csum : UInt64) :
    liveRootSlots (itemsLeaf h (liveItems ext csum)) (itemsLeaf h (liveItems ext csum)).slots {} =
      .ok (.error .other, ⟨some ext, some csum⟩) := by
  have hdata := itemsLeaf_dataOf hs (liveItems_fit ext csum)
  have hitems : liveItems ext csum = [(rootKey ObjectId.extentTree, rootItem ext),
      (rootKey ObjectId.csumTree, rootItem csum)] := rfl
  have hslots : ∃ first second, (itemsLeaf h (liveItems ext csum)).slots = [first, second] :=
    ⟨_, _, rfl⟩
  obtain ⟨first, second, hslots⟩ := hslots
  rw [hslots] at hdata ⊢
  generalize itemsLeaf h (liveItems ext csum) = leaf at hdata ⊢
  rw [hitems, List.forall₂_cons, List.forall₂_cons] at hdata
  obtain ⟨⟨hkey₁, hdata₁⟩, ⟨hkey₂, hdata₂⟩, -⟩ := hdata
  rw [liveRootSlots_item hkey₁ hdata₁]
  have hfirst : ((({} : LiveRoots).add ObjectId.extentTree ext).both).isSome = false := rfl
  rw [hfirst, if_neg Bool.false_ne_true, liveRootSlots_item hkey₂ hdata₂]
  rfl

/-- The walk for the live roots ends at the leaf that has both. -/
theorem resolve_items {image : Image} {map : ChunkMap} {sb : Superblock} {leaf : Leaf}
    {ext csum : UInt64}
    (hboth : liveRootSlots leaf leaf.slots {} = .ok (.error .other, ⟨some ext, some csum⟩))
    (hgood : GoodNode (image.reader config) map (.root sb.root) (.leaf leaf)) (counters : Counters) :
    ∃ counters', resolveLiveTreeRoots (image.reader config) map counters sb =
      .ok (some (ext, csum), counters') := by
  obtain ⟨s₁, hs₁, hvisit⟩ := visitRef_leaf none liveCallbacks (({} : LiveRoots), counters) hgood
  have hnone : s₁.1 = {} := by
    rcases hs₁ with rfl | rfl <;> rfl
  have hleaf : liveCallbacks.onLeaf leaf s₁ =
      .ok (.error .other, (⟨some ext, some csum⟩, s₁.2)) := by
    unfold liveCallbacks
    dsimp only
    rw [hnone, hboth]
    rfl
  obtain ⟨fuel, hfuel⟩ := Nat.exists_eq_succ_of_ne_zero
    (Nat.pos_iff_ne_zero.mp (nodesBelow_pos (image.reader config).config.nodeSize 255))
  have hwalk : walkLeaves (image.reader config) map sb.root liveCallbacks ({}, counters) =
      .ok (.error .other, (⟨some ext, some csum⟩, s₁.2)) := by
    unfold walkLeaves walkLeavesImpl walkFuel
    rw [hfuel, Lib.explore_cons, hvisit, hleaf]
    rfl
  refine ⟨s₁.2, ?_⟩
  unfold resolveLiveTreeRoots
  rw [hwalk]
  rfl

/-- The superblock of a filesystem whose root tree starts at 4 MiB. -/
def liveSuperblock : Superblock where
  fsid
  generation := 1
  root := 0x400000
  chunkRoot := 0
  totalBytes := 0x1000000
  numDevices := 1
  sectorSize := 4096
  nodeSize := 4096
  csumType := 0
  devid := 1
  sysChunks := []

theorem liveSuperblock_sized : liveSuperblock.Sized := ⟨rfl, by decide⟩

/-- The leaf that leads to an extent tree at 5 MiB and a csum tree at 6 MiB. -/
def liveLeaf : Leaf := itemsLeaf (header 0x400000 1 1 2 0) (liveItems 0x500000 0x600000)

theorem liveLeaf_length : liveLeaf.buf.length = 4096 :=
  itemsLeaf_length (header_sized _ _ _ _ _) (liveItems_fit _ _)

end Crafted
end Rotshield.Btrfs
