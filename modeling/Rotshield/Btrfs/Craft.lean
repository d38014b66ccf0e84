import Rotshield.Btrfs.Copies
import Rotshield.Btrfs.Encode

/-! Crafted files: nodes under a matching checksum, laid out at given offsets. -/
namespace Rotshield.Btrfs

/-- The checksum field of a node with this body. -/
def checksumField (strategy : CsumStrategy) (body : Bytes) : Bytes :=
  strategy.compute body ++ List.replicate (32 - strategy.hashLen) 0

/-- A node whose stored checksum is that of its body. -/
def sealNode (strategy : CsumStrategy) (h : Header) (table rest : Bytes) : Bytes :=
  nodeBytes (checksumField strategy (h.encode ++ (table ++ rest))) h table rest

section Seal
variable (strategy : CsumStrategy)

theorem compute_length (data : Bytes) : (strategy.compute data).length = strategy.hashLen := by
  unfold CsumStrategy.compute CsumStrategy.hashLen CsumType.digest
  cases strategy.csumType <;> simp [toLe_length, CsumType.hashLen]

theorem hashLen_le (strategy : CsumStrategy) : strategy.hashLen ≤ 32 := by
  unfold CsumStrategy.hashLen
  cases strategy.csumType <;> decide

theorem checksumField_length (body : Bytes) : (checksumField strategy body).length = 32 := by
  have hlen := hashLen_le strategy
  unfold checksumField
  rw [List.length_append, compute_length, List.length_replicate]
  omega

variable {strategy} {h : Header} {table rest : Bytes}

theorem sealNode_length (hs : h.Sized) :
    (sealNode strategy h table rest).length = headerSize + table.length + rest.length := by
  simp only [sealNode, nodeBytes, List.length_append, checksumField_length,
    Header.encode_length hs, headerSize]
  omega

theorem verifyNodeHeader_sealNode (hs : h.Sized) :
    strategy.verifyNodeHeader (sealNode strategy h table rest) = true := by
  have hlen : ¬(sealNode strategy h table rest).length ≤ 32 := by
    rw [sealNode_length hs, headerSize]
    omega
  have hbody : (sealNode strategy h table rest).drop 32 = h.encode ++ (table ++ rest) :=
    List.drop_left' (checksumField_length strategy _)
  have hsum : (sealNode strategy h table rest).take strategy.hashLen =
      strategy.compute (h.encode ++ (table ++ rest)) := by
    unfold sealNode nodeBytes checksumField
    rw [List.append_assoc]
    exact List.take_left' (compute_length strategy _)
  unfold CsumStrategy.verifyNodeHeader CsumType.verifyHeader
  rw [if_neg hlen, hbody]
  exact beq_iff_eq.mpr hsum

end Seal

/-- The file with these bytes written at these offsets; the same reads fail. -/
def Image.overwrite (image : Image) (regions : List (Nat × Bytes)) : Image where
  byte i := match regions.find? fun r => decide (r.1 ≤ i ∧ i < r.1 + r.2.length) with
    | some r => r.2.getD (i - r.1) 0
    | none => image.byte i
  fault := image.fault

/-- Any two regions are the same or do not overlap. -/
def Separate (regions : List (Nat × Bytes)) : Prop :=
  ∀ a ∈ regions, ∀ b ∈ regions,
    a = b ∨ a.1 + a.2.length ≤ b.1 ∨ b.1 + b.2.length ≤ a.1

theorem find_region {regions : List (Nat × Bytes)} (hseparate : Separate regions) {r : Nat × Bytes}
    (hr : r ∈ regions) {i : Nat} (hi : i < r.2.length) :
    regions.find? (fun r' => decide (r'.1 ≤ r.1 + i ∧ r.1 + i < r'.1 + r'.2.length)) = some r := by
  cases hfind : regions.find? (fun r' => decide (r'.1 ≤ r.1 + i ∧ r.1 + i < r'.1 + r'.2.length)) with
  | none =>
      have hnone := List.find?_eq_none.mp hfind r hr
      simp only [decide_eq_true_eq] at hnone
      omega
  | some r' =>
      have hin := List.find?_some hfind
      simp only [decide_eq_true_eq] at hin
      rcases hseparate r hr r' (List.mem_of_find?_eq_some hfind) with rfl | hapart | hapart
      · rfl
      · omega
      · omega

section Overwrite
variable {image : Image} {regions : List (Nat × Bytes)} {offset : UInt64}

/-- A written region is read back, unless the read fails. -/
theorem pread_overwrite (hseparate : Separate regions) {bytes : Bytes}
    (hr : (offset.toNat, bytes) ∈ regions) (hfault : image.fault offset bytes.length = none) :
    (image.overwrite regions).pread offset bytes.length = .ok bytes := by
  unfold Image.pread readBytes Image.overwrite
  dsimp only
  rw [hfault]
  dsimp only
  congr 1
  apply List.ext_getElem
  · rw [List.length_map, List.length_range]
  · intro i _ hi
    have hfind := find_region hseparate hr hi
    rw [List.getElem_map, List.getElem_range]
    dsimp only at hfind ⊢
    rw [hfind]
    dsimp only
    rw [Nat.add_sub_cancel_left, List.getD_eq_getElem?_getD, List.getElem?_eq_getElem hi,
      Option.getD_some]

/-- Reads beside the written regions are unchanged. -/
theorem pread_overwrite_beside {n : Nat}
    (h : ∀ r ∈ regions, offset.toNat + n ≤ r.1 ∨ r.1 + r.2.length ≤ offset.toNat) :
    (image.overwrite regions).pread offset n = image.pread offset n := by
  unfold Image.pread readBytes
  have hfault : (image.overwrite regions).fault = image.fault := rfl
  rw [hfault]
  split
  case h_1 => rfl
  case h_2 =>
    congr 1
    apply List.map_congr_left
    intro i hi
    have hnone : regions.find? (fun r => decide (r.1 ≤ offset.toNat + i ∧
        offset.toNat + i < r.1 + r.2.length)) = none := by
      apply List.find?_eq_none.mpr
      intro r hr
      have hi' := List.mem_range.mp hi
      have hbeside := h r hr
      simp only [decide_eq_true_eq]
      omega
    unfold Image.overwrite
    dsimp only
    rw [hnone]

end Overwrite

/-- A file with these bytes at these offsets, zero elsewhere, and no failing read. -/
def Image.ofRegions (regions : List (Nat × Bytes)) : Image :=
  Image.overwrite ⟨fun _ => 0, fun _ _ => none⟩ regions

/-- Regions in ascending order, none reaching into the next. -/
def Apart (regions : List (Nat × Bytes)) : Prop :=
  regions.Pairwise fun a b => a.1 + a.2.length ≤ b.1

theorem Apart.separate {regions : List (Nat × Bytes)} (h : Apart regions) : Separate regions := by
  induction regions with
  | nil => exact fun a ha => nomatch ha
  | cons x regions ih =>
      obtain ⟨hx, hrest⟩ := List.pairwise_cons.mp h
      intro a ha b hb
      rcases List.mem_cons.mp ha with rfl | hina
      · rcases List.mem_cons.mp hb with rfl | hinb
        · exact .inl rfl
        · exact .inr (.inl (hx b hinb))
      · rcases List.mem_cons.mp hb with rfl | hinb
        · exact .inr (.inr (hx a hina))
        · exact ih hrest a hina b hinb

theorem pread_region {regions : List (Nat × Bytes)} (hapart : Apart regions) {offset : UInt64}
    {bytes : Bytes} (hr : (offset.toNat, bytes) ∈ regions) :
    (Image.ofRegions regions).pread offset bytes.length = .ok bytes :=
  pread_overwrite hapart.separate hr rfl

/-- One node, on the one stripe it has: only its header check is left open. -/
theorem readNode_single {image : Image} {config : ReaderConfig} {chunkMap : ChunkMap}
    {strategy : CsumStrategy} {addr devid phys : UInt64} {buf : Bytes} {hdr : Header} {node : Node}
    (hstrategy : config.strategy = some strategy)
    (hstripes : chunkMap.lookupStripes addr = some [(devid, phys)])
    (hread : image.pread (config.baseOffset + phys) config.nodeSize = .ok buf)
    (hverify : strategy.verifyNodeHeader buf = true) (hhdr : Header.parse buf = .ok hdr)
    (hnode : Node.parse buf = .ok node) (gen : UInt64) (level : Option UInt8)
    (owner : Option UInt64) :
    (image.reader config).readNode chunkMap addr gen level owner = .ok (.ok
      { node := some node
        allMirrorsFailed := false
        generationMismatch := !config.validateHeader hdr addr gen level owner
        mirrorMismatch := false }) := by
  have hcopies : copiesOf image config chunkMap addr = [.ok buf] := by
    unfold copiesOf FsReader.nodeStripes
    rw [hstripes, Option.getD_some, List.map_cons, List.map_nil, hread]
  rw [readNode_eq hstrategy, hcopies]
  cases hvalid : config.validateHeader hdr addr gen level owner <;>
    simp [scanCopy, selectCopy, Copies.none, hverify, hhdr, hvalid, hnode, bind, Except.bind, pure,
      Except.pure]

/-! One small filesystem for examples: CRC-32C, 4 KiB sectors and nodes, one chunk that maps
every address to itself. -/
namespace Crafted

/-- One bit of the reflected division by the Castagnoli polynomial. -/
def crcBit (crc : UInt32) : UInt32 :=
  if crc % 2 = 1 then (crc >>> 1) ^^^ 0x82F63B78 else crc >>> 1

def crcByte (crc : UInt32) (b : UInt8) : UInt32 :=
  (List.range 8).foldl (fun c _ => crcBit c) (crc ^^^ b.toUInt32)

def crc32c (data : Bytes) : UInt32 := data.foldl crcByte 0xFFFFFFFF ^^^ 0xFFFFFFFF

example : crc32c [0x31, 0x32, 0x33, 0x34, 0x35, 0x36, 0x37, 0x38, 0x39] = 0xE3069283 := by
  decide +kernel

theorem xor_cancel {x y z : UInt32} (h : x ^^^ z = y ^^^ z) : x = y :=
  UInt32.toBitVec_inj.mp ((BitVec.xor_left_inj z.toBitVec).mp (UInt32.toBitVec_inj.mpr h))

theorem crcBit_inj {x y : UInt32} (h : crcBit x = crcBit y) : x = y := by
  have htop : ∀ x y : UInt32, (x >>> 1) ^^^ (0x82F63B78 : UInt32) ≠ y >>> 1 := by
    intro x y heq
    have hpoly : (0x82F63B78 : UInt32) = (x >>> 1) ^^^ (y >>> 1) := by
      rw [← heq, ← UInt32.xor_assoc, UInt32.xor_self, UInt32.zero_xor]
    have hlt : ∀ z : UInt32, (z >>> 1).toNat < 2 ^ 31 := by
      intro z
      rw [UInt32.toNat_shiftRight]
      have hz := z.toNat_lt
      simp [Nat.shiftRight_eq_div_pow]
      omega
    have hnat := congrArg UInt32.toNat hpoly
    rw [UInt32.toNat_xor] at hnat
    have hsmall := Nat.xor_lt_two_pow (hlt x) (hlt y)
    rw [← hnat] at hsmall
    exact absurd hsmall (by decide)
  have hhalf : ∀ {x y : UInt32}, x % 2 = y % 2 → x >>> 1 = y >>> 1 → x = y := by
    intro x y hmod hshift
    have hm := congrArg UInt32.toNat hmod
    have hs := congrArg UInt32.toNat hshift
    simp [Nat.shiftRight_eq_div_pow] at hm hs
    apply UInt32.toNat_inj.mp
    omega
  have hbit : ∀ x : UInt32, x % 2 = 1 ∨ x % 2 = 0 := by
    intro x
    rcases Nat.mod_two_eq_zero_or_one x.toNat with h | h
    · right
      apply UInt32.toNat_inj.mp
      simpa using h
    · left
      apply UInt32.toNat_inj.mp
      simpa using h
  unfold crcBit at h
  rcases hbit x with hx | hx <;> rcases hbit y with hy | hy
  · rw [if_pos hx, if_pos hy] at h
    exact hhalf (hx.trans hy.symm) (xor_cancel h)
  · rw [if_pos hx, if_neg (by rw [hy]; decide)] at h
    exact absurd h (htop x y)
  · rw [if_neg (by rw [hx]; decide), if_pos hy] at h
    exact absurd h.symm (htop y x)
  · rw [if_neg (by rw [hx]; decide), if_neg (by rw [hy]; decide)] at h
    exact hhalf (hx.trans hy.symm) h

theorem crcBits_inj (n : Nat) {x y : UInt32}
    (h : (List.range n).foldl (fun c _ => crcBit c) x = (List.range n).foldl (fun c _ => crcBit c) y) :
    x = y := by
  induction n with
  | zero => exact h
  | succ n ih =>
      rw [List.range_succ, List.foldl_append, List.foldl_append] at h
      exact ih (crcBit_inj h)

/-- Past the same bytes, states that differ still differ. -/
theorem crcBytes_inj {x y : UInt32} {data : Bytes}
    (h : data.foldl crcByte x = data.foldl crcByte y) : x = y := by
  induction data generalizing x y with
  | nil => exact h
  | cons b data ih => exact xor_cancel (crcBits_inj 8 (ih h))

/-- A change of one byte changes the checksum. -/
theorem crc32c_set_ne {before after : Bytes} {b b' : UInt8} (h : b ≠ b') :
    crc32c (before ++ b :: after) ≠ crc32c (before ++ b' :: after) := by
  intro heq
  have hstates := xor_cancel heq
  rw [List.foldl_append, List.foldl_append, List.foldl_cons, List.foldl_cons] at hstates
  have hbytes := crcBits_inj 8 (crcBytes_inj hstates)
  rw [UInt32.xor_comm, UInt32.xor_comm _ b'.toUInt32] at hbytes
  have hsame := congrArg UInt32.toNat (xor_cancel hbytes)
  apply h
  apply UInt8.toNat_inj.mp
  simpa using hsame

/-- Only the first of the four is used. -/
def crates : HashCrates where
  crc32c
  xxh64 _ := 0
  sha256 _ := Vector.replicate 32 0
  blake2 _ := Vector.replicate 32 0

def strategy : CsumStrategy where
  crates
  csumType := .crc32c
  sectorSize := 4096
  sectorSize_pos := by decide

/-- Every checksum is zero. -/
def zeroStrategy : CsumStrategy where
  crates := ⟨fun _ => 0, fun _ => 0, fun _ => .replicate 32 0, fun _ => .replicate 32 0⟩
  csumType := .crc32c
  sectorSize := 4096
  sectorSize_pos := by decide

def fsid : Bytes := List.replicate 16 7

def config : ReaderConfig where
  nodeSize := 4096
  baseOffset := 0
  devid := some 1
  strategy := some strategy
  fsid := some fsid

def chunkMap : ChunkMap := ⟨[{ start := 0, stop := 0x10000000, ty := 1, stripes := [⟨1, 0⟩] }]⟩

def header (bytenr generation owner : UInt64) (nritems : UInt32) (level : UInt8) : Header where
  fsid
  bytenr
  flags := 0
  chunkTreeUuid := List.replicate 16 0
  generation
  owner
  nritems
  level

theorem header_sized (bytenr generation owner : UInt64) (nritems : UInt32) (level : UInt8) :
    (header bytenr generation owner nritems level).Sized := ⟨rfl, rfl⟩

/-- What fills a node up after its table and its item data. -/
def padding (used : Nat) : Bytes := List.replicate (4096 - headerSize - used) 0

def leafBytes (h : Header) (slots : List LeafItemSlot) (data : Bytes) : Bytes :=
  let table := slots.flatMap LeafItemSlot.encode
  sealNode strategy h table (data ++ padding (table.length + data.length))

def internalBytes (h : Header) (ptrs : List KeyPtr) : Bytes :=
  let table := ptrs.flatMap KeyPtr.encode
  sealNode strategy h table (padding table.length)

theorem leafBytes_length {h : Header} (hs : h.Sized) {slots : List LeafItemSlot} {data : Bytes}
    (hfits : (slots.flatMap LeafItemSlot.encode).length + data.length ≤ 3995) :
    (leafBytes h slots data).length = 4096 := by
  unfold leafBytes padding
  rw [sealNode_length hs, List.length_append, List.length_replicate, headerSize]
  omega

theorem internalBytes_length {h : Header} (hs : h.Sized) {ptrs : List KeyPtr}
    (hfits : (ptrs.flatMap KeyPtr.encode).length ≤ 3995) :
    (internalBytes h ptrs).length = 4096 := by
  unfold internalBytes padding
  rw [sealNode_length hs, List.length_replicate, headerSize]
  omega

section Files
variable {regions : List (Nat × Bytes)} {addr : UInt64} {offset : Nat} {h : Header}

theorem readNode_leafBytes {slots : List LeafItemSlot} {data : Bytes}
    (hstripes : chunkMap.lookupStripes addr = some [(1, addr)]) (hapart : Apart regions)
    (haddr : addr.toNat = offset)
    (hr : (offset, leafBytes h slots data) ∈ regions) (hs : h.Sized) (hlevel : h.level = 0)
    (hn : h.nritems.toNat = slots.length)
    (hfits : (slots.flatMap LeafItemSlot.encode).length + data.length ≤ 3995)
    (gen : UInt64) (level : Option UInt8) (owner : Option UInt64) :
    ((Image.ofRegions regions).reader config).readNode chunkMap addr gen level owner = .ok (.ok
      { node := some (.leaf ⟨h, slots, leafBytes h slots data⟩)
        allMirrorsFailed := false
        generationMismatch := !config.validateHeader h addr gen level owner
        mirrorMismatch := false }) := by
  subst haddr
  have hread := pread_region hapart hr
  rw [leafBytes_length hs hfits] at hread
  have hoffset : config.baseOffset + addr = addr := UInt64.zero_add addr
  exact readNode_single rfl hstripes (by rw [hoffset]; exact hread) (verifyNodeHeader_sealNode hs)
    (parse_header_nodeBytes (checksumField_length _ _) hs _)
    (Node.parse_leaf (checksumField_length _ _) hs hlevel slots hn) gen level owner

theorem readNode_internalBytes {ptrs : List KeyPtr}
    (hstripes : chunkMap.lookupStripes addr = some [(1, addr)]) (hapart : Apart regions)
    (haddr : addr.toNat = offset)
    (hr : (offset, internalBytes h ptrs) ∈ regions) (hs : h.Sized) (hlevel : h.level ≠ 0)
    (hn : h.nritems.toNat = ptrs.length) (hfits : (ptrs.flatMap KeyPtr.encode).length ≤ 3995)
    (gen : UInt64) (level : Option UInt8) (owner : Option UInt64) :
    ((Image.ofRegions regions).reader config).readNode chunkMap addr gen level owner = .ok (.ok
      { node := some (.internal ⟨h, ptrs⟩)
        allMirrorsFailed := false
        generationMismatch := !config.validateHeader h addr gen level owner
        mirrorMismatch := false }) := by
  subst haddr
  have hread := pread_region hapart hr
  rw [internalBytes_length hs hfits] at hread
  have hoffset : config.baseOffset + addr = addr := UInt64.zero_add addr
  exact readNode_single rfl hstripes (by rw [hoffset]; exact hread) (verifyNodeHeader_sealNode hs)
    (parse_header_nodeBytes (checksumField_length _ _) hs _)
    (Node.parse_internal (checksumField_length _ _) hs hlevel ptrs hn) gen level owner

/-- The slot of the only item of a leaf: its data comes right after it. -/
def itemSlot (key : Key) (data : Bytes) : LeafItemSlot where
  key
  dataOffset := 25
  dataSize := UInt32.ofNat data.length

/-- A leaf with one item. -/
def itemLeaf (h : Header) (key : Key) (data : Bytes) : Leaf :=
  ⟨h, [itemSlot key data], leafBytes h [itemSlot key data] data⟩

theorem itemTable_length (key : Key) (data : Bytes) :
    ([itemSlot key data].flatMap LeafItemSlot.encode).length = 25 := by
  rw [List.flatMap_singleton, LeafItemSlot.encode_length, leafItemSize]

theorem itemLeaf_length (hs : h.Sized) {key : Key} {data : Bytes} (hfits : data.length ≤ 3970) :
    (itemLeaf h key data).buf.length = 4096 :=
  leafBytes_length hs (by rw [itemTable_length]; omega)

theorem itemLeaf_dataOf (hs : h.Sized) {key : Key} {data : Bytes} (hfits : data.length ≤ 3970) :
    (itemLeaf h key data).dataOf (itemSlot key data) = .ok data := by
  have htable : RestAt (itemLeaf h key data).buf headerSize
      ([itemSlot key data].flatMap LeafItemSlot.encode ++ (data ++ padding _)) :=
    restAt_table (checksumField_length strategy _) hs _
  have hdata := htable.skip (itemTable_length key data)
  have hsize : (UInt32.ofNat data.length).toNat = data.length := by
    rw [UInt32.toNat_ofNat', Nat.mod_eq_of_lt (by omega)]
  exact slice_of_restAt hdata hsize.symm

theorem readNode_itemLeaf {key : Key} {data : Bytes}
    (hstripes : chunkMap.lookupStripes addr = some [(1, addr)]) (hapart : Apart regions)
    (haddr : addr.toNat = offset) (hr : (offset, (itemLeaf h key data).buf) ∈ regions)
    (hs : h.Sized) (hlevel : h.level = 0) (hn : h.nritems = 1) (hfits : data.length ≤ 3970)
    (gen : UInt64) (level : Option UInt8) (owner : Option UInt64) :
    ((Image.ofRegions regions).reader config).readNode chunkMap addr gen level owner = .ok (.ok
      { node := some (.leaf (itemLeaf h key data))
        allMirrorsFailed := false
        generationMismatch := !config.validateHeader h addr gen level owner
        mirrorMismatch := false }) :=
  readNode_leafBytes hstripes hapart haddr hr hs hlevel (by rw [hn]; rfl)
    (by rw [itemTable_length]; omega) gen level owner

end Files
end Crafted
end Rotshield.Btrfs
