import Rotshield.Btrfs.Exact
import Rotshield.Btrfs.LiveCsum

/-! A rewritten root is read as if nothing had happened to it. -/
namespace Rotshield.Btrfs

/-- The header of an empty leaf. -/
def emptyHeader (fsid : Bytes) (addr gen : UInt64) : Header where
  fsid
  bytenr := addr
  flags := 0
  chunkTreeUuid := List.replicate 16 0
  generation := gen
  owner := 0
  nritems := 0
  level := 0

/-- An empty leaf, of the size of a node. -/
def emptyLeaf (strategy : CsumStrategy) (nodeSize : Nat) (h : Header) : Bytes :=
  sealNode strategy h [] (List.replicate (nodeSize - headerSize) 0)

section EmptyLeaf
variable {strategy : CsumStrategy} {nodeSize : Nat} {fsid : Bytes} {addr gen : UInt64}

theorem emptyHeader_sized (hfsid : fsid.length = 16) : (emptyHeader fsid addr gen).Sized :=
  ⟨hfsid, rfl⟩

theorem emptyLeaf_length (hfsid : fsid.length = 16) (hsize : headerSize ≤ nodeSize) :
    (emptyLeaf strategy nodeSize (emptyHeader fsid addr gen)).length = nodeSize := by
  unfold emptyLeaf
  rw [sealNode_length (emptyHeader_sized hfsid), List.length_replicate, List.length_nil]
  omega

theorem parse_emptyLeaf (hfsid : fsid.length = 16) :
    Node.parse (emptyLeaf strategy nodeSize (emptyHeader fsid addr gen)) =
      .ok (.leaf ⟨emptyHeader fsid addr gen, [],
        emptyLeaf strategy nodeSize (emptyHeader fsid addr gen)⟩) :=
  Node.parse_leaf (checksumField_length _ _) (emptyHeader_sized hfsid) rfl [] rfl

end EmptyLeaf

theorem Header.parse_bound {buf : Bytes} {hdr : Header} (h : Header.parse buf = .ok hdr) :
    headerSize ≤ buf.length := by
  cases hlevel : byteAt buf 100 with
  | ok b =>
      unfold byteAt at hlevel
      cases hslice : slice buf 100 1 with
      | error e => rw [hslice] at hlevel; cases hlevel
      | ok bytes => exact slice_bound hslice
  | error e =>
      unfold Header.parse at h
      rw [hlevel] at h
      simp only [bind, Except.bind] at h
      repeat
        split at h
        · cases h
      cases h

section Overwritten
variable {image : Image} {nodeSize : Nat} {baseOffset devid root : UInt64} {fsid : Bytes}
  {chunkMap : ChunkMap} {strategy : CsumStrategy} {nodes : List UInt64} {gen : UInt64 → UInt64}

/-- An empty leaf of this generation on every copy of these nodes. -/
def emptyRegions (nodeSize : Nat) (baseOffset : UInt64) (strategy : CsumStrategy) (fsid : Bytes)
    (chunkMap : ChunkMap) (gen : UInt64 → UInt64) (nodes : List UInt64) : List (Nat × Bytes) :=
  nodes.flatMap fun addr => (FsReader.nodeStripes chunkMap addr).map fun s =>
    ((baseOffset + s.2).toNat, emptyLeaf strategy nodeSize (emptyHeader fsid addr (gen addr)))

theorem mem_emptyRegions {r : Nat × Bytes} :
    r ∈ emptyRegions nodeSize baseOffset strategy fsid chunkMap gen nodes ↔
      ∃ addr ∈ nodes, ∃ s ∈ FsReader.nodeStripes chunkMap addr, r = ((baseOffset + s.2).toNat,
        emptyLeaf strategy nodeSize (emptyHeader fsid addr (gen addr))) := by
  unfold emptyRegions
  simp only [List.mem_flatMap, List.mem_map, eq_comm]

/-- The copies of a node that is written over are the empty leaf, where they can be read. -/
theorem copies_overwritten (hfsid : fsid.length = 16) (hsize : headerSize ≤ nodeSize)
    (hseparate :
      Separate (emptyRegions nodeSize baseOffset strategy fsid chunkMap gen nodes))
    {addr : UInt64} (haddr : addr ∈ nodes) :
    copiesOf (image.overwrite (emptyRegions nodeSize baseOffset strategy fsid chunkMap gen nodes))
        (.checked nodeSize baseOffset strategy devid fsid) chunkMap addr =
      (copiesOf image (.checked nodeSize baseOffset strategy devid fsid) chunkMap addr).map
        fun c => c.map fun _ => emptyLeaf strategy nodeSize (emptyHeader fsid addr (gen addr)) := by
  unfold copiesOf
  rw [List.map_map]
  apply List.map_congr_left
  intro s hs
  have hmem : ((baseOffset + s.2).toNat,
      emptyLeaf strategy nodeSize (emptyHeader fsid addr (gen addr))) ∈
        emptyRegions nodeSize baseOffset strategy fsid chunkMap gen nodes :=
    mem_emptyRegions.mpr ⟨addr, haddr, s, hs, rfl⟩
  have hlen : (emptyLeaf strategy nodeSize (emptyHeader fsid addr (gen addr))).length = nodeSize :=
    emptyLeaf_length hfsid hsize
  dsimp only [Function.comp, ReaderConfig.checked]
  cases hfault : image.fault (baseOffset + s.2) nodeSize with
  | some e =>
      unfold Image.pread readBytes
      have hsame : (image.overwrite
          (emptyRegions nodeSize baseOffset strategy fsid chunkMap gen nodes)).fault =
            image.fault := rfl
      rw [hsame, hfault]
      rfl
  | none =>
      have hread := pread_overwrite hseparate hmem (by rw [hlen]; exact hfault)
      rw [hlen] at hread
      rw [hread]
      unfold Image.pread readBytes
      rw [hfault]
      rfl

end Overwritten

namespace LiveCsumTree
variable {image : Image} {nodeSize : Nat} {baseOffset devid root : UInt64} {fsid : Bytes}
  {chunkMap : ChunkMap} {strategy : CsumStrategy} {nodes : List UInt64} {gen : UInt64 → UInt64}
  (t : LiveCsumTree image (.checked nodeSize baseOffset strategy devid fsid) chunkMap root strategy)
include t

theorem headerSize_le : headerSize ≤ nodeSize := by
  obtain ⟨node, hgood⟩ := t.goodNode (.refl _)
  obtain ⟨buf, hdr, hlen, _, hhdr, _⟩ := goodNode_parsed rfl hgood
  have hbound := Header.parse_bound hhdr
  rw [hlen] at hbound
  exact hbound

theorem readable {ref : NodeRef}
    (hin : InTree image (.checked nodeSize baseOffset strategy devid fsid) chunkMap root ref) :
    ∃ buf, .ok buf ∈
      copiesOf image (.checked nodeSize baseOffset strategy devid fsid) chunkMap ref.logical := by
  obtain ⟨node, res, hread, hfailed, _, _⟩ := t.goodNode hin
  have hfrom := readNode_readFrom rfl hread
  unfold ReadFrom at hfrom
  dsimp only at hfrom
  rw [hfailed, if_neg Bool.false_ne_true] at hfrom
  obtain ⟨⟨buf, _, hmem, _⟩, _⟩ := hfrom
  exact ⟨buf, hmem⟩

/-- There is a generation that a node does not have. -/
theorem exists_other_gen (addr : UInt64) : ∃ g, ∀ ref node,
    InTree image (.checked nodeSize baseOffset strategy devid fsid) chunkMap root ref →
      ref.logical = addr →
      GoodNode (image.reader (.checked nodeSize baseOffset strategy devid fsid)) chunkMap ref node →
        g ≠ node.header.generation := by
  by_cases h : ∃ ref,
      InTree image (.checked nodeSize baseOffset strategy devid fsid) chunkMap root ref ∧
        ref.logical = addr
  · obtain ⟨ref, hin, haddr⟩ := h
    obtain ⟨node, hgood⟩ := t.goodNode hin
    refine ⟨node.header.generation + 1, fun ref' node' hin' haddr' hgood' => ?_⟩
    obtain rfl := t.addresses ref' ref hin' hin (haddr'.trans haddr.symm)
    obtain rfl := hgood'.unique hgood
    intro heq
    have hnat := congrArg UInt64.toNat heq
    have hlt := node'.header.generation.toNat_lt
    rw [UInt64.toNat_add, UInt64.toNat_one] at hnat
    omega
  · refine ⟨0, fun ref _ hin haddr _ => ?_⟩
    exact absurd ⟨ref, hin, haddr⟩ h

theorem emptyRegions_separate (hfsid : fsid.length = 16) (hnodes : NodesOf image (.checked nodeSize baseOffset strategy devid fsid) chunkMap root nodes) :
    Separate (emptyRegions nodeSize baseOffset strategy fsid chunkMap gen nodes) := by
  have hsize := t.headerSize_le
  intro a ha b hb
  obtain ⟨addr, haddr, s, hs, rfl⟩ := mem_emptyRegions.mp ha
  obtain ⟨addr', haddr', s', hs', rfl⟩ := mem_emptyRegions.mp hb
  obtain ⟨ref, hin, rfl⟩ := hnodes addr haddr
  obtain ⟨ref', hin', rfl⟩ := hnodes addr' haddr'
  have hapart := t.apart ref ref' hin hin' _ _ ⟨s, hs, rfl⟩ ⟨s', hs', rfl⟩
  dsimp only [ReaderConfig.checked] at hapart
  rw [emptyLeaf_length hfsid hsize, emptyLeaf_length hfsid hsize]
  rcases hapart with ⟨hlogical, hoffset⟩ | hapart
  · apply Or.inl
    rw [hlogical, hoffset]
  · exact .inr hapart

/-- Empty leaves of other generations are a rewrite of these nodes. -/
theorem emptyRegions_rewrites (hfsid : fsid.length = 16) (hnodes : NodesOf image (.checked nodeSize baseOffset strategy devid fsid) chunkMap root nodes)
    (hgen : ∀ addr ref node,
      InTree image (.checked nodeSize baseOffset strategy devid fsid) chunkMap root ref →
        ref.logical = addr →
        GoodNode (image.reader (.checked nodeSize baseOffset strategy devid fsid)) chunkMap ref node →
          gen addr ≠ node.header.generation) :
    Rewrites image (.checked nodeSize baseOffset strategy devid fsid) chunkMap root strategy nodes
      (image.overwrite (emptyRegions nodeSize baseOffset strategy fsid chunkMap gen nodes)) := by
  have hsize := t.headerSize_le
  have hseparate : Separate (emptyRegions nodeSize baseOffset strategy fsid chunkMap gen nodes) :=
    t.emptyRegions_separate hfsid hnodes
  constructor
  · intro ref hin hspared
    unfold copiesOf
    apply List.map_congr_left
    intro s hs
    apply pread_overwrite_beside
    intro r hr
    obtain ⟨addr, haddr, s', hs', rfl⟩ := mem_emptyRegions.mp hr
    obtain ⟨ref', hin', rfl⟩ := hnodes addr haddr
    have hapart := t.apart ref ref' hin hin' _ _ ⟨s, hs, rfl⟩ ⟨s', hs', rfl⟩
    rw [emptyLeaf_length hfsid hsize]
    dsimp only [ReaderConfig.checked] at hapart ⊢
    rcases hapart with ⟨hlogical, _⟩ | hapart
    · exact absurd (hlogical ▸ haddr) hspared
    · exact hapart
  · intro ref hin hnode
    obtain ⟨buf, hbuf⟩ := t.readable hin
    rw [copies_overwritten hfsid hsize hseparate hnode]
    exact ⟨_, List.mem_map_of_mem hbuf⟩
  · intro ref node hin hgood hnode buf hbuf
    rw [copies_overwritten hfsid hsize hseparate hnode] at hbuf
    obtain ⟨c, _, hc⟩ := List.mem_map.mp hbuf
    cases c with
    | error e => cases hc
    | ok old =>
        cases hc
        exact ⟨verifyNodeHeader_sealNode (emptyHeader_sized hfsid), _, parse_emptyLeaf hfsid, rfl,
          rfl, hgen ref.logical ref node hin rfl hgood⟩

/-- A root under an empty leaf is a valid node: nothing is expected of a root. -/
theorem emptyRoot_good (gen : UInt64 → UInt64) (hfsid : fsid.length = 16)
    (hnodes : NodesOf image (.checked nodeSize baseOffset strategy devid fsid) chunkMap root nodes)
    (hroot : root ∈ nodes) :
    ∃ buf, GoodNode ((image.overwrite
      (emptyRegions nodeSize baseOffset strategy fsid chunkMap gen nodes)).reader
        (.checked nodeSize baseOffset strategy devid fsid)) chunkMap (.root root)
          (.leaf ⟨emptyHeader fsid root (gen root), [], buf⟩) := by
  have hsize := t.headerSize_le
  have hseparate : Separate (emptyRegions nodeSize baseOffset strategy fsid chunkMap gen nodes) :=
    t.emptyRegions_separate hfsid hnodes
  have hempty : ∀ buf, .ok buf ∈ copiesOf (image.overwrite
        (emptyRegions nodeSize baseOffset strategy fsid chunkMap gen nodes))
        (.checked nodeSize baseOffset strategy devid fsid) chunkMap root →
      buf = emptyLeaf strategy nodeSize (emptyHeader fsid root (gen root)) := by
    intro buf hbuf
    rw [copies_overwritten hfsid hsize hseparate hroot] at hbuf
    obtain ⟨c, _, hc⟩ := List.mem_map.mp hbuf
    cases c with
    | error e => cases hc
    | ok old => cases hc; rfl
  have hreadable : ∃ buf, .ok buf ∈ copiesOf (image.overwrite
      (emptyRegions nodeSize baseOffset strategy fsid chunkMap gen nodes))
      (.checked nodeSize baseOffset strategy devid fsid) chunkMap root := by
    obtain ⟨buf, hbuf⟩ := t.readable (.refl (NodeRef.root root))
    rw [copies_overwritten hfsid hsize hseparate hroot]
    exact ⟨_, List.mem_map_of_mem hbuf⟩
  have hvalid : (ReaderConfig.checked nodeSize baseOffset strategy devid fsid).validateHeader
      (emptyHeader fsid root (gen root)) root genDontCheck none none = true := by
    simp [ReaderConfig.validateHeader, ReaderConfig.checked, emptyHeader]
  obtain ⟨res, buf, node, hread, hfailed, hstale, hbuf, hparse, hnode⟩ := readNode_uniform rfl
    genDontCheck none none hreadable (fun buf hbuf => by
      obtain rfl := hempty buf hbuf
      exact ⟨⟨verifyNodeHeader_sealNode (emptyHeader_sized hfsid), _,
        Node.parse_header (parse_emptyLeaf hfsid), hvalid⟩, _, parse_emptyLeaf hfsid⟩)
  obtain rfl := hempty buf hbuf
  rw [parse_emptyLeaf hfsid] at hparse
  cases hparse
  exact ⟨_, res, hread, hfailed, hstale, hnode⟩

/-- The nodes can be rewritten such that a range over them gives nothing and counts nothing. -/
theorem exists_silent (hfsid : fsid.length = 16)
    (hnodes : NodesOf image (.checked nodeSize baseOffset strategy devid fsid) chunkMap root nodes)
    (hroot : root ∈ nodes) (tallies : CsumTallies) (lo hi : UInt64) :
    ∃ later out, Rewrites image (.checked nodeSize baseOffset strategy devid fsid) chunkMap root
        strategy nodes later ∧
      (laterProvider later (.checked nodeSize baseOffset strategy devid fsid) chunkMap root strategy
        tallies).range lo hi = .ok out ∧
      out.1 = [] ∧ (out.2.tallies.Reported → tallies.Reported) := by
  have hchoice : ∀ addr, ∃ g, ∀ ref node,
      InTree image (.checked nodeSize baseOffset strategy devid fsid) chunkMap root ref →
        ref.logical = addr →
        GoodNode (image.reader (.checked nodeSize baseOffset strategy devid fsid)) chunkMap ref node →
          g ≠ node.header.generation := t.exists_other_gen
  choose gen hgen using hchoice
  obtain ⟨buf, hgood⟩ := t.emptyRoot_good gen hfsid hnodes hroot
  have hcall : ∀ s, (rangeCallbacks strategy lo hi).onLeaf
      ⟨emptyHeader fsid root (gen root), [], buf⟩ s = .ok (.ok (), (s.1 ++ [], s.2)) :=
    fun _ => rfl
  obtain ⟨s₁, s', hs₁, hs', hwalk⟩ := walkLeavesImpl_single
    (some (csumKey (saturatingSub lo (maxItemSpan nodeSize strategy)), csumKey hi))
    ([], tallies) hgood (fun s => ⟨_, hcall s⟩)
  rw [hcall] at hs'
  cases hs'
  refine ⟨_, ([], laterProvider (image.overwrite
      (emptyRegions nodeSize baseOffset strategy fsid chunkMap gen nodes))
      (.checked nodeSize baseOffset strategy devid fsid) chunkMap root strategy s₁.2),
    t.emptyRegions_rewrites hfsid hnodes hgen, ?_, rfl, ?_⟩
  · have hnil : s₁.1 = [] := by
      rcases hs₁ with rfl | rfl <;> rfl
    rw [hnil] at hwalk
    have hsize : ((image.overwrite (emptyRegions nodeSize baseOffset strategy fsid chunkMap gen
        nodes)).reader (.checked nodeSize baseOffset strategy devid fsid)).config.nodeSize =
          nodeSize := rfl
    unfold LazyCsumProvider.range walkLeavesRange laterProvider
    dsimp only
    rw [hsize, hwalk]
    rfl
  · intro h
    rcases hs₁ with rfl | rfl <;> exact h

end LiveCsumTree

/-- A range is never silent about a lost sector exactly where the root is not rewritten, or there
is nothing to lose, or a failure had been counted before. -/
theorem range_neverSilent_iff (image : Image) (nodeSize : Nat) (baseOffset devid root : UInt64)
    (fsid : Bytes) (chunkMap : ChunkMap) (strategy : CsumStrategy)
    (t : LiveCsumTree image (.checked nodeSize baseOffset strategy devid fsid) chunkMap root strategy)
    (tallies : CsumTallies) (nodes : List UInt64) (lo hi : UInt64) (hfsid : fsid.length = 16)
    (hnodeSize : nodeSize < 2 ^ 32) (hsize : strategy.sectorSize.toNat < 2 ^ 32)
    (hnodes :
      NodesOf image (.checked nodeSize baseOffset strategy devid fsid) chunkMap root nodes) :
    NeverSilent t tallies nodes lo hi ↔
      root ∉ nodes ∨ (∀ sector, t.Holds sector → ¬(lo ≤ sector ∧ sector < hi)) ∨
        tallies.Reported := by
  constructor
  · intro hnever
    by_cases hroot : root ∈ nodes
    case neg => exact .inl hroot
    by_cases hreported : tallies.Reported
    case pos => exact .inr (.inr hreported)
    apply Or.inr
    apply Or.inl
    rintro sector hholds ⟨hlo, hhi⟩
    obtain ⟨later, out, hrewrites, hrun, hnil, hsame⟩ :=
      t.exists_silent hfsid hnodes hroot tallies lo hi
    rcases hnever later hrewrites out hrun sector hholds hlo hhi with ⟨e, he, _⟩ | hcounted
    · rw [hnil] at he
      cases he
    · exact hreported (hsame hcounted)
  · rintro (hroot | hnothing | hreported)
    · exact neverSilent_of_root t rfl hnodeSize hsize tallies lo hi hroot
    · intro later _ out _ sector hholds hlo hhi
      exact absurd ⟨hlo, hhi⟩ (hnothing sector hholds)
    · intro later _ out hrun _ _ _ _
      obtain ⟨entries, hwalk, _⟩ := range_ok hrun
      have hstart : Counted ([], tallies) := hreported
      have hcounted : Counted (entries, out.2.tallies) :=
        walkLeavesImpl_keeps counted_keeps hstart hwalk
      exact .inr hcounted

namespace Crafted

/-! A CSUM_TREE of one leaf with one checksum, at the address of its root. -/

def csumFile : Image := Image.ofRegions [(0x403000, csumLeaf.buf)]

theorem csumFile_root : GoodNode (csumFile.reader config) chunkMap (.root 0x403000)
    (.leaf csumLeaf) :=
  ⟨_, readNode_itemLeaf rfl (List.pairwise_singleton _ _) (by decide) (.head _)
    (header_sized _ _ _ _ _) rfl rfl (by decide) genDontCheck none none, rfl, rfl, rfl⟩

theorem csumFile_inTree {ref : NodeRef} (h : InTree csumFile config chunkMap 0x403000 ref) :
    ref = .root 0x403000 := by
  cases h with
  | refl => rfl
  | step hchild _ =>
      obtain ⟨node, hgood, _⟩ := hchild
      cases hgood.unique csumFile_root

theorem csumFile_copyAt {offset : Nat} (h : CopyAt config chunkMap 0x403000 offset) :
    offset = 0x403000 := by
  obtain ⟨s, hs, rfl⟩ := h
  have hstripes : FsReader.nodeStripes chunkMap 0x403000 = [(1, 0x403000)] := by decide
  rw [hstripes, List.mem_singleton] at hs
  rw [hs]
  decide

def csumFileTree : LiveCsumTree csumFile (.checked 4096 0 strategy 1 fsid) chunkMap 0x403000
    strategy where
  height := 0
  leaves := [csumLeaf]
  heads := ⟨csumLeaf, refPage_of_goodNode csumFile_root, rfl⟩
  sorted := List.pairwise_singleton _ _
  data := csumLeaf_data
  ends := by
    have hcsum : csumLeaf.entries = _ := itemLeaf_entries (header_sized _ _ _ _ _) (by decide)
    intro leaf hleaf e he
    obtain rfl := List.mem_singleton.mp hleaf
    rw [hcsum] at he
    obtain rfl := List.mem_singleton.mp he
    decide
  generations := by
    intro ref hin
    obtain rfl := csumFile_inTree hin
    exact nofun
  addresses := by
    intro a b ha hb _
    rw [csumFile_inTree ha, csumFile_inTree hb]
  apart := by
    intro a b ha hb x y hx hy
    obtain rfl := csumFile_inTree ha
    obtain rfl := csumFile_inTree hb
    exact .inl ⟨rfl, (csumFile_copyAt hx).trans (csumFile_copyAt hy).symm⟩

theorem csumFileTree_holds : csumFileTree.Holds 0x2000 := by
  have hcsum : csumLeaf.entries = _ := itemLeaf_entries (header_sized _ _ _ _ _) (by decide)
  refine ⟨csumLeaf, List.mem_singleton_self _, (csumKey, [1, 2, 3, 4]), ?_, rfl, 0, ?_, ?_⟩
  · rw [hcsum]
    exact List.mem_singleton_self _
  · decide
  · decide

theorem csumFile_nodes :
    NodesOf csumFile (.checked 4096 0 strategy 1 fsid) chunkMap 0x403000 [0x403000] := by
  intro addr haddr
  obtain rfl := List.mem_singleton.mp haddr
  exact ⟨.root 0x403000, .refl _, rfl⟩

theorem range_neverSilent_iff_csumFile :
    fsid.length = 16 ∧ 4096 < 2 ^ 32 ∧ strategy.sectorSize.toNat < 2 ^ 32 ∧
      (NeverSilent csumFileTree .empty [0x403000] 0x2000 0x3000 ↔
        0x403000 ∉ [(0x403000 : UInt64)] ∨
          (∀ sector, csumFileTree.Holds sector → ¬(0x2000 ≤ sector ∧ sector < 0x3000)) ∨
            CsumTallies.empty.Reported) :=
  ⟨by decide, by decide, by decide, range_neverSilent_iff csumFile 4096 0 1 0x403000 fsid chunkMap
    strategy csumFileTree .empty [0x403000] 0x2000 0x3000 (by decide) (by decide) (by decide)
    csumFile_nodes⟩

/-- Rewriting the root alone can lose the sector without a trace. -/
theorem csumFile_silent : ¬NeverSilent csumFileTree .empty [0x403000] 0x2000 0x3000 := by
  intro hnever
  obtain ⟨later, out, hrewrites, hrun, hnil, hsame⟩ := csumFileTree.exists_silent (by decide)
    csumFile_nodes (List.mem_singleton_self _) .empty 0x2000 0x3000
  rcases hnever later hrewrites out hrun 0x2000 csumFileTree_holds (by decide) (by decide) with
    ⟨e, he, _⟩ | hcounted
  · rw [hnil] at he
    cases he
  · rcases hsame hcounted with h | h | h <;> exact absurd h (by decide)

end Crafted
end Rotshield.Btrfs
