import Rotshield.Btrfs.Mirrors
import Rotshield.Btrfs.Open
import Rotshield.Btrfs.Walk

/-! When the parsers stay inside their buffers, and when a walk at open does. -/
namespace Rotshield.Btrfs

/-! ### Computations that return -/

section Returns
variable {α β : Type} {x : Exec α} {k : α → Exec β}

theorem bind_returns_iff : (∃ b, x >>= k = .ok b) ↔ ∃ a, x = .ok a ∧ ∃ b, k a = .ok b := by
  cases x with
  | error e =>
      constructor
      · rintro ⟨b, ⟨⟩⟩
      · rintro ⟨a, ⟨⟩, _⟩
  | ok a =>
      constructor
      · intro h
        exact ⟨a, rfl, h⟩
      · rintro ⟨a', ⟨⟩, h⟩
        exact h

theorem bind_pure_returns_iff {f : α → β} :
    (∃ b, (x >>= fun a => pure (f a)) = .ok b) ↔ ∃ a, x = .ok a := by
  rw [bind_returns_iff]
  constructor
  · rintro ⟨a, ha, -⟩
    exact ⟨a, ha⟩
  · rintro ⟨a, ha⟩
    exact ⟨a, ha, f a, rfl⟩

theorem mapM_returns_iff {f : α → Exec β} (l : List α) :
    (∃ bs, l.mapM f = .ok bs) ↔ ∀ a ∈ l, ∃ b, f a = .ok b := by
  induction l with
  | nil => exact iff_of_true ⟨[], rfl⟩ nofun
  | cons a l ih =>
      rw [List.mapM_cons, bind_returns_iff, List.forall_mem_cons]
      constructor
      · rintro ⟨b, hb, hrest⟩
        exact ⟨⟨b, hb⟩, ih.mp (bind_pure_returns_iff.mp hrest)⟩
      · rintro ⟨⟨b, hb⟩, hrest⟩
        exact ⟨b, hb, bind_pure_returns_iff.mpr (ih.mpr hrest)⟩

theorem foldlM_returns_iff {f : β → α → Exec β} {ok : α → Prop}
    (hf : ∀ b a, (∃ b', f b a = .ok b') ↔ ok a) (l : List α) (b : β) :
    (∃ b', l.foldlM f b = .ok b') ↔ ∀ a ∈ l, ok a := by
  induction l generalizing b with
  | nil => exact iff_of_true ⟨b, rfl⟩ nofun
  | cons a l ih =>
      rw [List.foldlM_cons, bind_returns_iff, List.forall_mem_cons, ← hf b a]
      constructor
      · rintro ⟨b', hb', hrest⟩
        exact ⟨⟨b', hb'⟩, (ih b').mp hrest⟩
      · rintro ⟨⟨b', hb'⟩, hrest⟩
        exact ⟨b', hb', (ih b').mpr hrest⟩

end Returns

/-! ### Parsers -/

section Parsers
variable {buf : Bytes} {pos n : Nat}

theorem slice_returns_iff : (∃ part, slice buf pos n = .ok part) ↔ pos + n ≤ buf.length := by
  constructor
  · rintro ⟨part, h⟩
    exact slice_bound h
  · intro h
    exact ⟨_, if_pos h⟩

theorem byteAt_returns_iff : (∃ v, byteAt buf pos = .ok v) ↔ pos + 1 ≤ buf.length :=
  bind_pure_returns_iff.trans slice_returns_iff

theorem leU16_returns_iff : (∃ v, leU16 buf pos = .ok v) ↔ pos + 2 ≤ buf.length :=
  bind_pure_returns_iff.trans slice_returns_iff

theorem leU32_returns_iff : (∃ v, leU32 buf pos = .ok v) ↔ pos + 4 ≤ buf.length :=
  bind_pure_returns_iff.trans slice_returns_iff

theorem leU64_returns_iff : (∃ v, leU64 buf pos = .ok v) ↔ pos + 8 ≤ buf.length :=
  bind_pure_returns_iff.trans slice_returns_iff

/-- A field before the last one decides nothing. -/
theorem field_returns_iff {α β : Type} {x : Exec α} {k : α → Exec β} {here all : Prop}
    (hx : (∃ a, x = .ok a) ↔ here) (hk : ∀ a, (∃ b, k a = .ok b) ↔ all) (hle : all → here) :
    (∃ b, x >>= k = .ok b) ↔ all := by
  rw [bind_returns_iff]
  constructor
  · rintro ⟨a, -, hrest⟩
    exact (hk a).mp hrest
  · intro h
    obtain ⟨a, ha⟩ := hx.mpr (hle h)
    exact ⟨a, ha, (hk a).mpr h⟩

theorem Key.parse_returns_iff : (∃ k, Key.parse buf pos = .ok k) ↔ pos + 17 ≤ buf.length := by
  apply field_returns_iff leU64_returns_iff _ (by omega)
  intro objectid
  apply field_returns_iff byteAt_returns_iff _ (by omega)
  intro ty
  exact bind_pure_returns_iff.trans leU64_returns_iff

theorem KeyPtr.parse_returns_iff :
    (∃ p, KeyPtr.parse buf pos = .ok p) ↔ pos + keyptrSize ≤ buf.length := by
  rw [keyptrSize]
  apply field_returns_iff Key.parse_returns_iff _ (by omega)
  intro key
  apply field_returns_iff leU64_returns_iff _ (by omega)
  intro blockptr
  exact bind_pure_returns_iff.trans leU64_returns_iff

theorem LeafItemSlot.parse_returns_iff :
    (∃ s, LeafItemSlot.parse buf pos = .ok s) ↔ pos + leafItemSize ≤ buf.length := by
  rw [leafItemSize]
  apply field_returns_iff Key.parse_returns_iff _ (by omega)
  intro key
  apply field_returns_iff leU32_returns_iff _ (by omega)
  intro dataOffset
  exact bind_pure_returns_iff.trans leU32_returns_iff

theorem Header.parse_returns_iff :
    (∃ h, Header.parse buf = .ok h) ↔ headerSize ≤ buf.length := by
  rw [headerSize]
  apply field_returns_iff slice_returns_iff _ (by omega)
  intro fsid
  apply field_returns_iff leU64_returns_iff _ (by omega)
  intro bytenr
  apply field_returns_iff leU64_returns_iff _ (by omega)
  intro flags
  apply field_returns_iff slice_returns_iff _ (by omega)
  intro chunkTreeUuid
  apply field_returns_iff leU64_returns_iff _ (by omega)
  intro generation
  apply field_returns_iff leU64_returns_iff _ (by omega)
  intro owner
  apply field_returns_iff leU32_returns_iff _ (by omega)
  intro nritems
  exact bind_pure_returns_iff.trans byteAt_returns_iff

theorem table_returns_iff {α : Type} {parse : Bytes → Nat → Exec α} {size count : Nat}
    (hparse : ∀ pos, (∃ a, parse buf pos = .ok a) ↔ pos + size ≤ buf.length) :
    (∃ as, (List.range count).mapM (fun i => parse buf (n + i * size)) = .ok as) ↔
      count = 0 ∨ n + count * size ≤ buf.length := by
  rw [mapM_returns_iff]
  simp only [hparse, List.mem_range]
  constructor
  · intro h
    cases count with
    | zero => exact .inl rfl
    | succ last =>
        have hlast := h last (Nat.lt_succ_self last)
        rw [Nat.succ_mul]
        exact .inr (by omega)
  · rintro (rfl | h) i hi
    · omega
    · have hmul := Nat.mul_le_mul_right size (Nat.succ_le_of_lt hi)
      rw [Nat.succ_mul] at hmul
      omega

/-- The bytes of one entry of a node's table. -/
def Header.entrySize (hdr : Header) : Nat := if hdr.level = 0 then leafItemSize else keyptrSize

/-- A node can be parsed exactly when its table ends inside it. -/
theorem Node.parse_returns_iff {hdr : Header} (hhdr : Header.parse buf = .ok hdr) :
    (∃ node, Node.parse buf = .ok node) ↔
      headerSize + hdr.nritems.toNat * hdr.entrySize ≤ buf.length := by
  have hlen := Header.parse_returns_iff.mp ⟨hdr, hhdr⟩
  have hzero : ∀ size, (hdr.nritems.toNat = 0 ∨ headerSize + hdr.nritems.toNat * size ≤ buf.length) ↔
      headerSize + hdr.nritems.toNat * size ≤ buf.length := by
    intro size
    refine ⟨?_, .inr⟩
    rintro (h | h)
    · rw [h, Nat.zero_mul]
      exact hlen
    · exact h
  unfold Node.parse Header.entrySize
  rw [hhdr]
  simp only [bind, Except.bind]
  by_cases hlevel : hdr.level = 0
  · rw [if_pos hlevel, if_pos hlevel]
    exact (bind_pure_returns_iff.trans (table_returns_iff fun _ =>
      LeafItemSlot.parse_returns_iff)).trans (hzero leafItemSize)
  · rw [if_neg hlevel, if_neg hlevel]
    exact (bind_pure_returns_iff.trans (table_returns_iff fun _ =>
      KeyPtr.parse_returns_iff)).trans (hzero keyptrSize)

/-- A chunk item has its header and, of each of its stripes, the device and the offset. -/
def ChunkItem.Fits (data : Bytes) : Prop :=
  48 ≤ data.length ∧ ∀ count, leU16 data 44 = .ok count →
    ∀ i < count.toNat, 48 + i * 32 + 16 ≤ data.length

theorem ChunkItem.parse_returns_iff : (∃ c, ChunkItem.parse buf = .ok c) ↔ ChunkItem.Fits buf := by
  apply field_returns_iff leU64_returns_iff _ (fun h => by have := h.1; omega)
  intro length
  apply field_returns_iff leU64_returns_iff _ (fun h => by have := h.1; omega)
  intro owner
  apply field_returns_iff leU64_returns_iff _ (fun h => by have := h.1; omega)
  intro stripeLen
  apply field_returns_iff leU64_returns_iff _ (fun h => by have := h.1; omega)
  intro ty
  rw [bind_returns_iff]
  have hstripe : ∀ i, (∃ s, (do
      let devid ← leU64 buf (48 + i * 32)
      let offset ← leU64 buf (48 + i * 32 + 8)
      return { devid, offset : Stripe }) = .ok s) ↔ 48 + i * 32 + 16 ≤ buf.length := by
    intro i
    apply field_returns_iff leU64_returns_iff _ (by omega)
    intro devid
    exact bind_pure_returns_iff.trans leU64_returns_iff
  constructor
  · rintro ⟨count, hcount, hrest⟩
    obtain ⟨sub, hsub, hrest⟩ := bind_returns_iff.mp hrest
    have hend := leU16_returns_iff.mp ⟨sub, hsub⟩
    refine ⟨hend, ?_⟩
    intro count' hcount' i hi
    rw [hcount] at hcount'
    cases hcount'
    have hstripes := (mapM_returns_iff _).mp (bind_pure_returns_iff.mp hrest)
    exact (hstripe i).mp (hstripes i (List.mem_range.mpr hi))
  · rintro ⟨hlen, hstripes⟩
    have h16 : 44 + 2 ≤ buf.length := by omega
    obtain ⟨count, hcount⟩ := leU16_returns_iff.mpr h16
    obtain ⟨sub, hsub⟩ := leU16_returns_iff.mpr hlen
    refine ⟨count, hcount, bind_returns_iff.mpr ⟨sub, hsub, bind_pure_returns_iff.mpr ?_⟩⟩
    apply (mapM_returns_iff _).mpr
    intro i hi
    exact (hstripe i).mpr (hstripes count hcount i (List.mem_range.mp hi))

/-- The end of the level, the last field of a root item that is read. -/
def rootItemEnd : Nat := 239

theorem RootItem.parse_returns_iff : (∃ r, RootItem.parse buf = .ok r) ↔ rootItemEnd ≤ buf.length := by
  rw [rootItemEnd]
  apply field_returns_iff leU64_returns_iff _ (by omega)
  intro bytenr
  exact bind_pure_returns_iff.trans byteAt_returns_iff

end Parsers

/-! ### The leaf callbacks -/

/-- The data of an item ends inside the node. -/
def Leaf.Inside (leaf : Leaf) (slot : LeafItemSlot) : Prop :=
  headerSize + slot.dataOffset.toNat + slot.dataSize.toNat ≤ leaf.buf.length

/-- The bytes an item's slot points to. -/
def Leaf.pointed (leaf : Leaf) (slot : LeafItemSlot) : Bytes :=
  (leaf.buf.drop (headerSize + slot.dataOffset.toNat)).take slot.dataSize.toNat

/-- Every item of this type is inside the node, and its data is what its parser needs. -/
def Leaf.ItemsFit (leaf : Leaf) (ty : UInt8) (fits : Bytes → Prop) : Prop :=
  ∀ slot ∈ leaf.slots, slot.key.ty = ty → leaf.Inside slot ∧ fits (leaf.pointed slot)

def LeafItemSlot.IsDevExtent (devid : UInt64) (slot : LeafItemSlot) : Prop :=
  slot.key.ty = KeyType.devExtent ∧ slot.key.objectid = devid

/-- Every dev extent up to the first that is too short is inside the node. -/
def Leaf.DevExtentsFit (leaf : Leaf) (devid : UInt64) (slots : List LeafItemSlot) : Prop :=
  ∀ before slot after, slots = before ++ slot :: after → slot.IsDevExtent devid →
    (∀ earlier ∈ before, earlier.IsDevExtent devid → 32 ≤ earlier.dataSize.toNat) →
      leaf.Inside slot

section Leaves
variable {leaf : Leaf} {slot : LeafItemSlot}

theorem dataOf_eq (h : leaf.Inside slot) : leaf.dataOf slot = .ok (leaf.pointed slot) := if_pos h

theorem dataOf_returns_iff : (∃ data, leaf.dataOf slot = .ok data) ↔ leaf.Inside slot :=
  slice_returns_iff

theorem pointed_length (h : leaf.Inside slot) : (leaf.pointed slot).length = slot.dataSize.toNat := by
  unfold Leaf.Inside at h
  unfold Leaf.pointed
  rw [List.length_take, List.length_drop]
  omega

/-- An item that is parsed. -/
theorem item_returns_iff {β : Type} {parse : Bytes → Exec β} {fits : Bytes → Prop}
    (hparse : ∀ data, (∃ b, parse data = .ok b) ↔ fits data) :
    (∃ b, (leaf.dataOf slot >>= parse) = .ok b) ↔
      leaf.Inside slot ∧ fits (leaf.pointed slot) := by
  rw [bind_returns_iff]
  constructor
  · rintro ⟨data, hdata, hrest⟩
    have hinside := dataOf_returns_iff.mp ⟨data, hdata⟩
    rw [dataOf_eq hinside] at hdata
    cases hdata
    exact ⟨hinside, (hparse _).mp hrest⟩
  · rintro ⟨hinside, hfits⟩
    exact ⟨_, dataOf_eq hinside, (hparse _).mpr hfits⟩

theorem forall_mem_filter {ty : UInt8} {fits : Bytes → Prop} :
    (∀ slot ∈ leaf.slots.filter (·.key.ty == ty), leaf.Inside slot ∧ fits (leaf.pointed slot)) ↔
      leaf.ItemsFit ty fits := by
  simp only [List.mem_filter, beq_iff_eq, and_imp, Leaf.ItemsFit]

theorem chunkLeaf_returns_iff (records : List ChunkRecord) :
    (∃ v, chunkLeaf leaf records = .ok v) ↔ leaf.ItemsFit KeyType.chunkItem ChunkItem.Fits := by
  rw [← forall_mem_filter]
  refine bind_pure_returns_iff.trans ((mapM_returns_iff _).trans ?_)
  apply forall₂_congr
  intro slot _
  exact item_returns_iff fun data => bind_pure_returns_iff.trans ChunkItem.parse_returns_iff

theorem rootLeaf_returns_iff (roots : FoundRoots) :
    (∃ v, rootLeaf leaf roots = .ok v) ↔
      leaf.ItemsFit KeyType.rootItem fun data => rootItemEnd ≤ data.length := by
  rw [← forall_mem_filter]
  refine bind_pure_returns_iff.trans (foldlM_returns_iff ?_ _ _)
  intro roots slot
  exact item_returns_iff fun data => bind_pure_returns_iff.trans RootItem.parse_returns_iff

theorem leafEntries_returns_iff (strategy : CsumStrategy) (lo hi : UInt64) :
    (∃ v, leafEntries strategy lo hi leaf = .ok v) ↔
      leaf.ItemsFit KeyType.extentCsum fun _ => True := by
  rw [← forall_mem_filter]
  refine bind_pure_returns_iff.trans ((mapM_returns_iff _).trans ?_)
  apply forall₂_congr
  intro slot _
  exact item_returns_iff fun data => iff_of_true ⟨_, rfl⟩ trivial

theorem devExtentsFit_cons {devid : UInt64} {slots : List LeafItemSlot} :
    leaf.DevExtentsFit devid (slot :: slots) ↔ (slot.IsDevExtent devid → leaf.Inside slot) ∧
      ((slot.IsDevExtent devid → 32 ≤ slot.dataSize.toNat) → leaf.DevExtentsFit devid slots) := by
  constructor
  · intro h
    refine ⟨fun hslot => h [] slot slots rfl hslot nofun, ?_⟩
    rintro hlong before slot' after rfl hslot' hbefore
    refine h (slot :: before) slot' after rfl hslot' ?_
    rw [List.forall_mem_cons]
    exact ⟨hlong, hbefore⟩
  · rintro ⟨hhere, hrest⟩ before slot' after hslots hslot' hbefore
    cases before with
    | nil =>
        obtain ⟨rfl, rfl⟩ := List.cons.inj hslots
        exact hhere hslot'
    | cons first before =>
        obtain ⟨rfl, rfl⟩ := List.cons.inj hslots
        rw [List.forall_mem_cons] at hbefore
        exact hrest hbefore.1 before slot' after rfl hslot' hbefore.2

theorem devExtentSlots_returns_iff (devid : UInt64) (slots : List LeafItemSlot)
    (out : List DevExtent) :
    (∃ v, devExtentSlots devid leaf slots out = .ok v) ↔ leaf.DevExtentsFit devid slots := by
  induction slots generalizing out with
  | nil =>
      refine iff_of_true ⟨_, rfl⟩ ?_
      intro before slot after hslots
      exact absurd hslots (by simp)
  | cons slot slots ih =>
      rw [devExtentsFit_cons, devExtentSlots]
      by_cases hslot : slot.IsDevExtent devid
      · have hnot : ¬(slot.key.ty ≠ KeyType.devExtent ∨ slot.key.objectid ≠ devid) := by
          rintro (h | h)
          · exact h hslot.1
          · exact h hslot.2
        rw [if_neg hnot]
        by_cases hinside : leaf.Inside slot
        · have hlen := pointed_length hinside
          rw [dataOf_eq hinside]
          by_cases hshort : slot.dataSize.toNat < 32
          · refine iff_of_true ⟨(.error .invalidData, out), ?_⟩
              ⟨fun _ => hinside, fun h => absurd (h hslot) (by omega)⟩
            simp [bind, Except.bind, hlen, hshort]
            rfl
          · have hoffset : 16 + 8 ≤ (leaf.pointed slot).length := by omega
            have hend : 24 + 8 ≤ (leaf.pointed slot).length := by omega
            obtain ⟨chunkOffset, hchunkOffset⟩ := leU64_returns_iff.mpr hoffset
            obtain ⟨length, hlength⟩ := leU64_returns_iff.mpr hend
            simp only [bind, Except.bind, hlen, hshort, if_false, hchunkOffset, hlength]
            rw [ih]
            constructor
            · exact fun h => ⟨fun _ => hinside, fun _ => h⟩
            · exact fun h => h.2 fun _ => by omega
        · apply iff_of_false
          · intro h
            obtain ⟨data, hdata, -⟩ := bind_returns_iff.mp h
            exact hinside (dataOf_returns_iff.mp ⟨data, hdata⟩)
          · exact fun h => hinside (h.1 hslot)
      · have hskip : slot.key.ty ≠ KeyType.devExtent ∨ slot.key.objectid ≠ devid := by
          by_contra h
          push Not at h
          exact hslot h
        rw [if_pos hskip, ih]
        constructor
        · exact fun h => ⟨fun hdev => absurd hdev hslot, fun _ => h⟩
        · exact fun h => h.2 fun hdev => absurd hdev hslot

end Leaves

/-! ### The walks -/

/-- The walks whose callbacks parse items. -/
inductive WalkUse where
  | chunks
  | roots
  | devExtents (devid : UInt64)
  | csums (strategy : CsumStrategy) (logicalLo logicalHi : UInt64)

namespace WalkUse

def State : WalkUse → Type
  | chunks => List ChunkRecord × MetadataErrors
  | roots => FoundRoots × MetadataErrors
  | devExtents _ => List DevExtent × MetadataErrors
  | csums .. => List CsumEntry × CsumTallies

def callbacks : (use : WalkUse) → Callbacks use.State
  | chunks => openCallbacks chunkLeaf
  | roots => openCallbacks rootLeaf
  | devExtents devid => openCallbacks fun leaf => devExtentSlots devid leaf leaf.slots
  | csums strategy logicalLo logicalHi => rangeCallbacks strategy logicalLo logicalHi

/-- The items the callback looks at are inside their node and as long as their parser needs. -/
def ItemsFit (leaf : Leaf) : WalkUse → Prop
  | chunks => leaf.ItemsFit KeyType.chunkItem ChunkItem.Fits
  | roots => leaf.ItemsFit KeyType.rootItem fun data => rootItemEnd ≤ data.length
  | devExtents devid => leaf.DevExtentsFit devid leaf.slots
  | csums .. => leaf.ItemsFit KeyType.extentCsum fun _ => True

/-- The table of a node ends inside it, and so do the items a walk looks at. -/
structure NodeFits (use : WalkUse) (hdr : Header) (buf : Bytes) : Prop where
  table : headerSize + hdr.nritems.toNat * hdr.entrySize ≤ buf.length
  items : ∀ leaf, Node.parse buf = .ok (.leaf leaf) → use.ItemsFit leaf

theorem onLeaf_returns_iff (use : WalkUse) (leaf : Leaf) (s : use.State) :
    (∃ v, use.callbacks.onLeaf leaf s = .ok v) ↔ use.ItemsFit leaf := by
  cases use with
  | chunks => exact bind_pure_returns_iff.trans (chunkLeaf_returns_iff s.1)
  | roots => exact bind_pure_returns_iff.trans (rootLeaf_returns_iff s.1)
  | devExtents devid =>
      exact bind_pure_returns_iff.trans (devExtentSlots_returns_iff devid leaf.slots s.1)
  | csums strategy logicalLo logicalHi =>
      exact bind_pure_returns_iff.trans (leafEntries_returns_iff strategy logicalLo logicalHi)

end WalkUse

/-- The header check for a reference. -/
def NodeRef.check (config : ReaderConfig) (ref : NodeRef) (hdr : Header) : Bool :=
  config.validateHeader hdr ref.logical (ref.expGen.getD genDontCheck) ref.expLevel ref.expOwner

section Visit
variable {S : Type} {image : Image} {config : ReaderConfig} {strategy : CsumStrategy}
  {chunkMap : ChunkMap} {bounds : Option (Key × Key)} {cb : Callbacks S} {ref : NodeRef} {s : S}
  {buf : Bytes} {hdr : Header} {node : Node}

theorem refRead_eq (hstrategy : config.strategy = some strategy) :
    refRead (image.reader config) chunkMap ref =
      judgeCopies strategy (ref.check config) (copiesOf image config chunkMap ref.logical) :=
  readNode_judged hstrategy

/-- What is read is the first valid copy. -/
theorem judgeCopies_first {copies : List (Except IoError Bytes)} {valid : Header → Bool}
    (hvalid : firstIn strategy valid .valid copies = some buf)
    (hheaders : ∀ buf, .ok buf ∈ copies → strategy.verifyNodeHeader buf = true →
      ∃ hdr, Header.parse buf = .ok hdr) :
    ∃ mismatch, judgeCopies strategy valid copies = (Node.parse buf).map fun node => .ok
      { node := some node, allMirrorsFailed := false, generationMismatch := false,
        mirrorMismatch := mismatch } := by
  have hverify : strategy.verifyNodeHeader buf = true := by
    have hverified : (copyState strategy valid (.ok buf)).verified = strategy.verifyNodeHeader buf :=
      verified_ok buf
    rw [← hverified, (firstIn_some hvalid).2]
    rfl
  unfold judgeCopies
  rw [scanAll_eq Copies.none hheaders, foldl_add, hvalid]
  exact ⟨_, selectCopy_best ⟨some buf, _, _, _⟩ rfl hverify copies.length⟩

/-- A round at a valid node returns exactly when the node fits. -/
theorem visitRef_returns_iff (hstrategy : config.strategy = some strategy) (use : WalkUse)
    (hvalid : firstIn strategy (ref.check config) .valid
      (copiesOf image config chunkMap ref.logical) = some buf)
    (hhdr : Header.parse buf = .ok hdr) (s : use.State) :
    (∃ v, visitRef (image.reader config) chunkMap bounds use.callbacks ref s = .ok v) ↔
      use.NodeFits hdr buf := by
  have hlen : headerSize ≤ config.nodeSize :=
    copy_length (firstIn_some hvalid).1 ▸ Header.parse_returns_iff.mp ⟨hdr, hhdr⟩
  obtain ⟨mismatch, hjudge⟩ := judgeCopies_first hvalid fun other hother _ =>
    Header.parse_returns_iff.mpr (copy_length hother ▸ hlen)
  rw [visitRef_eq, refRead_eq hstrategy, hjudge]
  cases hnode : Node.parse buf with
  | error e =>
      apply iff_of_false
      · rintro ⟨v, ⟨⟩⟩
      · intro hfits
        obtain ⟨node, hparse⟩ := (Node.parse_returns_iff hhdr).mpr hfits.table
        rw [hnode] at hparse
        cases hparse
  | ok node =>
      have htable := (Node.parse_returns_iff hhdr).mp ⟨node, hnode⟩
      cases node with
      | internal node =>
          refine iff_of_true ⟨_, rfl⟩ ⟨htable, ?_⟩
          intro leaf hleaf
          rw [hnode] at hleaf
          cases hleaf
      | leaf leaf =>
          have hitems : use.NodeFits hdr buf ↔ use.ItemsFit leaf := by
            constructor
            · exact fun h => h.items leaf hnode
            · intro h
              refine ⟨htable, fun leaf' hleaf => ?_⟩
              rw [hnode] at hleaf
              cases hleaf
              exact h
          rw [hitems, ← use.onLeaf_returns_iff leaf
            (if mismatch then use.callbacks.onMirrorMismatch ref.logical s else s)]
          refine (bind_pure_returns_iff (f := fun v : Except IoError Unit × use.State =>
            (v.1.map fun _ => [], v.2))).trans ?_
          dsimp only
          cases use.callbacks.onLeaf leaf
            (if mismatch then use.callbacks.onMirrorMismatch ref.logical s else s) <;> exact Iff.rfl

/-- The headers of the copies, the node that is chosen, and the items of a valid one, are inside. -/
structure WalkUse.RoundFits (use : WalkUse) (strategy : CsumStrategy) (valid : Header → Bool)
    (copies : List (Except IoError Bytes)) : Prop where
  parse : CopiesParse strategy valid copies
  node : ∀ buf hdr, firstIn strategy valid .valid copies = some buf →
    Header.parse buf = .ok hdr → use.NodeFits hdr buf

theorem visitRef_round_iff (hstrategy : config.strategy = some strategy) (use : WalkUse)
    (s : use.State) :
    (∃ v, visitRef (image.reader config) chunkMap bounds use.callbacks ref s = .ok v) ↔
      use.RoundFits strategy (ref.check config) (copiesOf image config chunkMap ref.logical) := by
  have hparse : (∃ v, visitRef (image.reader config) chunkMap bounds use.callbacks ref s = .ok v) →
      CopiesParse strategy (ref.check config) (copiesOf image config chunkMap ref.logical) := by
    rintro ⟨v, hv⟩
    rw [visitRef_eq, refRead_eq hstrategy] at hv
    obtain ⟨got, hgot, -⟩ := bind_returns_iff.mp ⟨v, hv⟩
    exact judgeCopies_parses hgot
  constructor
  · intro h
    exact ⟨hparse h, fun buf hdr hvalid hhdr =>
      (visitRef_returns_iff hstrategy use hvalid hhdr s).mp h⟩
  · rintro ⟨hcopies, hnode⟩
    cases hvalid : firstIn strategy (ref.check config) .valid
        (copiesOf image config chunkMap ref.logical) with
    | some buf =>
        obtain ⟨hin, hstate⟩ := firstIn_some hvalid
        have hverify : strategy.verifyNodeHeader buf = true := by
          have hverified : (copyState strategy (ref.check config) (.ok buf)).verified =
            strategy.verifyNodeHeader buf := verified_ok buf
          rw [← hverified, hstate]
          rfl
        obtain ⟨hdr, hhdr⟩ := hcopies.headers buf hin hverify
        exact (visitRef_returns_iff hstrategy use hvalid hhdr s).mpr (hnode buf hdr hvalid hhdr)
    | none =>
        obtain ⟨got, hgot, -⟩ := judgeCopies_reported hcopies
        rw [visitRef_eq, refRead_eq hstrategy, hgot]
        have hnone := firstIn_none hvalid nofun
        have hfrom := judgeCopies_readFrom hgot
        cases got with
        | error e => exact ⟨_, rfl⟩
        | ok res =>
            obtain ⟨node, allMirrorsFailed, generationMismatch, mirrorMismatch⟩ := res
            cases allMirrorsFailed with
            | true => exact ⟨_, rfl⟩
            | false =>
                cases generationMismatch with
                | true => exact ⟨_, rfl⟩
                | false =>
                    obtain ⟨⟨good, -, hin, ⟨hverify, hdr, hhdr, hgood⟩, -, -⟩, -⟩ := hfrom
                    refine absurd ?_ (hnone _ hin)
                    simp only [Bool.not_false] at hgood
                    simp [copyState, hverify, hhdr, hgood]

/-- A walk returns exactly when each round it comes to fits. -/
theorem walkLeavesImpl_returns_iff (hstrategy : config.strategy = some strategy) (use : WalkUse)
    (bounds : Option (Key × Key)) (root : UInt64) (s : use.State) :
    (∃ v, walkLeavesImpl (image.reader config) chunkMap root bounds use.callbacks s = .ok v) ↔
      ∀ n ref queue s', Lib.Rounds (visitRef (image.reader config) chunkMap bounds use.callbacks) n
          [.root root] s (ref :: queue) s' →
        use.RoundFits strategy (ref.check config) (copiesOf image config chunkMap ref.logical) := by
  have hroot : ([NodeRef.root root].map (NodeRef.weight config.nodeSize)).sum =
      walkFuel config.nodeSize := by
    simp only [List.map_singleton, List.sum_singleton, weight_root]
  have hfuel : ([NodeRef.root root].map (NodeRef.weight config.nodeSize)).sum ≤
      walkFuel (image.reader config).config.nodeSize := Nat.le_of_eq hroot
  refine (Lib.explore_returns_iff (fun _ _ _ _ => visitRef_weight hstrategy)
    (NodeRef.weight_pos config.nodeSize) hfuel).trans ?_
  simp only [visitRef_round_iff hstrategy]

/-- Reading a valid node never leaves its buffer exactly when the node fits; and a walk returns
exactly when each round it comes to fits. -/
theorem walk_inside_iff (hstrategy : config.strategy = some strategy) (use : WalkUse)
    (bounds : Option (Key × Key)) :
    (∀ ref s buf hdr, firstIn strategy (ref.check config) .valid
        (copiesOf image config chunkMap ref.logical) = some buf → Header.parse buf = .ok hdr →
      ((∃ v, visitRef (image.reader config) chunkMap bounds use.callbacks ref s = .ok v) ↔
        use.NodeFits hdr buf)) ∧
    ∀ root s, (∃ v, walkLeavesImpl (image.reader config) chunkMap root bounds use.callbacks s =
        .ok v) ↔
      ∀ n ref queue s', Lib.Rounds (visitRef (image.reader config) chunkMap bounds use.callbacks) n
          [.root root] s (ref :: queue) s' →
        use.RoundFits strategy (ref.check config) (copiesOf image config chunkMap ref.logical) :=
  ⟨fun _ s _ _ hvalid hhdr => visitRef_returns_iff hstrategy use hvalid hhdr s,
    fun root s => walkLeavesImpl_returns_iff hstrategy use bounds root s⟩

end Visit

/-! ### A node that was already wrong when it was written -/

namespace Crafted

/-- More slots than the node has room for. -/
def crowded : Header := header 0x400000 2 7 1000 0

def crowdedBytes : Bytes := leafBytes crowded [] []

def crowdedImage : Image := .ofRegions [(0x400000, crowdedBytes)]

theorem crowded_length : crowdedBytes.length = 4096 :=
  leafBytes_length (header_sized _ _ _ _ _) (by decide)

theorem crowded_header : Header.parse crowdedBytes = .ok crowded :=
  parse_header_nodeBytes (checksumField_length _ _) (header_sized _ _ _ _ _) _

theorem crowded_verifies : strategy.verifyNodeHeader crowdedBytes = true :=
  verifyNodeHeader_sealNode (header_sized _ _ _ _ _)

theorem crowded_outside : ¬∃ node, Node.parse crowdedBytes = .ok node := by
  rw [Node.parse_returns_iff crowded_header, crowded_length]
  decide

theorem crowded_read : crowdedImage.pread 0x400000 4096 = .ok crowdedBytes := by
  have hapart : Apart [(0x400000, crowdedBytes)] := List.pairwise_singleton _ _
  rw [← crowded_length]
  exact pread_region hapart List.mem_cons_self

theorem crowded_copies :
    copiesOf crowdedImage config chunkMap 0x400000 = [.ok crowdedBytes] := by
  rw [← crowded_read]
  rfl

theorem crowded_first : firstIn strategy ((NodeRef.root 0x400000).check config) .valid
    [.ok crowdedBytes] = some crowdedBytes := by
  have hcheck : (NodeRef.root 0x400000).check config crowded = true := by decide
  have hstate : copyState strategy ((NodeRef.root 0x400000).check config) (.ok crowdedBytes) =
      .valid := by
    simp [copyState, crowded_verifies, crowded_header, hcheck]
  simp [firstIn, bytesIn, hstate, Except.toOption]

/-- Its header verifies and is the one that was asked for, and walking over it panics. -/
theorem crowded_not_walked : strategy.verifyNodeHeader crowdedBytes = true ∧
    Header.parse crowdedBytes = .ok crowded ∧
    (NodeRef.root 0x400000).check config crowded = true ∧
    copiesOf crowdedImage config chunkMap 0x400000 = [.ok crowdedBytes] ∧
    ∀ v, walkLeaves (crowdedImage.reader config) chunkMap 0x400000 WalkUse.chunks.callbacks
      ([], {}) ≠ .ok v := by
  refine ⟨crowded_verifies, crowded_header, by decide, crowded_copies, ?_⟩
  intro v hv
  have hrounds := (walkLeavesImpl_returns_iff rfl .chunks none 0x400000 ([], {})).mp ⟨v, hv⟩
  have hfits := hrounds 0 (.root 0x400000) [] _ (.refl _ _)
  have hlogical : (NodeRef.root 0x400000).logical = 0x400000 := rfl
  rw [hlogical, crowded_copies] at hfits
  have hnode := hfits.node crowdedBytes crowded crowded_first crowded_header
  exact crowded_outside ((Node.parse_returns_iff crowded_header).mpr hnode.table)

theorem walk_inside_iff_crowded :
    (∃ v, walkLeavesImpl (crowdedImage.reader config) chunkMap 0x400000 none
        WalkUse.chunks.callbacks ([], {}) = .ok v) ↔
      ∀ n ref queue s', Lib.Rounds (visitRef (crowdedImage.reader config) chunkMap none
          WalkUse.chunks.callbacks) n [.root 0x400000] ([], {}) (ref :: queue) s' →
        WalkUse.chunks.RoundFits strategy (ref.check config)
          (copiesOf crowdedImage config chunkMap ref.logical) :=
  (walk_inside_iff rfl .chunks none).2 0x400000 ([], {})

end Crafted
end Rotshield.Btrfs
