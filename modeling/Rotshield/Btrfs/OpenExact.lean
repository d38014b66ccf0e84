import Rotshield.Btrfs.CraftFs

/-! A healthy filesystem is opened as it is: its chunks, its roots and its dev extents. -/
namespace Rotshield.Btrfs

section Leaves
variable {leaf : Leaf}

theorem chunkLeaf_items (h : leaf.Holds chunkKind) (records : List ChunkRecord) :
    chunkLeaf leaf records = .ok (.ok (), records ++ leaf.items chunkKind) := by
  have hfound := h.mapM
  unfold chunkLeaf
  change (do
    let found ← (leaf.slots.filter fun slot => chunkKind.has slot.key).mapM fun slot => do
      chunkKind.parse slot.key (← leaf.dataOf slot)
    return (.ok (), records ++ found) : Exec (Except IoError Unit × List ChunkRecord)) = _
  rw [hfound]
  rfl

theorem rootLeaf_items (h : leaf.Holds rootKind) (roots : FoundRoots) :
    rootLeaf leaf roots =
      .ok (.ok (), (leaf.items rootKind).foldl (fun r item => r.add item.1 item.2) roots) := by
  have hfound := h.foldlM (fun (r : FoundRoots) item => r.add item.1 item.2) roots
  have hstep : (fun (roots : FoundRoots) slot => do
      return roots.add slot.key.objectid (← RootItem.parse (← leaf.dataOf slot)) :
        FoundRoots → LeafItemSlot → Exec FoundRoots) = fun roots slot => do
      let item ← rootKind.parse slot.key (← leaf.dataOf slot)
      return roots.add item.1 item.2 := by
    funext roots slot
    unfold rootKind
    dsimp only [bind, Except.bind]
    cases leaf.dataOf slot with
    | error e => rfl
    | ok data =>
        dsimp only
        cases RootItem.parse data <;> rfl
  unfold rootLeaf
  rw [hstep]
  change (do
    let roots ← (leaf.slots.filter fun slot => rootKind.has slot.key).foldlM _ roots
    return (.ok (), roots) : Exec (Except IoError Unit × FoundRoots)) = _
  rw [hfound]
  rfl

theorem devExtentSlots_items {devid : UInt64} (h : leaf.Holds (devExtentKind devid))
    (out : List DevExtent) :
    devExtentSlots devid leaf leaf.slots out =
      .ok (.ok (), out ++ leaf.items (devExtentKind devid)) := by
  revert out
  refine h.induct (motive := fun slots found => ∀ out,
    devExtentSlots devid leaf slots out = .ok (.ok (), out ++ found)) ?_ ?_ ?_
  · intro out
    rw [devExtentSlots, List.append_nil]
    rfl
  · intro slot slots found hhas ih out
    have hother : slot.key.ty ≠ KeyType.devExtent ∨ slot.key.objectid ≠ devid := by
      simpa [devExtentKind, ← not_and_or] using hhas
    rw [devExtentSlots, if_pos hother, ih]
  · intro slot slots bytes b found hhas hdata hb ih out
    have hthis : ¬(slot.key.ty ≠ KeyType.devExtent ∨ slot.key.objectid ≠ devid) := by
      simpa [devExtentKind] using hhas
    unfold devExtentKind at hb
    dsimp only [bind, Except.bind] at hb
    cases hoffset : leU64 bytes 16 with
    | error e => rw [hoffset] at hb; cases hb
    | ok chunkOffset =>
        cases hlength : leU64 bytes 24 with
        | error e => rw [hoffset, hlength] at hb; cases hb
        | ok length =>
            rw [hoffset, hlength] at hb
            cases hb
            have hlong := leU64_returns_iff.mp ⟨length, hlength⟩
            rw [devExtentSlots, if_neg hthis, hdata]
            dsimp only [bind, Except.bind]
            rw [if_neg (by omega), hoffset, hlength]
            dsimp only [Except.bind, pure, Except.pure]
            rw [ih, List.append_assoc, List.singleton_append]

end Leaves

/-! ### The roots -/

/-- A field that only the items of one tree set. -/
theorem foldl_add_field (field : FoundRoots → Option UInt64) (objectid : UInt64)
    (hfield : ∀ roots o b, field (FoundRoots.add roots o b) =
      if o = objectid then some b else field roots)
    (items : List (UInt64 × UInt64)) (roots : FoundRoots) :
    field (items.foldl (fun r item => r.add item.1 item.2) roots) =
      (lastRoot objectid items).or (field roots) := by
  induction items generalizing roots with
  | nil => rfl
  | cons item items ih =>
      rw [List.foldl_cons, ih, hfield]
      unfold lastRoot
      by_cases hthis : item.1 = objectid
      · rw [if_pos hthis, List.filter_cons_of_pos (by simp [hthis]), List.getLast?_cons]
        cases (items.filter fun item => item.1 == objectid).getLast? <;> rfl
      · rw [if_neg hthis, List.filter_cons_of_neg (by simp [hthis])]

/-- The roots a walk finds are those of the last item of each tree. -/
theorem foldl_add_roots (items : List (UInt64 × UInt64)) :
    items.foldl (fun r item => r.add item.1 item.2) ({} : FoundRoots) =
      { fsRoot := lastRoot ObjectId.fsTree items
        csumRoot := lastRoot ObjectId.csumTree items
        devTreeRoot := lastRoot ObjectId.devTree items
        extentTreeRoot := lastRoot ObjectId.extentTree items } := by
  have hfs := foldl_add_field FoundRoots.fsRoot ObjectId.fsTree
    (fun roots o b => by unfold FoundRoots.add; grind) items {}
  have hcsum := foldl_add_field FoundRoots.csumRoot ObjectId.csumTree
    (fun roots o b => by
      have hne : ObjectId.csumTree ≠ ObjectId.fsTree := by decide
      unfold FoundRoots.add
      grind) items {}
  have hdev := foldl_add_field FoundRoots.devTreeRoot ObjectId.devTree
    (fun roots o b => by
      have hfs : ObjectId.devTree ≠ ObjectId.fsTree := by decide
      have hcsum : ObjectId.devTree ≠ ObjectId.csumTree := by decide
      unfold FoundRoots.add
      grind) items {}
  have hextent := foldl_add_field FoundRoots.extentTreeRoot ObjectId.extentTree
    (fun roots o b => by
      have hfs : ObjectId.extentTree ≠ ObjectId.fsTree := by decide
      have hcsum : ObjectId.extentTree ≠ ObjectId.csumTree := by decide
      have hdev : ObjectId.extentTree ≠ ObjectId.devTree := by decide
      unfold FoundRoots.add
      grind) items {}
  rw [Option.or_none] at hfs hcsum hdev hextent
  rw [← hfs, ← hcsum, ← hdev, ← hextent]

/-! ### The superblock -/

theorem Image.pread_length {image : Image} {offset : UInt64} {n : Nat} {buf : Bytes}
    (h : image.pread offset n = .ok buf) : buf.length = n := by
  unfold Image.pread readBytes at h
  split at h
  · cases h
  · cases h
    rw [List.length_map, List.length_range]

/-- A whole copy is always judged: every field lies inside it. -/
theorem Superblock.parse_returns (crates : HashCrates) {buf : Bytes} (hlen : buf.length = 4096) :
    ∃ r, parse crates buf = .ok r := by
  have hslice : ∀ pos n, pos + n ≤ 4096 → ∃ part, slice buf pos n = .ok part :=
    fun pos n h => slice_returns_iff.mpr (hlen ▸ h)
  have hu64 : ∀ pos, pos + 8 ≤ 4096 → ∃ v, leU64 buf pos = .ok v :=
    fun pos h => leU64_returns_iff.mpr (hlen ▸ h)
  have hu32 : ∀ pos, pos + 4 ≤ 4096 → ∃ v, leU32 buf pos = .ok v :=
    fun pos h => leU32_returns_iff.mpr (hlen ▸ h)
  have hcsum : ∃ v, leU16 buf offCsumType = .ok v := leU16_returns_iff.mpr (hlen ▸ by decide)
  obtain ⟨magic, hmagic⟩ := hslice offMagic 8 (by decide)
  obtain ⟨csumType, hcsum⟩ := hcsum
  obtain ⟨fsid, hfsid⟩ := hslice 32 16 (by decide)
  obtain ⟨arraySize, harray⟩ := hu32 160 (by decide)
  obtain ⟨generation, hgeneration⟩ := hu64 72 (by decide)
  obtain ⟨root, hroot⟩ := hu64 80 (by decide)
  obtain ⟨chunkRoot, hchunkRoot⟩ := hu64 88 (by decide)
  obtain ⟨totalBytes, htotal⟩ := hu64 112 (by decide)
  obtain ⟨numDevices, hdevices⟩ := hu64 136 (by decide)
  obtain ⟨sectorSize, hsector⟩ := hu32 144 (by decide)
  obtain ⟨nodeSize, hnode⟩ := hu32 148 (by decide)
  obtain ⟨devid, hdevid⟩ := hu64 201 (by decide)
  unfold parse
  simp only [bind, Except.bind, hmagic]
  split
  · exact ⟨_, rfl⟩
  · simp only [hcsum]
    cases CsumType.ofU16? csumType with
    | none => exact ⟨_, rfl⟩
    | some ty =>
        dsimp only
        split
        · exact ⟨_, rfl⟩
        · simp only [hfsid, harray]
          split
          · exact ⟨_, rfl⟩
          · rename_i hfits
            obtain ⟨chunks, hchunks⟩ := hslice offSysChunks arraySize.toNat
              (by rw [hlen] at hfits; omega)
            simp only [hchunks, hgeneration, hroot, hchunkRoot, htotal, hdevices, hsector, hnode,
              hdevid]
            exact ⟨_, rfl⟩

theorem Superblock.readPrimary_returns (crates : HashCrates) (image : Image)
    (size : Except IoError UInt64) (offset : UInt64) :
    ∃ r, readPrimary crates (image.file size).pread offset = .ok r := by
  have hpread : (image.file size).pread (offset + superblockOffset) 4096 =
      .ok (image.pread (offset + superblockOffset) 4096) := rfl
  unfold readPrimary readOne
  cases hread : image.pread (offset + superblockOffset) 4096 with
  | error e => exact ⟨.error e, by rw [hpread, hread]; rfl⟩
  | ok buf =>
      obtain ⟨r, hr⟩ := parse_returns crates (Image.pread_length hread)
      refine ⟨r, ?_⟩
      rw [hpread, hread]
      change (liftExec (parse crates buf) : Exec _) = _
      rw [hr]
      rfl

namespace HealthyFs
variable {crates : HashCrates} {image : Image} {size : Except IoError UInt64} {baseOffset : UInt64}
  (fs : HealthyFs crates image size baseOffset)

/-- The scrub is prepared for this filesystem. -/
structure Opened (scrub : BtrfsScrub Exec) : Prop where
  reader : scrub.reader = image.reader fs.config
  superblock : scrub.superblock = fs.sb
  strategy : scrub.strategy = fs.strategy
  answers : ∀ addr, ∀ r ∈ fs.records, r.Contains addr → scrub.chunkMap.AnswersFor addr r
  noAnswer : ∀ addr, (∀ r ∈ fs.records, ¬r.Contains addr) → scrub.chunkMap.NoAnswer addr
  csumProvider : scrub.csumProvider =
    .new (image.file size).pread fs.sb.nodeSize.toNat baseOffset fs.strategy fs.sb.devid fs.sb.fsid
      scrub.chunkMap fs.csumRoot
  devExtents : scrub.devExtents = fs.devTree.items (devExtentKind fs.sb.devid)
  headerErrors : scrub.errors.headerErrors = 0
  readErrors : scrub.errors.readErrors = 0

theorem validateDataProfiles_ofRecords (records : List ChunkRecord) :
    (ChunkMap.ofRecords records).validateDataProfiles =
      if ∀ r ∈ records, r.chunk.ty &&& BgFlag.data ≠ 0 →
          r.chunk.ty &&& profileMask = 0 ∨ r.chunk.ty &&& profileMask = BgFlag.dup
      then .ok () else .error .invalidData := by
  have hperm := ChunkMap.ofRecords_perm records
  unfold ChunkMap.validateDataProfiles
  congr 1
  rw [List.all_eq_true]
  simp only [hperm.mem_iff, List.forall_mem_map, Bool.or_eq_true, beq_iff_eq, ne_eq,
    or_iff_not_imp_left (a := _ &&& BgFlag.data = 0)]
  rfl

theorem readChunkMap_exact (errors : MetadataErrors) :
    ∃ errors', readChunkMap (image.reader fs.config) fs.sb errors =
        .ok (if fs.Supported then .ok (.ofRecords fs.records) else .error .invalidData, errors') ∧
      errors'.headerErrors = errors.headerErrors ∧ errors'.readErrors = errors.readErrors := by
  have hleaf : ∀ leaf ∈ fs.chunkTree.leaves, ∀ found : List ChunkRecord,
      chunkLeaf leaf found = .ok (.ok (), found ++ leaf.items chunkKind) := fun leaf hleaf found =>
    chunkLeaf_items (fs.chunks.holds hleaf) found
  obtain ⟨errors', hwalk, hcounts⟩ :=
    fs.chunkTree.walk fs.config_strategy hleaf [] errors
  refine ⟨errors', ?_, hcounts⟩
  have hitems : fs.chunkTree.leaves.foldl (fun found leaf => found ++ leaf.items chunkKind) [] =
      fs.chunkTree.items chunkKind := by
    rw [ReadableTree.items_eq, List.foldl_append_eq_append, List.nil_append, List.flatMap_def]
  have hwalk' : walkLeaves (image.reader fs.config)
      (fs.system.foldl ChunkMap.insert ChunkMap.empty) fs.sb.chunkRoot (openCallbacks chunkLeaf)
        ([], errors) = .ok (.ok (), (fs.chunkTree.items chunkKind, errors')) := hitems ▸ hwalk
  have hmap : (fs.chunkTree.items chunkKind).foldl ChunkMap.insert
      (fs.system.foldl ChunkMap.insert ChunkMap.empty) = .ofRecords fs.records :=
    List.foldl_append.symm
  have hprofiles : (ChunkMap.ofRecords fs.records).validateDataProfiles =
      if fs.Supported then .ok () else .error .invalidData :=
    validateDataProfiles_ofRecords fs.records
  unfold readChunkMap
  rw [fs.systemRead]
  simp only [bind, Except.bind, liftExec, pure, Except.pure]
  rw [hwalk']
  dsimp only
  rw [hmap, hprofiles]
  by_cases hsupported : fs.Supported
  · rw [if_pos hsupported, if_pos hsupported]
  · rw [if_neg hsupported, if_neg hsupported]

theorem readRoots_exact (errors : MetadataErrors) :
    ∃ errors', readRoots (image.reader fs.config) (.ofRecords fs.records) fs.sb errors =
        .ok (.ok { fsRoot := fs.fsRoot, csumRoot := fs.csumRoot, devTreeRoot := some fs.devRoot,
                   extentTreeRoot :=
                     lastRoot ObjectId.extentTree (fs.rootTree.items rootKind) }, errors') ∧
      errors'.headerErrors = errors.headerErrors ∧ errors'.readErrors = errors.readErrors := by
  have hleaf : ∀ leaf ∈ fs.rootTree.leaves, ∀ found : FoundRoots, rootLeaf leaf found =
      .ok (.ok (), (leaf.items rootKind).foldl (fun r item => r.add item.1 item.2) found) :=
    fun leaf hleaf found => rootLeaf_items (fs.roots.holds hleaf) found
  obtain ⟨errors', hwalk, hcounts⟩ := fs.rootTree.walk fs.config_strategy hleaf {} errors
  refine ⟨errors', ?_, hcounts⟩
  rw [ReadableTree.foldl_items, foldl_add_roots, fs.hasFsRoot, fs.hasCsumRoot, fs.hasDevRoot] at hwalk
  have hwalk' : walkLeaves (image.reader fs.config) (.ofRecords fs.records) fs.sb.root
      (openCallbacks rootLeaf) ({}, errors) = _ := hwalk
  unfold readRoots
  simp only [bind, Except.bind, pure, Except.pure]
  rw [hwalk']
  rfl

theorem buildDevExtents_exact (errors : MetadataErrors) :
    ∃ errors', buildDevExtents (image.reader fs.config) (.ofRecords fs.records) fs.devRoot
        fs.sb.devid errors =
        .ok (.ok (fs.devTree.items (devExtentKind fs.sb.devid)), errors') ∧
      errors'.headerErrors = errors.headerErrors ∧ errors'.readErrors = errors.readErrors := by
  have hleaf : ∀ leaf ∈ fs.devTree.leaves, ∀ found : List DevExtent,
      devExtentSlots fs.sb.devid leaf leaf.slots found =
        .ok (.ok (), found ++ leaf.items (devExtentKind fs.sb.devid)) := fun leaf hleaf found =>
    devExtentSlots_items (fs.devExtents.holds hleaf) found
  obtain ⟨errors', hwalk, hcounts⟩ := fs.devTree.walk fs.config_strategy hleaf [] errors
  refine ⟨errors', ?_, hcounts⟩
  rw [List.foldl_append_eq_append, List.nil_append, ← List.flatMap_def,
    ← ReadableTree.items_eq] at hwalk
  have hwalk' : walkLeaves (image.reader fs.config) (.ofRecords fs.records) fs.devRoot
      (openCallbacks fun leaf => devExtentSlots fs.sb.devid leaf leaf.slots) ([], errors) = _ := hwalk
  unfold buildDevExtents
  simp only [bind, Except.bind, pure, Except.pure]
  rw [hwalk']
  rfl

theorem not_too_small {size : Except IoError UInt64} {need : UInt64}
    (hfits : ∀ devSize, size = .ok devSize → 0 < devSize → need ≤ devSize) :
    ¬(0 < size.toOption.getD 0 ∧ size.toOption.getD 0 < need) := by
  rintro ⟨hpos, hlt⟩
  cases size with
  | error e => exact UInt64.lt_irrefl _ hpos
  | ok devSize =>
      exact UInt64.lt_irrefl _ (UInt64.lt_of_lt_of_le hlt (hfits devSize rfl hpos))

/-- The filesystem is opened, up to the tallies of diverging copies. -/
theorem openFs_exact : ∃ errors : MetadataErrors, errors.headerErrors = 0 ∧ errors.readErrors = 0 ∧
    openFs crates (image.file size) baseOffset =
      .ok (if fs.Supported then
        .ok { reader := image.reader fs.config
              chunkMap := .ofRecords fs.records
              superblock := fs.sb
              roots := { fsRoot := fs.fsRoot, csumRoot := fs.csumRoot
                         devTreeRoot := some fs.devRoot
                         extentTreeRoot :=
                           lastRoot ObjectId.extentTree (fs.rootTree.items rootKind) }
              strategy := fs.strategy
              errors }
      else .error .invalidData) := by
  obtain ⟨primary, hprimary⟩ := Superblock.readPrimary_returns crates image size baseOffset
  obtain ⟨errors, hchunks, hheader, hread⟩ := fs.readChunkMap_exact
    { mirrorMismatches := if primary.isOk then 0 else 1 }
  obtain ⟨errors', hroots, hheader', hread'⟩ := fs.readRoots_exact errors
  refine ⟨errors', hheader'.trans hheader, hread'.trans hread, ?_⟩
  unfold openFs
  rw [fs.read, hprimary]
  simp only [bind, Except.bind, pure, Except.pure]
  rw [if_neg (not_not_intro fs.single)]
  have hsize : (image.file size).size = .ok size := rfl
  rw [hsize]
  dsimp only
  rw [if_neg (not_too_small fs.fits), fs.known]
  dsimp only
  have hchunks' : readChunkMap
      { config := .checked fs.sb.nodeSize.toNat baseOffset fs.strategy fs.sb.devid fs.sb.fsid
        pread := (image.file size).pread } fs.sb
      { mirrorMismatches := if primary.isOk = true then 0 else 1 } = _ := hchunks
  rw [hchunks']
  by_cases hsupported : fs.Supported
  · rw [if_pos hsupported, if_pos hsupported]
    dsimp only
    have hroots' : readRoots
        { config := .checked fs.sb.nodeSize.toNat baseOffset fs.strategy fs.sb.devid fs.sb.fsid
          pread := (image.file size).pread } (.ofRecords fs.records) fs.sb errors = _ := hroots
    rw [hroots']
    rfl
  · rw [if_neg hsupported, if_neg hsupported]

/-- The scrub of this filesystem. -/
def scrub (errors : MetadataErrors) : BtrfsScrub Exec where
  reader := image.reader fs.config
  chunkMap := .ofRecords fs.records
  csumProvider := .new (image.file size).pread fs.sb.nodeSize.toNat baseOffset fs.strategy
    fs.sb.devid fs.sb.fsid (.ofRecords fs.records) fs.csumRoot
  devExtents := fs.devTree.items (devExtentKind fs.sb.devid)
  strategy := fs.strategy
  superblock := fs.sb
  errors

theorem scrub_opened {errors : MetadataErrors} (hheader : errors.headerErrors = 0)
    (hread : errors.readErrors = 0) : fs.Opened (fs.scrub errors) where
  reader := rfl
  superblock := rfl
  strategy := rfl
  answers _ r hr hcontains := ChunkMap.answersFor_of_find (fs.regular r hr)
    (ChunkMap.find_ofRecords fs.regular fs.disjoint hr hcontains)
  noAnswer _ hnone := ChunkMap.noAnswer_of_find (ChunkMap.find_ofRecords_none fs.regular hnone)
  csumProvider := rfl
  devExtents := rfl
  headerErrors := hheader
  readErrors := hread

theorem openScrub_scrub : ∃ errors : MetadataErrors,
    errors.headerErrors = 0 ∧ errors.readErrors = 0 ∧
      BtrfsScrub.openScrub crates (image.file size) baseOffset =
        .ok (if fs.Supported then .ok (fs.scrub errors) else .error .invalidData) := by
  obtain ⟨errors, hheader, hread, hopen⟩ := fs.openFs_exact
  obtain ⟨errors', hextents, hheader', hread'⟩ := fs.buildDevExtents_exact errors
  have hreopen : (image.file size).reopen = .ok (.ok ()) := rfl
  refine ⟨errors', hheader'.trans hheader, hread'.trans hread, ?_⟩
  unfold BtrfsScrub.openScrub
  simp only [bind, Except.bind, pure, Except.pure]
  rw [hopen]
  by_cases hsupported : fs.Supported
  · rw [if_pos hsupported, if_pos hsupported]
    dsimp only
    rw [hreopen]
    dsimp only
    rw [hextents]
    rfl
  · rw [if_neg hsupported, if_neg hsupported]

end HealthyFs

/-- A healthy filesystem is opened exactly when every chunk with data is SINGLE or DUP, and then
with every chunk, the last root of each tree and every dev extent of the device; no node is counted
as lost. -/
theorem openScrub_exact {crates : HashCrates} {image : Image} {size : Except IoError UInt64}
    {baseOffset : UInt64} (fs : HealthyFs crates image size baseOffset) :
    (fs.Supported → ∃ scrub, BtrfsScrub.openScrub crates (image.file size) baseOffset =
      .ok (.ok scrub) ∧ fs.Opened scrub) ∧
    (¬fs.Supported → BtrfsScrub.openScrub crates (image.file size) baseOffset =
      .ok (.error .invalidData)) := by
  obtain ⟨errors, hheader, hread, hopen⟩ := fs.openScrub_scrub
  constructor
  · intro hsupported
    rw [if_pos hsupported] at hopen
    exact ⟨fs.scrub errors, hopen, fs.scrub_opened hheader hread⟩
  · intro hsupported
    rw [if_neg hsupported] at hopen
    exact hopen

theorem openScrub_exact_crafted : ∃ scrub,
    BtrfsScrub.openScrub Crafted.crates (Crafted.fsImage.file (.ok 0x1000000)) 0 = .ok (.ok scrub) ∧
      Crafted.healthyFs.Opened scrub :=
  (openScrub_exact Crafted.healthyFs).1 Crafted.healthyFs_supported

end Rotshield.Btrfs
