import Rotshield.Btrfs.Fallback
import Rotshield.Btrfs.OpenExact
import Rotshield.Btrfs.Transport

/-! A scrub of a healthy filesystem checks every checksummed sector of its data extents, once, and
reports exactly those whose bytes do not have the stored checksum. -/
namespace Rotshield.Btrfs
open MonadAttach (CanReturn)

/-! ### The device -/

theorem reader_via (image : Image) (σ : Type) (config : ReaderConfig) :
    (image.reader config).via (.stateful σ) = (image.device σ).reader config := by
  unfold FsReader.via Image.reader Device.reader
  congr 1

/-- The walk of a range in a state, over content that stays as it is. -/
theorem canReturn_range_via {σ : Type} {p : LazyCsumProvider Exec} {lo hi : UInt64}
    {found entries : List CsumEntry} {p₁ : LazyCsumProvider Exec}
    {p' : LazyCsumProvider (ExceptT Halt (StateM σ))} (hrange : p.range lo hi = .ok (found, p₁))
    (h : CanReturn ((p.via (.stateful σ)).range lo hi) (entries, p')) :
    entries = found ∧ p' = p₁.via (.stateful σ) := by
  rw [range_via, hrange] at h
  obtain ⟨s, s', hrun⟩ := h
  cases hrun
  exact ⟨rfl, rfl⟩

/-! ### What a walk counts -/

section Counts
variable {image : Image} {config : ReaderConfig} {chunkMap : ChunkMap} {strategy : CsumStrategy}
  {root : UInt64} (t : RangeTree (image.reader config) chunkMap strategy root) {S γ : Type}
  {cb : Callbacks S} {count : S → γ}

/-- A walk over a readable tree counts nothing that neither leaves nor diverging copies count. -/
theorem RangeTree.walk_counts (hstrategy : config.strategy = some strategy)
    (bounds : Option (Key × Key))
    (hleaf : ∀ leaf ∈ t.leaves, ∀ s, ∃ s', cb.onLeaf leaf s = .ok (.ok (), s') ∧ count s' = count s)
    (hmirror : ∀ addr s, count (cb.onMirrorMismatch addr s) = count s) (s : S) :
    ∃ s', walkLeavesImpl (image.reader config) chunkMap root bounds cb s = .ok (.ok (), s') ∧
      count s' = count s := by
  have hcollects : Lib.Collects (refPage (image.reader config) chunkMap) Leaf.keys (pruned bounds)
      (visitRef (image.reader config) chunkMap bounds cb) (fun s => [count s]) (· ∈ t.leaves)
      fun _ => [] := by
    have hsame : ∀ {ref : NodeRef} {s s₁ : S},
        s₁ = s ∨ s₁ = cb.onMirrorMismatch ref.logical s → count s₁ = count s := by
      rintro ref s s₁ (rfl | rfl)
      · rfl
      · exact hmirror _ _
    constructor
    · intro ref leaf s hpage hin
      obtain ⟨s₁, hs₁, hvisit⟩ := visitRef_leaf bounds cb s (goodNode_leaf hpage)
      obtain ⟨s', hcall, hcount⟩ := hleaf leaf hin s₁
      refine ⟨s', by rw [hvisit, hcall]; rfl, ?_⟩
      rw [List.append_nil, hcount, hsame hs₁]
    · intro ref children s hpage
      obtain ⟨node, hgood, rfl⟩ := goodNode_inner hpage
      obtain ⟨s₁, hs₁, hvisit⟩ := visitRef_internal bounds cb s hgood
      exact ⟨s₁, by rw [hvisit, childRefs_eq], congrArg (fun c => [c]) (hsame hs₁)⟩
    · intro _ _ _ _ _ _
      rfl
  obtain ⟨n, s', hrounds, hcollected⟩ :=
    hcollects.through t.heads t.sorted (fun _ h => h) [] s
  have hfuel : n ≤ walkFuel (image.reader config).config.nodeSize := by
    have hle : n ≤ ([NodeRef.root root].map (NodeRef.weight config.nodeSize)).sum :=
      hrounds.length_le fun _ _ _ _ => visitRef_weight hstrategy
    simp only [List.map_singleton, List.sum_singleton, weight_root] at hle
    exact hle
  rw [List.append_nil] at hrounds
  refine ⟨s', ?_, ?_⟩
  · unfold walkLeavesImpl
    exact hrounds.explore_eq hfuel
  · simpa [List.flatMap] using hcollected

end Counts

/-- No failure was counted in between; copies may have diverged. -/
structure CsumTallies.Calm (t t' : CsumTallies) : Prop where
  metadataErrors : t'.metadataErrors = t.metadataErrors
  metadataReadErrors : t'.metadataReadErrors = t.metadataReadErrors
  staleBranches : t'.staleBranches = t.staleBranches

/-- The walk of a range of a readable tree counts no failure. -/
theorem range_calm {image : Image} {config : ReaderConfig} {chunkMap : ChunkMap}
    {strategy : CsumStrategy} {root : UInt64}
    (t : RangeTree (image.reader config) chunkMap strategy root)
    (hstrategy : config.strategy = some strategy) {tallies : CsumTallies} {lo hi : UInt64}
    {entries : List CsumEntry} {p' : LazyCsumProvider Exec}
    (h : (laterProvider image config chunkMap root strategy tallies).range lo hi =
      .ok (entries, p')) : tallies.Calm p'.tallies := by
  have hleaf : ∀ leaf ∈ t.leaves, ∀ s, ∃ s', (rangeCallbacks strategy lo hi).onLeaf leaf s =
      .ok (.ok (), s') ∧ (s'.2.metadataErrors, s'.2.metadataReadErrors, s'.2.staleBranches) =
        (s.2.metadataErrors, s.2.metadataReadErrors, s.2.staleBranches) := by
    intro leaf hleaf s
    refine ⟨(s.1 ++ (leaf.pairs strategy).filter (CsumEntry.within lo hi), s.2), ?_, rfl⟩
    unfold rangeCallbacks
    dsimp only
    rw [t.leafEntries_eq hleaf]
    rfl
  obtain ⟨⟨found, tallies'⟩, hwalk, hcount⟩ := t.walk_counts hstrategy
    (some (csumKey (saturatingSub lo (maxItemSpan config.nodeSize strategy)), csumKey hi)) hleaf
    (fun _ _ => rfl) ([], tallies)
  unfold LazyCsumProvider.range walkLeavesRange laterProvider at h
  dsimp only [bind, Except.bind] at h
  have hsame : walkLeavesImpl (image.reader config) chunkMap root
      (some (csumKey (saturatingSub lo (maxItemSpan (image.reader config).config.nodeSize strategy)),
        csumKey hi)) (rangeCallbacks strategy lo hi) ([], tallies) = _ := hwalk
  rw [hsame] at h
  cases h
  obtain ⟨hmetadata, hrest⟩ := Prod.mk.inj hcount
  obtain ⟨hread, hstale⟩ := Prod.mk.inj hrest
  exact ⟨hmetadata, hread, hstale⟩

/-! ### The streams of the extents -/

namespace ChecksummedFs
variable {crates : HashCrates} {image : Image} {size : Except IoError UInt64} {baseOffset : UInt64}
  (fs : ChecksummedFs crates image size baseOffset)

/-- The walker over the csum tree, with what it has counted so far. -/
def provider (σ : Type) (tallies : CsumTallies) : LazyCsumProvider (ExceptT Halt (StateM σ)) :=
  (laterProvider image fs.config (.ofRecords fs.records) fs.csumRoot fs.strategy tallies).via
    (.stateful σ)

/-- A scrub of this filesystem on a device with a state. -/
structure Scrubs {σ : Type} (ctx : ScrubContext (ExceptT Halt (StateM σ))) : Prop where
  reader : ctx.reader = (image.device σ).reader fs.config
  chunkMap : ctx.chunkMap = .ofRecords fs.records
  strategy : ctx.strategy = fs.strategy

theorem Scrubs.config {σ : Type} {ctx : ScrubContext (ExceptT Halt (StateM σ))} (h : fs.Scrubs ctx) :
    ctx.reader.config = fs.config := by
  rw [h.reader]
  rfl

theorem Scrubs.baseOffset_eq {σ : Type} {ctx : ScrubContext (ExceptT Halt (StateM σ))}
    (h : fs.Scrubs ctx) : ctx.reader.config.baseOffset = baseOffset := by
  rw [h.config]
  rfl

theorem Scrubs.sz_eq {σ : Type} {ctx : ScrubContext (ExceptT Halt (StateM σ))} (h : fs.Scrubs ctx) :
    ctx.sz = fs.strategy.sectorSize.toNat := by
  rw [ScrubContext.sz, h.strategy]

theorem info_hasData (d : DevExtent) :
    ((ChunkMap.ofRecords fs.records).info d.chunkOffset).any
      (fun chunk => chunk.flags &&& BgFlag.data != 0) = fs.hasData d := by
  have hregular : ∀ r ∈ fs.records, r.Regular := fs.regular
  have hdisjoint : Disjoint fs.records := fs.disjoint
  unfold hasData
  by_cases hsome : ∃ r ∈ fs.records, r.Contains d.chunkOffset
  · obtain ⟨r, hr, hcontains⟩ := hsome
    have hanswers := ChunkMap.answersFor_of_find (hregular r hr)
      (ChunkMap.find_ofRecords hregular hdisjoint hr hcontains)
    rw [hanswers.info, Option.any_some, Bool.eq_iff_iff, List.any_eq_true]
    constructor
    · intro hdata
      exact ⟨r, hr, by simpa [hcontains] using hdata⟩
    · rintro ⟨r', hr', hdata⟩
      rw [Bool.and_eq_true, decide_eq_true_eq] at hdata
      rcases hdisjoint r hr r' hr' with rfl | hapart
      · exact hdata.2
      · exact absurd ⟨hcontains, hdata.1⟩ (hapart d.chunkOffset)
  · have hnone : ∀ r ∈ fs.records, ¬r.Contains d.chunkOffset := fun r hr hc => hsome ⟨r, hr, hc⟩
    rw [(ChunkMap.noAnswer_of_find (ChunkMap.find_ofRecords_none hregular hnone)).info,
      Option.any_none, eq_comm, List.any_eq_false]
    intro r hr
    simp [hnone r hr]

section Walks
variable {σ : Type} {ctx : ScrubContext (ExceptT Halt (StateM σ))}

theorem scrubs_eq (h : fs.Scrubs ctx) (d : DevExtent) : ctx.scrubs d = fs.hasData d := by
  unfold ScrubContext.scrubs
  rw [h.chunkMap]
  exact fs.info_hasData d

theorem nodeSize_lt : fs.config.nodeSize < 2 ^ 32 := UInt32.toNat_lt _

theorem sectorSize_lt : fs.strategy.sectorSize.toNat < 2 ^ 32 := by
  have hknown := fs.known
  unfold CsumStrategy.fromSuperblock at hknown
  split at hknown
  · cases hknown
  · split at hknown
    · have hstrategy := Except.ok.inj hknown
      rw [← hstrategy]
      exact UInt32.toNat_lt _
    · cases hknown

/-- The walk of an extent gives its checksummed sectors. -/
theorem extentRange_exact {d : DevExtent} {tallies : CsumTallies} {entries : List CsumEntry}
    {p' : LazyCsumProvider (ExceptT Halt (StateM σ))}
    (h : CanReturn (lazyCsum.extentRange d (fs.provider σ tallies)) (entries, p')) :
    (d, entries) = fs.stream d ∧ ∃ tallies', p' = fs.provider σ tallies' ∧ tallies.Calm tallies' := by
  obtain ⟨tallies', hrange⟩ := range_of_tree image fs.config (.ofRecords fs.records) fs.strategy
    fs.csumRoot fs.config_strategy fs.nodeSize_lt fs.sectorSize_lt fs.csums tallies d.chunkOffset
    (d.chunkOffset + d.length)
  obtain ⟨rfl, hp'⟩ := canReturn_range_via hrange h
  exact ⟨rfl, tallies', hp', range_calm fs.csums fs.config_strategy hrange⟩

theorem walks_streams (h : fs.Scrubs ctx) {tallies : CsumTallies} {devExtents : List DevExtent}
    {work : List Streamed} {p p' : LazyCsumProvider (ExceptT Halt (StateM σ))}
    (hwalks : Walks ctx lazyCsum p devExtents work p') (hp : p = fs.provider σ tallies) :
    work = (devExtents.filter fs.hasData).map fs.stream ∧
      ∃ tallies', p' = fs.provider σ tallies' ∧ tallies.Calm tallies' := by
  induction hwalks generalizing tallies with
  | nil => exact ⟨rfl, tallies, hp, rfl, rfl, rfl⟩
  | skip hskip _ ih =>
      rw [fs.scrubs_eq h] at hskip
      rw [List.filter_cons_of_neg (by rw [hskip]; exact Bool.false_ne_true)]
      exact ih hp
  | walk hscrubs hwalk _ ih =>
      rw [fs.scrubs_eq h] at hscrubs
      subst hp
      obtain ⟨hstream, tallies', hp', hcalm⟩ := fs.extentRange_exact hwalk
      obtain ⟨hwork, last, hlast, hcalm'⟩ := ih hp'
      refine ⟨by rw [List.filter_cons_of_pos hscrubs, List.map_cons, ← hwork, hstream], last, hlast, ?_⟩
      exact ⟨hcalm'.metadataErrors.trans hcalm.metadataErrors,
        hcalm'.metadataReadErrors.trans hcalm.metadataReadErrors,
        hcalm'.staleBranches.trans hcalm.staleBranches⟩

end Walks

/-! ### The sectors -/

theorem pair_csum_length {e : CsumEntry} (he : e ∈ fs.csums.pairs) :
    e.csum.length = fs.strategy.hashLen := by
  rw [fs.csums.pairs_eq, List.mem_flatMap] at he
  obtain ⟨item, -, he⟩ := he
  obtain ⟨s, hs, -, hcsum⟩ := mem_itemPairs he
  have hend : (s + 1) * fs.strategy.hashLen ≤ item.2.length :=
    (Nat.mul_le_mul_right _ hs).trans (Nat.div_mul_le_self _ _)
  rw [Nat.succ_mul] at hend
  rw [hcsum, List.length_take, List.length_drop]
  omega

/-- A sector of an extent is as far into it on the device as in the chunk. -/
theorem physOf_within {d : DevExtent} {e : CsumEntry}
    (hfits : d.physStart.toNat + d.length.toNat < 2 ^ 64)
    (h : e.within d.chunkOffset (d.chunkOffset + d.length) = true) :
    d.chunkOffset.toNat ≤ e.logical.toNat ∧
      e.logical.toNat - d.chunkOffset.toNat < d.length.toNat ∧
      (d.physOf e.logical).toNat = d.physStart.toNat + (e.logical.toNat - d.chunkOffset.toNat) := by
  unfold CsumEntry.within at h
  rw [Bool.and_eq_true, decide_eq_true_eq, decide_eq_true_eq] at h
  obtain ⟨hlo, hhi⟩ := h
  have hle := UInt64.le_iff_toNat_le.mp hlo
  rw [UInt64.lt_iff_toNat_lt, UInt64.toNat_add] at hhi
  have hlength := UInt64.toNat_lt d.length
  have hbelow : e.logical.toNat - d.chunkOffset.toNat < d.length.toNat := by omega
  refine ⟨hle, hbelow, ?_⟩
  unfold DevExtent.physOf
  rw [UInt64.toNat_add, UInt64.toNat_sub_of_le _ _ hlo, Nat.mod_eq_of_lt (by omega)]

theorem streams_fit {σ : Type} {ctx : ScrubContext (ExceptT Halt (StateM σ))} (h : fs.Scrubs ctx) :
    ∀ w ∈ fs.streams, ∀ e ∈ w.2,
      e.csum.length = ctx.strategy.hashLen ∧ ctx.Fits w.1 e.logical := by
  intro w hw e he
  obtain ⟨d, hd, rfl⟩ := List.mem_map.mp hw
  obtain ⟨hpair, hwithin⟩ := List.mem_filter.mp he
  have hfile := fs.fitsFile d (List.mem_of_mem_filter hd)
  obtain ⟨-, hbelow, hphys⟩ := physOf_within (d := d) (by omega) hwithin
  refine ⟨by rw [h.strategy]; exact fs.pair_csum_length hpair, ?_⟩
  have hext : (fs.stream d).1 = d := rfl
  unfold ScrubContext.Fits ScrubContext.sz
  rw [h.baseOffset_eq, h.strategy, hext, hphys]
  omega

section Runs
variable {σ : Type} {ctx : ScrubContext (ExceptT Halt (StateM σ))} {cmd : ReadCmd}
  (hcmd : cmd ∈ runCmds (runsOf ctx.strategy.sectorSize) fs.streams)
include hcmd

/-- A run is one of the stream of its own extent. -/
theorem run_stream : cmd.dext ∈ (fs.devTree.items (devExtentKind fs.sb.devid)).filter fs.hasData ∧
    cmd.entries ∈ runsOf ctx.strategy.sectorSize (fs.stream cmd.dext).2 := by
  obtain ⟨w, hw, hdext, hmem⟩ := mem_runCmds.mp hcmd
  obtain ⟨d, hd, rfl⟩ := List.mem_map.mp hw
  have hsame : cmd.dext = d := hdext
  rw [hsame]
  exact ⟨hd, hmem⟩

/-- Its sectors follow each other, each where the extent puts it. -/
theorem run_shape (h : fs.Scrubs ctx) : cmd.entries ≠ [] ∧
    Contiguous ctx.strategy.sectorSize cmd.entries ∧
      ∀ e ∈ cmd.entries, ctx.Fits cmd.dext e.logical := by
  obtain ⟨hd, hmem⟩ := fs.run_stream hcmd
  obtain ⟨hne, hrun, -⟩ := runsOf_run ctx.strategy.sectorSize _ _ hmem
  exact ⟨hne, hrun, fun e he =>
    (fs.streams_fit h _ (List.mem_map_of_mem hd) e (mem_of_mem_runsOf hmem he)).2⟩

end Runs
end ChecksummedFs

open ChecksummedFs in
/-- Whatever reads of the device fail, a scrub of a healthy filesystem counts every checksummed
sector of its data extents once, by what the reads of its run gave of its own bytes. -/
theorem scrub_countedOnce {crates : HashCrates} {image : Image} {size : Except IoError UInt64}
    {baseOffset : UInt64} (fs : ChecksummedFs crates image size baseOffset) {σ : Type}
    {ctx : ScrubContext (ExceptT Halt (StateM σ))} (hctx : fs.Scrubs ctx) {depth : Nat}
    {tallies : CsumTallies} {counters : Counters} {threaded : Bool} {out : ScrubOut}
    (hcut : threaded = true ∨
      ∀ w ∈ fs.streams, (runsOf fs.strategy.sectorSize w.2).length ≤ 1)
    (h : ScrubReturns ctx lazyCsum depth (fs.provider σ tallies)
      (fs.devTree.items (devExtentKind fs.sb.devid)) counters threaded out) :
    ∃ runs, CountedOnce (image.device σ) ctx threaded fs.streams runs out ∧
      runs.map (·.cmd) = runCmds (runsOf ctx.strategy.sectorSize) fs.streams := by
  have hreader : ctx.reader = (image.device σ).reader ctx.reader.config := by
    rw [hctx.reader]
    rfl
  obtain ⟨work, rsps, out₁, p', hscrubbed, rfl⟩ := h.scrubbed
  obtain rfl : work = fs.streams := (fs.walks_streams hctx hscrubbed.walks rfl).1
  rw [← hctx.strategy] at hcut
  obtain ⟨runs, hcounted, hcmds⟩ := scrubbed_runs hreader (fs.streams_fit hctx) hcut hscrubbed
  exact ⟨runs, ⟨hcounted.issued, hcounted.sectors, hcounted.checked, hcounted.ok, hcounted.plain,
    hcounted.events⟩, hcmds⟩

/-! ### Where every read succeeds -/

/-- The first read of a run succeeds, and is the only one. -/
theorem isolateRun_first {σ : Type} {read : UInt64 → Nat → StateM σ (Except IoError Bytes)}
    {sectorSize base : UInt64} {n : Nat} {buf : Bytes} {s s' : σ} (limit : Nat)
    (hsize : 0 < sectorSize.toNat) (hn : 0 < n)
    (hread : read base (n * sectorSize.toNat) s = (.ok buf, s')) (log : List ReadCall) :
    isolateRun (loggedRead read) base 0 (n * sectorSize.toNat) sectorSize (.new limit) (s, log) =
      (.ok ((Isolation.new limit).pushGood 0 buf),
        (s', log ++ [⟨base, n * sectorSize.toNat, .ok buf⟩])) := by
  have hpos : n * sectorSize.toNat ≠ 0 := Nat.ne_of_gt (Nat.mul_pos hn hsize)
  have hopen : (Isolation.new limit).budget.exhausted = false := rfl
  have hcall : loggedRead read base (n * sectorSize.toNat) (s, log) =
      (.ok (.ok buf), (s', log ++ [⟨base, n * sectorSize.toNat, .ok buf⟩])) := by
    unfold loggedRead
    rw [hread]
  have hstep {g : Except IoError Bytes → ExceptT Halt (StateM (σ × List ReadCall)) Isolation} :
      (loggedRead read base (n * sectorSize.toNat) >>= g) (s, log) =
        g (.ok buf) (s', log ++ [⟨base, n * sectorSize.toNat, .ok buf⟩]) := by
    change ExceptT.bindCont g (loggedRead read base (n * sectorSize.toNat) (s, log)).1
      (loggedRead read base (n * sectorSize.toNat) (s, log)).2 = _
    rw [hcall]
    rfl
  unfold isolateRun isolateLoop
  dsimp only
  rw [if_neg hpos, hopen, if_neg Bool.false_ne_true]
  split
  · rw [hstep]
    rfl
  · rw [hstep]
    dsimp only
    rw [if_pos ⟨Nat.zero_mod _, Nat.mul_mod_left _ _⟩]
    rfl

namespace ChecksummedFs
variable {crates : HashCrates} {image : Image} {size : Except IoError UInt64} {baseOffset : UInt64}
  (fs : ChecksummedFs crates image size baseOffset)

section Verifies
variable {σ : Type} {ctx : ScrubContext (ExceptT Halt (StateM σ))} {threaded : Bool}

theorem devid_of_item {d : DevExtent} (h : d ∈ fs.devTree.items (devExtentKind fs.sb.devid)) :
    d.devid = fs.sb.devid := by
  obtain ⟨e, -, -, hparse⟩ := ReadableTree.mem_items h
  exact devExtentKind_devid hparse

/-- A run lies inside its extent, but for the end of its last sector. -/
theorem run_inside (h : fs.Scrubs ctx) {cmd : ReadCmd}
    (hcmd : cmd ∈ runCmds (runsOf ctx.strategy.sectorSize) fs.streams) :
    cmd.dext.physStart.toNat ≤ cmd.phys.toNat ∧
      cmd.phys.toNat + cmd.len ctx <
        cmd.dext.physStart.toNat + cmd.dext.length.toNat + ctx.sz ∧
      (ctx.reader.config.baseOffset + cmd.phys).toNat = baseOffset.toNat + cmd.phys.toNat := by
  obtain ⟨hd, hmem⟩ := fs.run_stream hcmd
  obtain ⟨hne, hrun, hfits⟩ := fs.run_shape hcmd h
  have hfile := fs.fitsFile cmd.dext (List.mem_of_mem_filter hd)
  have hat : ∀ i (hi : i < cmd.entries.length),
      cmd.dext.physStart.toNat ≤ cmd.phys.toNat + i * ctx.sz ∧
        cmd.phys.toNat + i * ctx.sz < cmd.dext.physStart.toNat + cmd.dext.length.toNat := by
    intro i hi
    have hwithin := (List.mem_filter.mp (mem_of_mem_runsOf hmem (List.getElem_mem hi))).2
    obtain ⟨-, hbelow, hphys⟩ := physOf_within (d := cmd.dext) (by omega) hwithin
    have hsector := (ReadCmd.phys_sector hrun hfits hi).2
    rw [hphys] at hsector
    omega
  have hpos := List.length_pos_of_ne_nil hne
  have hend : cmd.len ctx = (cmd.entries.length - 1) * ctx.sz + ctx.sz := by
    rw [ReadCmd.len, ← Nat.succ_mul, Nat.succ_eq_add_one, Nat.sub_add_cancel hpos]
  have hfirst := hat 0 hpos
  have hlast := hat (cmd.entries.length - 1) (by omega)
  refine ⟨by omega, by omega, ?_⟩
  rw [h.baseOffset_eq, UInt64.toNat_add, Nat.mod_eq_of_lt (by omega)]

/-- Where a run is read, no read fails. -/
theorem run_fault (h : fs.Scrubs ctx) (hreadable : fs.Readable) {cmd : ReadCmd}
    (hcmd : cmd ∈ runCmds (runsOf ctx.strategy.sectorSize) fs.streams) :
    image.fault (ctx.reader.config.baseOffset + cmd.phys) (cmd.len ctx) = none := by
  obtain ⟨hd, -⟩ := fs.run_stream hcmd
  obtain ⟨hstart, hend, haddr⟩ := fs.run_inside h hcmd
  have hsz := h.sz_eq
  exact hreadable cmd.dext hd _ _ (by omega) (by omega)

/-- A sector of a run verifies exactly when its bytes have the stored checksum. -/
theorem verifies_iff (h : fs.Scrubs ctx) (hreadable : fs.Readable) {r : RunLog}
    (hcmd : r.cmd ∈ runCmds (runsOf ctx.strategy.sectorSize) fs.streams)
    (hissued : r.Issued (image.device σ) ctx threaded) :
    ∀ e ∈ r.cmd.entries, r.Verifies (image.device σ) ctx e ↔ fs.Sound (r.cmd.dext, e) := by
  obtain ⟨hd, -⟩ := fs.run_stream hcmd
  obtain ⟨hne, hrun, hfits⟩ := fs.run_shape hcmd h
  have hfault := fs.run_fault h hreadable hcmd
  obtain ⟨s, s', iso, hlog⟩ := hissued
  have hread : (image.device σ).runRead ctx.reader.config threaded r.cmd.dext.devid
      (ctx.reader.config.baseOffset + r.cmd.phys) (r.cmd.entries.length * ctx.sz) s =
        (.ok ((image.device σ).bytesAt (ctx.reader.config.baseOffset + r.cmd.phys)
          (r.cmd.entries.length * ctx.sz)), s) := by
    have hdevid : ctx.reader.config.devid.all (· == r.cmd.dext.devid) = true := by
      rw [h.config]
      exact beq_iff_eq.mpr (fs.devid_of_item (List.mem_of_mem_filter hd)).symm
    unfold Device.runRead
    rw [hdevid, Bool.or_true, if_pos rfl]
    unfold Device.read Image.device
    change (readBytes image.byte (image.fault _ (r.cmd.len ctx)) _ _, s) = _
    rw [hfault]
    rfl
  have hoffset : ctx.runOffset threaded r.cmd = ctx.reader.config.baseOffset + r.cmd.phys :=
    runOffset_eq hrun hfits hne
  have hone := isolateRun_first ctx.isolationLimit ctx.sz_pos (List.length_pos_of_ne_nil hne)
    hread []
  rw [hoffset] at hlog
  obtain ⟨-, hrest⟩ := Prod.mk.inj (hlog.symm.trans hone)
  obtain ⟨-, hcalls⟩ := Prod.mk.inj hrest
  intro e he
  have hwas : WasRead r.log (ctx.fileOffset r.cmd.dext e.logical) ctx.sz := by
    obtain ⟨i, hi, rfl⟩ := List.getElem_of_mem he
    have hsector : i * ctx.sz + ctx.sz ≤ r.cmd.entries.length * ctx.sz := by
      rw [← Nat.succ_mul]
      exact Nat.mul_le_mul_right _ hi
    rw [hcalls, ReadCmd.offset_sector hrun hfits hi]
    exact ⟨_, List.mem_singleton_self _, rfl, i * ctx.sz, rfl, hsector⟩
  have hbytes : ctx.strategy.compute
      ((image.device σ).bytesAt (ctx.fileOffset r.cmd.dext e.logical) ctx.sz) = e.csum ↔
        fs.Sound (r.cmd.dext, e) := by
    unfold ScrubContext.fileOffset
    rw [h.config, h.strategy, h.sz_eq]
    rfl
  exact ⟨fun hv => hbytes.mp hv.2, fun hs => ⟨hwas, hbytes.mpr hs⟩⟩

end Verifies

/-! ### It can return -/

section Returns
variable {ctx : ScrubContext (ExceptT Halt (StateM Unit))}

/-- What the device has of a sector. -/
def sectorBytes (s : DevExtent × CsumEntry) : Bytes :=
  (image.device Unit).bytesAt (baseOffset + s.1.physOf s.2.logical) fs.strategy.sectorSize.toNat

theorem extentRange_returns (d : DevExtent) (tallies : CsumTallies) : ∃ tallies',
    CanReturn (lazyCsum.extentRange d (fs.provider Unit tallies))
      ((fs.stream d).2, fs.provider Unit tallies') := by
  obtain ⟨tallies', hrange⟩ := range_of_tree image fs.config (.ofRecords fs.records) fs.strategy
    fs.csumRoot fs.config_strategy fs.nodeSize_lt fs.sectorSize_lt fs.csums tallies d.chunkOffset
    (d.chunkOffset + d.length)
  refine ⟨tallies', canReturn_fixed.mpr ?_⟩
  change ((laterProvider image fs.config (.ofRecords fs.records) fs.csumRoot fs.strategy
    tallies).via (.stateful Unit)).range _ _ = _
  rw [range_via, hrange]
  rfl

theorem walks_return (h : fs.Scrubs ctx) (devExtents : List DevExtent) (tallies : CsumTallies) :
    ∃ tallies', Walks ctx lazyCsum (fs.provider Unit tallies) devExtents
      ((devExtents.filter fs.hasData).map fs.stream) (fs.provider Unit tallies') := by
  induction devExtents generalizing tallies with
  | nil => exact ⟨tallies, .nil⟩
  | cons d devExtents ih =>
      by_cases hdata : fs.hasData d = true
      · obtain ⟨tallies₁, hrange⟩ := fs.extentRange_returns d tallies
        obtain ⟨tallies', hwalks⟩ := ih tallies₁
        rw [List.filter_cons_of_pos hdata]
        exact ⟨tallies', .walk ((fs.scrubs_eq h d).trans hdata) hrange hwalks⟩
      · obtain ⟨tallies', hwalks⟩ := ih tallies
        rw [List.filter_cons_of_neg hdata]
        exact ⟨tallies', .skip ((fs.scrubs_eq h d).trans (Bool.not_eq_true _ ▸ hdata)) hwalks⟩

/-- A run, read whole. -/
def wholeRsp (image : Image) (ctx : ScrubContext (ExceptT Halt (StateM Unit))) (cmd : ReadCmd) :
    ReadCmd × Isolation :=
  (cmd, ⟨⟨ctx.isolationLimit, false⟩, [(0, (image.device Unit).bytesAt
    (ctx.reader.config.baseOffset + cmd.phys) (cmd.len ctx))], []⟩)

theorem wholeRsp_read (h : fs.Scrubs ctx) (hreadable : fs.Readable) {cmd : ReadCmd}
    (hcmd : cmd ∈ runCmds (runsOf ctx.strategy.sectorSize) fs.streams) :
    isolateRunRead ctx cmd = pure (wholeRsp image ctx cmd).2 := by
  obtain ⟨hne, hrun, hfits⟩ := fs.run_shape hcmd h
  have hoffset : ctx.runOffset true cmd = ctx.reader.config.baseOffset + cmd.phys :=
    runOffset_eq hrun hfits hne
  have hfault := fs.run_fault h hreadable hcmd
  have hpread (offset : UInt64) (n : Nat) : ctx.reader.pread offset n =
      pure (readBytes image.byte (image.fault offset n) offset n) := by
    rw [h.reader]
    rfl
  apply isolateRunRead_whole hne
  change ctx.reader.pread (ctx.runOffset true cmd) _ = _
  rw [hoffset, hpread, hfault]
  rfl

/-- One sector, by what the device has of it. -/
def check (ctx : ScrubContext (ExceptT Halt (StateM Unit))) (out : ScrubOut)
    (s : DevExtent × CsumEntry) : ExceptT Halt (StateM Unit) ScrubOut :=
  processSector ctx s.1 out (s.2, fs.strategy.compute (fs.sectorBytes s))

theorem check_sound {s : DevExtent × CsumEntry} (hsound : fs.Sound s) (out : ScrubOut) :
    fs.check ctx out s = pure (out.countChecked ctx.sz).countOk := if_pos hsound

/-- A run read whole is verified as its sectors are. -/
theorem wholeRsp_checks (h : fs.Scrubs ctx) {cmd : ReadCmd}
    (hcmd : cmd ∈ runCmds (runsOf ctx.strategy.sectorSize) fs.streams) (out : ScrubOut) :
    processRsp ctx out (wholeRsp image ctx cmd) = (cmdSectors cmd).foldlM (fs.check ctx) out := by
  obtain ⟨hne, hrun, hfits⟩ := fs.run_shape hcmd h
  have hend := ReadCmd.fits hrun hfits hne
  have haddr : (ctx.reader.config.baseOffset + cmd.phys).toNat =
      ctx.reader.config.baseOffset.toNat + cmd.phys.toNat := by
    rw [UInt64.toNat_add, Nat.mod_eq_of_lt (by omega)]
  have hslices : sectorSlices ctx.sz ((image.device Unit).bytesAt
      (ctx.reader.config.baseOffset + cmd.phys) (cmd.len ctx)) cmd.entries.length =
        cmd.entries.map fun e => fs.sectorBytes (cmd.dext, e) := by
    apply List.ext_getElem
    · simp [sectorSlices]
    · intro i hi hi'
      rw [List.length_map] at hi'
      have hsector : i * ctx.sz + ctx.sz ≤ cmd.len ctx := by
        rw [← Nat.succ_mul]
        exact Nat.mul_le_mul_right _ hi'
      simp only [sectorSlices, List.getElem_map, List.getElem_range]
      rw [Device.bytesAt_slice _ hsector (by omega), ← ReadCmd.offset_sector hrun hfits hi']
      unfold sectorBytes ScrubContext.fileOffset
      rw [h.baseOffset_eq, h.sz_eq]
  unfold wholeRsp
  rw [processRsp_whole hne (Device.bytesAt_length _ _ _), hslices, ← List.map_prod_left_eq_zip,
    List.foldlM_map, cmdSectors, List.foldlM_map, h.strategy]
  rfl

theorem wholeRsps_check (h : fs.Scrubs ctx) (out : ScrubOut) :
    ((runCmds (runsOf ctx.strategy.sectorSize) fs.streams).map (wholeRsp image ctx)).foldlM
      (processRsp ctx) out = (sectorsOf fs.streams).foldlM (fs.check ctx) out := by
  rw [← runCmds_sectors (runsOf ctx.strategy.sectorSize) fs.streams
    fun w _ => runsOf_flatten ctx.strategy.sectorSize w.2, Lib.foldlM_flatMap, List.foldlM_map]
  exact Lib.foldlM_congr (fun cmd hcmd out => fs.wholeRsp_checks h hcmd out) out

/-- Where each sector can be judged, some order of the steps ends the scrub. -/
theorem scrub_returns (h : fs.Scrubs ctx) (hreadable : fs.Readable)
    (hreopen : ctx.reopen = pure (.ok ())) {depth : Nat} (hdepth : 0 < depth)
    (hjudged : ∀ s ∈ sectorsOf fs.streams, ¬fs.Sound s → ∀ out, ∃ out',
      fs.check ctx out s = pure out')
    (tallies : CsumTallies) (counters : Counters) :
    ∃ out, ScrubReturns ctx lazyCsum depth (fs.provider Unit tallies)
      (fs.devTree.items (devExtentKind fs.sb.devid)) counters true out := by
  let cmds := runCmds (runsOf ctx.strategy.sectorSize) fs.streams
  obtain ⟨tallies', hwalks⟩ :=
    fs.walks_return h (fs.devTree.items (devExtentKind fs.sb.devid)) tallies
  have hcmds : (cmds.map (wholeRsp image ctx)).map (·.1) = cmds := by
    rw [List.map_map]
    exact List.map_id cmds
  have hread : ∀ r ∈ cmds.map (wholeRsp image ctx), isolateRunRead ctx r.1 = pure r.2 := by
    intro r hr
    obtain ⟨cmd, hcmd, rfl⟩ := List.mem_map.mp hr
    exact fs.wholeRsp_read h hreadable hcmd
  have hall : ∀ s ∈ sectorsOf fs.streams, ∀ out, ∃ out', fs.check ctx out s = pure out' := by
    intro s hs out
    by_cases hsound : fs.Sound s
    · exact ⟨_, fs.check_sound hsound out⟩
    · exact hjudged s hs hsound out
  obtain ⟨last, hlast⟩ := Lib.foldlM_pure hall (.start counters)
  rw [← fs.wholeRsps_check h] at hlast
  obtain ⟨s, hs, hreturned⟩ := prefetch_returns hdepth hwalks hcmds hread hlast
  have hreopened : CanReturn ctx.reopen (.ok ()) := canReturn_fixed.mpr hreopen
  exact ⟨_, .threaded hreopened (Prefetch.reachable_mortal hs)
    (Prefetch.returned_result hs hreturned)⟩

/-- In whatever order the threads move, the totals are those of the sectors one after the other. -/
theorem scrub_folds (h : fs.Scrubs ctx) (hreadable : fs.Readable) {depth : Nat}
    {tallies : CsumTallies} {counters : Counters} {out : ScrubOut}
    (hrun : ScrubReturns ctx lazyCsum depth (fs.provider Unit tallies)
      (fs.devTree.items (devExtentKind fs.sb.devid)) counters true out) :
    ∃ last, (sectorsOf fs.streams).foldlM (fs.check ctx) (.start counters) = pure last ∧
      out.events = last.events ∧
      out.stats = { last.stats with staleCsumBranches := out.stats.staleCsumBranches } := by
  obtain ⟨work, rsps, out₁, p', hscrubbed, rfl⟩ := hrun.scrubbed
  obtain rfl : work = fs.streams := (fs.walks_streams h hscrubbed.walks rfl).1
  have hruns : rsps.map (·.1) = runCmds (runsOf ctx.strategy.sectorSize) fs.streams :=
    hscrubbed.runs
  have hrsps : rsps = (rsps.map (·.1)).map (wholeRsp image ctx) := by
    rw [List.map_map]
    refine (List.map_id rsps).symm.trans (List.map_congr_left fun r hr => ?_)
    have hcmd : r.1 ∈ runCmds (runsOf ctx.strategy.sectorSize) fs.streams :=
      hruns ▸ List.mem_map_of_mem hr
    have hisolated : isolateRunRead ctx r.1 = pure r.2 :=
      canReturn_fixed.mp (hscrubbed.isolated r hr)
    have hsame := congrFun (hisolated.symm.trans (fs.wholeRsp_read h hreadable hcmd)) ()
    exact Prod.ext rfl (Except.ok.inj (Prod.mk.inj hsame).1)
  obtain ⟨last, hlast, hreport⟩ := map_eq_pure hscrubbed.verified.report
  rw [hrsps, hruns, fs.wholeRsps_check h] at hlast
  have hevents : last.report.events = out₁.report.events := by rw [hreport]
  have hstats : last.report.stats = out₁.report.stats := by rw [hreport]
  have hsame : last.stats = out₁.stats := hstats
  refine ⟨last, hlast, hevents.symm, ?_⟩
  rw [hsame]
  rfl

/-- With raw candidates nothing is judged on the spot. -/
theorem raw_scrub_returns (h : fs.Scrubs ctx) (hreadable : fs.Readable)
    (hreopen : ctx.reopen = pure (.ok ())) {depth : Nat} (hdepth : 0 < depth)
    (hbatch : ctx.batch = true) (tallies : CsumTallies) (counters : Counters) :
    ∃ out, ScrubReturns ctx lazyCsum depth (fs.provider Unit tallies)
      (fs.devTree.items (devExtentKind fs.sb.devid)) counters true out := by
  apply fs.scrub_returns h hreadable hreopen hdepth
  intro s _ hbad out
  let actual := fs.strategy.compute (fs.sectorBytes s)
  have hdiffers : actual ≠ s.2.csum := hbad
  refine ⟨(out.countChecked ctx.sz).emit (sectorResult s.1 s.2 actual false), ?_⟩
  exact (if_neg hdiffers).trans (if_pos hbatch)

end Returns

end ChecksummedFs

section Sound
variable {σ : Type} {device : Device σ} {ctx : ScrubContext (ExceptT Halt (StateM σ))}
  {threaded : Bool} {work : List Streamed} {runs : List RunLog} {out : ScrubOut}
  {sound : DevExtent × CsumEntry → Prop} [DecidablePred sound]

/-- What is counted as ok, where a sector verifies by its content alone. -/
theorem CountedOnce.ok_sound (h : CountedOnce device ctx threaded work runs out)
    (hverifies : ∀ r ∈ runs, ∀ e ∈ r.cmd.entries, r.Verifies device ctx e ↔ sound (r.cmd.dext, e)) :
    out.stats.sectorsOk = (sectorsOf work).countP fun s => decide (sound s) := by
  rw [h.ok, ← h.sectors, List.countP_flatMap]
  congr 1
  apply List.map_congr_left
  intro r hr
  rw [Function.comp_apply, cmdSectors, List.countP_map]
  apply List.countP_congr
  intro e he
  simp [hverifies r hr e he]

theorem CountedOnce.events_sound (h : CountedOnce device ctx threaded work runs out)
    (hverifies : ∀ r ∈ runs, ∀ e ∈ r.cmd.entries, r.Verifies device ctx e ↔ sound (r.cmd.dext, e))
    (hbatch : ctx.batch = true) :
    (out.events.map fun ev => (ev.devid, ev.logical, ev.arrayPhys, ev.storedCsum)).Perm
      (((sectorsOf work).filter fun s => decide ¬sound s).map fun s =>
        (s.1.devid, s.2.logical, s.1.physOf s.2.logical, some s.2.csum)) := by
  refine (h.events hbatch).trans (List.Perm.of_eq ?_)
  rw [← h.sectors, List.filter_flatMap, List.map_flatMap]
  apply List.flatMap_congr
  intro r hr
  rw [cmdSectors, List.filter_map, List.map_map]
  refine congrArg (List.map _) (List.filter_congr fun e he => ?_)
  simp [hverifies r hr e he]

end Sound

namespace ChecksummedFs
variable {crates : HashCrates} {image : Image} {size : Except IoError UInt64} {baseOffset : UInt64}
  (fs : ChecksummedFs crates image size baseOffset)

/-- What a scrub of the filesystem tells about its sectors. -/
structure Tells {m : Type → Type} (ctx : ScrubContext m) (out : ScrubOut) : Prop where
  checked : out.stats.sectorsChecked = (sectorsOf fs.streams).length
  ok : out.stats.sectorsOk = (sectorsOf fs.streams).countP fun s => decide (fs.Sound s)
  plain : ctx.batch = false →
    out.stats.sectorsMismatch + out.stats.sectorsStale + out.stats.sectorsReadError =
      (sectorsOf fs.streams).countP fun s => decide ¬fs.Sound s
  events : ctx.batch = true →
    (out.events.map fun ev => (ev.devid, ev.logical, ev.arrayPhys, ev.storedCsum)).Perm
      (((sectorsOf fs.streams).filter fun s => decide ¬fs.Sound s).map fun s =>
        (s.1.devid, s.2.logical, s.1.physOf s.2.logical, some s.2.csum))

end ChecksummedFs

open ChecksummedFs in
/-- A scrub of a healthy filesystem whose data can be read checks every checksummed sector of the
data extents, once, and tells exactly those whose bytes do not have the stored checksum. -/
theorem scrub_tells {crates : HashCrates} {image : Image} {size : Except IoError UInt64}
    {baseOffset : UInt64} (fs : ChecksummedFs crates image size baseOffset)
    (hreadable : fs.Readable) {σ : Type} {ctx : ScrubContext (ExceptT Halt (StateM σ))}
    (hctx : fs.Scrubs ctx) {depth : Nat} {tallies : CsumTallies} {counters : Counters}
    {threaded : Bool} {out : ScrubOut}
    (hcut : threaded = true ∨
      ∀ w ∈ fs.streams, (runsOf fs.strategy.sectorSize w.2).length ≤ 1)
    (h : ScrubReturns ctx lazyCsum depth (fs.provider σ tallies)
      (fs.devTree.items (devExtentKind fs.sb.devid)) counters threaded out) :
    fs.Tells ctx out := by
  obtain ⟨runs, hcounted, hcmds⟩ := scrub_countedOnce fs hctx hcut h
  have hverifies : ∀ r ∈ runs, ∀ e ∈ r.cmd.entries,
      r.Verifies (image.device σ) ctx e ↔ fs.Sound (r.cmd.dext, e) := fun r hr =>
    fs.verifies_iff hctx hreadable (hcmds ▸ List.mem_map_of_mem hr) (hcounted.issued r hr)
  have hok := hcounted.ok_sound hverifies
  refine ⟨hcounted.checked, hok, ?_, fun hbatch => hcounted.events_sound hverifies hbatch⟩
  intro hplain
  have hsum := hcounted.plain hplain
  have hsplit := List.length_eq_countP_add_countP (fun s => decide (fs.Sound s))
    (l := sectorsOf fs.streams)
  simp only [decide_eq_true_eq] at hsplit
  rw [hcounted.checked, hok, hsplit] at hsum
  omega

/-! ### Open, then scrub -/

namespace ChecksummedFs
variable {crates : HashCrates} {image : Image} {size : Except IoError UInt64} {baseOffset : UInt64}
  (fs : ChecksummedFs crates image size baseOffset)

/-- The scrub that opening the filesystem gives, on a device with a state. -/
theorem openScrub_via_scrub (σ : Type) : ∃ errors : MetadataErrors,
    errors.headerErrors = 0 ∧ errors.readErrors = 0 ∧
      BtrfsScrub.openScrub crates ((image.file size).via (.stateful σ)) baseOffset =
        pure (.ok ((fs.scrub errors).via (.stateful σ))) := by
  obtain ⟨errors, hheader, hread, hopen⟩ := fs.openScrub_scrub
  refine ⟨errors, hheader, hread, ?_⟩
  rw [openScrub_via, hopen, if_pos fs.supported]
  rfl

theorem scrubs_via {σ : Type} (errors : MetadataErrors)
    (reopen : ExceptT Halt (StateM σ) (Except IoError Unit)) (batch : Bool) (limit : Nat)
    (hlimit : 0 < limit) :
    fs.Scrubs (((fs.scrub errors).via (.stateful σ)).context reopen batch limit hlimit) where
  reader := reader_via image σ fs.config
  chunkMap := rfl
  strategy := rfl

/-- A scrub with raw candidates, once the filesystem is open. -/
theorem opened_scrub_returns (hreadable : fs.Readable) (errors : MetadataErrors) {limit depth : Nat}
    (hlimit : 0 < limit) (hdepth : 0 < depth) (counters : Counters) :
    let scrub := (fs.scrub errors).via (.stateful Unit)
    ∃ out, ScrubReturns (scrub.context (pure (.ok ())) true limit hlimit) lazyCsum depth
      scrub.csumProvider scrub.devExtents counters true out :=
  fs.raw_scrub_returns (fs.scrubs_via errors (pure (.ok ())) true limit hlimit) hreadable rfl hdepth
    rfl .empty counters

end ChecksummedFs

/-- A healthy filesystem is opened, and its scrub checks every checksummed sector of the data
extents, once, and tells exactly those whose bytes do not have the stored checksum. -/
theorem openScrub_tells {crates : HashCrates} {image : Image} {size : Except IoError UInt64}
    {baseOffset : UInt64} (fs : ChecksummedFs crates image size baseOffset)
    (hreadable : fs.Readable) (σ : Type) :
    ∃ scrub : BtrfsScrub (ExceptT Halt (StateM σ)),
      BtrfsScrub.openScrub crates ((image.file size).via (.stateful σ)) baseOffset =
        pure (.ok scrub) ∧
      ∀ (reopen : ExceptT Halt (StateM σ) (Except IoError Unit)) (batch : Bool) (limit : Nat)
        (hlimit : 0 < limit) (depth : Nat) (counters : Counters) (threaded : Bool) (out : ScrubOut),
        (threaded = true ∨ ∀ w ∈ fs.streams, (runsOf fs.strategy.sectorSize w.2).length ≤ 1) →
        ScrubReturns (scrub.context reopen batch limit hlimit) lazyCsum depth scrub.csumProvider
          scrub.devExtents counters threaded out →
        fs.Tells (scrub.context reopen batch limit hlimit) out := by
  obtain ⟨errors, -, -, hopen⟩ := fs.openScrub_via_scrub σ
  refine ⟨_, hopen, ?_⟩
  intro reopen batch limit hlimit depth counters threaded out hcut h
  exact scrub_tells fs hreadable (fs.scrubs_via errors reopen batch limit hlimit) hcut h

/-- Of two sectors one does not have its checksum, and the scrub says which. -/
theorem openScrub_tells_crafted : Crafted.checksummedFs.Readable ∧
    ∃ scrub : BtrfsScrub (ExceptT Halt (StateM Unit)),
      BtrfsScrub.openScrub Crafted.crates ((Crafted.fsImage.file (.ok 0x1000000)).via (.stateful Unit))
        0 = pure (.ok scrub) ∧
      ∃ out, ScrubReturns (scrub.context (pure (.ok ())) true 64 Crafted.limit_pos) lazyCsum 16
          scrub.csumProvider scrub.devExtents none true out ∧
        out.stats.sectorsChecked = 2 ∧ out.stats.sectorsOk = 1 ∧
        (out.events.map fun ev => (ev.devid, ev.logical, ev.arrayPhys, ev.storedCsum)) =
          [(1, 0x401000, 0x801000, some Crafted.zeroCsum)] := by
  obtain ⟨scrub, hopen, htells⟩ :=
    openScrub_tells Crafted.checksummedFs Crafted.checksummedFs_readable Unit
  obtain ⟨errors, -, -, hsame⟩ := Crafted.checksummedFs.openScrub_via_scrub Unit
  obtain rfl : scrub = (Crafted.checksummedFs.scrub errors).via (.stateful Unit) := by
    have hrun := congrFun (hopen.symm.trans hsame) ()
    exact Except.ok.inj (Except.ok.inj (Prod.mk.inj hrun).1)
  obtain ⟨out, hout⟩ := Crafted.checksummedFs.opened_scrub_returns Crafted.checksummedFs_readable
    errors Crafted.limit_pos (by decide : 0 < 16) none
  have hall := htells (pure (.ok ())) true 64 Crafted.limit_pos 16 none true out (.inl rfl) hout
  obtain ⟨hfirst, hsecond⟩ := Crafted.checksummedFs_sound
  have hsectors := Crafted.checksummedFs_sectors
  refine ⟨Crafted.checksummedFs_readable, _, hopen, out, hout, ?_, ?_, ?_⟩
  · rw [hall.checked, hsectors]
    rfl
  · rw [hall.ok, hsectors]
    simp [hfirst, hsecond]
  · have hevents := hall.events rfl
    rw [hsectors] at hevents
    simp only [List.filter_cons, List.filter_nil, hfirst, hsecond, not_true_eq_false,
      not_false_eq_true, decide_true, decide_false, if_true] at hevents
    exact hevents.eq_singleton

end Rotshield.Btrfs
