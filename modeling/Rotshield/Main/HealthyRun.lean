import Rotshield.Btrfs.Detection
import Rotshield.Main.SameVerdict

/-! The exit code of a plain run on a healthy filesystem says whether its data is sound. -/
namespace Rotshield.Main
open Btrfs (ChecksummedFs BtrfsScrub ScrubReturns ScrubOut Walks lazyCsum sectorsOf processSector
  ReconfirmerConfig Moment)

/-! ### The scrub of a file that stays as it is -/

section Context
variable {crates : Btrfs.HashCrates} {image : Btrfs.Image} {size : Except IoError UInt64}
  {baseOffset : UInt64} (fs : ChecksummedFs crates image size baseOffset)

/-- What re-confirms the sectors of the filesystem. -/
def reconfirmerOf : ReconfirmerConfig := ⟨fs.config, .ofRecords fs.records, fs.strategy⟩

/-- A plain scrub judges a mismatch as the re-confirmer does. -/
theorem context_via {m : Type → Type} [Monad m] [MonadExceptOf Halt m]
    (φ : Btrfs.HaltMap Exec m) (errors : Btrfs.MetadataErrors) (batch : Bool) {limit : Nat}
    (hlimit : 0 < limit) :
    ((fs.scrub errors).via φ).context ((image.file size).via φ).reopen batch limit hlimit =
      ((reconfirmerOf fs).scrub ⟨image, .ok ()⟩ batch limit hlimit).via φ := rfl

variable (errors : Btrfs.MetadataErrors) (batch : Bool) {limit : Nat} (hlimit : 0 < limit)

/-- The scrub that is opened. -/
def openedScrub : Btrfs.ScrubContext (ExceptT Halt (StateM Unit)) :=
  ((fs.scrub errors).via (.stateful Unit)).context ((image.file size).via (.stateful Unit)).reopen
    batch limit hlimit

theorem check_via (out : ScrubOut) (s : Btrfs.DevExtent × Btrfs.CsumEntry) :
    fs.check (openedScrub fs errors batch hlimit) out s =
      (Btrfs.HaltMap.stateful Unit).app (processSector
        ((reconfirmerOf fs).scrub ⟨image, .ok ()⟩ batch limit hlimit) s.1 out
          (s.2, fs.strategy.compute (fs.sectorBytes s))) := by
  unfold ChecksummedFs.check openedScrub
  rw [context_via]
  exact Btrfs.processSector_via ..

theorem openedScrub_walks :
    let scrub := (fs.scrub errors).via (.stateful Unit)
    ∃ p', Walks (openedScrub fs errors batch hlimit) lazyCsum scrub.csumProvider scrub.devExtents
      fs.streams p' := by
  obtain ⟨tallies, hwalks⟩ := fs.walks_return (fs.scrubs_via errors
    ((image.file size).via (.stateful Unit)).reopen batch limit hlimit)
    (fs.devTree.items (Btrfs.devExtentKind fs.sb.devid)) .empty
  exact ⟨_, hwalks⟩

/-- Where each bad sector can be judged, the opened scrub can return. -/
theorem openedScrub_returns (hreadable : fs.Readable) {depth : Nat} (hdepth : 0 < depth)
    (hjudged : ∀ s ∈ sectorsOf fs.streams, ¬fs.Sound s → ∀ out, ∃ out',
      fs.check (openedScrub fs errors batch hlimit) out s = pure out')
    (counters : Btrfs.Counters) :
    let scrub := (fs.scrub errors).via (.stateful Unit)
    ∃ out, ScrubReturns (openedScrub fs errors batch hlimit) lazyCsum depth scrub.csumProvider
      scrub.devExtents counters true out :=
  fs.scrub_returns (fs.scrubs_via errors ((image.file size).via (.stateful Unit)).reopen batch limit
    hlimit) hreadable rfl hdepth hjudged .empty counters

/-- It counts the mismatches of the sectors one after the other. -/
theorem openedScrub_mismatches (hreadable : fs.Readable) {depth : Nat} {counters : Btrfs.Counters}
    {out : ScrubOut}
    (hrun : ScrubReturns (openedScrub fs errors batch hlimit) lazyCsum depth
      ((fs.scrub errors).via (.stateful Unit)).csumProvider
      ((fs.scrub errors).via (.stateful Unit)).devExtents counters true out) :
    ∃ last, (sectorsOf fs.streams).foldlM (fs.check (openedScrub fs errors batch hlimit))
        (.start counters) = pure last ∧ out.stats.sectorsMismatch = last.stats.sectorsMismatch := by
  obtain ⟨last, hlast, -, hstats⟩ := fs.scrub_folds (fs.scrubs_via errors
    ((image.file size).via (.stateful Unit)).reopen batch limit hlimit) hreadable hrun
  refine ⟨last, hlast, ?_⟩
  rw [hstats]

end Context

/-! ### A plain run that finds a mismatch -/

namespace Crafted
open Btrfs.Crafted (crates strategy changed fsImage checksummedFs checksummedFs_readable limit_pos
  fsExtent zeroCsum fsSuperblock)

/-- No array config. -/
def loneSetup : Setup Unit := { setup "/dev/sdb1" 0 with loaded := none }

def fsMoment : Moment := ⟨fsImage, .ok ()⟩

def fsReconfirmer : ReconfirmerConfig where
  config := Btrfs.Crafted.config
  chunkMap := .ofRecords Btrfs.Crafted.allRecords
  strategy

theorem fsReconfirmer_eq : reconfirmerOf checksummedFs = fsReconfirmer := rfl

theorem fs_liveRoots : fsReconfirmer.liveRoots fsMoment = .ok (some (0x104000, 0x103000)) := by
  obtain ⟨counters, hresolve⟩ := Btrfs.Crafted.fs_roots none
  exact Btrfs.liveRoots_of_reads Btrfs.Crafted.fsSuperblock_read hresolve

theorem fs_corrupt : (fsReconfirmer.during fsMoment).verdict ⟨(0x401000 : UInt64).toNat, zeroCsum⟩
    (some (0x104000, 0x103000)) = .ok .corruption :=
  Btrfs.verdict_of_mismatch _ Btrfs.Crafted.fs_verdict

theorem fs_sector : fsMoment.image.sector Btrfs.Crafted.config (fsExtent.physOf 0x401000) 4096 =
    changed 100 3995 0x5A := Except.ok.inj Btrfs.Crafted.fsImage_second

theorem fs_bytes : checksummedFs.sectorBytes (fsExtent, ⟨0x401000, zeroCsum⟩) =
    changed 100 3995 0x5A := Except.ok.inj Btrfs.Crafted.fsImage_second

def fsEntry : Btrfs.CsumEntry := ⟨0x401000, zeroCsum⟩

/-- The second sector, judged on the spot. -/
theorem fs_judged (out : ScrubOut) : ∃ out',
    processSector (fsReconfirmer.scrub fsMoment false 64 limit_pos) fsExtent out
        (fsEntry, strategy.compute (changed 100 3995 0x5A)) = .ok out' ∧
      out'.stats.sectorsMismatch = out.stats.sectorsMismatch + 1 := by
  have hdiffers : strategy.compute (changed 100 3995 0x5A) ≠ fsEntry.csum :=
    Btrfs.Crafted.compute_changed 100 3995 (by decide)
  have hscanned : strategy.compute (changed 100 3995 0x5A) =
      fsReconfirmer.strategy.compute (fsMoment.image.sector fsReconfirmer.config
        (fsExtent.physOf fsEntry.logical) fsReconfirmer.strategy.sectorSize.toNat) :=
    congrArg strategy.compute fs_sector.symm
  exact Btrfs.processSector_corrupt hscanned hdiffers fs_liveRoots fs_corrupt out

theorem fs_checked (errors : Btrfs.MetadataErrors) (out : ScrubOut) : ∃ out',
    checksummedFs.check (openedScrub checksummedFs errors false limit_pos) out (fsExtent, fsEntry) =
        pure out' ∧ out'.stats.sectorsMismatch = out.stats.sectorsMismatch + 1 := by
  obtain ⟨out', hout, hmismatch⟩ := fs_judged out
  refine ⟨out', ?_, hmismatch⟩
  rw [check_via, fsReconfirmer_eq]
  have hbytes : checksummedFs.strategy.compute (checksummedFs.sectorBytes (fsExtent, fsEntry)) =
      strategy.compute (changed 100 3995 0x5A) := congrArg strategy.compute fs_bytes
  have hsame : processSector (fsReconfirmer.scrub ⟨fsImage, .ok ()⟩ false 64 limit_pos) fsExtent out
      (fsEntry, checksummedFs.strategy.compute (checksummedFs.sectorBytes (fsExtent, fsEntry))) =
        .ok out' := by
    rw [hbytes]
    exact hout
  rw [hsame]
  rfl

/-- A scrub without an array. -/
theorem lone_returns (errors : Btrfs.MetadataErrors) :
    let scrub := (checksummedFs.scrub errors).via (.stateful Unit)
    ∃ out, ScrubReturns (openedScrub checksummedFs errors false limit_pos) lazyCsum 16
      scrub.csumProvider scrub.devExtents none true out := by
  apply openedScrub_returns checksummedFs errors false limit_pos checksummedFs_readable (by decide)
  intro s hs hbad out
  rw [Btrfs.Crafted.checksummedFs_sectors] at hs
  rcases List.mem_cons.mp hs with rfl | hs
  · exact absurd Btrfs.Crafted.checksummedFs_sound.1 hbad
  · obtain rfl := List.mem_singleton.mp hs
    obtain ⟨out', hout, -⟩ := fs_checked errors out
    exact ⟨out', hout⟩

theorem lone_run {errors : Btrfs.MetadataErrors} {out : ScrubOut}
    (p' : Btrfs.LazyCsumProvider (ExceptT Halt (StateM Unit)))
    (hout : ScrubReturns (openedScrub checksummedFs errors false limit_pos) lazyCsum 16
      ((checksummedFs.scrub errors).via (.stateful Unit)).csumProvider
      ((checksummedFs.scrub errors).via (.stateful Unit)).devExtents none true out) :
    let scrub := (checksummedFs.scrub errors).via (.stateful Unit)
    RunScrub loneSetup (openedScrub checksummedFs errors loneSetup.driver.wantsRawCandidates limit_pos)
      lazyCsum 16 scrub.csumProvider scrub.devExtents none (scrub.metadata p') out.events
      (fun _ => False) (finish (totals out.stats (scrub.metadata p')) 0 none) :=
  .plain rfl rfl hout

theorem lone_mismatch {errors : Btrfs.MetadataErrors} {out : ScrubOut}
    (hrun : ScrubReturns (openedScrub checksummedFs errors false limit_pos) lazyCsum 16
      ((checksummedFs.scrub errors).via (.stateful Unit)).csumProvider
      ((checksummedFs.scrub errors).via (.stateful Unit)).devExtents none true out) :
    out.stats.sectorsMismatch = 1 := by
  obtain ⟨last, hlast, hsame⟩ :=
    openedScrub_mismatches checksummedFs errors false limit_pos checksummedFs_readable hrun
  have hfirst := Btrfs.Crafted.checksummedFs_sound.1
  rw [Btrfs.Crafted.checksummedFs_sectors, List.foldlM_cons, checksummedFs.check_sound hfirst,
    pure_bind, List.foldlM_cons] at hlast
  obtain ⟨out₁, hout₁, hmismatch⟩ := fs_checked errors
    ((ScrubOut.start none).countChecked (openedScrub checksummedFs errors false limit_pos).sz).countOk
  have hone := congrFun hlast ()
  unfold fsEntry at hout₁
  rw [hout₁, pure_bind, List.foldlM_nil] at hone
  obtain rfl : out₁ = last := Except.ok.inj (Prod.mk.inj hone).1
  rw [hsame, hmismatch]
  rfl

end Crafted

/-! ### The exit code -/

theorem cascade_plain {stats : ScrubStats} (hheader : stats.metadataHeaderErrors = 0)
    (hread : stats.metadataReadErrors = 0) :
    cascade stats {} false =
      if stats.sectorsMismatch + stats.sectorsReadError = 0 then .success else .issuesFound := by
  have hissues : issuesFound stats {} = decide (stats.sectorsMismatch + stats.sectorsReadError ≠ 0) := by
    rw [Bool.eq_iff_iff]
    simp only [issuesFound, hheader, hread, Bool.or_eq_true, decide_eq_true_eq]
    omega
  unfold cascade
  rw [hheader, hissues, if_neg (Nat.lt_irrefl 0)]
  by_cases hzero : stats.sectorsMismatch + stats.sectorsReadError = 0
  · simp [hzero]
  · simp

/-- On a healthy filesystem whose data can be read, a run without an array exits with 0 or 3: with 0
exactly when no sector whose bytes do not have the stored checksum is left, but for those found
rewritten; so with 0 when all are sound. -/
theorem plain_run_exit {crates : Btrfs.HashCrates} {image : Btrfs.Image}
    {size : Except IoError UInt64} {baseOffset : UInt64}
    (fs : ChecksummedFs crates image size baseOffset) (hreadable : fs.Readable) (σ : Type)
    {τ : Type} {setup : Setup τ} (alone : setup.cfg = none) :
    ∃ scrub : BtrfsScrub (ExceptT Halt (StateM σ)),
      BtrfsScrub.openScrub crates ((image.file size).via (.stateful σ)) baseOffset =
        pure (.ok scrub) ∧
      ∀ limit (hlimit : 0 < limit) depth counters work p' events stale code,
        let ctx := scrub.context ((image.file size).via (.stateful σ)).reopen
          setup.driver.wantsRawCandidates limit hlimit
        Walks ctx lazyCsum scrub.csumProvider scrub.devExtents work p' →
        RunScrub setup ctx lazyCsum depth scrub.csumProvider scrub.devExtents counters
          (scrub.metadata p') events stale code →
        (∃ out, ScrubReturns ctx lazyCsum depth scrub.csumProvider scrub.devExtents counters true out ∧
          events = out.events ∧ fs.Tells ctx out ∧
          code = if out.stats.sectorsMismatch + out.stats.sectorsReadError = 0 then .success
            else .issuesFound) ∧
        ((∀ s ∈ sectorsOf fs.streams, fs.Sound s) → code = .success) := by
  obtain ⟨errors, hheader, hread, hopen⟩ := fs.openScrub_via_scrub σ
  refine ⟨_, hopen, ?_⟩
  intro limit hlimit depth counters work p' events stale code ctx hwalks h
  have hctx := fs.scrubs_via errors ((image.file size).via (.stateful σ)).reopen
    setup.driver.wantsRawCandidates limit hlimit
  obtain ⟨-, tallies', rfl, hcalm⟩ := fs.walks_streams hctx hwalks rfl
  cases h with
  | pipelined array => rw [alone] at array; cases array
  | @plain threaded out _ batch scrub =>
      have hthreaded : threaded = true := by
        cases scrub with
        | threaded => rfl
        | inline reopened _ =>
            obtain ⟨s, s', hreopen⟩ := reopened
            cases hreopen
      have hbatch : (((fs.scrub errors).via (.stateful σ)).context
          ((image.file size).via (.stateful σ)).reopen setup.driver.wantsRawCandidates limit
            hlimit).batch = false := by
        change setup.cfg.isSome = false
        rw [alone]
        rfl
      have htells := Btrfs.scrub_tells fs hreadable hctx (.inl hthreaded) scrub
      have hcode : cascade (totals out.stats (((fs.scrub errors).via
          (.stateful σ)).metadata (fs.provider σ tallies'))) {} false =
            if out.stats.sectorsMismatch + out.stats.sectorsReadError = 0 then .success
            else .issuesFound := by
        refine cascade_plain ?_ ?_
        · change errors.headerErrors + tallies'.metadataErrors.count = 0
          rw [hheader, hcalm.metadataErrors]
          rfl
        · change errors.readErrors + tallies'.metadataReadErrors.count = 0
          rw [hread, hcalm.metadataReadErrors]
          rfl
      refine ⟨⟨out, hthreaded ▸ scrub, rfl, htells, hcode⟩, ?_⟩
      intro hsound
      have hnone : (sectorsOf fs.streams).countP (fun s => decide ¬fs.Sound s) = 0 := by
        rw [List.countP_eq_zero]
        intro s hs
        simp [hsound s hs]
      have hplain := htells.plain hbatch
      rw [hnone] at hplain
      have hzero : out.stats.sectorsMismatch + out.stats.sectorsReadError = 0 := by omega
      exact hcode.trans (if_pos hzero)

namespace Crafted
open Btrfs.Crafted (crates fsImage checksummedFs checksummedFs_readable limit_pos)

/-- One sector is bad, and the run says so. -/
theorem plain_run_exit_crafted : checksummedFs.Readable ∧ loneSetup.cfg = none ∧
    ∃ scrub : BtrfsScrub (ExceptT Halt (StateM Unit)),
      BtrfsScrub.openScrub crates ((fsImage.file (.ok 0x1000000)).via (.stateful Unit)) 0 =
        pure (.ok scrub) ∧
      ∃ work p' events code,
        let ctx := scrub.context ((fsImage.file (.ok 0x1000000)).via (.stateful Unit)).reopen
          loneSetup.driver.wantsRawCandidates 64 limit_pos
        Walks ctx lazyCsum scrub.csumProvider scrub.devExtents work p' ∧
        RunScrub loneSetup ctx lazyCsum 16 scrub.csumProvider scrub.devExtents none
          (scrub.metadata p') events (fun _ => False) code ∧ code = .issuesFound := by
  obtain ⟨scrub, hopen, hrun⟩ :=
    plain_run_exit checksummedFs checksummedFs_readable Unit (show loneSetup.cfg = none from rfl)
  obtain ⟨errors, -, -, hsame⟩ := checksummedFs.openScrub_via_scrub Unit
  obtain rfl : scrub = (checksummedFs.scrub errors).via (.stateful Unit) := by
    have hone := congrFun (hopen.symm.trans hsame) ()
    exact Except.ok.inj (Except.ok.inj (Prod.mk.inj hone).1)
  obtain ⟨out, hout⟩ := lone_returns errors
  obtain ⟨p', hwalks⟩ := openedScrub_walks checksummedFs errors false limit_pos
  have hplain := lone_run p' hout
  obtain ⟨⟨out', hout', -, -, hcode⟩, -⟩ := hrun 64 limit_pos 16 none _ p' _ _ _ hwalks hplain
  refine ⟨checksummedFs_readable, rfl, _, hopen, _, p', _, _, hwalks, hplain, ?_⟩
  rw [hcode, lone_mismatch hout']
  exact if_neg (by omega)

end Crafted
end Rotshield.Main
