import Rotshield.BatchRecover.Spec
import Rotshield.Btrfs.CraftCommit
import Rotshield.Btrfs.Reconfirm
import Rotshield.Btrfs.Reconfirmer
import Rotshield.Main.CleanExit

/-! One mismatch, re-confirmed by a plain scrub on the spot and by the writer. -/
namespace Rotshield.Btrfs

namespace ReconfirmerConfig

/-- The live roots at a moment. -/
def liveRoots (rc : ReconfirmerConfig) (moment : Moment) : Exec (Option (UInt64 × UInt64)) :=
  (rc.superblock moment).bind fun sb => match sb with
    | none => .ok none
    | some sb => rc.resolve moment sb

/-- The verdict at a moment. -/
def judge (rc : ReconfirmerConfig) (moment : Moment) (req : ReconfirmRequest) : Exec Reconfirm :=
  (rc.liveRoots moment).bind ((rc.during moment).verdict req)

/-- A scrub of the file as it is at a moment. -/
def scrub (rc : ReconfirmerConfig) (moment : Moment) (batch : Bool) (isolationLimit : Nat)
    (isolationLimit_pos : 0 < isolationLimit) : ScrubContext Exec where
  reader := (rc.during moment).reader
  reopen := (rc.during moment).reopen
  chunkMap := rc.chunkMap
  strategy := rc.strategy
  batch
  isolationLimit
  isolationLimit_pos

/-- Every node of the extent and the csum tree that re-confirming a sector reads can be read, in
as many levels as are gone through. -/
def Verifiable (rc : ReconfirmerConfig) (moment : Moment) (logical : UInt64) : Prop :=
  ∀ ext csum, rc.liveRoots moment = .ok (some (ext, csum)) →
    ¬OutOfLevels (rc.during moment).reader rc.chunkMap ext csum logical rc.strategy.sectorSize ∧
      ∀ a, Reads (rc.during moment).reader rc.chunkMap ext csum logical rc.strategy.sectorSize a →
        ¬Unreadable (rc.during moment).reader rc.chunkMap a

end ReconfirmerConfig

/-- What the file holds of a sector. -/
def Image.sector (image : Image) (config : ReaderConfig) (phys : UInt64) (n : Nat) : Bytes :=
  (List.range n).map fun i => image.byte ((config.baseOffset + phys).toNat + i)

section Judged
variable {rc : ReconfirmerConfig} {moment : Moment} {req : ReconfirmRequest} {s : ReconfirmerState}

/-- A plain scrub resolves the same roots. -/
theorem liveDataTreeRoots_fst (counters : Counters) :
    Prod.fst <$> liveDataTreeRoots rc.strategy.crates (rc.during moment).reopen
      (rc.during moment).reader rc.chunkMap rc.config.baseOffset counters = rc.liveRoots moment := by
  unfold liveDataTreeRoots ReconfirmerConfig.liveRoots
  cases hread : readLiveSuperblock rc.strategy.crates (rc.during moment).reopen
      (rc.during moment).reader rc.config.baseOffset counters with
  | error e =>
      have hsb : rc.superblock moment = .error e := by
        unfold ReconfirmerConfig.superblock
        rw [readLiveSuperblock_map _ _ _ _ none counters, hread]
        rfl
      rw [hsb]
      rfl
  | ok live =>
      obtain ⟨sb, counters'⟩ := live
      rw [superblock_of_read hread]
      cases sb with
      | none => rfl
      | some sb =>
          dsimp only [Except.bind, bind]
          unfold ReconfirmerConfig.resolve
          rw [resolveLiveTreeRoots_map, resolveLiveTreeRoots_map]

theorem liveRoots_of_superblock {sb : Superblock} (h : rc.superblock moment = .ok (some sb)) :
    rc.liveRoots moment = rc.resolve moment sb := by
  unfold ReconfirmerConfig.liveRoots
  rw [h]
  rfl

/-- The roots of an image whose superblock and root tree are read. -/
theorem liveRoots_of_reads {image : Image} {config : ReaderConfig} {map : ChunkMap}
    {strategy : CsumStrategy} {sb : Superblock} {roots : Option (UInt64 × UInt64)}
    {counters : Counters}
    (hread : Superblock.read strategy.crates (image.reader config).pread config.baseOffset =
      .ok (.ok sb))
    (hresolve : resolveLiveTreeRoots (image.reader config) map none sb = .ok (roots, counters)) :
    (ReconfirmerConfig.mk config map strategy).liveRoots ⟨image, .ok ()⟩ = .ok roots := by
  have hlive : readLiveSuperblock strategy.crates (.ok (.ok ())) (image.reader config)
      config.baseOffset none = .ok (some sb, none) := readLiveSuperblock_ok hread none
  have hsb : (ReconfirmerConfig.mk config map strategy).superblock ⟨image, .ok ()⟩ = .ok (some sb) :=
    congrArg (Prod.fst <$> ·) hlive
  rw [liveRoots_of_superblock hsb]
  exact congrArg (Prod.fst <$> ·) hresolve

theorem verdict_of_mismatch {image : Image} {config : ReaderConfig} {map : ChunkMap}
    {strategy : CsumStrategy} {ext csum logical : UInt64} {stored : Bytes} {verdict : Reconfirm}
    (reopens : Except IoError Unit)
    (h : reconfirmMismatch (image.reader config) map ext csum logical stored strategy.hashLen
      strategy.sectorSize = .ok verdict) :
    ((ReconfirmerConfig.mk config map strategy).during ⟨image, reopens⟩).verdict
      ⟨logical.toNat, stored⟩ (some (ext, csum)) = .ok verdict := by
  unfold BtrfsReconfirmer.verdict
  rw [UInt64.ofNat_toNat]
  exact h

theorem judge_of_roots {roots : Option (UInt64 × UInt64)} (h : rc.liveRoots moment = .ok roots) :
    rc.judge moment req = (rc.during moment).verdict req roots := by
  unfold ReconfirmerConfig.judge
  rw [h]
  rfl

/-- What every generation resolves to while nothing changes. -/
def ReconfirmerConfig.rootsAt (rc : ReconfirmerConfig) (moment : Moment) (_ : UInt64) :
    Exec (Option (UInt64 × UInt64)) := rc.liveRoots moment

theorem fixed_determined : rc.Determined (rc.rootsAt moment) moment := by
  intro sb hsb
  exact (liveRoots_of_superblock hsb).symm

/-- After any calls in which nothing changed, the verdict is the one without a cache. -/
theorem reconfirm_judge {reqs : List ReconfirmRequest} {counters : Counters}
    (h : rc.calls (reqs.map fun req => (moment, req)) (.new counters) = .ok s) :
    Prod.fst <$> (rc.during moment).reconfirm req s = rc.judge moment req := by
  have hdet : ∀ c ∈ reqs.map fun req => (moment, req), rc.Determined (rc.rootsAt moment) c.1 := by
    intro c hc
    obtain ⟨_, _, rfl⟩ := List.mem_map.mp hc
    exact fixed_determined
  rw [reconfirm_fst fixed_determined (calls_fresh hdet (new_fresh counters) h)]
  unfold ReconfirmerConfig.judge ReconfirmerConfig.rootsAt ReconfirmerConfig.liveRoots
  cases rc.superblock moment with
  | error e => rfl
  | ok sb =>
      cases sb with
      | none => rfl
      | some sb => dsimp only [Except.bind]

theorem readPhysical_sector {config : ReaderConfig} {image : Image} {devid phys : UInt64} {n : Nat}
    {fresh : Bytes} (h : (image.reader config).readPhysical devid phys n = .ok (.ok fresh)) :
    fresh = image.sector config phys n := by
  unfold FsReader.readPhysical at h
  split at h
  case isFalse => cases h
  case isTrue =>
      have hread : image.pread (config.baseOffset + phys) n = .ok fresh := Except.ok.inj h
      unfold Image.pread readBytes at hread
      split at hread
      case h_1 => cases hread
      case h_2 => exact (Except.ok.inj hread).symm

end Judged

/-! ### On the spot -/

section Plain
variable {rc : ReconfirmerConfig} {moment : Moment} {limit : Nat} {hlimit : 0 < limit}
  {dext : DevExtent} {entry : CsumEntry} {out out' : ScrubOut}

/-- The totals after a mismatch was judged without a pipeline: no roots are a read error, and
every verdict but one is churn. -/
def plainStats (roots : Option (UInt64 × UInt64)) (verdict : Reconfirm) (stats : ScrubStats) :
    ScrubStats :=
  match roots, verdict with
  | none, _ => { stats with sectorsReadError := stats.sectorsReadError + 1 }
  | some _, .corruption => { stats with sectorsMismatch := stats.sectorsMismatch + 1 }
  | some _, .stale | some _, .unverifiable => { stats with sectorsStale := stats.sectorsStale + 1 }

/-- A fresh read gives the same bytes, or fails: the mismatch stands. -/
theorem freshMismatch_stands {batch : Bool}
    (hscanned : rc.strategy.compute (moment.image.sector rc.config (dext.physOf entry.logical)
      rc.strategy.sectorSize.toNat) ≠ entry.csum) :
    freshMismatch (rc.scrub moment batch limit hlimit) dext entry = .ok true := by
  have hexec : ∃ got, (moment.image.reader rc.config).readPhysical dext.devid
      (dext.physOf entry.logical) rc.strategy.sectorSize.toNat = .ok got := by
    unfold FsReader.readPhysical
    split
    · exact ⟨_, rfl⟩
    · exact ⟨_, rfl⟩
  obtain ⟨got, hgot⟩ := hexec
  have hread : (rc.scrub moment batch limit hlimit).reader.readPhysical dext.devid
      (dext.physOf entry.logical) (rc.scrub moment batch limit hlimit).sz = .ok got := hgot
  unfold freshMismatch
  rw [hread]
  cases got with
  | error e => rfl
  | ok fresh =>
      obtain rfl := readPhysical_sector hgot
      have hdiffers : decide (rc.strategy.compute (moment.image.sector rc.config
          (dext.physOf entry.logical) rc.strategy.sectorSize.toNat) ≠ entry.csum) = true :=
        decide_eq_true hscanned
      exact congrArg Except.ok hdiffers

/-- A mismatch judged without a pipeline, one step after the other. -/
theorem reconfirmSector_eq {actual : Bytes}
    (hscanned : rc.strategy.compute (moment.image.sector rc.config (dext.physOf entry.logical)
      rc.strategy.sectorSize.toNat) ≠ entry.csum) :
    reconfirmSector (rc.scrub moment false limit hlimit) dext entry actual out =
      (liveDataTreeRoots rc.strategy.crates (rc.during moment).reopen (rc.during moment).reader
        rc.chunkMap rc.config.baseOffset out.counters).bind fun v => match v.1 with
          | none => .ok { out with counters := v.2 }.countReadError
          | some roots =>
              ((rc.during moment).verdict ⟨entry.logical.toNat, entry.csum⟩ (some roots)).map
                fun verdict => if verdict = .corruption then
                    { out with counters := v.2 }.countMismatch.emit
                      (sectorResult dext entry actual false)
                  else { out with counters := v.2 }.countStale := by
  unfold reconfirmSector
  change Except.bind _ _ = _
  congr 1
  funext v
  obtain ⟨roots, counters⟩ := v
  cases roots with
  | none => rfl
  | some roots =>
      obtain ⟨ext, csum⟩ := roots
      dsimp only [BtrfsReconfirmer.verdict]
      rw [UInt64.ofNat_toNat, freshMismatch_stands hscanned]
      change Except.bind (reconfirmMismatch (rc.during moment).reader rc.chunkMap ext csum
        entry.logical entry.csum rc.strategy.hashLen rc.strategy.sectorSize) _ =
          Except.map _ (reconfirmMismatch (rc.during moment).reader rc.chunkMap ext csum
            entry.logical entry.csum rc.strategy.hashLen rc.strategy.sectorSize)
      cases reconfirmMismatch (rc.during moment).reader rc.chunkMap ext csum entry.logical entry.csum
          rc.strategy.hashLen rc.strategy.sectorSize with
      | error e => rfl
      | ok verdict => cases verdict <;> rfl

theorem reconfirmSector_stats {actual : Bytes}
    (hscanned : rc.strategy.compute (moment.image.sector rc.config (dext.physOf entry.logical)
      rc.strategy.sectorSize.toNat) ≠ entry.csum)
    (h : reconfirmSector (rc.scrub moment false limit hlimit) dext entry actual out = .ok out') :
    ∃ roots verdict, rc.liveRoots moment = .ok roots ∧
      (rc.during moment).verdict ⟨entry.logical.toNat, entry.csum⟩ roots = .ok verdict ∧
        out'.stats = plainStats roots verdict out.stats := by
  have hlive : Prod.fst <$> liveDataTreeRoots rc.strategy.crates (rc.during moment).reopen
      (rc.during moment).reader rc.chunkMap rc.config.baseOffset out.counters = rc.liveRoots moment :=
    liveDataTreeRoots_fst out.counters
  rw [reconfirmSector_eq hscanned] at h
  cases hroots : liveDataTreeRoots rc.strategy.crates (rc.during moment).reopen
      (rc.during moment).reader rc.chunkMap rc.config.baseOffset out.counters with
  | error e =>
      rw [hroots] at h
      cases h
  | ok v =>
      rw [hroots] at h hlive
      obtain ⟨roots, counters⟩ := v
      cases roots with
      | none =>
          cases h
          exact ⟨none, .unverifiable, hlive.symm, rfl, rfl⟩
      | some roots =>
          dsimp only [Except.bind] at h
          cases hverdict : (rc.during moment).verdict ⟨entry.logical.toNat, entry.csum⟩
              (some roots) with
          | error e =>
              rw [hverdict] at h
              cases h
          | ok verdict =>
              rw [hverdict] at h
              refine ⟨some roots, verdict, hlive.symm, hverdict, ?_⟩
              cases verdict <;> cases h <;> rfl

/-- A mismatch that a scrub read. -/
theorem processSector_stats {actual : Bytes}
    (hscanned : actual = rc.strategy.compute (moment.image.sector rc.config
      (dext.physOf entry.logical) rc.strategy.sectorSize.toNat))
    (hdiffers : actual ≠ entry.csum)
    (h : processSector (rc.scrub moment false limit hlimit) dext out (entry, actual) = .ok out') :
    ∃ roots verdict, rc.liveRoots moment = .ok roots ∧
      (rc.during moment).verdict ⟨entry.logical.toNat, entry.csum⟩ roots = .ok verdict ∧
        out'.stats = plainStats roots verdict
          (out.countChecked (rc.scrub moment false limit hlimit).sz).stats := by
  unfold processSector at h
  have hplain : (rc.scrub moment false limit hlimit).batch ≠ true := nofun
  dsimp only at h
  rw [if_neg hdiffers, if_neg hplain] at h
  exact reconfirmSector_stats (hscanned ▸ hdiffers) h

/-- Where roots and verdict are found, the sector is counted. -/
theorem processSector_returns {actual : Bytes} {roots : Option (UInt64 × UInt64)}
    {verdict : Reconfirm}
    (hscanned : actual = rc.strategy.compute (moment.image.sector rc.config
      (dext.physOf entry.logical) rc.strategy.sectorSize.toNat))
    (hdiffers : actual ≠ entry.csum) (hroots : rc.liveRoots moment = .ok roots)
    (hverdict : (rc.during moment).verdict ⟨entry.logical.toNat, entry.csum⟩ roots = .ok verdict)
    (out : ScrubOut) : ∃ out',
      processSector (rc.scrub moment false limit hlimit) dext out (entry, actual) = .ok out' := by
  have hplain : (rc.scrub moment false limit hlimit).batch ≠ true := nofun
  unfold processSector
  dsimp only
  rw [if_neg hdiffers, if_neg hplain, reconfirmSector_eq (hscanned ▸ hdiffers)]
  have hlive : Prod.fst <$> liveDataTreeRoots rc.strategy.crates (rc.during moment).reopen
      (rc.during moment).reader rc.chunkMap rc.config.baseOffset
        (out.countChecked (rc.scrub moment false limit hlimit).sz).counters = rc.liveRoots moment :=
    liveDataTreeRoots_fst _
  rw [hroots] at hlive
  cases hfound : liveDataTreeRoots rc.strategy.crates (rc.during moment).reopen
      (rc.during moment).reader rc.chunkMap rc.config.baseOffset
        (out.countChecked (rc.scrub moment false limit hlimit).sz).counters with
  | error e =>
      rw [hfound] at hlive
      cases hlive
  | ok v =>
      rw [hfound] at hlive
      obtain rfl : v.1 = roots := Except.ok.inj hlive
      dsimp only [Except.bind]
      cases hsome : v.1 with
      | none => exact ⟨_, rfl⟩
      | some found =>
          rw [hsome] at hverdict
          dsimp only
          rw [hverdict]
          exact ⟨_, rfl⟩

/-- Corruption is counted as a mismatch. -/
theorem processSector_corrupt {actual : Bytes} {roots : UInt64 × UInt64}
    (hscanned : actual = rc.strategy.compute (moment.image.sector rc.config
      (dext.physOf entry.logical) rc.strategy.sectorSize.toNat))
    (hdiffers : actual ≠ entry.csum) (hroots : rc.liveRoots moment = .ok (some roots))
    (hverdict : (rc.during moment).verdict ⟨entry.logical.toNat, entry.csum⟩ (some roots) =
      .ok .corruption) (out : ScrubOut) : ∃ out',
      processSector (rc.scrub moment false limit hlimit) dext out (entry, actual) = .ok out' ∧
        out'.stats.sectorsMismatch = out.stats.sectorsMismatch + 1 := by
  obtain ⟨out', hout⟩ := processSector_returns hscanned hdiffers hroots hverdict out
  obtain ⟨roots', verdict, hroots', hjudged, hstats⟩ := processSector_stats hscanned hdiffers hout
  obtain rfl := Except.ok.inj (hroots.symm.trans hroots')
  obtain rfl := Except.ok.inj (hverdict.symm.trans hjudged)
  exact ⟨out', hout, congrArg ScrubStats.sectorsMismatch hstats⟩

theorem processSector_raw {actual : Bytes} (hdiffers : actual ≠ entry.csum) :
    processSector (rc.scrub moment true limit hlimit) dext out (entry, actual) =
      .ok ((out.countChecked (rc.scrub moment true limit hlimit).sz).emit
        (sectorResult dext entry actual false)) := by
  unfold processSector
  have hraw : (rc.scrub moment true limit hlimit).batch = true := rfl
  dsimp only
  rw [if_neg hdiffers, if_pos hraw]
  rfl

theorem processSector_emits {actual : Bytes} (hdiffers : actual ≠ entry.csum) (out : ScrubOut) :
    ∃ out', processSector (rc.scrub moment true limit hlimit) dext out (entry, actual) = .ok out' ∧
      out'.events = out.events ++ [sectorResult dext entry actual false] :=
  ⟨_, processSector_raw hdiffers, rfl⟩

end Plain
end Rotshield.Btrfs

namespace Rotshield.BatchRecover
open DiskArray (readBlockOrZeros)

/-! ### In the writer -/

section Writer
variable {σ : Type} {env : WriterEnv σ} {args : WriterArgs} {cand : Candidate} {st : WriterState σ}

/-- The stage of a mismatch whose bytes still do not verify. -/
def stageOf : Reconfirm → Stage
  | .stale => .stale
  | .unverifiable => .skipped
  | .corruption => .mismatch

theorem attempt_run {α : Type} {x : ExceptT IoError (StateM σ) α} {got : Except IoError α} {w : σ}
    (h : x st.world = (got, w)) : attempt x st = (.ok got, { st with world := w }) := by
  have hrun : attempt x st = (.ok (x st.world).1, { st with world := (x st.world).2 }) := rfl
  rw [hrun, h]

theorem rereadFailing_run (hread : cand.unreadable = false)
    (hraw : ∀ w block w', readBlockOrZeros env.io args.cfg cand.failingDev cand.arrayPhys
      cand.blockSize w = (.ok block, w') → cand.verify block.toList = false) :
    ∃ block unreadable st', rereadFailing env args cand st = (.ok (.corrupt block unreadable), st') ∧
      st'.books.stats = st.books.stats := by
  unfold rereadFailing
  rw [if_neg (by rw [hread]; exact Bool.false_ne_true)]
  cases hgot : readBlockOrZeros env.io args.cfg cand.failingDev cand.arrayPhys cand.blockSize
      st.world with
  | mk got w =>
      rw [Lib.bind_of_ok (attempt_run hgot)]
      cases got with
      | error e => exact ⟨_, _, _, rfl, rfl⟩
      | ok block =>
          have hfails := hraw _ _ _ hgot
          have hkept : (if cand.verify block.toList then .stale else .corrupt block false :
              Confirmed cand.blockSize) = .corrupt block false := by
            rw [hfails]
            rfl
          exact ⟨block, false, _, Prod.ext (congrArg Except.ok hkept) rfl, rfl⟩

/-- What a verdict makes of a mismatch, where the bytes read now do not verify either. -/
def Judged {n : Nat} : Reconfirm → Confirmed n → Prop
  | .stale, result => result = .stale
  | .unverifiable, result => result = .skipped
  | .corruption, result => ∃ block unreadable, result = .corrupt block unreadable

/-- Re-confirmation and the fresh read count nothing. -/
theorem confirm_run {req : ReconfirmRequest} {verdict : Reconfirm} {w : σ}
    (hreq : cand.reconfirm = some req) (hverdict : env.reconfirm req st.world = (verdict, w))
    (hread : cand.unreadable = false)
    (hraw : ∀ w block w', readBlockOrZeros env.io args.cfg cand.failingDev cand.arrayPhys
      cand.blockSize w = (.ok block, w') → cand.verify block.toList = false) :
    ∃ result st', confirm env args cand st = (.ok result, st') ∧
      st'.books.stats = st.books.stats ∧ Judged verdict result := by
  have hask : verdictOf env cand st =
      (.ok verdict, ⟨w, st.books.note (.reconfirm req verdict)⟩) := by
    have hrun : verdictOf env cand st = (.ok (env.reconfirm req st.world).1,
        ⟨(env.reconfirm req st.world).2,
          st.books.note (.reconfirm req (env.reconfirm req st.world).1)⟩) := by
      unfold verdictOf
      rw [hreq]
      rfl
    rw [hrun, hverdict]
  unfold confirm
  rw [Lib.bind_of_ok hask]
  cases verdict with
  | stale => exact ⟨_, _, rfl, rfl, rfl⟩
  | unverifiable => exact ⟨_, _, rfl, rfl, rfl⟩
  | corruption =>
      obtain ⟨block, unreadable, st', hrun, hstats⟩ := rereadFailing_run hread hraw
      exact ⟨_, st', hrun, hstats, block, unreadable, rfl⟩

/-- Recovery counts no stage. -/
theorem recover_stats (env : WriterEnv σ) (args : WriterArgs) (live allowed : Bool)
    (cand : Candidate) (block : Vector UInt8 cand.blockSize) (unreadable : Bool) (s : BatchStats) :
    Spec (fun b => b.stats = s) (recover env args live allowed cand block unreadable)
      (fun _ b => b.stats = s) (fun _ b => b.stats = s) :=
  have hwrite : ∀ (b : Books) (bytes : Vector UInt8 cand.blockSize), b.stats = s →
      (b.note (.write cand.failingDev cand.arrayPhys bytes.toList)).stats = s := fun _ _ h => h
  spec_recover (fun _ _ h => h) (fun _ _ h => h) (fun b bytes h _ _ _ => hwrite b bytes h)
    (fun _ h => h) fun _ _ h => h

/-- One candidate was counted in this stage. -/
structure Staged (before : BatchStats) (stage : Stage) (after : BatchStats) : Prop where
  stale : after.stale = (before.countStage stage).stale
  mismatch : after.mismatch = (before.countStage stage).mismatch
  skipped : after.skipped = (before.countStage stage).skipped

theorem staged_settle {before : BatchStats} (stage : Stage) (outcome : Outcome) :
    Staged before stage ((before.countStage stage).countOutcome outcome) := by
  cases outcome <;> exact ⟨rfl, rfl, rfl⟩

/-- A mismatch is counted before its recovery starts, however that ends. -/
theorem settle_staged (env : WriterEnv σ) (args : WriterArgs) (live allowed : Bool)
    (cand : Candidate) (block : Vector UInt8 cand.blockSize) (unreadable : Bool)
    (before : BatchStats) :
    Spec (fun b => b.stats = before) (do
        onBooks (·.classify cand.arrayPhys .mismatch)
        let outcome ← recover env args live allowed cand block unreadable
        onBooks (·.settle cand.arrayPhys outcome))
      (fun _ b => Staged before .mismatch b.stats) (fun _ b => Staged before .mismatch b.stats) := by
  have hcounted : ∀ b : Books, b.stats = before.countStage .mismatch →
      Staged before .mismatch b.stats := by
    intro b hb
    rw [hb]
    exact ⟨rfl, rfl, rfl⟩
  refine Spec.bind (fun _ b => b.stats = before.countStage .mismatch) ?_ fun _ => ?_
  · exact Spec.onBooks fun b hb => congrArg (BatchStats.countStage · .mismatch) hb
  · refine Spec.bind (fun _ b => b.stats = before.countStage .mismatch) ?_ fun outcome => ?_
    · intro s hs
      have hend := recover_stats env args live allowed cand block unreadable _ s hs
      split
      case h_1 a s' hrun =>
          rw [hrun] at hend
          exact hend
      case h_2 e s' hrun =>
          rw [hrun] at hend
          exact hcounted _ hend
    · refine Spec.onBooks fun b hb => ?_
      have hsettled : (b.settle cand.arrayPhys outcome).stats =
          (before.countStage .mismatch).countOutcome outcome :=
        congrArg (BatchStats.countOutcome · outcome) hb
      rw [hsettled]
      exact staged_settle _ _

/-- One round counts the stage of its verdict. -/
theorem processCandidate_staged {req : ReconfirmRequest} {verdict : Reconfirm} {w : σ}
    (live allowed : Bool) (hreq : cand.reconfirm = some req)
    (hverdict : env.reconfirm req st.world = (verdict, w)) (hread : cand.unreadable = false)
    (hraw : ∀ w block w', readBlockOrZeros env.io args.cfg cand.failingDev cand.arrayPhys
      cand.blockSize w = (.ok block, w') → cand.verify block.toList = false) :
    Staged st.books.stats (stageOf verdict)
      ((processCandidate env args live allowed cand).run.run st).2.books.stats := by
  let taken : WriterState σ := { st with books := st.books.note (.take cand) }
  have htaken : onBooks (·.note (.take cand)) st = (.ok (), taken) := rfl
  have hjudged : ∃ result st', confirm env args cand taken = (.ok result, st') ∧
      st'.books.stats = st.books.stats ∧ Judged verdict result :=
    confirm_run hreq hverdict hread hraw
  obtain ⟨result, st', hconfirm, hstats, hresult⟩ := hjudged
  change Staged _ _ (processCandidate env args live allowed cand st).2.books.stats
  unfold processCandidate
  rw [Lib.bind_of_ok htaken, Lib.bind_of_ok hconfirm, ← hstats]
  cases verdict with
  | stale =>
      obtain rfl := hresult
      exact ⟨rfl, rfl, rfl⟩
  | unverifiable =>
      obtain rfl := hresult
      exact ⟨rfl, rfl, rfl⟩
  | corruption =>
      obtain ⟨block, unreadable, rfl⟩ := hresult
      exact (settle_staged env args live allowed cand block unreadable _).run_state
        (fun _ _ h => h) rfl

end Writer
end Rotshield.BatchRecover

namespace Rotshield.Main
open BatchRecover (BatchStats Candidate WriterEnv WriterArgs WriterState processCandidate Staged stageOf)
open Btrfs (Moment ReconfirmerConfig ReconfirmerState CsumEntry DevExtent ScrubOut)
open DiskArray (readBlockOrZeros)

/-! ### Both -/

variable {σ : Type}

/-- The writer's re-confirmation is the reconfirmer's, on the file as it is at a moment. -/
def Reconfirms (env : WriterEnv σ) (stateOf : σ → ReconfirmerState) (rc : ReconfirmerConfig)
    (moment : Moment) : Prop :=
  ∀ req w v, (rc.during moment).reconfirm req (stateOf w) = .ok v →
    (env.reconfirm req w).1 = v.1 ∧ stateOf (env.reconfirm req w).2 = v.2

/-- The writer gets the verdict of the moment, whatever is cached. -/
theorem Reconfirms.answers {env : WriterEnv σ} {stateOf : σ → ReconfirmerState}
    {rc : ReconfirmerConfig} {moment : Moment} {reqs : List ReconfirmRequest}
    {counters : Btrfs.Counters} {world : σ} {req : ReconfirmRequest} {verdict : Reconfirm}
    (h : Reconfirms env stateOf rc moment)
    (hcalls : rc.calls (reqs.map fun req => (moment, req)) (.new counters) = .ok (stateOf world))
    (hjudge : rc.judge moment req = .ok verdict) : ∃ w, env.reconfirm req world = (verdict, w) := by
  have hfst := (Btrfs.reconfirm_judge hcalls).trans hjudge
  cases hrun : (rc.during moment).reconfirm req (stateOf world) with
  | error e =>
      rw [hrun] at hfst
      cases hfst
  | ok v =>
      rw [hrun] at hfst
      have hv : v.1 = verdict := Except.ok.inj hfst
      exact ⟨_, Prod.ext ((h _ _ _ hrun).1.trans hv) rfl⟩

/-- One mismatch is counted the same way by a plain scrub and by the writer; what cannot be verified
is churn to neither and blocks success in both. -/
structure SameCount (verdict : Exec Reconfirm) (before after : Btrfs.ScrubStats)
    (batch batch' : BatchStats) : Prop where
  stale : after.sectorsStale = before.sectorsStale + 1 ↔ batch'.stale = batch.stale + 1
  mismatch : after.sectorsMismatch = before.sectorsMismatch + 1 ↔
    batch'.mismatch = batch.mismatch + 1
  unverifiable : verdict = .ok .unverifiable →
    (after.sectorsStale = before.sectorsStale ∧ batch'.stale = batch.stale) ∧
      (∀ metadata, issuesFound (totals after metadata) {} = true) ∧
        ∀ stats, issuesFound stats batch' = true

theorem candidate_fields {driver : Driver} {ev : ScrubEvent} {cand : Candidate}
    (hmade : driver.candidate ev = some cand) :
    ev.verify = some cand.verify ∧ cand.reconfirm = ev.reconfirm ∧ cand.unreadable = ev.unreadable := by
  unfold Driver.candidate at hmade
  cases hattached : driver.attached <;> cases hcfg : driver.cfg <;>
    simp [hattached, hcfg, Option.bind_eq_some_iff] at hmade
  obtain ⟨verify, hverify, dev, -, phys, -, rfl⟩ := hmade
  exact ⟨hverify, rfl, rfl⟩

theorem verifiable_iff {rc : ReconfirmerConfig} {moment : Moment} {logical : UInt64} {stored : Bytes} :
    rc.Verifiable moment logical ↔ ∀ ext csum, rc.liveRoots moment = .ok (some (ext, csum)) →
      (rc.during moment).verdict ⟨logical.toNat, stored⟩ (some (ext, csum)) ≠ .ok .unverifiable := by
  have hverdict : ∀ ext csum, (rc.during moment).verdict ⟨logical.toNat, stored⟩ (some (ext, csum)) ≠
      .ok .unverifiable ↔
        ¬Btrfs.OutOfLevels (rc.during moment).reader rc.chunkMap ext csum logical
            rc.strategy.sectorSize ∧
          ∀ a, Btrfs.Reads (rc.during moment).reader rc.chunkMap ext csum logical
            rc.strategy.sectorSize a → ¬Btrfs.Unreadable (rc.during moment).reader rc.chunkMap a := by
    intro ext csum
    unfold Btrfs.BtrfsReconfirmer.verdict
    rw [UInt64.ofNat_toNat]
    have hiff : Btrfs.reconfirmMismatch (rc.during moment).reader rc.chunkMap ext csum logical stored
        rc.strategy.hashLen rc.strategy.sectorSize = .ok .unverifiable ↔ _ :=
      Btrfs.reconfirmMismatch_unverifiable_iff
    refine (not_congr hiff).trans ?_
    rw [not_or, not_exists, and_comm]
    simp only [not_and]
  unfold ReconfirmerConfig.Verifiable
  simp only [hverdict]

/-- Without roots the verdict is Unverifiable, and both count an issue. -/
theorem sameCount_iff {verdict : Reconfirm} {roots : Option (UInt64 × UInt64)}
    {stats : Btrfs.ScrubStats} {batch batch' : BatchStats}
    (hnone : roots = none → verdict = .unverifiable)
    (hstaged : Staged batch (stageOf verdict) batch') :
    SameCount (.ok verdict) stats (Btrfs.plainStats roots verdict stats) batch batch' ↔
      (roots.isSome → verdict ≠ .unverifiable) := by
  obtain ⟨hstale, hmismatch, hskipped⟩ := hstaged
  have hkept : ∀ n : Nat, n ≠ n + 1 := fun n => Nat.ne_of_lt (Nat.lt_succ_self n)
  cases roots with
  | none =>
      obtain rfl := hnone rfl
      have hblocks : 0 < batch'.skipped := by
        rw [hskipped]
        exact Nat.succ_pos _
      refine iff_of_true ⟨?_, ?_, fun _ => ⟨⟨rfl, hstale⟩, ?_, ?_⟩⟩ (by rintro ⟨⟩)
      · exact iff_of_false (hkept _) (by rw [hstale]; exact hkept _)
      · exact iff_of_false (hkept _) (by rw [hmismatch]; exact hkept _)
      · intro metadata
        simp [issuesFound, totals, Btrfs.plainStats]
      · intro totals
        simp [issuesFound, hblocks]
  | some roots =>
      cases verdict with
      | stale =>
          refine iff_of_true ⟨iff_of_true rfl hstale, ?_, by rintro ⟨⟩⟩ (by rintro - ⟨⟩)
          exact iff_of_false (hkept _) (by rw [hmismatch]; exact hkept _)
      | corruption =>
          refine iff_of_true ⟨?_, iff_of_true rfl hmismatch, by rintro ⟨⟩⟩ (by rintro - ⟨⟩)
          exact iff_of_false (hkept _) (by rw [hstale]; exact hkept _)
      | unverifiable =>
          refine iff_of_false ?_ (fun h => h rfl rfl)
          intro hsame
          have hcounted := hsame.stale.mp rfl
          rw [hstale] at hcounted
          exact hkept _ hcounted

/-- A mismatch is counted the same way in both modes exactly where the extent- and the csum-tree
nodes that judge it can be read: a plain scrub counts what cannot be verified as churn. -/
theorem sameCount_iff_verifiable {env : WriterEnv σ} {args : WriterArgs} {live allowed : Bool}
    {driver : Driver} {rc : ReconfirmerConfig} {moment : Moment} {limit : Nat} {hlimit : 0 < limit}
    {dext : DevExtent} {entry : CsumEntry} {actual : Bytes} {out out' raw raw' : ScrubOut}
    {r : Btrfs.SectorResult} {cand : Candidate} {stateOf : σ → ReconfirmerState}
    {reqs : List ReconfirmRequest} {counters : Btrfs.Counters} {st : WriterState σ}
    (hscanned : actual = rc.strategy.compute (moment.image.sector rc.config
      (dext.physOf entry.logical) rc.strategy.sectorSize.toNat))
    (hdiffers : actual ≠ entry.csum)
    (hplain : Btrfs.processSector (rc.scrub moment false limit hlimit) dext out (entry, actual) =
      .ok out')
    (hbatch : Btrfs.processSector (rc.scrub moment true limit hlimit) dext raw (entry, actual) =
      .ok raw')
    (hemitted : raw'.events = raw.events ++ [r])
    (hmade : driver.candidate (scrubEvent rc.strategy r) = some cand)
    (hreconfirms : Reconfirms env stateOf rc moment)
    (hcalls : rc.calls (reqs.map fun req => (moment, req)) (.new counters) = .ok (stateOf st.world))
    (hraw : ∀ w block w', readBlockOrZeros env.io args.cfg cand.failingDev cand.arrayPhys
      cand.blockSize w = (.ok block, w') → block.toList = moment.image.sector rc.config
        (dext.physOf entry.logical) rc.strategy.sectorSize.toNat) :
    SameCount (rc.judge moment ⟨entry.logical.toNat, entry.csum⟩) out.stats out'.stats
        st.books.stats ((processCandidate env args live allowed cand).run.run st).2.books.stats ↔
      rc.Verifiable moment entry.logical := by
  have hr : r = Btrfs.sectorResult dext entry actual false := by
    rw [Btrfs.processSector_raw hdiffers] at hbatch
    cases hbatch
    exact (List.singleton_inj.mp (List.append_cancel_left hemitted)).symm
  subst hr
  obtain ⟨hverify, hreq, hunread⟩ := candidate_fields hmade
  obtain ⟨roots, verdict, hroots, hverdict, hstats⟩ :=
    Btrfs.processSector_stats hscanned hdiffers hplain
  have hjudge : rc.judge moment ⟨entry.logical.toNat, entry.csum⟩ = .ok verdict :=
    (Btrfs.judge_of_roots hroots).trans hverdict
  have hnone : roots = none → verdict = .unverifiable := by
    rintro rfl
    cases hverdict
    rfl
  obtain ⟨w, hanswer⟩ := hreconfirms.answers hcalls hjudge
  have hfails : ∀ w block w', readBlockOrZeros env.io args.cfg cand.failingDev cand.arrayPhys
      cand.blockSize w = (.ok block, w') → cand.verify block.toList = false := by
    intro w block w' hread
    have hsum : cand.verify = fun b => rc.strategy.compute b == entry.csum :=
      (Option.some.inj hverify).symm
    rw [hraw _ _ _ hread, hsum]
    dsimp only
    rw [← hscanned]
    exact beq_eq_false_iff_ne.mpr hdiffers
  have hstaged : Staged st.books.stats (stageOf verdict)
      ((processCandidate env args live allowed cand).run.run st).2.books.stats :=
    BatchRecover.processCandidate_staged live allowed hreq hanswer hunread hfails
  have hbefore : SameCount (rc.judge moment ⟨entry.logical.toNat, entry.csum⟩) out.stats out'.stats
      st.books.stats ((processCandidate env args live allowed cand).run.run st).2.books.stats ↔
        SameCount (.ok verdict) (out.countChecked (rc.scrub moment false limit hlimit).sz).stats
          out'.stats st.books.stats
            ((processCandidate env args live allowed cand).run.run st).2.books.stats := by
    rw [hjudge]
    exact ⟨fun h => ⟨h.stale, h.mismatch, h.unverifiable⟩,
      fun h => ⟨h.stale, h.mismatch, h.unverifiable⟩⟩
  rw [hbefore, hstats, sameCount_iff hnone hstaged, verifiable_iff]
  constructor
  · intro hverified ext csum hlive
    rw [hroots] at hlive
    cases hlive
    rw [hverdict]
    intro heq
    exact hverified rfl (Except.ok.inj heq)
  · intro hverified hsome heq
    obtain ⟨⟨ext, csum⟩, rfl⟩ := Option.isSome_iff_exists.mp hsome
    exact hverified ext csum hroots (hverdict.trans (congrArg Except.ok heq))

/-! ### An extent tree that cannot be read -/

namespace Crafted
open Btrfs.Crafted (strategy liveSuperblock liveLeaf changed)

/-- A superblock, the root tree and one sector of data. -/
def lostRegions : List (Nat × Bytes) :=
  [(0x10000, Btrfs.Superblock.encode strategy liveSuperblock), (0x20000, changed 100 3995 0x5A),
    (0x400000, liveLeaf.buf)]

/-- The extent tree's root, at 5 MiB, cannot be read. -/
def lost : Btrfs.Image :=
  .overwrite ⟨fun _ => 0, fun offset _ => if offset = 0x500000 then some .other else none⟩ lostRegions

theorem lostRegions_apart : Btrfs.Apart lostRegions := by
  have hsuper : (Btrfs.Superblock.encode strategy liveSuperblock).length = 4096 :=
    Btrfs.Superblock.encode_length Btrfs.Crafted.liveSuperblock_sized
  have hdata : (changed 100 3995 0x5A).length = 4096 := Btrfs.Crafted.changed_length 100 3995 0x5A
  unfold Btrfs.Apart lostRegions
  simp only [List.pairwise_cons, List.mem_cons, List.not_mem_nil, or_false, forall_eq_or_imp,
    forall_eq, hsuper, hdata, List.Pairwise.nil, IsEmpty.forall_iff, implies_true, and_true]
  decide

theorem lost_pread {offset : UInt64} {bytes : Bytes} (hr : (offset.toNat, bytes) ∈ lostRegions)
    (hlen : bytes.length = 4096) (hoffset : offset ≠ 0x500000) :
    lost.pread offset 4096 = .ok bytes := by
  rw [← hlen]
  exact Btrfs.pread_overwrite lostRegions_apart.separate hr (if_neg hoffset)

def lostReconfirmer : ReconfirmerConfig where
  config := Btrfs.Crafted.config
  chunkMap := Btrfs.Crafted.chunkMap
  strategy

def lostMoment : Moment := ⟨lost, .ok ()⟩

theorem lost_superblock :
    Btrfs.Superblock.read strategy.crates (lost.reader Btrfs.Crafted.config).pread 0 =
      .ok (.ok liveSuperblock) := by
  have hread : lost.pread (0 + Btrfs.superblockOffset) 4096 =
      .ok (Btrfs.Superblock.encode strategy liveSuperblock) :=
    lost_pread (List.mem_cons_self : ((0x10000 : UInt64).toNat, _) ∈ lostRegions)
      (Btrfs.Superblock.encode_length Btrfs.Crafted.liveSuperblock_sized) (by decide)
  exact Btrfs.Superblock.read_of_primary Btrfs.Crafted.liveSuperblock_sized rfl hread

theorem lost_rootTree : Btrfs.GoodNode (lost.reader Btrfs.Crafted.config) Btrfs.Crafted.chunkMap
    (.root liveSuperblock.root) (.leaf (Btrfs.Crafted.itemsLeaf
      (Btrfs.Crafted.header 0x400000 1 1 2 0) (Btrfs.Crafted.liveItems 0x500000 0x600000))) := by
  have hmem : ((0x400000 : UInt64).toNat, liveLeaf.buf) ∈ lostRegions :=
    List.mem_cons_of_mem _ (List.mem_cons_of_mem _ List.mem_cons_self)
  have hread : lost.pread 0x400000 4096 = .ok liveLeaf.buf :=
    lost_pread hmem Btrfs.Crafted.liveLeaf_length (by decide)
  exact Btrfs.Crafted.itemsLeaf_good (Btrfs.Crafted.header_sized 0x400000 1 1 2 0) rfl rfl (by decide)
    hread rfl

theorem lost_resolved (counters : Btrfs.Counters) : ∃ counters',
    Btrfs.resolveLiveTreeRoots (lost.reader Btrfs.Crafted.config) Btrfs.Crafted.chunkMap counters
      liveSuperblock = .ok (some (0x500000, 0x600000), counters') :=
  Btrfs.Crafted.resolve_items (Btrfs.Crafted.liveRootSlots_liveItems
    (Btrfs.Crafted.header_sized 0x400000 1 1 2 0) _ _) lost_rootTree counters

theorem lost_roots : lostReconfirmer.liveRoots lostMoment = .ok (some (0x500000, 0x600000)) := by
  obtain ⟨counters, hresolve⟩ := lost_resolved none
  exact Btrfs.liveRoots_of_reads lost_superblock hresolve

theorem lost_unverifiable (stored : Bytes) :
    (lostReconfirmer.during lostMoment).verdict ⟨0x20000, stored⟩ (some (0x500000, 0x600000)) =
      .ok .unverifiable := by
  have hfault : lost.pread 0x500000 4096 = .error .other := rfl
  have hnode : Btrfs.nodeAt (lost.reader Btrfs.Crafted.config) Btrfs.Crafted.chunkMap 0x500000 =
      .ok (.error .notFound) := by
    have hcopies : Btrfs.copiesOf lost Btrfs.Crafted.config Btrfs.Crafted.chunkMap 0x500000 =
        [.error .other] := rfl
    unfold Btrfs.nodeAt
    rw [Btrfs.readNode_eq rfl, hcopies]
    rfl
  have hvisit : Btrfs.visit (lost.reader Btrfs.Crafted.config) Btrfs.Crafted.chunkMap
      (Btrfs.extentTarget 0x20000) 0x500000 = .ok (.inl .unreadable) :=
    (Btrfs.visit_unreadable_iff _).mpr (.inl ⟨_, hnode⟩)
  have hextent : Btrfs.extentCovers (lost.reader Btrfs.Crafted.config) Btrfs.Crafted.chunkMap
      0x500000 0x20000 = .ok .unreadable := by
    rw [Btrfs.extentCovers_eq, Btrfs.maxDepth, Btrfs.descend_succ, hvisit]
    rfl
  exact Btrfs.reconfirmMismatch_unverifiable.mpr (.inl hextent)

def lostExtent : DevExtent where
  devid := 1
  physStart := 0x20000
  length := 0x10000
  chunkOffset := 0x20000

/-- The checksum of the sector before a byte of it changed. -/
def lostEntry : CsumEntry := ⟨0x20000, strategy.compute (changed 100 3995 0)⟩

theorem lost_sector : lostMoment.image.sector Btrfs.Crafted.config
    (lostExtent.physOf lostEntry.logical) 4096 = changed 100 3995 0x5A := by
  have hmem : ((0x20000 : UInt64).toNat, changed 100 3995 0x5A) ∈ lostRegions :=
    List.mem_cons_of_mem _ List.mem_cons_self
  have hread := lost_pread hmem (Btrfs.Crafted.changed_length 100 3995 0x5A) (by decide)
  have hsector : lost.pread 0x20000 4096 = .ok (lost.sector Btrfs.Crafted.config 0x20000 4096) := rfl
  exact Except.ok.inj (hsector.symm.trans hread)

/-- The raw disk holds the same bytes. -/
def lostEnv (moment : Moment) : WriterEnv ReconfirmerState where
  io :=
    { size := fun _ => pure 0x1000000
      readExact := fun _ raw _ => pure (Vector.ofFn fun i => moment.image.byte (raw + i))
      writeAll := fun _ _ _ => throw .other }
  freezePath _ := throw .other
  thawPath _ := throw .other
  now := pure 0
  reconfirm req := fun s => match (lostReconfirmer.during moment).reconfirm req s with
    | .ok v => v
    | .error _ => (.unverifiable, s)
  dropCache _ := throw .other
  isBlockDevice _ := pure false

theorem lostEnv_reconfirms (moment : Moment) :
    Reconfirms (lostEnv moment) id lostReconfirmer moment := by
  intro req w v h
  have hrun : (lostEnv moment).reconfirm req w = match (lostReconfirmer.during moment).reconfirm req w with
      | .ok v => v
      | .error _ => (.unverifiable, w) := rfl
  rw [hrun]
  unfold id at h
  rw [h]
  exact ⟨rfl, rfl⟩

def lostArgs : WriterArgs := { cfg := config, scrubSlot := 1, dryRun := false, freezeTimeout := 0 }

def lostDriver : Driver := ⟨some config, true, 1⟩

def lostCandidate : Candidate where
  arrayPhys := 0x20000
  blockSize := 4096
  verify b := strategy.compute b == lostEntry.csum
  rawPhys := 0x20000
  failingDev := "/dev/sdb"
  reconfirm := some ⟨0x20000, lostEntry.csum⟩
  unreadable := false

def lostEvent : Btrfs.SectorResult :=
  Btrfs.sectorResult lostExtent lostEntry (strategy.compute (changed 100 3995 0x5A)) false

theorem lostCandidate_made :
    lostDriver.candidate (scrubEvent strategy lostEvent) = some lostCandidate := rfl

theorem lostEnv_raw (moment : Moment) (w : ReconfirmerState) (block : Vector UInt8 4096)
    (w' : ReconfirmerState) (h : readBlockOrZeros (lostEnv moment).io lostArgs.cfg
      lostCandidate.failingDev lostCandidate.arrayPhys lostCandidate.blockSize w = (.ok block, w')) :
    block.toList = moment.image.sector Btrfs.Crafted.config
      (lostExtent.physOf lostEntry.logical) 4096 := by
  have hrun : readBlockOrZeros (lostEnv moment).io lostArgs.cfg lostCandidate.failingDev
      lostCandidate.arrayPhys lostCandidate.blockSize w =
        (.ok (DiskArray.zeroFill (Vector.ofFn fun i : Fin 4096 => moment.image.byte (0x20000 + i))
          4096), w) := rfl
  rw [hrun, DiskArray.zeroFill_self] at h
  obtain rfl := Except.ok.inj (congrArg Prod.fst h)
  apply List.ext_getElem
  · simp [Btrfs.Image.sector]
  · intro i hi hi'
    simp [Btrfs.Image.sector]
    rfl

theorem lost_scanned : strategy.compute (changed 100 3995 0x5A) =
    lostReconfirmer.strategy.compute (lostMoment.image.sector lostReconfirmer.config
      (lostExtent.physOf lostEntry.logical) lostReconfirmer.strategy.sectorSize.toNat) :=
  congrArg strategy.compute lost_sector.symm

theorem lost_differs : strategy.compute (changed 100 3995 0x5A) ≠ lostEntry.csum :=
  Btrfs.Crafted.compute_changed 100 3995 (by decide)

/-- The reconfirmer's state, before the first call. -/
def lostStart : WriterState ReconfirmerState := .start (.new none) none none

theorem lost_fails (w : ReconfirmerState) (block : Vector UInt8 4096) (w' : ReconfirmerState)
    (h : readBlockOrZeros (lostEnv lostMoment).io lostArgs.cfg lostCandidate.failingDev
      lostCandidate.arrayPhys lostCandidate.blockSize w = (.ok block, w')) :
    lostCandidate.verify block.toList = false := by
  rw [lostEnv_raw lostMoment w block w' h, lost_sector]
  exact beq_eq_false_iff_ne.mpr lost_differs

/-- A plain scrub counts the mismatch it cannot verify as churn; the writer skips it. -/
theorem lost_not_sameCount : ∃ out' raw',
    Btrfs.processSector (lostReconfirmer.scrub lostMoment false 64 (by decide)) lostExtent (.start none)
        (lostEntry, strategy.compute (changed 100 3995 0x5A)) = .ok out' ∧
      Btrfs.processSector (lostReconfirmer.scrub lostMoment true 64 (by decide)) lostExtent
        (.start none) (lostEntry, strategy.compute (changed 100 3995 0x5A)) = .ok raw' ∧
      raw'.events = [lostEvent] ∧
      lostDriver.candidate (scrubEvent strategy lostEvent) = some lostCandidate ∧
      ¬SameCount (lostReconfirmer.judge lostMoment ⟨lostEntry.logical.toNat, lostEntry.csum⟩)
        {} out'.stats {} ((processCandidate (lostEnv lostMoment) lostArgs false true
          lostCandidate).run.run lostStart).2.books.stats := by
  have hverdict : (lostReconfirmer.during lostMoment).verdict
      ⟨lostEntry.logical.toNat, lostEntry.csum⟩ (some (0x500000, 0x600000)) = .ok .unverifiable :=
    lost_unverifiable lostEntry.csum
  have hreturns : ∃ out', Btrfs.processSector (lostReconfirmer.scrub lostMoment false 64 (by decide))
      lostExtent (.start none) (lostEntry, strategy.compute (changed 100 3995 0x5A)) = .ok out' :=
    Btrfs.processSector_returns lost_scanned lost_differs lost_roots hverdict _
  have hemits : ∃ raw', Btrfs.processSector (lostReconfirmer.scrub lostMoment true 64 (by decide))
      lostExtent (.start none) (lostEntry, strategy.compute (changed 100 3995 0x5A)) = .ok raw' ∧
        raw'.events = [] ++ [lostEvent] :=
    Btrfs.processSector_emits lost_differs _
  obtain ⟨out', hplain⟩ := hreturns
  obtain ⟨raw', hraw, hevents⟩ := hemits
  refine ⟨out', raw', hplain, hraw, hevents, lostCandidate_made, ?_⟩
  obtain ⟨roots, verdict, hroots, hverdict', hstats⟩ :=
    Btrfs.processSector_stats lost_scanned lost_differs hplain
  obtain rfl := Except.ok.inj (lost_roots.symm.trans hroots)
  obtain rfl := Except.ok.inj (hverdict.symm.trans hverdict')
  intro hsame
  have hcounted := hsame.stale.mp (congrArg Btrfs.ScrubStats.sectorsStale hstats)
  have hjudge : lostReconfirmer.judge lostMoment ⟨lostEntry.logical.toNat, lostEntry.csum⟩ =
      .ok .unverifiable := (Btrfs.judge_of_roots lost_roots).trans hverdict
  have hcalls : lostReconfirmer.calls ([].map fun req => (lostMoment, req)) (.new none) =
      .ok (id lostStart.world) := rfl
  obtain ⟨w, hanswer⟩ := (lostEnv_reconfirms lostMoment).answers hcalls hjudge
  have hstaged : Staged lostStart.books.stats .skipped ((processCandidate (lostEnv lostMoment) lostArgs
      false true lostCandidate).run.run lostStart).2.books.stats :=
    BatchRecover.processCandidate_staged false true rfl hanswer rfl lost_fails
  rw [hstaged.stale] at hcounted
  cases hcounted

/-! Trees that can be read, and a sector in use whose checksum still stands. -/

theorem lostEntry_csum : lostEntry.csum.length = 4 := Btrfs.compute_length strategy _

def usedMoment : Moment where
  image := Btrfs.Crafted.commitImage liveSuperblock (changed 100 3995 0x5A) lostEntry.csum
  reopens := .ok ()

theorem used_sector : usedMoment.image.sector Btrfs.Crafted.config
    (lostExtent.physOf lostEntry.logical) 4096 = changed 100 3995 0x5A := by
  have hread : usedMoment.image.pread 0x20000 4096 = .ok (changed 100 3995 0x5A) :=
    Btrfs.Crafted.commitImage_pread Btrfs.Crafted.liveSuperblock_sized
      (Btrfs.Crafted.changed_length 100 3995 0x5A) (.tail _ (.head _))
      (Btrfs.Crafted.changed_length 100 3995 0x5A)
  have hsector : usedMoment.image.pread 0x20000 4096 =
      .ok (usedMoment.image.sector Btrfs.Crafted.config 0x20000 4096) := rfl
  exact Except.ok.inj (hsector.symm.trans hread)

theorem used_roots : lostReconfirmer.liveRoots usedMoment = .ok (some (0x500000, 0x600000)) := by
  obtain ⟨counters, hresolve⟩ := Btrfs.Crafted.live_roots Btrfs.Crafted.liveSuperblock_sized
    (Btrfs.Crafted.changed_length 100 3995 0x5A) none
  exact Btrfs.liveRoots_of_reads (Btrfs.Crafted.commit_superblock Btrfs.Crafted.liveSuperblock_sized
    (Btrfs.Crafted.changed_length 100 3995 0x5A) rfl) hresolve

theorem used_verdict : (lostReconfirmer.during usedMoment).verdict ⟨0x20000, lostEntry.csum⟩
    (some (0x500000, 0x600000)) = .ok .corruption :=
  Btrfs.Crafted.live_verdict Btrfs.Crafted.liveSuperblock_sized
    (Btrfs.Crafted.changed_length 100 3995 0x5A) lostEntry_csum

theorem used_judged : lostReconfirmer.judge usedMoment ⟨lostEntry.logical.toNat, lostEntry.csum⟩ =
    .ok .corruption :=
  (Btrfs.judge_of_roots used_roots).trans used_verdict

theorem used_verifiable : lostReconfirmer.Verifiable usedMoment lostEntry.logical := by
  have hiff : lostReconfirmer.Verifiable usedMoment lostEntry.logical ↔ ∀ ext csum,
      lostReconfirmer.liveRoots usedMoment = .ok (some (ext, csum)) →
        (lostReconfirmer.during usedMoment).verdict ⟨lostEntry.logical.toNat, lostEntry.csum⟩
          (some (ext, csum)) ≠ .ok .unverifiable := verifiable_iff
  refine hiff.mpr fun ext csum hroots hverdict => ?_
  obtain ⟨rfl, rfl⟩ := Prod.mk.inj (Option.some.inj (Except.ok.inj (used_roots.symm.trans hroots)))
  cases used_verdict.symm.trans hverdict

theorem used_scanned : strategy.compute (changed 100 3995 0x5A) =
    lostReconfirmer.strategy.compute (usedMoment.image.sector lostReconfirmer.config
      (lostExtent.physOf lostEntry.logical) lostReconfirmer.strategy.sectorSize.toNat) :=
  congrArg strategy.compute used_sector.symm

/-- Corruption to both: one mismatch each. -/
theorem sameCount_iff_verifiable_used : ∃ out',
    Btrfs.processSector (lostReconfirmer.scrub usedMoment false 64 (by decide)) lostExtent
        (.start none) (lostEntry, strategy.compute (changed 100 3995 0x5A)) = .ok out' ∧
      lostReconfirmer.judge usedMoment ⟨lostEntry.logical.toNat, lostEntry.csum⟩ =
        .ok .corruption ∧
      lostReconfirmer.Verifiable usedMoment lostEntry.logical ∧
      SameCount (lostReconfirmer.judge usedMoment ⟨lostEntry.logical.toNat, lostEntry.csum⟩)
        {} out'.stats {} ((processCandidate (lostEnv usedMoment) lostArgs false true
          lostCandidate).run.run lostStart).2.books.stats := by
  have hreturns : ∃ out', Btrfs.processSector (lostReconfirmer.scrub usedMoment false 64 (by decide))
      lostExtent (.start none) (lostEntry, strategy.compute (changed 100 3995 0x5A)) = .ok out' :=
    Btrfs.processSector_returns used_scanned lost_differs used_roots used_verdict _
  have hemits : ∃ raw', Btrfs.processSector (lostReconfirmer.scrub usedMoment true 64 (by decide))
      lostExtent (.start none) (lostEntry, strategy.compute (changed 100 3995 0x5A)) = .ok raw' ∧
        raw'.events = [] ++ [lostEvent] :=
    Btrfs.processSector_emits lost_differs _
  obtain ⟨out', hplain⟩ := hreturns
  obtain ⟨raw', hraw, hevents⟩ := hemits
  have hcalls : lostReconfirmer.calls ([].map fun req => (usedMoment, req)) (.new none) =
      .ok (id lostStart.world) := rfl
  have hiff : SameCount (lostReconfirmer.judge usedMoment ⟨lostEntry.logical.toNat, lostEntry.csum⟩)
      (Btrfs.ScrubOut.start none).stats out'.stats lostStart.books.stats
        ((processCandidate (lostEnv usedMoment) lostArgs false true lostCandidate).run.run
          lostStart).2.books.stats ↔ lostReconfirmer.Verifiable usedMoment lostEntry.logical :=
    sameCount_iff_verifiable used_scanned lost_differs hplain hraw hevents lostCandidate_made
      (lostEnv_reconfirms usedMoment) hcalls (lostEnv_raw usedMoment)
  exact ⟨out', hplain, used_judged, used_verifiable, hiff.mpr used_verifiable⟩

end Crafted
end Rotshield.Main
