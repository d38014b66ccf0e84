import Rotshield.BatchRecover.Evidence
import Rotshield.Main.CleanExit
import Rotshield.Recovery.Search

/-! What a run with a pipeline writes, and what its exit code says: both go back to the sectors the
scrub found. -/
namespace Rotshield.Main
open BatchRecover (BatchStats Candidate WriterEnv WriterArgs Pipeline Stage Outcome Event Held
  sinceTake currentCandidate)
open DiskArray (ArrayConfig)

section Sent
variable {σ : Type} {env : WriterEnv σ} {args : WriterArgs} {batchMax : Nat} {driver : Driver}
  {s : Run σ}

/-- Every candidate was made of an event. -/
theorem run_sent (h : (run env args batchMax driver).Reachable s) :
    ∀ c ∈ s.pipe.sent, ∃ ev ∈ s.emitted, driver.candidate ev = some c := by
  induction h with
  | init h =>
      obtain ⟨-, w, mountpoint, counters, hstart⟩ := h
      rw [hstart]
      exact nofun
  | step _ hstep ih =>
      have hmore {ev : ScrubEvent} {l : List ScrubEvent} {c : Candidate}
          (h : ∃ ev ∈ l, driver.candidate ev = some c) :
          ∃ ev' ∈ l ++ [ev], driver.candidate ev' = some c := by
        obtain ⟨ev', hmem, hc⟩ := h
        exact ⟨ev', List.mem_append_left _ hmem, hc⟩
      cases hstep with
      | @forward ev c made =>
          intro c' hc'
          rcases List.mem_append.mp hc' with hc' | hc'
          · exact hmore (ih c' hc')
          · obtain rfl := List.mem_singleton.mp hc'
            exact ⟨ev, List.mem_append_right _ (List.mem_singleton_self _), made⟩
      | refused => exact fun c hc => hmore (ih c hc)
      | ignored => exact fun c hc => hmore (ih c hc)
      | other _ sent =>
          intro c hc
          rw [sent] at hc
          exact ih c hc

/-- What the driver makes of an event. -/
structure MadeOf (cfg : ArrayConfig) (slot : Nat) (ev : ScrubEvent) (c : Candidate) : Prop where
  arrayPhys : c.arrayPhys = ev.arrayPhys
  blockSize : c.blockSize = ev.blockSize
  verify : ev.verify = some c.verify
  reconfirm : c.reconfirm = ev.reconfirm
  unreadable : c.unreadable = ev.unreadable
  failingDev : cfg.dataDev slot = some c.failingDev

theorem Driver.candidate_madeOf {cfg : ArrayConfig} (hcfg : driver.cfg = some cfg) {ev : ScrubEvent}
    {c : Candidate} (h : driver.candidate ev = some c) : MadeOf cfg driver.scrubSlot ev c := by
  unfold Driver.candidate at h
  rw [hcfg] at h
  split at h
  case isTrue => cases h
  case isFalse =>
      simp only [Option.pure_def, Option.bind_eq_bind, Option.bind_some, Option.bind_eq_some_iff,
        Option.some.injEq] at h
      obtain ⟨verify, hverify, failingDev, hdev, rawPhys, -, rfl⟩ := h
      exact ⟨rfl, rfl, hverify, rfl, rfl, hdev⟩

end Sent

section Program
variable {σ : Type} {m : Type → Type} [Monad m] [LawfulMonad m] [MonadExceptOf Halt m]
  [MonadAttach m] [LawfulMonadAttach m] {P : Type} {setup : Setup σ} {cfg : ArrayConfig}
  {ctx : Btrfs.ScrubContext m} {src : Btrfs.CsumSource m P} {depth : Nat} {p : P}
  {devExtents : List Btrfs.DevExtent} {counters : Btrfs.Counters} {threaded : Bool}
  {out : Btrfs.ScrubOut} {s : Run σ}

/-- The candidate is for a sector of the scrub, on the disk of the slot. -/
structure ForSector (setup : Setup σ) (cfg : ArrayConfig) (ctx : Btrfs.ScrubContext m)
    (src : Btrfs.CsumSource m P) (devExtents : List Btrfs.DevExtent) (out : Btrfs.ScrubOut)
    (c : Candidate) (dext : Btrfs.DevExtent) (entry : Btrfs.CsumEntry) : Prop where
  scanned : Btrfs.Scanned ctx src devExtents dext entry
  arrayPhys : c.arrayPhys = (dext.physOf entry.logical).toNat
  blockSize : c.blockSize = ctx.sz
  verify : ∀ b, c.verify b = true ↔ ctx.strategy.compute b = entry.csum
  reconfirm : c.reconfirm = some { token := entry.logical.toNat, storedCsum := entry.csum }
  failingDev : cfg.dataDev setup.slot = some c.failingDev
  unread : c.unreadable = true → ∃ r ∈ out.events, r.arrayPhys.toNat = c.arrayPhys ∧
    r.unreadable = true

/-- Every candidate of the run is for a sector of its scrub. -/
theorem sent_forSector (array : setup.cfg = some cfg)
    (scrub : Btrfs.ScrubReturns ctx src depth p devExtents counters threaded out)
    (reachable : (run setup.env setup.args setup.batchMax setup.driver).Reachable s)
    (emitted : s.emitted <+: out.events.map (scrubEvent ctx.strategy)) :
    ∀ c ∈ s.pipe.sent, ∃ dext entry, ForSector setup cfg ctx src devExtents out c dext entry := by
  intro c hc
  obtain ⟨ev, hev, hcandidate⟩ := run_sent reachable c hc
  have hcfg : setup.driver.cfg = some cfg := array
  have hmade := Driver.candidate_madeOf hcfg hcandidate
  obtain ⟨r, hr, rfl⟩ := List.mem_map.mp (emitted.subset hev)
  obtain ⟨dext, entry, actual, unreadable, hscanned, rfl, -⟩ := scrub.events r hr
  have hverify : c.verify = fun b => ctx.strategy.compute b == entry.csum :=
    (Option.some.inj hmade.verify).symm
  refine ⟨dext, entry, hscanned, hmade.arrayPhys, hmade.blockSize, fun b => ?_, hmade.reconfirm,
    hmade.failingDev, fun hunread => ?_⟩
  · rw [hverify]
    exact beq_iff_eq
  · exact ⟨_, hr, hmade.arrayPhys.symm, hmade.unreadable.symm.trans hunread⟩

/-- A write that gives a sector of the scrub bytes of its stored checksum, after the checks of its
own round: the live metadata stands by the checksum, and the sector was unreadable in the scrub or,
read once more, gave nothing of that checksum. -/
structure Restores (setup : Setup σ) (cfg : ArrayConfig) (ctx : Btrfs.ScrubContext m)
    (src : Btrfs.CsumSource m P) (devExtents : List Btrfs.DevExtent) (out : Btrfs.ScrubOut)
    (mountpoint : Option Path) (dev : Path) (arrayPhys : Nat) (data : Bytes) (older : List Event) :
    Prop where
  repair : setup.args.dryRun = false
  frozen : mountpoint = none ∨ Held older
  disk : cfg.dataDev setup.slot = some dev
  sector : ∃ dext entry, Btrfs.Scanned ctx src devExtents dext entry ∧
    arrayPhys = (dext.physOf entry.logical).toNat ∧ data.length = ctx.sz ∧
    ctx.strategy.compute data = entry.csum ∧
    .reconfirm { token := entry.logical.toNat, storedCsum := entry.csum } .corruption ∈
      sinceTake older ∧
    ((∃ r ∈ out.events, r.arrayPhys.toNat = arrayPhys ∧ r.unreadable = true) ∨
      ∃ got, .reread dev arrayPhys got ∈ sinceTake older ∧
        ∀ bytes, got = some bytes → ctx.strategy.compute bytes ≠ entry.csum)

omit [Monad m] [LawfulMonad m] [MonadExceptOf Halt m] [LawfulMonadAttach m] in
theorem restores_of_permitted (hsent : ∀ c ∈ s.pipe.sent, ∃ dext entry,
      ForSector setup cfg ctx src devExtents out c dext entry)
    {mountpoint : Option Path} {dev : Path} {arrayPhys : Nat} {data : Bytes} {older : List Event}
    (h : BatchRecover.Permitted setup.args mountpoint s.pipe.sent dev arrayPhys data older) :
    Restores setup cfg ctx src devExtents out mountpoint dev arrayPhys data older := by
  obtain ⟨hrepair, hfrozen, c, batch, -, -, -, hc, rfl, rfl, hlength, hverify, hasked, hread⟩ := h
  obtain ⟨dext, entry, hsector⟩ := hsent c hc
  refine ⟨hrepair, hfrozen, hsector.failingDev, dext, entry, hsector.scanned, hsector.arrayPhys,
    hlength.trans hsector.blockSize, (hsector.verify data).mp hverify,
    hasked _ hsector.reconfirm, ?_⟩
  cases hunread : c.unreadable with
  | true => exact .inl (hsector.unread hunread)
  | false =>
      obtain ⟨got, hgot, hrejects⟩ := hread hunread
      refine .inr ⟨got, hgot, fun bytes hbytes hsame => ?_⟩
      have hverified := (hsector.verify bytes).mpr hsame
      rw [hrejects bytes hbytes] at hverified
      cases hverified

/-- At every moment of a run, all the program has written are sectors of its scrub, restored. -/
theorem writes_restore (array : setup.cfg = some cfg)
    (scrub : Btrfs.ScrubReturns ctx src depth p devExtents counters threaded out)
    (reachable : (run setup.env setup.args setup.batchMax setup.driver).Reachable s)
    (emitted : s.emitted <+: out.events.map (scrubEvent ctx.strategy)) :
    ∀ newer dev arrayPhys data older,
      s.pipe.state.books.trace = newer ++ .write dev arrayPhys data :: older →
        Restores setup cfg ctx src devExtents out s.pipe.state.books.freeze.mountpoint dev arrayPhys
          data older := by
  intro newer dev arrayPhys data older htrace
  have hsafe := Pipeline.reachable_safe (run_pipe_reachable reachable)
  rw [htrace] at hsafe
  exact restores_of_permitted (sent_forSector array scrub reachable emitted) hsafe.write

end Program

/-! ### The exit code -/

section ExitCode
variable {σ : Type} {env : WriterEnv σ} {args : WriterArgs} {batchMax : Nat} {s : Pipeline σ}
  {stats : BatchStats}

/-- A writer that returned accounts for all that was sent to an accumulator that returned. -/
theorem returned_reconciled (h : (BatchRecover.pipeline env args batchMax).Reachable s)
    (hacc : s.acc = .returned) (hend : s.writer = .returned stats) :
    reconciled s.sent.length stats = true := by
  obtain ⟨⟨count, sectors, hledger, hcount, -⟩, rfl⟩ := Pipeline.returned_conserved h hend
  have hclassified := hledger.classified
  have hsettled := hledger.settled
  rw [hacc, BatchRecover.Accumulator.held, List.length_nil, Nat.zero_add] at hcount
  unfold BatchStats.classified at hclassified
  unfold BatchStats.settled at hsettled
  simp only [reconciled, Bool.and_eq_true, decide_eq_true_eq]
  omega

/-- No metadata error, no bad sector that was not handed over, and every candidate stale. -/
structure Clean (total : ScrubStats) (trace : List Event) : Prop where
  readErrors : total.metadataReadErrors = 0
  mismatch : total.sectorsMismatch = 0
  unreadable : total.sectorsReadError = 0
  stale : ∀ a v, .classify a v ∈ trace → v = .stale

/-- Nothing was skipped, and every mismatch ended recovered. -/
structure Recovered (total : ScrubStats) (trace : List Event) : Prop where
  readErrors : total.metadataReadErrors = 0
  unskipped : ∀ a, .classify a .skipped ∉ trace
  ended : ∀ a o, .settle a o ∈ trace → o = .recovered

theorem clean_iff {b : BatchRecover.Books} (h : BatchRecover.Counted b) {total : ScrubStats}
    (hheader : total.metadataHeaderErrors = 0) :
    issuesFound total b.stats = false ↔ Clean total b.trace := by
  have hmismatch : b.stats.stage .mismatch = b.stats.mismatch := rfl
  have hskipped : b.stats.stage .skipped = b.stats.skipped := rfl
  simp only [issuesFound, Bool.or_eq_false_iff, decide_eq_false_iff_not]
  constructor
  · intro hnone
    refine ⟨by omega, by omega, by omega, fun a v hmem => ?_⟩
    have hpos := h.stage_pos hmem
    cases v with
    | stale => rfl
    | skipped => omega
    | mismatch => omega
  · rintro ⟨hread, hbad, hunread, hstale⟩
    have hnone : ∀ v, v ≠ .stale → b.stats.stage v = 0 := by
      intro v hv
      by_contra hne
      obtain ⟨a, hmem⟩ := h.stage_of_pos (Nat.pos_of_ne_zero hne)
      exact hv (hstale a v hmem)
    have h1 := hnone .mismatch (by decide)
    have h2 := hnone .skipped (by decide)
    omega

theorem recovered_iff {b : BatchRecover.Books} (h : BatchRecover.Counted b) {total : ScrubStats} :
    allRecovered total b.stats = true ↔ Recovered total b.trace := by
  have hskipped : b.stats.stage .skipped = b.stats.skipped := rfl
  simp only [allRecovered, Bool.and_eq_true, decide_eq_true_eq]
  constructor
  · rintro ⟨⟨⟨⟨⟨hread, hfailed⟩, hskip⟩, hfrozen⟩, hback⟩, hcorrupt⟩
    refine ⟨hread, fun a hmem => ?_, fun a o hmem => ?_⟩
    · have hpos := h.stage_pos hmem
      omega
    · have hpos := h.outcome_pos hmem
      cases o with
      | recovered => rfl
      | failed => exact absurd hpos (by rw [show b.stats.outcome .failed = 0 from hfailed]; decide)
      | notCorrupt =>
          exact absurd hpos (by rw [show b.stats.outcome .notCorrupt = 0 from hcorrupt]; decide)
      | notFrozen =>
          exact absurd hpos (by rw [show b.stats.outcome .notFrozen = 0 from hfrozen]; decide)
      | readbackFailed =>
          exact absurd hpos (by rw [show b.stats.outcome .readbackFailed = 0 from hback]; decide)
  · rintro ⟨hread, hskip, hended⟩
    have hnone : ∀ o, o ≠ .recovered → b.stats.outcome o = 0 := by
      intro o ho
      by_contra hne
      obtain ⟨a, hmem⟩ := h.outcome_of_pos (Nat.pos_of_ne_zero hne)
      exact ho (hended a o hmem)
    have hunskipped : b.stats.stage .skipped = 0 := by
      by_contra hne
      obtain ⟨a, hmem⟩ := h.stage_of_pos (Nat.pos_of_ne_zero hne)
      exact hskip a hmem
    exact ⟨⟨⟨⟨⟨hread, hnone .failed (by decide)⟩, hunskipped⟩, hnone .notFrozen (by decide)⟩,
      hnone .readbackFailed (by decide)⟩, hnone .notCorrupt (by decide)⟩

open Classical in
/-- The exit code as the trace tells it. -/
noncomputable def told (total : ScrubStats) (trace : List Event) : ExitCode :=
  if total.metadataHeaderErrors ≠ 0 then .metadataFatal
  else if Clean total trace then .success
  else if Recovered total trace then .recovered
  else .recoverFailed

/-- Where both threads returned, the counters say what the trace shows. -/
theorem finish_told (h : (BatchRecover.pipeline env args batchMax).Reachable s)
    (hacc : s.acc = .returned) (hend : s.writer = .returned stats) (total : ScrubStats) :
    finish total s.sent.length (some (.ok stats)) = told total s.state.books.trace := by
  have hcounted := Pipeline.reachable_counted h
  have hstats := (Pipeline.returned_conserved h hend).2
  unfold finish
  dsimp only
  rw [if_pos (returned_reconciled h hacc hend)]
  unfold cascade told
  by_cases hheader : total.metadataHeaderErrors = 0
  · rw [if_neg (show ¬0 < total.metadataHeaderErrors by omega), if_neg (not_not_intro hheader)]
    by_cases hclean : Clean total s.state.books.trace
    · rw [if_pos hclean, hstats, (clean_iff hcounted hheader).mpr hclean]
      rfl
    · have hissue : issuesFound total stats = true := by
        rw [hstats, ← Bool.not_eq_false]
        exact fun hnone => hclean ((clean_iff hcounted hheader).mp hnone)
      rw [if_neg hclean, hissue]
      by_cases hrecovered : Recovered total s.state.books.trace
      · rw [if_pos hrecovered, hstats, (recovered_iff hcounted).mpr hrecovered]
        rfl
      · have hfailed : allRecovered total stats = false := by
          rw [hstats, ← Bool.not_eq_true]
          exact fun hall => hrecovered ((recovered_iff hcounted).mp hall)
        rw [if_neg hrecovered, hfailed]
        rfl
  · rw [if_pos (Nat.pos_of_ne_zero hheader), if_pos hheader]

/-- The exit code of a run with a pipeline says that a thread of it failed, or else what its trace
shows, whatever the timing. -/
theorem exit_told (h : (BatchRecover.pipeline env args batchMax).Reachable s) {total : ScrubStats}
    {code : ExitCode} (hjoined : Joined total s code) :
    (code = .runtimeError ∧ Failed s) ∨
      s.acc = .returned ∧ (∃ stats, s.writer = .returned stats) ∧
        code = told total s.state.books.trace := by
  cases hjoined with
  | @accPanicked lost acc => exact .inl ⟨rfl, .inr ⟨lost, acc⟩⟩
  | @returned stats acc writer => exact .inr ⟨acc, ⟨stats, writer⟩, finish_told h acc writer total⟩
  | @stopped why _ writer => exact .inl ⟨rfl, .inl ⟨why, writer⟩⟩

theorem told_recovered {total : ScrubStats} {trace : List Event}
    (h : told total trace = .recovered) :
    total.metadataHeaderErrors = 0 ∧ Recovered total trace := by
  unfold told at h
  split at h
  case isTrue => cases h
  case isFalse hheader =>
      split at h
      case isTrue => cases h
      case isFalse =>
          split at h
          case isTrue hrecovered => exact ⟨not_not.mp hheader, hrecovered⟩
          case isFalse => cases h

theorem joined_recovered {total : ScrubStats} (h : Joined total s .recovered) :
    s.acc = .returned ∧ ∃ stats, s.writer = .returned stats ∧
      finish total s.sent.length (some (.ok stats)) = .recovered := by
  generalize hcode : ExitCode.recovered = code at h
  cases h with
  | accPanicked => cases hcode
  | @returned stats acc writer => exact ⟨acc, stats, writer, rfl⟩
  | stopped => cases hcode

end ExitCode

/-! ### Exit code 4 -/

section Recovered
variable {σ : Type} {m : Type → Type} [Monad m] [LawfulMonad m] [MonadExceptOf Halt m]
  [MonadAttach m] [LawfulMonadAttach m] {P : Type} {setup : Setup σ} {cfg : ArrayConfig}
  {ctx : Btrfs.ScrubContext m} {src : Btrfs.CsumSource m P} {depth : Nat} {p : P}
  {devExtents : List Btrfs.DevExtent} {counters : Btrfs.Counters} {threaded : Bool}
  {out : Btrfs.ScrubOut} {s : Run σ}

/-- What a run that recovered everything has done for the sector at an address of the array. -/
inductive Mended (setup : Setup σ) (cfg : ArrayConfig) (ctx : Btrfs.ScrubContext m)
    (src : Btrfs.CsumSource m P) (devExtents : List Btrfs.DevExtent) (trace : List Event)
    (a : Nat) : Prop where
  /-- The live metadata no longer has its checksum. -/
  | moved {newer older dext entry} (scanned : Btrfs.Scanned ctx src devExtents dext entry)
      (address : a = (dext.physOf entry.logical).toNat)
      (split : trace = newer ++ .classify a .stale :: older)
      (answer : .reconfirm { token := entry.logical.toNat, storedCsum := entry.csum } .stale ∈
        sinceTake older) : Mended setup cfg ctx src devExtents trace a
  /-- It has its checksum by now. -/
  | rewritten {newer older dext entry dev bytes}
      (scanned : Btrfs.Scanned ctx src devExtents dext entry)
      (address : a = (dext.physOf entry.logical).toNat)
      (split : trace = newer ++ .classify a .stale :: older)
      (disk : cfg.dataDev setup.slot = some dev)
      (read : .reread dev a (some bytes) ∈ sinceTake older)
      (sound : ctx.strategy.compute bytes = entry.csum) :
      Mended setup cfg ctx src devExtents trace a
  /-- It was written. -/
  | written {newer older dext entry dev data}
      (scanned : Btrfs.Scanned ctx src devExtents dext entry)
      (address : a = (dext.physOf entry.logical).toNat)
      (split : trace = newer ++ .settle a .recovered :: older)
      (disk : cfg.dataDev setup.slot = some dev)
      (write : .write dev a data ∈ sinceTake older)
      (sound : ctx.strategy.compute data = entry.csum) : Mended setup cfg ctx src devExtents trace a

omit [Monad m] [LawfulMonad m] [MonadExceptOf Halt m] [LawfulMonadAttach m] in
theorem mended_of_stale (hsent : ∀ c ∈ s.pipe.sent, ∃ dext entry,
      ForSector setup cfg ctx src devExtents out c dext entry) {newer older trace : List Event}
    {a : Nat} (htrace : trace = newer ++ .classify a .stale :: older)
    (hevident : BatchRecover.Evident setup.args s.pipe.sent (.classify a .stale :: older)) :
    Mended setup cfg ctx src devExtents trace a := by
  obtain ⟨-, c, hc, -, rfl, hevidence⟩ := hevident
  obtain ⟨dext, entry, hsector⟩ := hsent c hc
  cases hevidence with
  | moved req asked answer =>
      obtain rfl := Option.some.inj (hsector.reconfirm.symm.trans asked)
      exact .moved hsector.scanned hsector.arrayPhys htrace answer
  | rewritten bytes read verifies =>
      exact .rewritten hsector.scanned hsector.arrayPhys htrace hsector.failingDev read
        ((hsector.verify bytes).mp verifies)

omit [Monad m] [LawfulMonad m] [MonadExceptOf Halt m] [LawfulMonadAttach m] in
theorem mended_of_recovered (hsent : ∀ c ∈ s.pipe.sent, ∃ dext entry,
      ForSector setup cfg ctx src devExtents out c dext entry) (hrepair : setup.args.dryRun = false)
    {newer older trace : List Event} {a : Nat}
    (htrace : trace = newer ++ .settle a .recovered :: older)
    (hevident : BatchRecover.Evident setup.args s.pipe.sent (.settle a .recovered :: older)) :
    Mended setup cfg ctx src devExtents trace a := by
  obtain ⟨-, c, hc, -, rfl, hended⟩ := hevident
  obtain ⟨dext, entry, hsector⟩ := hsent c hc
  obtain ⟨data, hwrite, hverify⟩ := hended.wrote rfl hrepair
  exact .written hsector.scanned hsector.arrayPhys htrace hsector.failingDev hwrite
    ((hsector.verify data).mp hverify)

/-- A repair run that exits with code 4 has mended every sector it reported. -/
theorem recovered_exit_mended (array : setup.cfg = some cfg)
    (hslot : (cfg.dataDev setup.slot).isSome = true) (hrepair : setup.args.dryRun = false)
    (scrub : Btrfs.ScrubReturns ctx src depth p devExtents counters threaded out)
    (reachable : (run setup.env setup.args setup.batchMax setup.driver).Reachable s)
    (emitted : s.emitted = out.events.map (scrubEvent ctx.strategy))
    {metadata : Btrfs.MetadataErrors}
    (joined : Joined (totals out.stats metadata) s.pipe .recovered) :
    metadata.headerErrors = 0 ∧ metadata.readErrors = 0 ∧
      ∀ r ∈ out.events,
        Mended setup cfg ctx src devExtents s.pipe.state.books.trace r.arrayPhys.toNat := by
  have hpipe := run_pipe_reachable reachable
  obtain ⟨acc, stats, returned, hcode⟩ := joined_recovered joined
  rw [finish_told hpipe acc returned] at hcode
  obtain ⟨hheader, hrecovered⟩ := told_recovered hcode
  obtain ⟨⟨count, sectors, hledger, -, hcover⟩, -⟩ := Pipeline.returned_conserved hpipe returned
  rw [acc] at hcover
  refine ⟨hheader, hrecovered.readErrors, fun r hr => ?_⟩
  have hsent := sent_forSector array scrub reachable (emitted ▸ List.prefix_refl _)
  have hevident := Pipeline.reachable_evident hpipe
  have hev : scrubEvent ctx.strategy r ∈ s.emitted := emitted ▸ List.mem_map_of_mem hr
  have hverify : (scrubEvent ctx.strategy r).verify.isSome = true := by
    rw [scrubEvent, Option.isSome_map]
    exact (scrub_recorded scrub).stored r hr
  have hattached : setup.driver.attached = true := by
    rw [Setup.driver, array]
    rfl
  have hcfg : setup.driver.cfg = some cfg := array
  obtain ⟨c, hmade, hphys⟩ := candidate_made hcfg hattached hslot hverify
  have hc : c ∈ s.pipe.sent := by
    rcases run_handed reachable with hhanded | ⟨why, hstopped⟩ | ⟨lost, hlost⟩
    · exact hhanded _ hev c hmade
    · rw [returned] at hstopped
      cases hstopped
    · rw [acc] at hlost
      cases hlost
  have hlisted : c.arrayPhys ∈ sectors := by
    rcases hcover c hc with hlisted | ⟨_, hnone, -⟩
    · exact hlisted
    · cases hnone
  obtain ⟨v, hclassified⟩ := hledger.listed _ hlisted
  have hpos : c.arrayPhys = r.arrayPhys.toNat := hphys
  rw [hpos] at hclassified
  cases v with
  | skipped => exact absurd hclassified (hrecovered.unskipped _)
  | stale =>
      obtain ⟨newer, older, htrace⟩ := List.append_of_mem hclassified
      rw [htrace] at hevident
      exact mended_of_stale hsent htrace hevident.of_append
  | mismatch =>
      obtain ⟨o, hsettled⟩ := Pipeline.returned_concluded hpipe returned _ hclassified
      obtain rfl := hrecovered.ended _ _ hsettled
      obtain ⟨newer, older, htrace⟩ := List.append_of_mem hsettled
      rw [htrace] at hevident
      exact mended_of_recovered hsent hrepair htrace hevident.of_append

end Recovered

/-! ### A sector of the mounted data disk that parity restores -/

namespace Crafted
open BatchRecover (Books WriterState books world attempt confirm readBack writeBack recover
  onBooks processCandidate flushLoop flushBatch windowExpired)
open DiskArray (readBlockOrZeros gatherStripe writeBlock zeroFill zeroFill_self)
open Btrfs.Crafted (strategy changed changed_length compute_changed loneExtent)

abbrev Block := Vector UInt8 4096

def mountPath : Path := "/mnt/disk1"

/-- The block of the data disk is the state; its parity disk has `good`. -/
def mendEnv (good : Block) : WriterEnv Block where
  io := { size := fun _ => pure 0x20000
          readExact := fun path _ len => do
            let disk ← get
            return zeroFill (if path = "/dev/sdc" then good else disk) len
          writeAll := fun _ _ data => set (Vector.ofFn fun i : Fin 4096 => data.getD i 0) }
  freezePath _ := pure ()
  thawPath _ := pure ()
  now := pure 0
  reconfirm _ := pure .corruption
  dropCache _ := pure ()
  isBlockDevice _ := pure true

def mendArgs : WriterArgs := { cfg := config, scrubSlot := 1, dryRun := false, freezeTimeout := 60 }

section Flush
variable {verify : Bytes → Bool} {req : ReconfirmRequest} {bad good : Block} {b : Books}

abbrev mendCandidate (verify : Bytes → Bool) (req : ReconfirmRequest) : Candidate where
  arrayPhys := 0x10000
  blockSize := 4096
  verify
  rawPhys := 0x10000
  failingDev := "/dev/sdb"
  reconfirm := some req
  unreadable := false

theorem mend_read (path : Path) (disk : Block) :
    attempt (readBlockOrZeros (mendEnv good).io config path 0x10000 4096) ⟨disk, b⟩ =
      (.ok (.ok (if path = "/dev/sdc" then good else disk)), ⟨disk, b⟩) := by
  have hrun : attempt (readBlockOrZeros (mendEnv good).io config path 0x10000 4096) ⟨disk, b⟩ =
      (.ok (.ok (zeroFill (zeroFill (if path = "/dev/sdc" then good else disk) 4096) 4096)),
        ⟨disk, b⟩) := rfl
  rw [hrun, zeroFill_self, zeroFill_self]

theorem mend_confirm (hbad : verify bad.toList = false) :
    confirm (mendEnv good) mendArgs (mendCandidate verify req) ⟨bad, b⟩ =
      (.ok (.corrupt bad false), ⟨bad, (b.note (.reconfirm req .corruption)).note
        (.reread "/dev/sdb" 0x10000 (some bad.toList))⟩) := by
  have hverdict : BatchRecover.verdictOf (mendEnv good) (mendCandidate verify req) ⟨bad, b⟩ =
      (.ok .corruption, ⟨bad, b.note (.reconfirm req .corruption)⟩) := rfl
  have hread (b : Books) : attempt (readBlockOrZeros (mendEnv good).io mendArgs.cfg
      (mendCandidate verify req).failingDev (mendCandidate verify req).arrayPhys
      (mendCandidate verify req).blockSize) ⟨bad, b⟩ = (.ok (.ok bad), ⟨bad, b⟩) :=
    mend_read "/dev/sdb" bad
  have hnote (b : Books) (e : Event) :
      onBooks (·.note e) ⟨bad, b⟩ = (.ok (), ⟨bad, b.note e⟩) := rfl
  have hfails : ¬verify bad.toList = true := by
    rw [hbad]
    exact Bool.false_ne_true
  unfold confirm
  rw [Lib.bind_of_ok hverdict]
  dsimp only
  unfold BatchRecover.rereadFailing
  rw [if_neg (show ¬(mendCandidate verify req).unreadable = true from Bool.false_ne_true),
    Lib.bind_of_ok (hread _), Lib.bind_of_ok (hnote _ _)]
  dsimp only
  rw [if_neg hfails]
  rfl

/-- The books after the write. -/
def mendWritten (good : Block) (b : Books) : Books :=
  (b.note (.write "/dev/sdb" 0x10000 good.toList)).repairedWhileMounted

theorem ofFn_getD (v : Block) : (Vector.ofFn fun i : Fin 4096 => v.toList.getD i 0) = v := by
  apply Vector.ext
  intro i h
  simp

theorem mend_writeBack (hgood : verify good.toList = true) :
    writeBack (mendEnv good) mendArgs true (mendCandidate verify req) good ⟨bad, b⟩ =
      (.ok .recovered, ⟨good, mendWritten good b⟩) := by
  have hnote : onBooks (·.note (.write (mendCandidate verify req).failingDev
      (mendCandidate verify req).arrayPhys good.toList)) ⟨bad, b⟩ =
        (.ok (), ⟨bad, b.note (.write "/dev/sdb" 0x10000 good.toList)⟩) := rfl
  have hwrite (b : Books) : attempt (writeBlock (mendEnv good).io mendArgs.cfg
      (mendCandidate verify req).failingDev (mendCandidate verify req).arrayPhys good.toList)
        ⟨bad, b⟩ = (.ok (.ok ()), ⟨good, b⟩) := by
    have hrun : attempt (writeBlock (mendEnv good).io mendArgs.cfg
        (mendCandidate verify req).failingDev (mendCandidate verify req).arrayPhys good.toList)
          ⟨bad, b⟩ = (.ok (.ok ()), ⟨Vector.ofFn fun i : Fin 4096 => good.toList.getD i 0, b⟩) := rfl
    rw [hrun, ofFn_getD]
  have hmark (b : Books) : onBooks (fun b => if true then b.repairedWhileMounted else b)
      ⟨good, b⟩ = (.ok (), ⟨good, b.repairedWhileMounted⟩) := rfl
  have hdrop (b : Books) : attempt ((mendEnv good).dropCache
      (mendCandidate verify req).failingDev) ⟨good, b⟩ = (.ok (.ok ()), ⟨good, b⟩) := rfl
  have hread (b : Books) : attempt (readBlockOrZeros (mendEnv good).io mendArgs.cfg
      (mendCandidate verify req).failingDev (mendCandidate verify req).arrayPhys
      (mendCandidate verify req).blockSize) ⟨good, b⟩ = (.ok (.ok good), ⟨good, b⟩) :=
    mend_read "/dev/sdb" good
  unfold writeBack
  rw [Lib.bind_of_ok hnote, Lib.bind_of_ok (hwrite _)]
  dsimp only
  rw [Lib.bind_of_ok (hmark _), Lib.bind_of_ok (hdrop _)]
  dsimp only
  unfold readBack
  rw [Lib.bind_of_ok (hread _), Lib.bind_of_ok (hdrop _)]
  dsimp only
  rw [if_pos hgood]
  rfl

def mendInput (verify : Bytes → Bool) (bad good : Block) : Recovery.RecoveryInput 4096 where
  failingSlot := 1
  corruptBlock := bad
  unreadableSource := false
  otherBlocks := []
  pBlock := some good
  qBlock := none
  verifier := verify

/-- Parity has the block. -/
theorem mend_recoverBlock (hbad : verify bad.toList = false) (hgood : verify good.toList = true) :
    Recovery.recoverBlock (mendInput verify bad good) = .ok (.recovered .p good) := by
  have halone : good = Recovery.recoverViaP [] good := by
    have h := recoverViaP_alone good
    rw [zeroFill_self] at h
    exact h.symm
  have hpath : Recovery.pPath (mendInput verify bad good) = .ok good :=
    (Recovery.pPath_iff (fun _ => hbad) good).mpr ⟨good, rfl, halone, hgood⟩
  have hfails : (!(mendInput verify bad good).unreadableSource &&
      (mendInput verify bad good).verifier (mendInput verify bad good).corruptBlock.toList) =
        false := hbad
  unfold Recovery.recoverBlock
  rw [hfails, hpath]
  rfl

theorem mend_recover (hbad : verify bad.toList = false) (hgood : verify good.toList = true) :
    recover (mendEnv good) mendArgs true true (mendCandidate verify req) bad false ⟨bad, b⟩ =
      (.ok .recovered, ⟨good, mendWritten good b⟩) := by
  have hgather : attempt (gatherStripe (mendEnv good).io mendArgs.cfg mendArgs.scrubSlot
      (mendCandidate verify req).arrayPhys (mendCandidate verify req).blockSize) ⟨bad, b⟩ =
      (.ok (.ok ⟨[], some good, none⟩), ⟨bad, b⟩) := by
    have hrun : attempt (gatherStripe (mendEnv good).io mendArgs.cfg mendArgs.scrubSlot
        (mendCandidate verify req).arrayPhys (mendCandidate verify req).blockSize) ⟨bad, b⟩ =
        (.ok (.ok ⟨[], some (zeroFill (zeroFill good 4096) 4096), none⟩), ⟨bad, b⟩) := rfl
    rw [hrun, zeroFill_self, zeroFill_self]
  have hblock : Recovery.recoverBlock (n := (mendCandidate verify req).blockSize)
      ⟨mendArgs.scrubSlot, bad, false, [], some good, none, (mendCandidate verify req).verify⟩ =
      .ok (.recovered .p good) := mend_recoverBlock hbad hgood
  unfold recover
  rw [Lib.bind_of_ok hgather]
  dsimp only
  rw [hblock]
  exact mend_writeBack hgood

/-- The books after the round of the candidate. -/
def mendRound (c : Candidate) (req : ReconfirmRequest) (bad good : Block) (b : Books) : Books :=
  let confirmed := ((b.note (.take c)).note (.reconfirm req .corruption)).note
    (.reread "/dev/sdb" 0x10000 (some bad.toList))
  (mendWritten good (confirmed.classify 0x10000 .mismatch)).settle 0x10000 .recovered

theorem mend_round (hbad : verify bad.toList = false) (hgood : verify good.toList = true) :
    processCandidate (mendEnv good) mendArgs true true (mendCandidate verify req) ⟨bad, b⟩ =
      (.ok (), ⟨good, mendRound (mendCandidate verify req) req bad good b⟩) := by
  have htake : onBooks (·.note (.take (mendCandidate verify req))) ⟨bad, b⟩ =
      (.ok (), ⟨bad, b.note (.take (mendCandidate verify req))⟩) := rfl
  have hclassify (b : Books) : onBooks (·.classify (mendCandidate verify req).arrayPhys .mismatch)
      ⟨bad, b⟩ = (.ok (), ⟨bad, b.classify 0x10000 .mismatch⟩) := rfl
  unfold processCandidate
  rw [Lib.bind_of_ok htake, Lib.bind_of_ok (mend_confirm hbad)]
  dsimp only
  rw [Lib.bind_of_ok (hclassify _), Lib.bind_of_ok (mend_recover hbad hgood)]
  rfl

/-- The books of a flush once its freeze is held. -/
def mendFrozen (c : Candidate) : Books where
  freeze := (FreezeController.new (some mountPath)).froze
  stats := {}
  counters := none
  trace := [.freeze true, .flush [c]]

/-- The books after the batch of the candidate. -/
def mendBooks (c : Candidate) (req : ReconfirmRequest) (bad good : Block) : Books :=
  let repaired := mendRound c req bad good (mendFrozen c)
  ((repaired.setFreeze repaired.freeze.released).note (.thaw true)).setFreeze
    repaired.freeze.released.clearThawError

theorem mend_flush (hbad : verify bad.toList = false) (hgood : verify good.toList = true) :
    flushBatch (mendEnv good) mendArgs [mendCandidate verify req]
        (.start bad (some mountPath) none) =
      (.ok [], ⟨good, mendBooks (mendCandidate verify req) req bad good⟩) := by
  have hwindow (b : Books) : windowExpired (mendEnv good) mendArgs true 0 true ⟨bad, b⟩ =
      (.ok false, ⟨bad, b⟩) := rfl
  have hloop : flushLoop (mendEnv good) mendArgs true true 0 true [mendCandidate verify req]
      ⟨bad, mendFrozen (mendCandidate verify req)⟩ = (.ok [], ⟨good, mendRound
        (mendCandidate verify req) req bad good (mendFrozen (mendCandidate verify req))⟩) := by
    rw [flushLoop, Lib.bind_of_ok (hwindow _), if_neg Bool.false_ne_true,
      Lib.bind_of_ok (mend_round hbad hgood)]
    rfl
  have hbatch : BatchRecover.dedupByPhys (BatchRecover.sortByPhys [mendCandidate verify req]) =
      [mendCandidate verify req] := rfl
  have hnote : onBooks (fun b => (b.dedup (1 - 1)).note (.flush [mendCandidate verify req]))
      (.start bad (some mountPath) none) =
        (.ok (), ⟨bad, ⟨.new (some mountPath), {}, none, [.flush [mendCandidate verify req]]⟩⟩) := rfl
  have hbooks (st : WriterState Block) : books st = (.ok st.books, st) := rfl
  have hguard : BatchRecover.guard (mendEnv good)
      ⟨bad, ⟨.new (some mountPath), {}, none, [.flush [mendCandidate verify req]]⟩⟩ =
        (.ok (.ok true), ⟨bad, mendFrozen (mendCandidate verify req)⟩) := rfl
  have hnow (st : WriterState Block) : world (mendEnv good).now st = (.ok 0, st) := rfl
  unfold flushBatch
  rw [hbatch]
  dsimp only [List.length_singleton]
  rw [Lib.bind_of_ok hnote, Lib.bind_of_ok (hbooks _), Lib.bind_of_ok hguard,
    Lib.bind_of_ok (hnow _)]
  exact (Lib.bind_of_ok hloop).trans rfl

theorem mend_received (hbad : verify bad.toList = false) (hgood : verify good.toList = true)
    {s : Pipeline Block} {rest : List BatchRecover.BatchMsg} (at_ : s.writer = .receiving [])
    (msg : s.chanB = .batch [mendCandidate verify req] :: rest)
    (hstate : s.state = .start bad (some mountPath) none) :
    Pipeline.Step (mendEnv good) mendArgs 1 s { s with
      chanB := rest
      writer := .receiving []
      state := ⟨good, mendBooks (mendCandidate verify req) req bad good⟩ } := by
  have hflush : (flushBatch (mendEnv good) mendArgs ([] ++ [mendCandidate verify req])).run.run
      s.state = (.ok [], ⟨good, mendBooks (mendCandidate verify req) req bad good⟩) := by
    rw [hstate]
    exact mend_flush hbad hgood
  have hstep : Pipeline.Step (mendEnv good) mendArgs 1 s _ := .recvBatch at_ msg
  rw [Pipeline.flush_ok (s := { s with chanB := rest }) hflush] at hstep
  exact hstep

/-- The candidate is sent, recovered from parity and written. -/
theorem mend_run {driver : Driver} {ev : ScrubEvent}
    (hmade : driver.candidate ev = some (mendCandidate verify req))
    (hbad : verify bad.toList = false) (hgood : verify good.toList = true) :
    ∃ s, (run (mendEnv good) mendArgs 1 driver).Reachable s ∧ s.emitted = [ev] ∧
      s.pipe.acc = .returned ∧ s.pipe.sent = [mendCandidate verify req] ∧
      s.pipe.writer = .returned { mismatch := 1, recovered := 1 } ∧
      s.pipe.state.books = mendBooks (mendCandidate verify req) req bad good := by
  let R := (run (mendEnv good) mendArgs 1 driver).Reachable
  let step {s s' : Run Block} (h : R s) (hs : RunStep (mendEnv good) mendArgs 1 driver s s') : R s' :=
    .step h hs
  let c := mendCandidate verify req
  let start : WriterState Block := .start bad (some mountPath) none
  let mended : WriterState Block := ⟨good, mendBooks (mendCandidate verify req) req bad good⟩
  have h : R ⟨[], .start bad (some mountPath) none⟩ := .init ⟨rfl, bad, some mountPath, none, rfl⟩
  have h : R ⟨[], .sending, [], [], .waiting, [], .receiving [], start⟩ :=
    step h (.other (.allocate rfl (by decide)) rfl)
  have h : R ⟨[ev], .sending, [c], [.candidate c], .waiting, [], .receiving [], start⟩ :=
    step h (.forward hmade rfl Nat.zero_lt_one rfl)
  have h : R ⟨[ev], .sending, [c], [], .collecting [c], [], .receiving [], start⟩ :=
    step h (.other (.recvFirst rfl rfl) rfl)
  have h : R ⟨[ev], .sending, [c], [], .sending [c], [], .receiving [], start⟩ :=
    step h (.other (.batchFull rfl (Nat.le_refl 1)) rfl)
  have h : R ⟨[ev], .sending, [c], [], .waiting, [.batch [c]], .receiving [], start⟩ :=
    step h (.other (.sendBatch rfl Nat.zero_lt_one rfl) rfl)
  have h : R ⟨[ev], .sending, [c], [], .waiting, [], .receiving [], mended⟩ :=
    step h (.other (mend_received hbad hgood rfl rfl rfl) rfl)
  have h : R ⟨[ev], .closed, [c], [.done], .waiting, [], .receiving [], mended⟩ :=
    step h (.other (.sendDone rfl Nat.zero_lt_one rfl) rfl)
  have h : R ⟨[ev], .closed, [c], [], .finishing [], [], .receiving [], mended⟩ :=
    step h (.other (.recvFirstDone rfl rfl) rfl)
  have h : R ⟨[ev], .closed, [c], [], .sendingDone, [], .receiving [], mended⟩ :=
    step h (.other (.nothingLeft rfl) rfl)
  have h : R ⟨[ev], .closed, [c], [], .returned, [.done], .receiving [], mended⟩ :=
    step h (.other (.sendDoneB rfl Nat.zero_lt_one rfl) rfl)
  have h : R ⟨[ev], .closed, [c], [], .returned, [], .draining [], mended⟩ :=
    step h (.other (.recvDoneB rfl rfl) rfl)
  have h := step h (.other (.drained rfl) rfl)
  exact ⟨_, h, rfl, rfl, rfl, rfl, rfl⟩

end Flush

/-- A sector of zeros, but for one byte. -/
def oneByte (value : UInt8) : Block :=
  ⟨(changed 100 3995 value).toArray, List.size_toArray.trans (changed_length 100 3995 value)⟩

theorem oneByte_toList (value : UInt8) : (oneByte value).toList = changed 100 3995 value := by
  simp [oneByte]

def mendSetup : Setup Block where
  dev := "/dev/nmd1p1"
  loaded := some config
  canonicalize := some
  env := mendEnv (oneByte 0)
  args := mendArgs
  batchMax := 1

theorem mendSetup_resolved : mendSetup.cfg = some config ∧ mendSetup.slot = 1 := by
  have hslot : slotFromArrayPartition "/dev/nmd1p1" = some 1 := by decide
  unfold Setup.cfg Setup.slot mendSetup resolveSlot
  rw [hslot]
  exact ⟨rfl, rfl⟩

/-- The test of the bytes that the event brings along. -/
def mendVerify (bytes : Bytes) : Bool := strategy.compute bytes == entry.csum

theorem mend_repair : ∃ s, (run mendSetup.env mendSetup.args mendSetup.batchMax
      mendSetup.driver).Reachable s ∧
    s.emitted = [scrubEvent strategy event] ∧ s.pipe.acc = .returned ∧ s.pipe.sent.length = 1 ∧
      s.pipe.writer = .returned { mismatch := 1, recovered := 1 } ∧
      s.pipe.state.books.freeze.mountpoint = some mountPath ∧
      ∃ newer older, s.pipe.state.books.trace =
        newer ++ .write "/dev/sdb" 0x10000 (changed 100 3995 0) :: older := by
  obtain ⟨hcfg, hslot⟩ := mendSetup_resolved
  have hmade : mendSetup.driver.candidate (scrubEvent strategy event) =
      some (mendCandidate mendVerify { token := 0x10000, storedCsum := entry.csum }) := by
    unfold Driver.candidate Setup.driver
    rw [hcfg, hslot]
    rfl
  have hbad : mendVerify (oneByte 0x5A).toList = false := by
    rw [oneByte_toList]
    exact beq_eq_false_iff_ne.mpr (compute_changed 100 3995 (by decide))
  have hgood : mendVerify (oneByte 0).toList = true := by
    rw [oneByte_toList]
    exact beq_self_eq_true _
  obtain ⟨s, hreachable, hemitted, hacc, hsent, hreturned, hbooks⟩ := mend_run hmade hbad hgood
  refine ⟨s, hreachable, hemitted, hacc, by rw [hsent]; rfl, hreturned, by rw [hbooks]; rfl,
    [.thaw true, .settle 0x10000 .recovered], ?_⟩
  rw [hbooks, ← oneByte_toList]
  exact ⟨_, rfl⟩

theorem writes_restore_crafted : ∃ out : Btrfs.ScrubOut, ∃ s : Run Block, ∃ newer older,
    s.pipe.state.books.freeze.mountpoint = some mountPath ∧
      s.pipe.state.books.trace =
        newer ++ .write "/dev/sdb" 0x10000 (changed 100 3995 0) :: older ∧
      Restores mendSetup config ctx (.fixed [entry]) [loneExtent] out (some mountPath) "/dev/sdb"
        0x10000 (changed 100 3995 0) older := by
  obtain ⟨out, hscrub, hevents, -⟩ := event_emitted
  obtain ⟨s, hreachable, hemitted, -, -, -, hmount, newer, older, htrace⟩ := mend_repair
  have hprefix : s.emitted <+: out.events.map (scrubEvent ctx.strategy) := by
    rw [hemitted, hevents]
    exact List.prefix_refl _
  have hrestores := writes_restore mendSetup_resolved.1 hscrub hreachable hprefix newer "/dev/sdb"
    0x10000 (changed 100 3995 0) older htrace
  rw [hmount] at hrestores
  exact ⟨out, s, newer, older, hmount, htrace, hrestores⟩

theorem exit_told_crafted : ∃ s : Pipeline Block,
    (BatchRecover.pipeline mendSetup.env mendSetup.args 1).Reachable s ∧
      Joined {} s .recovered ∧ told {} s.state.books.trace = .recovered := by
  obtain ⟨s, hreachable, -, hacc, hsent, hreturned, -⟩ := mend_repair
  have hpipe := run_pipe_reachable hreachable
  have hjoined : Joined {} s.pipe .recovered := by
    have hreconciled : finish {} s.pipe.sent.length (some (.ok { mismatch := 1, recovered := 1 })) =
        .recovered := by
      rw [hsent]
      rfl
    rw [← hreconciled]
    exact .returned hacc hreturned
  refine ⟨s.pipe, hpipe, hjoined, ?_⟩
  rcases exit_told hpipe hjoined with ⟨hcode, -⟩ | ⟨-, -, htold⟩
  · cases hcode
  · exact htold.symm

theorem recovered_exit_mended_crafted : ∃ s : Run Block,
    (run mendSetup.env mendSetup.args mendSetup.batchMax mendSetup.driver).Reachable s ∧
      Mended mendSetup config ctx (.fixed [entry]) [loneExtent] s.pipe.state.books.trace
        0x10000 := by
  obtain ⟨hcfg, hslot⟩ := mendSetup_resolved
  obtain ⟨out, hscrub, hevents, hstats⟩ := event_emitted
  obtain ⟨s, hreachable, hemitted, hacc, hsent, hreturned, -⟩ := mend_repair
  have hdisk : (config.dataDev mendSetup.slot).isSome = true := by
    rw [hslot]
    rfl
  have hall : s.emitted = out.events.map (scrubEvent ctx.strategy) := by
    rw [hemitted, hevents]
    rfl
  have hcode : finish (totals out.stats {}) s.pipe.sent.length
      (some (.ok { mismatch := 1, recovered := 1 })) = .recovered := by
    rw [hstats, hsent]
    rfl
  have hjoined : Joined (totals out.stats {}) s.pipe .recovered := by
    rw [← hcode]
    exact .returned hacc hreturned
  have hmended := (recovered_exit_mended hcfg hdisk rfl hscrub hreachable hall hjoined).2.2
    event (by rw [hevents]; exact List.mem_singleton_self _)
  exact ⟨s, hreachable, hmended⟩

end Crafted
end Rotshield.Main
