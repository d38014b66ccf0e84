import Rotshield.BatchRecover.Conservation
import Rotshield.Main.Driver

/-! No run that emitted a mismatch exits clean, unless the slot has no data disk. -/
namespace Rotshield.Main
open BatchRecover (BatchStats Candidate WriterEnv WriterArgs Pipeline Stage Event)
open DiskArray (ArrayConfig)

/-! ### The events of the scrub -/

section Events
variable {m : Type → Type} [Monad m] [LawfulMonad m] [MonadExceptOf Halt m] [MonadAttach m]
  [LawfulMonadAttach m] {P : Type} {ctx : Btrfs.ScrubContext m} {src : Btrfs.CsumSource m P}

/-- Each event carries a checksum; without a pipeline each is counted as a mismatch. -/
structure Recorded (ctx : Btrfs.ScrubContext m) (out : Btrfs.ScrubOut) : Prop where
  stored : ∀ r ∈ out.events, r.storedCsum.isSome = true
  counted : ctx.batch = false → out.events.length = out.stats.sectorsMismatch

omit [LawfulMonad m] [LawfulMonadAttach m] in
theorem Recorded.change {out out' : Btrfs.ScrubOut} (h : Recorded ctx out)
    (hchange : Btrfs.Change ctx out out') : Recorded ctx out' := by
  have hemit : ∀ dext entry actual unreadable,
      ∀ r ∈ out.events ++ [Btrfs.sectorResult dext entry actual unreadable],
        r.storedCsum.isSome = true := by
    intro dext entry actual unreadable r hr
    rcases List.mem_append.mp hr with hr | hr
    · exact h.stored r hr
    · obtain rfl := List.mem_singleton.mp hr
      rfl
  cases hchange with
  | ok => exact ⟨h.stored, h.counted⟩
  | raw dext entry actual differs batch =>
      exact ⟨hemit dext entry actual false, fun hplain => by rw [batch] at hplain; cases hplain⟩
  | unresolved => exact ⟨h.stored, h.counted⟩
  | mismatch dext entry actual differs plain =>
      refine ⟨hemit dext entry actual false, fun _ => ?_⟩
      have hlength : (out.events ++ [Btrfs.sectorResult dext entry actual false]).length =
          out.stats.sectorsMismatch + 1 := by
        rw [List.length_append, h.counted plain]
        rfl
      exact hlength
  | stale => exact ⟨h.stored, h.counted⟩
  | unreadable => exact ⟨h.stored, h.counted⟩
  | unreadableRaw dext entry batch =>
      exact ⟨hemit dext entry [] true, fun hplain => by rw [batch] at hplain; cases hplain⟩
  | truncated => exact ⟨h.stored, h.counted⟩

theorem scrub_recorded {depth : Nat} {p : P} {devExtents : List Btrfs.DevExtent}
    {counters : Btrfs.Counters} {threaded : Bool} {out : Btrfs.ScrubOut}
    (h : Btrfs.ScrubReturns ctx src depth p devExtents counters threaded out) :
    Recorded ctx out := by
  obtain ⟨work, rsps, out₁, p', hscrubbed, rfl⟩ := h.scrubbed
  have hrecorded : Recorded ctx out₁ := hscrubbed.verified.keeps ⟨nofun, fun _ => rfl⟩
    (fun _ _ hout hchange => hout.change hchange) fun _ _ hout => ⟨hout.stored, hout.counted⟩
  exact ⟨hrecorded.stored, hrecorded.counted⟩

end Events

/-! ### The candidates of the events -/

section Candidates
variable {σ : Type} {env : WriterEnv σ} {args : WriterArgs} {batchMax : Nat} {driver : Driver}
  {s : Run σ}

theorem run_pipe_reachable (h : (run env args batchMax driver).Reachable s) :
    (BatchRecover.pipeline env args batchMax).Reachable s.pipe := by
  apply h.invariant
  · intro s hs
    exact .init hs.2
  · intro s s' hs hstep
    cases hstep with
    | @forward ev c made open_ room peer => exact .step hs (.send c open_ room peer)
    | refused => exact hs
    | ignored => exact hs
    | other step => exact .step hs step

/-- The writer stopped, or the accumulator panicked. -/
def Failed (s : Pipeline σ) : Prop :=
  (∃ why, s.writer = .stopped why) ∨ ∃ lost, s.acc = .panicked lost

theorem Failed.step {s s' : Pipeline σ} (h : Failed s)
    (hstep : Pipeline.Step env args batchMax s s') : Failed s' := by
  rcases h with ⟨why, hwhy⟩ | ⟨lost, hlost⟩
  · exact .inl ⟨why, Pipeline.step_stopped hwhy hstep⟩
  · exact .inr ⟨lost, Pipeline.step_panicked hlost hstep⟩

/-- Every candidate that was made was sent, unless a thread failed. -/
def Handed (driver : Driver) (s : Run σ) : Prop :=
  (∀ ev ∈ s.emitted, ∀ c, driver.candidate ev = some c → c ∈ s.pipe.sent) ∨ Failed s.pipe

theorem run_handed (h : (run env args batchMax driver).Reachable s) : Handed driver s := by
  induction h with
  | init h =>
      left
      rw [h.1]
      exact nofun
  | @step s s' hs hstep ih =>
      have hsound := Pipeline.reachable_sound (run_pipe_reachable hs)
      cases hstep with
      | @forward ev c made open_ room peer =>
          rcases ih with ih | hfailed
          · left
            intro ev' hev' c' hc'
            rcases List.mem_append.mp hev' with hev' | hev'
            · exact List.mem_append_left _ (ih ev' hev' c' hc')
            · obtain rfl := List.mem_singleton.mp hev'
              obtain rfl := Option.some.inj (made.symm.trans hc')
              exact List.mem_append_right _ (List.mem_singleton_self _)
          · exact .inr hfailed
      | refused made open_ peer =>
          -- A running writer keeps the accumulator open while the scrub sends, unless it panicked.
          rcases hsound with hinv | hstopped
          · have hopen := (hinv.sending open_).1
            cases hacc : s.pipe.acc with
            | returned => rw [hacc] at hopen; cases hopen
            | panicked lost => exact .inr (.inr ⟨lost, hacc⟩)
            | _ => rw [hacc] at peer; cases peer
          · exact .inr (.inl hstopped)
      | @ignored ev made open_ =>
          rcases ih with ih | hfailed
          · left
            intro ev' hev' c' hc'
            rcases List.mem_append.mp hev' with hev' | hev'
            · exact ih ev' hev' c' hc'
            · obtain rfl := List.mem_singleton.mp hev'
              rw [made] at hc'
              cases hc'
          · exact .inr hfailed
      | other step sent =>
          rcases ih with ih | hfailed
          · left
            intro ev' hev' c' hc'
            rw [sent]
            exact ih ev' hev' c' hc'
          · exact .inr (hfailed.step step)

/-- At the end of a run, what was sent and not classified stale blocks the clean exit. -/
theorem sent_issue (h : (BatchRecover.pipeline env args batchMax).Reachable s.pipe)
    {stats : BatchStats} (hacc : s.pipe.acc = .returned)
    (hend : s.pipe.writer = .returned stats) {c : Candidate} (hc : c ∈ s.pipe.sent)
    (hstale : Event.classify c.arrayPhys .stale ∉ s.pipe.state.books.trace) :
    0 < stats.mismatch ∨ 0 < stats.skipped := by
  obtain ⟨⟨count, sectors, hledger, -, hcover⟩, rfl⟩ := Pipeline.returned_conserved h hend
  rw [hacc] at hcover
  rcases hcover c hc with hlisted | ⟨_, hnone, -⟩
  · obtain ⟨stage, hclassified⟩ := hledger.listed _ hlisted
    have hcounted := hledger.counted _ _ hclassified
    cases stage with
    | stale => exact absurd hclassified hstale
    | skipped => exact .inr hcounted
    | mismatch => exact .inl hcounted
  · cases hnone

end Candidates

theorem cascade_ne_success {stats : ScrubStats} {batch : BatchStats} {hadWriter : Bool}
    (h : issuesFound stats batch = true) : cascade stats batch hadWriter ≠ .success := by
  unfold cascade
  rw [h]
  split
  · nofun
  · split
    · rename_i hclean
      cases hclean
    · split
      · nofun
      · split <;> nofun

/-! ### The exit code -/

section Program
variable {σ : Type} {m : Type → Type} [Monad m] [LawfulMonad m] [MonadExceptOf Halt m]
  [MonadAttach m] [LawfulMonadAttach m] {P : Type}

/-- Where the slot has a data disk, each event with a checksum makes a candidate. -/
theorem candidate_made {driver : Driver} {cfg : ArrayConfig} (hcfg : driver.cfg = some cfg)
    (hattached : driver.attached = true) (hslot : (cfg.dataDev driver.scrubSlot).isSome = true)
    {ev : ScrubEvent} (hverify : ev.verify.isSome = true) :
    ∃ c, driver.candidate ev = some c ∧ c.arrayPhys = ev.arrayPhys := by
  obtain ⟨failingDev, hdev⟩ := Option.isSome_iff_exists.mp hslot
  obtain ⟨verify, hev⟩ := Option.isSome_iff_exists.mp hverify
  unfold Driver.candidate ArrayConfig.rawPhys
  simp [hattached, hcfg, hev, hdev]

/-- A run that emitted an event for a sector it did not classify stale does not exit with success,
where the slot of the array has a data disk. -/
theorem no_false_clean_exit {setup : Setup σ} {ctx : Btrfs.ScrubContext m}
    {src : Btrfs.CsumSource m P} {depth : Nat} {p : P} {devExtents : List Btrfs.DevExtent}
    {counters : Btrfs.Counters} {metadata : Btrfs.MetadataErrors}
    {events : List Btrfs.SectorResult} {stale : Nat → Prop} {code : ExitCode}
    (hslot : ∀ cfg, setup.cfg = some cfg → (cfg.dataDev setup.slot).isSome = true)
    (h : RunScrub setup ctx src depth p devExtents counters metadata events stale code)
    {r : Btrfs.SectorResult} (hr : r ∈ events) (hstale : ¬stale r.arrayPhys.toNat) :
    code ≠ .success := by
  cases h with
  | @plain _ out alone batch scrub =>
      have hplain : ctx.batch = false := by
        rw [batch, Setup.driver, Driver.wantsRawCandidates, alone]
        rfl
      have hcounted := (scrub_recorded scrub).counted hplain
      have hpos := List.length_pos_of_mem hr
      apply cascade_ne_success
      have hmismatch : 0 < (totals out.stats metadata).sectorsMismatch + ({} : BatchStats).mismatch := by
        rw [hcounted] at hpos
        exact hpos
      simp only [issuesFound, Bool.or_eq_true, decide_eq_true_eq]
      exact .inl (.inl (.inl (.inl hmismatch)))
  | @pipelined cfg _ out s code array canary args batch scrub reachable emitted joined =>
      cases joined with
      | accPanicked => nofun
      | stopped => nofun
      | @returned stats hacc hreturned =>
        have hev : scrubEvent ctx.strategy r ∈ s.emitted := by
          rw [emitted]
          exact List.mem_map_of_mem hr
        have hverify : (scrubEvent ctx.strategy r).verify.isSome = true := by
          rw [scrubEvent, Option.isSome_map]
          exact (scrub_recorded scrub).stored r hr
        have hattached : setup.driver.attached = true := by
          rw [Setup.driver, array]
          rfl
        have hcfg : setup.driver.cfg = some cfg := array
        obtain ⟨c, hmade, hphys⟩ := candidate_made hcfg hattached (hslot cfg array) hverify
        have hsent : c ∈ s.pipe.sent := by
          rcases run_handed reachable with hhanded | ⟨why, hstopped⟩ | ⟨lost, hlost⟩
          · exact hhanded _ hev c hmade
          · rw [hreturned] at hstopped
            cases hstopped
          · rw [hacc] at hlost
            cases hlost
        have hissue := sent_issue (run_pipe_reachable reachable) hacc hreturned hsent (by
          rw [hphys]
          exact hstale)
        unfold finish
        dsimp only
        split
        · apply cascade_ne_success
          simp only [issuesFound, Bool.or_eq_true, decide_eq_true_eq]
          omega
        · nofun

end Program

/-! ### A slot with no data disk: the parity disk's partition -/

namespace Crafted
open Btrfs (ScrubReturns)
open DiskArray (reconstructBlock)
open Btrfs.Crafted (strategy changed changed_length rot rot_pread compute_changed)

def config : ArrayConfig where
  dataDevs := [(1, "/dev/sdb")]
  parityP := some "/dev/sdc"
  parityQ := none
  rdevOffsets := []
  slots_sorted := by decide

def setup (dev : Path) (slot : Nat) : Setup Unit where
  dev
  loaded := some config
  canonicalize := some
  env := BatchRecover.staleEnv
  args := { cfg := config, scrubSlot := slot, dryRun := false, freezeTimeout := 0 }
  batchMax := 1

theorem setup_resolved : (setup "/dev/nmd0p1" 0).cfg = some config ∧ (setup "/dev/nmd0p1" 0).slot = 0 := by
  have hslot : slotFromArrayPartition "/dev/nmd0p1" = some 0 := by decide
  unfold Setup.cfg Setup.slot setup resolveSlot
  rw [hslot]
  exact ⟨rfl, rfl⟩

def ctx : Btrfs.ScrubContext Exec where
  reader := rot.reader (.checked 16384 0 strategy 1 Btrfs.Crafted.fsid)
  reopen := .ok (.ok ())
  chunkMap := ⟨[⟨0x10000, 0x20000, Btrfs.BgFlag.data, [⟨1, 0x10000⟩]⟩]⟩
  strategy
  batch := true
  isolationLimit := 64
  isolationLimit_pos := Btrfs.Crafted.limit_pos

/-- The checksum of the sector before a byte of it changed. -/
def entry : Btrfs.CsumEntry := ⟨0x10000, strategy.compute (changed 100 3995 0)⟩

def event : Btrfs.SectorResult :=
  Btrfs.sectorResult Btrfs.Crafted.loneExtent entry (strategy.compute (changed 100 3995 0x5A)) false

/-- The sector is found, and emitted. -/
theorem event_emitted : ∃ out : Btrfs.ScrubOut,
    ScrubReturns ctx (.fixed [entry]) 16 () [Btrfs.Crafted.loneExtent] none true out ∧
      out.events = [event] ∧ out.stats = { sectorsChecked := 1, bytesChecked := 4096 } := by
  have hread : Btrfs.isolateRunRead ctx ⟨Btrfs.Crafted.loneExtent, [entry]⟩ = _ :=
    Btrfs.isolateRunRead_single (congrArg Except.ok rot_pread)
  have hlen : (changed 100 3995 0x5A).length = ctx.sz := changed_length 100 3995 0x5A
  have hrsp : Btrfs.processRsp ctx (.start none) (⟨Btrfs.Crafted.loneExtent, [entry]⟩, _) = _ :=
    Btrfs.processRsp_single hlen 64 (.start none)
  have hdiffers : ctx.strategy.compute (changed 100 3995 0x5A) ≠ entry.csum :=
    compute_changed 100 3995 (by decide)
  unfold Btrfs.processSector at hrsp
  dsimp only at hrsp
  have hbatch : ctx.batch = true := rfl
  rw [if_neg hdiffers, if_pos hbatch] at hrsp
  exact ⟨_, .single (by decide) rfl rfl rfl hread hrsp, rfl, rfl⟩

/-- A run that finds a mismatch and exits with success. -/
theorem clean_exit_crafted : ∃ stale : Nat → Prop,
    RunScrub (setup "/dev/nmd0p1" 0) ctx (.fixed [entry]) 16 () [Btrfs.Crafted.loneExtent] none {}
      [event] stale .success ∧
      event.unreadable = false ∧ some event.actualCsum ≠ event.storedCsum ∧
        ∀ a, ¬stale a := by
  obtain ⟨out, hscrub, hevents, hstats⟩ := event_emitted
  obtain ⟨hcfg, hslot⟩ := setup_resolved
  have hnone : (setup "/dev/nmd0p1" 0).driver.candidate (scrubEvent strategy event) = none := by
    unfold Driver.candidate Setup.driver
    rw [hcfg, hslot]
    rfl
  let parity := setup "/dev/nmd0p1" 0
  let R := (run parity.env parity.args 1 parity.driver).Reachable
  let step {s s' : Run Unit} (h : R s) (hs : RunStep parity.env parity.args 1 parity.driver s s') :
      R s' := .step h hs
  let ev := scrubEvent strategy event
  let state : BatchRecover.WriterState Unit := .start () none none
  have h : R ⟨[], .start () none none⟩ := .init ⟨rfl, (), none, none, rfl⟩
  have h : R ⟨[], .sending, [], [], .waiting, [], .receiving [], state⟩ :=
    step h (.other (.allocate rfl (by decide)) rfl)
  have h : R ⟨[ev], .sending, [], [], .waiting, [], .receiving [], state⟩ :=
    step h (.ignored hnone rfl)
  have h : R ⟨[ev], .closed, [], [.done], .waiting, [], .receiving [], state⟩ :=
    step h (.other (.sendDone rfl Nat.zero_lt_one rfl) rfl)
  have h : R ⟨[ev], .closed, [], [], .finishing [], [], .receiving [], state⟩ :=
    step h (.other (.recvFirstDone rfl rfl) rfl)
  have h : R ⟨[ev], .closed, [], [], .sendingDone, [], .receiving [], state⟩ :=
    step h (.other (.nothingLeft rfl) rfl)
  have h : R ⟨[ev], .closed, [], [], .returned, [.done], .receiving [], state⟩ :=
    step h (.other (.sendDoneB rfl Nat.zero_lt_one rfl) rfl)
  have h : R ⟨[ev], .closed, [], [], .returned, [], .draining [], state⟩ :=
    step h (.other (.recvDoneB rfl rfl) rfl)
  have h : R ⟨[ev], .closed, [], [], .returned, [], .returned {}, state⟩ :=
    step h (.other (.drained rfl) rfl)
  have hbatch : ctx.batch = (setup "/dev/nmd0p1" 0).driver.wantsRawCandidates := by
    rw [Driver.wantsRawCandidates, Setup.driver, hcfg]
    rfl
  have hrun : RunScrub (setup "/dev/nmd0p1" 0) ctx (.fixed [entry]) 16 ()
      [Btrfs.Crafted.loneExtent] none {} out.events _ _ :=
    .pipelined hcfg ⟨(), (), by rw [hslot]; rfl⟩ ⟨rfl, hslot.symm⟩ hbatch hscrub h
      (by rw [hevents]; rfl) (.returned rfl rfl)
  rw [hevents, hstats] at hrun
  refine ⟨_, hrun, rfl, ?_, nofun⟩
  intro heq
  exact compute_changed 100 3995 (by decide) (Option.some.inj heq)

/-! The same mismatch on the data disk of slot 1, which re-confirmation cannot verify. -/

/-- P alone has the superblock's magic; the data disk cannot be read. -/
def parityByte (i : Nat) : UInt8 := Btrfs.btrfsMagic.getD (i - (0x10000 + Btrfs.offMagic)) 0

def unverifiableEnv : WriterEnv Unit where
  io :=
    { size := fun _ => pure 0x20000
      readExact := fun path raw _ =>
        if path = "/dev/sdc" then pure (Vector.ofFn fun i => parityByte (raw + i)) else throw .other
      writeAll := fun _ _ _ => throw .other }
  freezePath _ := throw .other
  thawPath _ := throw .other
  now := pure 0
  reconfirm _ := pure .unverifiable
  dropCache _ := throw .other
  isBlockDevice _ := pure false

def dataSetup : Setup Unit := { setup "/dev/nmd1p1" 1 with env := unverifiableEnv }

theorem dataSetup_resolved : dataSetup.cfg = some config ∧ dataSetup.slot = 1 := by
  have hslot : slotFromArrayPartition "/dev/nmd1p1" = some 1 := by decide
  unfold Setup.cfg Setup.slot dataSetup setup resolveSlot
  rw [hslot]
  exact ⟨rfl, rfl⟩

theorem recoverViaP_alone {n : Nat} (p : Vector UInt8 n) :
    Recovery.recoverViaP [] (DiskArray.zeroFill p n) = p := by
  apply Vector.ext
  intro i h
  simp [Recovery.recoverViaP, Recovery.xorInplace, DiskArray.zeroFill]

theorem reconstruct_parity : ∃ block, reconstructBlock unverifiableEnv.io config 1
    Btrfs.superblockOffset.toNat 4096 () = (.ok block, ()) ∧
      ∀ i (h : i < 4096), block[i] = parityByte (0x10000 + i) := by
  refine ⟨Recovery.recoverViaP [] (DiskArray.zeroFill (Vector.ofFn fun i : Fin 4096 =>
    parityByte (0x10000 + i)) 4096), rfl, ?_⟩
  intro i h
  rw [recoverViaP_alone, Vector.getElem_ofFn]

theorem hasMagic_parity {block : Vector UInt8 4096}
    (h : ∀ i (h : i < 4096), block[i] = parityByte (0x10000 + i)) :
    Btrfs.hasMagicAt block.toList Btrfs.offMagic = true := by
  have hmagic : (block.toList.drop 64).take 8 = Btrfs.btrfsMagic := by
    apply List.ext_getElem
    · simp [Btrfs.btrfsMagic]
    · intro i hi hi'
      have hlt : i < 8 := hi'
      have hbyte : ∀ j < 8, parityByte (0x10000 + (64 + j)) = Btrfs.btrfsMagic.getD j 0 := by decide
      rw [List.getElem_take, List.getElem_drop, Vector.getElem_toList, h (64 + i) (by omega),
        hbyte i hlt, List.getD_eq_getElem?_getD, List.getElem?_eq_getElem hi', Option.getD_some]
  have hlen : block.toList.length = 4096 := Vector.length_toList
  unfold Btrfs.hasMagicAt
  rw [hlen]
  simp only [Bool.and_eq_true, decide_eq_true_eq, beq_iff_eq]
  exact ⟨by decide, hmagic⟩

theorem bind_run {α β : Type} {x : StateM Unit α} {a : α} {s s' : Unit} (h : x s = (a, s'))
    (f : α → StateM Unit β) : (x >>= f) s = f a s' := by
  change f (x s).1 (x s).2 = _
  rw [h]

theorem dataSetup_canary : canaryPasses unverifiableEnv.io (some config) 1 () = (true, ()) := by
  obtain ⟨block, hrun, hbytes⟩ := reconstruct_parity
  have hblock : (reconstructBlock unverifiableEnv.io config 1 Btrfs.superblockOffset.toNat
      4096).run () = (.ok block, ()) := hrun
  unfold canaryPasses
  dsimp only
  rw [if_neg Nat.one_ne_zero, bind_run hblock]
  exact Prod.ext (hasMagic_parity hbytes) rfl

def dataCandidate : Candidate where
  arrayPhys := 0x10000
  blockSize := 4096
  verify b := strategy.compute b == entry.csum
  rawPhys := 0x10000
  failingDev := "/dev/sdb"
  reconfirm := some { token := 0x10000, storedCsum := entry.csum }
  unreadable := false

/-- The candidate is sent, cannot be verified, and is skipped. -/
theorem dataSetup_run : ∃ s stats, (run dataSetup.env dataSetup.args 1 dataSetup.driver).Reachable s ∧
    s.emitted = [scrubEvent strategy event] ∧ s.pipe.acc = .returned ∧
      s.pipe.writer = .returned stats ∧ ∀ a, Event.classify a .stale ∉ s.pipe.state.books.trace := by
  obtain ⟨hcfg, hslot⟩ := dataSetup_resolved
  have hmade : dataSetup.driver.candidate (scrubEvent strategy event) = some dataCandidate := by
    unfold Driver.candidate Setup.driver
    rw [hcfg, hslot]
    rfl
  let R := (run dataSetup.env dataSetup.args 1 dataSetup.driver).Reachable
  let step {s s' : Run Unit} (h : R s)
      (hs : RunStep dataSetup.env dataSetup.args 1 dataSetup.driver s s') : R s' := .step h hs
  let ev := scrubEvent strategy event
  let c := dataCandidate
  let state : BatchRecover.WriterState Unit := .start () none none
  have h : R ⟨[], .start () none none⟩ := .init ⟨rfl, (), none, none, rfl⟩
  have h : R ⟨[], .sending, [], [], .waiting, [], .receiving [], state⟩ :=
    step h (.other (.allocate rfl (by decide)) rfl)
  have h : R ⟨[ev], .sending, [c], [.candidate c], .waiting, [], .receiving [], state⟩ :=
    step h (.forward hmade rfl Nat.zero_lt_one rfl)
  have h : R ⟨[ev], .sending, [c], [], .collecting [c], [], .receiving [], state⟩ :=
    step h (.other (.recvFirst rfl rfl) rfl)
  have h : R ⟨[ev], .sending, [c], [], .sending [c], [], .receiving [], state⟩ :=
    step h (.other (.batchFull rfl (Nat.le_refl 1)) rfl)
  have h : R ⟨[ev], .sending, [c], [], .waiting, [.batch [c]], .receiving [], state⟩ :=
    step h (.other (.sendBatch rfl Nat.zero_lt_one rfl) rfl)
  have h := step h (.other (.recvBatch rfl rfl) rfl)
  have h := step h (.other (.sendDone rfl Nat.zero_lt_one rfl) rfl)
  have h := step h (.other (.recvFirstDone rfl rfl) rfl)
  have h := step h (.other (.nothingLeft rfl) rfl)
  have h := step h (.other (.sendDoneB rfl Nat.zero_lt_one rfl) rfl)
  have h := step h (.other (.recvDoneB rfl rfl) rfl)
  have h := step h (.other (.drained rfl) rfl)
  refine ⟨_, _, h, rfl, rfl, rfl, ?_⟩
  intro a hstale
  obtain ⟨⟨count, sectors, hledger, -⟩, hstats⟩ :=
    Pipeline.returned_conserved (run_pipe_reachable h) rfl
  have hpos := hledger.counted a .stale hstale
  rw [← hstats] at hpos
  exact absurd hpos (by decide)

theorem no_false_clean_exit_crafted : ∃ stale code,
    RunScrub dataSetup ctx (.fixed [entry]) 16 () [Btrfs.Crafted.loneExtent] none {}
      [event] stale code ∧ ¬stale event.arrayPhys.toNat ∧ code ≠ .success := by
  obtain ⟨out, hscrub, hevents, -⟩ := event_emitted
  obtain ⟨hcfg, hslot⟩ := dataSetup_resolved
  obtain ⟨s, stats, hreachable, hemitted, hacc, hreturned, hstale⟩ := dataSetup_run
  have hcanary : ∃ w w', canaryPasses dataSetup.env.io dataSetup.cfg dataSetup.slot w = (true, w') := by
    rw [hcfg, hslot]
    exact ⟨(), (), dataSetup_canary⟩
  have hbatch : ctx.batch = dataSetup.driver.wantsRawCandidates := by
    rw [Driver.wantsRawCandidates, Setup.driver, hcfg]
    rfl
  have hrun : RunScrub dataSetup ctx (.fixed [entry]) 16 () [Btrfs.Crafted.loneExtent] none {}
      out.events _ _ :=
    .pipelined hcfg hcanary ⟨rfl, hslot.symm⟩ hbatch hscrub hreachable
      (by rw [hevents]; exact hemitted) (.returned hacc hreturned)
  rw [hevents] at hrun
  have hdata : ∀ cfg, dataSetup.cfg = some cfg → (cfg.dataDev dataSetup.slot).isSome = true := by
    rw [hcfg, hslot]
    rintro _ ⟨⟩
    rfl
  exact ⟨_, _, hrun, hstale _,
    no_false_clean_exit hdata hrun (List.mem_singleton_self event) (hstale _)⟩

end Crafted
end Rotshield.Main
