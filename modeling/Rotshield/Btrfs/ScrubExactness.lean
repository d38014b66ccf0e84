import Mathlib.Algebra.Order.BigOperators.Group.List
import Mathlib.Algebra.Order.Ring.Nat
import Rotshield.Btrfs.Craft
import Rotshield.Btrfs.Prefetch
import Rotshield.Btrfs.RunReads

/-! Every checksummed sector is verified against its own bytes and counted once. -/
namespace Rotshield.Btrfs
open MonadAttach (CanReturn)

variable {m : Type → Type} {σ P : Type}

/-- Where a sector is in the file. -/
def ScrubContext.fileOffset (ctx : ScrubContext m) (dext : DevExtent) (logical : UInt64) : UInt64 :=
  ctx.reader.config.baseOffset + dext.physOf logical

/-- The sector ends within the addresses a file can have. -/
def ScrubContext.Fits (ctx : ScrubContext m) (dext : DevExtent) (logical : UInt64) : Prop :=
  ctx.reader.config.baseOffset.toNat + (dext.physOf logical).toNat + ctx.sz < 2 ^ 64

theorem DevExtent.physOf_add (dext : DevExtent) (logical d : UInt64) :
    dext.physOf (logical + d) = dext.physOf logical + d := by
  unfold DevExtent.physOf
  grind

theorem saturatingAdd_eq {a b : UInt64} (h : a.toNat + b.toNat < 2 ^ 64) :
    saturatingAdd a b = a + b := by
  rw [saturatingAdd, Nat.min_eq_left (by omega), UInt64.ofNat_add, UInt64.ofNat_toNat,
    UInt64.ofNat_toNat]

section Offsets
variable {ctx : ScrubContext m} {cmd : ReadCmd}

/-- Where the sectors of a run are on the device. -/
theorem ReadCmd.phys_sector (hrun : Contiguous ctx.strategy.sectorSize cmd.entries)
    (hfits : ∀ e ∈ cmd.entries, ctx.Fits cmd.dext e.logical) {i : Nat}
    (hi : i < cmd.entries.length) :
    cmd.dext.physOf cmd.entries[i].logical = cmd.phys + UInt64.ofNat (i * ctx.sz) ∧
      (cmd.dext.physOf cmd.entries[i].logical).toNat = cmd.phys.toNat + i * ctx.sz := by
  induction i with
  | zero =>
      have hphys : cmd.phys = cmd.dext.physOf cmd.entries[0].logical := by
        unfold ReadCmd.phys
        split
        · rename_i hnil
          rw [hnil] at hi
          cases hi
        · rename_i e rest hcons
          simp [hcons]
      rw [hphys]
      simp
  | succ i ih =>
      obtain ⟨haddr, hnat⟩ := ih (Nat.lt_of_succ_lt hi)
      have hfit := hfits _ (List.getElem_mem (Nat.lt_of_succ_lt hi))
      unfold ScrubContext.Fits at hfit
      rw [hnat] at hfit
      have hnext : cmd.dext.physOf cmd.entries[i + 1].logical =
          cmd.phys + UInt64.ofNat ((i + 1) * ctx.sz) := by
        rw [List.IsChain.getElem hrun i hi, DevExtent.physOf_add, haddr, UInt64.add_assoc,
          Nat.succ_mul, UInt64.ofNat_add (i * ctx.sz), ScrubContext.sz, UInt64.ofNat_toNat]
      refine ⟨hnext, ?_⟩
      rw [hnext, UInt64.toNat_add, UInt64.toNat_ofNat', Nat.succ_mul, Nat.mod_eq_of_lt (by omega),
        Nat.mod_eq_of_lt (by omega)]

/-- Where they are in the file, and where the run ends there. -/
theorem ReadCmd.offset_sector (hrun : Contiguous ctx.strategy.sectorSize cmd.entries)
    (hfits : ∀ e ∈ cmd.entries, ctx.Fits cmd.dext e.logical) {i : Nat}
    (hi : i < cmd.entries.length) :
    ctx.fileOffset cmd.dext cmd.entries[i].logical =
      ctx.reader.config.baseOffset + cmd.phys + UInt64.ofNat (i * ctx.sz) := by
  rw [ScrubContext.fileOffset, (ReadCmd.phys_sector hrun hfits hi).1, UInt64.add_assoc]

theorem ReadCmd.fits (hrun : Contiguous ctx.strategy.sectorSize cmd.entries)
    (hfits : ∀ e ∈ cmd.entries, ctx.Fits cmd.dext e.logical) (hne : cmd.entries ≠ []) :
    ctx.reader.config.baseOffset.toNat + cmd.phys.toNat + cmd.len ctx < 2 ^ 64 := by
  have hpos := List.length_pos_of_ne_nil hne
  have hlast : cmd.entries.length - 1 < cmd.entries.length := by omega
  have hfit := hfits _ (List.getElem_mem hlast)
  unfold ScrubContext.Fits at hfit
  rw [(ReadCmd.phys_sector hrun hfits hlast).2] at hfit
  have hlen : cmd.len ctx = (cmd.entries.length - 1) * ctx.sz + ctx.sz := by
    rw [ReadCmd.len, ← Nat.succ_mul, Nat.succ_eq_add_one, Nat.sub_add_cancel hpos]
  omega

end Offsets

/-! ### The reads of a run -/

/-- Read by the reader thread, or inline. -/
def ScrubContext.readRun [Monad m] [MonadExceptOf Halt m] (ctx : ScrubContext m) (threaded : Bool)
    (cmd : ReadCmd) : m Isolation :=
  if threaded then isolateRunRead ctx cmd else inlineRead ctx cmd

def ScrubContext.runOffset (ctx : ScrubContext m) (threaded : Bool) (cmd : ReadCmd) : UInt64 :=
  if threaded then saturatingAdd ctx.reader.config.baseOffset cmd.phys
  else ctx.reader.config.baseOffset + cmd.phys

/-- A run with the calls that read it. -/
structure RunLog where
  cmd : ReadCmd
  log : List ReadCall

/-- The log is the one of an isolation of the run. -/
def RunLog.Issued (device : Device σ) (ctx : ScrubContext (ExceptT Halt (StateM σ)))
    (threaded : Bool) (r : RunLog) : Prop :=
  ∃ s s' iso, isolateRun
    (loggedRead (device.runRead ctx.reader.config threaded r.cmd.dext.devid))
    (ctx.runOffset threaded r.cmd) 0 (r.cmd.len ctx) ctx.strategy.sectorSize
    (.new ctx.isolationLimit) (s, []) = (.ok iso, (s', r.log))

section Device
variable {device : Device σ} {ctx : ScrubContext (ExceptT Halt (StateM σ))} {threaded : Bool}
  {cmd : ReadCmd} {iso : Isolation}

theorem readRun_eq (hreader : ctx.reader = device.reader ctx.reader.config) (threaded : Bool)
    (cmd : ReadCmd) :
    ctx.readRun threaded cmd =
      isolateRun (plainRead (device.runRead ctx.reader.config threaded cmd.dext.devid))
        (ctx.runOffset threaded cmd) 0 (cmd.len ctx) ctx.strategy.sectorSize
        (.new ctx.isolationLimit) := by
  have hpread : ctx.reader.pread = plainRead device.read := by
    rw [hreader]
    rfl
  cases threaded with
  | true =>
      change isolateRunRead ctx cmd = _
      rw [isolateRunRead, hpread]
      rfl
  | false =>
      change inlineRead ctx cmd = _
      have hphysical : ctx.reader.readPhysical cmd.dext.devid = fun phys len =>
          plainRead (device.runRead ctx.reader.config false cmd.dext.devid)
            (ctx.reader.config.baseOffset + phys) len := by
        funext phys len
        unfold FsReader.readPhysical plainRead Device.runRead
        rw [hpread, Bool.false_or]
        split <;> rfl
      rw [inlineRead, hphysical, isolateRun, isolateLoop_shift]
      rfl

/-- What the isolation of a run found, with the calls it issued. -/
theorem readRun_isolated (hreader : ctx.reader = device.reader ctx.reader.config)
    (h : CanReturn (ctx.readRun threaded cmd) iso) : ∃ log,
      RunLog.Issued device ctx threaded ⟨cmd, log⟩ ∧
      Isolated (device.runRead ctx.reader.config threaded cmd.dext.devid) ctx.sz
        (ctx.runOffset threaded cmd) 0 cmd.entries.length (.new ctx.isolationLimit) iso iso.good
        iso.bad log := by
  rw [readRun_eq hreader] at h
  obtain ⟨s, s', hrun⟩ := h
  obtain ⟨iso', s₁, log, hplain, hlogged, hiso⟩ := isolateRun_isolated
    (device.runRead_length ctx.reader.config threaded cmd.dext.devid) ctx.sz_pos
    (ctx.runOffset threaded cmd) cmd.entries.length ctx.isolationLimit_pos s
  obtain ⟨hsame, -⟩ := Prod.mk.inj (hplain.symm.trans hrun)
  cases hsame
  exact ⟨log, ⟨s, s₁, _, hlogged⟩, hiso⟩

open Classical in
/-- The sector of an entry, as the reads of its run gave it. -/
noncomputable def RunLog.check (device : Device σ) (ctx : ScrubContext m) (r : RunLog)
    (entry : CsumEntry) : SectorCheck where
  dext := r.cmd.dext
  entry
  bytes := if WasRead r.log (ctx.fileOffset r.cmd.dext entry.logical) ctx.sz then
      some (device.bytesAt (ctx.fileOffset r.cmd.dext entry.logical) ctx.sz)
    else none

theorem runOffset_eq (hrun : Contiguous ctx.strategy.sectorSize cmd.entries)
    (hfits : ∀ e ∈ cmd.entries, ctx.Fits cmd.dext e.logical) (hne : cmd.entries ≠ []) :
    ctx.runOffset threaded cmd = ctx.reader.config.baseOffset + cmd.phys := by
  unfold ScrubContext.runOffset
  split
  · have hend := ReadCmd.fits hrun hfits hne
    exact saturatingAdd_eq (by omega)
  · rfl

/-- The verification of a run adds each of its entries, with the bytes at its own offset. -/
theorem run_adds (hreader : ctx.reader = device.reader ctx.reader.config)
    (hrun : Contiguous ctx.strategy.sectorSize cmd.entries) (hne : cmd.entries ≠ [])
    (hfits : ∀ e ∈ cmd.entries, ctx.Fits cmd.dext e.logical)
    (hcsums : ∀ e ∈ cmd.entries, e.csum.length = ctx.strategy.hashLen)
    (h : CanReturn (ctx.readRun threaded cmd) iso) : ∃ log,
      RunLog.Issued device ctx threaded ⟨cmd, log⟩ ∧
      ∀ out out', CanReturn (processRsp ctx out (cmd, iso)) out' →
        Adds ctx (cmd.entries.map (RunLog.check device ctx ⟨cmd, log⟩)) out out' := by
  obtain ⟨log, hissued, hiso⟩ := readRun_isolated hreader h
  rw [runOffset_eq hrun hfits hne] at hiso
  have hend := ReadCmd.fits hrun hfits hne
  have hoffset : (ctx.reader.config.baseOffset + cmd.phys).toNat =
      ctx.reader.config.baseOffset.toNat + cmd.phys.toNat := by
    rw [UInt64.toNat_add, Nat.mod_eq_of_lt (by omega)]
  have hlen : cmd.len ctx = cmd.entries.length * ctx.sz := rfl
  refine ⟨log, hissued, fun out out' hprocess => ?_⟩
  have hparts := hiso.partitions (by rw [hoffset, ← hlen]; exact hend)
    fun _ _ _ _ _ => Device.runRead_ok
  have hadds := processRsp_adds ctx.sz_pos hcsums hparts hprocess
  suffices hchecks : (sectorOffsets ctx.sz 0 cmd.entries.length).filterMap
      (runCheck ctx.sz cmd iso.bad fun x =>
        device.bytesAt (ctx.reader.config.baseOffset + cmd.phys + .ofNat x) ctx.sz) =
      cmd.entries.map (RunLog.check device ctx ⟨cmd, log⟩) by
    rw [hchecks] at hadds
    exact hadds
  rw [runChecks_eq ctx.sz_pos]
  apply List.ext_getElem
  · rw [List.length_mapIdx, List.length_map]
  · intro i hi hi'
    have hlt : i < cmd.entries.length := by rwa [List.length_map] at hi'
    have hread := hiso.wasRead_iff ctx.sz_pos (by omega) hlt
    rw [List.getElem_mapIdx, List.getElem_map, RunLog.check, ReadCmd.offset_sector hrun hfits hlt]
    by_cases hbad : i * ctx.sz ∈ iso.bad
    · rw [if_pos hbad, if_neg fun h => hread.mp h hbad]
    · rw [if_neg hbad, if_pos (hread.mpr hbad)]

/-- However a run was cut, each of its sectors is counted. -/
theorem run_checked (hreader : ctx.reader = device.reader ctx.reader.config)
    (hcsums : ∀ e ∈ cmd.entries, e.csum.length = ctx.strategy.hashLen)
    (h : CanReturn (ctx.readRun threaded cmd) iso) {out out' : ScrubOut}
    (hprocess : CanReturn (processRsp ctx out (cmd, iso)) out') :
    out'.stats.sectorsChecked = out.stats.sectorsChecked + cmd.entries.length := by
  obtain ⟨log, -, hiso⟩ := readRun_isolated hreader h
  obtain ⟨content, hparts⟩ := exists_partitions ctx.sz_pos hiso.covers
    (fun r hr => ⟨(hiso.regions r hr).1, (hiso.regions r hr).2.1⟩)
    (fun r hr => by simpa using (hiso.inside r hr).2)
  rw [(processRsp_adds ctx.sz_pos hcsums hparts hprocess).checked, runChecks_eq ctx.sz_pos,
    List.length_mapIdx]

end Device

/-! ### A whole scrub -/

/-- The entries of the streams, each with its extent. -/
def sectorsOf (work : List Streamed) : List (DevExtent × CsumEntry) :=
  work.flatMap fun w => w.2.map fun e => (w.1, e)

def cmdSectors (cmd : ReadCmd) : List (DevExtent × CsumEntry) :=
  cmd.entries.map fun e => (cmd.dext, e)

theorem runCmds_sectors (cut : List CsumEntry → List (List CsumEntry)) (work : List Streamed)
    (hcut : ∀ w ∈ work, (cut w.2).flatten = w.2) :
    (runCmds cut work).flatMap cmdSectors = sectorsOf work := by
  rw [runCmds, List.flatMap_assoc, sectorsOf]
  apply List.flatMap_congr
  intro w hw
  conv_rhs => rw [← hcut w hw, List.map_flatten]
  rw [List.flatMap_map, List.flatMap_def]
  rfl

theorem runCmds_length (cut : List CsumEntry → List (List CsumEntry)) (work : List Streamed) :
    ((runCmds cut work).map fun c => c.entries.length).sum =
      (work.map fun w => (cut w.2).flatten.length).sum := by
  induction work with
  | nil => rfl
  | cons w work ih =>
      rw [runCmds, List.flatMap_cons, List.map_append, List.sum_append, List.map_cons,
        List.sum_cons, ← ih, List.length_flatten, List.map_map]
      rfl

/-- The sector of an entry was read, and its bytes have the stored checksum. -/
def RunLog.Verifies (device : Device σ) (ctx : ScrubContext m) (r : RunLog) (e : CsumEntry) :
    Prop :=
  WasRead r.log (ctx.fileOffset r.cmd.dext e.logical) ctx.sz ∧
    ctx.strategy.compute (device.bytesAt (ctx.fileOffset r.cmd.dext e.logical) ctx.sz) = e.csum

open Classical in
/-- Each sector of these streams is counted once, by what the reads of its run gave of the bytes at
its own offset. -/
structure CountedOnce (device : Device σ) (ctx : ScrubContext (ExceptT Halt (StateM σ)))
    (threaded : Bool) (work : List Streamed) (runs : List RunLog) (out : ScrubOut) : Prop where
  issued : ∀ r ∈ runs, r.Issued device ctx threaded
  sectors : runs.flatMap (fun r => cmdSectors r.cmd) = sectorsOf work
  checked : out.stats.sectorsChecked = (sectorsOf work).length
  ok : out.stats.sectorsOk =
    (runs.map fun r => r.cmd.entries.countP fun e => decide (r.Verifies device ctx e)).sum
  plain : ctx.batch = false → out.stats.sectorsChecked =
    out.stats.sectorsOk + out.stats.sectorsMismatch + out.stats.sectorsStale +
      out.stats.sectorsReadError
  events : ctx.batch = true →
    (out.events.map fun ev => (ev.devid, ev.logical, ev.arrayPhys, ev.storedCsum)).Perm
      (runs.flatMap fun r =>
        (r.cmd.entries.filter fun e => decide ¬r.Verifies device ctx e).map fun e =>
          (r.cmd.dext.devid, e.logical, r.cmd.dext.physOf e.logical, some e.csum))

/-- What a scrub returns, and whether it had a reader thread: without a second handle of the device
it has none. -/
inductive ScrubReturns [Monad m] [MonadExceptOf Halt m] [MonadAttach m] (ctx : ScrubContext m)
    (src : CsumSource m P) (depth : Nat) (p : P) (devExtents : List DevExtent)
    (counters : Counters) : Bool → ScrubOut → Prop where
  | threaded {s out} (reopened : CanReturn ctx.reopen (.ok ()))
      (reachable : (mortalPrefetch ctx src depth p devExtents counters).Reachable s)
      (result : s.result src = some out) : ScrubReturns ctx src depth p devExtents counters true out
  | inline {e out p'} (reopened : CanReturn ctx.reopen (.error e))
      (returned : CanReturn (scrubDevTreeInline ctx src p devExtents counters) (out, p')) :
      ScrubReturns ctx src depth p devExtents counters false out

/-- How the streams are cut. -/
def cutOf (threaded : Bool) (sectorSize : UInt64) : List CsumEntry → List (List CsumEntry) :=
  if threaded then runsOf sectorSize else inlineRunsOf sectorSize

theorem ScrubReturns.scrubbed [Monad m] [LawfulMonad m] [MonadExceptOf Halt m] [MonadAttach m]
    [LawfulMonadAttach m] {ctx : ScrubContext m} {src : CsumSource m P} {depth : Nat} {p : P}
    {devExtents : List DevExtent} {counters : Counters} {threaded : Bool} {out : ScrubOut}
    (h : ScrubReturns ctx src depth p devExtents counters threaded out) :
    ∃ work rsps out₁ p', Scrubbed ctx src (cutOf threaded ctx.strategy.sectorSize)
      (ctx.readRun threaded) p devExtents (.start counters) work rsps out₁ p' ∧
        out = out₁.finish src p' := by
  cases h with
  | threaded _ reachable result => exact Prefetch.result_scrubbed reachable result
  | @inline _ _ p' _ returned =>
      obtain ⟨work, rsps, out₁, hscrubbed, hout⟩ := scrubDevTreeInline_scrubbed returned
      exact ⟨work, rsps, out₁, p', hscrubbed, hout⟩

section Whole
variable {ctx : ScrubContext m} {first out : ScrubOut} {rsps : List (ReadCmd × Isolation)}

/-- The verified runs add what each of them adds. -/
theorem VerifiedRuns.adds [Monad m] [MonadExceptOf Halt m] [MonadAttach m]
    (h : VerifiedRuns ctx first rsps out) {checksOf : ReadCmd × Isolation → List SectorCheck}
    (hadds : ∀ r ∈ rsps, ∀ out out', CanReturn (processRsp ctx out r) out' →
      Adds ctx (checksOf r) out out') : Adds ctx (rsps.flatMap checksOf) first out := by
  induction h with
  | start => exact .nil rfl rfl rfl rfl
  | counters _ _ ih =>
      have hsame := ih hadds
      exact ⟨hsame.checked, hsame.ok, hsame.plain, hsame.events⟩
  | @rsp rsps out rsp out' _ hrsp ih =>
      rw [List.flatMap_append, List.flatMap_singleton]
      exact (ih fun r hr => hadds r (List.mem_append_left _ hr)).append
        (hadds rsp (List.mem_append_right _ (List.mem_singleton_self _)) _ _ hrsp)

theorem VerifiedRuns.checked [Monad m] [MonadExceptOf Halt m] [MonadAttach m]
    (h : VerifiedRuns ctx first rsps out)
    (hcounts : ∀ r ∈ rsps, ∀ out out', CanReturn (processRsp ctx out r) out' →
      out'.stats.sectorsChecked = out.stats.sectorsChecked + r.1.entries.length) :
    out.stats.sectorsChecked =
      first.stats.sectorsChecked + ((rsps.map (·.1)).map fun c => c.entries.length).sum := by
  induction h with
  | start => rfl
  | counters _ _ ih => exact ih hcounts
  | @rsp rsps out rsp out' _ hrsp ih =>
      rw [hcounts rsp (List.mem_append_right _ (List.mem_singleton_self _)) _ _ hrsp,
        ih fun r hr => hcounts r (List.mem_append_left _ hr)]
      simp [Nat.add_assoc]

end Whole

section Counted
variable {device : Device σ} {ctx : ScrubContext (ExceptT Halt (StateM σ))} {threaded : Bool}

theorem RunLog.check_ok (r : RunLog) (e : CsumEntry) :
    (r.check device ctx e).ok ctx = true ↔ r.Verifies device ctx e := by
  unfold RunLog.check SectorCheck.ok RunLog.Verifies
  by_cases hread : WasRead r.log (ctx.fileOffset r.cmd.dext e.logical) ctx.sz
  · simp [hread]
  · simp [hread]

open Classical in
theorem RunLog.check_ok_eq (r : RunLog) (e : CsumEntry) :
    (r.check device ctx e).ok ctx = decide (r.Verifies device ctx e) := by
  rw [Bool.eq_iff_iff, RunLog.check_ok, decide_eq_true_iff]

/-- The runs of a stream that were read as they are: each sector is counted once. -/
theorem Adds.countedOnce {counters : Counters} {out : ScrubOut} {work : List Streamed}
    {runs : List RunLog} (hissued : ∀ r ∈ runs, r.Issued device ctx threaded)
    (hsectors : runs.flatMap (fun r => cmdSectors r.cmd) = sectorsOf work)
    (h : Adds ctx (runs.flatMap fun r => r.cmd.entries.map (r.check device ctx))
      (.start counters) out) :
    CountedOnce device ctx threaded work runs out where
  issued := hissued
  sectors := hsectors
  checked := by
    rw [h.checked, ← hsectors, List.length_flatMap, List.length_flatMap]
    simp [cmdSectors, ScrubOut.start]
  ok := by
    classical
    rw [h.ok, List.countP_flatMap]
    simp [List.countP_map, Function.comp_def, RunLog.check_ok_eq, ScrubOut.start]
  plain hplain := by
    have hok := h.ok
    have hrest := h.plain hplain
    have hall := h.checked
    rw [List.length_eq_countP_add_countP (SectorCheck.ok ctx)] at hall
    simp only [ScrubOut.start, Nat.zero_add, Bool.not_eq_true, Bool.decide_eq_false] at hok hrest hall
    omega
  events hbatch := by
    classical
    have hevents := (h.events hbatch).map fun ev => (ev.devid, ev.logical, ev.arrayPhys, ev.storedCsum)
    refine hevents.trans (List.Perm.of_eq ?_)
    simp [ScrubOut.start, List.filter_flatMap, List.map_flatMap, List.filter_map, Function.comp_def,
      RunLog.check_ok_eq, SectorCheck.event, sectorResult]
    rfl

theorem mem_runCmds {cut : List CsumEntry → List (List CsumEntry)} {work : List Streamed}
    {cmd : ReadCmd} : cmd ∈ runCmds cut work ↔ ∃ w ∈ work, cmd.dext = w.1 ∧ cmd.entries ∈ cut w.2 := by
  unfold runCmds
  rw [List.mem_flatMap]
  constructor
  · rintro ⟨w, hw, hcmd⟩
    obtain ⟨run, hrun, rfl⟩ := List.mem_map.mp hcmd
    exact ⟨w, hw, rfl, hrun⟩
  · rintro ⟨w, hw, hdext, hrun⟩
    exact ⟨w, hw, List.mem_map.mpr ⟨_, hrun, by rw [← hdext]⟩⟩

/-- With a reader thread, or with streams of one run each, the cut is the one of the thread. -/
theorem runCmds_cutOf {sectorSize : UInt64} {work : List Streamed}
    (h : threaded = true ∨ ∀ w ∈ work, (runsOf sectorSize w.2).length ≤ 1) :
    runCmds (cutOf threaded sectorSize) work = runCmds (runsOf sectorSize) work := by
  apply List.flatMap_congr
  intro w hw
  congr 1
  unfold cutOf
  split
  · rfl
  · rename_i hinline
    rcases h with rfl | hsingle
    · exact absurd rfl hinline
    · exact inlineRunsOf_single (hsingle w hw)

/-- The runs are those the streams are cut into. -/
theorem scrubbed_runs {src : CsumSource (ExceptT Halt (StateM σ)) P} {p p' : P}
    {devExtents : List DevExtent} {counters : Counters} {work : List Streamed}
    {rsps : List (ReadCmd × Isolation)} {out : ScrubOut}
    (hreader : ctx.reader = device.reader ctx.reader.config)
    (hstreams : ∀ w ∈ work, ∀ e ∈ w.2,
      e.csum.length = ctx.strategy.hashLen ∧ ctx.Fits w.1 e.logical)
    (hcut : threaded = true ∨ ∀ w ∈ work, (runsOf ctx.strategy.sectorSize w.2).length ≤ 1)
    (h : Scrubbed ctx src (cutOf threaded ctx.strategy.sectorSize) (ctx.readRun threaded) p
      devExtents (.start counters) work rsps out p') :
    ∃ runs, CountedOnce device ctx threaded work runs out ∧
      runs.map (·.cmd) = runCmds (runsOf ctx.strategy.sectorSize) work := by
  have hruns := h.runs
  rw [runCmds_cutOf hcut] at hruns
  have hrun : ∀ r ∈ rsps, ∃ log, RunLog.Issued device ctx threaded ⟨r.1, log⟩ ∧
      ∀ out out', CanReturn (processRsp ctx out r) out' →
        Adds ctx (r.1.entries.map (RunLog.check device ctx ⟨r.1, log⟩)) out out' := by
    intro r hr
    have hcmd : r.1 ∈ runCmds (runsOf ctx.strategy.sectorSize) work := by
      rw [← hruns]
      exact List.mem_map_of_mem hr
    obtain ⟨w, hw, hdext, hmem⟩ := mem_runCmds.mp hcmd
    obtain ⟨hne, hcontiguous, -⟩ := runsOf_run ctx.strategy.sectorSize w.2 _ hmem
    refine run_adds hreader hcontiguous hne ?_ ?_ (h.isolated r hr)
    · intro e he
      rw [hdext]
      exact (hstreams w hw e (mem_of_mem_runsOf hmem he)).2
    · intro e he
      exact (hstreams w hw e (mem_of_mem_runsOf hmem he)).1
  choose! logOf hissued hadds using hrun
  have hall : Adds ctx ((rsps.map fun r => (⟨r.1, logOf r⟩ : RunLog)).flatMap fun r =>
      r.cmd.entries.map (r.check device ctx)) (.start counters) out := by
    rw [List.flatMap_map]
    exact h.verified.adds hadds
  refine ⟨rsps.map fun r => ⟨r.1, logOf r⟩, hall.countedOnce ?_ ?_, ?_⟩
  · intro r hr
    obtain ⟨rsp, hrsp, rfl⟩ := List.mem_map.mp hr
    exact hissued rsp hrsp
  · rw [List.flatMap_map, ← runCmds_sectors _ work fun w _ => runsOf_flatten _ w.2, ← hruns,
      List.flatMap_map]
  · rw [List.map_map]
    exact hruns

theorem scrubbed_countedOnce {src : CsumSource (ExceptT Halt (StateM σ)) P} {p p' : P}
    {devExtents : List DevExtent} {counters : Counters} {work : List Streamed}
    {rsps : List (ReadCmd × Isolation)} {out : ScrubOut}
    (hreader : ctx.reader = device.reader ctx.reader.config)
    (hstreams : ∀ w ∈ work, ∀ e ∈ w.2,
      e.csum.length = ctx.strategy.hashLen ∧ ctx.Fits w.1 e.logical)
    (hcut : threaded = true ∨ ∀ w ∈ work, (runsOf ctx.strategy.sectorSize w.2).length ≤ 1)
    (h : Scrubbed ctx src (cutOf threaded ctx.strategy.sectorSize) (ctx.readRun threaded) p
      devExtents (.start counters) work rsps out p') :
    ∃ runs, CountedOnce device ctx threaded work runs out := by
  obtain ⟨runs, hcounted, -⟩ := scrubbed_runs hreader hstreams hcut h
  exact ⟨runs, hcounted⟩

/-- Of a stream with a second run, the inline scrub counts sectors again. -/
theorem scrubbed_repeats {src : CsumSource (ExceptT Halt (StateM σ)) P} {p p' : P}
    {devExtents : List DevExtent} {counters : Counters} {work : List Streamed}
    {rsps : List (ReadCmd × Isolation)} {out : ScrubOut}
    (hreader : ctx.reader = device.reader ctx.reader.config)
    (hcsums : ∀ w ∈ work, ∀ e ∈ w.2, e.csum.length = ctx.strategy.hashLen)
    (hseveral : ∃ w ∈ work, 2 ≤ (runsOf ctx.strategy.sectorSize w.2).length)
    (h : Scrubbed ctx src (inlineRunsOf ctx.strategy.sectorSize) (ctx.readRun threaded) p
      devExtents (.start counters) work rsps out p') :
    (sectorsOf work).length < out.stats.sectorsChecked := by
  have hchecked := h.verified.checked fun r hr out out' hprocess => by
    have hcmd : r.1 ∈ runCmds (inlineRunsOf ctx.strategy.sectorSize) work := by
      rw [← h.runs]
      exact List.mem_map_of_mem hr
    obtain ⟨w, hw, -, hmem⟩ := mem_runCmds.mp hcmd
    exact run_checked hreader (fun e he => hcsums w hw e (mem_of_mem_inlineRunsOf hmem he))
      (h.isolated r hr) hprocess
  rw [h.runs, runCmds_length, ScrubOut.start, Nat.zero_add] at hchecked
  rw [hchecked, sectorsOf, List.length_flatMap]
  apply List.sum_lt_sum
  · intro w _
    rw [List.length_map]
    exact inlineRunsOf_length_le
  · obtain ⟨w, hw, hlen⟩ := hseveral
    refine ⟨w, hw, ?_⟩
    rw [List.length_map]
    exact inlineRunsOf_repeats hlen

/-- Every sector of every stream is counted once, verified against its own bytes, exactly when there
is a reader thread or no stream has a second run. -/
theorem scrubDevTree_countedOnce_iff {src : CsumSource (ExceptT Halt (StateM σ)) P} {depth : Nat}
    {p : P} {devExtents : List DevExtent} {counters : Counters} {out : ScrubOut}
    (hreader : ctx.reader = device.reader ctx.reader.config)
    (hstreams : ∀ dext ∈ devExtents, ctx.scrubs dext = true → ∀ p entries p',
      CanReturn (src.extentRange dext p) (entries, p') →
        ∀ e ∈ entries, e.csum.length = ctx.strategy.hashLen ∧ ctx.Fits dext e.logical)
    (h : ScrubReturns ctx src depth p devExtents counters threaded out) :
    ∃ work p', Walks ctx src p devExtents work p' ∧
      ((∃ runs, CountedOnce device ctx threaded work runs out) ↔
        threaded = true ∨ ∀ w ∈ work, (runsOf ctx.strategy.sectorSize w.2).length ≤ 1) := by
  obtain ⟨work, rsps, out₁, p', hscrubbed, rfl⟩ := h.scrubbed
  have hwork : ∀ w ∈ work, ∀ e ∈ w.2,
      e.csum.length = ctx.strategy.hashLen ∧ ctx.Fits w.1 e.logical :=
    fun w hw => (hscrubbed.walks.all_streams hstreams w hw).2
  refine ⟨work, p', hscrubbed.walks, ⟨?_, fun hcut => ?_⟩⟩
  · rintro ⟨runs, hcounted⟩
    by_contra hcut
    simp only [not_or, not_forall, Bool.not_eq_true] at hcut
    obtain ⟨rfl, w, hw, hseveral⟩ := hcut
    have hmore := scrubbed_repeats hreader (fun w hw e he => (hwork w hw e he).1)
      ⟨w, hw, by omega⟩ hscrubbed
    have hchecked := hcounted.checked
    exact absurd (hchecked ▸ hmore) (Nat.lt_irrefl _)
  · obtain ⟨runs, hcounted⟩ := scrubbed_countedOnce hreader hwork hcut hscrubbed
    exact ⟨runs, hcounted.issued, hcounted.sectors, hcounted.checked, hcounted.ok, hcounted.plain,
      hcounted.events⟩

end Counted

/-! ### A stream with a gap -/

/-- The streams are the parts of one list. -/
def CsumSource.fixed [Monad m] (entries : List CsumEntry) : CsumSource m Unit where
  range lo hi _ := return (entries.filter fun e => decide (lo ≤ e.logical ∧ e.logical < hi), ())
  count _ _ := id
  staleBranches _ := 0

namespace Crafted

theorem limit_pos : 0 < 64 := by decide

/-- One data chunk; the device cannot be opened once more. -/
def lone [Monad m] (reader : FsReader m) : ScrubContext m where
  reader
  reopen := return .error .notFound
  chunkMap := ⟨[⟨0x10000, 0x20000, BgFlag.data, [⟨1, 0x10000⟩]⟩]⟩
  strategy := zeroStrategy
  batch := false
  isolationLimit := 64
  isolationLimit_pos := limit_pos

def blank : Device Unit where
  byte _ := 0
  fault _ _ := pure none

def loneConfig : ReaderConfig := .checked 16384 0 zeroStrategy 1 []

def loneExtent : DevExtent := ⟨1, 0x10000, 0x10000, 0x10000⟩

/-- Two sectors that do not follow each other. -/
def gap : List CsumEntry := [⟨0x10000, [0, 0, 0, 0]⟩, ⟨0x12000, [0, 0, 0, 0]⟩]

theorem gap_returned : ∃ out,
    ScrubReturns (lone (blank.reader loneConfig)) (.fixed gap) 16 () [loneExtent] none false out ∧
      out.stats.sectorsChecked = 3 := by
  have hchecked : ((scrubDevTreeInline (lone (blank.reader loneConfig)) (.fixed gap) ()
      [loneExtent] none ()).1.toOption.map fun r => r.1.stats.sectorsChecked) = some 3 := by
    decide +kernel
  cases hrun : scrubDevTreeInline (lone (blank.reader loneConfig)) (.fixed gap) ()
      [loneExtent] none () with
  | mk result s =>
      rw [hrun] at hchecked
      cases result with
      | error e => cases hchecked
      | ok r =>
          have hreturned : CanReturn (scrubDevTreeInline (lone (blank.reader loneConfig))
              (.fixed gap) () [loneExtent] none) (r.1, r.2) := ⟨(), s, hrun⟩
          have hreopen : CanReturn (lone (blank.reader loneConfig)).reopen (.error .notFound) :=
            ⟨(), (), rfl⟩
          exact ⟨r.1, .inline hreopen hreturned, Option.some.inj hchecked⟩

theorem gap_walks : Walks (lone (blank.reader loneConfig)) (.fixed gap) () [loneExtent]
    [(loneExtent, gap)] () :=
  .walk rfl ⟨(), (), rfl⟩ .nil

/-- The run before the gap is read and counted twice. -/
theorem gap_not_countedOnce : ∃ out work,
    ScrubReturns (lone (blank.reader loneConfig)) (.fixed gap) 16 () [loneExtent] none false out ∧
      Walks (lone (blank.reader loneConfig)) (.fixed gap) () [loneExtent] work () ∧
      ¬∃ runs, CountedOnce blank (lone (blank.reader loneConfig)) false work runs out := by
  obtain ⟨out, hreturns, hchecked⟩ := gap_returned
  refine ⟨out, _, hreturns, gap_walks, ?_⟩
  rintro ⟨runs, hcounted⟩
  have htwo := hcounted.checked
  rw [hchecked] at htwo
  exact absurd htwo (by decide)

theorem gap_streamed {p p' : Unit} {entries : List CsumEntry}
    (h : CanReturn ((CsumSource.fixed gap).extentRange loneExtent p : ExceptT Halt (StateM Unit) _)
      (entries, p')) : entries = gap := by
  obtain ⟨s, s', hrun⟩ := h
  obtain ⟨hok, -⟩ := Prod.mk.inj hrun
  cases hok
  rfl

theorem gap_fits : ∀ e ∈ gap, e.csum.length = zeroStrategy.hashLen ∧
    (lone (blank.reader loneConfig)).Fits loneExtent e.logical := by
  unfold ScrubContext.Fits
  decide

theorem scrubDevTree_countedOnce_iff_gap : ∃ out work p',
    ScrubReturns (lone (blank.reader loneConfig)) (.fixed gap) 16 () [loneExtent] none false out ∧
      Walks (lone (blank.reader loneConfig)) (.fixed gap) () [loneExtent] work p' ∧
      ((∃ runs, CountedOnce blank (lone (blank.reader loneConfig)) false work runs out) ↔
        false = true ∨ ∀ w ∈ work, (runsOf 4096 w.2).length ≤ 1) := by
  obtain ⟨out, hreturns, -⟩ := gap_returned
  have hstreams : ∀ dext ∈ [loneExtent], (lone (blank.reader loneConfig)).scrubs dext = true →
      ∀ p entries p', CanReturn ((CsumSource.fixed gap).extentRange dext p :
        ExceptT Halt (StateM Unit) _) (entries, p') → ∀ e ∈ entries,
          e.csum.length = zeroStrategy.hashLen ∧
            (lone (blank.reader loneConfig)).Fits dext e.logical := by
    rintro dext hdext - p entries p' hwalk
    obtain rfl := List.mem_singleton.mp hdext
    rw [gap_streamed hwalk]
    exact gap_fits
  obtain ⟨work, p', hwalks, hiff⟩ := scrubDevTree_countedOnce_iff rfl hstreams hreturns
  exact ⟨out, work, p', hreturns, hwalks, hiff⟩

end Crafted
end Rotshield.Btrfs
