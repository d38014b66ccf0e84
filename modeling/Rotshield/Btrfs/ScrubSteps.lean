import Mathlib.Logic.Relation
import Rotshield.Btrfs.ScrubExactness

/-! What the verification of a run does to the output, one change at a time. -/
namespace Rotshield.Btrfs
open MonadAttach (CanReturn)
open Lib (Channel Folds canReturn_pure canReturn_bind canReturn_foldlM)
open Relation (ReflTransGen)

variable {m : Type → Type} {P : Type}

section Changes
variable [Monad m] [MonadExceptOf Halt m] [MonadAttach m]

/-- One change of the output by the verification of a run. -/
inductive Change (ctx : ScrubContext m) : ScrubOut → ScrubOut → Prop where
  | ok {out} : Change ctx out (out.countChecked ctx.sz).countOk
  /-- With a pipeline: a mismatch is emitted raw. -/
  | raw {out} (dext : DevExtent) (entry : CsumEntry) (actual : Bytes)
      (differs : actual ≠ entry.csum) (batch : ctx.batch = true) :
      Change ctx out ((out.countChecked ctx.sz).emit (sectorResult dext entry actual false))
  /-- The live roots were not resolved. -/
  | unresolved {out counters} (plain : ctx.batch = false)
      (roots : CanReturn (liveDataTreeRoots ctx.strategy.crates ctx.reopen ctx.reader ctx.chunkMap
        ctx.reader.config.baseOffset (out.countChecked ctx.sz).counters) (none, counters)) :
      Change ctx out ({ out.countChecked ctx.sz with counters }).countReadError
  | mismatch {out roots counters} (dext : DevExtent) (entry : CsumEntry) (actual : Bytes)
      (differs : actual ≠ entry.csum) (plain : ctx.batch = false)
      (roots : CanReturn (liveDataTreeRoots ctx.strategy.crates ctx.reopen ctx.reader ctx.chunkMap
        ctx.reader.config.baseOffset (out.countChecked ctx.sz).counters) (some roots, counters)) :
      Change ctx out (({ out.countChecked ctx.sz with counters }).countMismatch.emit
        (sectorResult dext entry actual false))
  | stale {out roots counters} (plain : ctx.batch = false)
      (roots : CanReturn (liveDataTreeRoots ctx.strategy.crates ctx.reopen ctx.reader ctx.chunkMap
        ctx.reader.config.baseOffset (out.countChecked ctx.sz).counters) (some roots, counters)) :
      Change ctx out ({ out.countChecked ctx.sz with counters }).countStale
  | unreadable {out} : Change ctx out (out.countChecked ctx.sz).countReadError
  /-- With a pipeline: an unreadable sector is emitted too. -/
  | unreadableRaw {out} (dext : DevExtent) (entry : CsumEntry) (batch : ctx.batch = true) :
      Change ctx out ((out.countChecked ctx.sz).countReadError.emit
        (sectorResult dext entry [] true))
  | truncated {out} : Change ctx out out.countTruncated

variable [LawfulMonad m] [LawfulMonadAttach m] {ctx : ScrubContext m} {dext : DevExtent}
  {out out' : ScrubOut}

theorem processSector_change {sector : CsumEntry × Bytes}
    (h : CanReturn (processSector ctx dext out sector) out') : Change ctx out out' := by
  obtain ⟨entry, actual⟩ := sector
  unfold processSector at h
  dsimp only at h
  split at h
  case isTrue =>
      obtain rfl := canReturn_pure h
      exact .ok
  case isFalse hdiffers =>
      split at h
      case isTrue hbatch =>
          obtain rfl := canReturn_pure h
          exact .raw dext entry actual hdiffers hbatch
      case isFalse hplain =>
          rw [Bool.not_eq_true] at hplain
          obtain ⟨⟨roots, counters⟩, hroots, h⟩ := canReturn_bind h
          cases roots with
          | none =>
              obtain rfl := canReturn_pure h
              exact .unresolved hplain hroots
          | some roots =>
              obtain ⟨verdict, -, h⟩ := canReturn_bind h
              obtain ⟨isCorruption, -, h⟩ := canReturn_bind h
              cases isCorruption with
              | true =>
                  obtain rfl := canReturn_pure h
                  exact .mismatch dext entry actual hdiffers hplain hroots
              | false =>
                  obtain rfl := canReturn_pure h
                  exact .stale hplain hroots

/-- A sector that the verification of a response checks, with the checksum of its bytes. -/
def Checks (ctx : ScrubContext m) (rsp : ReadCmd × Isolation) (sector : CsumEntry × Bytes) : Prop :=
  ∃ region ∈ rsp.2.good, ∃ i buf, rsp.1.entries[region.1 / ctx.sz + i]? = some sector.1 ∧
    CanReturn (liftExec (slice region.2 (i * ctx.sz) ctx.sz) : m Bytes) buf ∧
      sector.2 = ctx.strategy.compute buf

/-- The checksums of a buffer's sectors. -/
theorem actuals_of_mapM {buf : Bytes} {is : List Nat} {actuals : List Bytes}
    (h : CanReturn (is.mapM fun i => do
      return ctx.strategy.compute (← liftExec (slice buf (i * ctx.sz) ctx.sz)) : m (List Bytes))
        actuals) {k : Nat} {actual : Bytes} (hk : actuals[k]? = some actual) :
    ∃ i sector, is[k]? = some i ∧
      CanReturn (liftExec (slice buf (i * ctx.sz) ctx.sz) : m Bytes) sector ∧
        actual = ctx.strategy.compute sector := by
  induction is generalizing actuals k with
  | nil =>
      obtain rfl := canReturn_pure h
      cases hk
  | cons i is ih =>
      rw [List.mapM_cons] at h
      obtain ⟨first, hfirst, h⟩ := canReturn_bind h
      obtain ⟨rest, hrest, h⟩ := canReturn_bind h
      obtain rfl := canReturn_pure h
      cases k with
      | zero =>
          obtain rfl := Option.some.inj hk
          obtain ⟨sector, hslice, hfirst⟩ := canReturn_bind hfirst
          exact ⟨i, sector, rfl, hslice, canReturn_pure hfirst⟩
      | succ k => exact ih hrest hk

/-- The verification of a region goes over its sectors. -/
theorem processRegion_folds {rsp : ReadCmd × Isolation} {region : Nat × Bytes}
    (hregion : region ∈ rsp.2.good)
    (h : CanReturn (processRegion ctx dext rsp.1.entries out region) out') :
    ∃ sectors, (∀ sector ∈ sectors, Checks ctx rsp sector) ∧
      Folds (fun out sector out' => CanReturn (processSector ctx dext out sector) out')
        sectors out out' := by
  unfold processRegion at h
  dsimp only at h
  generalize hentries : (rsp.1.entries.take (min ((region.1 + region.2.length) / ctx.sz)
    rsp.1.entries.length)).drop (region.1 / ctx.sz) = entries at h
  have hrest : CanReturn (if entries.isEmpty then pure out
      else processBuf ctx dext region.2 entries out) out' := by
    split at h
    · obtain ⟨_, -, h⟩ := canReturn_bind h
      exact h
    · exact h
  split at hrest
  case isTrue =>
      obtain rfl := canReturn_pure hrest
      exact ⟨[], nofun, .nil⟩
  case isFalse =>
      obtain ⟨actuals, hactuals, h⟩ := canReturn_bind hrest
      refine ⟨_, ?_, canReturn_foldlM h⟩
      intro sector hsector
      obtain ⟨k, hk⟩ := List.mem_iff_getElem?.mp hsector
      obtain ⟨hentry, hactual⟩ := List.getElem?_zip_eq_some.mp hk
      obtain ⟨i, buf, hi, hslice, hcompute⟩ := actuals_of_mapM hactuals hactual
      have hik : i = k := by
        obtain ⟨hlt, hget⟩ := List.getElem?_eq_some_iff.mp hi
        rw [List.getElem_range] at hget
        exact hget.symm
      subst hik
      refine ⟨region, hregion, i, buf, ?_, hslice, hcompute⟩
      rw [← hentries, List.getElem?_drop] at hentry
      rw [List.getElem?_take] at hentry
      split at hentry
      case isTrue => exact hentry
      case isFalse => cases hentry

omit [LawfulMonad m] [LawfulMonadAttach m] in
theorem processBad_changes {entries : List CsumEntry} {start : Nat} :
    ReflTransGen (Change ctx) out (processBad ctx dext entries out start) := by
  unfold processBad
  split
  case h_1 => exact .refl
  case h_2 entry _ =>
      dsimp only
      split
      case isTrue hraw =>
          rw [Bool.and_eq_true] at hraw
          exact .single (.unreadableRaw dext entry hraw.1)
      case isFalse => exact .single .unreadable

/-- What a cut short, each check and each unreadable sector keep, the verification keeps. -/
theorem processRsp_keeps {rsp : ReadCmd × Isolation} {motive : ScrubOut → Prop}
    (htruncated : ∀ out, motive out → motive out.countTruncated)
    (hsector : ∀ out sector out', motive out → Checks ctx rsp sector →
      CanReturn (processSector ctx rsp.1.dext out sector) out' → motive out')
    (hbad : ∀ out start, motive out → motive (processBad ctx rsp.1.dext rsp.1.entries out start))
    (hs : motive out) (h : CanReturn (processRsp ctx out rsp) out') : motive out' := by
  unfold processRsp processIsolated at h
  obtain ⟨out₁, hgood, hend⟩ := canReturn_bind h
  obtain rfl := canReturn_pure hend
  have hstart : motive (if rsp.2.budget.exhausted then out.countTruncated else out) := by
    split
    · exact htruncated out hs
    · exact hs
  have hregions : motive out₁ := by
    apply (canReturn_foldlM hgood).keeps _ hstart
    intro region hregion out out' hout hone
    obtain ⟨sectors, hsectors, hchecks⟩ := processRegion_folds hregion hone
    exact hchecks.keeps (fun sector hmem out out' hout hcheck =>
      hsector out sector out' hout (hsectors sector hmem) hcheck) hout
  apply (Lib.folds_foldl rsp.2.bad out₁).keeps _ hregions
  rintro start - out _ hout rfl
  exact hbad out start hout

theorem processRsp_changes {rsp : ReadCmd × Isolation}
    (h : CanReturn (processRsp ctx out rsp) out') : ReflTransGen (Change ctx) out out' :=
  processRsp_keeps (fun _ hs => hs.tail .truncated)
    (fun _ _ _ hs _ hsector => hs.tail (processSector_change hsector))
    (fun _ _ hs => hs.trans processBad_changes) .refl h

/-- What each change and each walk keeps, the verified runs keep. -/
theorem VerifiedRuns.keeps {first : ScrubOut} {rsps : List (ReadCmd × Isolation)}
    {motive : ScrubOut → Prop} (h : VerifiedRuns ctx first rsps out) (hfirst : motive first)
    (hchange : ∀ out out', motive out → Change ctx out out' → motive out')
    (hwalked : ∀ out counters, motive out → motive { out with counters }) : motive out := by
  induction h with
  | start => exact hfirst
  | counters _ counters ih => exact hwalked _ counters ih
  | rsp _ hrsp ih =>
      have hchanges := processRsp_changes hrsp
      clear hrsp
      induction hchanges with
      | refl => exact ih
      | tail _ hone ih => exact hchange _ _ ih hone

/-! ### Where the events come from -/

/-- An event for an entry of the command: its bytes differ, unless they could not be read. -/
def FoundIn (cmd : ReadCmd) (r : SectorResult) : Prop :=
  ∃ entry ∈ cmd.entries, ∃ actual unreadable, r = sectorResult cmd.dext entry actual unreadable ∧
    (unreadable = false → actual ≠ entry.csum)

theorem processSector_events {entry : CsumEntry} {actual : Bytes}
    (h : CanReturn (processSector ctx dext out (entry, actual)) out') :
    out'.events = out.events ∨
      (out'.events = out.events ++ [sectorResult dext entry actual false] ∧ actual ≠ entry.csum) := by
  unfold processSector at h
  dsimp only at h
  split at h
  case isTrue =>
      obtain rfl := canReturn_pure h
      exact .inl rfl
  case isFalse hdiffers =>
      split at h
      case isTrue =>
          obtain rfl := canReturn_pure h
          exact .inr ⟨rfl, hdiffers⟩
      case isFalse =>
          obtain ⟨⟨roots, counters⟩, -, h⟩ := canReturn_bind h
          cases roots with
          | none =>
              obtain rfl := canReturn_pure h
              exact .inl rfl
          | some roots =>
              obtain ⟨verdict, -, h⟩ := canReturn_bind h
              obtain ⟨isCorruption, -, h⟩ := canReturn_bind h
              cases isCorruption with
              | true =>
                  obtain rfl := canReturn_pure h
                  exact .inr ⟨rfl, hdiffers⟩
              | false =>
                  obtain rfl := canReturn_pure h
                  exact .inl rfl

omit [Monad m] [MonadExceptOf Halt m] [MonadAttach m] [LawfulMonad m] [LawfulMonadAttach m] in
theorem processBad_events {cmd : ReadCmd} {start : Nat} {motive : SectorResult → Prop}
    (hout : ∀ r ∈ out.events, motive r) (hfound : ∀ r, FoundIn cmd r → motive r) :
    ∀ r ∈ (processBad ctx cmd.dext cmd.entries out start).events, motive r := by
  unfold processBad
  split
  case h_1 => exact hout
  case h_2 entry hentry =>
      dsimp only
      split
      case isFalse => exact hout
      case isTrue =>
          intro r hr
          rcases List.mem_append.mp hr with hr | hr
          · exact hout r hr
          · obtain rfl := List.mem_singleton.mp hr
            exact hfound _ ⟨entry, List.mem_of_getElem? hentry, [], true, rfl, nofun⟩

theorem processRsp_events {rsp : ReadCmd × Isolation} {motive : SectorResult → Prop}
    (hout : ∀ r ∈ out.events, motive r) (hfound : ∀ r, FoundIn rsp.1 r → motive r)
    (h : CanReturn (processRsp ctx out rsp) out') : ∀ r ∈ out'.events, motive r := by
  refine processRsp_keeps (motive := fun out => ∀ r ∈ out.events, motive r) (fun _ hs => hs) ?_
    (fun _ _ hs => processBad_events hs hfound) hout h
  rintro out ⟨entry, actual⟩ out' hs ⟨region, -, i, buf, hentry, -⟩ hsector r hr
  rcases processSector_events hsector with hsame | ⟨hmore, hdiffers⟩
  · exact hs r (hsame ▸ hr)
  · rw [hmore] at hr
    rcases List.mem_append.mp hr with hr | hr
    · exact hs r hr
    · obtain rfl := List.mem_singleton.mp hr
      exact hfound _ ⟨entry, List.mem_of_getElem? hentry, actual, false, rfl, fun _ => hdiffers⟩

theorem VerifiedRuns.events {first : ScrubOut} {rsps : List (ReadCmd × Isolation)}
    (h : VerifiedRuns ctx first rsps out) (hfirst : first.events = []) :
    ∀ r ∈ out.events, ∃ rsp ∈ rsps, FoundIn rsp.1 r := by
  induction h with
  | start =>
      rw [hfirst]
      exact nofun
  | counters _ _ ih => exact ih
  | @rsp rsps out rsp out' _ hrsp ih =>
      refine processRsp_events (fun r hr => ?_) (fun r hr => ?_) hrsp
      · obtain ⟨rsp', hmem, hfound⟩ := ih r hr
        exact ⟨rsp', List.mem_append_left _ hmem, hfound⟩
      · exact ⟨rsp, List.mem_append_right _ (List.mem_singleton_self _), hr⟩

/-- A sector of the scrub: an extent it goes over, and an entry that the walk of it may give. -/
structure Scanned (ctx : ScrubContext m) (src : CsumSource m P) (devExtents : List DevExtent)
    (dext : DevExtent) (entry : CsumEntry) : Prop where
  extent : dext ∈ devExtents
  scrubs : ctx.scrubs dext = true
  stream : ∃ p p' entries, CanReturn (src.extentRange dext p) (entries, p') ∧ entry ∈ entries

/-- Every event of a scrub is about one of its sectors. -/
theorem ScrubReturns.events {src : CsumSource m P} {depth : Nat} {p : P}
    {devExtents : List DevExtent} {counters : Counters} {threaded : Bool}
    (h : ScrubReturns ctx src depth p devExtents counters threaded out) :
    ∀ r ∈ out.events, ∃ dext entry actual unreadable, Scanned ctx src devExtents dext entry ∧
      r = sectorResult dext entry actual unreadable ∧ (unreadable = false → actual ≠ entry.csum) := by
  obtain ⟨work, rsps, out₁, p', hscrubbed, rfl⟩ := h.scrubbed
  intro r hr
  obtain ⟨rsp, hrsp, entry, hentry, actual, unreadable, hr, hdiffers⟩ :=
    hscrubbed.verified.events rfl r hr
  have hcmd : rsp.1 ∈ runCmds (cutOf threaded ctx.strategy.sectorSize) work := by
    rw [← hscrubbed.runs]
    exact List.mem_map_of_mem hrsp
  obtain ⟨w, hw, hcmd⟩ := List.mem_flatMap.mp hcmd
  obtain ⟨run, hrun, hcmd⟩ := List.mem_map.mp hcmd
  rw [← hcmd] at hentry hr
  have hextent : w.1 ∈ devExtents.filter ctx.scrubs := by
    rw [← hscrubbed.walks.extents]
    exact List.mem_map_of_mem hw
  obtain ⟨hextent, hscrubs⟩ := List.mem_filter.mp hextent
  obtain ⟨q, q', hstream⟩ := hscrubbed.walks.streams w hw
  have hmem : entry ∈ w.2 := by
    cases threaded with
    | true => exact mem_of_mem_runsOf hrun hentry
    | false => exact mem_of_mem_inlineRunsOf hrun hentry
  exact ⟨w.1, entry, actual, unreadable, ⟨hextent, hscrubs, q, q', w.2, hstream, hmem⟩, hr, hdiffers⟩

end Changes

/-! ### A run that is read whole -/

section Whole
variable [Monad m] [LawfulMonad m] [MonadExceptOf Halt m] {ctx : ScrubContext m} {cmd : ReadCmd}
  {buf : Bytes}

/-- A run whose first read succeeds is one region. -/
theorem isolateRunRead_whole (hne : cmd.entries ≠ []) (hread : ctx.reader.pread
      (saturatingAdd ctx.reader.config.baseOffset cmd.phys) (cmd.len ctx) = pure (.ok buf)) :
    isolateRunRead ctx cmd = pure ⟨⟨ctx.isolationLimit, false⟩, [(0, buf)], []⟩ := by
  have hpos : cmd.len ctx ≠ 0 :=
    Nat.ne_of_gt (Nat.mul_pos (List.length_pos_of_ne_nil hne) ctx.sz_pos)
  have hopen : ¬(Isolation.new ctx.isolationLimit).budget.exhausted = true := Bool.false_ne_true
  have haligned : 0 % ctx.sz = 0 ∧ cmd.len ctx % ctx.sz = 0 :=
    ⟨Nat.zero_mod _, Nat.mul_mod_left _ _⟩
  unfold isolateRunRead isolateRun isolateLoop
  dsimp only
  rw [if_neg hpos, if_neg hopen, hread, pure_bind]
  split
  · rfl
  · rw [pure_bind]
    exact if_pos haligned

/-- Its verification is that of its sectors, one after the other. -/
theorem processRsp_whole (hne : cmd.entries ≠ []) (hbuf : buf.length = cmd.len ctx) (limit : Nat)
    (out : ScrubOut) : processRsp ctx out (cmd, ⟨⟨limit, false⟩, [(0, buf)], []⟩) =
      (cmd.entries.zip (sectorSlices ctx.sz buf cmd.entries.length)).foldlM
        (fun out s => processSector ctx cmd.dext out (s.1, ctx.strategy.compute s.2)) out := by
  have hlast : min ((0 + buf.length) / ctx.sz) cmd.entries.length = cmd.entries.length := by
    rw [Nat.zero_add, hbuf, ReadCmd.len, Nat.mul_div_cancel _ ctx.sz_pos, Nat.min_self]
  have hsome : ¬cmd.entries.isEmpty = true := fun h => hne (List.isEmpty_iff.mp h)
  unfold processRsp processIsolated
  simp only [Bool.false_eq_true, if_false, List.foldlM_cons, List.foldlM_nil, List.foldl_nil,
    bind_pure]
  unfold processRegion
  simp only [hlast, Nat.zero_div, Nat.not_lt_zero, if_false, List.take_length, List.drop_zero]
  rw [if_neg hsome, processBuf_eq hbuf.ge]

end Whole

/-! ### A device with one sector to scrub -/

section Single
variable [Monad m] [LawfulMonad m] [MonadExceptOf Halt m] {ctx : ScrubContext m} {dext : DevExtent}
  {entry : CsumEntry} {buf : Bytes}

/-- One readable sector is read as one region. -/
theorem isolateRunRead_single (hread : ctx.reader.pread
      (saturatingAdd ctx.reader.config.baseOffset (dext.physOf entry.logical)) ctx.sz =
        pure (.ok buf)) :
    isolateRunRead ctx ⟨dext, [entry]⟩ =
      pure ⟨⟨ctx.isolationLimit, false⟩, [(0, buf)], []⟩ := by
  apply isolateRunRead_whole (List.cons_ne_nil _ _)
  have hlen : ReadCmd.len ctx ⟨dext, [entry]⟩ = ctx.sz := Nat.one_mul _
  rw [hlen]
  exact hread

/-- Its verification is that of the sector. -/
theorem processRsp_single (hbuf : buf.length = ctx.sz) (limit : Nat) (out : ScrubOut) :
    processRsp ctx out (⟨dext, [entry]⟩, ⟨⟨limit, false⟩, [(0, buf)], []⟩) =
      processSector ctx dext out (entry, ctx.strategy.compute buf) := by
  have hlen : buf.length = ReadCmd.len ctx ⟨dext, [entry]⟩ := hbuf.trans (Nat.one_mul _).symm
  have hslices : sectorSlices ctx.sz buf 1 = [buf] := by
    unfold sectorSlices
    simp [List.range_succ, ← hbuf]
  rw [processRsp_whole (List.cons_ne_nil _ _) hlen]
  simp [hslices]

variable {P : Type} [MonadAttach m] {src : CsumSource m P} {p p' : P} {counters : Counters}

omit [LawfulMonad m] in
/-- The scrub of one extent of one sector, with a reader thread. -/
theorem ScrubReturns.single {depth : Nat} {iso : Isolation} {out : ScrubOut} (hdepth : 1 < depth)
    (hreopen : CanReturn ctx.reopen (.ok ())) (hscrubs : ctx.scrubs dext = true)
    (hwalk : CanReturn (src.extentRange dext p) ([entry], p'))
    (hread : CanReturn (isolateRunRead ctx ⟨dext, [entry]⟩) iso)
    (hrsp : CanReturn (processRsp ctx ((ScrubOut.start counters).walked src p p')
      (⟨dext, [entry]⟩, iso)) out) :
    ScrubReturns ctx src depth p [dext] counters true (out.finish src p') := by
  have step {s s' : Prefetch P} (h : (mortalPrefetch ctx src depth p [dext] counters).Reachable s)
      (hs : PrefetchStep ctx src depth s s') :
      (mortalPrefetch ctx src depth p [dext] counters).Reachable s' := .step h (.inl hs)
  have hcmds : extentCmds ctx dext [entry] = [⟨dext, [entry]⟩] := by
    simp [extentCmds, runsOf, runsLoop, maxRunSectors]
  have hroom : (Channel.new depth : Channel ReadCmd).send ⟨dext, [entry]⟩ =
      .sent ((Channel.new depth).push ⟨dext, [entry]⟩) := by
    rw [Channel.send, if_neg (by simp [Channel.new]), if_pos (by simp [Channel.new]; omega)]
  have hroom' : (Channel.new depth : Channel (ReadCmd × Isolation)).send (⟨dext, [entry]⟩, iso) =
      .sent ((Channel.new depth).push (⟨dext, [entry]⟩, iso)) := by
    rw [Channel.send, if_neg (by simp [Channel.new]), if_pos (by simp [Channel.new]; omega)]
  have h : (mortalPrefetch ctx src depth p [dext] counters).Reachable
      (.start depth p [dext] counters) := .init rfl
  have h := step h (.walk rfl rfl rfl hscrubs hwalk)
  have h := step h (.send rfl hcmds hroom)
  have h := step h (.close (by simp [Prefetch.start]; omega) rfl rfl)
  have h := step h (.read rfl rfl hread)
  have h := step h (.reply rfl hroom')
  have h := step h (.drain rfl (by simp [Prefetch.start]) rfl hrsp)
  have h := step h (.drained rfl rfl)
  have h := step h (.stop rfl rfl)
  have h := step h (.join rfl rfl)
  exact .threaded hreopen h rfl

end Single

/-! ### A sector with one byte changed -/

namespace Crafted

/-- Zeros, but for one byte. -/
def changed (before after : Nat) (b : UInt8) : Bytes :=
  List.replicate before 0 ++ b :: List.replicate after 0

theorem changed_length (before after : Nat) (b : UInt8) :
    (changed before after b).length = before + (after + 1) := by
  simp [changed]

theorem map_changed (before after : Nat) (b : UInt8) :
    (List.range (before + (after + 1))).map (fun i => if i = before then b else 0) =
      changed before after b := by
  unfold changed
  apply List.ext_getElem
  · simp
  · intro i hi hi'
    rw [List.getElem_map, List.getElem_range]
    rcases Nat.lt_trichotomy i before with hlt | rfl | hgt
    · rw [List.getElem_append_left (by simpa using hlt), List.getElem_replicate]
      exact if_neg (by omega)
    · simp
    · rw [List.getElem_append_right (by simp; omega), List.getElem_cons,
        dif_neg (by simp; omega), List.getElem_replicate]
      exact if_neg (by omega)

theorem compute_inj {a b : Bytes} (h : strategy.compute a = strategy.compute b) :
    crc32c a = crc32c b := by
  have hread (v : UInt32) : leNat (toLe 4 v.toNat) = v.toNat := by
    rw [leNat_toLe]
    exact Nat.mod_eq_of_lt v.toNat_lt
  have hnat := congrArg leNat h
  change leNat (toLe 4 (crc32c a).toNat) = leNat (toLe 4 (crc32c b).toNat) at hnat
  rwa [hread, hread, UInt32.toNat_inj] at hnat

/-- A changed byte is noticed. -/
theorem compute_changed (before after : Nat) {b : UInt8} (hb : b ≠ 0) :
    strategy.compute (changed before after b) ≠ strategy.compute (changed before after 0) := by
  intro heq
  exact crc32c_set_ne hb (compute_inj heq)

/-- Zeros, but for one byte of the sector at 64 KiB. -/
def rot : Image where
  byte i := if i = 0x10064 then 0x5A else 0
  fault _ _ := none

theorem rot_pread : rot.pread 0x10000 4096 = .ok (changed 100 3995 0x5A) := by
  have hbyte : (fun i => rot.byte (0x10000 + i)) = fun i => if i = 100 then 0x5A else 0 := by
    funext i
    unfold rot
    by_cases hi : i = 100
    · rw [hi]
      rfl
    · rw [if_neg hi]
      exact if_neg (by omega)
  have hbytes : (List.range (100 + (3995 + 1))).map (fun i => rot.byte (0x10000 + i)) =
      changed 100 3995 0x5A := by
    rw [hbyte]
    exact map_changed 100 3995 0x5A
  exact congrArg Except.ok hbytes

end Crafted
end Rotshield.Btrfs
