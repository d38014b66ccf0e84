import Rotshield.Btrfs.Reconfirmer
import Rotshield.Btrfs.ScrubSteps

/-! The scrub without a reader thread against the one with it, on a device that does not change. -/
namespace Rotshield.Btrfs
open MonadAttach (CanReturn)
open Lib (Channel canReturn_pure canReturn_bind)

/-! ### The counters change neither the totals nor the events -/

/-- The totals and the events alone. -/
def ScrubOut.report (out : ScrubOut) : ScrubOut := { out with counters := none }

section Blind
variable {m : Type → Type} [Monad m] [LawfulMonad m]

/-- A step whose report depends on nothing but the report before it. -/
def Blind (f : ScrubOut → m ScrubOut) : Prop :=
  ∀ out, ScrubOut.report <$> f out = ScrubOut.report <$> f out.report

namespace Blind
variable {f g : ScrubOut → m ScrubOut}

theorem pure {f : ScrubOut → ScrubOut} (h : ∀ out, (f out).report = (f out.report).report) :
    Blind fun out => (Pure.pure (f out) : m ScrubOut) := by
  intro out
  rw [map_pure, map_pure, h]

theorem bind (hf : Blind f) (hg : Blind g) : Blind fun out => f out >>= g := by
  have hsplit (out : ScrubOut) : ScrubOut.report <$> (f out >>= g) =
      (ScrubOut.report <$> f out) >>= fun o => ScrubOut.report <$> g o := by
    rw [map_bind, bind_map_left]
    congr 1
    funext o
    exact hg o
  intro out
  rw [hsplit, hf out, ← hsplit]

/-- After steps that do not look at the output. -/
theorem after {A : Type} {x : m A} {f : A → ScrubOut → m ScrubOut} (h : ∀ a, Blind (f a)) :
    Blind fun out => x >>= fun a => f a out := by
  intro out
  rw [map_bind, map_bind]
  congr 1
  funext a
  exact h a out

theorem foldlM {A : Type} {f : ScrubOut → A → m ScrubOut} (h : ∀ a, Blind fun out => f out a)
    (as : List A) : Blind fun out => as.foldlM f out := by
  induction as with
  | nil => exact pure fun _ => rfl
  | cons a as ih =>
      have hcons (out : ScrubOut) : (a :: as).foldlM f out = f out a >>= fun o => as.foldlM f o :=
        List.foldlM_cons
      intro out
      dsimp only
      rw [hcons, hcons]
      exact bind (h a) ih out

omit [LawfulMonad m] in
theorem congr (h : Blind f) {out out' : ScrubOut} (hsame : out.report = out'.report) :
    ScrubOut.report <$> f out = ScrubOut.report <$> f out' := by
  rw [h out, hsame, ← h out']

end Blind

variable [MonadExceptOf Halt m] [LawfulHalt m] {ctx : ScrubContext m} {dext : DevExtent}

theorem liveDataTreeRoots_blind (crates : HashCrates) (reopen : m (Except IoError Unit))
    (reader : FsReader m) (chunkMap : ChunkMap) (baseOffset : UInt64) (counters : Counters) :
    Prod.fst <$> liveDataTreeRoots crates reopen reader chunkMap baseOffset counters =
      Prod.fst <$> liveDataTreeRoots crates reopen reader chunkMap baseOffset none := by
  have hsplit (counters : Counters) :
      Prod.fst <$> liveDataTreeRoots crates reopen reader chunkMap baseOffset counters =
        (Prod.fst <$> readLiveSuperblock crates reopen reader baseOffset counters) >>= fun sb =>
          sb.elim (Pure.pure none) fun sb =>
            Prod.fst <$> resolveLiveTreeRoots reader chunkMap none sb := by
    unfold liveDataTreeRoots
    rw [map_bind, bind_map_left]
    congr 1
    funext v
    obtain ⟨sb, counters'⟩ := v
    cases sb with
    | none => exact map_pure _ _
    | some sb =>
        dsimp only [Option.elim]
        rw [resolveLiveTreeRoots_map, resolveLiveTreeRoots_map]
  rw [hsplit, hsplit, readLiveSuperblock_map _ _ _ _ counters none]

/-- The re-confirmation once the roots are there. -/
def reconfirmAt (ctx : ScrubContext m) (dext : DevExtent) (entry : CsumEntry) (actual : Bytes) :
    Option (UInt64 × UInt64) → ScrubOut → m ScrubOut
  | none, out => return out.countReadError
  | some (extRoot, csumRoot), out => do
      let verdict ← reconfirmMismatch ctx.reader ctx.chunkMap extRoot csumRoot entry.logical
        entry.csum ctx.strategy.hashLen ctx.strategy.sectorSize
      let isCorruption ← (if verdict = .corruption then freshMismatch ctx dext entry
        else pure false)
      if isCorruption then
        return out.countMismatch.emit (sectorResult dext entry actual false)
      else return out.countStale

omit [LawfulHalt m] in
theorem reconfirmAt_blind {entry : CsumEntry} {actual : Bytes} (roots : Option (UInt64 × UInt64)) :
    Blind (reconfirmAt ctx dext entry actual roots) := by
  cases roots with
  | none => exact .pure fun _ => rfl
  | some roots =>
      refine .after fun verdict => .after fun isCorruption => ?_
      cases isCorruption with
      | true => exact .pure fun _ => rfl
      | false => exact .pure fun _ => rfl

theorem reconfirmSector_blind (entry : CsumEntry) (actual : Bytes) :
    Blind (reconfirmSector ctx dext entry actual) := by
  have hsplit (out : ScrubOut) : ScrubOut.report <$> reconfirmSector ctx dext entry actual out =
      (Prod.fst <$> liveDataTreeRoots ctx.strategy.crates ctx.reopen ctx.reader ctx.chunkMap
        ctx.reader.config.baseOffset none) >>= fun roots =>
          ScrubOut.report <$> reconfirmAt ctx dext entry actual roots out.report := by
    rw [← liveDataTreeRoots_blind _ _ _ _ _ out.counters, bind_map_left]
    unfold reconfirmSector
    rw [map_bind]
    congr 1
    funext v
    obtain ⟨roots, counters⟩ := v
    have hreport : ScrubOut.report { out with counters } = out.report.report := rfl
    refine Eq.trans ?_ ((reconfirmAt_blind roots).congr hreport)
    cases roots with
    | none => rfl
    | some roots => rfl
  intro out
  rw [hsplit, hsplit]
  rfl

theorem processSector_blind (sector : CsumEntry × Bytes) :
    Blind fun out => processSector ctx dext out sector := by
  obtain ⟨entry, actual⟩ := sector
  unfold processSector
  dsimp only
  by_cases hok : actual = entry.csum
  · simp only [if_pos hok]
    exact .pure fun _ => rfl
  · simp only [if_neg hok]
    by_cases hbatch : ctx.batch = true
    · simp only [if_pos hbatch]
      exact .pure fun _ => rfl
    · simp only [if_neg hbatch]
      intro out
      exact (reconfirmSector_blind entry actual).congr rfl

theorem processBuf_blind (buf : Bytes) (run : List CsumEntry) :
    Blind (processBuf ctx dext buf run) :=
  .after fun _ => .foldlM (fun sector => processSector_blind sector) _

theorem processRegion_blind (entries : List CsumEntry) (region : Nat × Bytes) :
    Blind fun out => processRegion ctx dext entries out region := by
  have hrest (entries : List CsumEntry) : Blind fun out =>
      if entries.isEmpty then (Pure.pure out : m ScrubOut)
      else processBuf ctx dext region.2 entries out := by
    split
    · exact .pure fun _ => rfl
    · exact processBuf_blind _ _
  unfold processRegion
  dsimp only
  split
  · exact .after fun _ => hrest _
  · exact hrest _

omit [Monad m] [LawfulMonad m] [MonadExceptOf Halt m] [LawfulHalt m] in
theorem processBad_report (entries : List CsumEntry) (bad : List Nat) (out : ScrubOut) :
    (bad.foldl (processBad ctx dext entries) out).report =
      (bad.foldl (processBad ctx dext entries) out.report).report := by
  induction bad generalizing out with
  | nil => rfl
  | cons x bad ih =>
      have hstep : (processBad ctx dext entries out x).report =
          (processBad ctx dext entries out.report x).report := by
        unfold processBad
        cases entries[x / ctx.sz]? with
        | none => rfl
        | some entry =>
            dsimp only
            split
            · rfl
            · rfl
      rw [List.foldl_cons, List.foldl_cons, ih, hstep, ← ih]

/-- What a response adds to the totals and the events does not depend on the counters. -/
theorem processRsp_blind (rsp : ReadCmd × Isolation) :
    Blind fun out => processRsp ctx out rsp := by
  unfold processRsp processIsolated
  dsimp only
  have hgood : Blind fun out =>
      rsp.2.good.foldlM (processRegion ctx rsp.1.dext rsp.1.entries) out :=
    .foldlM (fun region => processRegion_blind _ region) _
  have hbad : Blind fun out =>
      (Pure.pure (rsp.2.bad.foldl (processBad ctx rsp.1.dext rsp.1.entries) out) : m ScrubOut) :=
    .pure fun out => processBad_report _ _ out
  have hrest := hgood.bind hbad
  split
  · intro out
    exact hrest.congr rfl
  · exact hrest

end Blind

/-! ### With its reader thread alive, a scrub does not fail -/

section Alive
variable {m : Type → Type} [Monad m] [MonadExceptOf Halt m] [MonadAttach m] {P : Type}
  {ctx : ScrubContext m} {src : CsumSource m P} {depth : Nat} {p : P}
  {devExtents : List DevExtent} {counters : Counters} {s s' : Prefetch P}

/-- The reader thread stops only after the last command. -/
structure Prefetch.Alive (s : Prefetch P) : Prop where
  ok : s.failed = false
  reader : s.reader ≠ .panicked
  commands : s.cmd.receiver = false → s.reader = .stopped
  responses : s.rsp.sender = false → s.reader = .stopped
  stopped : s.reader = .stopped → s.main.closed = true
  emptied : s.reader = .stopped → s.cmd.queue = []
  sent : s.cmd.sender = false → s.main.closed = true

theorem Prefetch.reachable_mortal (h : (prefetch ctx src depth p devExtents counters).Reachable s) :
    (mortalPrefetch ctx src depth p devExtents counters).Reachable s := by
  induction h with
  | init h => exact .init h
  | step _ hstep ih => exact .step ih (.inl hstep)

namespace Prefetch.Alive

theorem start : (Prefetch.start depth p devExtents counters).Alive where
  ok := rfl
  reader := by rintro ⟨⟩
  commands := by rintro ⟨⟩
  responses := by rintro ⟨⟩
  stopped := by rintro ⟨⟩
  emptied _ := rfl
  sent := by rintro ⟨⟩

/-- Before the close nothing is dropped. -/
theorem before_close (h : s.Alive) (hmain : s.main.closed = false) :
    s.reader ≠ .stopped ∧ s.cmd.sender = true ∧ s.cmd.receiver = true ∧ s.rsp.sender = true := by
  have hrunning : s.reader ≠ .stopped := by
    intro hstopped
    rw [h.stopped hstopped] at hmain
    cases hmain
  refine ⟨hrunning, ?_, ?_, ?_⟩
  · by_contra hgone
    rw [h.sent (by simpa using hgone)] at hmain
    cases hmain
  · by_contra hgone
    exact hrunning (h.commands (by simpa using hgone))
  · by_contra hgone
    exact hrunning (h.responses (by simpa using hgone))

/-- Whatever the main thread does before the close. -/
theorem moveMain (h : s.Alive) (hmain : s.main.closed = false) (queue : List ReadCmd)
    (rsp : Channel (ReadCmd × Isolation)) (hrsp : rsp.sender = s.rsp.sender) {cmds : List ReadCmd}
    {inflight : Nat} {out : ScrubOut} {main : MainPhase} :
    Prefetch.Alive { s with cmd := { s.cmd with queue }, rsp, cmds, inflight, out, main } := by
  obtain ⟨hrunning, hsender, -, -⟩ := h.before_close hmain
  refine { h with responses := ?_, stopped := ?_, emptied := ?_, sent := ?_ }
  · intro hgone
    exact h.responses (hrsp.symm.trans hgone)
  · intro hstopped
    exact absurd hstopped hrunning
  · intro hstopped
    exact absurd hstopped hrunning
  · intro hgone
    rw [hsender] at hgone
    cases hgone

/-- A step of the reader thread from one command to the next. -/
theorem moveReader (h : s.Alive) (hrunning : s.reader ≠ .stopped) (queue : List ReadCmd)
    (rsp : Channel (ReadCmd × Isolation)) (hrsp : rsp.sender = s.rsp.sender) {reader : ReaderPhase}
    (hreader : reader ≠ .stopped ∧ reader ≠ .panicked) :
    Prefetch.Alive { s with cmd := { s.cmd with queue }, rsp, reader } where
  ok := h.ok
  reader := hreader.2
  commands hgone := absurd (h.commands hgone) hrunning
  responses hgone := absurd (h.responses (hrsp.symm.trans hgone)) hrunning
  stopped hstopped := absurd hstopped hreader.1
  emptied hstopped := absurd hstopped hreader.1
  sent := h.sent

theorem step (h : s.Alive) (reachable : (prefetch ctx src depth p devExtents counters).Reachable s)
    (hstep : PrefetchStep ctx src depth s s') : s'.Alive := by
  obtain ⟨work, rsps, hfollows⟩ := reachable_follows (reachable_mortal reachable)
  cases hstep with
  | skip => exact { h with }
  | walk => exact { h with }
  | send at_ cmds sent =>
      obtain ⟨rfl, -, -⟩ := Channel.send_sent sent
      exact h.moveMain (by rw [at_]; rfl) _ s.rsp rfl
  | refused at_ cmds refused =>
      obtain ⟨-, -, hreceiver, -⟩ := h.before_close (by rw [at_]; rfl)
      rw [Channel.send_refused refused] at hreceiver
      cases hreceiver
  | verify at_ got =>
      obtain ⟨rest, -, rfl⟩ := Channel.recv_received got
      have hopen : s.main.closed = false := by rw [at_]; rfl
      exact h.moveMain hopen s.cmd.queue { s.rsp with queue := rest } rfl
  | lost at_ lost =>
      obtain ⟨-, -, -, hsender⟩ := h.before_close (by rw [at_]; rfl)
      rw [(Channel.recv_disconnected lost).2] at hsender
      cases hsender
  | close => exact { h with stopped := fun _ => rfl, sent := fun _ => rfl }
  | drain at_ inflight got =>
      obtain ⟨rest, -, rfl⟩ := Channel.recv_received got
      exact { h with stopped := fun _ => rfl, sent := fun _ => rfl }
  | drainLost at_ inflight lost =>
      -- The reader stopped, so nothing is in flight.
      obtain ⟨hqueue, hsender⟩ := Channel.recv_disconnected lost
      have hstopped := h.responses hsender
      have hcount := hfollows.count h.ok h.reader
      unfold Prefetch.pending Prefetch.read at hcount
      rw [hqueue, hstopped, h.emptied hstopped] at hcount
      have hzero : s.inflight = 0 := hcount
      omega
  | drained => exact { h with stopped := fun _ => rfl, sent := fun _ => rfl }
  | join => exact { h with stopped := fun _ => rfl, sent := fun _ => rfl }
  | joinPanicked at_ reader => exact absurd reader h.reader
  | read at_ got =>
      obtain ⟨rest, -, rfl⟩ := Channel.recv_received got
      refine h.moveReader (by rw [at_]; rintro ⟨⟩) rest s.rsp rfl ⟨?_, ?_⟩
      · rintro ⟨⟩
      · rintro ⟨⟩
  | stop at_ ended =>
      have hclosed := h.sent (Channel.recv_disconnected ended).2
      exact ⟨h.ok, by rintro ⟨⟩, fun _ => rfl, fun _ => rfl, fun _ => hclosed, fun _ => rfl, h.sent⟩
  | reply at_ sent =>
      obtain ⟨rfl, -, -⟩ := Channel.send_sent sent
      have hrunning : s.reader ≠ .stopped := by rw [at_]; rintro ⟨⟩
      refine h.moveReader hrunning s.cmd.queue (s.rsp.push _) rfl ⟨?_, ?_⟩
      · rintro ⟨⟩
      · rintro ⟨⟩
  | unheard at_ refused =>
      have hgone := Channel.send_refused refused
      rw [hfollows.listening] at hgone
      cases hgone

end Prefetch.Alive

theorem Prefetch.reachable_alive (h : (prefetch ctx src depth p devExtents counters).Reachable s) :
    s.Alive := by
  induction h with
  | init h =>
      obtain rfl := h
      exact .start
  | step hreachable hstep ih => exact ih.step hreachable hstep

/-- A scrub that has returned has its totals. -/
theorem Prefetch.returned_result (h : (prefetch ctx src depth p devExtents counters).Reachable s)
    (returned : s.main = .returned) : s.result src = some (s.out.finish src s.provider) := by
  unfold Prefetch.result
  rw [if_pos ⟨returned, (reachable_alive h).ok⟩]

end Alive

/-! ### On a device that does not change -/

section Fixed
/-- Nothing changes, so a computation returns one value. -/
theorem canReturn_fixed {A : Type} {x : ExceptT Halt (StateM Unit) A} {a : A} :
    CanReturn x a ↔ x = pure a := by
  constructor
  · rintro ⟨s, s', h⟩
    funext s₀
    exact h
  · rintro rfl
    exact ⟨(), (), rfl⟩

theorem map_eq_pure {A B : Type} {f : A → B} {x : ExceptT Halt (StateM Unit) A} {b : B}
    (h : f <$> x = pure b) : ∃ a, x = pure a ∧ f a = b := by
  rw [← bind_pure_comp] at h
  obtain ⟨a, hx, hb⟩ := canReturn_bind (canReturn_fixed.mpr h)
  exact ⟨a, canReturn_fixed.mp hx, (canReturn_pure hb).symm⟩

variable {ctx : ScrubContext (ExceptT Halt (StateM Unit))} {P : Type}
  {src : CsumSource (ExceptT Halt (StateM Unit)) P} {p p₁ p₂ : P} {dext : DevExtent}
  {devExtents : List DevExtent} {work work' : List Streamed} {entries run : List CsumEntry}
  {prev : Option UInt64} {rsps : List (ReadCmd × Isolation)} {first out : ScrubOut}

theorem Walks.unique (h : Walks ctx src p devExtents work p₁)
    (h' : Walks ctx src p devExtents work' p₂) : work = work' ∧ p₁ = p₂ := by
  induction h generalizing work' with
  | nil =>
      cases h'
      exact ⟨rfl, rfl⟩
  | skip hskip _ ih =>
      cases h' with
      | skip _ hrest => exact ih hrest
      | walk hscrubs => rw [hskip] at hscrubs; cases hscrubs
  | walk hscrubs hwalk _ ih =>
      cases h' with
      | skip hskip => rw [hskip] at hscrubs; cases hscrubs
      | walk _ hwalk' hrest =>
          rw [canReturn_fixed.mp hwalk] at hwalk'
          cases canReturn_pure hwalk'
          obtain ⟨rfl, hend⟩ := ih hrest
          exact ⟨rfl, hend⟩

/-- The responses one after the other, whatever the walks count in between. -/
theorem VerifiedRuns.report (h : VerifiedRuns ctx first rsps out) :
    ScrubOut.report <$> rsps.foldlM (processRsp ctx) first = pure out.report := by
  induction h with
  | start => exact map_pure _ _
  | counters _ _ ih => exact ih
  | @rsp rsps out rsp out' _ hrsp ih =>
      rw [List.foldlM_append, map_bind]
      have hblind (o : ScrubOut) : ScrubOut.report <$> [rsp].foldlM (processRsp ctx) o =
          ScrubOut.report <$> processRsp ctx o.report rsp := by
        simp only [List.foldlM_cons, List.foldlM_nil, bind_pure]
        exact processRsp_blind rsp o
      have hmap : (rsps.foldlM (processRsp ctx) first >>= fun o =>
          ScrubOut.report <$> processRsp ctx o.report rsp) =
          (ScrubOut.report <$> rsps.foldlM (processRsp ctx) first) >>= fun o =>
            ScrubOut.report <$> processRsp ctx o rsp := by
        rw [bind_map_left]
      simp only [hblind]
      rw [hmap, ih, pure_bind]
      refine (processRsp_blind rsp out).symm.trans ?_
      dsimp only
      rw [canReturn_fixed.mp hrsp, map_pure]

/-- A stream of one run is gathered and not flushed before its end. -/
theorem inlineEntries_single (h : (runsLoop ctx.strategy.sectorSize entries run prev).length ≤ 1) :
    ∃ prev', entries.foldlM (inlineEntry ctx dext) ⟨out, run, prev⟩ =
      pure ⟨out, run ++ entries, prev'⟩ := by
  induction entries generalizing run prev with
  | nil => exact ⟨prev, by rw [List.foldlM_nil, List.append_nil]⟩
  | cons e rest ih =>
      have hentry : inlineEntry ctx dext ⟨out, run, prev⟩ e =
          pure ⟨out, run ++ [e], some e.logical⟩ ∧
          (runsLoop ctx.strategy.sectorSize rest (run ++ [e]) (some e.logical)).length ≤ 1 := by
        unfold runsLoop at h
        unfold inlineEntry
        dsimp only at h ⊢
        split at h
        case isTrue hbreak =>
            split at h
            case isTrue hempty =>
                obtain rfl := List.isEmpty_iff.mp hempty
                rw [if_pos hbreak]
                exact ⟨rfl, h⟩
            case isFalse =>
                have hpos :
                    0 < (runsLoop ctx.strategy.sectorSize rest [e] (some e.logical)).length :=
                  List.length_pos_of_ne_nil (runsLoop_ne_nil (List.cons_ne_nil _ _))
                rw [List.length_cons] at h
                omega
        case isFalse hbreak =>
            rw [if_neg hbreak]
            exact ⟨pure_bind _ _, h⟩
      obtain ⟨prev', hrest⟩ := ih hentry.2
      refine ⟨prev', ?_⟩
      rw [List.foldlM_cons, hentry.1, pure_bind, hrest, List.append_assoc, List.singleton_append]

theorem runsOf_single {sectorSize : UInt64} (h : (runsOf sectorSize entries).length ≤ 1)
    (hne : entries ≠ []) : runsOf sectorSize entries = [entries] := by
  have hflat := runsOf_flatten sectorSize entries
  cases hruns : runsOf sectorSize entries with
  | nil =>
      rw [hruns] at hflat
      exact absurd hflat.symm hne
  | cons run more =>
      rw [hruns, List.length_cons] at h
      obtain rfl : more = [] := List.length_eq_zero_iff.mp (by omega)
      rw [hruns, List.flatten_singleton] at hflat
      rw [hflat]

theorem inlineExtent_single (hscrubs : ctx.scrubs dext = true)
    (hwalk : src.extentRange dext p = pure (entries, p₁))
    (h : (runsOf ctx.strategy.sectorSize entries).length ≤ 1) :
    inlineExtent ctx src (out, p) dext =
      (fun o => (o, p₁)) <$> inlineFlush ctx dext entries (out.walked src p p₁) := by
  have hsingle : ∃ prev, entries.foldlM (inlineEntry ctx dext) ⟨out.walked src p p₁, [], none⟩ =
      pure ⟨out.walked src p p₁, [] ++ entries, prev⟩ := inlineEntries_single h
  obtain ⟨prev, hentries⟩ := hsingle
  unfold inlineExtent
  rw [if_pos hscrubs, hwalk, pure_bind]
  dsimp only
  rw [hentries, pure_bind, List.nil_append, bind_pure_comp]

/-- What is left after the counters. -/
def reportOf (s : ScrubOut × P) : ScrubOut × P := (s.1.report, s.2)

/-- Over streams of one run each, the inline scrub verifies the same responses. -/
theorem inlineExtents_report (hwalks : Walks ctx src p devExtents work p₁)
    (hsingle : ∀ w ∈ work, (runsOf ctx.strategy.sectorSize w.2).length ≤ 1)
    (hruns : rsps.map (·.1) = runCmds (runsOf ctx.strategy.sectorSize) work)
    (hread : ∀ r ∈ rsps, inlineRead ctx r.1 = pure r.2) :
    reportOf <$> devExtents.foldlM (inlineExtent ctx src) (out, p) =
      (fun o => (o.report, p₁)) <$> rsps.foldlM (processRsp ctx) out := by
  induction hwalks generalizing rsps out with
  | nil =>
      obtain rfl : rsps = [] := List.map_eq_nil_iff.mp hruns
      rfl
  | @skip p dext rest work p₁ hskip _ ih =>
      have hstep : inlineExtent ctx src (out, p) dext = pure (out, p) := by
        unfold inlineExtent
        rw [if_neg (by rw [hskip]; exact Bool.false_ne_true)]
      rw [List.foldlM_cons, hstep, pure_bind]
      exact ih hsingle hruns hread
  | @walk p dext entries q rest work p₁ hscrubs hwalk _ ih =>
      have hone := hsingle _ List.mem_cons_self
      have hsingle' : ∀ w ∈ work, (runsOf ctx.strategy.sectorSize w.2).length ≤ 1 :=
        fun w hw => hsingle w (List.mem_cons_of_mem _ hw)
      have hfold (o : ScrubOut) : (fun o => (o.report, p₁)) <$> rsps.foldlM (processRsp ctx) o =
          (fun o => (o, p₁)) <$> ScrubOut.report <$> rsps.foldlM (processRsp ctx) o := by
        rw [Functor.map_map]
      rw [List.foldlM_cons, inlineExtent_single hscrubs (canReturn_fixed.mp hwalk) hone,
        bind_map_left]
      have hwalked : ScrubOut.report <$> rsps.foldlM (processRsp ctx) out =
          ScrubOut.report <$> rsps.foldlM (processRsp ctx) (out.walked src p q) :=
        (Blind.foldlM (fun r => processRsp_blind r) rsps).congr rfl
      rw [hfold, hwalked, ← hfold]
      cases entries with
      | nil =>
          have hflush (o : ScrubOut) : inlineFlush ctx dext [] o = pure o := rfl
          rw [hflush, pure_bind]
          exact ih hsingle' hruns hread
      | cons e more =>
          have hcut := runsOf_single hone (List.cons_ne_nil e more)
          change rsps.map (·.1) = (runsOf _ (e :: more)).map _ ++ runCmds _ work at hruns
          rw [hcut] at hruns
          cases rsps with
          | nil => cases hruns
          | cons r rsps =>
              obtain ⟨hr, hrest⟩ := List.cons.inj hruns
              obtain ⟨cmd, iso⟩ := r
              obtain rfl : cmd = ⟨dext, e :: more⟩ := hr
              have hiso : inlineRead ctx ⟨dext, e :: more⟩ = pure iso := hread _ List.mem_cons_self
              have hflush (o : ScrubOut) : inlineFlush ctx dext (e :: more) o =
                  inlineRead ctx ⟨dext, e :: more⟩ >>= fun iso =>
                    processRsp ctx o (⟨dext, e :: more⟩, iso) := rfl
              rw [hflush, hiso, pure_bind, List.foldlM_cons, map_bind, map_bind]
              congr 1
              funext o
              exact ih hsingle' hrest fun r hr => hread r (List.mem_cons_of_mem _ hr)

variable {device : Device Unit}

/-- Both scrubs read a run of the opened device alike. -/
theorem inlineRead_eq {cmd : ReadCmd} (hreader : ctx.reader = device.reader ctx.reader.config)
    (hopened : ctx.reader.config.devid.all (· == cmd.dext.devid) = true)
    (hrun : Contiguous ctx.strategy.sectorSize cmd.entries) (hne : cmd.entries ≠ [])
    (hfits : ∀ e ∈ cmd.entries, ctx.Fits cmd.dext e.logical) :
    inlineRead ctx cmd = isolateRunRead ctx cmd := by
  have hdevice : device.runRead ctx.reader.config false cmd.dext.devid =
      device.runRead ctx.reader.config true cmd.dext.devid := by
    funext offset n
    unfold Device.runRead
    rw [hopened]
    rfl
  have hinline := readRun_eq hreader false cmd
  have hthreaded := readRun_eq hreader true cmd
  rw [runOffset_eq hrun hfits hne] at hinline hthreaded
  rw [hdevice] at hinline
  exact hinline.trans hthreaded.symm

/-- Of a stream with a second run, the scrub without a reader thread counts more sectors. -/
theorem inline_counts_more {depth : Nat} {counters : Counters} {s : Prefetch P} {out' : ScrubOut}
    (hreader : ctx.reader = device.reader ctx.reader.config)
    (hstreams : ∀ dext ∈ devExtents, ctx.scrubs dext = true → ∀ p entries p',
      CanReturn (src.extentRange dext p) (entries, p') →
        ∀ e ∈ entries, e.csum.length = ctx.strategy.hashLen ∧ ctx.Fits dext e.logical)
    (reachable : (prefetch ctx src depth p devExtents counters).Reachable s)
    (result : s.result src = some out) (walks : Walks ctx src p devExtents work p₁)
    (hseveral : ∃ w ∈ work, 2 ≤ (runsOf ctx.strategy.sectorSize w.2).length)
    (returns : CanReturn (scrubDevTreeInline ctx src p devExtents counters) (out', p₂)) :
    out.stats.sectorsChecked < out'.stats.sectorsChecked := by
  obtain ⟨work₁, rsps₁, out₁, q₁, hfirst, rfl⟩ :=
    Prefetch.result_scrubbed (Prefetch.reachable_mortal reachable) result
  obtain ⟨work₂, rsps₂, out₂, hsecond, rfl⟩ := scrubDevTreeInline_scrubbed returns
  obtain ⟨rfl, -⟩ := walks.unique hfirst.walks
  obtain ⟨rfl, -⟩ := walks.unique hsecond.walks
  have hwork := fun w hw => (walks.all_streams hstreams w hw).2
  have hthreaded : Scrubbed ctx src (cutOf true ctx.strategy.sectorSize) (ctx.readRun true) p
      devExtents (.start counters) work rsps₁ out₁ q₁ := hfirst
  have hinline : Scrubbed ctx src (inlineRunsOf ctx.strategy.sectorSize) (ctx.readRun false) p
      devExtents (.start counters) work rsps₂ out₂ p₂ := hsecond
  obtain ⟨runs, hcounted⟩ := scrubbed_countedOnce hreader hwork (.inl rfl) hthreaded
  have hmore := scrubbed_repeats hreader (fun w hw e he => (hwork w hw e he).1) hseveral hinline
  rw [← hcounted.checked] at hmore
  exact hmore

/-- The scrub without a reader thread gives what the one with it has given, exactly when no stream
is cut into a second run. -/
theorem inline_eq_prefetch_iff {depth : Nat} {counters : Counters} {s : Prefetch P}
    (hreader : ctx.reader = device.reader ctx.reader.config)
    (hopened : ∀ dext ∈ devExtents, ctx.reader.config.devid.all (· == dext.devid) = true)
    (hstreams : ∀ dext ∈ devExtents, ctx.scrubs dext = true → ∀ p entries p',
      CanReturn (src.extentRange dext p) (entries, p') →
        ∀ e ∈ entries, e.csum.length = ctx.strategy.hashLen ∧ ctx.Fits dext e.logical)
    (reachable : (prefetch ctx src depth p devExtents counters).Reachable s)
    (returned : s.main = .returned) :
    ∃ out work p', s.result src = some out ∧ Walks ctx src p devExtents work p' ∧
      ((∃ out' p'', CanReturn (scrubDevTreeInline ctx src p devExtents counters) (out', p'') ∧
          out'.events = out.events ∧ out'.stats = out.stats) ↔
        ∀ w ∈ work, (runsOf ctx.strategy.sectorSize w.2).length ≤ 1) := by
  have hresult := Prefetch.returned_result reachable returned
  generalize s.out.finish src s.provider = out at hresult
  obtain ⟨work, rsps, out₁, p', hscrubbed, rfl⟩ :=
    Prefetch.result_scrubbed (Prefetch.reachable_mortal reachable) hresult
  have hwork := hscrubbed.walks.all_streams hstreams
  refine ⟨_, work, p', hresult, hscrubbed.walks, ⟨?_, fun hsingle => ?_⟩⟩
  · rintro ⟨out', p'', hreturns, -, hstats⟩ w hw
    by_contra hlen
    have hmore := inline_counts_more hreader hstreams reachable hresult hscrubbed.walks
      ⟨w, hw, by omega⟩ hreturns
    rw [hstats] at hmore
    exact Nat.lt_irrefl _ hmore
  · have hread : ∀ r ∈ rsps, inlineRead ctx r.1 = pure r.2 := by
      intro r hr
      have hcmd : r.1 ∈ runCmds (runsOf ctx.strategy.sectorSize) work := by
        rw [← hscrubbed.runs]
        exact List.mem_map_of_mem hr
      obtain ⟨w, hw, hdext, hmem⟩ := mem_runCmds.mp hcmd
      obtain ⟨hne, hcontiguous, -⟩ := runsOf_run ctx.strategy.sectorSize w.2 _ hmem
      rw [← canReturn_fixed.mp (hscrubbed.isolated r hr)]
      refine inlineRead_eq hreader ?_ hcontiguous hne fun e he => ?_
      · rw [hdext]
        exact hopened w.1 (hwork w hw).1
      · rw [hdext]
        exact ((hwork w hw).2 e (mem_of_mem_runsOf hmem he)).2
    have hreport : reportOf <$> devExtents.foldlM (inlineExtent ctx src) (.start counters, p) = _ :=
      inlineExtents_report hscrubbed.walks hsingle hscrubbed.runs hread
    have hsame : (fun o => (o.report, p')) <$> rsps.foldlM (processRsp ctx) (.start counters) =
        pure (out₁.report, p') := by
      rw [← Functor.map_map (g := fun o => (o, p')), hscrubbed.verified.report, map_pure]
    obtain ⟨⟨o, q⟩, hextents, hout⟩ := map_eq_pure (hreport.trans hsame)
    have hlast : o.report = out₁.report := congrArg Prod.fst hout
    obtain rfl : q = p' := congrArg Prod.snd hout
    have hparts : o.report.events = out₁.report.events ∧ o.report.stats = out₁.report.stats :=
      ⟨by rw [hlast], by rw [hlast]⟩
    have hevents : o.events = out₁.events := hparts.1
    have hstats : o.stats = out₁.stats := hparts.2
    refine ⟨o.finish src q, q, canReturn_fixed.mpr ?_, hevents, ?_⟩
    · rw [scrubDevTreeInline, hextents, pure_bind]
    · rw [ScrubOut.finish, hstats]
      rfl

end Fixed

/-! ### Some order of the steps returns -/

section Complete
variable {ctx : ScrubContext (ExceptT Halt (StateM Unit))} {P : Type}
  {src : CsumSource (ExceptT Halt (StateM Unit)) P} {depth : Nat} {p p₁ p' : P}
  {devExtents extents : List DevExtent} {work : List Streamed} {counters : Counters}
  {done queue rsps more : List (ReadCmd × Isolation)} {out last : ScrubOut}

/-- Between two commands, with these responses waiting. -/
def Prefetch.waiting (depth : Nat) (extents : List DevExtent) (cmds : List ReadCmd) (p : P)
    (out : ScrubOut) (queue : List (ReadCmd × Isolation)) : Prefetch P where
  extents
  cmds
  provider := p
  out
  inflight := queue.length
  failed := false
  main := .walking
  cmd := .new depth
  rsp := ⟨depth, queue, true, true⟩
  reader := .idle

/-- The output has what these responses add. -/
def Reached (ctx : ScrubContext (ExceptT Halt (StateM Unit))) (counters : Counters)
    (done : List (ReadCmd × Isolation)) (out : ScrubOut) : Prop :=
  ScrubOut.report <$> done.foldlM (processRsp ctx) (.start counters) = pure out.report

/-- A verification that succeeds as a whole succeeds at its next response. -/
theorem Reached.next {r : ReadCmd × Isolation} (h : Reached ctx counters done out)
    (hall : (done ++ r :: more).foldlM (processRsp ctx) (.start counters) = pure last) :
    ∃ out', processRsp ctx out r = pure out' ∧ Reached ctx counters (done ++ [r]) out' := by
  unfold Reached at h
  obtain ⟨o, hdone, hreport⟩ := map_eq_pure h
  rw [List.foldlM_append, hdone, pure_bind, List.foldlM_cons] at hall
  obtain ⟨o', hone, -⟩ := canReturn_bind (canReturn_fixed.mpr hall)
  have hrun := canReturn_fixed.mp hone
  have hsame : ScrubOut.report <$> processRsp ctx out r = pure o'.report := by
    rw [← map_pure, ← hrun]
    exact (processRsp_blind r).congr hreport.symm
  obtain ⟨out', hout', hreport'⟩ := map_eq_pure hsame
  refine ⟨out', hout', ?_⟩
  unfold Reached
  rw [List.foldlM_append, hdone, pure_bind, List.foldlM_cons, hrun, pure_bind, List.foldlM_nil,
    map_pure, hreport']

/-- Commands go out one at a time; a response is verified whenever the pipeline is full. -/
theorem Prefetch.send_all (hlt : queue.length < depth) (hdone : Reached ctx counters done out)
    (hread : ∀ r ∈ rsps, isolateRunRead ctx r.1 = pure r.2)
    (hall : (done ++ (queue ++ (rsps ++ more))).foldlM (processRsp ctx) (.start counters) =
      pure last)
    (reachable : (prefetch ctx src depth p devExtents counters).Reachable
      (.waiting depth extents (rsps.map (·.1)) p₁ out queue)) :
    ∃ done' queue' out', done' ++ queue' = done ++ (queue ++ rsps) ∧ queue'.length < depth ∧
      Reached ctx counters done' out' ∧
      (prefetch ctx src depth p devExtents counters).Reachable
        (.waiting depth extents [] p₁ out' queue') := by
  induction rsps generalizing done queue out with
  | nil => exact ⟨done, queue, out, by rw [List.append_nil], hlt, hdone, reachable⟩
  | cons r rsps ih =>
      have step {s s' : Prefetch P} (h : (prefetch ctx src depth p devExtents counters).Reachable s)
          (hs : PrefetchStep ctx src depth s s') :
          (prefetch ctx src depth p devExtents counters).Reachable s' := .step h hs
      have hsend {A : Type} (queue : List A) (a : A) (hroom : queue.length < depth) :
          (⟨depth, queue, true, true⟩ : Channel A).send a =
            .sent ⟨depth, queue ++ [a], true, true⟩ := by
        rw [Channel.send, if_neg (by simp), if_pos hroom]
        rfl
      have h := step reachable (.send rfl rfl (hsend [] r.1 (Nat.zero_lt_of_lt hlt)))
      have h := step h (.read rfl rfl (canReturn_fixed.mpr (hread r List.mem_cons_self)))
      have h := step h (.reply rfl (hsend queue _ hlt))
      have hread' : ∀ r ∈ rsps, isolateRunRead ctx r.1 = pure r.2 :=
        fun r hr => hread r (List.mem_cons_of_mem _ hr)
      by_cases hfull : depth ≤ queue.length + 1
      · have hmain : (if depth ≤ queue.length + 1 then MainPhase.receiving else .walking) =
            .receiving := if_pos hfull
        cases hqueue : queue ++ [r] with
        | nil => exact absurd hqueue (by simp)
        | cons r₀ rest =>
            have hlen : rest.length = queue.length := by
              have := congrArg List.length hqueue
              simpa using this.symm
            have hsplit : queue ++ (r :: rsps ++ more) = r₀ :: (rest ++ (rsps ++ more)) := by
              rw [List.cons_append, ← List.singleton_append, ← List.append_assoc, hqueue]
              rfl
            rw [hsplit] at hall
            obtain ⟨out', hout', hdone'⟩ := hdone.next hall
            have hgot : Channel.recv (⟨depth, queue ++ [r], true, true⟩ : Channel _) =
                .received r₀ ⟨depth, rest, true, true⟩ := by
              rw [hqueue]
              rfl
            have h := step h (.verify hmain hgot (canReturn_fixed.mpr hout'))
            have hstate : (prefetch ctx src depth p devExtents counters).Reachable
                (.waiting depth extents (rsps.map (·.1)) p₁ out' rest) := by
              unfold Prefetch.waiting
              rw [hlen]
              exact h
            obtain ⟨done₁, queue₁, out₁, hparts, hrest⟩ :=
              ih (by omega) hdone' hread' (by rwa [List.append_assoc]) hstate
            refine ⟨done₁, queue₁, out₁, hparts.trans ?_, hrest⟩
            have hjoin : queue ++ r :: rsps = r₀ :: (rest ++ rsps) := by
              rw [← List.singleton_append, ← List.append_assoc, hqueue]
              rfl
            rw [hjoin, List.append_assoc, List.singleton_append]
      · have hmain : (if depth ≤ queue.length + 1 then MainPhase.receiving else .walking) =
            .walking := if_neg hfull
        have hstate : (prefetch ctx src depth p devExtents counters).Reachable
            (.waiting depth extents (rsps.map (·.1)) p₁ out (queue ++ [r])) := by
          unfold Prefetch.waiting
          rw [List.length_append]
          rw [← hmain]
          exact h
        obtain ⟨done₁, queue₁, out₁, hparts, hrest⟩ :=
          ih (by simp; omega) hdone hread' (by simpa using hall) hstate
        exact ⟨done₁, queue₁, out₁, by simpa using hparts, hrest⟩

/-- The walk of one extent after the other, each of its runs sent before the next walk. -/
theorem Prefetch.walk_all (hwalks : Walks ctx src p₁ extents work p')
    (hruns : rsps.map (·.1) = runCmds (runsOf ctx.strategy.sectorSize) work)
    (hlt : queue.length < depth) (hdone : Reached ctx counters done out)
    (hread : ∀ r ∈ rsps, isolateRunRead ctx r.1 = pure r.2)
    (hall : (done ++ (queue ++ rsps)).foldlM (processRsp ctx) (.start counters) = pure last)
    (reachable : (prefetch ctx src depth p devExtents counters).Reachable
      (.waiting depth extents [] p₁ out queue)) :
    ∃ done' queue' out', done' ++ queue' = done ++ (queue ++ rsps) ∧ queue'.length < depth ∧
      Reached ctx counters done' out' ∧
      (prefetch ctx src depth p devExtents counters).Reachable
        (.waiting depth [] [] p' out' queue') := by
  induction hwalks generalizing rsps done queue out with
  | nil =>
      obtain rfl : rsps = [] := List.map_eq_nil_iff.mp hruns
      exact ⟨done, queue, out, by rw [List.append_nil], hlt, hdone, reachable⟩
  | skip hskip _ ih =>
      exact ih hruns hlt hdone hread hall (.step reachable (.skip rfl rfl rfl hskip))
  | @walk p₁ dext entries q rest work p' hscrubs hwalk _ ih =>
      have hsplit : rsps.map (·.1) = extentCmds ctx dext entries ++
          runCmds (runsOf ctx.strategy.sectorSize) work := hruns
      obtain ⟨now, later, rfl, hnow, hlater⟩ := List.map_eq_append_iff.mp hsplit
      have hstep : (prefetch ctx src depth p devExtents counters).Reachable
          (.waiting depth rest (now.map (·.1)) q (out.walked src p₁ q) queue) := by
        rw [hnow]
        exact .step reachable (.walk rfl rfl rfl hscrubs hwalk)
      have hcounted : Reached ctx counters done (out.walked src p₁ q) := hdone
      obtain ⟨done₁, queue₁, out₁, hparts, hlt₁, hdone₁, hreached⟩ := send_all hlt hcounted
        (fun r hr => hread r (List.mem_append_left _ hr)) hall hstep
      have hjoin : done₁ ++ (queue₁ ++ later) = done ++ (queue ++ (now ++ later)) := by
        rw [← List.append_assoc, hparts]
        simp
      obtain ⟨done₂, queue₂, out₂, hparts₂, hrest⟩ := ih hlater hlt₁ hdone₁
        (fun r hr => hread r (List.mem_append_right _ hr)) (by rw [hjoin]; exact hall) hreached
      exact ⟨done₂, queue₂, out₂, hparts₂.trans hjoin, hrest⟩

/-- What is in flight after the last command is verified, oldest first. -/
theorem Prefetch.drain_all (hdone : Reached ctx counters done out)
    (hall : (done ++ queue).foldlM (processRsp ctx) (.start counters) = pure last)
    (reachable : (prefetch ctx src depth p devExtents counters).Reachable
      { waiting depth [] [] p' out queue with
        main := .draining, cmd := (Channel.new depth).dropSender }) :
    ∃ out', Reached ctx counters (done ++ queue) out' ∧
      (prefetch ctx src depth p devExtents counters).Reachable
        { waiting depth [] [] p' out' [] with
          main := .draining, cmd := (Channel.new depth).dropSender } := by
  induction queue generalizing done out with
  | nil => exact ⟨out, by rwa [List.append_nil], reachable⟩
  | cons r queue ih =>
      obtain ⟨out₁, hout₁, hdone₁⟩ := hdone.next hall
      have hstep : (prefetch ctx src depth p devExtents counters).Reachable
          { waiting depth [] [] p' out₁ queue with
            main := .draining, cmd := (Channel.new depth).dropSender } :=
        .step reachable (.drain rfl (Nat.succ_pos _) rfl (canReturn_fixed.mpr hout₁))
      rw [List.append_cons] at hall ⊢
      exact ih hdone₁ hall hstep

/-- Where the runs can be read and verified one after the other, the two threads can finish. -/
theorem prefetch_returns (hdepth : 0 < depth) (hwalks : Walks ctx src p devExtents work p')
    (hruns : rsps.map (·.1) = runCmds (runsOf ctx.strategy.sectorSize) work)
    (hread : ∀ r ∈ rsps, isolateRunRead ctx r.1 = pure r.2)
    (hall : rsps.foldlM (processRsp ctx) (.start counters) = pure last) :
    ∃ s, (prefetch ctx src depth p devExtents counters).Reachable s ∧ s.main = .returned := by
  have hstart : (prefetch ctx src depth p devExtents counters).Reachable
      (.waiting depth devExtents [] p (.start counters) []) := .init rfl
  have hnone : Reached ctx counters [] (.start counters) := map_pure _ _
  have hroom : ([] : List (ReadCmd × Isolation)).length < depth := hdepth
  obtain ⟨done, queue, out, hparts, -, hdone, hwalked⟩ :=
    Prefetch.walk_all hwalks hruns hroom hnone hread hall hstart
  rw [List.nil_append, List.nil_append] at hparts
  have hclosed := hwalked.step (.close rfl rfl rfl)
  obtain ⟨out', -, hdrained⟩ := Prefetch.drain_all hdone (by rw [hparts]; exact hall) hclosed
  have h := hdrained.step (.drained rfl rfl)
  have h := h.step (.stop rfl rfl)
  have h := h.step (.join rfl rfl)
  exact ⟨_, h, rfl⟩

end Complete
/-! ### The stream with a gap, read by both -/

namespace Crafted

/-- One data chunk of a device of zeros that can be opened once more. -/
def gapCtx : ScrubContext (ExceptT Halt (StateM Unit)) where
  reader := blank.reader (.checked 16384 0 strategy 1 fsid)
  reopen := pure (.ok ())
  chunkMap := ⟨[⟨0x10000, 0x20000, BgFlag.data, [⟨1, 0x10000⟩]⟩]⟩
  strategy
  batch := true
  isolationLimit := 64
  isolationLimit_pos := limit_pos

def gapSource : CsumSource (ExceptT Halt (StateM Unit)) Unit := .fixed gap

/-- Every sector of it can be read. -/
theorem gap_sector (e : CsumEntry) (out : ScrubOut) : ∃ iso out',
    CanReturn (isolateRunRead gapCtx ⟨loneExtent, [e]⟩) iso ∧
      CanReturn (processRsp gapCtx out (⟨loneExtent, [e]⟩, iso)) out' := by
  let offset := saturatingAdd gapCtx.reader.config.baseOffset (loneExtent.physOf e.logical)
  let buf := blank.bytesAt offset gapCtx.sz
  have hread : gapCtx.reader.pread offset gapCtx.sz = pure (.ok buf) := rfl
  have hlen : buf.length = gapCtx.sz := blank.bytesAt_length offset gapCtx.sz
  have hsector : ∃ out', processSector gapCtx loneExtent out (e, gapCtx.strategy.compute buf) =
      pure out' := by
    unfold processSector
    dsimp only
    split
    · exact ⟨_, rfl⟩
    · exact ⟨_, rfl⟩
  obtain ⟨out', hout'⟩ := hsector
  have hiso : isolateRunRead gapCtx ⟨loneExtent, [e]⟩ = _ := isolateRunRead_single hread
  have hrsp : processRsp gapCtx out (⟨loneExtent, [e]⟩, _) = _ := processRsp_single hlen 64 out
  exact ⟨_, out', canReturn_fixed.mpr hiso, canReturn_fixed.mpr (hrsp.trans hout')⟩

theorem gapCtx_walks : Walks gapCtx gapSource () [loneExtent] [(loneExtent, gap)] () :=
  .walk (by decide) ⟨(), (), rfl⟩ .nil

theorem gap_prefetched : ∃ s, (prefetch gapCtx gapSource 16 () [loneExtent] none).Reachable s ∧
    s.main = .returned := by
  obtain ⟨iso₁, out₁, hread₁, hrsp₁⟩ := gap_sector ⟨0x10000, [0, 0, 0, 0]⟩ (.start none)
  obtain ⟨iso₂, out₂, hread₂, hrsp₂⟩ := gap_sector ⟨0x12000, [0, 0, 0, 0]⟩ out₁
  let rsps : List (ReadCmd × Isolation) := [(⟨loneExtent, [⟨0x10000, [0, 0, 0, 0]⟩]⟩, iso₁),
    (⟨loneExtent, [⟨0x12000, [0, 0, 0, 0]⟩]⟩, iso₂)]
  have hruns : rsps.map (·.1) = runCmds (runsOf gapCtx.strategy.sectorSize) [(loneExtent, gap)] :=
    rfl
  have hread : ∀ r ∈ rsps, isolateRunRead gapCtx r.1 = pure r.2 := by
    intro r hr
    rcases List.mem_cons.mp hr with rfl | hr
    · exact canReturn_fixed.mp hread₁
    · obtain rfl := List.mem_singleton.mp hr
      exact canReturn_fixed.mp hread₂
  have hall : rsps.foldlM (processRsp gapCtx) (.start none) = pure out₂ := by
    rw [List.foldlM_cons, canReturn_fixed.mp hrsp₁, pure_bind, List.foldlM_cons,
      canReturn_fixed.mp hrsp₂, pure_bind, List.foldlM_nil]
  exact prefetch_returns (by decide) gapCtx_walks hruns hread hall

theorem gap_streams : ∀ dext ∈ [loneExtent], gapCtx.scrubs dext = true → ∀ p entries p',
    CanReturn (gapSource.extentRange dext p) (entries, p') → ∀ e ∈ entries,
      e.csum.length = gapCtx.strategy.hashLen ∧ gapCtx.Fits dext e.logical := by
  rintro dext hdext - p entries p' hwalk
  obtain rfl := List.mem_singleton.mp hdext
  rw [gap_streamed hwalk]
  exact gap_fits

/-- The sector before the gap is counted again without a reader thread. -/
theorem gap_inline_differs : ∃ s out,
    (prefetch gapCtx gapSource 16 () [loneExtent] none).Reachable s ∧
      s.result gapSource = some out ∧
      ¬∃ out' p'', CanReturn (scrubDevTreeInline gapCtx gapSource () [loneExtent] none)
        (out', p'') ∧ out'.events = out.events ∧ out'.stats = out.stats := by
  obtain ⟨s, hreachable, hreturned⟩ := gap_prefetched
  have hresult := Prefetch.returned_result hreachable hreturned
  have hseveral : ∃ w ∈ [(loneExtent, gap)], 2 ≤ (runsOf gapCtx.strategy.sectorSize w.2).length :=
    ⟨_, List.mem_singleton_self _, by decide⟩
  refine ⟨s, _, hreachable, hresult, ?_⟩
  rintro ⟨out', p'', hreturns, -, hstats⟩
  have hmore := inline_counts_more rfl gap_streams hreachable hresult gapCtx_walks hseveral
    hreturns
  rw [hstats] at hmore
  exact Nat.lt_irrefl _ hmore

theorem inline_eq_prefetch_iff_gap : ∃ (s : Prefetch Unit) (out : ScrubOut) (work : List Streamed)
    (p' : Unit), s.result gapSource = some out ∧
      Walks gapCtx gapSource () [loneExtent] work p' ∧
      ((∃ out' p'', CanReturn (scrubDevTreeInline gapCtx gapSource () [loneExtent] none)
          (out', p'') ∧ out'.events = out.events ∧ out'.stats = out.stats) ↔
        ∀ w ∈ work, (runsOf gapCtx.strategy.sectorSize w.2).length ≤ 1) := by
  obtain ⟨s, hreachable, hreturned⟩ := gap_prefetched
  have hopened : ∀ dext ∈ [loneExtent],
      gapCtx.reader.config.devid.all (· == dext.devid) = true := by decide
  exact ⟨s, inline_eq_prefetch_iff rfl hopened gap_streams hreachable hreturned⟩

end Crafted
end Rotshield.Btrfs
