import Rotshield.Btrfs.Runs
import Rotshield.Lib.CanReturn

/-! What a scrub did: the walks, the reads and the verification of its runs, in order. -/
namespace Rotshield.Btrfs
open MonadAttach (CanReturn)
open Lib (Folds canReturn_pure canReturn_bind canReturn_foldlM)

variable {m : Type → Type} {P : Type}

/-- A scrubbed extent, with the stream its walk gave. -/
abbrev Streamed := DevExtent × List CsumEntry

/-- The runs of all streams; `cut` says how one is cut. -/
def runCmds (cut : List CsumEntry → List (List CsumEntry)) (work : List Streamed) : List ReadCmd :=
  work.flatMap fun w => (cut w.2).map fun run => ⟨w.1, run⟩

theorem runCmds_append (cut : List CsumEntry → List (List CsumEntry)) (work work' : List Streamed) :
    runCmds cut (work ++ work') = runCmds cut work ++ runCmds cut work' := List.flatMap_append

theorem runCmds_snoc (cut : List CsumEntry → List (List CsumEntry)) (work : List Streamed)
    (dext : DevExtent) (entries : List CsumEntry) :
    runCmds cut (work ++ [(dext, entries)]) =
      runCmds cut work ++ (cut entries).map fun run => ⟨dext, run⟩ := by
  rw [runCmds_append]
  congr 1
  exact List.append_nil _

section Walks
variable [MonadAttach m]

/-- The walks of these extents, each from where the one before left the provider. -/
inductive Walks (ctx : ScrubContext m) (src : CsumSource m P) :
    P → List DevExtent → List Streamed → P → Prop where
  | nil {p} : Walks ctx src p [] [] p
  | skip {p dext rest work p'} (hskip : ctx.scrubs dext = false)
      (hrest : Walks ctx src p rest work p') : Walks ctx src p (dext :: rest) work p'
  | walk {p dext entries p₁ rest work p'} (hscrubs : ctx.scrubs dext = true)
      (hwalk : CanReturn (src.extentRange dext p) (entries, p₁))
      (hrest : Walks ctx src p₁ rest work p') :
      Walks ctx src p (dext :: rest) ((dext, entries) :: work) p'

namespace Walks
variable {ctx : ScrubContext m} {src : CsumSource m P} {p p' p₁ : P} {devExtents : List DevExtent}
  {dext : DevExtent} {entries : List CsumEntry} {work : List Streamed}

theorem append {more : List DevExtent} {work' : List Streamed}
    (h : Walks ctx src p devExtents work p₁) (h' : Walks ctx src p₁ more work' p') :
    Walks ctx src p (devExtents ++ more) (work ++ work') p' := by
  induction h with
  | nil => exact h'
  | skip hskip _ ih => exact .skip hskip (ih h')
  | walk hscrubs hwalk _ ih => exact .walk hscrubs hwalk (ih h')

theorem snoc_skip (h : Walks ctx src p devExtents work p') (hskip : ctx.scrubs dext = false) :
    Walks ctx src p (devExtents ++ [dext]) work p' := by
  rw [← List.append_nil work]
  exact h.append (.skip hskip .nil)

theorem snoc_walk (h : Walks ctx src p devExtents work p₁) (hscrubs : ctx.scrubs dext = true)
    (hwalk : CanReturn (src.extentRange dext p₁) (entries, p')) :
    Walks ctx src p (devExtents ++ [dext]) (work ++ [(dext, entries)]) p' :=
  h.append (.walk hscrubs hwalk .nil)

/-- Exactly the extents to be scrubbed are walked. -/
theorem extents (h : Walks ctx src p devExtents work p') :
    work.map (·.1) = devExtents.filter ctx.scrubs := by
  induction h with
  | nil => rfl
  | skip hskip _ ih => rw [List.filter_cons_of_neg (by simp [hskip]), ih]
  | walk hscrubs _ _ ih => rw [List.filter_cons_of_pos hscrubs, List.map_cons, ih]

theorem streams (h : Walks ctx src p devExtents work p') :
    ∀ w ∈ work, ∃ p p', CanReturn (src.extentRange w.1 p) (w.2, p') := by
  induction h with
  | nil => exact nofun
  | skip _ _ ih => exact ih
  | walk _ hwalk _ ih =>
      intro w hw
      rcases List.mem_cons.mp hw with rfl | hw
      · exact ⟨_, _, hwalk⟩
      · exact ih w hw

/-- What holds of every stream a walk can give holds of those it gave. -/
theorem all_streams {motive : DevExtent → List CsumEntry → Prop}
    (h : Walks ctx src p devExtents work p')
    (hstreams : ∀ dext ∈ devExtents, ctx.scrubs dext = true → ∀ p entries p',
      CanReturn (src.extentRange dext p) (entries, p') → motive dext entries) :
    ∀ w ∈ work, w.1 ∈ devExtents ∧ motive w.1 w.2 := by
  intro w hw
  obtain ⟨q, q', hwalk⟩ := h.streams w hw
  have hextent : w.1 ∈ devExtents.filter ctx.scrubs := by
    rw [← h.extents]
    exact List.mem_map_of_mem hw
  obtain ⟨hin, hscrubs⟩ := List.mem_filter.mp hextent
  exact ⟨hin, hstreams w.1 hin hscrubs q w.2 q' hwalk⟩

end Walks
end Walks

section Run
variable [Monad m] [MonadExceptOf Halt m] [MonadAttach m]

/-- The responses that were verified, one after the other; walks change the counters in between. -/
inductive VerifiedRuns (ctx : ScrubContext m) (first : ScrubOut) :
    List (ReadCmd × Isolation) → ScrubOut → Prop where
  | start : VerifiedRuns ctx first [] first
  | counters {rsps out} (h : VerifiedRuns ctx first rsps out) (counters : Counters) :
      VerifiedRuns ctx first rsps { out with counters }
  | rsp {rsps out rsp out'} (h : VerifiedRuns ctx first rsps out)
      (hrsp : CanReturn (processRsp ctx out rsp) out') : VerifiedRuns ctx first (rsps ++ [rsp]) out'

/-- A whole scrub: its streams, what was read of each run, and the output. -/
structure Scrubbed (ctx : ScrubContext m) (src : CsumSource m P)
    (cut : List CsumEntry → List (List CsumEntry)) (read : ReadCmd → m Isolation) (p : P)
    (devExtents : List DevExtent) (first : ScrubOut) (work : List Streamed)
    (rsps : List (ReadCmd × Isolation)) (out : ScrubOut) (p' : P) : Prop where
  walks : Walks ctx src p devExtents work p'
  runs : rsps.map (·.1) = runCmds cut work
  isolated : ∀ r ∈ rsps, CanReturn (read r.1) r.2
  verified : VerifiedRuns ctx first rsps out

/-! ### The inline scrub -/

section Flushed
variable {ctx : ScrubContext m} {dext : DevExtent} {out out' : ScrubOut}

/-- Runs of one extent that were read and verified after others. -/
def FlushedRuns (ctx : ScrubContext m) (dext : DevExtent) (runs : List (List CsumEntry))
    (out out' : ScrubOut) : Prop :=
  ∀ first rsps, VerifiedRuns ctx first rsps out → ∃ more, VerifiedRuns ctx first (rsps ++ more) out' ∧
    (∀ r ∈ more, CanReturn (inlineRead ctx r.1) r.2) ∧ more.map (·.1) = runs.map fun run => ⟨dext, run⟩

theorem FlushedRuns.nil : FlushedRuns ctx dext [] out out := by
  intro first rsps h
  exact ⟨[], by rwa [List.append_nil], nofun, rfl⟩

theorem FlushedRuns.append {runs runs' : List (List CsumEntry)} {out₁ : ScrubOut}
    (h : FlushedRuns ctx dext runs out out₁) (h' : FlushedRuns ctx dext runs' out₁ out') :
    FlushedRuns ctx dext (runs ++ runs') out out' := by
  intro first rsps hrsps
  obtain ⟨more, hmore, hread, hcmds⟩ := h first rsps hrsps
  obtain ⟨more', hmore', hread', hcmds'⟩ := h' first _ hmore
  refine ⟨more ++ more', by rwa [← List.append_assoc], ?_, ?_⟩
  · intro r hr
    rcases List.mem_append.mp hr with hr | hr
    · exact hread r hr
    · exact hread' r hr
  · rw [List.map_append, hcmds, hcmds', List.map_append]

end Flushed

section Inline
variable [LawfulMonad m] [LawfulMonadAttach m] {ctx : ScrubContext m} {src : CsumSource m P}
  {p p' : P} {dext : DevExtent} {out out' : ScrubOut}

theorem inlineFlush_flushed {run : List CsumEntry} (hrun : run.isEmpty = false)
    (h : CanReturn (inlineFlush ctx dext run out) out') : FlushedRuns ctx dext [run] out out' := by
  intro first rsps hrsps
  unfold inlineFlush at h
  rw [hrun, if_neg Bool.false_ne_true] at h
  obtain ⟨iso, hread, hprocess⟩ := canReturn_bind h
  refine ⟨[(⟨dext, run⟩, iso)], hrsps.rsp hprocess, ?_, rfl⟩
  intro r hr
  obtain rfl := List.mem_singleton.mp hr
  exact hread

theorem inlineFlush_empty {run : List CsumEntry} (hrun : run.isEmpty = true)
    (h : CanReturn (inlineFlush ctx dext run out) out') : out' = out := by
  unfold inlineFlush at h
  rw [hrun, if_pos rfl] at h
  exact canReturn_pure h

/-- The flushes of a stream, the one at its end included. -/
theorem inlineStream_flushed {entries : List CsumEntry} {s last : InlineState}
    (h : CanReturn (entries.foldlM (inlineEntry ctx dext) s) last)
    (hend : CanReturn (inlineFlush ctx dext last.run last.out) out') :
    FlushedRuns ctx dext (inlineRunsLoop ctx.strategy.sectorSize entries s.run s.prev) s.out out' := by
  induction entries generalizing s with
  | nil =>
      obtain rfl := canReturn_pure h
      unfold inlineRunsLoop
      cases hrun : last.run.isEmpty with
      | true =>
          obtain rfl := inlineFlush_empty hrun hend
          exact .nil
      | false => exact inlineFlush_flushed hrun hend
  | cons e rest ih =>
      rw [List.foldlM_cons] at h
      obtain ⟨s₁, hentry, hrest⟩ := canReturn_bind h
      unfold inlineEntry at hentry
      obtain ⟨out₁, hflush, hs₁⟩ := canReturn_bind hentry
      obtain rfl := canReturn_pure hs₁
      have hmore := ih hrest
      unfold inlineRunsLoop
      dsimp only at hmore ⊢
      split
      case isTrue hbreak =>
          rw [if_pos hbreak] at hflush
          cases hrun : s.run.isEmpty with
          | true =>
              obtain rfl := inlineFlush_empty hrun hflush
              exact hmore
          | false => exact (inlineFlush_flushed hrun hflush).append hmore
      case isFalse hbreak =>
          rw [if_neg hbreak] at hflush
          obtain rfl := canReturn_pure hflush
          exact hmore

theorem inlineExtents_scrubbed {devExtents : List DevExtent} {first : ScrubOut}
    {rsps : List (ReadCmd × Isolation)} (hrsps : VerifiedRuns ctx first rsps out)
    (h : CanReturn (devExtents.foldlM (inlineExtent ctx src) (out, p)) (out', p')) :
    ∃ work more, Walks ctx src p devExtents work p' ∧ VerifiedRuns ctx first (rsps ++ more) out' ∧
      (∀ r ∈ more, CanReturn (inlineRead ctx r.1) r.2) ∧
        more.map (·.1) = runCmds (inlineRunsOf ctx.strategy.sectorSize) work := by
  induction devExtents generalizing rsps out p with
  | nil =>
      cases canReturn_pure h
      exact ⟨[], [], .nil, by rwa [List.append_nil], nofun, rfl⟩
  | cons dext rest ih =>
      rw [List.foldlM_cons] at h
      obtain ⟨⟨out₁, p₁⟩, hextent, hrest⟩ := canReturn_bind h
      unfold inlineExtent at hextent
      split at hextent
      case isTrue hscrubs =>
          obtain ⟨⟨entries, p₂⟩, hwalk, hextent⟩ := canReturn_bind hextent
          obtain ⟨last, hstream, hextent⟩ := canReturn_bind hextent
          obtain ⟨out₂, hflush, hextent⟩ := canReturn_bind hextent
          cases canReturn_pure hextent
          have hflushed := inlineStream_flushed hstream hflush
          obtain ⟨more, hmore, hread, hcmds⟩ := hflushed first rsps (hrsps.counters _)
          obtain ⟨work, more', hwalks, hmore', hread', hcmds'⟩ := ih hmore hrest
          refine ⟨_, more ++ more', .walk hscrubs hwalk hwalks, by rwa [← List.append_assoc], ?_, ?_⟩
          · intro r hr
            rcases List.mem_append.mp hr with hr | hr
            · exact hread r hr
            · exact hread' r hr
          · rw [List.map_append, hcmds, hcmds']
            rfl
      case isFalse hskip =>
          cases canReturn_pure hextent
          obtain ⟨work, more, hwalks, hmore⟩ := ih hrsps hrest
          exact ⟨work, more, .skip (by simpa using hskip) hwalks, hmore⟩

/-- What the inline scrub returns. -/
theorem scrubDevTreeInline_scrubbed {devExtents : List DevExtent} {counters : Counters}
    (h : CanReturn (scrubDevTreeInline ctx src p devExtents counters) (out', p')) :
    ∃ work rsps out, Scrubbed ctx src (inlineRunsOf ctx.strategy.sectorSize) (inlineRead ctx) p
      devExtents (.start counters) work rsps out p' ∧ out' = out.finish src p' := by
  obtain ⟨⟨out, p₁⟩, hextents, hend⟩ := canReturn_bind h
  cases canReturn_pure hend
  obtain ⟨work, rsps, hwalks, hrsps, hread, hcmds⟩ := inlineExtents_scrubbed .start hextents
  exact ⟨work, rsps, out, ⟨hwalks, hcmds, hread, hrsps⟩, rfl⟩

end Inline
end Run
end Rotshield.Btrfs
