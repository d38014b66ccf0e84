import Rotshield.BatchRecover.HonestRun
import Rotshield.Main.ExitCode

/-! A dry run reports what the repair run will do: no verdict depends on another candidate's
write or on how the flushes are cut. -/
namespace Rotshield.BatchRecover
open DiskArray (ArrayConfig)
open Recovery (RecoveryResult)

/-- Every device of the array, by its path. -/
def devices (config : ArrayConfig) : List Path :=
  config.dataDevs.map Prod.snd ++ (config.parityP.toList ++ config.parityQ.toList)

theorem others_of_nodup {config : ArrayConfig} {slot : Nat} {dev : Path}
    (hdev : config.dataDev slot = some dev) (h : (devices config).Nodup) :
    Surroundings.Others config slot dev := by
  obtain ⟨hdata, -, hapart⟩ := List.nodup_append'.mp h
  have hmem : (slot, dev) ∈ config.dataDevs := List.lookup_eq_some_iff.mp hdev |>.elim (by
    rintro l ⟨l', hsplit, -⟩
    rw [hsplit]
    exact List.mem_append_right l List.mem_cons_self)
  have hin : dev ∈ config.dataDevs.map Prod.snd := List.mem_map.mpr ⟨_, hmem, rfl⟩
  refine ⟨fun d hd hslot heq => hslot ?_, fun p hp heq => ?_, fun q hq heq => ?_⟩
  · exact congrArg Prod.fst (List.inj_on_of_nodup_map hdata hd hmem heq)
  · subst heq
    exact hapart hin (List.mem_append_left _ (by rw [hp]; exact List.mem_singleton_self _))
  · subst heq
    exact hapart hin (List.mem_append_right _ (by rw [hq]; exact List.mem_singleton_self _))

/-- The sectors do not overlap. -/
def Candidate.Apart (c c' : Candidate) : Prop :=
  c.arrayPhys + c.blockSize ≤ c'.arrayPhys ∨ c'.arrayPhys + c'.blockSize ≤ c.arrayPhys

instance : Std.Symm Candidate.Apart := ⟨fun _ _ h => h.symm⟩

/-- How the account of one candidate ends. -/
abbrev Fate := Stage × Option Outcome

def BatchStats.add (stats : BatchStats) (fate : Fate) : BatchStats :=
  match fate.2 with
  | none => stats.countStage fate.1
  | some outcome => (stats.countStage fate.1).countOutcome outcome

/-- The outcome a dry run reports for an answer of the engine. -/
def predicted {n : Nat} : Option (RecoveryResult n) → Outcome
  | none => .failed
  | some (.recovered _ _) => .recovered
  | some .notCorrupt => .notCorrupt
  | some (.failed _) => .failed

/-- What becomes of a candidate on these disks, whatever else is done. -/
def fate (s : Surroundings) (args : WriterArgs) (d : Disks) (c : Candidate) : Exec Fate :=
  match s.confirmed args d c with
  | .stale => .ok (.stale, none)
  | .skipped => .ok (.skipped, none)
  | .corrupt block unreadable =>
      (s.rebuilt args d c block unreadable).map fun answer => (.mismatch, some (predicted answer))

/-- The accounts over these candidates. -/
def tally (s : Surroundings) (args : WriterArgs) (d : Disks) (cands : List Candidate) : BatchStats :=
  cands.foldl (fun stats c => (fate s args d c).toOption.elim stats stats.add) {}

/-! ### The accounts do not depend on the order -/

theorem countStage_comm (stats : BatchStats) (v v' : Stage) :
    (stats.countStage v).countStage v' = (stats.countStage v').countStage v := by
  cases v <;> cases v' <;> rfl

theorem countOutcome_comm (stats : BatchStats) (o o' : Outcome) :
    (stats.countOutcome o).countOutcome o' = (stats.countOutcome o').countOutcome o := by
  cases o <;> cases o' <;> rfl

theorem countOutcome_countStage (stats : BatchStats) (o : Outcome) (v : Stage) :
    (stats.countOutcome o).countStage v = (stats.countStage v).countOutcome o := by
  cases o <;> cases v <;> rfl

theorem add_comm (stats : BatchStats) (f g : Fate) : (stats.add f).add g = (stats.add g).add f := by
  obtain ⟨v, o⟩ := f
  obtain ⟨v', o'⟩ := g
  cases o with
  | none =>
      cases o' with
      | none => exact countStage_comm stats v v'
      | some o' =>
          change ((stats.countStage v).countStage v').countOutcome o' =
            ((stats.countStage v').countOutcome o').countStage v
          rw [countOutcome_countStage, countStage_comm]
  | some o =>
      cases o' with
      | none =>
          change ((stats.countStage v).countOutcome o).countStage v' =
            ((stats.countStage v').countStage v).countOutcome o
          rw [countOutcome_countStage, countStage_comm]
      | some o' =>
          change (((stats.countStage v).countOutcome o).countStage v').countOutcome o' =
            (((stats.countStage v').countOutcome o').countStage v).countOutcome o
          rw [countOutcome_countStage, countOutcome_countStage, countStage_comm, countOutcome_comm]

theorem tally_perm {s : Surroundings} {args : WriterArgs} {d : Disks} {l l' : List Candidate}
    (h : l.Perm l') : tally s args d l = tally s args d l' := by
  apply h.foldl_eq'
  intro c _ c' _ stats
  cases (fate s args d c).toOption with
  | none => rfl
  | some f =>
      cases (fate s args d c').toOption with
      | none => rfl
      | some g => exact add_comm stats f g

theorem tally_snoc {s : Surroundings} {args : WriterArgs} {d : Disks} {done : List Candidate}
    {c : Candidate} {f : Fate} (h : fate s args d c = .ok f) :
    tally s args d (done ++ [c]) = (tally s args d done).add f := by
  unfold tally
  rw [List.foldl_append, List.foldl_cons, List.foldl_nil, h]
  rfl

/-! ### The invariant of a run -/

/-- The candidates: sectors of the failing device that do not overlap. -/
structure Sectors (s : Surroundings) (args : WriterArgs) (dev : Path) (all : List Candidate) :
    Prop where
  onDevice : ∀ c ∈ all, OnDevice s args dev c
  apart : all.Pairwise Candidate.Apart

/-- The disks as they were, up to the sectors of the candidates taken up so far. -/
structure Untouched (args : WriterArgs) (dev : Path) (d₀ : Disks) (all done : List Candidate)
    (d : Disks) : Prop where
  others : ∀ path, path ≠ dev → d.byte path = d₀.byte path
  sector : ∀ c ∈ all, c ∉ done → ∀ i, i < c.blockSize →
    d.byte dev (c.rawStart args + i) = d₀.byte dev (c.rawStart args + i)
  written : ∀ r ∈ d.written, ∃ c ∈ done, r = (dev, c.rawStart args, c.blockSize)

/-- Every candidate taken up so far ended as foretold, and the others are as they were. -/
structure Foretold (s : Surroundings) (args : WriterArgs) (dev : Path) (d₀ : Disks)
    (all done : List Candidate) (w : WriterState Disks) : Prop where
  fates : ∀ c ∈ done, ∃ f, fate s args d₀ c = .ok f
  stats : w.books.stats = tally s args d₀ done
  untouched : Untouched args dev d₀ all done w.world

/-- Only the layout and the sizes matter. -/
theorem Sectors.congr {s s' : Surroundings} {args args' : WriterArgs} {dev : Path}
    {all : List Candidate} (h : Sectors s args dev all) (hsize : s'.size = s.size)
    (hcfg : args'.cfg = args.cfg) : Sectors s' args' dev all where
  onDevice c hc := by
    have hon := h.onDevice c hc
    refine ⟨hon.failing, hon.nonempty, ?_⟩
    rw [hsize, hcfg]
    exact hon.inside
  apart := h.apart

theorem Sectors.perm {s : Surroundings} {args : WriterArgs} {dev : Path}
    {all all' : List Candidate} (h : Sectors s args dev all) (hperm : all.Perm all') :
    Sectors s args dev all' where
  onDevice c hc := h.onDevice c (hperm.mem_iff.mpr hc)
  apart := (hperm.pairwise_iff fun hapart => Or.symm hapart).mp h.apart

section Run
variable {s : Surroundings} {args : WriterArgs} {dev : Path} {d₀ : Disks}
  {all done : List Candidate} {c : Candidate}

namespace Untouched
variable {d : Disks} (h : Untouched args dev d₀ all done d)
include h

theorem agree (hfresh : d₀.written = []) {path : Path} (hpath : path ≠ dev) :
    Surroundings.Agree s d d₀ path := by
  refine ⟨h.others path hpath, fun offset len => ?_⟩
  have hnot : (d.written.contains (path, offset, len)) = false := by
    rw [← Bool.not_eq_true, List.contains_iff_mem]
    intro hmem
    obtain ⟨c, -, heq⟩ := h.written _ hmem
    exact hpath (congrArg Prod.fst heq)
  unfold Surroundings.failure
  rw [hnot, hfresh]
  rfl

theorem congr {d' : Disks} (hbyte : d'.byte = d.byte) (hwritten : d'.written = d.written) :
    Untouched args dev d₀ all done d' where
  others := hbyte ▸ h.others
  sector := hbyte ▸ h.sector
  written := hwritten ▸ h.written

/-- Taking a candidate up without a write. -/
theorem take (c : Candidate) : Untouched args dev d₀ all (done ++ [c]) d where
  others := h.others
  sector c' hc' hnot := h.sector c' hc' fun hmem => hnot (List.mem_append_left _ hmem)
  written r hr := by
    obtain ⟨c', hc', heq⟩ := h.written r hr
    exact ⟨c', List.mem_append_left _ hc', heq⟩

/-- A write to the sector of a candidate. -/
theorem write (hsectors : Sectors s args dev all) (hc : c ∈ all) (block : Vector UInt8 c.blockSize) :
    Untouched args dev d₀ all (done ++ [c])
      (d.write c.failingDev (c.rawStart args) block.toList) where
  others path hpath := by
    rw [(hsectors.onDevice c hc).failing, Disks.write_other d hpath]
    exact h.others path hpath
  sector c' hc' hnot i hi := by
    have hne : c ≠ c' := by
      rintro rfl
      exact hnot (List.mem_append_right _ List.mem_cons_self)
    have hapart := hsectors.apart.forall hc hc' hne
    have hon := hsectors.onDevice c hc
    have hstart := hon.rawStart
    have hstart' := (hsectors.onDevice c' hc').rawStart
    rw [hon.failing, Disks.write_outside d dev]
    · exact h.sector c' hc' (fun hmem => hnot (List.mem_append_left _ hmem)) i hi
    · rw [Vector.length_toList]
      unfold Candidate.Apart at hapart
      omega
  written r hr := by
    cases hr with
    | head =>
        refine ⟨c, List.mem_append_right _ List.mem_cons_self, ?_⟩
        rw [(hsectors.onDevice c hc).failing, Vector.length_toList]
    | tail _ hr =>
        obtain ⟨c', hc', heq⟩ := h.written r hr
        exact ⟨c', List.mem_append_left _ hc', heq⟩

section Fresh
variable (hsectors : Sectors s args dev all) (hfresh : d₀.written = [])
  (hsub : ∀ c' ∈ done, c' ∈ all) (hc : c ∈ all) (hnot : c ∉ done)
include hsectors hfresh hsub hc hnot

/-- A candidate not taken up yet reads as it did at first. -/
theorem readExact_eq :
    s.readExact d dev (c.rawStart args) c.blockSize =
      s.readExact d₀ dev (c.rawStart args) c.blockSize := by
  have hrange : d.written.contains (dev, c.rawStart args, c.blockSize) = false := by
    rw [← Bool.not_eq_true, List.contains_iff_mem]
    intro hmem
    obtain ⟨c', hc', heq⟩ := h.written _ hmem
    obtain ⟨hstart, -⟩ := Prod.mk.inj (Prod.mk.inj heq).2
    have hne : c ≠ c' := by
      rintro rfl
      exact hnot hc'
    have hapart := hsectors.apart.forall hc (hsub c' hc') hne
    have hon := hsectors.onDevice c hc
    have hon' := hsectors.onDevice c' (hsub c' hc')
    rw [hon.rawStart, hon'.rawStart] at hstart
    have hpos := hon.nonempty
    have hpos' := hon'.nonempty
    unfold Candidate.Apart at hapart
    omega
  have hfailure : s.failure d dev (c.rawStart args) c.blockSize =
      s.failure d₀ dev (c.rawStart args) c.blockSize := by
    unfold Surroundings.failure
    rw [hrange, hfresh]
    rfl
  have hbytes : (Vector.ofFn fun i : Fin c.blockSize => d.byte dev (c.rawStart args + i)) =
      Vector.ofFn fun i : Fin c.blockSize => d₀.byte dev (c.rawStart args + i) := by
    congr 1
    funext i
    exact h.sector c hc hnot i i.isLt
  unfold Surroundings.readExact
  rw [hfailure, hbytes]

theorem confirmed_eq : s.confirmed args d c = s.confirmed args d₀ c := by
  have hon := hsectors.onDevice c hc
  unfold Surroundings.confirmed
  rw [hon.blockAt, hon.blockAt, h.readExact_eq hsectors hfresh hsub hc hnot]

end Fresh

theorem rebuilt_eq (hfresh : d₀.written = [])
    (hothers : Surroundings.Others args.cfg args.scrubSlot dev)
    (block : Vector UInt8 c.blockSize) (unreadable : Bool) :
    s.rebuilt args d c block unreadable = s.rebuilt args d₀ c block unreadable := by
  unfold Surroundings.rebuilt
  rw [Surroundings.stripeAt_congr hothers fun path hpath => h.agree hfresh hpath]

end Untouched

theorem Sectors.nodup (h : Sectors s args dev all) : all.Nodup := by
  apply h.apart.imp_of_mem
  rintro c c' hc - hapart rfl
  have hpos := (h.onDevice c hc).nonempty
  unfold Candidate.Apart at hapart
  omega

/-- The candidate of a round is one of them, and none was taken up before. -/
theorem Sectors.fresh (h : Sectors s args dev all) (hpart : (done ++ [c]).Subperm all) :
    c ∈ all ∧ c ∉ done ∧ ∀ c' ∈ done, c' ∈ all := by
  have hnodup : (done ++ [c]).Nodup := by
    obtain ⟨l, hperm, hsublist⟩ := hpart
    exact hperm.nodup_iff.mp (hsublist.nodup h.nodup)
  refine ⟨hpart.subset (List.mem_append_right _ List.mem_cons_self), fun hmem => ?_, fun c' hc' =>
    hpart.subset (List.mem_append_left _ hc')⟩
  exact (List.nodup_append.mp hnodup).2.2 c hmem c List.mem_cons_self rfl

theorem Foretold.snoc {w w' : WriterState Disks} {f : Fate}
    (h : Foretold s args dev d₀ all done w) (hfate : fate s args d₀ c = .ok f)
    (hstats : w'.books.stats = w.books.stats.add f)
    (hdisks : Untouched args dev d₀ all (done ++ [c]) w'.world) :
    Foretold s args dev d₀ all (done ++ [c]) w' where
  fates c' hc' := by
    rcases List.mem_append.mp hc' with hc' | hc'
    · exact h.fates c' hc'
    · rw [List.mem_singleton.mp hc']
      exact ⟨f, hfate⟩
  stats := by rw [hstats, h.stats, tally_snoc hfate]
  untouched := hdisks

/-- A recovery that ends answers what a dry run predicts. -/
theorem RecoverEnds.predicted {block : Vector UInt8 c.blockSize} {unreadable : Bool}
    {w w' : WriterState Disks} {o : Outcome} (h : RecoverEnds s args c block unreadable w o w')
    (hs : s.Succeeds) (hon : OnDevice s args dev c) :
    ∃ answer, s.rebuilt args w.world c block unreadable = .ok answer ∧
      o = BatchRecover.predicted answer := by
  cases h with
  | ungathered answer => exact ⟨_, answer, rfl⟩
  | failed answer => exact ⟨_, answer, rfl⟩
  | notCorrupt answer => exact ⟨_, answer, rfl⟩
  | rehearsed answer => exact ⟨_, answer, rfl⟩
  | written answer _ _ _ verified => exact ⟨_, answer, verified dev hon hs⟩

theorem RecoverEnds.stats {block : Vector UInt8 c.blockSize} {unreadable : Bool}
    {w w' : WriterState Disks} {o : Outcome} (h : RecoverEnds s args c block unreadable w o w') :
    w'.books.stats = w.books.stats := by
  cases h with
  | ungathered _ quiet => exact quiet.stats
  | failed _ quiet => exact quiet.stats
  | notCorrupt _ quiet => exact quiet.stats
  | rehearsed _ _ quiet => exact quiet.stats
  | written _ _ _ _ _ quiet => exact quiet.stats

/-- Nothing but the candidate's own sector is written. -/
theorem RecoverEnds.untouched {block : Vector UInt8 c.blockSize} {unreadable : Bool}
    {w w' : WriterState Disks} {o : Outcome} (h : RecoverEnds s args c block unreadable w o w')
    (hsectors : Sectors s args dev all) (hc : c ∈ all)
    (hdisks : Untouched args dev d₀ all done w.world) :
    Untouched args dev d₀ all (done ++ [c]) w'.world := by
  cases h with
  | ungathered _ quiet => exact (hdisks.take c).congr quiet.byte quiet.written
  | failed _ quiet => exact (hdisks.take c).congr quiet.byte quiet.written
  | notCorrupt _ quiet => exact (hdisks.take c).congr quiet.byte quiet.written
  | rehearsed _ _ quiet => exact (hdisks.take c).congr quiet.byte quiet.written
  | written _ _ _ _ _ quiet =>
      exact (hdisks.write hsectors hc _).congr quiet.byte quiet.written

/-- A round where writes are allowed ends as foretold. -/
theorem Foretold.round (hs : s.Succeeds) (hsectors : Sectors s args dev all)
    (hfresh : d₀.written = []) (hothers : Surroundings.Others args.cfg args.scrubSlot dev)
    {w w' : WriterState Disks} (hpart : (done ++ [c]).Subperm all)
    (h : Foretold s args dev d₀ all done w) (hends : RoundEnds s args c w w') :
    Foretold s args dev d₀ all (done ++ [c]) w' := by
  obtain ⟨hc, hnot, hsub⟩ := hsectors.fresh hpart
  have hconfirmed := h.untouched.confirmed_eq hsectors hfresh hsub hc hnot
  cases hends with
  | stale found quiet =>
      rw [hconfirmed] at found
      have hfate : fate s args d₀ c = .ok (.stale, none) := by
        unfold fate
        rw [found]
      exact h.snoc hfate quiet.stats ((h.untouched.take c).congr quiet.byte quiet.written)
  | skipped found quiet =>
      rw [hconfirmed] at found
      have hfate : fate s args d₀ c = .ok (.skipped, none) := by
        unfold fate
        rw [found]
      exact h.snoc hfate quiet.stats ((h.untouched.take c).congr quiet.byte quiet.written)
  | @mismatch w₁ block unreadable outcome found ends quiet =>
      rw [hconfirmed] at found
      obtain ⟨answer, hanswer, rfl⟩ := ends.predicted hs (hsectors.onDevice c hc)
      have hrebuilt : s.rebuilt args d₀ c block unreadable = .ok answer :=
        (h.untouched.rebuilt_eq hfresh hothers block unreadable).symm.trans hanswer
      have hfate : fate s args d₀ c = .ok (.mismatch, some (predicted answer)) := by
        unfold fate
        rw [found]
        dsimp only
        rw [hrebuilt]
        rfl
      apply h.snoc hfate _
        ((ends.untouched hsectors hc h.untouched).congr quiet.byte quiet.written)
      rw [quiet.stats]
      change (w₁.books.stats).countOutcome _ = _
      rw [ends.stats]
      rfl

/-- Candidates of one sector are one candidate. -/
theorem Sectors.eq_of_arrayPhys (h : Sectors s args dev all) {c' : Candidate} (hc : c ∈ all)
    (hc' : c' ∈ all) (heq : c.arrayPhys = c'.arrayPhys) : c = c' := by
  by_contra hne
  have hapart := h.apart.forall hc hc' hne
  have hpos := (h.onDevice c hc).nonempty
  have hpos' := (h.onDevice c' hc').nonempty
  unfold Candidate.Apart at hapart
  omega

/-- Nothing is dropped as a duplicate. -/
theorem Sectors.batchOf_length (h : Sectors s args dev all) {pending : List Candidate}
    (hpart : pending.Subperm all) : (batchOf pending).length = pending.length := by
  apply Nat.le_antisymm (batchOf_length_le pending)
  apply List.Subperm.length_le
  apply List.subperm_of_subset
  · obtain ⟨l, hperm, hsublist⟩ := hpart
    exact hperm.nodup_iff.mp (hsublist.nodup h.nodup)
  · intro c hc
    obtain ⟨c', hc', heq⟩ := batchOf_covers pending c hc
    have hmem := hpart.subset (batchOf_subset pending c' hc')
    rwa [← h.eq_of_arrayPhys hmem (hpart.subset hc) heq]

theorem foretold_keeps (hs : s.Succeeds) (hsectors : Sectors s args dev all)
    (hfresh : d₀.written = []) (hothers : Surroundings.Others args.cfg args.scrubSlot dev) :
    Keeps s args all (Foretold s args dev d₀ all)
      (fun e _ => ∃ c ∈ all, ∃ h, fate s args d₀ c = .error h ∧ e = .halt h) where
  still h hstill :=
    { fates := h.fates
      stats := hstill.stats.trans h.stats
      untouched := h.untouched.congr hstill.byte hstill.written }
  dedup hpart h := by
    refine { h with stats := ?_ }
    rw [hsectors.batchOf_length hpart, Nat.sub_self]
    exact h.stats
  round hpart h hends := h.round hs hsectors hfresh hothers hpart hends
  halt := by
    rintro done c w w' e hpart h ⟨block, unreadable, hfound, hanswer⟩ -
    obtain ⟨hc, hnot, hsub⟩ := hsectors.fresh hpart
    refine ⟨c, hc, e, ?_, rfl⟩
    rw [h.untouched.confirmed_eq hsectors hfresh hsub hc hnot] at hfound
    rw [h.untouched.rebuilt_eq hfresh hothers] at hanswer
    unfold fate
    rw [hfound]
    dsimp only
    rw [hanswer]
    rfl
  thawFails _ hfails := by
    rw [hs.thaw] at hfails
    cases hfails

theorem untouched_start {d : Disks} (hfresh : d.written = []) : Untouched args dev d all [] d where
  others _ _ := rfl
  sector _ _ _ _ _ := rfl
  written r hr := by
    rw [hfresh] at hr
    cases hr

end Run

/-- What the writer returns is settled by the disks it starts from. -/
def Accounted (s : Surroundings) (args : WriterArgs) (d : Disks) (all : List Candidate) :
    Except Stop BatchStats → Prop
  | .ok stats => stats = tally s args d all ∧ ∀ c ∈ all, ∃ f, fate s args d c = .ok f
  | .error _ => ∃ c ∈ all, ∃ h, fate s args d c = .error h

theorem Accounted.same {s : Surroundings} {args : WriterArgs} {d : Disks} {all all' : List Candidate}
    (hperm : all.Perm all') {r r' : Except Stop BatchStats} (h : Accounted s args d all r)
    (h' : Accounted s args d all' r') : r = r' ∨ ∃ e e', r = .error e ∧ r' = .error e' := by
  cases r with
  | error e =>
      cases r' with
      | error e' => exact .inr ⟨e, e', rfl, rfl⟩
      | ok stats' =>
          obtain ⟨c, hc, halt, hhalt⟩ := h
          obtain ⟨f, hf⟩ := h'.2 c (hperm.mem_iff.mp hc)
          rw [hhalt] at hf
          cases hf
  | ok stats =>
      cases r' with
      | error e' =>
          obtain ⟨c, hc, halt, hhalt⟩ := h'
          obtain ⟨f, hf⟩ := h.2 c (hperm.mem_iff.mpr hc)
          rw [hhalt] at hf
          cases hf
      | ok stats' =>
          left
          rw [h.1, h'.1, tally_perm hperm]

theorem runWriter_accounted {s : Surroundings} (hs : s.Succeeds) (args : WriterArgs) {dev : Path}
    {d : Disks} {batches : List (List Candidate)} (hsectors : Sectors s args dev batches.flatten)
    (hfresh : d.written = []) (hothers : Surroundings.Others args.cfg args.scrubSlot dev)
    (mount : Option Path) (counters : Option StatusCounters) :
    Accounted s args d batches.flatten
      ((runWriter s.env args (messages batches)).run (.start d mount counters)).1 := by
  have hstart : Foretold s args dev d batches.flatten [] (.start d mount counters) :=
    ⟨fun c hc => (by cases hc), rfl, untouched_start hfresh⟩
  have hrun := (foretold_keeps hs hsectors hfresh hothers).run hstart
  rcases hend : (runWriter s.env args (messages batches)).run (.start d mount counters) with
    ⟨e | stats, w⟩
  · rw [hend] at hrun
    obtain ⟨-, ⟨c, hc, h, hfate, -⟩, -⟩ := hrun
    exact ⟨c, hc, h, hfate⟩
  · rw [hend] at hrun
    obtain ⟨⟨done, hahead, hinv⟩, hstats⟩ := hrun
    have hperm : done.Perm batches.flatten := by
      apply hahead.part.perm_of_length_le
      apply List.Subperm.length_le
      apply List.subperm_of_subset hsectors.nodup
      intro c hc
      obtain ⟨c', hc', heq⟩ := hahead.covers c hc
      rwa [← hsectors.eq_of_arrayPhys (hahead.part.subset hc') hc heq]
    refine ⟨?_, fun c hc => hinv.fates c (hperm.mem_iff.mpr hc)⟩
    rw [hstats, hinv.stats, tally_perm hperm]

/-- Dry run and repair return the same totals, so the process exits with the same code. -/
theorem dryRun_predicts (s : Surroundings) (hs : s.Succeeds) (args : WriterArgs) (dev : Path)
    (d : Disks) (hfresh : d.written = []) (hdev : args.cfg.dataDev args.scrubSlot = some dev)
    (hdistinct : (devices args.cfg).Nodup) (batches dryBatches : List (List Candidate))
    (hsectors : Sectors s args dev batches.flatten)
    (hsame : dryBatches.flatten.Perm batches.flatten) (dryClock : Nat → Nat)
    (mount dryMount : Option Path) (counters dryCounters : Option StatusCounters)
    {repair dry : Except Stop BatchStats}
    (hrepair : ((runWriter s.env { args with dryRun := false } (messages batches)).run
      (.start d mount counters)).1 = repair)
    (hdry : ((runWriter { s with clock := dryClock }.env { args with dryRun := true }
      (messages dryBatches)).run (.start d dryMount dryCounters)).1 = dry) :
    (∀ stats, dry = .ok stats ↔ repair = .ok stats) ∧
    ∀ scrub sent, Main.finish scrub sent (some dry) = Main.finish scrub sent (some repair) := by
  have hothers := others_of_nodup hdev hdistinct
  have hreal : Accounted s args d batches.flatten repair := hrepair ▸
    runWriter_accounted hs { args with dryRun := false } (hsectors.congr rfl rfl) hfresh hothers
      mount counters
  have hdryRun : Surroundings.Succeeds { s with clock := dryClock } :=
    ⟨hs.heals, hs.thaw, hs.dropCache⟩
  have hforetold : Accounted s args d dryBatches.flatten dry := hdry ▸
    runWriter_accounted hdryRun { args with dryRun := true }
      ((hsectors.perm hsame.symm).congr rfl rfl) hfresh hothers dryMount dryCounters
  rcases hforetold.same hsame hreal with rfl | ⟨e, e', rfl, rfl⟩
  · exact ⟨fun _ => Iff.rfl, fun _ _ => rfl⟩
  · constructor
    · intro stats
      constructor
      · intro h
        cases h
      · intro h
        cases h
    · intro scrub sent
      rfl

/-! One data disk whose only sector reads `ff`; the parity disk holds `22`. -/

theorem mirrorSlots_sorted : (([(1, "nmd1")] : List (Nat × Path)).map Prod.fst).Pairwise (· < ·) :=
  List.pairwise_singleton _ _

def mirrorArgs : WriterArgs where
  cfg := { dataDevs := [(1, "nmd1")], parityP := some "nmd0", parityQ := none, rdevOffsets := [],
           slots_sorted := mirrorSlots_sorted }
  scrubSlot := 1
  dryRun := false
  freezeTimeout := 60

def mirror : Surroundings where
  size _ := .ok 1
  readError _ _ _ := none
  heals := true
  verdict _ := .corruption
  isBlockDevice _ := true
  clock _ := 0
  thaw _ := .ok ()
  dropCache _ := .ok ()

def mirrorDisks : Disks where
  byte path _ := if path = "nmd0" then 0x22 else 0xff
  written := []
  calls := 0

def mirrorCandidate : Candidate where
  arrayPhys := 0
  blockSize := 1
  verify b := b == [0x22]
  rawPhys := 0
  failingDev := "nmd1"
  reconfirm := none
  unreadable := false

/-- Two sectors on each disk, the second of which the parity does not give back. -/
def mirrorPair : Surroundings := { mirror with size := fun _ => .ok 2 }

def lostCandidate : Candidate where
  arrayPhys := 1
  blockSize := 1
  verify b := b == [0x33]
  rawPhys := 1
  failingDev := "nmd1"
  reconfirm := none
  unreadable := false

theorem mirrorPair_sectors :
    Sectors mirrorPair mirrorArgs "nmd1" [[mirrorCandidate, lostCandidate]].flatten := by
  constructor
  · intro c hc
    rcases List.mem_cons.mp hc with rfl | hc
    · exact ⟨rfl, Nat.one_pos, 2, rfl, by decide, by decide⟩
    · obtain rfl := List.mem_singleton.mp hc
      exact ⟨rfl, Nat.one_pos, 2, rfl, by decide, by decide⟩
  · refine List.pairwise_cons.mpr ⟨fun c hc => ?_, List.pairwise_singleton _ _⟩
    obtain rfl := List.mem_singleton.mp hc
    exact .inl (Nat.le_refl 1)

theorem mirrorPair_succeeds : mirrorPair.Succeeds := ⟨rfl, fun _ => rfl, fun _ => rfl⟩

/-- A writer that accounts for these two ends with these totals. -/
theorem mirrorPair_totals {args : WriterArgs} {r : Except Stop BatchStats}
    (hfirst : fate mirrorPair args mirrorDisks mirrorCandidate = .ok (.mismatch, some .recovered))
    (hsecond : fate mirrorPair args mirrorDisks lostCandidate = .ok (.mismatch, some .failed))
    (h : Accounted mirrorPair args mirrorDisks [mirrorCandidate, lostCandidate] r) :
    r = .ok { mismatch := 2, recovered := 1, failed := 1 } := by
  cases r with
  | error e =>
      obtain ⟨c, hc, halt, hhalt⟩ := h
      rcases List.mem_cons.mp hc with rfl | hc
      · rw [hfirst] at hhalt
        cases hhalt
      · obtain rfl := List.mem_singleton.mp hc
        rw [hsecond] at hhalt
        cases hhalt
  | ok stats =>
      rw [h.1, tally, List.foldl_cons, List.foldl_cons, List.foldl_nil, hfirst, hsecond]
      rfl

theorem mirrorPair_repair {batches : List (List Candidate)}
    (hpair : batches.flatten = [mirrorCandidate, lostCandidate]) {r : Except Stop BatchStats}
    (hrun : ((runWriter mirrorPair.env { mirrorArgs with dryRun := false } (messages batches)).run
      (.start mirrorDisks (some "/mnt/disk1") none)).1 = r) :
    r = .ok { mismatch := 2, recovered := 1, failed := 1 } := by
  have hdev : mirrorArgs.cfg.dataDev mirrorArgs.scrubSlot = some "nmd1" := rfl
  have hothers : Surroundings.Others mirrorArgs.cfg mirrorArgs.scrubSlot "nmd1" :=
    others_of_nodup hdev (by decide)
  have hsectors : Sectors mirrorPair { mirrorArgs with dryRun := false } "nmd1" batches.flatten :=
    hpair ▸ mirrorPair_sectors.congr rfl rfl
  have haccount := runWriter_accounted mirrorPair_succeeds { mirrorArgs with dryRun := false }
    hsectors (d := mirrorDisks) rfl hothers (some "/mnt/disk1") none
  rw [hrun, hpair] at haccount
  exact mirrorPair_totals rfl rfl haccount

/-- One batch of two candidates, foretold over two batches in the other order. -/
theorem dryRun_predicts_pair : ∃ stats : BatchStats, stats.recovered = 1 ∧ stats.failed = 1 ∧
    ((runWriter mirrorPair.env { mirrorArgs with dryRun := false }
      (messages [[mirrorCandidate, lostCandidate]])).run
        (.start mirrorDisks (some "/mnt/disk1") none)).1 = .ok stats ∧
    ((runWriter { mirrorPair with clock := fun n => n }.env { mirrorArgs with dryRun := true }
      (messages [[lostCandidate], [mirrorCandidate]])).run (.start mirrorDisks none none)).1 =
        .ok stats := by
  have hswap : [[lostCandidate], [mirrorCandidate]].flatten.Perm
      [[mirrorCandidate, lostCandidate]].flatten := List.Perm.swap _ _ _
  generalize hrepair : ((runWriter mirrorPair.env { mirrorArgs with dryRun := false }
    (messages [[mirrorCandidate, lostCandidate]])).run
      (.start mirrorDisks (some "/mnt/disk1") none)).1 = repair
  generalize hdry : ((runWriter { mirrorPair with clock := fun n => n }.env
    { mirrorArgs with dryRun := true } (messages [[lostCandidate], [mirrorCandidate]])).run
      (.start mirrorDisks none none)).1 = dry
  obtain ⟨hpredicted, -⟩ := dryRun_predicts mirrorPair mirrorPair_succeeds mirrorArgs "nmd1"
    mirrorDisks rfl rfl (by decide) [[mirrorCandidate, lostCandidate]]
    [[lostCandidate], [mirrorCandidate]] mirrorPair_sectors hswap (fun n => n)
    (some "/mnt/disk1") none none none hrepair hdry
  have hmended := mirrorPair_repair rfl hrepair
  exact ⟨{ mismatch := 2, recovered := 1, failed := 1 }, rfl, rfl, hmended,
    (hpredicted _).mpr hmended⟩

end Rotshield.BatchRecover
