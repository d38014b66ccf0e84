import Mathlib.Data.List.Pairwise
import Rotshield.Btrfs.Scrub
import Rotshield.Btrfs.Isolation
import Rotshield.Lib.CanReturn

/-! What the verification of a run adds to the totals, sector by sector. -/
namespace Rotshield.Btrfs
open MonadAttach (CanReturn)
open Lib (Folds canReturn_pure canReturn_bind canReturn_foldlM)

variable {m : Type → Type}

theorem ScrubContext.sz_pos (ctx : ScrubContext m) : 0 < ctx.sz :=
  UInt64.lt_iff_toNat_lt.mp ctx.strategy.sectorSize_pos

/-- One sector of a run, with its bytes when they could be read. -/
structure SectorCheck where
  dext : DevExtent
  entry : CsumEntry
  bytes : Option Bytes
  deriving DecidableEq, Repr

namespace SectorCheck

def ok (ctx : ScrubContext m) (c : SectorCheck) : Bool :=
  c.bytes.any fun bytes => ctx.strategy.compute bytes == c.entry.csum

/-- The event of a sector that is not ok. -/
def event (ctx : ScrubContext m) (c : SectorCheck) : SectorResult :=
  sectorResult c.dext c.entry (c.bytes.elim [] ctx.strategy.compute) c.bytes.isNone

end SectorCheck

/-- What these sectors add, each once. -/
structure Adds (ctx : ScrubContext m) (checks : List SectorCheck) (out out' : ScrubOut) : Prop where
  checked : out'.stats.sectorsChecked = out.stats.sectorsChecked + checks.length
  ok : out'.stats.sectorsOk = out.stats.sectorsOk + checks.countP (SectorCheck.ok ctx)
  plain : ctx.batch = false →
    out'.stats.sectorsMismatch + out'.stats.sectorsStale + out'.stats.sectorsReadError =
      out.stats.sectorsMismatch + out.stats.sectorsStale + out.stats.sectorsReadError +
        checks.countP (!SectorCheck.ok ctx ·)
  events : ctx.batch = true → out'.events.Perm
    (out.events ++ (checks.filter (!SectorCheck.ok ctx ·)).map (SectorCheck.event ctx))

namespace Adds
variable {ctx : ScrubContext m} {xs ys : List SectorCheck} {out out₁ out₂ : ScrubOut}

/-- Nothing that counts sectors changes. -/
theorem nil (hchecked : out₁.stats.sectorsChecked = out.stats.sectorsChecked)
    (hok : out₁.stats.sectorsOk = out.stats.sectorsOk)
    (hplain : out₁.stats.sectorsMismatch + out₁.stats.sectorsStale + out₁.stats.sectorsReadError =
      out.stats.sectorsMismatch + out.stats.sectorsStale + out.stats.sectorsReadError)
    (hevents : out₁.events = out.events) : Adds ctx [] out out₁ where
  checked := hchecked
  ok := hok
  plain _ := hplain
  events _ := by rw [hevents, List.filter_nil, List.map_nil, List.append_nil]

theorem append (h : Adds ctx xs out out₁) (h' : Adds ctx ys out₁ out₂) :
    Adds ctx (xs ++ ys) out out₂ where
  checked := by rw [h'.checked, h.checked, List.length_append, Nat.add_assoc]
  ok := by rw [h'.ok, h.ok, List.countP_append, Nat.add_assoc]
  plain hplain := by rw [h'.plain hplain, h.plain hplain, List.countP_append, Nat.add_assoc]
  events hbatch := by
    rw [List.filter_append, List.map_append, ← List.append_assoc]
    exact (h'.events hbatch).trans ((h.events hbatch).append_right _)

theorem perm (h : Adds ctx xs out out₁) (hperm : xs.Perm ys) : Adds ctx ys out out₁ where
  checked := by rw [h.checked, hperm.length_eq]
  ok := by rw [h.ok, hperm.countP_eq]
  plain hplain := by rw [h.plain hplain, hperm.countP_eq]
  events hbatch := (h.events hbatch).trans (((hperm.filter _).map _).append_left _)

/-- A fold adds what its steps add. -/
theorem folds {A : Type} {step : ScrubOut → A → ScrubOut → Prop} {checksOf : A → List SectorCheck}
    {as : List A} (hstep : ∀ a ∈ as, ∀ out out', step out a out' → Adds ctx (checksOf a) out out')
    (h : Folds step as out out₁) : Adds ctx (as.flatMap checksOf) out out₁ := by
  induction h with
  | nil => exact .nil rfl rfl rfl rfl
  | cons hone _ ih =>
      rw [List.flatMap_cons]
      exact (hstep _ List.mem_cons_self _ _ hone).append
        (ih fun a ha => hstep a (List.mem_cons_of_mem _ ha))

theorem good {c : SectorCheck} (hok : c.ok ctx = true) :
    Adds ctx [c] out (out.countChecked ctx.sz).countOk where
  checked := rfl
  ok := by rw [List.countP_singleton, if_pos hok]; rfl
  plain _ := by rw [List.countP_singleton, hok]; rfl
  events _ := by
    rw [List.filter_singleton, hok]
    exact List.Perm.of_eq (List.append_nil _).symm

/-- A sector that is not ok is counted in one of three ways, or emitted. -/
theorem bad {c : SectorCheck} (hbad : c.ok ctx = false)
    (hchecked : out₁.stats.sectorsChecked = out.stats.sectorsChecked + 1)
    (hok : out₁.stats.sectorsOk = out.stats.sectorsOk)
    (hplain : ctx.batch = false →
      out₁.stats.sectorsMismatch + out₁.stats.sectorsStale + out₁.stats.sectorsReadError =
        out.stats.sectorsMismatch + out.stats.sectorsStale + out.stats.sectorsReadError + 1)
    (hevents : ctx.batch = true → out₁.events = out.events ++ [c.event ctx]) :
    Adds ctx [c] out out₁ where
  checked := hchecked
  ok := by rw [List.countP_singleton, hbad]; exact hok
  plain h := by rw [List.countP_singleton, hbad]; exact hplain h
  events h := by
    rw [List.filter_singleton, hbad]
    exact List.Perm.of_eq (hevents h)

end Adds

/-! ### A run -/

/-- The check of the sector at an offset of a run, from the ones that could not be read and the
bytes of the others. -/
def runCheck (sz : Nat) (cmd : ReadCmd) (bad : List Nat) (content : Nat → Bytes) (x : Nat) :
    Option SectorCheck :=
  cmd.entries[x / sz]?.map fun entry =>
    ⟨cmd.dext, entry, if x ∈ bad then none else some (content x)⟩

/-- Every sector is in one good region, with its bytes, or is a bad one, once. -/
structure Partitions (sz n : Nat) (content : Nat → Bytes) (iso : Isolation) : Prop where
  covers : (iso.good.flatMap (regionSectors sz) ++ iso.bad).Perm (sectorOffsets sz 0 n)
  aligned : ∀ r ∈ iso.good, sz ∣ r.1 ∧ sz ∣ r.2.length
  inside : ∀ r ∈ iso.good, r.1 + r.2.length ≤ n * sz
  bytes : ∀ r ∈ iso.good, ∀ i < r.2.length / sz, (r.2.drop (i * sz)).take sz = content (r.1 + i * sz)

namespace Partitions
variable {sz n : Nat} {content : Nat → Bytes} {iso : Isolation}

theorem not_bad (h : Partitions sz n content iso) (hsize : 0 < sz) {r : Nat × Bytes}
    (hr : r ∈ iso.good) {x : Nat} (hx : x ∈ regionSectors sz r) : x ∉ iso.bad := by
  have hnodup := h.covers.nodup_iff.mpr (sectorOffsets_nodup hsize 0 n)
  intro hbad
  exact (List.nodup_append.mp hnodup).2.2 x (List.mem_flatMap.mpr ⟨r, hr, hx⟩) x hbad rfl

/-- Where a good region starts and how many sectors it has. -/
theorem region (h : Partitions sz n content iso) (hsize : 0 < sz) {r : Nat × Bytes}
    (hr : r ∈ iso.good) : ∃ a k, r.1 = a * sz ∧ r.2.length = k * sz ∧ a + k ≤ n := by
  obtain ⟨⟨a, ha⟩, ⟨k, hk⟩⟩ := h.aligned r hr
  rw [Nat.mul_comm] at ha hk
  have hinside := h.inside r hr
  rw [ha, hk, ← Nat.add_mul] at hinside
  exact ⟨a, k, ha, hk, Nat.le_of_mul_le_mul_right hinside hsize⟩

end Partitions

theorem filterMap_of_map_some {A B : Type} {f : A → Option B} {as : List A} {bs : List B}
    (h : as.map f = bs.map some) : as.filterMap f = bs := by
  have hid : as.filterMap f = (as.map f).filterMap id := by rw [List.filterMap_map, Function.id_comp]
  rw [hid, h, List.filterMap_map]
  exact List.filterMap_some

/-- The checks of a run, in the order of its entries. -/
theorem runChecks_eq {sz : Nat} (hsize : 0 < sz) (cmd : ReadCmd) (bad : List Nat)
    (content : Nat → Bytes) :
    (sectorOffsets sz 0 cmd.entries.length).filterMap (runCheck sz cmd bad content) =
      cmd.entries.mapIdx fun i entry => ⟨cmd.dext, entry,
        if i * sz ∈ bad then none else some (content (i * sz))⟩ := by
  apply filterMap_of_map_some
  apply List.ext_getElem
  · simp [sectorOffsets]
  · intro i hi hi'
    have hlt : i < cmd.entries.length := by simpa [sectorOffsets] using hi
    simp [sectorOffsets, runCheck, Nat.mul_div_cancel i hsize, List.getElem?_eq_getElem hlt]

/-- The bytes of the regions, sector by sector. -/
theorem exists_partitions {sz n : Nat} {iso : Isolation} (hsize : 0 < sz)
    (hcovers : (iso.good.flatMap (regionSectors sz) ++ iso.bad).Perm (sectorOffsets sz 0 n))
    (haligned : ∀ r ∈ iso.good, sz ∣ r.1 ∧ sz ∣ r.2.length)
    (hinside : ∀ r ∈ iso.good, r.1 + r.2.length ≤ n * sz) :
    ∃ content, Partitions sz n content iso := by
  have hnodup := hcovers.nodup_iff.mpr (sectorOffsets_nodup hsize 0 n)
  have hdisjoint := (List.nodup_flatMap.mp (List.nodup_append.mp hnodup).1).2
  have _ : Std.Symm (Function.onFun List.Disjoint (regionSectors sz)) :=
    ⟨fun _ _ h _ hleft hright => h hright hleft⟩
  have hmem : ∀ r ∈ iso.good, ∀ i < r.2.length / sz, r.1 + i * sz ∈ regionSectors sz r :=
    fun r _ i hi => mem_sectorOffsets.mpr ⟨i, hi, rfl⟩
  refine ⟨fun x => ((iso.good.find? fun r => decide (x ∈ regionSectors sz r)).map fun r =>
    (r.2.drop (x - r.1)).take sz).getD [], hcovers, haligned, hinside, ?_⟩
  intro r hr i hi
  have hx := hmem r hr i hi
  cases hfound : iso.good.find? fun r' => decide (r.1 + i * sz ∈ regionSectors sz r') with
  | none =>
      have hnone := List.find?_eq_none.mp hfound r hr
      exact absurd (decide_eq_true hx) hnone
  | some r' =>
      have hr' := List.mem_of_find?_eq_some hfound
      have hx' : r.1 + i * sz ∈ regionSectors sz r' := by simpa using List.find?_some hfound
      -- No two regions have a sector in common.
      have hsame : r = r' := by
        by_contra hne
        exact hdisjoint.forall hr hr' hne hx hx'
      rw [hsame, Option.map_some, Option.getD_some, Nat.add_sub_cancel_left]

/-! ### The verification -/

section Lawful
variable [Monad m] [LawfulMonad m] [MonadExceptOf Halt m] [MonadAttach m] [LawfulMonadAttach m]
  {ctx : ScrubContext m} {dext : DevExtent} {out out' : ScrubOut}

theorem reconfirmSector_adds {entry : CsumEntry} {bytes : Bytes}
    (hbad : SectorCheck.ok ctx ⟨dext, entry, some bytes⟩ = false) (hplain : ctx.batch = false)
    (h : CanReturn (reconfirmSector ctx dext entry (ctx.strategy.compute bytes)
      (out.countChecked ctx.sz)) out') : Adds ctx [⟨dext, entry, some bytes⟩] out out' := by
  obtain ⟨⟨roots, counters⟩, -, h⟩ := canReturn_bind h
  cases roots with
  | none =>
      obtain rfl := canReturn_pure h
      exact .bad hbad rfl rfl (fun _ => rfl) fun hbatch => by simp [hplain] at hbatch
  | some roots =>
      obtain ⟨verdict, -, h⟩ := canReturn_bind h
      obtain ⟨isCorruption, -, h⟩ := canReturn_bind h
      cases isCorruption with
      | true =>
          obtain rfl := canReturn_pure h
          refine .bad hbad rfl rfl (fun _ => ?_) fun hbatch => by simp [hplain] at hbatch
          change out.stats.sectorsMismatch + 1 + out.stats.sectorsStale +
            out.stats.sectorsReadError = _
          omega
      | false =>
          obtain rfl := canReturn_pure h
          refine .bad hbad rfl rfl (fun _ => ?_) fun hbatch => by simp [hplain] at hbatch
          change out.stats.sectorsMismatch + (out.stats.sectorsStale + 1) +
            out.stats.sectorsReadError = _
          omega

theorem processSector_adds {entry : CsumEntry} {bytes : Bytes}
    (h : CanReturn (processSector ctx dext out (entry, ctx.strategy.compute bytes)) out') :
    Adds ctx [⟨dext, entry, some bytes⟩] out out' := by
  unfold processSector at h
  dsimp only at h
  split at h
  case isTrue hok =>
      obtain rfl := canReturn_pure h
      exact .good (beq_iff_eq.mpr hok)
  case isFalse hne =>
      have hbad : SectorCheck.ok ctx ⟨dext, entry, some bytes⟩ = false := beq_eq_false_iff_ne.mpr hne
      split at h
      case isTrue hbatch =>
          obtain rfl := canReturn_pure h
          exact .bad hbad rfl rfl (fun hplain => by simp [hbatch] at hplain) fun _ => rfl
      case isFalse hplain => exact reconfirmSector_adds hbad (by simpa using hplain) h

/-- The sectors of a buffer, for so many of them. -/
def sectorSlices (sz : Nat) (buf : Bytes) (n : Nat) : List Bytes :=
  (List.range n).map fun i => (buf.drop (i * sz)).take sz

omit [MonadAttach m] [LawfulMonadAttach m] in
/-- The sectors of a buffer that is long enough, one after the other. -/
theorem processBuf_eq {buf : Bytes} {run : List CsumEntry}
    (hlen : run.length * ctx.sz ≤ buf.length) (out : ScrubOut) :
    processBuf ctx dext buf run out =
      (run.zip (sectorSlices ctx.sz buf run.length)).foldlM
        (fun out s => processSector ctx dext out (s.1, ctx.strategy.compute s.2)) out := by
  have hactuals : ((List.range run.length).mapM fun i => do
      return ctx.strategy.compute (← liftExec (slice buf (i * ctx.sz) ctx.sz)) : m (List Bytes)) =
        pure ((sectorSlices ctx.sz buf run.length).map ctx.strategy.compute) := by
    rw [sectorSlices, List.map_map, ← List.mapM_pure]
    apply Lib.mapM_congr
    intro i hi
    have hinside : i * ctx.sz + ctx.sz ≤ buf.length := by
      have hmul := Nat.mul_le_mul_right ctx.sz (List.mem_range.mp hi)
      rw [Nat.succ_mul] at hmul
      exact hmul.trans hlen
    rw [slice, if_pos hinside]
    exact pure_bind _ _
  unfold processBuf
  rw [hactuals, pure_bind, List.zip_map_right, List.foldlM_map]
  rfl

theorem processBuf_adds {buf : Bytes} {run : List CsumEntry}
    (hlen : run.length * ctx.sz ≤ buf.length)
    (h : CanReturn (processBuf ctx dext buf run out) out') :
    Adds ctx ((run.zip (sectorSlices ctx.sz buf run.length)).map fun s => ⟨dext, s.1, some s.2⟩)
      out out' := by
  rw [processBuf_eq hlen] at h
  rw [List.map_eq_flatMap]
  apply Adds.folds _ (canReturn_foldlM h)
  intro s _ out out' hstep
  exact processSector_adds hstep

section Run
variable {cmd : ReadCmd} {content : Nat → Bytes} {iso : Isolation}

theorem processRegion_adds (hsize : 0 < ctx.sz)
    (hparts : Partitions ctx.sz cmd.entries.length content iso) {r : Nat × Bytes}
    (hr : r ∈ iso.good) (h : CanReturn (processRegion ctx cmd.dext cmd.entries out r) out') :
    Adds ctx ((regionSectors ctx.sz r).filterMap (runCheck ctx.sz cmd iso.bad content)) out out' := by
  obtain ⟨a, k, ha, hk, hinside⟩ := hparts.region hsize hr
  have hfirst : r.1 / ctx.sz = a := by rw [ha, Nat.mul_div_cancel a hsize]
  have hlast : min ((r.1 + r.2.length) / ctx.sz) cmd.entries.length = a + k := by
    rw [ha, hk, ← Nat.add_mul, Nat.mul_div_cancel _ hsize, Nat.min_eq_left hinside]
  have hsectors : regionSectors ctx.sz r = sectorOffsets ctx.sz (a * ctx.sz) k := by
    rw [regionSectors, ha, hk, Nat.mul_div_cancel k hsize]
  unfold processRegion at h
  rw [hfirst, hlast, if_neg (by omega)] at h
  have hlen : ((cmd.entries.take (a + k)).drop a).length = k := by
    rw [List.length_drop, List.length_take, Nat.min_eq_left hinside, Nat.add_sub_cancel_left]
  dsimp only at h
  split at h
  case isTrue hempty =>
      obtain rfl := canReturn_pure h
      have hk0 : k = 0 := by rw [← hlen, List.isEmpty_iff.mp hempty]; rfl
      rw [hsectors, hk0]
      exact .nil rfl rfl rfl rfl
  case isFalse =>
      have hadds := processBuf_adds (by rw [hlen, hk]) h
      rw [hlen] at hadds
      suffices hchecks : (regionSectors ctx.sz r).map (runCheck ctx.sz cmd iso.bad content) = _ by
        rw [filterMap_of_map_some hchecks]
        exact hadds
      apply List.ext_getElem
      · simp [hsectors, sectorOffsets, sectorSlices, hlen]
      · intro i hi hi'
        have hik : i < k := by simpa [hsectors, sectorOffsets] using hi
        have hx : a * ctx.sz + i * ctx.sz ∈ regionSectors ctx.sz r := by
          rw [hsectors]
          exact mem_sectorOffsets.mpr ⟨i, hik, rfl⟩
        have hdiv : (a * ctx.sz + i * ctx.sz) / ctx.sz = a + i := by
          rw [← Nat.add_mul, Nat.mul_div_cancel _ hsize]
        have hbytes := hparts.bytes r hr i (by rw [hk, Nat.mul_div_cancel k hsize]; exact hik)
        rw [ha] at hbytes
        simp [hsectors, sectorOffsets, sectorSlices, runCheck, hdiv, hparts.not_bad hsize hr hx,
          hbytes, List.getElem?_eq_getElem (show a + i < cmd.entries.length by omega)]

omit [Monad m] [LawfulMonad m] [MonadExceptOf Halt m] [MonadAttach m] [LawfulMonadAttach m] in
theorem processBad_adds (hcsums : ∀ e ∈ cmd.entries, e.csum.length = ctx.strategy.hashLen) {x : Nat}
    (hx : x ∈ iso.bad) :
    Adds ctx (runCheck ctx.sz cmd iso.bad content x).toList out
      (processBad ctx cmd.dext cmd.entries out x) := by
  unfold processBad runCheck
  rw [if_pos hx]
  split
  case h_1 hnone =>
      rw [hnone]
      exact .nil rfl rfl rfl rfl
  case h_2 entry hentry =>
      rw [hentry]
      have hlen : (entry.csum.length == ctx.strategy.hashLen) = true :=
        beq_iff_eq.mpr (hcsums entry (List.mem_of_getElem? hentry))
      apply Adds.bad rfl
      · split <;> rfl
      · split <;> rfl
      · intro _
        split <;> rfl
      · intro hbatch
        rw [hbatch, hlen]
        rfl

/-- A run that was isolated adds each of its sectors. -/
theorem processRsp_adds (hsize : 0 < ctx.sz)
    (hcsums : ∀ e ∈ cmd.entries, e.csum.length = ctx.strategy.hashLen)
    (hparts : Partitions ctx.sz cmd.entries.length content iso)
    (h : CanReturn (processRsp ctx out (cmd, iso)) out') :
    Adds ctx ((sectorOffsets ctx.sz 0 cmd.entries.length).filterMap
      (runCheck ctx.sz cmd iso.bad content)) out out' := by
  unfold processRsp processIsolated at h
  obtain ⟨out₁, hgood, hend⟩ := canReturn_bind h
  obtain rfl := canReturn_pure hend
  have htruncated : Adds ctx [] out (if iso.budget.exhausted then out.countTruncated else out) := by
    split
    · exact .nil rfl rfl rfl rfl
    · exact .nil rfl rfl rfl rfl
  have hregions : Adds ctx _ _ out₁ :=
    .folds (fun r hr _ _ h => processRegion_adds hsize hparts hr h) (canReturn_foldlM hgood)
  have hbads : Adds ctx (iso.bad.flatMap fun x => (runCheck ctx.sz cmd iso.bad content x).toList) out₁
      (iso.bad.foldl (processBad ctx cmd.dext cmd.entries) out₁) := by
    apply Adds.folds _ (Lib.folds_foldl iso.bad out₁)
    rintro x hx out _ rfl
    exact processBad_adds hcsums hx
  have hall := (htruncated.append hregions).append hbads
  rw [List.nil_append, ← List.filterMap_flatMap, ← List.filterMap_eq_flatMap_toList,
    ← List.filterMap_append] at hall
  exact hall.perm (hparts.covers.filterMap _)

end Run

end Lawful
end Rotshield.Btrfs
