import Mathlib.Data.List.Chain
import Rotshield.Btrfs.Scrub

/-! The runs a stream is cut into, by the scrub with a reader thread and by the inline one. -/
namespace Rotshield.Btrfs

/-- The runs the inline scrub reads: what a flush leaves is in front of the next. -/
def inlineRunsLoop (sectorSize : UInt64) :
    List CsumEntry → List CsumEntry → Option UInt64 → List (List CsumEntry)
  | [], run, _ => if run.isEmpty then [] else [run]
  | e :: rest, run, prev =>
      let contiguous := prev.all fun p => e.logical == p + sectorSize
      let more := inlineRunsLoop sectorSize rest (run ++ [e]) (some e.logical)
      if !contiguous || decide (maxRunSectors ≤ run.length) then
        if run.isEmpty then more else run :: more
      else more

def inlineRunsOf (sectorSize : UInt64) (entries : List CsumEntry) : List (List CsumEntry) :=
  inlineRunsLoop sectorSize entries [] none

/-- Each entry directly follows the one before. -/
def Contiguous (sectorSize : UInt64) (run : List CsumEntry) : Prop :=
  run.IsChain fun a b => b.logical = a.logical + sectorSize

variable {sectorSize : UInt64} {entries run : List CsumEntry} {prev : Option UInt64}

theorem runsLoop_flatten : (runsLoop sectorSize entries run prev).flatten = run ++ entries := by
  induction entries generalizing run prev with
  | nil =>
      unfold runsLoop
      cases run <;> simp
  | cons e rest ih =>
      unfold runsLoop
      dsimp only
      split
      · split
        case isTrue hempty =>
            rw [ih, List.isEmpty_iff.mp hempty]
            rfl
        case isFalse => rw [List.flatten_cons, ih, List.singleton_append]
      · rw [ih, List.append_assoc, List.singleton_append]

/-- The runs of a stream, one after the other, are the stream. -/
theorem runsOf_flatten (sectorSize : UInt64) (entries : List CsumEntry) :
    (runsOf sectorSize entries).flatten = entries := runsLoop_flatten

theorem mem_of_mem_runsOf (hrun : run ∈ runsOf sectorSize entries) {e : CsumEntry} (he : e ∈ run) :
    e ∈ entries := by
  rw [← runsOf_flatten sectorSize entries]
  exact List.mem_flatten_of_mem hrun he

theorem runsLoop_run (hchain : Contiguous sectorSize run) (hlen : run.length ≤ maxRunSectors)
    (hprev : prev = run.getLast?.map (·.logical)) :
    ∀ r ∈ runsLoop sectorSize entries run prev,
      r ≠ [] ∧ Contiguous sectorSize r ∧ r.length ≤ maxRunSectors := by
  induction entries generalizing run prev with
  | nil =>
      unfold runsLoop
      intro r hr
      split at hr
      · cases hr
      · rename_i hne
        obtain rfl := List.mem_singleton.mp hr
        exact ⟨by simpa using hne, hchain, hlen⟩
  | cons e rest ih =>
      have hone : ∀ r ∈ runsLoop sectorSize rest [e] (some e.logical),
          r ≠ [] ∧ Contiguous sectorSize r ∧ r.length ≤ maxRunSectors :=
        ih (List.isChain_singleton _) (Nat.le_of_ble_eq_true rfl) rfl
      unfold runsLoop
      dsimp only
      intro r hr
      split at hr
      · split at hr
        · exact hone r hr
        · rename_i hne
          rcases List.mem_cons.mp hr with rfl | hr
          · exact ⟨by simpa using hne, hchain, hlen⟩
          · exact hone r hr
      · rename_i hnext
        simp only [Bool.or_eq_true, Bool.not_eq_true', decide_eq_true_eq, not_or,
          Bool.not_eq_false, Nat.not_le] at hnext
        refine ih ?_ ?_ ?_ r hr
        · apply List.IsChain.append hchain (List.isChain_singleton e)
          intro x hx y hy
          obtain rfl : e = y := by simpa using hy
          rw [hprev, Option.mem_def.mp hx] at hnext
          simpa using hnext.1
        · rw [List.length_append]
          exact hnext.2
        · rw [List.getLast?_append]
          rfl

/-- A run is not empty, and contiguous, and not too long. -/
theorem runsOf_run (sectorSize : UInt64) (entries : List CsumEntry) :
    ∀ r ∈ runsOf sectorSize entries,
      r ≠ [] ∧ Contiguous sectorSize r ∧ r.length ≤ maxRunSectors :=
  runsLoop_run List.isChain_nil (Nat.zero_le _) rfl

/-- Where an entry of a run is. -/
theorem Contiguous.logical {first : CsumEntry} {rest : List CsumEntry}
    (h : Contiguous sectorSize (first :: rest)) {i : Nat} (hi : i < (first :: rest).length) :
    (first :: rest)[i].logical = first.logical + UInt64.ofNat i * sectorSize := by
  induction i with
  | zero => simp
  | succ i ih =>
      rw [List.IsChain.getElem h i hi, ih (Nat.lt_of_succ_lt hi), UInt64.ofNat_add, UInt64.add_mul,
        UInt64.add_assoc]
      simp

/-! ### What the inline scrub does instead -/

theorem runsLoop_ne_nil (hrun : run ≠ []) : runsLoop sectorSize entries run prev ≠ [] := by
  intro hnil
  have hflat : (runsLoop sectorSize entries run prev).flatten = run ++ entries := runsLoop_flatten
  rw [hnil] at hflat
  exact hrun (List.append_eq_nil_iff.mp hflat.symm).1

theorem mem_of_mem_inlineRunsLoop {r : List CsumEntry}
    (hr : r ∈ inlineRunsLoop sectorSize entries run prev) {e : CsumEntry} (he : e ∈ r) :
    e ∈ run ++ entries := by
  induction entries generalizing run prev with
  | nil =>
      unfold inlineRunsLoop at hr
      split at hr
      · cases hr
      · obtain rfl := List.mem_singleton.mp hr
        exact List.mem_append_left _ he
  | cons x rest ih =>
      unfold inlineRunsLoop at hr
      rw [List.append_cons]
      dsimp only at hr
      split at hr
      · split at hr
        · exact ih hr
        · rcases List.mem_cons.mp hr with rfl | hr
          · exact List.mem_append_left _ (List.mem_append_left _ he)
          · exact ih hr
      · exact ih hr

theorem mem_of_mem_inlineRunsOf {r : List CsumEntry} (hr : r ∈ inlineRunsOf sectorSize entries)
    {e : CsumEntry} (he : e ∈ r) : e ∈ entries := mem_of_mem_inlineRunsLoop hr he

theorem inlineRunsLoop_single (h : (runsLoop sectorSize entries run prev).length ≤ 1) :
    inlineRunsLoop sectorSize entries run prev = runsLoop sectorSize entries run prev := by
  induction entries generalizing run prev with
  | nil => rfl
  | cons e rest ih =>
      unfold runsLoop at h ⊢
      unfold inlineRunsLoop
      dsimp only at h ⊢
      split
      case isTrue hbreak =>
          rw [if_pos hbreak] at h
          split
          case isTrue hempty =>
              rw [if_pos hempty] at h
              rw [List.isEmpty_iff.mp hempty]
              exact ih h
          case isFalse hne =>
              rw [if_neg hne, List.length_cons] at h
              have hpos : 0 < (runsLoop sectorSize rest [e] (some e.logical)).length :=
                List.length_pos_of_ne_nil (runsLoop_ne_nil (List.cons_ne_nil _ _))
              omega
      case isFalse hnext =>
          rw [if_neg hnext] at h
          exact ih h

/-- A stream of one run is read as it is by both. -/
theorem inlineRunsOf_single (h : (runsOf sectorSize entries).length ≤ 1) :
    inlineRunsOf sectorSize entries = runsOf sectorSize entries := inlineRunsLoop_single h

theorem inlineRunsLoop_length_le :
    run.length + entries.length ≤ (inlineRunsLoop sectorSize entries run prev).flatten.length := by
  induction entries generalizing run prev with
  | nil =>
      unfold inlineRunsLoop
      cases run <;> simp
  | cons e rest ih =>
      have hrest : (run ++ [e]).length + rest.length ≤
          (inlineRunsLoop sectorSize rest (run ++ [e]) (some e.logical)).flatten.length := ih
      rw [List.length_append, List.length_singleton] at hrest
      unfold inlineRunsLoop
      rw [List.length_cons]
      dsimp only
      split
      · split
        · omega
        · rw [List.flatten_cons, List.length_append]
          omega
      · omega

theorem inlineRunsLoop_repeats (h : 2 ≤ (runsLoop sectorSize entries run prev).length) :
    run.length + entries.length < (inlineRunsLoop sectorSize entries run prev).flatten.length := by
  induction entries generalizing run prev with
  | nil =>
      unfold runsLoop at h
      split at h
      · simp at h
      · simp at h
  | cons e rest ih =>
      have hmore : (run ++ [e]).length + rest.length ≤
          (inlineRunsLoop sectorSize rest (run ++ [e]) (some e.logical)).flatten.length :=
        inlineRunsLoop_length_le
      rw [List.length_append, List.length_singleton] at hmore
      unfold runsLoop at h
      unfold inlineRunsLoop
      rw [List.length_cons]
      dsimp only at h ⊢
      split
      case isTrue hbreak =>
          rw [if_pos hbreak] at h
          split
          case isTrue hempty =>
              rw [if_pos hempty] at h
              obtain rfl := List.isEmpty_iff.mp hempty
              have hlt := ih h
              simp only [List.length_singleton, List.length_nil, List.nil_append] at hlt ⊢
              omega
          case isFalse hne =>
              -- The run is read, and once more with all that follows it.
              have hpos : 0 < run.length := List.length_pos_of_ne_nil (by simpa using hne)
              rw [List.flatten_cons, List.length_append]
              omega
      case isFalse hnext =>
          rw [if_neg hnext] at h
          have hlt := ih h
          rw [List.length_append, List.length_singleton] at hlt
          omega

/-- A stream of several runs has entries that the inline scrub reads again. -/
theorem inlineRunsOf_repeats (h : 2 ≤ (runsOf sectorSize entries).length) :
    entries.length < (inlineRunsOf sectorSize entries).flatten.length := by
  have hlt := inlineRunsLoop_repeats h
  rwa [List.length_nil, Nat.zero_add] at hlt

theorem inlineRunsOf_length_le :
    entries.length ≤ (inlineRunsOf sectorSize entries).flatten.length := by
  have hle : ([] : List CsumEntry).length + entries.length ≤
      (inlineRunsOf sectorSize entries).flatten.length := inlineRunsLoop_length_le
  rwa [List.length_nil, Nat.zero_add] at hle

end Rotshield.Btrfs
