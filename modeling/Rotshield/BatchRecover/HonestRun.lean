import Mathlib.Data.List.Perm.Subperm
import Rotshield.BatchRecover.Ledger
import Rotshield.BatchRecover.Round

/-! A whole run among honest disks: an invariant that every round keeps holds at its end,
however the candidates were batched and deferred. -/
namespace Rotshield.BatchRecover
open Lib (Triple)

variable {s : Surroundings} {args : WriterArgs} {all : List Candidate}

/-- The batches as the accumulator sends them. -/
def messages (batches : List (List Candidate)) : List BatchMsg := batches.map .batch ++ [.done]

/-- An invariant over the candidates taken up so far, and what is known when the run stops. -/
structure Keeps (s : Surroundings) (args : WriterArgs) (all : List Candidate)
    (inv : List Candidate → WriterState Disks → Prop)
    (stopped : Stop → WriterState Disks → Prop) : Prop where
  still : ∀ {done w w'}, inv done w → Still w w' → inv done w'
  dedup : ∀ {done w pending}, pending.Subperm all → inv done w →
    inv done (entered w (·.dedup (pending.length - (batchOf pending).length)))
  round : ∀ {done c w w'}, (done ++ [c]).Subperm all → inv done w → RoundEnds s args c w w' →
    inv (done ++ [c]) w'
  halt : ∀ {done c w w' h}, (done ++ [c]).Subperm all → inv done w → Halts s args c w.world h →
    Quiet (entered w (·.classify c.arrayPhys .mismatch)) w' → stopped (.halt h) w'
  thawFails : ∀ {done w n e}, inv done w → s.thaw n = .error e → stopped .thawFailed w

theorem RecoverEnds.freeze {c : Candidate} {block : Vector UInt8 c.blockSize} {unreadable : Bool}
    {w₀ w : WriterState Disks} {o : Outcome} (h : RecoverEnds s args c block unreadable w₀ o w) :
    w.books.freeze = w₀.books.freeze := by
  cases h with
  | ungathered _ quiet => exact quiet.freeze
  | failed _ quiet => exact quiet.freeze
  | notCorrupt _ quiet => exact quiet.freeze
  | rehearsed _ _ quiet => exact quiet.freeze
  | written _ _ _ _ _ quiet => exact quiet.freeze

theorem RoundEnds.freeze {c : Candidate} {w₀ w : WriterState Disks} (h : RoundEnds s args c w₀ w) :
    w.books.freeze = w₀.books.freeze := by
  cases h with
  | stale _ quiet => exact quiet.freeze
  | skipped _ quiet => exact quiet.freeze
  | mismatch _ ends quiet => exact quiet.freeze.trans ends.freeze

/-- A part of the candidates that has every sector of them. -/
structure Ahead (all l : List Candidate) : Prop where
  part : l.Subperm all
  covers : ∀ c ∈ all, ∃ c' ∈ l, c'.arrayPhys = c.arrayPhys

/-- A flush takes duplicates out of what is ahead, and no sector. -/
theorem Ahead.flush {done pending rest now deferred : List Candidate}
    (h : Ahead all (done ++ (pending ++ rest))) (hsplit : batchOf pending = now ++ deferred) :
    Ahead all ((done ++ now) ++ (deferred ++ rest)) := by
  have hlist : (done ++ now) ++ (deferred ++ rest) = done ++ (batchOf pending ++ rest) := by
    rw [hsplit]
    simp only [List.append_assoc]
  rw [hlist]
  constructor
  · apply List.Subperm.trans _ h.part
    apply (List.subperm_append_left done).mpr
    apply (List.subperm_append_right rest).mpr
    exact (dedupByPhys_sublist _).subperm.trans (sortByPhys_perm pending).subperm
  · intro c hc
    obtain ⟨c', hc', heq⟩ := h.covers c hc
    simp only [List.mem_append] at hc' ⊢
    rcases hc' with hc' | hc' | hc'
    · exact ⟨c', .inl hc', heq⟩
    · obtain ⟨c'', hc'', heq'⟩ := batchOf_covers pending c' hc'
      exact ⟨c'', .inr (.inl hc''), heq'.trans heq⟩
    · exact ⟨c', .inr (.inr hc'), heq⟩

theorem thaw_still (w : WriterState Disks) : Still w ((thaw s.env).run.run w).2 := by
  have hkeep : Triple (fun w' => w' = w) (thaw s.env) (fun _ => Still w) fun _ => Still w := by
    unfold thaw
    have hbooks : Triple (fun w' => w' = w) books (fun b w' => b = w.books ∧ w' = w)
        fun _ => Still w := by
      rintro w' rfl
      exact ⟨rfl, rfl⟩
    apply hbooks.bind_value
    dsimp only
    cases w.books.freeze.frozen with
    | false =>
        rintro w' rfl
        exact ⟨rfl, rfl, rfl, rfl⟩
    | true =>
        cases w.books.freeze.mountpoint with
        | none =>
            rintro w' rfl
            exact ⟨rfl, rfl, rfl, rfl⟩
        | some mountpoint =>
            rintro w' rfl
            exact ⟨rfl, rfl, rfl, rfl⟩
  have hend := hkeep w rfl
  rcases hrun : (thaw s.env).run.run w with ⟨e | r, w'⟩
  · rw [hrun] at hend
    exact hend
  · rw [hrun] at hend
    exact hend

namespace Keeps
variable {inv : List Candidate → WriterState Disks → Prop}
  {stopped : Stop → WriterState Disks → Prop} (keeps : Keeps s args all inv stopped)
include keeps

theorem windowExpired {done : List Candidate} {started : Nat} {f : FreezeController} (first : Bool) :
    Triple (fun w => inv done w ∧ w.books.freeze = f)
      (windowExpired s.env args true started first)
      (fun expired w => (first = true → expired = false) ∧ inv done w ∧ w.books.freeze = f)
      stopped := by
  unfold BatchRecover.windowExpired
  cases first with
  | true => exact fun w hw => ⟨fun _ => rfl, hw⟩
  | false =>
      have hnow : Triple (fun w => inv done w ∧ w.books.freeze = f) (world s.env.now)
          (fun _ w => inv done w ∧ w.books.freeze = f) stopped :=
        fun w hw => ⟨keeps.still hw.1 ⟨rfl, rfl, rfl, rfl⟩, hw.2⟩
      apply hnow.bind
      intro now w hw
      exact ⟨fun h => (by cases h), hw⟩

/-- The loop, by induction on what is left of the batch. -/
theorem flushLoop {live : Bool} {started : Nat} {f : FreezeController} {done : List Candidate}
    (first : Bool) (batch : List Candidate) (hsub : (done ++ batch).Subperm all) :
    Triple (fun w => inv done w ∧ w.books.freeze = f)
      (flushLoop s.env args live true started first batch)
      (fun deferred w => ∃ now, batch = now ++ deferred ∧ (first = true → batch ≠ [] → now ≠ []) ∧
        inv (done ++ now) w ∧ w.books.freeze = f) stopped := by
  induction batch generalizing done first with
  | nil => exact fun w hw => ⟨[], rfl, fun _ h => absurd rfl h, by rwa [List.append_nil]⟩
  | cons c rest ih =>
      unfold BatchRecover.flushLoop
      apply (keeps.windowExpired first).bind
      intro expired
      cases expired with
      | true =>
          intro w hw
          refine ⟨[], rfl, fun hfirst => ?_, by rw [List.append_nil]; exact hw.2⟩
          cases hw.1 hfirst
      | false =>
          have hone : (done ++ [c]).Subperm all := by
            apply List.Subperm.trans _ hsub
            exact ((List.Sublist.refl done).append
              ((List.nil_sublist rest).cons_cons c)).subperm
          have hround : Triple
              (fun w => (first = true → false = false) ∧ inv done w ∧ w.books.freeze = f)
              (processCandidate s.env args live true c)
              (fun _ w => inv (done ++ [c]) w ∧ w.books.freeze = f) stopped := by
            apply Triple.of_forall
            rintro w₀ ⟨-, hinv, hfreeze⟩
            apply processCandidate_round.weaken
            · rintro w rfl
              exact Quiet.refl w
            · intro _ w hends
              exact ⟨keeps.round hone hinv hends, hends.freeze.trans hfreeze⟩
            · rintro e w ⟨h, rfl, hhalts, hquiet⟩
              exact keeps.halt hone hinv hhalts hquiet
          apply hround.bind
          intro _
          have hrest := @ih (done ++ [c]) false (by rwa [List.append_assoc])
          apply hrest.conseq fun w hw => hw
          rintro deferred w ⟨now, hsplit, -, hinv, hfreeze⟩
          refine ⟨c :: now, by rw [hsplit]; rfl, fun _ _ => List.cons_ne_nil c now, ?_, hfreeze⟩
          rwa [List.append_assoc] at hinv

theorem guard {done : List Candidate} {m : Option Path} :
    Triple (fun w => inv done w ∧ w.books.freeze.mountpoint = m ∧
        w.books.freeze.lastThawError = none)
      (guard s.env)
      (fun r w => r = .ok m.isSome ∧ inv done w ∧ w.books.freeze.lastThawError = none)
      stopped := by
  apply Triple.of_forall
  rintro w₀ ⟨hinv, rfl, hnone⟩
  unfold BatchRecover.guard
  have hbooks : Triple (fun w => w = w₀) books (fun b w => b = w₀.books ∧ w = w₀) stopped := by
    rintro w rfl
    exact ⟨rfl, rfl⟩
  apply hbooks.bind_value
  cases hmount : w₀.books.freeze.mountpoint with
  | none =>
      rintro w rfl
      exact ⟨rfl, hinv, hnone⟩
  | some mountpoint =>
      rintro w rfl
      exact ⟨rfl, keeps.still hinv ⟨rfl, rfl, rfl, rfl⟩, hnone⟩

/-- A thaw may leave its error behind, and changes nothing else that counts. -/
theorem thaw {done : List Candidate} :
    Triple (fun w => inv done w ∧ w.books.freeze.lastThawError = none) (thaw s.env)
      (fun _ w => inv done w ∧
        (w.books.freeze.lastThawError = none ∨ ∃ n e, s.thaw n = .error e)) stopped := by
  apply Triple.of_forall
  rintro w₀ ⟨hinv, hnone⟩
  unfold BatchRecover.thaw
  have hbooks : Triple (fun w => w = w₀) books (fun b w => b = w₀.books ∧ w = w₀) stopped := by
    rintro w rfl
    exact ⟨rfl, rfl⟩
  apply hbooks.bind_value
  dsimp only
  split
  case isFalse =>
      rintro w rfl
      exact ⟨hinv, .inl hnone⟩
  case isTrue =>
      cases w₀.books.freeze.mountpoint with
      | none =>
          rintro w rfl
          exact ⟨keeps.still hinv ⟨rfl, rfl, rfl, rfl⟩, .inl hnone⟩
      | some mountpoint =>
          have hcall : Triple (fun w => w = w₀) (attempt (s.env.thawPath mountpoint))
              (fun r w => r = s.thaw w₀.world.calls ∧ w = { w₀ with world := w₀.world.call })
              stopped := by
            rintro w rfl
            exact ⟨rfl, rfl⟩
          apply hcall.bind_value
          rintro w rfl
          refine ⟨keeps.still hinv ⟨rfl, rfl, rfl, rfl⟩, ?_⟩
          cases hthaw : s.thaw w₀.world.calls with
          | ok _ => exact .inl hnone
          | error e => exact .inr ⟨_, e, hthaw⟩

theorem flushBatch {done pending : List Candidate} (hsub : (done ++ pending).Subperm all) :
    Triple (fun w => inv done w ∧ w.books.freeze.lastThawError = none)
      (flushBatch s.env args pending)
      (fun deferred w => ∃ now, batchOf pending = now ++ deferred ∧ (pending ≠ [] → now ≠ []) ∧
        inv (done ++ now) w ∧ w.books.freeze.lastThawError = none) stopped := by
  have hpending : pending.Subperm all :=
    (List.sublist_append_right done pending).subperm.trans hsub
  have hbatch : (done ++ batchOf pending).Subperm all := by
    apply List.Subperm.trans _ hsub
    apply (List.subperm_append_left done).mpr
    exact (dedupByPhys_sublist _).subperm.trans (sortByPhys_perm pending).subperm
  apply Triple.of_forall
  rintro w₀ ⟨hinv, hnone⟩
  unfold BatchRecover.flushBatch
  have hentry : Triple (fun w => w = w₀)
      (onBooks fun b => (b.dedup (pending.length - (batchOf pending).length)).note
        (.flush (batchOf pending)))
      (fun _ w => inv done w ∧ w.books.freeze = w₀.books.freeze) stopped := by
    rintro w rfl
    exact ⟨keeps.still (keeps.dedup hpending hinv) ⟨rfl, rfl, rfl, rfl⟩, rfl⟩
  apply hentry.bind
  intro _
  have hbooks : Triple (fun w => inv done w ∧ w.books.freeze = w₀.books.freeze) books
      (fun b w => b.freeze = w₀.books.freeze ∧ inv done w ∧ w.books.freeze = w₀.books.freeze)
      stopped := fun w hw => ⟨hw.2, hw⟩
  apply hbooks.bind
  intro b
  apply Triple.of_forall
  rintro w₁ ⟨hb, hinv₁, hfreeze₁⟩
  rw [hb]
  have hguard : Triple (fun w => w = w₁) (BatchRecover.guard s.env)
      (fun r w => r = .ok w₀.books.freeze.mountpoint.isSome ∧ inv done w ∧
        w.books.freeze.lastThawError = none) stopped := by
    apply (keeps.guard (m := w₀.books.freeze.mountpoint)).conseq
    · rintro w rfl
      exact ⟨hinv₁, by rw [hfreeze₁], by rw [hfreeze₁]; exact hnone⟩
    · exact fun r w hw => hw
  apply hguard.bind_value
  have hallowed : (((.ok w₀.books.freeze.mountpoint.isSome : Except IoError Bool).toOption.getD false ||
      !w₀.books.freeze.hasLiveMount)) = true := by
    unfold FreezeController.hasLiveMount
    cases w₀.books.freeze.mountpoint <;> rfl
  dsimp only
  rw [hallowed]
  have hnow : Triple (fun w => inv done w ∧ w.books.freeze.lastThawError = none) (world s.env.now)
      (fun _ w => inv done w ∧ w.books.freeze.lastThawError = none) stopped :=
    fun w hw => ⟨keeps.still hw.1 ⟨rfl, rfl, rfl, rfl⟩, hw.2⟩
  apply hnow.bind
  intro started
  have hloop : Triple (fun w => inv done w ∧ w.books.freeze.lastThawError = none)
      (BatchRecover.flushLoop s.env args w₀.books.freeze.hasLiveMount true started true
        (batchOf pending))
      (fun deferred w => ∃ now, batchOf pending = now ++ deferred ∧ (pending ≠ [] → now ≠ []) ∧
        inv (done ++ now) w ∧ w.books.freeze.lastThawError = none) stopped := by
    apply Triple.of_forall
    rintro w₂ ⟨hinv₂, hnone₂⟩
    apply (keeps.flushLoop true (batchOf pending) hbatch).conseq
    · rintro w rfl
      exact ⟨hinv₂, rfl⟩
    · rintro deferred w ⟨now, hsplit, hne, hinv, hfreeze⟩
      exact ⟨now, hsplit, fun h => hne rfl (batchOf_ne_nil h), hinv, by rw [hfreeze]; exact hnone₂⟩
  apply hloop.bind
  intro deferred
  apply Triple.of_forall
  rintro w₃ ⟨now, hsplit, hne, hinv₃, hnone₃⟩
  have hrelease : Triple (fun w => w = w₃) (releaseGuard s.env
        ((.ok w₀.books.freeze.mountpoint.isSome : Except IoError Bool).toOption.getD false))
      (fun _ w => inv (done ++ now) w ∧
        (w.books.freeze.lastThawError = none ∨ ∃ n e, s.thaw n = .error e)) stopped := by
    unfold releaseGuard
    split
    case isFalse =>
        rintro w rfl
        exact ⟨hinv₃, .inl hnone₃⟩
    case isTrue =>
        apply keeps.thaw.conseq
        · rintro w rfl
          exact ⟨hinv₃, hnone₃⟩
        · exact fun _ w hw => hw
  apply hrelease.bind
  intro _
  have htake : Triple (fun w => inv (done ++ now) w ∧
        (w.books.freeze.lastThawError = none ∨ ∃ n e, s.thaw n = .error e)) takeThawError
      (fun err w => (err = none ∨ ∃ n e, s.thaw n = .error e) ∧ inv (done ++ now) w ∧
        w.books.freeze.lastThawError = none) stopped :=
    fun w hw => ⟨hw.2, keeps.still hw.1 ⟨rfl, rfl, rfl, rfl⟩, rfl⟩
  apply htake.bind
  intro err
  cases err with
  | none => exact fun w hw => ⟨now, hsplit, hne, hw.2⟩
  | some e =>
      intro w hw
      obtain ⟨herr, hinv, -⟩ := hw
      rcases herr with herr | ⟨n, e, hthaw⟩
      · cases herr
      · exact keeps.thawFails hinv hthaw

/-- The drain, by induction on the fuel: a flush leaves fewer candidates. -/
theorem drain {fuel : Nat} {done pending : List Candidate} (hfuel : pending.length ≤ fuel)
    (hahead : Ahead all (done ++ pending)) :
    Triple (fun w => inv done w ∧ w.books.freeze.lastThawError = none)
      (drain s.env args fuel pending)
      (fun _ w => ∃ done, Ahead all done ∧ inv done w) stopped := by
  induction fuel generalizing done pending with
  | zero =>
      obtain rfl : pending = [] := List.eq_nil_of_length_eq_zero (by omega)
      rw [List.append_nil] at hahead
      exact fun w hw => ⟨done, hahead, hw.1⟩
  | succ fuel ih =>
      cases pending with
      | nil =>
          rw [List.append_nil] at hahead
          exact fun w hw => ⟨done, hahead, hw.1⟩
      | cons c rest =>
          unfold BatchRecover.drain
          apply (keeps.flushBatch hahead.part).bind
          intro deferred
          apply Triple.of_forall
          rintro w₀ ⟨now, hsplit, hne, hw₀⟩
          have hshort : deferred.length ≤ fuel := by
            have hlen := congrArg List.length hsplit
            have hle := batchOf_length_le (c :: rest)
            have hpos := List.length_pos_of_ne_nil (hne (List.cons_ne_nil c rest))
            rw [List.length_append] at hlen
            omega
          have hnext : Ahead all ((done ++ now) ++ deferred) := by
            have h := @Ahead.flush all done (c :: rest) [] now deferred
              (by rwa [List.append_nil]) hsplit
            rwa [List.append_nil] at h
          apply (ih hshort hnext).conseq
          · rintro w rfl
            exact hw₀
          · exact fun _ w hw => hw

/-- The writer's loop, by induction on the batches that are still to come. -/
theorem runWriterLoop {batches : List (List Candidate)} {done pending : List Candidate}
    (hahead : Ahead all (done ++ (pending ++ batches.flatten))) :
    Triple (fun w => inv done w ∧ w.books.freeze.lastThawError = none)
      (runWriterLoop s.env args (messages batches) pending)
      (fun stats w => (∃ done, Ahead all done ∧ inv done w) ∧ stats = w.books.stats) stopped := by
  induction batches generalizing done pending with
  | nil =>
      rw [List.flatten_nil, List.append_nil] at hahead
      apply (keeps.drain (Nat.le_refl _) hahead).bind
      intro _ w hw
      exact ⟨hw, rfl⟩
  | cons batch batches ih =>
      rw [List.flatten_cons, ← List.append_assoc pending] at hahead
      have hpart : (done ++ (pending ++ batch)).Subperm all := by
        apply List.Subperm.trans _ hahead.part
        exact ((List.Sublist.refl done).append (List.sublist_append_left _ _)).subperm
      change Triple _ (BatchRecover.flushBatch s.env args (pending ++ batch) >>= fun deferred =>
        BatchRecover.runWriterLoop s.env args (messages batches) deferred) _ _
      apply (keeps.flushBatch hpart).bind
      intro deferred
      apply Triple.of_forall
      rintro w₀ ⟨now, hsplit, -, hw₀⟩
      apply (ih (hahead.flush hsplit)).conseq
      · rintro w rfl
        exact hw₀
      · exact fun _ w hw => hw

end Keeps

/-- The whole life of the writer thread keeps the invariant, or stops as the invariant allows. -/
theorem Keeps.run {inv : List Candidate → WriterState Disks → Prop}
    {stopped : Stop → WriterState Disks → Prop} {batches : List (List Candidate)}
    (keeps : Keeps s args batches.flatten inv stopped) {d : Disks} {m : Option Path}
    {counters : Option StatusCounters} (hstart : inv [] (.start d m counters)) :
    match (runWriter s.env args (messages batches)).run (.start d m counters) with
    | (.ok stats, w) => (∃ done, Ahead batches.flatten done ∧ inv done w) ∧ stats = w.books.stats
    | (.error e, w) => ∃ w', stopped e w' ∧ Still w' w := by
  have hahead : Ahead batches.flatten ([] ++ ([] ++ batches.flatten)) :=
    ⟨List.Subperm.refl _, fun c hc => ⟨c, hc, rfl⟩⟩
  have hloop := keeps.runWriterLoop hahead (.start d m counters) ⟨hstart, rfl⟩
  have hrun : (runWriter s.env args (messages batches)).run (.start d m counters) =
      (((BatchRecover.runWriterLoop s.env args (messages batches) []).run.run
          (.start d m counters)).1,
        ((BatchRecover.thaw s.env).run.run ((BatchRecover.runWriterLoop s.env args (messages batches) []).run.run
          (.start d m counters)).2).2) := rfl
  rw [hrun]
  rcases hend : (BatchRecover.runWriterLoop s.env args (messages batches) []).run.run
    (.start d m counters) with ⟨e | stats, w⟩
  · rw [hend] at hloop
    exact ⟨w, hloop, thaw_still w⟩
  · rw [hend] at hloop
    obtain ⟨⟨done, hdone, hinv⟩, rfl⟩ := hloop
    exact ⟨⟨done, hdone, keeps.still hinv (thaw_still w)⟩, (thaw_still w).stats.symm⟩

end Rotshield.BatchRecover
